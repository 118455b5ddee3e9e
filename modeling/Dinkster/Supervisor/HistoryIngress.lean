import Dinkster.Server.HistoryPaging

/-! The fleet's history: the ingress reads every member from its newest run, merges what lies
behind the cursor and cuts the page. Members answer as they like. -/
namespace Dinkster.History

variable {Time Facts : Type}

/-- What a member answers: a status other than 200, a body that is no object, or a body whose
records may be no list of job rows and whose cursor may be no text. -/
inductive Answer (Time Facts : Type)
  | status (code : Nat)
  | malformed
  | page (records : Option (List (Option (Row Time Facts)))) (cursor : Option (Option String))

structure IngressMember (Time Facts : Type) where
  ownerId : String
  state : String
  answer : Params → Answer Time Facts
  patience : Nat

structure Failure where
  engine : String
  state : String
  deriving DecidableEq

inductive Response (Time Facts : Type)
  | badRequest (message : String)
  | incomplete (members : List Failure)
  | page (p : Page Time Facts)

variable [LinearOrder Time]

def before (after : Option (Time × String)) (item : Row Time Facts) : Bool :=
  (after.map toLex).all fun k => decide (item.key < k)

def keep (after : Option (Time × String)) (wanted : Nat) (records : List (Row Time Facts)) :
    List (Row Time Facts) → List (Row Time Facts)
  | [] => records
  | item :: rest =>
    if before after item then
      if (records ++ [item]).length = wanted then records ++ [item]
      else keep after wanted (records ++ [item]) rest
    else keep after wanted records rest

/-- The loop over the pages of a member, between two requests. -/
structure Reading (Time Facts : Type) where
  records : List (Row Time Facts) := []
  upstream : Option String := none

def memberParams (params : Params) (wanted : Nat) (upstream : Option String) : Params :=
  { params with limit := some (some (min 200 wanted)), cursor := upstream }

def validRows (records : Option (List (Option (Row Time Facts)))) :
    Option (List (Row Time Facts)) :=
  records.bind fun rows => rows.mapM id

/-- One turn of the loop: the rows wanted, or where to read on; `none` is a `ValueError`. -/
def readPage (answer : Params → Answer Time Facts) (params : Params)
    (after : Option (Time × String)) (wanted : Nat) (r : Reading Time Facts) :
    Option (List (Row Time Facts) ⊕ Reading Time Facts) :=
  match answer (memberParams params wanted r.upstream) with
  | .status _ => none
  | .malformed => none
  | .page records cursor =>
    match validRows records,cursor with
    | none,_ => none
    | some page,none => some (.inl (keep after wanted r.records page))
    | some _,some none => none
    | some page,some (some next) =>
      if r.upstream = some next then none
      else some (.inr ⟨keep after wanted r.records page,some next⟩)

/-- The loop, as long as answers arrive: `none` is the timeout, `some none` a `ValueError`. -/
def historyMemberPage (answer : Params → Answer Time Facts) (params : Params)
    (after : Option (Time × String)) (wanted : Nat) :
    Nat → Reading Time Facts → Option (Option (List (Row Time Facts)))
  | 0,r => if r.records.length < wanted then none else some (some r.records)
  | patience + 1,r =>
    if r.records.length < wanted then
      match readPage answer params after wanted r with
      | none => some none
      | some (.inl records) => some (some records)
      | some (.inr next) => historyMemberPage answer params after wanted patience next
    else some (some r.records)

def fetch (params : Params) (after : Option (Time × String)) (limit : Nat)
    (member : IngressMember Time Facts) : Except Failure (List (Row Time Facts)) :=
  if member.state ≠ "ready" then .error ⟨member.ownerId,member.state⟩
  else
    match historyMemberPage member.answer params after (limit + 1) member.patience {} with
    | some (some records) => .ok records
    | _ => .error ⟨member.ownerId,"unreachable"⟩

def failures (results : List (Except Failure (List (Row Time Facts)))) : List Failure :=
  results.filterMap fun result => match result with
    | .error failure => some failure
    | .ok _ => none

def gathered (results : List (Except Failure (List (Row Time Facts)))) : List (Row Time Facts) :=
  results.flatMap fun result => match result with
    | .error _ => []
    | .ok records => records

variable (py : Python Time)

def ingressCursor (f : Filter) (cursor : Option String) :
    Except String (Option (Time × String)) :=
  match cursor with
  | none => .ok none
  | some cursor => match decodeCursor py cursor f.bound with
    | .ok after => .ok (some after)
    | .error _ => .error "malformed cursor"

def mergePage (f : Filter) (limit : Nat) (records : List (Row Time Facts)) : Page Time Facts :=
  let records := Keyset.descending Row.key records
  ⟨records.take limit,
    if limit < records.length then
      (records.take limit).getLast?.map fun last =>
        encodeCursor py f.bound (last.finishedAt,last.jobRef)
    else none⟩

def checkRequest (params : Params) : Except String (Filter × Nat × Option (Time × String)) := do
  let scope ← historyScope py params.scope
  let limit ← clampLimit params.limit
  let after ← ingressCursor py (params.filter scope) params.cursor
  return (params.filter scope,limit,after)

/-- `_history` -/
def history (members : List (IngressMember Time Facts)) (params : Params) :
    Response Time Facts :=
  match checkRequest py params with
  | .error message => .badRequest message
  | .ok (f,limit,after) =>
    let results := members.map (fetch params after limit)
    if failures results ≠ [] then .incomplete (failures results)
    else .page (mergePage py f limit (gathered results))

/-- A member that answers from its own history. -/
def HistoryStore.answer {Columns : Type} (store : HistoryStore Time Columns) (params : Params) :
    Answer Time (HistoryRecord Time Columns) :=
  match handleHistoryList py store params with
  | .error _ => .status 400
  | .ok page => .page (some (page.records.map some)) (page.cursor.map some)

end Dinkster.History
