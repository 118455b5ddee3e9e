import Mathlib.Data.Prod.Lex
import Dinkster.Lib.Base64Url
import Dinkster.Lib.JsonRead
import Dinkster.Lib.Keyset
import Dinkster.Lib.Utf8

/-! The durable history of one engine: the finished runs it recorded, the query that lists them
and the cursors that page through the list. Finish times are floats that compare. -/
namespace Dinkster.History
open Json Object

/-- The conversions of numbers and texts that the code calls. -/
structure Python (Time : Type) where
  repr : Time → FloatText
  float : Value → Option Time
  str : Value → String
  strip : String → String
  readable : ∀ t, (repr t).Readable .plain
  float_repr : ∀ t, float (.float (repr t)) = some t
  str_str : ∀ s, str (.str s) = s

/-- A finished run; `facts` are the columns that no query reads. -/
structure HistoryRecord (Time Facts : Type) where
  runId : String
  scope : String
  clientId : String
  state : String
  sourceDocument : String
  finishedAt : Time
  facts : Facts

/-- A record on the wire, with the two fields that place it. -/
structure Row (Time Facts : Type) where
  finishedAt : Time
  jobRef : String
  facts : Facts

variable {Time Facts : Type}

def HistoryRecord.toWire (r : HistoryRecord Time Facts) : Row Time (HistoryRecord Time Facts) :=
  ⟨r.finishedAt,r.runId,r⟩

/-- Newer runs are larger, and ties go by the reference. -/
def Row.key (row : Row Time Facts) : Time ×ₗ String := toLex (row.finishedAt,row.jobRef)

def HistoryRecord.key (r : HistoryRecord Time Facts) : Time ×ₗ String :=
  toLex (r.finishedAt,r.runId)

structure HistoryStore (Time Facts : Type) where
  records : List (HistoryRecord Time Facts)
  distinct : (records.map (·.runId)).Nodup

structure Filter where
  scope : String
  clientId : String
  sourceDocument : String
  state : String

/-- `_filter_clauses`: an empty filter other than the scope is none. -/
def filterClauses (f : Filter) : List (HistoryRecord Time Facts → Bool) :=
  (fun r => decide (r.scope = f.scope)) ::
    ((if f.clientId ≠ "" then [fun r => decide (r.clientId = f.clientId)] else []) ++
      (if f.sourceDocument ≠ "" then [fun r => decide (r.sourceDocument = f.sourceDocument)]
        else []) ++
      (if f.state ≠ "" then [fun r => decide (r.state = f.state)] else []))

variable [LinearOrder Time]

def afterClause (after : Time × String) (r : HistoryRecord Time Facts) : Bool :=
  r.finishedAt < after.1 || (r.finishedAt = after.1 && decide (r.runId < after.2))

def HistoryStore.query (store : HistoryStore Time Facts) (f : Filter) (limit : Nat)
    (after : Option (Time × String)) : List (HistoryRecord Time Facts) :=
  let clauses := filterClauses f ++ after.toList.map afterClause
  (Keyset.descending HistoryRecord.key
    (store.records.filter fun r => clauses.all (· r))).take (max 1 limit)

def Filter.bound (f : Filter) : List (String × String) :=
  [("s",f.scope),("c",f.clientId),("d",f.sourceDocument),("t",f.state)]

variable (py : Python Time)

def cursorPayload (bound : List (String × String)) (after : Time × String) : Value :=
  .obj [("b",.obj (bound.map fun e => (e.1,.str e.2))),("m",.float (py.repr after.1)),
    ("i",.str after.2)]

def encodeCursor (bound : List (String × String)) (after : Time × String) : String :=
  String.ofList (Base64Url.encode (Utf8.bytes (text .spaced (cursorPayload py bound after))))

def readCursor (cursor : String) : Option (Object × (Time × String)) := do
  let bytes ← Base64Url.decodeLenient cursor.toList
  let payload ← (Utf8.text? bytes).bind (loads .plain)
  match payload with
  | .obj data =>
    let time ← (get? data "m").bind py.float
    let ref ← get? data "i"
    match ← get? data "b" with
    | .obj entries => some (entries,time,py.str ref)
    | _ => none
  | _ => none

/-- `{str(k): str(v)} == dict(bound)` -/
def boundMatches (entries : Object) (bound : List (String × String)) : Bool :=
  (entries.map fun e => (e.1,py.str e.2)).isPerm bound

def decodeCursor (cursor : String) (bound : List (String × String)) :
    Except String (Time × String) :=
  match readCursor py cursor with
  | none => .error "malformed cursor"
  | some (entries,after) =>
    if boundMatches py entries bound then .ok after
    else .error "cursor does not match this query"

/-- The parameters of a request; a limit may be no integer. -/
structure Params where
  scope : Option String := none
  clientId : Option String := none
  sourceDocument : Option String := none
  state : Option String := none
  limit : Option (Option Int) := none
  cursor : Option String := none

/-- `min(200, max(1, int(limit)))` -/
def clampLimit : Option (Option Int) → Except String Nat
  | none => .ok 50
  | some none => .error "limit must be an integer"
  | some (some n) => .ok (min 200 (max 1 n)).toNat

/-- `_history_scope` of the local principal. -/
def historyScope (scope : Option String) : Except String String :=
  match scope with
  | none => .error "scope is required (single-user: 'local')"
  | some scope =>
    if py.strip scope = "" then .error "scope is required (single-user: 'local')"
    else .ok (py.strip scope)

def Params.filter (params : Params) (scope : String) : Filter :=
  ⟨scope,params.clientId.getD "",params.sourceDocument.getD "",params.state.getD ""⟩

structure Page (Time Facts : Type) where
  records : List (Row Time Facts)
  cursor : Option String

def requestCursor (f : Filter) (cursor : Option String) :
    Except String (Option (Time × String)) :=
  match cursor.filter (· ≠ "") with
  | none => .ok none
  | some cursor => (decodeCursor py cursor f.bound).map some

def pageOf (f : Filter) (limit : Nat) (records : List (HistoryRecord Time Facts)) :
    Page Time (HistoryRecord Time Facts) :=
  ⟨(records.take limit).map (·.toWire),
    if limit < records.length then
      (records.take limit).getLast?.map fun last =>
        encodeCursor py f.bound (last.finishedAt,last.runId)
    else none⟩

def handleHistoryList (store : HistoryStore Time Facts) (params : Params) :
    Except String (Page Time (HistoryRecord Time Facts)) := do
  let scope ← historyScope py params.scope
  let limit ← clampLimit params.limit
  let after ← requestCursor py (params.filter scope) params.cursor
  return pageOf py (params.filter scope) limit
    (store.query (params.filter scope) (limit + 1) after)

end Dinkster.History
