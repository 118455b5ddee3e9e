import Dinkster.Lib.JsonObject
import Dinkster.Memory.ResidentPool
import Dinkster.Values.Pins
import Mathlib

/-! The parent's half of a release exchange with a worker: reading the replies, the gate that
condemns what a commit will name, and the settlement of a commit's reply. -/
namespace Dinkster.Workers
open Json Memory

variable {κ : Type}

/-- Drops every cache entry that references a resource; the text is what it raised. -/
abbrev Invalidator (κ : Type) := String → κ → κ × Option String

def invalidateAll : List (Invalidator κ) → String → κ → κ × Option String
  | [], _, caches => (caches,none)
  | invalidate :: rest, rid, caches =>
    match invalidate rid caches with
    | (caches,some error) => (caches,some error)
    | (caches,none) => invalidateAll rest rid caches

inductive Verdict
  | disqualified (error : String)
  | refused
  | condemned

def gateResource (invalidators : List (Invalidator κ)) (rid : String) (pins : ResourcePins)
    (caches : κ) : ResourcePins × κ × Verdict :=
  match invalidateAll invalidators rid caches with
  | (caches,some error) => (pins,caches,.disqualified error)
  | (caches,none) =>
    match pins.condemn rid with
    | none => (pins,caches,.refused)
    | some pins => (pins,caches,.condemned)

/-- `str` and `int` of the values of a frame; `int` may raise. -/
structure Builtins where
  str : Json.Value → String
  int : Json.Value → Option Int
  str_text : ∀ s, str (.str s) = s
  int_int : ∀ n, int (.int n) = some n

def iterate : Json.Value → Option (List Json.Value)
  | .arr items => some items
  | .str s => some (s.toList.map fun c => .str (String.singleton c))
  | .obj members => some (members.map fun e => .str e.1)
  | _ => none

/-- One candidate of a `memoryReleaseCandidates` frame; no number means that `int` raises. -/
structure ShedWire where
  itemId : String
  resourceId : String
  nbytes : Option Int
  token : String
  deriving DecidableEq

def readShedWire (py : Builtins) : Json.Value → Option ShedWire
  | .obj wire =>
    let resourceId := py.str ((Object.get? wire "resourceId").getD (.str ""))
    if resourceId = "" then none
    else some {
      itemId := py.str ((Object.get? wire "itemId").getD (.str ""))
      resourceId := resourceId
      nbytes := py.int ((Object.get? wire "nbytes").getD (.int 0))
      token := py.str ((Object.get? wire "token").getD (.str "")) }
  | _ => none

def readShedCandidates (py : Builtins) (reply : Object) : Option (List ShedWire) :=
  (iterate ((reply.get? "candidates").getD (.arr []))).map (·.filterMap (readShedWire py))

structure ShedGate (κ : Type) where
  pins : ResourcePins
  caches : κ
  condemned : List String
  safe : List ReleaseCandidate
  raised : Bool

/-- The gate of `_shed_release`; a conversion that raises ends it after the condemnation. -/
def gateShed (invalidators : List (Invalidator κ)) : List ShedWire → ShedGate κ → ShedGate κ
  | [], g => g
  | wire :: rest, g =>
    match gateResource invalidators wire.resourceId g.pins g.caches with
    | (pins,caches,.condemned) =>
      match wire.nbytes with
      | none => { g with
          pins := pins
          caches := caches
          condemned := g.condemned ++ [wire.resourceId]
          raised := true }
      | some nbytes => gateShed invalidators rest { g with
          pins := pins
          caches := caches
          condemned := g.condemned ++ [wire.resourceId]
          safe := g.safe ++ [⟨wire.itemId,wire.resourceId,nbytes,wire.token⟩] }
    | (pins,caches,_) => gateShed invalidators rest { g with pins := pins, caches := caches }

/-- The resource ids that a `memoryReleaseResult` reports; none when iterating raises. -/
def readReleased (py : Builtins) (reply : Object) : Option (List String) :=
  (iterate ((reply.get? "released").getD (.arr []))).map (·.map py.str)

/-- Whatever is not reported was refused by the child, and its condemnation is rolled back. -/
def settleShed (condemned released : List String) (pins : ResourcePins) : ResourcePins :=
  pins.absolveAll (condemned.filter (· ∉ released))

def statusOfText : String → Option ReleaseStatus
  | "complete" => some .complete
  | "ready" => some .ready
  | "busy" => some .busy
  | "unsupported" => some .unsupported
  | "error" => some .error
  | _ => none

/-- `_wire_status` -/
def wireStatus (wire : Object) (allowed : List ReleaseStatus) :
    Option (ReleaseStatus × Option String) :=
  match wire.get? "status" with
  | some (.str text) =>
    match statusOfText text with
    | none => none
    | some status =>
      if status ∉ allowed then none
      else if status = .error then
        match wire.get? "error" with
        | some (.str error) => if error = "" then none else some (status,some error)
        | _ => none
      else
        match wire.get? "error" with
        | none | some .null => some (status,none)
        | some _ => none
  | _ => none

/-- `wire.get(key) == text` -/
def isText (wire : Object) (key text : String) : Bool :=
  match wire.get? key with
  | some (.str other) => other == text
  | _ => false

def readSequence (wire : Object) (key : String) : Option (List Json.Value) :=
  match wire.get? key with
  | none => some []
  | some (.arr items) => some items
  | some _ => none

def readName (wire : Object) (key : String) : Option String :=
  match wire.get? key with
  | some (.str text) => if text = "" then none else some text
  | _ => none

def readBytes (wire : Object) : Option Int :=
  match wire.get? "nbytes" with
  | none => some 0
  | some (.int n) => if n < 0 then none else some n
  | some _ => none

def readCandidate : Json.Value → Option ReleaseCandidate
  | .obj wire => do
    let itemId ← readName wire "itemId"
    let resourceId ← readName wire "resourceId"
    let nbytes ← readBytes wire
    let token ← readName wire "token"
    return ⟨itemId,resourceId,nbytes,token⟩
  | _ => none

structure Proposal where
  consumer : String
  status : ReleaseStatus
  candidates : List ReleaseCandidate
  error : Option String
  deriving DecidableEq

def readProposal (names : List String) : Json.Value → Option Proposal
  | .obj wire => do
    let consumer ← readName wire "consumer"
    let (status,error) ← wireStatus wire [.ready,.busy,.unsupported,.error]
    if consumer ∈ names then none
    else
      let candidates ← (← readSequence wire "candidates").mapM readCandidate
      if (status = .unsupported ∨ status = .error) ∧ candidates ≠ [] then none
      else return ⟨consumer,status,candidates,error⟩
  | _ => none

def readProposals (names : List String) : List Json.Value → Option (List Proposal)
  | [] => some []
  | raw :: rest => do
    let proposal ← readProposal names raw
    let proposals ← readProposals (proposal.consumer :: names) rest
    return proposal :: proposals

/-- An invalid reply aborts the release; a worker that cannot or does not is done. -/
inductive QueryReply
  | aborted
  | finished (status : ReleaseStatus) (error : Option String)
  | proposals (status : ReleaseStatus) (proposals : List Proposal)

def readQuery (requestId workerInstance : String) (query : Object) : QueryReply :=
  if !isText query "type" "memoryFreeCandidates" then .aborted
  else
    match wireStatus query [.complete,.busy,.unsupported,.error] with
    | none => .aborted
    | some (status,error) =>
      if !isText query "operationRequestId" requestId ||
          !isText query "workerInstance" workerInstance then .aborted
      else if status = .unsupported ∨ status = .error then .finished status error
      else
        match (readSequence query "consumers").bind (readProposals []) with
        | none => .aborted
        | some proposals => .proposals status proposals

/-- What the gate made of one consumer: the approved candidates and its result. -/
structure Gate where
  consumer : String
  queryStatus : ReleaseStatus
  approved : List ReleaseCandidate
  status : ReleaseStatus
  error : Option String
  deriving DecidableEq

/-- `condemned[name]` -/
def Gate.condemned (g : Gate) : List String := g.approved.map (·.resourceId)

def gateCandidates (invalidators : List (Invalidator κ)) :
    List ReleaseCandidate → Gate → ResourcePins → κ → Gate × ResourcePins × κ
  | [], g, pins, caches => (g,pins,caches)
  | c :: rest, g, pins, caches =>
    match gateResource invalidators c.resourceId pins caches with
    | (pins,caches,.disqualified error) =>
      gateCandidates invalidators rest
        { g with status := .error, error := some ("cache invalidation failed: " ++ error) }
        pins caches
    | (pins,caches,.refused) =>
      gateCandidates invalidators rest
        { g with status := if g.status = .error then .error else .busy } pins caches
    | (pins,caches,.condemned) =>
      gateCandidates invalidators rest { g with approved := g.approved ++ [c] } pins caches

def gateConsumer (invalidators : List (Invalidator κ)) (proposal : Proposal)
    (pins : ResourcePins) (caches : κ) : Gate × ResourcePins × κ :=
  match proposal.status with
  | .busy | .unsupported => (⟨proposal.consumer,proposal.status,[],proposal.status,none⟩,pins,caches)
  | .error =>
    (⟨proposal.consumer,.error,[],.error,some (proposal.error.getD "consumer query failed")⟩,
      pins,caches)
  | status => gateCandidates invalidators proposal.candidates
      ⟨proposal.consumer,status,[],.complete,none⟩ pins caches

def gateConsumers (invalidators : List (Invalidator κ)) :
    List Proposal → ResourcePins → κ → List Gate × ResourcePins × κ
  | [], pins, caches => ([],pins,caches)
  | proposal :: rest, pins, caches =>
    let (gate,pins,caches) := gateConsumer invalidators proposal pins caches
    let (gates,pins,caches) := gateConsumers invalidators rest pins caches
    (gate :: gates,pins,caches)

structure FullExchange where
  requestId : String
  workerInstance : String
  queryTimedOut : Bool
  gates : List Gate
  deriving DecidableEq

/-- `condemned.get(name, set())` -/
def FullExchange.condemnedOf (x : FullExchange) (name : String) : List String :=
  match x.gates.find? (·.consumer = name) with
  | some gate => gate.condemned
  | none => []

structure ChildResult where
  consumer : String
  status : ReleaseStatus
  released : List String
  error : Option String
  deriving DecidableEq

def readText : Json.Value → Option String
  | .str text => if text = "" then none else some text
  | _ => none

def readChildResult (x : FullExchange) (seen : List String) : Json.Value → Option ChildResult
  | .obj wire => do
    let consumer ← readName wire "consumer"
    if consumer ∈ seen then none
    else
      let (status,error) ← wireStatus wire [.complete,.busy,.unsupported,.error]
      let released ← (← readSequence wire "released").mapM readText
      if released.Nodup ∧ ∀ rid ∈ released, rid ∈ x.condemnedOf consumer then
        return ⟨consumer,status,released,error⟩
      else none
  | _ => none

def readChildResults (x : FullExchange) (seen : List String) :
    List Json.Value → Option (List ChildResult)
  | [] => some []
  | raw :: rest => do
    let result ← readChildResult x seen raw
    let results ← readChildResults x (result.consumer :: seen) rest
    return result :: results

def readCommit (x : FullExchange) (commit : Object) :
    Option (ReleaseStatus × Option String × List ChildResult) :=
  if !isText commit "type" "memoryFreeResult" then none
  else if !isText commit "operationRequestId" x.requestId ||
      !isText commit "workerInstance" x.workerInstance then none
  else do
    let (status,error) ← wireStatus commit [.complete,.busy,.unsupported,.error]
    let results ← readChildResults x [] (← readSequence commit "consumers")
    if (results.map (·.consumer)).toFinset = (x.gates.map (·.consumer)).toFinset then
      return (status,error,results)
    else none

/-- An error may follow a partial release without a complete list of what was freed. Only a
validated refusal proves survival. -/
def ChildResult.refuses (r : ChildResult) : Bool := r.status = .busy || r.status = .unsupported

def settleGate (results : List ChildResult) (pins : ResourcePins) (gate : Gate) : ResourcePins :=
  match results.find? (·.consumer = gate.consumer) with
  | some child =>
    if child.refuses then pins.absolveAll (gate.condemned.filter (· ∉ child.released)) else pins
  | none => pins

def settleFull (x : FullExchange) (results : List ChildResult) (pins : ResourcePins) :
    ResourcePins := x.gates.foldl (settleGate results) pins

end Dinkster.Workers
