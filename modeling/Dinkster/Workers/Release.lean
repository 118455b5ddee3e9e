import Dinkster.Memory.ResidentRelease
import Dinkster.Workers.Settlement

/-! The two-phase release between one parent and one worker. The parent's runs pin what they hold
and its caches keep entries; the child uses its residents and answers queries and commits. Frames
travel for any time, and the parent may stop waiting for a reply. -/
namespace Dinkster.Workers
open Memory Transition

/-- An entry of one of the parent's caches, with the resources that its values name. -/
structure CacheEntry where
  cache : Nat
  key : String
  refs : List String
  deriving DecidableEq

def dropReferencing (fails : Nat → String → Option String) (cache : Nat) :
    Invalidator (List CacheEntry) := fun rid entries =>
  match fails cache rid with
  | some error => (entries,some error)
  | none => (entries.filter fun e => !(e.cache == cache && e.refs.contains rid),none)

def invalidators (fails : Nat → String → Option String) (caches : Nat) :
    List (Invalidator (List CacheEntry)) := (List.range caches).map (dropReferencing fails)

/-- `_pin_outputs`: pins what is not condemned and records it for the end of the run. -/
def pinOutputs : List String → ResourcePins × List String → ResourcePins × List String
  | [], acc => acc
  | rid :: rest, (pins,pinned) =>
    match pins.pin rid with
    | some pins => pinOutputs rest (pins,pinned ++ [rid])
    | none => pinOutputs rest (pins,pinned)

structure Selection where
  consumer : String
  status : ReleaseStatus
  candidates : List ReleaseCandidate
  deriving DecidableEq

/-- Where an exchange is: the reply to the query travels, the commit travels, the commit is read,
or the reply to the commit travels. -/
inductive Stage
  | proposed (proposals : List Proposal)
  | committed
  | selected (selections : List Selection)
  | answered (results : List ChildResult)
  deriving DecidableEq

structure Flight where
  full : Bool
  gates : List Gate
  stage : Stage
  deriving DecidableEq

def Flight.resources (f : Flight) : List String :=
  match f.stage with
  | .proposed proposals => proposals.flatMap fun p => p.candidates.map (·.resourceId)
  | _ => f.gates.flatMap Gate.condemned

/-- Ids drawn by the pools of a worker; no two pools draw the same. -/
structure Draws where
  of : String → Uuids
  apart : ∀ name name' n n', (of name).text n = (of name').text n' → name = name'

/-- `named` collects the resources that values of the child have named. -/
structure System where
  parent : Parent (List CacheEntry)
  runs : Dict Nat (List String)
  pools : Dict String ResidentPool
  held : Finset String
  named : Finset String
  flights : Dict Nat Flight

inductive Action
  | pin (run : Nat) (rids : List String)
  | finish (run : Nat)
  | put (run cache : Nat) (key : String) (refs : List String)
  | evict (cache : Nat) (key : String)
  | encode (consumer : String) (obj : Obj) (inFlight : Bool)
  | decode (consumer rid : String) (obj : Obj)
  | acknowledge (rids : List String)
  | proposeShed (id : Nat) (consumer device : String) (bytesNeeded : Int)
      (items : Option (List String))
  | proposeFull (id : Nat) (active : Bool)
  | gate (id : Nat) (fails : Nat → String → Option String) (requestId workerInstance : String)
      (timedOut : Bool)
  | abandon (id : Nat)
  | read (id : Nat) (active : Bool)
  | execute (id : Nat) (device : String) (mechanisms : String → Mechanism)
  | settle (id : Nat)
  | lose (id : Nat)

namespace System

/-- A worker with empty pools. -/
def initial (consumers : List String) : System where
  parent := .initial []
  runs := .empty
  pools := Dict.ofList (consumers.map fun name => (name,.empty))
  held := ∅
  named := ∅
  flights := .empty

/-- `memoryReleaseQuery`: candidates that no result in flight names. -/
def shedProposal (s : System) (consumer device : String) (bytesNeeded : Int)
    (items : Option (List String)) : Proposal where
  consumer := consumer
  status := .ready
  candidates := match s.pools.get? consumer with
    | some pool => (pool.proposeRelease device bytesNeeded items).filter (·.resourceId ∉ s.held)
    | none => []
  error := none

/-- `memoryFreeQuery` on one consumer. -/
def fullProposal (s : System) (active : Bool) (consumer : String) (pool : ResidentPool) :
    Proposal :=
  if active then ⟨consumer,.busy,[],none⟩
  else
    let available := pool.proposeFullRelease.filter (·.resourceId ∉ s.held)
    ⟨consumer,if available.length ≠ pool.proposeFullRelease.length then .busy else .ready,
      available,none⟩

/-- `snapshot_commit_candidates` -/
def selectShed (held : Finset String) (gate : Gate) : Selection :=
  ⟨gate.consumer,.ready,gate.approved.filter (·.resourceId ∉ held)⟩

/-- The checks of `snapshot_full_release_commit` on the commit frame. -/
def validCommit (consumers : List String) (gates : List Gate) : Bool :=
  (gates.map (·.consumer)).Nodup &&
    gates.all (fun g => (g.queryStatus = .ready || g.approved = []) &&
      (g.approved.map (·.itemId)).Nodup) &&
    (gates.map (·.consumer)).toFinset = consumers.toFinset

/-- `snapshot_full_release_commit`; nothing is selected from an invalid commit. -/
def selectFull (held : Finset String) (active : Bool) (consumers : List String)
    (gates : List Gate) : List Selection :=
  if validCommit consumers gates then
    gates.map fun g =>
      if active then ⟨g.consumer,.busy,[]⟩
      else ⟨g.consumer,g.queryStatus,g.approved.filter (·.resourceId ∉ held)⟩
  else []

def releasedResources (candidates : List ReleaseCandidate) (outcome : List (String × Nat)) :
    List String :=
  outcome.filterMap fun e =>
    (candidates.reverse.find? (·.itemId = e.1)).map (·.resourceId)

def executeShed (mechanisms : String → Mechanism) (device : String) (selection : Selection)
    (consumer : String) (pool : ResidentPool) : ResidentPool × ChildResult :=
  if selection.consumer = consumer then
    let (pool,outcome) := pool.release (mechanisms consumer) device selection.candidates
    (pool,⟨consumer,.complete,releasedResources selection.candidates outcome,none⟩)
  else (pool,⟨consumer,.complete,[],none⟩)

def executeFull (mechanisms : String → Mechanism) (selections : List Selection)
    (consumer : String) (pool : ResidentPool) : ResidentPool × ChildResult :=
  match selections.find? (·.consumer = consumer) with
  | none => (pool,⟨consumer,.error,[],some "consumer selection was not valid"⟩)
  | some selection =>
    if selection.status = .error then
      (pool,⟨consumer,.error,[],some "consumer selection was not valid"⟩)
    else if selection.status ≠ .ready then (pool,⟨consumer,selection.status,[],none⟩)
    else
      let (pool,outcome,status,error) :=
        pool.releaseFull (mechanisms consumer) selection.candidates
      (pool,⟨consumer,status,releasedResources selection.candidates outcome,error⟩)

def executePool (full : Bool) (mechanisms : String → Mechanism) (device : String)
    (selections : List Selection) (consumer : String) (pool : ResidentPool) :
    ResidentPool × ChildResult :=
  if full then executeFull mechanisms selections consumer pool
  else
    match selections.head? with
    | some selection => executeShed mechanisms device selection consumer pool
    | none => (pool,⟨consumer,.complete,[],none⟩)

def resultsOf (execute : String → ResidentPool → ResidentPool × ChildResult)
    (pools : Dict String ResidentPool) : List ChildResult :=
  pools.entries.map fun e => (execute e.1 e.2).2

def shedReleased (f : Flight) (results : List ChildResult) : List String :=
  match f.gates.head? with
  | some gate =>
    match results.find? (·.consumer = gate.consumer) with
    | some child => child.released
    | none => []
  | none => []

def toShedWire (c : ReleaseCandidate) : ShedWire :=
  ⟨c.itemId,c.resourceId,some c.nbytes,c.token⟩

def withFlight (s : System) (id : Nat) (f : Flight) : System :=
  { s with flights := s.flights.set id f }

def withoutFlight (s : System) (id : Nat) : System := { s with flights := s.flights.erase id }

def gateFlight (caches : Nat) (s : System) (id : Nat) (f : Flight) (proposals : List Proposal)
    (fails : Nat → String → Option String) (requestId workerInstance : String) (timedOut : Bool) :
    System :=
  if f.full then
    let (parent,gates) := s.parent.openFull id (invalidators fails caches) proposals requestId
      workerInstance timedOut
    { s with parent := parent }.withFlight id ⟨true,gates,.committed⟩
  else
    match proposals.head? with
    | none => s.withoutFlight id
    | some proposal =>
      let (parent,safe) := s.parent.openShed id (invalidators fails caches)
        (proposal.candidates.map toShedWire)
      if safe = [] then { s with parent := parent }.withoutFlight id
      else { s with parent := parent }.withFlight id
        ⟨false,[⟨proposal.consumer,.ready,safe,.complete,none⟩],.committed⟩

def step (draws : Draws) (caches : Nat) (s : System) : Action → Option System
  | .pin run rids =>
    if ∀ rid ∈ rids, rid ∈ s.named then
      let (pins,pinned) := pinOutputs rids (s.parent.pins,(s.runs.get? run).getD [])
      some { s with
        parent := { s.parent with pins := pins }
        runs := s.runs.set run pinned }
    else none
  | .finish run =>
    match s.runs.get? run with
    | none => none
    | some pinned => some { s with
        parent := { s.parent with pins := pinned.foldl ResourcePins.unpin s.parent.pins }
        runs := s.runs.erase run }
  | .put run cache key refs =>
    if cache < caches ∧ ∀ rid ∈ refs, rid ∈ (s.runs.get? run).getD [] then
      some { s with parent := { s.parent with
        caches := (s.parent.caches.filter fun e => !(e.cache == cache && e.key == key)) ++
          [⟨cache,key,refs⟩] } }
    else none
  | .evict cache key => some { s with parent := { s.parent with
      caches := s.parent.caches.filter fun e => !(e.cache == cache && e.key == key) } }
  | .encode consumer obj inFlight =>
    match s.pools.get? consumer with
    | none => none
    | some pool =>
      match pool.metadata (draws.of consumer) obj with
      | (pool,none) => some { s with pools := s.pools.set consumer pool }
      | (pool,some names) => some { s with
          pools := s.pools.set consumer (pool.ridFor (draws.of consumer) obj).1
          named := s.named ∪ names.toFinset
          held := if inFlight then s.held ∪ names.toFinset else s.held }
  | .decode consumer rid obj =>
    match s.pools.get? consumer with
    | none => none
    | some pool =>
      (pool.get (draws.of consumer) rid obj).map fun pool =>
        { s with pools := s.pools.set consumer pool }
  | .acknowledge rids => some { s with held := s.held \ rids.toFinset }
  | .proposeShed id consumer device bytesNeeded items =>
    if id ∈ s.flights.keys then none
    else some (s.withFlight id
      ⟨false,[],.proposed [s.shedProposal consumer device bytesNeeded items]⟩)
  | .proposeFull id active =>
    if id ∈ s.flights.keys then none
    else some (s.withFlight id
      ⟨true,[],.proposed (s.pools.entries.map fun e => s.fullProposal active e.1 e.2)⟩)
  | .gate id fails requestId workerInstance timedOut =>
    match s.flights.get? id with
    | some f =>
      match f.stage with
      | .proposed proposals =>
        some (s.gateFlight caches id f proposals fails requestId workerInstance timedOut)
      | _ => none
    | none => none
  | .abandon id =>
    match s.flights.get? id with
    | some f =>
      match f.stage with
      | .proposed _ => some (s.withoutFlight id)
      | _ => none
    | none => none
  | .read id active =>
    match s.flights.get? id with
    | some f =>
      match f.stage with
      | .committed =>
        some (s.withFlight id ⟨f.full,f.gates,.selected
          (if f.full then selectFull s.held active s.pools.keys f.gates
          else f.gates.map (selectShed s.held))⟩)
      | _ => none
    | none => none
  | .execute id device mechanisms =>
    match s.flights.get? id with
    | some f =>
      match f.stage with
      | .selected selections =>
        let execute := executePool f.full mechanisms device selections
        some ({ s with
          pools := s.pools.mapWithKey fun consumer pool => (execute consumer pool).1 }.withFlight id
            ⟨f.full,f.gates,.answered (resultsOf execute s.pools)⟩)
      | _ => none
    | none => none
  | .settle id =>
    match s.flights.get? id with
    | some f =>
      match f.stage with
      | .answered results =>
        let closed := if f.full then s.parent.closeFull id (some results)
          else s.parent.closeShed id (some (shedReleased f results))
        some ({ s with parent := closed.getD s.parent }.withoutFlight id)
      | _ => none
    | none => none
  | .lose id =>
    match s.flights.get? id with
    | some f =>
      (if f.full then s.parent.closeFull id none else s.parent.closeShed id none).map
        fun parent => { s with parent := parent }
    | none => none

end System

end Dinkster.Workers
