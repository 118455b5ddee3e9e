import Dinkster.Server.Journal

/-! Durable execution-run logs. Published events are buffered, a flush lands them in one
transaction, and retention expires the streams of finished runs. The run index lives in the
file of the streams. -/
namespace Dinkster.ExecutionJournal
open Journal (PyStr Store Entry Raised encodable)

def codes (text : String) : PyStr := text.toList.map fun c => Fin.ofNat 0x110000 c.toNat

def executionRunStreamPrefix : PyStr := codes "execution-run/"

def maxPendingRecords : Nat := 8192

def lifecycleTypes : List String :=
  ["run_started","node_started","node_cached","cache_miss","node_finished","node_failed",
    "node_skipped","region_expanded","region_iteration_started","region_iteration_finished",
    "region_finished","run_finished"]

def terminalStates : List String := ["completed","failed","cancelled"]

def executionRunStream (runId : PyStr) : PyStr := executionRunStreamPrefix ++ runId

/-- A published event, as far as `observe` looks into it: a field that is missing or no string
is `none`, and `jobRef` tells the two apart. -/
structure Wire where
  binaryBlob : Bool := false
  jobRef : Option (Option PyStr) := none
  runId : Option PyStr := none
  type : Option String := none
  state : Option String := none
  event : Option String := none
  level : Option String := none
  nodeId : Option PyStr := none
  members : List (String × Json.Value) := []

structure Append where
  runId : PyStr
  scope : PyStr
  name : String
  payload : Json.Value
  durable : Bool
  timestamp : ℚ

structure Finalize where
  runId : PyStr
  keepers : List Json.Value
  timestamp : ℚ

inductive Item
  | append (item : Append)
  | finalize (item : Finalize)

def Item.runId : Item → PyStr
  | .append item => item.runId
  | .finalize item => item.runId

structure Retention where
  keepRuns : Nat := 200
  keepDays : ℚ := 30
  nonneg : 0 ≤ keepDays := by norm_num

/-- The checks of `__init__`. -/
def Retention.make (keepRuns : Int) (keepDays : ℚ) : Except Raised Retention :=
  if keepRuns < 0 then .error (.valueError "keep_runs must be non-negative")
  else if days : keepDays < 0 then .error (.valueError "keep_days must be non-negative")
  else .ok ⟨keepRuns.toNat,keepDays,not_lt.mp days⟩

def Retention.cutoff (r : Retention) (now : ℚ) : ℚ := now - r.keepDays * 86400

structure RunRow where
  scope : PyStr
  started : ℚ
  finished : Option ℚ := none

/-- What the index went through, which no code reads: a row was inserted, a terminal marker
landed or a later process found the run abandoned, retention dropped the run. -/
inductive Note
  | started (runId : PyStr)
  | ended (runId : PyStr)
  | expired (runId : PyStr)
  deriving DecidableEq

def Note.runId : Note → PyStr
  | .started runId => runId
  | .ended runId => runId
  | .expired runId => runId

structure Tables where
  index : Dict PyStr RunRow := .empty
  store : Store := {}
  notes : List Note := []

def Append.entry (a : Append) : Entry :=
  ⟨executionRunStream a.runId,codes a.name,a.payload,some a.durable,some (.finite a.timestamp),
    a.timestamp⟩

def Finalize.entry (f : Finalize) (keeper : Json.Value) : Entry :=
  ⟨executionRunStream f.runId,codes "progress",keeper,some true,some (.finite f.timestamp),
    f.timestamp⟩

def dropsRecord : Raised → Bool
  | .valueError _ => true
  | .unicodeEncodeError => true
  | _ => false

namespace Tables

variable (t : Tables)

def register (a : Append) : Except Raised Tables :=
  if encodable a.runId && encodable a.scope then
    match t.index.get? a.runId with
    | some _ => .ok t
    | none => .ok { t with
        index := t.index.set a.runId ⟨a.scope,a.timestamp,none⟩
        notes := t.notes ++ [.started a.runId] }
  else .error .unicodeEncodeError

def append (e : Entry) : Except Raised Tables :=
  match t.store.append e with
  | (.ok _,store) => .ok { t with store := store }
  | (.error raised,store) =>
    if dropsRecord raised then .ok { t with store := store } else .error raised

/-- `prune_coalescible(stream, latest_seq(stream))` -/
def prune (stream : PyStr) : Except Raised Tables :=
  match t.store.pruneCoalescible stream (t.store.latestSeq stream) with
  | (.ok _,store) => .ok { t with store := store }
  | (.error raised,_) => .error raised

def markFinished (runId : PyStr) (timestamp : ℚ) : Tables :=
  { t with
    index := match t.index.get? runId with
      | some row => t.index.set runId { row with finished := some timestamp }
      | none => t.index
    notes := t.notes ++ [.ended runId] }

def finishedRuns : List (PyStr × ℚ) :=
  (t.index.entries.filterMap fun (runId,row) => row.finished.map fun at_ => (runId,at_)).mergeSort
    fun a b => decide (b.2 < a.2 ∨ (b.2 = a.2 ∧ b.1 ≤ a.1))

def expiredRuns (r : Retention) (now : ℚ) : List PyStr :=
  ((t.finishedRuns.filter fun run => run.2 < r.cutoff now).map (·.1) ++
    (t.finishedRuns.drop r.keepRuns).map (·.1)).dedup

def dropRun (runId : PyStr) : Except Raised Tables :=
  match t.store.deleteStream (executionRunStream runId) with
  | (.ok _,store) => .ok ⟨t.index.erase runId,store,t.notes ++ [.expired runId]⟩
  | (.error raised,_) => .error raised

def expire (r : Retention) (now : ℚ) : Except Raised Tables :=
  (t.expiredRuns r now).foldlM dropRun t

def lastEvent (runId : PyStr) (row : RunRow) : ℚ :=
  ((t.store.records (executionRunStream runId)).map (·.timestamp)).max?.getD row.started

def abandon : Tables :=
  { t with
    index := t.index.mapWithKey fun runId row =>
      { row with finished := some (row.finished.getD (t.lastEvent runId row)) }
    notes := t.notes ++
      (t.index.entries.filter fun (_,row) => row.finished.isNone).map fun (runId,_) =>
        .ended runId }

def bootstrap (r : Retention) (now : ℚ) : Except Raised Tables := t.abandon.expire r now

end Tables

structure Landing where
  registered : List PyStr := []
  tables : Tables

namespace Landing

variable (r : Retention) (b : Landing)

def append (a : Append) : Except Raised Landing :=
  if a.runId ∈ b.registered then do
    .ok ⟨b.registered,← b.tables.append a.entry⟩
  else do
    .ok ⟨a.runId :: b.registered,← (← b.tables.register a).append a.entry⟩

def finalize (f : Finalize) : Except Raised Landing := do
  let kept ← f.keepers.foldlM (fun t keeper => t.append (f.entry keeper)) b.tables
  let pruned ← kept.prune (executionRunStream f.runId)
  let expired ← (pruned.markFinished f.runId f.timestamp).expire r f.timestamp
  .ok ⟨b.registered,expired⟩

def land : Item → Except Raised Landing
  | .append a => b.append a
  | .finalize f => b.finalize r f

end Landing

/-- `_write`, before the transaction commits or rolls back. -/
def write (r : Retention) (t : Tables) (batch : List Item) : Except Raised Landing :=
  batch.foldlM (Landing.land r) ⟨[],t⟩

structure Pipeline where
  retention : Retention
  tables : Tables := {}
  pending : List Item := []
  /-- The batch that a flush has taken and not written. -/
  flushing : Option (List Item) := none
  lastProgress : Dict PyStr (Dict PyStr Json.Value) := .empty
  closed : Bool := false

def Wire.ref (w : Wire) : Option PyStr :=
  (w.jobRef.getD w.runId).filter fun id => !id.isEmpty

/-- How an event that the journal keeps is named, whether it is durable, and whether it ends
its run. -/
structure Kept where
  name : String
  durable : Bool
  terminal : Bool := false

def Wire.kept (w : Wire) : Option Kept := do
  let kind ← w.type
  if kind = "job_state" then
    some ⟨"job_state",true,w.state.any fun state => state ∈ terminalStates⟩
  else if kind = "node_event" then
    if w.event = some "log" then some ⟨"log",w.level = some "warning",false⟩
    else if w.event = some "progress" then some ⟨"progress",false,false⟩
    else none
  else if kind ∈ lifecycleTypes then some ⟨kind,true,false⟩
  else none

namespace Pipeline

variable (p : Pipeline)

def progress (runId : PyStr) (w : Wire) : Dict PyStr (Dict PyStr Json.Value) :=
  match w.nodeId with
  | some nodeId =>
    if w.type = some "node_event" ∧ w.event = some "progress" then
      p.lastProgress.set runId
        (((p.lastProgress.get? runId).getD .empty).set nodeId (.obj w.members))
    else p.lastProgress
  | none => p.lastProgress

def finish (runId : PyStr) (now : ℚ) : Pipeline :=
  let keepers := ((p.lastProgress.get? runId).getD .empty).entries.map (·.2)
  { p with
    lastProgress := p.lastProgress.erase runId
    pending := p.pending ++ [.finalize ⟨runId,keepers,now⟩] }

/-- Telemetry is shed past the ceiling of the buffer, a terminal event is followed by the
marker of its run. -/
def buffer (runId : PyStr) (kept : Kept) (w : Wire) (scope : PyStr) (now later : ℚ) : Pipeline :=
  let p := { p with lastProgress := p.progress runId w }
  if !kept.durable && maxPendingRecords ≤ p.pending.length then p
  else
    let item : Append := ⟨runId,scope,kept.name,.obj w.members,kept.durable,now⟩
    let p := { p with pending := p.pending ++ [.append item] }
    if kept.terminal then p.finish runId later else p

def observe (w : Wire) (scope : PyStr) (now later : ℚ) : Pipeline :=
  if p.closed || w.binaryBlob then p
  else match w.ref with
    | none => p
    | some runId => match w.kept with
      | none => p
      | some kept => p.buffer runId kept w scope now later

end Pipeline

inductive Action
  | observe (wire : Wire) (scope : PyStr) (now later : ℚ)
  | close
  | take
  /-- The batch is written; `fails` stands for an error of the database. -/
  | write (fails : Bool)
  /-- A new process opens the file, whatever the last one was doing. -/
  | restart (keepRuns : Int) (keepDays now : ℚ)

def Pipeline.commit (p : Pipeline) (fails : Bool) (batch : List Item) : Pipeline :=
  match fails,ExecutionJournal.write p.retention p.tables batch with
  | false,.ok b => { p with tables := b.tables, flushing := none }
  | _,_ => { p with flushing := none }

def restart (t : Tables) (keepRuns : Int) (keepDays now : ℚ) : Except Raised Pipeline := do
  let retention ← Retention.make keepRuns keepDays
  let tables ← t.bootstrap retention now
  .ok { retention := retention, tables := tables }

def step (p : Pipeline) : Action → Option Pipeline
  | .observe w scope now later => some (p.observe w scope now later)
  | .close => some { p with closed := true }
  | .take =>
    if p.flushing.isNone && !p.pending.isEmpty then
      some { p with flushing := some p.pending, pending := [] }
    else none
  | .write fails => p.flushing.map (p.commit fails)
  | .restart keepRuns keepDays now => (restart p.tables keepRuns keepDays now).toOption

def Tables.Gone (t : Tables) (runId : PyStr) : Prop :=
  Note.expired runId ∈ t.notes ∧ t.index.get? runId = none

def Landing.Touches (b : Landing) : Item → Prop
  | .append a => a.runId ∉ b.registered ∨ ∃ checked, a.entry.check = .ok checked
  | .finalize f => ∃ keeper ∈ f.keepers, ∃ checked, (f.entry keeper).check = .ok checked

/-- The item is about a run that is gone, and either the batch has registered the run or no
terminal marker of it follows in the batch. -/
def Landing.Late (b : Landing) (item : Item) (rest : List Item) : Prop :=
  b.tables.Gone item.runId ∧ b.Touches item ∧
    (item.runId ∈ b.registered ∨ ∀ f, .finalize f ∈ rest → f.runId ≠ item.runId)

/-- No item of the batch is late where it lands. -/
def Punctual (r : Retention) (t : Tables) (batch : List Item) : Prop :=
  ∀ before item rest b, batch = before ++ item :: rest → write r t before = .ok b →
    ¬ b.Late item rest

/-- A batch that commits has no late item. -/
def OnTime (p : Pipeline) : Action → Prop
  | .write false => ∀ batch b, p.flushing = some batch →
      write p.retention p.tables batch = .ok b → Punctual p.retention p.tables batch
  | _ => True

end Dinkster.ExecutionJournal
