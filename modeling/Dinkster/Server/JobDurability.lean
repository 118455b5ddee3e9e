import Dinkster.Server.JobQueue

/-! The durable record of accepted work: the two tables of the history store, the store transactions
that each stretch of the queue makes in order, and the server process, which may die between any two
of them and recovers what it finds on its next start. Timestamps, documents and results are left out,
and the listener of job events does not raise. -/
namespace Dinkster.JobQueue

inductive AcceptedState
  | queued | running
  deriving DecidableEq

structure AcceptedRow where
  key : JobKey
  priority : Int
  fingerprint : String
  state : AcceptedState
  deriving DecidableEq

/-- The state of a history row: a terminal `JobState`, or what a crash left behind. -/
inductive RecordState
  | completed | failed | cancelled | interrupted
  deriving DecidableEq

structure Interruption where
  phase : String
  message : String
  fingerprint : String
  deriving DecidableEq

structure HistoryRecord where
  key : JobKey
  priority : Int
  state : RecordState
  error : Option Interruption
  deriving DecidableEq

structure HistoryStore where
  accepted : Dict RunRef AcceptedRow := .empty
  history : Dict RunRef HistoryRecord := .empty

def recordFromJob (job : Job) : Option HistoryRecord :=
  match job.state with
  | .completed => some ⟨job.key,job.priority,.completed,none⟩
  | .failed => some ⟨job.key,job.priority,.failed,none⟩
  | .cancelled => some ⟨job.key,job.priority,.cancelled,none⟩
  | .queued | .running => none

/-- What `recover_interrupted` makes of a row that a dead process left. -/
def interruptedRecord (row : AcceptedRow) : HistoryRecord :=
  let phase := if row.state = .running then "running" else "queued"
  let message := (if row.state = .running then "the server exited while this job was running"
    else "the server exited before this job started") ++
      "; it was not re-run - resubmit it to run it"
  ⟨row.key,row.priority,.interrupted,some ⟨phase,message,row.fingerprint⟩⟩

/-- A transaction that the queue asks for. -/
inductive StoreCall
  | jobAccepted (job : Job)
  | jobStarted (job : Job)
  | jobTerminal (job : Job)

namespace HistoryStore

variable (s : HistoryStore)

def put (r : RunRef) (record : HistoryRecord) : HistoryStore :=
  match s.history.get? r with
  | some _ => s
  | none => { s with history := s.history.set r record }

/-- A raise is `none`. -/
def call : StoreCall → Option HistoryStore
  | .jobAccepted job => match s.accepted.get? job.runId with
    | some _ => none
    | none => some { s with
        accepted := s.accepted.set job.runId ⟨job.key,job.priority,job.fingerprint,.queued⟩ }
  | .jobStarted job => match s.accepted.get? job.runId with
    | some row => some { s with
        accepted := s.accepted.set job.runId { row with state := .running } }
    | none => some s
  | .jobTerminal job => match recordFromJob job with
    | some record =>
      let s := s.put job.runId record
      some { s with accepted := s.accepted.erase job.runId }
    | none => none

def attempt (fault : Bool) (c : StoreCall) : HistoryStore × Bool :=
  if fault then (s,false)
  else match s.call c with
    | some written => (written,true)
    | none => (s,false)

def attemptAll (s : HistoryStore) : List Bool → List StoreCall → HistoryStore
  | _, [] => s
  | faults, c :: cs => (s.attempt (faults.headD false) c).1.attemptAll faults.tail cs

def recoverInterrupted : HistoryStore :=
  let s := s.accepted.entries.foldl (fun s e => s.put e.1 (interruptedRecord e.2)) s
  { s with accepted := .empty }

/-- `delete` and `delete_where`, on the rows that the request selects. -/
def delete (chosen : RunRef → Bool) : HistoryStore :=
  { s with history := s.history.filterKeys fun r => !chosen r }

end HistoryStore

namespace Queue

variable (q : Queue)

def submitCalls (key : JobKey) (priority : Int) (fingerprint : String) (admitted : Bool) :
    List StoreCall :=
  if q.closed ∨ admitted = false then []
  else if (q.job? key).any fun job => !job.state.terminal then []
  else [.jobAccepted { key, priority, runId := q.nextRun, fingerprint }]

/-- `_finish` writes the terminal job. -/
def finishCalls (job : Job) (state : JobState) : List StoreCall := [.jobTerminal { job with state }]

def cancelCalls (key : JobKey) : List StoreCall :=
  match q.job? key with
  | none => []
  | some job => if job.state = .queued then finishCalls job .cancelled else []

def cancelAllCalls : List RunRef → Queue → List StoreCall
  | [], _ => []
  | r :: victims, q => match q.heap.get? r with
    | some job => finishCalls job .cancelled ++ cancelAllCalls victims (q.cancelQueued r job)
    | none => cancelAllCalls victims q

def dispatchCalls : Nat → Queue → List StoreCall
  | 0, _ => []
  | n + 1, q =>
    if ¬q.paused ∧ ¬q.maintenanceActive ∧ q.running.length < q.maxRunning then
      match Canonical.sortedBy q.rank q.pending with
      | [] => []
      | r :: rest => (match q.heap.get? r with
        | some job => [.jobStarted job]
        | none => []) ++ dispatchCalls n (q.dispatchOne r rest)
    else []

def stepCalls (r : RunRef) (outcome : StepOutcome) : List StoreCall :=
  match q.heap.get? r with
  | none => []
  | some job => match job.task with
    | none => []
    | some task => match task.phase, outcome with
      | .created, .ends ending settles =>
        if task.mustCancel ∨ settles then [] else finishCalls job ending.state
      | .body, .ends ending settles => if settles then [] else finishCalls job ending.state
      | .settling ending, .ends _ _ => finishCalls job ending.state
      | _, _ => []

/-- The transactions of one stretch, in order. -/
def calls : Action → List StoreCall
  | .submit key priority fingerprint admitted _ =>
    q.submitCalls key priority fingerprint admitted
  | .cancel key => q.cancelCalls key
  | .clear client => cancelAllCalls ((Canonical.sortedBy q.rank q.pending).filter fun r =>
      (q.heap.get? r).any fun job => client.all (· = job.key.clientId)) q
  | .dispatch => if q.closed then [] else dispatchCalls q.pending.length { q with wakeup := false }
  | .runStep r outcome => q.stepCalls r outcome
  | .close => cancelAllCalls q.pending { q with closed := true, wakeup := true }
  | _ => []

def submitted (key : JobKey) (fingerprint : String) (admitted stored : Bool) : Option RunRef :=
  if q.closed ∨ admitted = false then none
  else match (q.job? key).filter fun job => !job.state.terminal with
    | some job => if job.fingerprint = fingerprint then some job.runId else none
    | none => if stored then some q.nextRun else none

/-- The action with the outcome of its first transaction, which only `submit` looks at. -/
def Action.storing (stored : Bool) : Action → Action
  | .submit key priority fingerprint admitted _ => .submit key priority fingerprint admitted stored
  | a => a

end Queue

/-- The tables and the process; without a process, the next run to be minted is kept. -/
structure Server where
  store : HistoryStore := {}
  queue : Option Queue := none
  minted : RunRef := 0

namespace Server

variable (s : Server)

def stored (q : Queue) (a : Queue.Action) (faults : List Bool) : Bool :=
  (q.calls a).head?.all fun c => (s.store.attempt (faults.headD false) c).2

inductive Action
  | restart (maxRunning historyLimit : Nat) (maxRunning_pos : 1 ≤ maxRunning)
      (historyLimit_pos : 1 ≤ historyLimit)
  | serve (a : Queue.Action) (faults : List Bool)
  | crash (a : Queue.Action) (faults : List Bool) (done : Nat)
  | delete (chosen : RunRef → Bool)

/-- A crash comes in the stretch `a`, after `done` of its transactions. -/
def step : Action → Option Server
  | .restart maxRunning historyLimit maxRunning_pos historyLimit_pos => match s.queue with
    | some _ => none
    | none => some { s with
        store := s.store.recoverInterrupted
        queue := some { maxRunning, historyLimit, maxRunning_pos, historyLimit_pos
                        nextRun := s.minted } }
  | .serve a faults => do
    let q ← s.queue
    let next ← q.step (a.storing (s.stored q a faults))
    some { s with queue := some next, store := s.store.attemptAll faults (q.calls a) }
  | .crash a faults done => do
    let q ← s.queue
    let next ← q.step (a.storing (s.stored q a faults))
    some {
      store := s.store.attemptAll faults ((q.calls a).take done)
      queue := none
      minted := next.nextRun }
  | .delete chosen => some { s with store := s.store.delete chosen }

end Server

end Dinkster.JobQueue
