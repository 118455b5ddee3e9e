import Dinkster.Lib.Canonical
import Dinkster.Lib.Dict
import Dinkster.Lib.Transition
import Mathlib

/-! The job queue: admission, dispatch, cancellation and the coroutine that runs
one job. A `Job` object is identified by its run reference, which is minted anew
for each submission; `heap` holds every object ever made, the other fields are
those of the queue. One action is one stretch of code without an await. -/
namespace Dinkster.JobQueue
open Canonical

structure JobKey where
  clientId : String
  jobId : String
  deriving DecidableEq

/-- `new_job_ref()`: globally unique, so a counter stands for the minted text. -/
abbrev RunRef := Nat

inductive JobState
  | queued | running | completed | failed | cancelled
  deriving DecidableEq

def JobState.terminal : JobState → Bool
  | .completed | .failed | .cancelled => true
  | _ => false

/-- How the body of `_run_job` ended, and so the state its `finally` records. -/
inductive Ending
  | completed | failed | cancelled
  deriving DecidableEq

def Ending.state : Ending → JobState
  | .completed => .completed
  | .failed => .failed
  | .cancelled => .cancelled

/-- Where the coroutine of a task stands between two of its steps. -/
inductive TaskPhase
  | created
  | body
  | settling (ending : Ending)
  | done
  deriving DecidableEq

structure JobTask where
  phase : TaskPhase
  mustCancel : Bool := false
  deriving DecidableEq

structure Job where
  key : JobKey
  priority : Int
  runId : RunRef
  fingerprint : String
  state : JobState := .queued
  task : Option JobTask := none
  deriving DecidableEq

inductive Dispatcher
  | absent | waiting | ended
  deriving DecidableEq

structure Queue where
  maxRunning : Nat
  historyLimit : Nat
  maxRunning_pos : 1 ≤ maxRunning
  historyLimit_pos : 1 ≤ historyLimit
  heap : Dict RunRef Job := .empty
  nextRun : RunRef := 0
  jobs : Dict JobKey RunRef := .empty
  pending : List RunRef := []
  seq : Nat := 0
  order : Dict JobKey Nat := .empty
  byRun : Dict RunRef JobKey := .empty
  history : List RunRef := []
  running : List JobKey := []
  paused : Bool := false
  maintenanceActive : Bool := false
  wakeup : Bool := false
  dispatcher : Dispatcher := .absent
  closed : Bool := false

namespace Queue

variable (q : Queue)

def job? (key : JobKey) : Option Job := (q.jobs.get? key).bind q.heap.get?

def setJob (r : RunRef) (job : Job) : Queue := { q with heap := q.heap.set r job }

@[grind =] theorem setJob_eq (r : RunRef) (job : Job) :
    q.setJob r job = { q with heap := q.heap.set r job } := rfl

/-- `(-priority, order[key])`; a job is looked up through its reference. -/
def rank (r : RunRef) : Int ×ₗ Nat :=
  match q.heap.get? r with
  | some job => toLex (-job.priority,(q.order.get? job.key).getD 0)
  | none => toLex (0,0)

def forget (r : RunRef) (rest : List RunRef) : Queue :=
  let key? := (q.heap.get? r).map (·.key)
  let q := { q with history := rest }
  let q := match key? with
    | some key => if q.jobs.get? key = some r then
        { q with jobs := q.jobs.erase key, order := q.order.erase key } else q
    | none => q
  { q with byRun := q.byRun.erase r }

def evict : Nat → Queue → Queue
  | 0, q => q
  | n + 1, q => match q.history with
    | [] => q
    | r :: rest => if q.historyLimit < q.history.length then evict n (q.forget r rest) else q

/-- `_finish`: the terminal state, the history entry and the eviction it causes. -/
def finish (r : RunRef) (job : Job) (state : JobState) : Queue :=
  let q := q.setJob r { job with state }
  evict (q.history.length + 1) { q with history := q.history ++ [r] }

/-- `submit`. `admitted`: no argument check or selector admission raised; `stored`: the
durable record was written. A raise leaves the queue as it was. -/
def submit (key : JobKey) (priority : Int) (fingerprint : String) (admitted stored : Bool) :
    Queue :=
  if q.closed ∨ admitted = false then q
  else
    let existing := q.job? key
    if existing.any fun job => !job.state.terminal then q
    else if stored = false then q
    else
      let q := match existing with
        | some old => { q with
            byRun := q.byRun.erase old.runId, history := q.history.erase old.runId }
        | none => q
      let run := q.nextRun
      { q with
        heap := q.heap.set run { key, priority, runId := run, fingerprint }
        nextRun := run + 1
        jobs := q.jobs.set key run
        order := q.order.set key q.seq
        seq := q.seq + 1
        byRun := q.byRun.set run key
        pending := q.pending ++ [run]
        wakeup := true }

def cancelQueued (r : RunRef) (job : Job) : Queue :=
  { q with pending := q.pending.erase r }.finish r job .cancelled

/-- `task.cancel()`: recorded on the task and delivered at its next step. -/
def cancelTask (r : RunRef) (job : Job) : Queue :=
  match job.task with
  | some task => if task.phase = .done then q
      else q.setJob r { job with task := some { task with mustCancel := true } }
  | none => q

def cancel (key : JobKey) : Queue :=
  match q.job? key with
  | none => q
  | some job =>
    if job.state.terminal then q
    else if job.state = .queued then q.cancelQueued job.runId job
    else q.cancelTask job.runId job

def cancelAll (victims : List RunRef) : Queue :=
  victims.foldl (fun q r => match q.heap.get? r with
    | some job => q.cancelQueued r job
    | none => q) q

def clear (client : Option String) : Queue :=
  q.cancelAll ((sortedBy q.rank q.pending).filter fun r =>
    (q.heap.get? r).any fun job => client.all (· = job.key.clientId))

def resume : Queue :=
  if q.maintenanceActive then q else { q with paused := false, wakeup := true }

def beginMaintenance : Queue :=
  if q.maintenanceActive ∨ ¬q.paused ∨ q.running ≠ [] then q
  else { q with maintenanceActive := true }

def setMaxRunning (n : Nat) : Queue :=
  if positive : 1 ≤ n then
    { q with
      maxRunning := n
      maxRunning_pos := positive
      wakeup := q.wakeup || decide (q.maxRunning < n) }
  else q

def dispatchOne (r : RunRef) (rest : List RunRef) : Queue :=
  match q.heap.get? r with
  | none => { q with pending := rest }
  | some job => { q with
      pending := rest
      heap := q.heap.set r { job with state := .running, task := some ⟨.created,false⟩ }
      running := if job.key ∈ q.running then q.running else q.running ++ [job.key] }

/-- The inner loop of `_dispatch_loop`; each turn sorts the pending jobs again. -/
def dispatchLoop : Nat → Queue → Queue
  | 0, q => q
  | n + 1, q =>
    if ¬q.paused ∧ ¬q.maintenanceActive ∧ q.running.length < q.maxRunning then
      match sortedBy q.rank q.pending with
      | [] => q
      | r :: rest => dispatchLoop n (q.dispatchOne r rest)
    else q

/-- The dispatcher wakes: it ends on a closed queue and fills the free slots else. -/
def dispatch : Queue :=
  let q := { q with wakeup := false }
  if q.closed then { q with dispatcher := .ended } else q.dispatchLoop q.pending.length

/-- What a step of the coroutine does before the next await or its end. -/
inductive StepOutcome
  | suspend
  | ends (ending : Ending) (settles : Bool)
  deriving DecidableEq

/-- The inner `finally`: the job is finished, its slot released and the task ends. -/
def conclude (r : RunRef) (job : Job) (ending : Ending) : Queue :=
  let q := q.finish r job ending.state
  { q with
    heap := q.heap.set r { job with state := ending.state, task := some ⟨.done,false⟩ }
    running := q.running.erase job.key
    wakeup := true }

/-- From inside the body to the next await, or through `finally` to the end. -/
def bodyStep (r : RunRef) (job : Job) : StepOutcome → Queue
  | .suspend => q.setJob r { job with task := some ⟨.body,false⟩ }
  | .ends ending settles =>
    if settles then q.setJob r { job with task := some ⟨.settling ending,false⟩ }
    else q.conclude r job ending

/-- One step of the task. A cancellation that arrives before the first step is thrown into
a coroutine that has not started, so no line of its body runs, its `finally` included. -/
def runStep (r : RunRef) (outcome : StepOutcome) : Option Queue := do
  let job ← q.heap.get? r
  let task ← job.task
  match task.phase with
  | .created =>
    if task.mustCancel then
      some (q.setJob r { job with task := some ⟨.done,false⟩ })
    else some (q.bodyStep r job outcome)
  | .body => some (q.bodyStep r job outcome)
  | .settling ending => match outcome with
    | .suspend => some (q.setJob r { job with task := some ⟨.settling ending,false⟩ })
    | .ends _ _ => some (q.conclude r job ending)
  | .done => none

/-- `close` up to its first await: refuse, drop what is queued, cancel what runs. -/
def close : Queue :=
  let q := { q with closed := true, wakeup := true }
  let q := { q.cancelAll q.pending with pending := [] }
  q.running.foldl (fun q key => match q.job? key with
    | some job => q.cancelTask job.runId job
    | none => q) q

def drained : Bool :=
  q.running.all fun key => (q.job? key).all fun job => job.task.all fun t => t.phase = .done

inductive Action
  | start
  | submit (key : JobKey) (priority : Int) (fingerprint : String) (admitted stored : Bool)
  | cancel (key : JobKey)
  | clear (client : Option String)
  | pause
  | resume
  | beginMaintenance
  | endMaintenance
  | setMaxRunning (n : Nat)
  | dispatch
  | runStep (run : RunRef) (outcome : StepOutcome)
  | close
  | dropDispatcher

def step : Action → Option Queue
  | .start => some { q with
      dispatcher := if q.dispatcher = .absent then .waiting else q.dispatcher }
  | .submit key priority fingerprint admitted stored =>
    some (q.submit key priority fingerprint admitted stored)
  | .cancel key => some (q.cancel key)
  | .clear client => some (q.clear client)
  | .pause => some { q with paused := true }
  | .resume => some q.resume
  | .beginMaintenance => some q.beginMaintenance
  | .endMaintenance => some { q with maintenanceActive := false }
  | .setMaxRunning n => some (q.setMaxRunning n)
  | .dispatch => if q.dispatcher = .waiting ∧ q.wakeup then some q.dispatch else none
  | .runStep run outcome => q.runStep run outcome
  | .close => some q.close
  | .dropDispatcher =>
    if q.closed ∧ q.drained then some { q with dispatcher := .absent } else none

end Queue

end Dinkster.JobQueue
