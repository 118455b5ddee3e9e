import Dinkster.Server.JobQueue

/-! Accounting of the job queue. Two invariants carry it: where each job object
is recorded (`Placed`) and which slots are held by which tasks (`Slotted`).
Eviction touches only the first, so the two are kept apart. -/
namespace Dinkster.JobQueue
open Canonical

namespace Queue

variable {q : Queue} {r : RunRef} {job : Job}

/-- Every object is queued and pending, running, or terminal and, while known, in history. -/
structure Placed (q : Queue) : Prop where
  identity : ∀ r job, q.heap.get? r = some job → job.runId = r ∧ r < q.nextRun
  known : ∀ key r, q.jobs.get? key = some r → ∃ job, q.heap.get? r = some job ∧ job.key = key
  live : ∀ r job, q.heap.get? r = some job → job.state.terminal = false →
    q.jobs.get? job.key = some r
  pending : ∀ r, r ∈ q.pending ↔ ∃ job, q.heap.get? r = some job ∧ job.state = .queued
  pending_nodup : q.pending.Nodup
  history : ∀ r, r ∈ q.history ↔ ∃ job, q.heap.get? r = some job ∧ job.state.terminal = true ∧
    q.jobs.get? job.key = some r
  history_nodup : q.history.Nodup
  index : ∀ r key, q.byRun.get? r = some key ↔ q.jobs.get? key = some r
  ordered : ∀ key, (q.order.get? key).isSome = (q.jobs.get? key).isSome

structure Slotted (q : Queue) : Prop where
  running : ∀ key, key ∈ q.running ↔
    ∃ r job, q.heap.get? r = some job ∧ job.key = key ∧ job.state = .running
  running_nodup : q.running.Nodup
  queued : ∀ r job, q.heap.get? r = some job → job.state = .queued → job.task = none
  active : ∀ r job, q.heap.get? r = some job → job.state = .running →
    ∃ task, job.task = some task ∧ task.phase ≠ .done
  ended : ∀ r job task, q.heap.get? r = some job → job.state.terminal = true →
    job.task = some task → task.phase = .done
  spared : ∀ r job task, q.heap.get? r = some job → job.task = some task →
    task.phase = .created → task.mustCancel = false

theorem Placed.forget (placed : Placed q) {rest : List RunRef} (oldest : q.history = r :: rest) :
    Placed (q.forget r rest) := by
  have distinct := placed.history_nodup
  rw [oldest,List.nodup_cons] at distinct
  obtain ⟨job,object,terminal,here⟩ := (placed.history r).mp (by simp [oldest])
  have same : q.forget r rest = { q with
      history := rest, jobs := q.jobs.erase job.key, order := q.order.erase job.key
      byRun := q.byRun.erase r } := by
    simp [Queue.forget,object,here]
  rw [same]
  obtain ⟨identity,known,live,pending,pending_nodup,history,-,index,ordered⟩ := placed
  constructor
  case identity => exact identity
  case known => grind -ring -linarith
  case live => grind -ring -linarith
  case pending => exact pending
  case pending_nodup => exact pending_nodup
  case history => grind -ring -linarith
  case history_nodup => exact distinct.2
  case index => grind -ring -linarith
  case ordered => grind -ring -linarith

theorem Placed.evict (placed : Placed q) (turns : Nat) : Placed (q.evict turns) := by
  induction turns generalizing q with
  | zero => exact placed
  | succ n ih =>
    unfold Queue.evict
    split
    · exact placed
    · rename_i oldest
      split
      · exact ih (placed.forget oldest)
      · exact placed

theorem forget_frame (rest : List RunRef) : (q.forget r rest).heap = q.heap ∧
    (q.forget r rest).running = q.running ∧ (q.forget r rest).pending = q.pending := by
  unfold Queue.forget
  cases object : q.heap.get? r with
  | none => simp
  | some job => by_cases here : q.jobs.get? job.key = some r <;> simp [here]

theorem evict_frame (turns : Nat) : (q.evict turns).heap = q.heap ∧
    (q.evict turns).running = q.running ∧ (q.evict turns).pending = q.pending := by
  induction turns generalizing q with
  | zero => simp [Queue.evict]
  | succ n ih =>
    unfold Queue.evict
    split
    · simp
    · rename_i r rest oldest
      split
      · obtain ⟨heap,running,pending⟩ := ih (q := q.forget r rest)
        rw [heap,running,pending]
        exact forget_frame rest
      · simp

theorem finish_frame (r : RunRef) (job : Job) (state : JobState) :
    (q.finish r job state).heap = q.heap.set r { job with state } ∧
    (q.finish r job state).running = q.running ∧
    (q.finish r job state).pending = q.pending :=
  evict_frame _

theorem Placed.finish (placed : Placed q) (object : q.heap.get? r = some job)
    (unfinished : job.state.terminal = false) {state : JobState} (terminal : state.terminal = true) :
    Placed ({ q with pending := q.pending.erase r }.finish r job state) := by
  obtain ⟨identity,known,live,pending,pending_nodup,history,history_nodup,index,ordered⟩ := placed
  have here := live r job object unfinished
  have absent : r ∉ q.history := by grind -ring -linarith
  have erased : ∀ a, a ∈ q.pending.erase r ↔ a ≠ r ∧ a ∈ q.pending :=
    fun a => pending_nodup.mem_erase_iff
  refine Placed.evict ?_ _
  rw [setJob_eq]
  constructor
  case identity => grind
  case known => grind -ring -linarith
  case live => grind -ring -linarith
  case pending =>
    intro a
    by_cases same : a = r <;> grind -ring -linarith [JobState.terminal]
  case pending_nodup => exact pending_nodup.erase r
  case history => grind -ring -linarith
  case history_nodup => grind -ring -linarith [List.nodup_append]
  case index => exact index
  case ordered => exact ordered

theorem Placed.finish_running (placed : Placed q) (object : q.heap.get? r = some job)
    (runs : job.state = .running) {state : JobState} (terminal : state.terminal = true) :
    Placed (q.finish r job state) := by
  have absent : r ∉ q.pending := by grind -ring -linarith [placed.pending r]
  have finished := placed.finish object (by simp [runs,JobState.terminal]) terminal
  rwa [List.erase_of_not_mem absent] at finished

theorem Placed.setTask (placed : Placed q) (object : q.heap.get? r = some job)
    (task : Option JobTask) : Placed (q.setJob r { job with task }) := by
  obtain ⟨identity,known,live,pending,pending_nodup,history,history_nodup,index,ordered⟩ := placed
  rw [setJob_eq]
  constructor
  case identity => grind
  case known => grind -ring -linarith
  case live => grind -ring -linarith
  case pending => grind -ring -linarith
  case pending_nodup => exact pending_nodup
  case history => grind -ring -linarith
  case history_nodup => exact history_nodup
  case index => exact index
  case ordered => exact ordered

theorem Slotted.congr {q' : Queue} (slotted : Slotted q) (heap : q'.heap = q.heap)
    (running : q'.running = q.running) : Slotted q' := by
  obtain ⟨held,distinct,idle,active,ended,spared⟩ := slotted
  constructor <;> simpa only [heap,running]

theorem Placed.congr {q' : Queue} (placed : Placed q) (same : q'.heap = q.heap ∧
    q'.nextRun = q.nextRun ∧ q'.jobs = q.jobs ∧ q'.pending = q.pending ∧
    q'.history = q.history ∧ q'.byRun = q.byRun ∧ q'.order = q.order) : Placed q' := by
  obtain ⟨heap,next,jobs,queue,terminal,runs,ranks⟩ := same
  obtain ⟨identity,known,live,pending,pending_nodup,history,history_nodup,index,ordered⟩ := placed
  constructor <;> simpa only [heap,next,jobs,queue,terminal,runs,ranks]

theorem accounted_congr {q' : Queue} (placed : Placed q) (slotted : Slotted q)
    (same : q'.heap = q.heap ∧ q'.nextRun = q.nextRun ∧ q'.jobs = q.jobs ∧
      q'.pending = q.pending ∧ q'.history = q.history ∧ q'.byRun = q.byRun ∧
      q'.order = q.order) (running : q'.running = q.running) : Placed q' ∧ Slotted q' :=
  ⟨placed.congr same,slotted.congr same.1 running⟩

theorem Slotted.setTask (slotted : Slotted q) (object : q.heap.get? r = some job)
    (runs : job.state = .running) {task : JobTask} (unfinished : task.phase ≠ .done)
    (unharmed : task.phase = .created → task.mustCancel = false) :
    Slotted (q.setJob r { job with task := some task }) := by
  obtain ⟨running,running_nodup,idle,active,ended,spared⟩ := slotted
  rw [setJob_eq]
  constructor
  case running =>
    intro key
    rw [running,Dict.exists_get?_set]
    grind -ring -linarith
  case running_nodup => exact running_nodup
  case queued => grind -ring -linarith
  case active => grind -ring -linarith
  case ended => grind -ring -linarith [JobState.terminal]
  case spared => grind -ring -linarith

theorem Slotted.cancelQueued (slotted : Slotted q) (object : q.heap.get? r = some job)
    (queued : job.state = .queued) : Slotted (q.cancelQueued r job) := by
  obtain ⟨heap,held,-⟩ := finish_frame (q := { q with pending := q.pending.erase r })
    r job .cancelled
  refine Slotted.congr (q := q.setJob r { job with state := .cancelled }) ?_ heap held
  obtain ⟨running,running_nodup,idle,active,ended,spared⟩ := slotted
  have none := idle r job object queued
  rw [setJob_eq]
  constructor
  case running =>
    intro key
    rw [running,Dict.exists_get?_set]
    grind -ring -linarith
  case running_nodup => exact running_nodup
  case queued => grind -ring -linarith
  case active => grind -ring -linarith
  case ended => grind -ring -linarith
  case spared => grind -ring -linarith

theorem terminal_state (ending : Ending) : ending.state.terminal = true := by
  cases ending <;> rfl

theorem Placed.conclude (placed : Placed q) (object : q.heap.get? r = some job)
    (runs : job.state = .running) (ending : Ending) : Placed (q.conclude r job ending) := by
  have finished := placed.finish_running object runs (terminal_state ending)
  obtain ⟨heap,-,-⟩ := finish_frame (q := q) r job ending.state
  have recorded : (q.finish r job ending.state).heap.get? r =
      some { job with state := ending.state } := by simp [heap]
  have settled := finished.setTask recorded (some ⟨.done,false⟩)
  exact ⟨settled.identity,settled.known,settled.live,settled.pending,settled.pending_nodup,
    settled.history,settled.history_nodup,settled.index,settled.ordered⟩

theorem Slotted.conclude (placed : Placed q) (slotted : Slotted q)
    (object : q.heap.get? r = some job) (runs : job.state = .running) (ending : Ending) :
    Slotted (q.conclude r job ending) := by
  have settled : ending.state ≠ .queued ∧ ending.state ≠ .running := by
    cases ending <;> simp [Ending.state]
  obtain ⟨heap,held,-⟩ := finish_frame (q := q) r job ending.state
  have live := placed.live
  obtain ⟨running,running_nodup,idle,active,ended,spared⟩ := slotted
  have released : ∀ key, key ∈ q.running.erase job.key ↔ key ≠ job.key ∧ key ∈ q.running :=
    fun key => running_nodup.mem_erase_iff
  have objects : (q.conclude r job ending).heap = q.heap.set r
      { job with state := ending.state, task := some ⟨.done,false⟩ } := by
    simp [Queue.conclude,heap]
  have slots : (q.conclude r job ending).running = q.running.erase job.key := by
    simp [Queue.conclude,held]
  clear heap held
  constructor
  case running =>
    intro key
    rw [slots,objects,released,running,Dict.exists_get?_set]
    grind -ring -linarith [JobState.terminal]
  case running_nodup => exact slots ▸ running_nodup.erase _
  case queued => grind -ring -linarith
  case active => grind -ring -linarith
  case ended => grind -ring -linarith
  case spared => grind -ring -linarith

theorem job?_some {key : JobKey} (placed : Placed q) (found : q.job? key = some job) :
    q.heap.get? job.runId = some job ∧ q.jobs.get? key = some job.runId ∧ job.key = key := by
  obtain ⟨r,here,object⟩ := Option.bind_eq_some_iff.mp found
  obtain ⟨job',object',same⟩ := placed.known key r here
  obtain rfl : job' = job := Option.some.inj (object'.symm.trans object)
  obtain ⟨rfl,-⟩ := placed.identity r job' object
  exact ⟨object,here,same⟩

theorem job?_none {key : JobKey} (placed : Placed q) (absent : q.job? key = none) :
    q.jobs.get? key = none := by
  refine Option.eq_none_iff_forall_ne_some.mpr fun r here => ?_
  obtain ⟨job,object,-⟩ := placed.known key r here
  simp [Queue.job?,here,object] at absent

def Retires (q : Queue) (key : JobKey) (byRun : Dict RunRef JobKey) (history : List RunRef) : Prop :=
  (q.jobs.get? key = none ∧ byRun = q.byRun ∧ history = q.history) ∨
  ∃ old, q.heap.get? old.runId = some old ∧ q.jobs.get? key = some old.runId ∧ old.key = key ∧
    old.state.terminal = true ∧ byRun = q.byRun.erase old.runId ∧
    history = q.history.erase old.runId

theorem submit_cases (placed : Placed q) (key : JobKey) (priority : Int) (fingerprint : String)
    (admitted stored : Bool) : q.submit key priority fingerprint admitted stored = q ∨
    ∃ byRun history, Retires q key byRun history ∧
      q.submit key priority fingerprint admitted stored = { q with
        heap := q.heap.set q.nextRun { key, priority, runId := q.nextRun, fingerprint }
        nextRun := q.nextRun + 1
        jobs := q.jobs.set key q.nextRun
        order := q.order.set key q.seq
        seq := q.seq + 1
        byRun := byRun.set q.nextRun key
        history := history
        pending := q.pending ++ [q.nextRun]
        wakeup := true } := by
  unfold Queue.submit
  split
  · exact .inl rfl
  · cases found : q.job? key with
    | none =>
      dsimp only
      split
      · exact .inl rfl
      · split
        · exact .inl rfl
        · exact .inr ⟨_,_,.inl ⟨job?_none placed found,rfl,rfl⟩,rfl⟩
    | some old =>
      obtain ⟨object,here,same⟩ := job?_some placed found
      dsimp only
      split
      · exact .inl rfl
      · rename_i retired
        split
        · exact .inl rfl
        · exact .inr ⟨_,_,.inr ⟨old,object,here,same,by simpa using retired,rfl,rfl⟩,rfl⟩

theorem Placed.submit (placed : Placed q) (key : JobKey) (priority : Int) (fingerprint : String)
    (admitted stored : Bool) : Placed (q.submit key priority fingerprint admitted stored) := by
  rcases submit_cases placed key priority fingerprint admitted stored with
    same | ⟨byRun,history',retires,same⟩
  · rwa [same]
  · rw [same]
    obtain ⟨identity,known,live,pending,pending_nodup,history,history_nodup,index,ordered⟩ := placed
    have fresh : q.heap.get? q.nextRun = none := by
      refine Option.eq_none_iff_forall_ne_some.mpr fun job object => ?_
      exact absurd (identity _ _ object).2 (Nat.lt_irrefl _)
    have other : ∀ {a job}, q.heap.get? a = some job → a ≠ q.nextRun := by
      rintro a job object rfl
      simp [fresh] at object
    have unused : ∀ k, q.jobs.get? k ≠ some q.nextRun := by grind -ring -linarith
    have retired : ∀ {a job}, q.heap.get? a = some job → job.key = key →
        job.state.terminal = true := by
      intro a job object same
      rcases retires with ⟨absent,-,-⟩ | ⟨old,object',here,-,terminal,-,-⟩
      · grind -ring -linarith
      · grind -ring -linarith
    have entries : ∀ a, a ∈ history' ↔ a ∈ q.history ∧ q.jobs.get? key ≠ some a := by
      rcases retires with ⟨absent,-,rfl⟩ | ⟨old,-,here,-,-,-,rfl⟩
      · grind -ring -linarith
      · intro a
        rw [history_nodup.mem_erase_iff]
        grind -ring -linarith
    have runs : ∀ a k, byRun.get? a = some k ↔ q.jobs.get? k = some a ∧ k ≠ key := by
      rcases retires with ⟨absent,rfl,-⟩ | ⟨old,object,here,rfl,-,rfl,-⟩
      · grind -ring -linarith
      · grind -ring -linarith
    have distinct : history'.Nodup := by
      rcases retires with ⟨-,-,rfl⟩ | ⟨old,-,-,-,-,-,rfl⟩
      · exact history_nodup
      · exact history_nodup.erase _
    constructor
    case identity =>
      intro a job object
      rw [Dict.get?_set] at object
      split at object
      · rename_i new
        obtain rfl := Option.some.inj object
        exact ⟨new.symm,by simp [new]⟩
      · obtain ⟨same,bound⟩ := identity a job object
        exact ⟨same,Nat.lt_succ_of_lt bound⟩
    case known =>
      intro k a here
      rw [Dict.get?_set] at here
      split at here
      · rename_i new
        obtain rfl := Option.some.inj here
        exact ⟨_,Dict.get?_set_self ..,new.symm⟩
      · obtain ⟨job,object,same⟩ := known k a here
        exact ⟨job,(Dict.get?_set_ne _ _ (other object)).trans object,same⟩
    case live => grind -ring -linarith
    case pending =>
      intro a
      rw [List.mem_append,List.mem_singleton,pending]
      by_cases new : a = q.nextRun
      · simp [new]
      · simp [new,Dict.get?_set_ne]
    case pending_nodup =>
      refine List.nodup_append.mpr ⟨pending_nodup,List.nodup_singleton _,?_⟩
      grind -ring -linarith
    case history => grind -ring -linarith [JobState.terminal]
    case history_nodup => exact distinct
    case index => grind -ring -linarith
    case ordered => grind -ring -linarith

theorem Slotted.submit (placed : Placed q) (slotted : Slotted q) (key : JobKey) (priority : Int)
    (fingerprint : String) (admitted stored : Bool) :
    Slotted (q.submit key priority fingerprint admitted stored) := by
  rcases submit_cases placed key priority fingerprint admitted stored with
    same | ⟨byRun,history',-,same⟩
  · rwa [same]
  · rw [same]
    have identity := placed.identity
    have fresh : ∀ job, q.heap.get? q.nextRun ≠ some job := fun job object =>
      absurd (identity _ _ object).2 (Nat.lt_irrefl _)
    obtain ⟨running,running_nodup,idle,active,ended,spared⟩ := slotted
    constructor
    case running =>
      intro key'
      rw [running,Dict.exists_get?_set]
      grind -ring -linarith
    case running_nodup => exact running_nodup
    case queued => grind -ring -linarith
    case active => grind -ring -linarith
    case ended => grind -ring -linarith
    case spared => grind -ring -linarith

theorem dispatchOne_accounted (placed : Placed q) (slotted : Slotted q) {rest : List RunRef}
    (chosen : (r :: rest).Perm q.pending) :
    Placed (q.dispatchOne r rest) ∧ Slotted (q.dispatchOne r rest) ∧
    (q.dispatchOne r rest).running.length = q.running.length + 1 ∧
    (q.dispatchOne r rest).maxRunning = q.maxRunning := by
  obtain ⟨job,object,queued⟩ := (placed.pending r).mp (chosen.subset (by simp))
  have distinct := chosen.nodup_iff.mpr placed.pending_nodup
  have left : ∀ a, a ∈ rest ↔ a ≠ r ∧ a ∈ q.pending := by
    intro a
    rw [← chosen.mem_iff,List.mem_cons]
    grind -ring -linarith
  have here := placed.live r job object (by simp [queued,JobState.terminal])
  have free : job.key ∉ q.running := by
    intro held
    obtain ⟨r',job',object',same,runs⟩ := (slotted.running job.key).mp held
    have there := placed.live r' job' object' (by simp [runs,JobState.terminal])
    grind -ring -linarith
  have made : q.dispatchOne r rest = { q with
      pending := rest
      heap := q.heap.set r { job with state := .running, task := some ⟨.created,false⟩ }
      running := q.running ++ [job.key] } := by
    simp [Queue.dispatchOne,object,free]
  rw [made]
  refine ⟨?_,?_,by simp,rfl⟩
  · obtain ⟨identity,known,live,pending,pending_nodup,history,history_nodup,index,ordered⟩ := placed
    constructor
    case identity => grind
    case known => grind -ring -linarith
    case live => grind -ring -linarith
    case pending =>
      intro a
      by_cases same : a = r <;> grind -ring -linarith
    case pending_nodup => exact (List.nodup_cons.mp distinct).2
    case history => grind -ring -linarith [JobState.terminal]
    case history_nodup => exact history_nodup
    case index => exact index
    case ordered => exact ordered
  · obtain ⟨running,running_nodup,idle,active,ended,spared⟩ := slotted
    constructor
    case running =>
      intro key
      rw [List.mem_append,List.mem_singleton,running,Dict.exists_get?_set]
      grind -ring -linarith
    case running_nodup => grind -ring -linarith [List.nodup_append]
    case queued => grind -ring -linarith
    case active => grind -ring -linarith
    case ended => grind -ring -linarith [JobState.terminal]
    case spared => grind -ring -linarith

theorem dispatchLoop_limit (turns : Nat) :
    (q.dispatchLoop turns).maxRunning = q.maxRunning := by
  induction turns generalizing q with
  | zero => rfl
  | succ n ih =>
    unfold Queue.dispatchLoop
    split
    · split
      · rfl
      · rw [ih]
        unfold Queue.dispatchOne
        split <;> rfl
    · rfl

theorem dispatchLoop_accounted (turns : Nat) (placed : Placed q) (slotted : Slotted q) :
    Placed (q.dispatchLoop turns) ∧ Slotted (q.dispatchLoop turns) ∧
    ((q.dispatchLoop turns).running = q.running ∨
      (q.dispatchLoop turns).running.length ≤ (q.dispatchLoop turns).maxRunning) := by
  induction turns generalizing q with
  | zero => exact ⟨placed,slotted,.inl rfl⟩
  | succ n ih =>
    unfold Queue.dispatchLoop
    split
    · rename_i free
      split
      · exact ⟨placed,slotted,.inl rfl⟩
      · rename_i r rest sorted
        have chosen : (r :: rest).Perm q.pending := sorted ▸ sortedBy_perm q.rank q.pending
        obtain ⟨placed',slotted',grown,limit⟩ := dispatchOne_accounted placed slotted chosen
        obtain ⟨placed'',slotted'',bound⟩ := ih placed' slotted'
        refine ⟨placed'',slotted'',.inr ?_⟩
        rcases bound with same | bound
        · rw [same,grown,dispatchLoop_limit,limit]
          omega
        · exact bound
    · exact ⟨placed,slotted,.inl rfl⟩

theorem cancelAll_accounted (victims : List RunRef) (placed : Placed q) (slotted : Slotted q)
    (waiting : victims ⊆ q.pending) (distinct : victims.Nodup) :
    Placed (q.cancelAll victims) ∧ Slotted (q.cancelAll victims) ∧
    (q.cancelAll victims).running = q.running ∧
    (∀ r, r ∈ (q.cancelAll victims).pending ↔ r ∈ q.pending ∧ r ∉ victims) ∧
    ∀ r job, (q.cancelAll victims).heap.get? r = some job → job.state = .running →
      q.heap.get? r = some job := by
  induction victims generalizing q with
  | nil => exact ⟨placed,slotted,rfl,by simp [Queue.cancelAll],fun _ _ h _ => h⟩
  | cons r victims ih =>
    obtain ⟨fresh,distinct⟩ := List.nodup_cons.mp distinct
    obtain ⟨here,waiting⟩ := List.cons_subset.mp waiting
    obtain ⟨job,object,queued⟩ := (placed.pending r).mp here
    obtain ⟨heap,held,left⟩ := finish_frame (q := { q with pending := q.pending.erase r })
      r job .cancelled
    have erased : ∀ a, a ∈ (q.cancelQueued r job).pending ↔ a ≠ r ∧ a ∈ q.pending := by
      intro a
      rw [Queue.cancelQueued,left]
      exact placed.pending_nodup.mem_erase_iff
    have next := ih (q := q.cancelQueued r job)
      (placed.finish object (by simp [queued,JobState.terminal]) rfl)
      (slotted.cancelQueued object queued)
      (fun v hv => (erased v).mpr ⟨fun same => fresh (same ▸ hv),waiting hv⟩) distinct
    have first : q.cancelAll (r :: victims) = (q.cancelQueued r job).cancelAll victims := by
      simp [Queue.cancelAll,object]
    rw [first]
    obtain ⟨placed',slotted',running',pending',objects⟩ := next
    refine ⟨placed',slotted',running'.trans held,?_,fun a job' object' runs => ?_⟩
    · intro a
      rw [pending',erased,List.mem_cons]
      grind -ring -linarith
    · have earlier := objects a job' object' runs
      rw [Queue.cancelQueued,heap,Dict.get?_set] at earlier
      split at earlier
      · obtain rfl := Option.some.inj earlier
        simp at runs
      · exact earlier

theorem cancelTask_accounted (placed : Placed q) (slotted : Slotted q)
    (object : q.heap.get? r = some job) (runs : job.state = .running)
    (started : ∀ task, job.task = some task → task.phase ≠ .created) :
    Placed (q.cancelTask r job) ∧ Slotted (q.cancelTask r job) := by
  obtain ⟨task,current,unfinished⟩ := slotted.active r job object runs
  simp only [Queue.cancelTask,current,unfinished,if_false]
  exact ⟨placed.setTask object _,slotted.setTask object runs unfinished
    fun created => absurd created (started task current)⟩

theorem bodyStep_accounted (placed : Placed q) (slotted : Slotted q)
    (object : q.heap.get? r = some job) (runs : job.state = .running) (outcome : StepOutcome) :
    Placed (q.bodyStep r job outcome) ∧ Slotted (q.bodyStep r job outcome) := by
  cases outcome with
  | suspend =>
    exact ⟨placed.setTask object _,slotted.setTask object runs (by simp) (by simp)⟩
  | ends ending settles =>
    cases settles with
    | true => exact ⟨placed.setTask object _,slotted.setTask object runs (by simp) (by simp)⟩
    | false => exact ⟨placed.conclude object runs ending,slotted.conclude placed object runs ending⟩

theorem runStep_accounted {q' : Queue} (placed : Placed q) (slotted : Slotted q)
    {outcome : StepOutcome} (taken : q.runStep r outcome = some q') :
    Placed q' ∧ Slotted q' := by
  unfold Queue.runStep at taken
  obtain ⟨job,object,rest⟩ := Option.bind_eq_some_iff.mp taken
  obtain ⟨task,current,rest⟩ := Option.bind_eq_some_iff.mp rest
  have runs : task.phase ≠ .done → job.state = .running := by
    intro unfinished
    cases state : job.state with
    | running => rfl
    | queued => simp [slotted.queued r job object state] at current
    | completed | failed | cancelled =>
      exact absurd (slotted.ended r job task object (by simp [state,JobState.terminal]) current)
        unfinished
  cases phase : task.phase with
  | created =>
    have spared := slotted.spared r job task object current phase
    simp only [phase,spared,Bool.false_eq_true,if_false,Option.some.injEq] at rest
    exact rest ▸ bodyStep_accounted placed slotted object (runs (by simp [phase])) outcome
  | body =>
    simp only [phase,Option.some.injEq] at rest
    exact rest ▸ bodyStep_accounted placed slotted object (runs (by simp [phase])) outcome
  | settling ending =>
    have running := runs (by simp [phase])
    cases outcome with
    | suspend =>
      simp only [phase,Option.some.injEq] at rest
      exact rest ▸ ⟨placed.setTask object _,slotted.setTask object running (by simp) (by simp)⟩
    | ends =>
      simp only [phase,Option.some.injEq] at rest
      exact rest ▸ ⟨placed.conclude object running ending,
        slotted.conclude placed object running ending⟩
  | done => simp [phase] at rest

/-- The tasks `cancel` and `close` reach have taken their first step. -/
def Started (q : Queue) (key : JobKey) : Prop :=
  ∀ job task, q.job? key = some job → job.task = some task → task.phase ≠ .created

/-- No cancellation and no shutdown between the creation of a task and its first step. -/
def NoEarlyCancel (q : Queue) : Action → Prop
  | .cancel key => q.Started key
  | .close => ∀ key ∈ q.running, q.Started key
  | _ => True

theorem cancel_accounted (placed : Placed q) (slotted : Slotted q) {key : JobKey}
    (started : q.Started key) : Placed (q.cancel key) ∧ Slotted (q.cancel key) := by
  unfold Queue.cancel
  split
  · exact ⟨placed,slotted⟩
  · rename_i job found
    obtain ⟨object,-,-⟩ := job?_some placed found
    split
    · exact ⟨placed,slotted⟩
    · rename_i live
      split
      · rename_i queued
        exact ⟨placed.finish object (by simp [queued,JobState.terminal]) rfl,
          slotted.cancelQueued object queued⟩
      · rename_i waiting
        have runs : job.state = .running := by
          cases state : job.state <;> simp_all [JobState.terminal]
        exact cancelTask_accounted placed slotted object runs fun task => started job task found

theorem cancelRunning_accounted (keys : List JobKey) (placed : Placed q) (slotted : Slotted q)
    (started : ∀ r job task, q.heap.get? r = some job → job.state = .running →
      job.task = some task → task.phase ≠ .created) (held : keys ⊆ q.running) :
    let q' := keys.foldl (fun q key => match q.job? key with
      | some job => q.cancelTask job.runId job
      | none => q) q
    Placed q' ∧ Slotted q' := by
  induction keys generalizing q with
  | nil => exact ⟨placed,slotted⟩
  | cons key keys ih =>
    obtain ⟨here,later⟩ := List.cons_subset.mp held
    obtain ⟨r,job,object,rfl,runs⟩ := (slotted.running key).mp here
    obtain ⟨rfl,-⟩ := placed.identity r job object
    have known := placed.live _ job object (by simp [runs,JobState.terminal])
    have found : q.job? job.key = some job := by simp [Queue.job?,known,object]
    obtain ⟨task,current,unfinished⟩ := slotted.active _ job object runs
    obtain ⟨placed',slotted'⟩ := cancelTask_accounted placed slotted object runs
      fun task => started _ job task object runs
    simp only [List.foldl_cons,found]
    have changed : q.cancelTask job.runId job = q.setJob job.runId
        { job with task := some { task with mustCancel := true } } := by
      simp [Queue.cancelTask,current,unfinished]
    refine ih placed' slotted' ?_ (by rw [changed]; exact later)
    intro a job' task' object' runs' current'
    rw [changed,setJob_eq,Dict.get?_set] at object'
    split at object'
    · obtain rfl := Option.some.inj object'
      obtain rfl := Option.some.inj current'
      exact started _ job task object runs current
    · exact started a job' task' object' runs' current'

theorem close_accounted (placed : Placed q) (slotted : Slotted q)
    (started : ∀ key ∈ q.running, q.Started key) : Placed q.close ∧ Slotted q.close := by
  let q₀ : Queue := { q with closed := true, wakeup := true }
  obtain ⟨placed₀,slotted₀⟩ : Placed q₀ ∧ Slotted q₀ :=
    accounted_congr placed slotted (by simp [q₀]) rfl
  obtain ⟨placed₁,slotted₁,running,pending,objects⟩ := cancelAll_accounted q₀.pending placed₀
    slotted₀ (List.Subset.refl _) placed₀.pending_nodup
  have empty : (q₀.cancelAll q₀.pending).pending = [] := by
    refine List.eq_nil_iff_forall_not_mem.mpr fun r hr => ?_
    exact ((pending r).mp hr).2 ((pending r).mp hr).1
  have cleared : { q₀.cancelAll q₀.pending with pending := [] } = q₀.cancelAll q₀.pending := by
    rw [← empty]
  have begun : ∀ r job task, (q₀.cancelAll q₀.pending).heap.get? r = some job →
      job.state = .running → job.task = some task → task.phase ≠ .created := by
    intro r job task object runs current
    have earlier : q.heap.get? r = some job := objects r job object runs
    have known := placed.live r job earlier (by simp [runs,JobState.terminal])
    have held := (slotted.running job.key).mpr ⟨r,job,earlier,rfl,runs⟩
    exact started job.key held job task (by simp [Queue.job?,known,earlier]) current
  have closes : q.close = (q₀.cancelAll q₀.pending).running.foldl
      (fun q key => match q.job? key with
        | some job => q.cancelTask job.runId job
        | none => q) (q₀.cancelAll q₀.pending) := by
    rw [← cleared]
    rfl
  rw [closes]
  exact cancelRunning_accounted _ placed₁ slotted₁ begun (List.Subset.refl _)

theorem step_accounted {q' : Queue} {action : Action} (placed : Placed q) (slotted : Slotted q)
    (allowed : q.NoEarlyCancel action) (taken : q.step action = some q') :
    Placed q' ∧ Slotted q' := by
  have flags : ∀ {q'' : Queue}, q''.heap = q.heap ∧ q''.nextRun = q.nextRun ∧
      q''.jobs = q.jobs ∧ q''.pending = q.pending ∧ q''.history = q.history ∧
      q''.byRun = q.byRun ∧ q''.order = q.order → q''.running = q.running →
      Placed q'' ∧ Slotted q'' := fun same running => accounted_congr placed slotted same running
  cases action with
  | start | pause | endMaintenance =>
    obtain rfl := Option.some.inj taken
    exact flags (by simp) rfl
  | submit key priority fingerprint admitted stored =>
    obtain rfl := Option.some.inj taken
    exact ⟨placed.submit ..,slotted.submit placed ..⟩
  | cancel key =>
    obtain rfl := Option.some.inj taken
    exact cancel_accounted placed slotted allowed
  | clear client =>
    obtain rfl := Option.some.inj taken
    have sorted := sortedBy_perm q.rank q.pending
    obtain ⟨placed',slotted',-⟩ := cancelAll_accounted _ placed slotted
      (fun r hr => sorted.subset (List.mem_filter.mp hr).1)
      ((sorted.nodup_iff.mpr placed.pending_nodup).filter fun r =>
        (q.heap.get? r).any fun job => client.all (· = job.key.clientId))
    exact ⟨placed',slotted'⟩
  | resume =>
    obtain rfl := Option.some.inj taken
    unfold Queue.resume
    split <;> exact flags (by simp) rfl
  | beginMaintenance =>
    obtain rfl := Option.some.inj taken
    unfold Queue.beginMaintenance
    split <;> exact flags (by simp) rfl
  | setMaxRunning n =>
    obtain rfl := Option.some.inj taken
    unfold Queue.setMaxRunning
    split <;> exact flags (by simp) rfl
  | dispatch =>
    simp only [step] at taken
    split at taken
    · obtain rfl := Option.some.inj taken
      unfold Queue.dispatch
      dsimp only
      obtain ⟨placed₀,slotted₀⟩ : Placed { q with wakeup := false } ∧
          Slotted { q with wakeup := false } := flags (by simp) rfl
      split
      · exact flags (by simp) rfl
      · obtain ⟨placed',slotted',-⟩ := dispatchLoop_accounted q.pending.length placed₀ slotted₀
        exact ⟨placed',slotted'⟩
    · simp at taken
  | runStep run outcome => exact runStep_accounted placed slotted taken
  | close =>
    obtain rfl := Option.some.inj taken
    exact close_accounted placed slotted allowed
  | dropDispatcher =>
    simp only [step] at taken
    split at taken
    · obtain rfl := Option.some.inj taken
      exact flags (by simp) rfl
    · simp at taken

end Queue

/-- A queue as its constructor leaves it. -/
def newQueue (maxRunning historyLimit : Nat) (maxRunning_pos : 1 ≤ maxRunning)
    (historyLimit_pos : 1 ≤ historyLimit) : Queue :=
  { maxRunning, historyLimit, maxRunning_pos, historyLimit_pos }

/-- The books of the queue, for every job object and every key. -/
structure Accounted (q : Queue) : Prop where
  running_iff : ∀ r job, q.heap.get? r = some job →
    ((job.key ∈ q.running ∧ q.jobs.get? job.key = some r) ↔
      ∃ task, job.task = some task ∧ task.phase ≠ .done)
  running_known : ∀ key ∈ q.running, ∃ r, q.jobs.get? key = some r
  finished_terminal : ∀ r job task, q.heap.get? r = some job → job.task = some task →
    task.phase = .done → job.state.terminal = true
  one_place : ∀ key r, q.jobs.get? key = some r →
    (r ∈ q.pending ∧ key ∉ q.running ∧ r ∉ q.history) ∨
    (r ∉ q.pending ∧ key ∈ q.running ∧ r ∉ q.history) ∨
    (r ∉ q.pending ∧ key ∉ q.running ∧ r ∈ q.history)
  pending_known : ∀ r ∈ q.pending, ∃ key, q.jobs.get? key = some r
  history_known : ∀ r ∈ q.history, ∃ key, q.jobs.get? key = some r
  run_index : ∀ r key, q.byRun.get? r = some key ↔
    ∃ job, q.jobs.get? key = some r ∧ q.heap.get? r = some job ∧ job.key = key ∧ job.runId = r
  dispatch_bound : ∀ q', q.step .dispatch = some q' →
    q'.running = q.running ∨ q'.running.length ≤ q'.maxRunning

namespace Queue

theorem accounted_of_invariants {q : Queue} (placed : Placed q) (slotted : Slotted q) :
    Accounted q := by
  have dispatches : ∀ q', q.step .dispatch = some q' →
      q'.running = q.running ∨ q'.running.length ≤ q'.maxRunning := by
    intro q' taken
    simp only [step] at taken
    split at taken
    · obtain rfl := Option.some.inj taken
      unfold Queue.dispatch
      dsimp only
      split
      · exact .inl rfl
      · obtain ⟨placed₀,slotted₀⟩ : Placed { q with wakeup := false } ∧
            Slotted { q with wakeup := false } :=
          accounted_congr placed slotted (by simp) rfl
        exact (dispatchLoop_accounted q.pending.length placed₀ slotted₀).2.2
    · simp at taken
  obtain ⟨identity,known,live,pending,-,history,-,index,-⟩ := placed
  obtain ⟨running,-,idle,active,ended,-⟩ := slotted
  -- The state of an object decides where it is and what its task may be.
  have held : ∀ r job, q.heap.get? r = some job →
      (job.key ∈ q.running ∧ q.jobs.get? job.key = some r ↔ job.state = .running) := by
    intro r job object
    constructor
    · rintro ⟨slot,here⟩
      obtain ⟨r',job',object',same,runs⟩ := (running job.key).mp slot
      have there := live r' job' object' (by simp [runs,JobState.terminal])
      grind -ring -linarith
    · intro runs
      exact ⟨(running _).mpr ⟨r,job,object,rfl,runs⟩,
        live r job object (by simp [runs,JobState.terminal])⟩
  constructor
  case running_iff =>
    intro r job object
    rw [held r job object]
    cases state : job.state with
    | running => simpa using active r job object state
    | queued => simp [idle r job object state]
    | completed | failed | cancelled =>
      have finished := ended r job
      grind -ring -linarith [JobState.terminal]
  case running_known => grind -ring -linarith [JobState.terminal]
  case finished_terminal =>
    intro r job task object current finished
    cases state : job.state with
    | running => grind -ring -linarith
    | queued => simp [idle r job object state] at current
    | completed | failed | cancelled => rfl
  case one_place =>
    intro key r here
    obtain ⟨job,object,rfl⟩ := known key r here
    have slot := held r job object
    cases state : job.state with
    | queued => grind -ring -linarith [JobState.terminal]
    | running => grind -ring -linarith [JobState.terminal]
    | completed | failed | cancelled => grind -ring -linarith [JobState.terminal]
  case pending_known => grind -ring -linarith [JobState.terminal]
  case history_known => grind -ring -linarith
  case run_index => grind -ring -linarith
  case dispatch_bound => exact dispatches

theorem newQueue_accounted (maxRunning historyLimit : Nat) (maxRunning_pos : 1 ≤ maxRunning)
    (historyLimit_pos : 1 ≤ historyLimit) :
    Placed (newQueue maxRunning historyLimit maxRunning_pos historyLimit_pos) ∧
    Slotted (newQueue maxRunning historyLimit maxRunning_pos historyLimit_pos) := by
  constructor <;> constructor <;> simp [newQueue]

end Queue

/-- The books balance in every state reached without an early cancellation. -/
theorem job_queue_accounting {maxRunning historyLimit : Nat} (maxRunning_pos : 1 ≤ maxRunning)
    (historyLimit_pos : 1 ≤ historyLimit) {q : Queue}
    (reached : Transition.Reach Queue.step Queue.NoEarlyCancel
      (newQueue maxRunning historyLimit maxRunning_pos historyLimit_pos) q) : Accounted q := by
  have kept := reached.invariant (fun q => q.Placed ∧ q.Slotted)
    (Queue.newQueue_accounted maxRunning historyLimit maxRunning_pos historyLimit_pos)
    fun _ _ _ accounts allowed taken => Queue.step_accounted accounts.1 accounts.2 allowed taken
  exact Queue.accounted_of_invariants kept.1 kept.2

def sampleKey : JobKey := ⟨"client","job"⟩

def sampleSubmit : Queue.Action := .submit sampleKey 0 "content" true true

/-- A cancellation between the task's first two steps: the job ends and its slot is free. -/
theorem job_queue_accounting_cancelled : ∃ q,
    Transition.run Queue.step (newQueue 1 256 (by decide) (by decide))
      [.start,sampleSubmit,.dispatch,.runStep 0 .suspend,.cancel sampleKey,
        .runStep 0 (.ends .cancelled false)] = some q ∧ q.running = [] ∧ Accounted q := by
  refine ⟨_,rfl,rfl,@job_queue_accounting 1 256 (by decide) (by decide) _ ?_⟩
  refine .step (a := .runStep 0 (.ends .cancelled false)) (.step (a := .cancel sampleKey)
    (.step (a := .runStep 0 .suspend) (.step (a := .dispatch) (.step (a := sampleSubmit)
    (.step (a := .start) .refl trivial rfl) trivial rfl) trivial rfl) trivial rfl) ?_ rfl)
    trivial rfl
  intro job task found current
  obtain rfl := Option.some.inj found
  obtain rfl := Option.some.inj current
  decide

/-- The same cancellation before the first step: the task is over, the job keeps its slot. -/
theorem early_cancel_leaks_slot : ∃ q,
    Transition.run Queue.step (newQueue 1 256 (by decide) (by decide))
      [.start,sampleSubmit,.dispatch,.cancel sampleKey,.runStep 0 .suspend] = some q ∧
    (q.heap.get? 0).map (·.state) = some .running ∧
    ((q.heap.get? 0).bind (·.task)).map (·.phase) = some .done ∧
    q.running = [sampleKey] ∧ ¬Accounted q := by
  refine ⟨_,rfl,rfl,rfl,rfl,fun books => ?_⟩
  exact absurd (books.finished_terminal 0 _ _ rfl rfl rfl) (by decide)

end Dinkster.JobQueue
