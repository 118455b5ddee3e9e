import Dinkster.Server.JobQueueAccounting

/-! The wakeups of the dispatcher. A job that may start waits only while a wakeup is signalled,
and a wakeup starts jobs in the order of their ranks until no more may start. -/
namespace Dinkster.JobQueue
open Canonical Transition

namespace Queue

variable {q q' q'' : Queue} {r : RunRef}

/-- A queued job may start, as the dispatcher tests it outside of maintenance. -/
structure Startable (q : Queue) : Prop where
  opened : q.closed = false
  unpaused : q.paused = false
  waits : q.pending ≠ []
  room : q.running.length < q.maxRunning

/-- Only a paused queue is in maintenance, and a job that may start is signalled. -/
structure Awake (q : Queue) : Prop where
  held : q.maintenanceActive = true → q.paused = true
  signalled : q.Startable → q.wakeup = true

/-- The slots, the switches and the signal stay, and no job is added to those that wait. -/
structure Calm (q q' : Queue) : Prop where
  closed : q'.closed = q.closed
  paused : q'.paused = q.paused
  maintenance : q'.maintenanceActive = q.maintenanceActive
  wakeup : q'.wakeup = q.wakeup
  limit : q'.maxRunning = q.maxRunning
  running : q'.running = q.running
  pending : q.pending = [] → q'.pending = []

theorem Calm.refl (q : Queue) : Calm q q := ⟨rfl,rfl,rfl,rfl,rfl,rfl,id⟩

theorem Calm.trans (first : Calm q q') (second : Calm q' q'') : Calm q q'' where
  closed := second.closed.trans first.closed
  paused := second.paused.trans first.paused
  maintenance := second.maintenance.trans first.maintenance
  wakeup := second.wakeup.trans first.wakeup
  limit := second.limit.trans first.limit
  running := second.running.trans first.running
  pending none := second.pending (first.pending none)

theorem Awake.calm (awake : q.Awake) (calm : Calm q q') : q'.Awake where
  held active := by
    rw [calm.paused]
    apply awake.held
    rw [← calm.maintenance]
    exact active
  signalled startable := by
    rw [calm.wakeup]
    apply awake.signalled
    constructor
    · rw [← calm.closed]
      exact startable.opened
    · rw [← calm.paused]
      exact startable.unpaused
    · intro none
      exact startable.waits (calm.pending none)
    · rw [← calm.running,← calm.limit]
      exact startable.room

theorem setJob_calm (r : RunRef) (job : Job) : Calm q (q.setJob r job) :=
  ⟨rfl,rfl,rfl,rfl,rfl,rfl,id⟩

theorem forget_calm (r : RunRef) (rest : List RunRef) : Calm q (q.forget r rest) := by
  unfold forget
  cases object : q.heap.get? r with
  | none => exact ⟨rfl,rfl,rfl,rfl,rfl,rfl,id⟩
  | some job =>
    by_cases here : q.jobs.get? job.key = some r
    · simp only [Option.map_some,here,if_true]
      exact ⟨rfl,rfl,rfl,rfl,rfl,rfl,id⟩
    · simp only [Option.map_some,here,if_false]
      exact ⟨rfl,rfl,rfl,rfl,rfl,rfl,id⟩

theorem evict_calm (turns : Nat) : Calm q (q.evict turns) := by
  induction turns generalizing q with
  | zero => exact .refl q
  | succ n ih =>
    unfold evict
    split
    · exact .refl q
    · split
      · exact (forget_calm _ _).trans ih
      · exact .refl q

theorem finish_calm (r : RunRef) (job : Job) (state : JobState) : Calm q (q.finish r job state) := by
  have recorded : Calm q { q.setJob r { job with state } with history := q.history ++ [r] } :=
    ⟨rfl,rfl,rfl,rfl,rfl,rfl,id⟩
  exact recorded.trans (evict_calm _)

theorem cancelQueued_calm (r : RunRef) (job : Job) : Calm q (q.cancelQueued r job) := by
  have erased : Calm q { q with pending := q.pending.erase r } := by
    refine ⟨rfl,rfl,rfl,rfl,rfl,rfl,fun none => ?_⟩
    show q.pending.erase r = []
    rw [none]
    rfl
  exact erased.trans (finish_calm r job .cancelled)

theorem cancelTask_calm (r : RunRef) (job : Job) : Calm q (q.cancelTask r job) := by
  unfold cancelTask
  split
  · split
    · exact .refl q
    · exact setJob_calm _ _
  · exact .refl q

theorem cancel_calm (key : JobKey) : Calm q (q.cancel key) := by
  unfold cancel
  split
  · exact .refl q
  · split
    · exact .refl q
    · split
      · exact cancelQueued_calm _ _
      · exact cancelTask_calm _ _

theorem cancelAll_calm (victims : List RunRef) : Calm q (q.cancelAll victims) := by
  induction victims generalizing q with
  | nil => exact .refl q
  | cons r victims ih =>
    unfold cancelAll at ih ⊢
    rw [List.foldl_cons]
    split
    · exact (cancelQueued_calm _ _).trans ih
    · exact ih

theorem submit_awake (awake : q.Awake) (key : JobKey) (priority : Int) (fingerprint : String)
    (admitted stored : Bool) : (q.submit key priority fingerprint admitted stored).Awake := by
  unfold submit
  split
  · exact awake
  dsimp only
  split
  · exact awake
  split
  · exact awake
  refine ⟨?_,fun _ => rfl⟩
  split
  · exact awake.held
  · exact awake.held

theorem bodyStep_awake (awake : q.Awake) (r : RunRef) (job : Job) (outcome : StepOutcome) :
    (q.bodyStep r job outcome).Awake := by
  unfold bodyStep
  split
  · exact awake.calm (setJob_calm _ _)
  · split
    · exact awake.calm (setJob_calm _ _)
    · exact ⟨(awake.calm (finish_calm _ _ _)).held,fun _ => rfl⟩

theorem runStep_awake (awake : q.Awake) {outcome : StepOutcome}
    (taken : q.runStep r outcome = some q') : q'.Awake := by
  obtain ⟨job,_,taken⟩ := Option.bind_eq_some_iff.mp taken
  obtain ⟨task,_,taken⟩ := Option.bind_eq_some_iff.mp taken
  split at taken
  · split at taken
    · cases taken
      exact awake.calm (setJob_calm _ _)
    · cases taken
      exact bodyStep_awake awake r job outcome
  · cases taken
    exact bodyStep_awake awake r job outcome
  · split at taken
    · cases taken
      exact awake.calm (setJob_calm _ _)
    · cases taken
      exact ⟨(awake.calm (finish_calm _ _ _)).held,fun _ => rfl⟩
  · cases taken

theorem foldl_calm {f : Queue → JobKey → Queue} (each : ∀ q key, Calm q (f q key))
    (keys : List JobKey) (q : Queue) : Calm q (keys.foldl f q) := by
  induction keys generalizing q with
  | nil => exact .refl q
  | cons key keys ih =>
    rw [List.foldl_cons]
    exact (each q key).trans (ih _)

theorem close_switches : q.close.closed = true ∧ q.close.paused = q.paused ∧
    q.close.maintenanceActive = q.maintenanceActive := by
  have dropped := @cancelAll_calm { q with closed := true, wakeup := true } q.pending
  have requested : Calm { ({ q with closed := true, wakeup := true } : Queue).cancelAll q.pending with
      pending := [] } q.close := by
    refine foldl_calm (fun q key => ?_) _ _
    split
    · exact cancelTask_calm _ _
    · exact .refl q
  exact ⟨requested.closed.trans dropped.closed,requested.paused.trans dropped.paused,
    requested.maintenance.trans dropped.maintenance⟩

/-- What a wakeup does to the jobs that wait: those that start rank before those that are left,
and the ranks stay. -/
structure Serves (q q' : Queue) : Prop where
  fewer : ∀ p ∈ q'.pending, p ∈ q.pending
  ordered : ∀ r ∈ q.pending, r ∉ q'.pending → ∀ p ∈ q'.pending, q.rank r ≤ q.rank p
  ranks : q'.rank = q.rank

theorem Serves.refl (q : Queue) : Serves q q :=
  ⟨fun _ => id,fun _ inside left => absurd inside left,rfl⟩

theorem Serves.trans (first : Serves q q') (second : Serves q' q'') : Serves q q'' where
  fewer p inside := first.fewer p (second.fewer p inside)
  ordered r inside started p waits := by
    by_cases later : r ∈ q'.pending
    · rw [← first.ranks]
      exact second.ordered r later started p waits
    · exact first.ordered r inside later p (second.fewer p waits)
  ranks := second.ranks.trans first.ranks

theorem dispatchOne_ranks (r : RunRef) (rest : List RunRef) :
    (q.dispatchOne r rest).rank = q.rank := by
  unfold dispatchOne
  split
  · rfl
  · rename_i job found
    ext p
    unfold rank
    dsimp only
    rw [Dict.get?_set]
    by_cases same : p = r
    · rw [if_pos same,same,found]
    · rw [if_neg same]

theorem dispatchOne_pending (r : RunRef) (rest : List RunRef) :
    (q.dispatchOne r rest).pending = rest := by
  unfold dispatchOne
  split <;> rfl

theorem dispatchOne_serves {rest : List RunRef} (sorted : sortedBy q.rank q.pending = r :: rest) :
    Serves q (q.dispatchOne r rest) := by
  have listed (p : RunRef) : p ∈ q.pending ↔ p ∈ r :: rest := by
    rw [← sorted,mem_sortedBy]
  have least := sortedBy_pairwise q.rank q.pending
  rw [sorted,List.pairwise_cons] at least
  constructor
  · intro p inside
    rw [dispatchOne_pending] at inside
    exact (listed p).mpr (List.mem_cons_of_mem _ inside)
  · intro p inside started p' waits
    rw [dispatchOne_pending] at started waits
    rcases List.mem_cons.mp ((listed p).mp inside) with rfl | later
    · exact least.1 p' waits
    · exact absurd later started
  · exact dispatchOne_ranks r rest

theorem dispatchOne_switches (r : RunRef) (rest : List RunRef) :
    (q.dispatchOne r rest).closed = q.closed ∧ (q.dispatchOne r rest).paused = q.paused ∧
      (q.dispatchOne r rest).maintenanceActive = q.maintenanceActive := by
  unfold dispatchOne
  split <;> exact ⟨rfl,rfl,rfl⟩

theorem dispatchLoop_switches (turns : Nat) :
    (q.dispatchLoop turns).closed = q.closed ∧ (q.dispatchLoop turns).paused = q.paused ∧
      (q.dispatchLoop turns).maintenanceActive = q.maintenanceActive := by
  induction turns generalizing q with
  | zero => exact ⟨rfl,rfl,rfl⟩
  | succ n ih =>
    unfold dispatchLoop
    split
    · split
      · exact ⟨rfl,rfl,rfl⟩
      · rename_i r rest _
        obtain ⟨closed,paused,maintenance⟩ := ih (q := q.dispatchOne r rest)
        rw [closed,paused,maintenance]
        exact dispatchOne_switches r rest
    · exact ⟨rfl,rfl,rfl⟩

/-- The tests of the inner loop, all of which it fails when it ends. -/
def Stops (q : Queue) : Prop :=
  q.paused = true ∨ q.maintenanceActive = true ∨ q.maxRunning ≤ q.running.length ∨ q.pending = []

theorem dispatchLoop_serves (turns : Nat) (enough : q.pending.length ≤ turns) :
    Serves q (q.dispatchLoop turns) ∧ (q.dispatchLoop turns).Stops := by
  induction turns generalizing q with
  | zero => exact ⟨.refl q,.inr (.inr (.inr (List.eq_nil_of_length_eq_zero (Nat.le_zero.mp enough))))⟩
  | succ n ih =>
    unfold dispatchLoop
    split
    · split
      · rename_i sorted
        refine ⟨.refl q,.inr (.inr (.inr (List.eq_nil_of_length_eq_zero ?_)))⟩
        rw [← length_sortedBy q.rank q.pending,sorted]
        rfl
      · rename_i r rest sorted
        have shorter := length_sortedBy q.rank q.pending
        rw [sorted,List.length_cons] at shorter
        obtain ⟨later,stops⟩ := ih (q := q.dispatchOne r rest) (by
          rw [dispatchOne_pending]
          omega)
        exact ⟨(dispatchOne_serves sorted).trans later,stops⟩
    · rename_i failed
      refine ⟨.refl q,?_⟩
      unfold Stops
      cases paused : q.paused with
      | true => exact .inl rfl
      | false =>
        cases active : q.maintenanceActive with
        | true => exact .inr (.inl rfl)
        | false =>
          rw [paused,active] at failed
          exact .inr (.inr (.inl (Nat.le_of_not_lt fun room =>
            failed ⟨Bool.false_ne_true,Bool.false_ne_true,room⟩)))

theorem dispatch_awake (awake : q.Awake) : q.dispatch.Awake := by
  unfold dispatch
  dsimp only
  split
  · rename_i closed
    exact ⟨awake.held,fun startable => absurd (closed.symm.trans startable.opened) (by decide)⟩
  · have same := @dispatchLoop_switches { q with wakeup := false } q.pending.length
    have held : ({ q with wakeup := false }.dispatchLoop q.pending.length).maintenanceActive = true →
        ({ q with wakeup := false }.dispatchLoop q.pending.length).paused = true := by
      rw [same.2.1,same.2.2]
      exact awake.held
    refine ⟨held,fun startable => ?_⟩
    obtain paused | active | full | empty :=
      (@dispatchLoop_serves { q with wakeup := false } q.pending.length (le_refl _)).2
    · exact absurd (paused.symm.trans startable.unpaused) (by decide)
    · exact absurd ((held active).symm.trans startable.unpaused) (by decide)
    · exact absurd startable.room (Nat.not_lt.mpr full)
    · exact absurd empty startable.waits

theorem step_awake (awake : q.Awake) {a : Action} (taken : q.step a = some q') : q'.Awake := by
  cases a with
  | start =>
    cases taken
    exact ⟨awake.held,fun startable => awake.signalled
      ⟨startable.opened,startable.unpaused,startable.waits,startable.room⟩⟩
  | submit key priority fingerprint admitted stored =>
    cases taken
    exact submit_awake awake _ _ _ _ _
  | cancel key =>
    cases taken
    exact awake.calm (cancel_calm key)
  | clear client =>
    cases taken
    exact awake.calm (cancelAll_calm _)
  | pause =>
    cases taken
    exact ⟨fun _ => rfl,fun startable => by cases startable.unpaused⟩
  | resume =>
    cases taken
    unfold resume
    split
    · exact awake
    · rename_i inactive
      exact ⟨fun active => absurd active inactive,fun _ => rfl⟩
  | beginMaintenance =>
    cases taken
    unfold beginMaintenance
    split
    · exact awake
    · rename_i allowed
      push Not at allowed
      refine ⟨fun _ => allowed.2.1,fun startable => ?_⟩
      exact absurd (allowed.2.1.symm.trans startable.unpaused) (by decide)
  | endMaintenance =>
    cases taken
    refine ⟨fun active => (by cases active),fun startable => awake.signalled ?_⟩
    exact ⟨startable.opened,startable.unpaused,startable.waits,startable.room⟩
  | setMaxRunning n =>
    cases taken
    unfold setMaxRunning
    split
    · refine ⟨awake.held,fun startable => ?_⟩
      obtain ⟨opened,unpaused,waits,room⟩ := startable
      by_cases raised : q.maxRunning < n
      · simp [raised]
      · have signalled := awake.signalled ⟨opened,unpaused,waits,
          Nat.lt_of_lt_of_le room (Nat.le_of_not_lt raised)⟩
        simp [signalled]
    · exact awake
  | dispatch =>
    dsimp only [step] at taken
    split at taken
    · cases taken
      exact dispatch_awake awake
    · cases taken
  | runStep run outcome => exact runStep_awake awake taken
  | close =>
    cases taken
    obtain ⟨closed,paused,maintenance⟩ := close_switches (q := q)
    refine ⟨?_,fun startable => absurd (closed.symm.trans startable.opened) (by decide)⟩
    rw [paused,maintenance]
    exact awake.held
  | dropDispatcher =>
    dsimp only [step] at taken
    split at taken
    · cases taken
      exact ⟨awake.held,fun startable => awake.signalled
        ⟨startable.opened,startable.unpaused,startable.waits,startable.room⟩⟩
    · cases taken

end Queue

/-- No wakeup is lost: whenever a queued job may start, the dispatcher is signalled. -/
theorem no_lost_wakeup {maxRunning historyLimit : Nat} {maxRunning_pos : 1 ≤ maxRunning}
    {historyLimit_pos : 1 ≤ historyLimit} {q : Queue}
    (reached : Reachable Queue.step
      (newQueue maxRunning historyLimit maxRunning_pos historyLimit_pos) q)
    (startable : q.Startable) : q.wakeup = true := by
  have awake : q.Awake := by
    apply reached.invariant Queue.Awake
    · exact ⟨fun active => (by cases active),fun startable => absurd rfl startable.waits⟩
    · intro q a q' awake _ taken
      exact Queue.step_awake awake taken
  exact awake.signalled startable

theorem no_lost_wakeup_submitted : ∃ q, Transition.run Queue.step
    (newQueue 1 256 (by decide) (by decide)) [.start,sampleSubmit] = some q ∧ q.wakeup = true := by
  have ran : Transition.run Queue.step (newQueue 1 256 (by decide) (by decide))
    [.start,sampleSubmit] = some _ := rfl
  refine ⟨_,ran,no_lost_wakeup (reachable_of_run ran) ?_⟩
  exact ⟨rfl,rfl,List.cons_ne_nil _ _,by decide⟩

/-- A wakeup of an open queue starts the jobs that rank first, and ends only when no more may
start. -/
theorem dispatch_by_rank {q q' : Queue} (opened : q.closed = false)
    (taken : q.step .dispatch = some q') : q.Serves q' ∧ q'.Stops := by
  dsimp only [Queue.step] at taken
  split at taken
  · cases taken
    unfold Queue.dispatch
    dsimp only
    have running : ¬ q.closed = true := by rw [opened]; exact Bool.false_ne_true
    rw [if_neg running]
    obtain ⟨serves,stops⟩ := @Queue.dispatchLoop_serves { q with wakeup := false } q.pending.length
      (le_refl _)
    exact ⟨⟨serves.fewer,serves.ordered,serves.ranks⟩,stops⟩
  · cases taken

theorem dispatch_by_rank_submitted : ∃ q q', Transition.run Queue.step
    (newQueue 1 256 (by decide) (by decide)) [.start,sampleSubmit] = some q ∧
      q.step .dispatch = some q' ∧ q.Serves q' ∧ q'.Stops := by
  refine ⟨_,_,rfl,rfl,?_⟩
  exact dispatch_by_rank rfl rfl

end Dinkster.JobQueue
