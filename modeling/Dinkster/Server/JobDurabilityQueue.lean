import Dinkster.Server.JobDurability
import Dinkster.Server.JobQueueAccounting

/-! What a stretch of the queue does to the job objects, next to the transactions it asks for. The
bookkeeping that matters here survives every cancellation, early ones included. -/
namespace Dinkster.JobQueue
open Canonical

namespace Queue

variable {q q' q'' : Queue} {r : RunRef} {job : Job} {calls more : List StoreCall}

/-- Pending jobs are queued, and a task that is not over belongs to a running job. -/
structure Tracked (q : Queue) : Prop where
  identity : ∀ r job, q.heap.get? r = some job → job.runId = r ∧ r < q.nextRun
  pending : ∀ r ∈ q.pending, ∃ job, q.heap.get? r = some job ∧ job.state = .queued
  pending_nodup : q.pending.Nodup
  queued : ∀ r job, q.heap.get? r = some job → job.state = .queued → job.task = none
  working : ∀ r job task, q.heap.get? r = some job → job.task = some task →
    task.phase ≠ .done → job.state = .running

theorem Tracked.congr (tracked : Tracked q) (heap : q'.heap = q.heap)
    (next : q'.nextRun = q.nextRun) (pending : q'.pending = q.pending) : Tracked q' := by
  obtain ⟨identity,waiting,nodup,queued,working⟩ := tracked
  constructor
  · rwa [heap,next]
  · rwa [heap,pending]
  · rwa [pending]
  · rwa [heap]
  · rwa [heap]

theorem Tracked.rewrite {job' : Job} (tracked : Tracked q) (object : q.heap.get? r = some job)
    (heap : q'.heap = q.heap.set r job') (next : q'.nextRun = q.nextRun)
    (left : ∀ a ∈ q'.pending, a ∈ q.pending ∧ a ≠ r) (nodup : q'.pending.Nodup)
    (same : job'.runId = job.runId) (unqueued : job'.state ≠ .queued)
    (works : ∀ task, job'.task = some task → task.phase ≠ .done → job'.state = .running) :
    Tracked q' := by
  obtain ⟨identity,waiting,_,queued,working⟩ := tracked
  constructor
  · intro a other found
    rw [heap,Dict.get?_set] at found
    rw [next]
    split at found
    · rename_i here
      obtain rfl := Option.some.inj found
      rw [same,here]
      exact identity r job object
    · exact identity a other found
  · intro a inside
    obtain ⟨before,different⟩ := left a inside
    rw [heap,Dict.get?_set,if_neg different]
    exact waiting a before
  · exact nodup
  · intro a other found idle
    rw [heap,Dict.get?_set] at found
    split at found
    · obtain rfl := Option.some.inj found
      exact absurd idle unqueued
    · exact queued a other found idle
  · intro a other task found current unfinished
    rw [heap,Dict.get?_set] at found
    split at found
    · obtain rfl := Option.some.inj found
      exact works task current unfinished
    · exact working a other task found current unfinished

theorem Tracked.not_pending (tracked : Tracked q) (object : q.heap.get? r = some job)
    (unqueued : job.state ≠ .queued) : r ∉ q.pending := by
  intro inside
  obtain ⟨other,found,queued⟩ := tracked.pending r inside
  obtain rfl := Option.some.inj (object.symm.trans found)
  exact unqueued queued

/-- A transaction is about a run that is fresh or not yet terminal, and a terminal write comes with
the terminal state. -/
def Writes (q q' : Queue) : StoreCall → Prop
  | .jobAccepted job => job.runId = q.nextRun
  | .jobStarted _ => True
  | .jobTerminal job =>
    (∃ old, q.heap.get? job.runId = some old ∧ old.state.terminal = false) ∧
      ∀ after, q'.heap.get? job.runId = some after → after.state.terminal = true

/-- A terminal job stays terminal, and an object is made only for a run that is offered to the
store. -/
structure Effect (q q' : Queue) (calls : List StoreCall) : Prop where
  tracked : Tracked q'
  next : q.nextRun ≤ q'.nextRun
  heap : ∀ r after, q'.heap.get? r = some after →
    (∃ before, q.heap.get? r = some before ∧
      (after.state.terminal = false → before.state.terminal = false)) ∨
    ∃ made, .jobAccepted made ∈ calls ∧ made.runId = r
  writes : ∀ c ∈ calls, Writes q q' c

theorem Effect.refl (tracked : Tracked q) : Effect q q [] where
  tracked := tracked
  next := le_refl _
  heap := fun _ after found => .inl ⟨after,found,fun live => live⟩
  writes := List.forall_mem_nil _

theorem Effect.congr (tracked : Tracked q) (heap : q'.heap = q.heap)
    (next : q'.nextRun = q.nextRun) (pending : q'.pending = q.pending) : Effect q q' [] where
  tracked := tracked.congr heap next pending
  next := next.ge
  heap := by
    rw [heap]
    exact fun _ after found => .inl ⟨after,found,fun live => live⟩
  writes := List.forall_mem_nil _

theorem Effect.trans (first : Effect q q' calls) (second : Effect q' q'' more)
    (unsubmitted : ∀ job, .jobAccepted job ∉ calls) (unsubmitted' : ∀ job, .jobAccepted job ∉ more) :
    Effect q q'' (calls ++ more) where
  tracked := second.tracked
  next := first.next.trans second.next
  heap := by
    intro r after found
    obtain ⟨between,here,live⟩ | ⟨made,inside,_⟩ := second.heap r after found
    · obtain ⟨before,there,live'⟩ | ⟨made,inside,_⟩ := first.heap r between here
      · exact .inl ⟨before,there,fun unfinished => live' (live unfinished)⟩
      · exact absurd inside (unsubmitted made)
    · exact absurd inside (unsubmitted' made)
  writes := by
    intro c inside
    obtain earlier | later := List.mem_append.mp inside
    · have wrote := first.writes c earlier
      cases c with
      | jobAccepted job => exact absurd earlier (unsubmitted job)
      | jobStarted job => trivial
      | jobTerminal job =>
        refine ⟨wrote.1,?_⟩
        intro after found
        obtain ⟨between,here,live⟩ | ⟨made,inside,_⟩ := second.heap _ after found
        · by_contra running
          have unfinished := live (by simpa using running)
          rw [wrote.2 between here] at unfinished
          cases unfinished
        · exact absurd inside (unsubmitted' made)
    · have wrote := second.writes c later
      cases c with
      | jobAccepted job => exact absurd later (unsubmitted' job)
      | jobStarted job => trivial
      | jobTerminal job =>
        obtain ⟨⟨old,object,unfinished⟩,ended⟩ := wrote
        refine ⟨?_,ended⟩
        obtain ⟨before,there,live⟩ | ⟨made,inside,_⟩ := first.heap _ old object
        · exact ⟨before,there,live unfinished⟩
        · exact absurd inside (unsubmitted made)

theorem Effect.rewrite {job' : Job} (tracked : Tracked q) (object : q.heap.get? r = some job)
    (heap : q'.heap = q.heap.set r job') (next : q'.nextRun = q.nextRun)
    (left : ∀ a ∈ q'.pending, a ∈ q.pending ∧ a ≠ r) (nodup : q'.pending.Nodup)
    (same : job'.runId = job.runId) (unqueued : job'.state ≠ .queued)
    (works : ∀ task, job'.task = some task → task.phase ≠ .done → job'.state = .running)
    (live : job'.state.terminal = false → job.state.terminal = false)
    (writes : ∀ c ∈ calls, Writes q q' c) : Effect q q' calls where
  tracked := tracked.rewrite object heap next left nodup same unqueued works
  next := next.ge
  heap := by
    intro a after found
    rw [heap,Dict.get?_set] at found
    split at found
    · rename_i here
      obtain rfl := Option.some.inj found
      rw [here]
      exact .inl ⟨job,object,live⟩
    · exact .inl ⟨after,found,fun live => live⟩
  writes := writes

theorem evict_nextRun (turns : Nat) : (q.evict turns).nextRun = q.nextRun := by
  induction turns generalizing q with
  | zero => rfl
  | succ n ih =>
    unfold Queue.evict
    split
    · rfl
    · rename_i r rest oldest
      split
      · rw [ih]
        unfold Queue.forget
        dsimp only
        split
        · split <;> rfl
        · rfl
      · rfl

theorem cancelQueued_effect (tracked : Tracked q) (object : q.heap.get? r = some job)
    (queued : job.state = .queued) :
    Effect q (q.cancelQueued r job) (finishCalls job .cancelled) := by
  have heap : (q.cancelQueued r job).heap = q.heap.set r { job with state := .cancelled } :=
    (finish_frame r job .cancelled).1
  have pending : (q.cancelQueued r job).pending = q.pending.erase r :=
    (finish_frame r job .cancelled).2.2
  have identity := (tracked.identity r job object).1
  have idle := tracked.queued r job object queued
  refine Effect.rewrite tracked object heap (evict_nextRun _) ?_ ?_ rfl nofun ?_ nofun ?_
  · intro a inside
    rw [pending,tracked.pending_nodup.mem_erase_iff] at inside
    exact inside.symm
  · rw [pending]
    exact tracked.pending_nodup.erase r
  · intro task current
    rw [idle] at current
    cases current
  · intro c inside
    obtain rfl := List.mem_singleton.mp inside
    refine ⟨⟨job,identity ▸ object,by rw [queued]; rfl⟩,?_⟩
    intro after found
    dsimp only at found
    rw [heap,identity,Dict.get?_set_self] at found
    obtain rfl := Option.some.inj found
    rfl

theorem cancelAllCalls_terminal (victims : List RunRef) (job : Job) :
    .jobAccepted job ∉ cancelAllCalls victims q := by
  induction victims generalizing q with
  | nil => exact List.not_mem_nil
  | cons r victims ih =>
    unfold cancelAllCalls
    split
    · intro inside
      obtain first | later := List.mem_append.mp inside
      · cases List.mem_singleton.mp first
      · exact ih later
    · exact ih

theorem cancelAll_effect (victims : List RunRef) (tracked : Tracked q)
    (waiting : victims ⊆ q.pending) (distinct : victims.Nodup) :
    Effect q (q.cancelAll victims) (cancelAllCalls victims q) ∧
      ∀ a, a ∈ (q.cancelAll victims).pending ↔ a ∈ q.pending ∧ a ∉ victims := by
  induction victims generalizing q with
  | nil => exact ⟨.refl tracked,by simp [cancelAll]⟩
  | cons r victims ih =>
    obtain ⟨fresh,distinct⟩ := List.nodup_cons.mp distinct
    obtain ⟨here,waiting⟩ := List.cons_subset.mp waiting
    obtain ⟨job,object,queued⟩ := tracked.pending r here
    have first := cancelQueued_effect tracked object queued
    have pending : (q.cancelQueued r job).pending = q.pending.erase r :=
      (finish_frame r job .cancelled).2.2
    have erased (a : RunRef) : a ∈ (q.cancelQueued r job).pending ↔ a ≠ r ∧ a ∈ q.pending := by
      rw [pending]
      exact tracked.pending_nodup.mem_erase_iff
    obtain ⟨rest,left⟩ := ih (q := q.cancelQueued r job) first.tracked
      (fun v inside => (erased v).mpr ⟨fun same => fresh (same ▸ inside),waiting inside⟩) distinct
    have opened : q.cancelAll (r :: victims) = (q.cancelQueued r job).cancelAll victims := by
      simp [cancelAll,object]
    have called : cancelAllCalls (r :: victims) q =
        finishCalls job .cancelled ++ cancelAllCalls victims (q.cancelQueued r job) := by
      rw [cancelAllCalls,object]
    rw [opened,called]
    refine ⟨first.trans rest ?_ (cancelAllCalls_terminal victims),?_⟩
    · intro job' inside
      cases List.mem_singleton.mp inside
    · intro a
      rw [left,erased,List.mem_cons,not_or]
      constructor
      · rintro ⟨⟨different,inside⟩,spared⟩
        exact ⟨inside,different,spared⟩
      · rintro ⟨inside,different,spared⟩
        exact ⟨⟨different,inside⟩,spared⟩

theorem dispatchOne_effect (tracked : Tracked q) {rest : List RunRef}
    (chosen : (r :: rest).Perm q.pending) (object : q.heap.get? r = some job)
    (queued : job.state = .queued) :
    Effect q (q.dispatchOne r rest) [.jobStarted job] := by
  obtain ⟨absent,distinct⟩ := List.nodup_cons.mp (chosen.nodup_iff.mpr tracked.pending_nodup)
  have made : q.dispatchOne r rest = { q with
      pending := rest
      heap := q.heap.set r { job with state := .running, task := some ⟨.created,false⟩ }
      running := if job.key ∈ q.running then q.running else q.running ++ [job.key] } := by
    simp [dispatchOne,object]
  rw [made]
  refine Effect.rewrite tracked object rfl rfl ?_ distinct rfl ?_ (fun _ _ _ => rfl) ?_ ?_
  · intro a inside
    exact ⟨chosen.subset (List.mem_cons_of_mem r inside),fun same => absent (same ▸ inside)⟩
  · intro terminal
    cases terminal
  · intro _
    rw [queued]
    rfl
  · intro c inside
    obtain rfl := List.mem_singleton.mp inside
    trivial

theorem dispatchCalls_started (turns : Nat) (job : Job) :
    .jobAccepted job ∉ dispatchCalls turns q := by
  induction turns generalizing q with
  | zero => exact List.not_mem_nil
  | succ n ih =>
    unfold dispatchCalls
    split
    · split
      · exact List.not_mem_nil
      · rename_i r rest sorted
        intro inside
        obtain first | later := List.mem_append.mp inside
        · split at first
          · cases List.mem_singleton.mp first
          · cases first
        · exact ih later
    · exact List.not_mem_nil

theorem dispatchLoop_effect (turns : Nat) (tracked : Tracked q) :
    Effect q (q.dispatchLoop turns) (dispatchCalls turns q) := by
  induction turns generalizing q with
  | zero => exact .refl tracked
  | succ n ih =>
    unfold dispatchLoop dispatchCalls
    split
    · cases sorted : sortedBy q.rank q.pending with
      | nil => exact .refl tracked
      | cons r rest =>
        have chosen : (r :: rest).Perm q.pending := sorted ▸ sortedBy_perm q.rank q.pending
        obtain ⟨job,object,queued⟩ := tracked.pending r (chosen.subset List.mem_cons_self)
        have first := dispatchOne_effect tracked chosen object queued
        dsimp only
        rw [object]
        refine first.trans (ih first.tracked) ?_ (dispatchCalls_started n)
        intro job' inside
        cases List.mem_singleton.mp inside
    · exact .refl tracked

theorem cancelTask_effect (tracked : Tracked q) (object : q.heap.get? r = some job) :
    Effect q (q.cancelTask r job) [] := by
  unfold cancelTask
  split
  · rename_i task current
    split
    · exact .refl tracked
    · rename_i unfinished
      have runs := tracked.working r job task object current unfinished
      refine Effect.rewrite tracked object rfl rfl ?_ tracked.pending_nodup rfl ?_ ?_ ?_
        (List.forall_mem_nil _)
      · intro a inside
        refine ⟨inside,?_⟩
        rintro rfl
        exact tracked.not_pending object (by rw [runs]; decide) inside
      · rw [runs]
        decide
      · exact fun _ _ _ => runs
      · exact fun live => live
  · exact .refl tracked

theorem cancelRunning_effect (keys : List JobKey) (tracked : Tracked q) :
    Effect q (keys.foldl (fun q key => match q.job? key with
      | some job => q.cancelTask job.runId job
      | none => q) q) [] := by
  induction keys generalizing q with
  | nil => exact .refl tracked
  | cons key keys ih =>
    rw [List.foldl_cons]
    cases found : q.job? key with
    | none => exact ih tracked
    | some job =>
      obtain ⟨r,_,object⟩ := Option.bind_eq_some_iff.mp found
      obtain rfl := (tracked.identity r job object).1
      have first := cancelTask_effect tracked object
      exact first.trans (ih first.tracked) (fun _ => List.not_mem_nil) fun _ => List.not_mem_nil

theorem conclude_effect (tracked : Tracked q) (object : q.heap.get? r = some job)
    (runs : job.state = .running) (ending : Ending) :
    Effect q (q.conclude r job ending) (finishCalls job ending.state) := by
  obtain ⟨heap,_,pending⟩ := finish_frame (q := q) r job ending.state
  have identity := (tracked.identity r job object).1
  have rewritten : (q.conclude r job ending).heap = q.heap.set r
      { job with state := ending.state, task := some ⟨.done,false⟩ } := by
    unfold conclude
    dsimp only
    rw [heap,Dict.set_set]
  have waiting : (q.conclude r job ending).pending = q.pending := pending
  have absent := tracked.not_pending object (by rw [runs]; decide)
  refine Effect.rewrite tracked object rewritten (evict_nextRun _) ?_ ?_ rfl ?_ ?_ ?_ ?_
  · intro a inside
    rw [waiting] at inside
    exact ⟨inside,fun same => absent (same ▸ inside)⟩
  · rw [waiting]
    exact tracked.pending_nodup
  · cases ending <;> nofun
  · intro task current unfinished
    obtain rfl := Option.some.inj current
    exact absurd rfl unfinished
  · intro live
    rw [terminal_state] at live
    cases live
  · intro c inside
    obtain rfl := List.mem_singleton.mp inside
    refine ⟨⟨job,identity ▸ object,by rw [runs]; rfl⟩,?_⟩
    intro after found
    dsimp only at found
    rw [rewritten,identity,Dict.get?_set_self] at found
    obtain rfl := Option.some.inj found
    exact terminal_state ending

private theorem setTask_effect (tracked : Tracked q) (object : q.heap.get? r = some job)
    (runs : job.state = .running) (task : JobTask) :
    Effect q (q.setJob r { job with task := some task }) [] := by
  refine Effect.rewrite tracked object rfl rfl ?_ tracked.pending_nodup rfl ?_ ?_ ?_
    (List.forall_mem_nil _)
  · intro a inside
    refine ⟨inside,?_⟩
    rintro rfl
    exact tracked.not_pending object (by rw [runs]; decide) inside
  · rw [runs]
    decide
  · exact fun _ _ _ => runs
  · exact fun live => live

theorem runStep_effect (tracked : Tracked q) {outcome : StepOutcome}
    (taken : q.runStep r outcome = some q') : Effect q q' (q.stepCalls r outcome) := by
  unfold runStep at taken
  obtain ⟨job,object,taken⟩ := Option.bind_eq_some_iff.mp taken
  obtain ⟨task,current,taken⟩ := Option.bind_eq_some_iff.mp taken
  have works := tracked.working r job task object current
  unfold stepCalls
  rw [object]
  dsimp only
  rw [current]
  obtain ⟨phase,mustCancel⟩ := task
  cases phase with
  | created =>
    have runs : job.state = .running := works (by simp)
    cases mustCancel with
    | true =>
      obtain rfl := Option.some.inj taken
      cases outcome with
      | suspend => exact setTask_effect tracked object runs _
      | ends ending settles => exact setTask_effect tracked object runs _
    | false =>
      obtain rfl := Option.some.inj taken
      cases outcome with
      | suspend => exact setTask_effect tracked object runs _
      | ends ending settles => cases settles with
        | true => exact setTask_effect tracked object runs _
        | false => exact conclude_effect tracked object runs ending
  | body =>
    have runs : job.state = .running := works (by simp)
    obtain rfl := Option.some.inj taken
    cases outcome with
    | suspend => exact setTask_effect tracked object runs _
    | ends ending settles => cases settles with
      | true => exact setTask_effect tracked object runs _
      | false => exact conclude_effect tracked object runs ending
  | settling ending =>
    have runs : job.state = .running := works (by simp)
    cases outcome with
    | suspend =>
      obtain rfl := Option.some.inj taken
      exact setTask_effect tracked object runs _
    | ends =>
      obtain rfl := Option.some.inj taken
      exact conclude_effect tracked object runs ending
  | done => cases taken

theorem cancel_effect (tracked : Tracked q) (key : JobKey) :
    Effect q (q.cancel key) (q.cancelCalls key) := by
  unfold cancel cancelCalls
  cases found : q.job? key with
  | none => exact .refl tracked
  | some job =>
    obtain ⟨r,_,object⟩ := Option.bind_eq_some_iff.mp found
    obtain rfl := (tracked.identity r job object).1
    dsimp only
    by_cases queued : job.state = .queued
    · rw [if_neg (by rw [queued]; decide),if_pos queued,if_pos queued]
      exact cancelQueued_effect tracked object queued
    · rw [if_neg queued,if_neg queued]
      split
      · exact .refl tracked
      · exact cancelTask_effect tracked object

theorem clear_effect (tracked : Tracked q) (client : Option String) :
    Effect q (q.clear client) (q.calls (.clear client)) := by
  have sorted := sortedBy_perm q.rank q.pending
  refine (cancelAll_effect _ tracked ?_ ?_).1
  · intro r inside
    exact sorted.subset (List.mem_filter.mp inside).1
  · exact (sorted.nodup_iff.mpr tracked.pending_nodup).filter _

theorem close_effect (tracked : Tracked q) : Effect q q.close (q.calls .close) := by
  have opened : Effect q { q with closed := true, wakeup := true } [] := .congr tracked rfl rfl rfl
  obtain ⟨drops,left⟩ := cancelAll_effect q.pending opened.tracked (List.Subset.refl _)
    tracked.pending_nodup
  unfold close calls
  dsimp only
  generalize ({ q with closed := true, wakeup := true } : Queue).cancelAll q.pending = dropped
    at drops left ⊢
  -- every pending job was cancelled, so there is nothing left to clear
  have empty : dropped.pending = [] := by
    apply List.eq_nil_iff_forall_not_mem.mpr
    intro r inside
    exact ((left r).mp inside).2 ((left r).mp inside).1
  have same : ({ dropped with pending := [] } : Queue) = dropped := by rw [← empty]
  rw [same]
  have requests := cancelRunning_effect dropped.running drops.tracked
  have none_yet (job : Job) : .jobAccepted job ∉ ([] : List StoreCall) := List.not_mem_nil
  have whole := (opened.trans drops none_yet (cancelAllCalls_terminal q.pending)).trans requests
    (cancelAllCalls_terminal q.pending) none_yet
  rwa [List.nil_append,List.append_nil] at whole

private theorem fresh_effect {made : Job} (tracked : Tracked q)
    (heap : q'.heap = q.heap.set q.nextRun job) (next : q'.nextRun = q.nextRun + 1)
    (pending : q'.pending = q.pending ++ [q.nextRun]) (run : job.runId = q.nextRun)
    (queued : job.state = .queued) (idle : job.task = none) (same : made.runId = q.nextRun) :
    Effect q q' [.jobAccepted made] where
  tracked := by
    have absent (a : RunRef) (inside : a ∈ q.pending) : a ≠ q.nextRun := by
      obtain ⟨other,found,_⟩ := tracked.pending a inside
      exact Nat.ne_of_lt (tracked.identity a other found).2
    constructor
    · intro a other found
      rw [heap,Dict.get?_set] at found
      rw [next]
      split at found
      · rename_i here
        obtain rfl := Option.some.inj found
        rw [here]
        exact ⟨run,Nat.lt_succ_self _⟩
      · obtain ⟨mine,known⟩ := tracked.identity a other found
        exact ⟨mine,Nat.lt_succ_of_lt known⟩
    · intro a inside
      rw [pending] at inside
      rw [heap,Dict.get?_set]
      obtain before | last := List.mem_append.mp inside
      · rw [if_neg (absent a before)]
        exact tracked.pending a before
      · rw [if_pos (List.mem_singleton.mp last)]
        exact ⟨job,rfl,queued⟩
    · rw [pending,List.nodup_append]
      refine ⟨tracked.pending_nodup,List.nodup_singleton _,?_⟩
      intro a inside b last
      rw [List.mem_singleton.mp last]
      exact absent a inside
    · intro a other found waits
      rw [heap,Dict.get?_set] at found
      split at found
      · obtain rfl := Option.some.inj found
        exact idle
      · exact tracked.queued a other found waits
    · intro a other task found current
      rw [heap,Dict.get?_set] at found
      split at found
      · obtain rfl := Option.some.inj found
        rw [idle] at current
        cases current
      · exact tracked.working a other task found current
  next := next ▸ Nat.le_succ _
  heap := by
    intro a after found
    rw [heap,Dict.get?_set] at found
    split at found
    · rename_i here
      exact .inr ⟨made,List.mem_singleton_self _,same.trans here.symm⟩
    · exact .inl ⟨after,found,fun live => live⟩
  writes := by
    intro c inside
    obtain rfl := List.mem_singleton.mp inside
    exact same

theorem submit_effect (tracked : Tracked q) (key : JobKey) (priority : Int) (fingerprint : String)
    (admitted stored : Bool) : Effect q (q.submit key priority fingerprint admitted stored)
      (q.submitCalls key priority fingerprint admitted) := by
  unfold submit submitCalls
  split
  · exact .refl tracked
  dsimp only
  split
  · exact .refl tracked
  split
  · refine ⟨tracked,le_refl _,fun _ after found => .inl ⟨after,found,fun live => live⟩,?_⟩
    intro c inside
    obtain rfl := List.mem_singleton.mp inside
    rfl
  · cases q.job? key with
    | none => exact fresh_effect tracked rfl rfl rfl rfl rfl rfl rfl
    | some old => exact fresh_effect tracked rfl rfl rfl rfl rfl rfl rfl

theorem step_effect (tracked : Tracked q) {a : Action} (taken : q.step a = some q') :
    Effect q q' (q.calls a) := by
  cases a with
  | start =>
    obtain rfl := Option.some.inj taken
    exact .congr tracked rfl rfl rfl
  | submit key priority fingerprint admitted stored =>
    obtain rfl := Option.some.inj taken
    exact submit_effect tracked key priority fingerprint admitted stored
  | cancel key =>
    obtain rfl := Option.some.inj taken
    exact cancel_effect tracked key
  | clear client =>
    obtain rfl := Option.some.inj taken
    exact clear_effect tracked client
  | pause =>
    obtain rfl := Option.some.inj taken
    exact .congr tracked rfl rfl rfl
  | resume =>
    obtain rfl := Option.some.inj taken
    unfold resume
    split <;> exact .congr tracked rfl rfl rfl
  | beginMaintenance =>
    obtain rfl := Option.some.inj taken
    unfold beginMaintenance
    split <;> exact .congr tracked rfl rfl rfl
  | endMaintenance =>
    obtain rfl := Option.some.inj taken
    exact .congr tracked rfl rfl rfl
  | setMaxRunning n =>
    obtain rfl := Option.some.inj taken
    unfold setMaxRunning
    split <;> exact .congr tracked rfl rfl rfl
  | dispatch =>
    unfold step at taken
    dsimp only at taken
    split at taken
    · obtain rfl := Option.some.inj taken
      have woken : Effect q { q with wakeup := false } [] := .congr tracked rfl rfl rfl
      unfold dispatch calls
      dsimp only
      split
      · exact .congr tracked rfl rfl rfl
      · exact woken.trans (dispatchLoop_effect q.pending.length woken.tracked)
          (fun job inside => absurd inside List.not_mem_nil)
          (dispatchCalls_started q.pending.length)
    · cases taken
  | runStep r outcome => exact runStep_effect tracked taken
  | close =>
    obtain rfl := Option.some.inj taken
    exact close_effect tracked
  | dropDispatcher =>
    unfold step at taken
    dsimp only at taken
    split at taken
    · obtain rfl := Option.some.inj taken
      exact .congr tracked rfl rfl rfl
    · cases taken

end Queue

end Dinkster.JobQueue
