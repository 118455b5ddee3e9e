import Dinkster.Memory.Governor

/-! The ledger of the memory governor. What a step can do is said once, for a governor whose lock
is free between steps; the sums, the single subtraction of each grant and the fit at each grant
follow from it for every interleaving. -/
namespace Dinkster.Memory

def Phase.blocked : Phase → Bool
  | .acquiring _ | .reacquiring _ | .releasing _ => true
  | _ => false

def Phase.reservation : Phase → Option Reservation
  | .held r => some r
  | _ => none

def Event.configures : Event → Bool
  | .setBudget .. | .register .. | .unregister .. | .measure .. => true
  | _ => false

def Phase.away : Phase → Bool
  | .ended _ | .shedding .. => true
  | _ => false

namespace Governor

variable {g g' : Governor} {t u : TaskId} {task : Task} {event : Event}

def outstanding (g : Governor) (device : Device) : Int :=
  (g.reservations.entries.map fun e => if e.2.device = device then e.2.nbytes else 0).sum

def holding (g : Governor) (t : TaskId) : Option Reservation :=
  (g.tasks.get? t).bind fun task => task.phase.reservation

structure Calm (g : Governor) : Prop where
  free : g.locked = false
  ready : ∀ t task, g.tasks.get? t = some task → task.phase.blocked = false
  sized : ∀ t task, g.tasks.get? t = some task → 0 ≤ task.nbytes

/-- The effect of a step; tasks that wait elsewhere stay in the condition's queue. -/
inductive Change (g : Governor) (event : Event) : Governor → Prop
  | same : Change g event g
  | configured (budgets : Dict Device Int) (shedders : List RegisteredShedder)
      (holds : Nat → Device → Int) (order : Nat) (outside : event.configures = true) :
      Change g event { g with budgets, shedders, holds, order }
  | moved (t : TaskId) (task : Task) (waiters : List TaskId) (away : task.phase.away = true)
      (sized : 0 ≤ task.nbytes) (idle : g.holding t = none)
      (kept : ∀ u ∈ g.waiters, u ≠ t → u ∈ waiters) :
      Change g event (putTask { g with waiters } t task)
  | left (t : TaskId) (task : Task) (waiters : List TaskId) (away : task.phase.away = true)
      (sized : 0 ≤ task.nbytes) (idle : g.holding t = none)
      (kept : ∀ u ∈ g.waiters, u ≠ t → u ∈ waiters) :
      Change g event (notify (putTask { g with waiters } t task) 1)
  | recorded (t : TaskId) (task : Task) (waiters : List TaskId) (sized : 0 ≤ task.nbytes)
      (idle : g.holding t = none) (kept : ∀ u ∈ g.waiters, u ≠ t → u ∈ waiters)
      (fits : ∀ b, g.budgets.get? task.device = some b → g.fits task.device task.nbytes b = true) :
      Change g event (record { g with waiters } t task)
  | waits (t : TaskId) (task : Task) (waiters : List TaskId) (sized : 0 ≤ task.nbytes)
      (idle : g.holding t = none) (kept : ∀ u ∈ g.waiters, u ≠ t → u ∈ waiters)
      (budget : Int) (declared : g.budgets.get? task.device = some budget)
      (full : g.fits task.device task.nbytes budget = false) :
      Change g event { putTask { g with waiters } t { task with phase := .waiting false } with
        waiters := waiters ++ [t] }
  | released (t : TaskId) (task : Task) (r : Reservation)
      (held : g.tasks.get? t = some task) (phase : task.phase = .held r) :
      Change g event (g.subtract t task r)

theorem verdict_grant {device : Device} {nbytes live budget : Int} {shedAttempted : Bool}
    (granted : g.verdict device nbytes shedAttempted live = .grant)
    (declared : g.budgets.get? device = some budget) : g.fits device nbytes budget = true := by
  unfold verdict at granted
  rw [declared] at granted
  dsimp only at granted
  split at granted
  · cases granted
  split at granted
  · split at granted <;> cases granted
  split at granted
  · assumption
  · split at granted <;> cases granted

theorem verdict_wait {device : Device} {nbytes live : Int} {shedAttempted : Bool}
    (waits : g.verdict device nbytes shedAttempted live = .wait) :
    ∃ budget, g.budgets.get? device = some budget ∧ g.fits device nbytes budget = false := by
  unfold verdict at waits
  split at waits
  · split at waits <;> cases waits
  rename_i budget declared
  split at waits
  · cases waits
  split at waits
  · split at waits <;> cases waits
  split at waits
  · cases waits
  · rename_i full
    exact ⟨budget,declared,Bool.eq_false_iff.mpr full⟩

theorem attempt_change (event : Event) (calm : Calm g) {waiters : List TaskId} (sized : 0 ≤ task.nbytes)
    (idle : g.holding t = none) (kept : ∀ u ∈ g.waiters, u ≠ t → u ∈ waiters)
    (shedAttempted late : Bool) :
    Change g event (attempt { g with waiters } t task shedAttempted late) := by
  obtain ⟨budgets,totals,reservations,shedders,holds,locked,queue,ids,order,tasks,granted,
    subtracted⟩ := g
  obtain rfl : locked = false := calm.free
  unfold attempt withLock
  rw [if_neg (by simp)]
  have round (task : Task) (sized : 0 ≤ task.nbytes) (again : Governor) (shedAttempted : Bool)
      (live : Int) (goes : Change ⟨budgets,totals,reservations,shedders,holds,false,queue,ids,order,
        tasks,granted,subtracted⟩ event { again with locked := false }) :
      Change ⟨budgets,totals,reservations,shedders,holds,false,queue,ids,order,tasks,granted,
          subtracted⟩ event
        { follow ⟨budgets,totals,reservations,shedders,holds,true,waiters,ids,order,tasks,granted,
            subtracted⟩ t task late again
          (verdict ⟨budgets,totals,reservations,shedders,holds,true,waiters,ids,order,tasks,granted,
            subtracted⟩ task.device task.nbytes shedAttempted live) with locked := false } := by
    cases decision : verdict ⟨budgets,totals,reservations,shedders,holds,true,waiters,ids,order,
      tasks,granted,subtracted⟩ task.device task.nbytes shedAttempted live with
    | exceeded => exact .moved t _ waiters rfl sized idle kept
    | hopeless => exact .moved t _ waiters rfl sized idle kept
    | grant => exact .recorded t task waiters sized idle kept fun b => verdict_grant decision
    | wait =>
      cases late with
      | true => exact .moved t _ waiters rfl sized idle kept
      | false =>
        obtain ⟨budget,declared,full⟩ := verdict_wait decision
        exact .waits t task waiters sized idle kept budget declared full
    | shed shortfall pressure =>
      cases late with
      | false => exact .moved t _ waiters rfl sized idle kept
      | true =>
        cases pressure with
        | true => exact .moved t _ waiters rfl sized idle kept
        | false => exact goes
  refine round task sized _ shedAttempted task.liveShortfall ?_
  refine round { task with liveShortfall := 0 } sized _ shedAttempted 0 ?_
  exact .moved t _ waiters rfl sized idle kept

private theorem unlocked (free : g.locked = false) : { g with locked := false } = g := by
  cases g
  cases free
  rfl

private theorem attempt_locked (free : g.locked = false) (shedAttempted late : Bool) :
    (g.attempt t task shedAttempted late).locked = false := by
  unfold attempt withLock
  rw [free,if_neg (by simp)]

private theorem idle_of (held : g.tasks.get? t = some task)
    (elsewhere : ∀ r, task.phase ≠ .held r) : g.holding t = none := by
  unfold holding
  rw [held]
  show task.phase.reservation = none
  cases phase : task.phase with
  | held r => exact absurd phase (elsewhere r)
  | _ => rfl

theorem leave_change (calm : Calm g) (sized : 0 ≤ task.nbytes) (idle : g.holding t = none)
    (wake : Wake) (late : Bool) : Change g event (g.leave t task wake late) := by
  have kept (u : TaskId) (inside : u ∈ g.waiters) (other : u ≠ t) : u ∈ g.waiters.erase t :=
    (List.mem_erase_of_ne other).mpr inside
  have attempted := attempt_change event calm sized idle kept false late
  obtain ⟨budgets,totals,reservations,shedders,holds,locked,queue,ids,order,tasks,granted,
    subtracted⟩ := g
  obtain rfl : locked = false := calm.free
  unfold leave rewake withLock
  rw [if_neg (by simp)]
  cases wake with
  | notified =>
    refine Eq.mp (congrArg (Change _ _) (unlocked ?_).symm) attempted
    exact attempt_locked rfl false late
  | timeout => exact .left t { task with phase := .ended .timeout } _ rfl sized idle kept
  | cancelled => exact .left t { task with phase := .ended .cancelled } _ rfl sized idle kept

theorem release_eq (free : g.locked = false) (r : Reservation) :
    g.release t task r = g.subtract t task r := by
  obtain ⟨budgets,totals,reservations,shedders,holds,locked,queue,ids,order,tasks,granted,
    subtracted⟩ := g
  obtain rfl : locked = false := free
  unfold release withLock
  rw [if_neg (by simp)]
  unfold subtract
  dsimp only
  cases reservations.get? r.reservationId with
  | none => rfl
  | some old => rfl

theorem step_change (calm : Calm g) (stepped : step g event = some g') :
    Change g event g' := by
  cases event with
  | reserve t device nbytes timed late available =>
    simp only [step] at stepped
    split at stepped
    · cases stepped
    rename_i fresh
    obtain rfl := Option.some.inj stepped
    unfold reserve
    split
    · exact .same
    rename_i size
    have missing := (Dict.get?_eq_none_iff _ _).mpr fresh
    have idle : g.holding t = none := by rw [holding,missing]; rfl
    exact attempt_change _ calm (Int.not_lt.mp size) idle (fun u inside _ => inside) _ _
  | shed t outcome late =>
    obtain ⟨task,held,next⟩ := Option.bind_eq_some_iff.mp stepped
    have sized := calm.sized t task held
    unfold shedded at next
    split at next
    · rename_i shortfall pressure phase
      have idle : g.holding t = none := idle_of held fun r same => nomatch phase.symm.trans same
      have sized : 0 ≤ ({ task with liveShortfall := 0 } : Task).nbytes := sized
      have attempted := attempt_change (.shed t outcome late) calm sized idle
        (fun u inside _ => inside) pressure (late && task.timed)
      dsimp only at next
      cases outcome with
      | freed =>
        obtain rfl := Option.some.inj next
        exact attempted
      | timeout =>
        dsimp only at next
        split at next
        · cases next
        split at next
        · obtain rfl := Option.some.inj next
          exact .moved t _ g.waiters rfl sized idle fun u inside _ => inside
        · obtain rfl := Option.some.inj next
          exact attempted
      | raised =>
        dsimp only at next
        split at next
        · obtain rfl := Option.some.inj next
          exact .moved t _ g.waiters rfl sized idle fun u inside _ => inside
        · obtain rfl := Option.some.inj next
          exact attempted
    · cases next
  | resume t late =>
    obtain ⟨task,held,next⟩ := Option.bind_eq_some_iff.mp stepped
    have ready := calm.ready t task held
    unfold resume at next
    split at next
    · rename_i phase
      obtain rfl := Option.some.inj next
      have idle : g.holding t = none := idle_of held fun r same => nomatch phase.symm.trans same
      exact leave_change calm (calm.sized t task held) idle _ _
    · rename_i phase
      rw [phase] at ready
      cases ready
    · rename_i phase
      rw [phase] at ready
      cases ready
    · rename_i phase
      rw [phase] at ready
      cases ready
    · cases next
  | expire t =>
    obtain ⟨task,held,next⟩ := Option.bind_eq_some_iff.mp stepped
    split at next
    · rename_i phase
      split at next
      · obtain rfl := Option.some.inj next
        have idle : g.holding t = none := idle_of held fun r same => nomatch phase.symm.trans same
        exact leave_change calm (calm.sized t task held) idle _ _
      · cases next
    · cases next
  | cancel t =>
    obtain ⟨task,held,next⟩ := Option.bind_eq_some_iff.mp stepped
    have ready := calm.ready t task held
    have sized := calm.sized t task held
    unfold cancel at next
    split at next
    · rename_i phase
      rw [phase] at ready
      cases ready
    · rename_i phase
      obtain rfl := Option.some.inj next
      have idle : g.holding t = none := idle_of held fun r same => nomatch phase.symm.trans same
      exact .moved t _ g.waiters rfl sized idle fun u inside _ => inside
    · rename_i phase
      obtain rfl := Option.some.inj next
      have idle : g.holding t = none := idle_of held fun r same => nomatch phase.symm.trans same
      exact leave_change calm sized idle _ _
    · rename_i phase
      obtain rfl := Option.some.inj next
      exact release_eq calm.free _ ▸ .released t task _ held phase
    · rename_i phase
      rw [phase] at ready
      cases ready
    · rename_i phase
      rw [phase] at ready
      cases ready
    · cases next
  | exit t =>
    obtain ⟨task,held,next⟩ := Option.bind_eq_some_iff.mp stepped
    split at next
    · rename_i phase
      obtain rfl := Option.some.inj next
      exact release_eq calm.free _ ▸ .released t task _ held phase
    · cases next
  | setBudget device nbytes =>
    obtain rfl := Option.some.inj stepped
    unfold setBudget
    split
    · exact .same
    · exact .configured _ _ _ _ rfl
  | register shedder priority name =>
    obtain rfl := Option.some.inj stepped
    exact .configured _ _ _ _ rfl
  | unregister shedder =>
    obtain rfl := Option.some.inj stepped
    exact .configured _ _ _ _ rfl
  | measure holds =>
    obtain rfl := Option.some.inj stepped
    exact .configured _ _ _ _ rfl

theorem notify_task (n : Nat) (u : TaskId) (task : Task)
    (found : (g.notify n).tasks.get? u = some task) : ∃ before, g.tasks.get? u = some before ∧
      (task = before ∨ before.phase = .waiting false ∧ u ∈ g.waiters ∧
        task = { before with phase := .waiting true }) := by
  obtain ⟨before,held,same⟩ := Option.map_eq_some_iff.mp
    ((Dict.get?_mapWithKey _ _ _).symm.trans found)
  refine ⟨before,held,?_⟩
  split at same
  · rename_i woken
    obtain ⟨queued,quiet⟩ := List.mem_filter.mp (List.mem_of_mem_take woken)
    unfold unnotified at quiet
    rw [held] at quiet
    exact .inr ⟨of_decide_eq_true quiet,queued,same.symm⟩
  · exact .inl same.symm

theorem notify_of_task (n : Nat) (u : TaskId) (before : Task)
    (held : g.tasks.get? u = some before) : ∃ task, (g.notify n).tasks.get? u = some task ∧
      task.phase.reservation = before.phase.reservation := by
  refine ⟨_,(Dict.get?_mapWithKey _ _ _).trans (congrArg _ held),?_⟩
  dsimp only
  split
  · rename_i woken
    obtain ⟨_,quiet⟩ := List.mem_filter.mp (List.mem_of_mem_take woken)
    unfold unnotified at quiet
    rw [held] at quiet
    rw [show before.phase = .waiting false from of_decide_eq_true quiet]
    rfl
  · rfl

@[simp] theorem holding_notify (n : Nat) (u : TaskId) : (g.notify n).holding u = g.holding u := by
  unfold holding
  cases held : g.tasks.get? u with
  | none =>
    rw [show (g.notify n).tasks.get? u = none from
      (Dict.get?_mapWithKey _ _ _).trans (congrArg _ held)]
  | some before =>
    obtain ⟨task,found,same⟩ := notify_of_task n u before held
    rw [found]
    exact same

theorem holding_putTask (u : TaskId) :
    (g.putTask t task).holding u = if u = t then task.phase.reservation else g.holding u := by
  unfold holding putTask
  rw [Dict.get?_set]
  split <;> rfl

private theorem reservation_of_away {phase : Phase} (away : phase.away = true) :
    phase.reservation = none := by
  cases phase <;> first | rfl | cases away

private theorem ready_of_away {phase : Phase} (away : phase.away = true) :
    phase.blocked = false := by
  cases phase <;> first | rfl | cases away

private theorem calm_putTask (calm : Calm g) (waiters : List TaskId)
    (ready : task.phase.blocked = false) (sized : 0 ≤ task.nbytes) :
    Calm (putTask { g with waiters } t task) where
  free := calm.free
  ready := by
    intro u other found
    rw [putTask,Dict.get?_set] at found
    split at found
    · obtain rfl := Option.some.inj found
      exact ready
    · exact calm.ready u other found
  sized := by
    intro u other found
    rw [putTask,Dict.get?_set] at found
    split at found
    · obtain rfl := Option.some.inj found
      exact sized
    · exact calm.sized u other found

private theorem calm_notify (calm : Calm g) (n : Nat) : Calm (g.notify n) where
  free := calm.free
  ready := by
    intro u task found
    obtain ⟨before,held,same⟩ := notify_task n u task found
    rcases same with rfl | ⟨_,_,rfl⟩
    · exact calm.ready u _ held
    · rfl
  sized := by
    intro u task found
    obtain ⟨before,held,same⟩ := notify_task n u task found
    rcases same with rfl | ⟨_,_,rfl⟩
    · exact calm.sized u _ held
    · exact calm.sized u before held

private theorem calm_of_tasks (calm : Calm g) (free : g'.locked = g.locked)
    (tasks : g'.tasks = g.tasks) : Calm g' :=
  ⟨free.trans calm.free,tasks ▸ calm.ready,tasks ▸ calm.sized⟩

theorem change_calm (calm : Calm g) (change : Change g event g') : Calm g' := by
  cases change with
  | same => exact calm
  | configured => exact calm_of_tasks calm rfl rfl
  | moved t task waiters away sized => exact calm_putTask calm waiters (ready_of_away away) sized
  | left t task waiters away sized =>
    exact calm_notify (calm_putTask calm waiters (ready_of_away away) sized) 1
  | recorded t task waiters sized =>
    have moved : Calm (putTask { g with waiters } t
        { task with phase := .held ⟨g.ids,task.device,task.nbytes⟩ }) :=
      calm_putTask calm waiters rfl sized
    exact calm_of_tasks moved rfl rfl
  | waits t task waiters sized =>
    have moved : Calm (putTask { g with waiters } t { task with phase := .waiting false }) :=
      calm_putTask calm waiters rfl sized
    exact calm_of_tasks moved rfl rfl
  | released t task r held phase =>
    have sized := calm.sized t task held
    have moved : Calm (putTask g t { task with phase := .ended .released }) :=
      calm_putTask calm g.waiters rfl sized
    unfold subtract
    split
    · exact moved
    · refine calm_notify ?_ _
      exact calm_of_tasks moved rfl rfl

/-- The recorded reservations are those that tasks hold, one task each; the totals are their sums;
and what was granted is held or has been subtracted once. -/
structure Ledger (g : Governor) : Prop where
  sums : ∀ d, g.reserved d = g.outstanding d
  entries : ∀ i r, g.reservations.get? i = some r →
    r.reservationId = i ∧ 0 ≤ r.nbytes ∧ ∃ t, g.holding t = some r
  recorded : ∀ t r, g.holding t = some r → g.reservations.get? r.reservationId = some r
  single : ∀ t u r, g.holding t = some r → g.holding u = some r → t = u
  older : ∀ r ∈ g.granted, r.reservationId < g.ids
  history : ∀ r, r ∈ g.granted ↔ (∃ t, g.holding t = some r) ∨ r ∈ g.subtracted
  once : g.subtracted.Nodup
  gone : ∀ r ∈ g.subtracted, g.reservations.get? r.reservationId = none

theorem Ledger.id_lt (ledger : Ledger g) {r : Reservation} (held : g.holding t = some r) :
    r.reservationId < g.ids :=
  ledger.older r ((ledger.history r).mpr (.inl ⟨t,held⟩))

theorem outstanding_nonneg (ledger : Ledger g) (d : Device) : 0 ≤ g.outstanding d := by
  unfold outstanding
  refine List.sum_nonneg fun n inside => ?_
  obtain ⟨e,listed,rfl⟩ := List.mem_map.mp inside
  split
  · exact (ledger.entries e.1 e.2 ((Dict.get?_eq_some_iff _ _ _).mpr listed)).2.1
  · exact Int.le_refl 0

private theorem ledger_of_same (ledger : Ledger g) (totals : g'.totals = g.totals)
    (reservations : g'.reservations = g.reservations) (ids : g'.ids = g.ids)
    (granted : g'.granted = g.granted) (subtracted : g'.subtracted = g.subtracted)
    (holding : ∀ t, g'.holding t = g.holding t) : Ledger g' := by
  refine ⟨fun d => ?_,fun i r found => ?_,fun t r held => ?_,fun t u r held held' => ?_,
    fun r inside => ?_,fun r => ?_,subtracted ▸ ledger.once,fun r inside => ?_⟩
  · unfold reserved outstanding
    rw [totals,reservations]
    exact ledger.sums d
  · obtain ⟨named,size,t,held⟩ := ledger.entries i r (reservations ▸ found)
    exact ⟨named,size,t,(holding t).trans held⟩
  · rw [reservations]
    exact ledger.recorded t r ((holding t).symm.trans held)
  · exact ledger.single t u r ((holding t).symm.trans held) ((holding u).symm.trans held')
  · rw [ids]
    exact ledger.older r (granted ▸ inside)
  · rw [granted,subtracted,ledger.history]
    simp only [holding]
  · rw [reservations]
    exact ledger.gone r (subtracted ▸ inside)

private theorem ledger_record (ledger : Ledger g) (waiters : List TaskId)
    (sized : 0 ≤ task.nbytes) (idle : g.holding t = none) :
    Ledger (record { g with waiters } t task) := by
  have missing : g.reservations.get? g.ids = none := by
    rw [Option.eq_none_iff_forall_ne_some]
    intro r found
    obtain ⟨named,_,u,held⟩ := ledger.entries g.ids r found
    have := ledger.id_lt held
    omega
  have holding (u : TaskId) : (record { g with waiters } t task).holding u =
      if u = t then some ⟨g.ids,task.device,task.nbytes⟩ else g.holding u := holding_putTask u
  have unused : ∀ r ∈ g.granted, r ≠ ⟨g.ids,task.device,task.nbytes⟩ := by
    rintro r inside rfl
    exact Nat.lt_irrefl _ (ledger.older _ inside)
  refine ⟨fun d => ?_,fun i r found => ?_,fun u r held => ?_,fun u v r held held' => ?_,
    fun r inside => ?_,fun r => ?_,ledger.once,fun r inside => ?_⟩
  · show ((g.totals.set task.device _).get? d).getD 0 = (List.map _ (Dict.set _ _ _).entries).sum
    rw [Dict.entries_set_fresh _ ((Dict.get?_eq_none_iff _ _).mp missing),List.map_append,
      List.sum_append,Dict.get?_set]
    have before := ledger.sums d
    unfold reserved outstanding at before
    rw [← before]
    by_cases same : d = task.device
    · subst same
      simp [reserved]
    · simp [same,Ne.symm same]
  · have found := (Dict.get?_set _ _ _ _).symm.trans found
    split at found
    · rename_i same
      obtain rfl := Option.some.inj found
      exact ⟨same.symm,sized,t,by rw [holding,if_pos rfl]⟩
    · obtain ⟨named,size,u,held⟩ := ledger.entries i r found
      refine ⟨named,size,u,?_⟩
      rw [holding,if_neg ?_]
      · exact held
      · rintro rfl
        rw [idle] at held
        cases held
  · rw [holding] at held
    show Dict.get? (Dict.set _ _ _) _ = _
    rw [Dict.get?_set]
    split at held
    · obtain rfl := Option.some.inj held
      exact if_pos rfl
    · rw [if_neg (Nat.ne_of_lt (ledger.id_lt held))]
      exact ledger.recorded u r held
  · rw [holding] at held held'
    split at held
    · rename_i here
      split at held'
      · rename_i here'
        exact here.trans here'.symm
      · obtain rfl := Option.some.inj held
        exact absurd rfl (unused _ ((ledger.history _).mpr (.inl ⟨v,held'⟩)))
    · split at held'
      · obtain rfl := Option.some.inj held'
        exact absurd rfl (unused _ ((ledger.history _).mpr (.inl ⟨u,held⟩)))
      · exact ledger.single u v r held held'
  · rcases List.mem_append.mp inside with old | new
    · exact Nat.lt_succ_of_lt (ledger.older r old)
    · rw [List.mem_singleton.mp new]
      exact Nat.lt_succ_self _
  · show r ∈ g.granted ++ [_] ↔ (∃ u, _) ∨ r ∈ g.subtracted
    rw [List.mem_append,List.mem_singleton,ledger.history]
    constructor
    · rintro ((⟨u,held⟩ | past) | rfl)
      · refine .inl ⟨u,?_⟩
        rw [holding,if_neg ?_]
        · exact held
        · rintro rfl
          rw [idle] at held
          cases held
      · exact .inr past
      · exact .inl ⟨t,by rw [holding,if_pos rfl]⟩
    · rintro (⟨u,held⟩ | past)
      · rw [holding] at held
        split at held
        · exact .inr (Option.some.inj held).symm
        · exact .inl (.inl ⟨u,held⟩)
      · exact .inl (.inr past)
  · refine (Dict.get?_set_ne _ _ ?_).trans (ledger.gone r inside)
    exact Nat.ne_of_lt (ledger.older r ((ledger.history r).mpr (.inr inside)))

private theorem ledger_subtract (ledger : Ledger g) {r : Reservation}
    (held : g.tasks.get? t = some task) (phase : task.phase = .held r) :
    Ledger (g.subtract t task r) := by
  have mine : g.holding t = some r := by
    unfold holding
    rw [held]
    show task.phase.reservation = some r
    rw [phase]
    rfl
  have found := ledger.recorded t r mine
  unfold subtract
  rw [found]
  have holding (u : TaskId) : (notifyAll { g.finish t task .released with
      reservations := g.reservations.erase r.reservationId
      totals := g.totals.set r.device (g.reserved r.device - r.nbytes)
      subtracted := g.subtracted ++ [r] }).holding u = if u = t then none else g.holding u := by
    refine (holding_notify _ u).trans ?_
    exact holding_putTask u
  have notHeld (u : TaskId) (other : Reservation) (theirs : (if u = t then none else g.holding u) =
      some other) : u ≠ t ∧ g.holding u = some other ∧ other.reservationId ≠ r.reservationId := by
    split at theirs
    · cases theirs
    · rename_i elsewhere
      refine ⟨elsewhere,theirs,fun same => elsewhere ?_⟩
      have listed := ledger.recorded u other theirs
      rw [same,found] at listed
      exact ledger.single u t r (Option.some.inj listed ▸ theirs) mine
  refine ⟨fun d => ?_,fun i other listed => ?_,fun u other theirs => ?_,
    fun u v other theirs theirs' => ?_,ledger.older,fun other => ?_,?_,fun other inside => ?_⟩
  · show ((g.totals.set r.device _).get? d).getD 0 =
      (List.map _ (g.reservations.erase r.reservationId).entries).sum
    have before := ledger.sums d
    unfold reserved outstanding at before
    rw [((Dict.entries_perm_erase found).map _).sum_eq,List.map_cons,List.sum_cons] at before
    rw [Dict.get?_set]
    by_cases same : d = r.device
    · subst same
      simp only [if_true,Option.getD_some] at before ⊢
      unfold reserved
      omega
    · simp only [if_neg same,if_neg (Ne.symm same)] at before ⊢
      omega
  · have listed := (Dict.get?_erase _ _ _).symm.trans listed
    split at listed
    · cases listed
    · rename_i other'
      obtain ⟨named,size,u,theirs⟩ := ledger.entries i other listed
      refine ⟨named,size,u,?_⟩
      rw [holding,if_neg ?_]
      · exact theirs
      · rintro rfl
        rw [mine] at theirs
        obtain rfl := Option.some.inj theirs
        exact other' named.symm
  · rw [holding] at theirs
    obtain ⟨_,theirs,different⟩ := notHeld u other theirs
    refine (Dict.get?_erase _ _ _).trans ?_
    rw [if_neg different]
    exact ledger.recorded u other theirs
  · rw [holding] at theirs theirs'
    exact ledger.single u v other (notHeld u other theirs).2.1 (notHeld v other theirs').2.1
  · show other ∈ g.granted ↔ (∃ u, _) ∨ other ∈ g.subtracted ++ [r]
    rw [List.mem_append,List.mem_singleton,ledger.history]
    constructor
    · rintro (⟨u,theirs⟩ | past)
      · by_cases same : u = t
        · subst same
          rw [mine] at theirs
          exact .inr (.inr (Option.some.inj theirs).symm)
        · exact .inl ⟨u,by rw [holding,if_neg same]; exact theirs⟩
      · exact .inr (.inl past)
    · rintro (⟨u,theirs⟩ | past | rfl)
      · rw [holding] at theirs
        exact .inl ⟨u,(notHeld u other theirs).2.1⟩
      · exact .inr past
      · exact .inl ⟨t,mine⟩
  · refine List.nodup_append.mpr ⟨ledger.once,by simp,?_⟩
    rintro past inside _ new rfl
    obtain rfl : past = r := by simpa using new
    have missing := ledger.gone past inside
    rw [found] at missing
    cases missing
  · refine (Dict.get?_erase _ _ _).trans ?_
    rcases List.mem_append.mp inside with past | new
    · split
      · rfl
      · exact ledger.gone other past
    · rw [List.mem_singleton.mp new]
      exact if_pos rfl

private theorem holding_away (away : task.phase.away = true) (idle : g.holding t = none)
    (waiters : List TaskId) (u : TaskId) :
    (putTask { g with waiters } t task).holding u = g.holding u := by
  rw [holding_putTask,reservation_of_away away]
  split
  · rename_i same
    rw [same,idle]
  · rfl

theorem change_ledger (ledger : Ledger g) (change : Change g event g') : Ledger g' := by
  cases change with
  | same => exact ledger
  | configured => exact ledger_of_same ledger rfl rfl rfl rfl rfl fun _ => rfl
  | moved t task waiters away sized idle =>
    exact ledger_of_same ledger rfl rfl rfl rfl rfl (holding_away away idle waiters)
  | left t task waiters away sized idle =>
    refine ledger_of_same ledger rfl rfl rfl rfl rfl fun u => ?_
    exact (holding_notify 1 u).trans (holding_away away idle waiters u)
  | recorded t task waiters sized idle => exact ledger_record ledger waiters sized idle
  | waits t task waiters sized idle =>
    refine ledger_of_same ledger rfl rfl rfl rfl rfl fun u => ?_
    refine (holding_putTask u).trans ?_
    split
    · rename_i same
      rw [same,idle]
      rfl
    · rfl
  | released t task r held phase => exact ledger_subtract ledger held phase

/-- Budgets declared, nothing reserved. -/
def start (budgets : Dict Device Int) : Governor := { budgets }

theorem start_ledger (budgets : Dict Device Int) : Calm (start budgets) ∧ Ledger (start budgets) := by
  constructor
  · refine ⟨rfl,?_,?_⟩
    · intro t task found
      cases found
    · intro t task found
      cases found
  · have idle (t : TaskId) (r : Reservation) : (start budgets).holding t ≠ some r := by
      intro held
      cases held
    refine ⟨fun d => rfl,?_,fun t r held => absurd held (idle t r),
      fun t u r held => absurd held (idle t r),List.forall_mem_nil _,fun r => ?_,List.nodup_nil,
      List.forall_mem_nil _⟩
    · intro i r found
      cases found
    constructor
    · intro inside
      exact absurd inside List.not_mem_nil
    · rintro (⟨t,held⟩ | inside)
      · cases held
      · cases inside

theorem reachable_ledger {budgets : Dict Device Int}
    (reached : Transition.Reachable step (start budgets) g) : Calm g ∧ Ledger g :=
  reached.invariant (fun g => Calm g ∧ Ledger g) (start_ledger budgets)
    fun _ _ _ held _ stepped =>
      have change := step_change held.1 stepped
      ⟨change_calm held.1 change,change_ledger held.2 change⟩

theorem grant_fits (change : Change g event g') {r : Reservation}
    (granted : r ∈ g'.granted) (new : r ∉ g.granted) {budget : Int}
    (declared : g'.budgets.get? r.device = some budget) :
    g'.reserved r.device + g'.footprint r.device ≤ budget := by
  cases change with
  | same => exact absurd granted new
  | configured => exact absurd granted new
  | moved => exact absurd granted new
  | left => exact absurd granted new
  | recorded t task waiters sized idle kept fits =>
    have last := (List.mem_append.mp granted).resolve_left new
    obtain rfl := List.mem_singleton.mp last
    have within := of_decide_eq_true (fits budget declared)
    show ((g.totals.set task.device _).get? task.device).getD 0 + g.footprint task.device ≤ budget
    rw [Dict.get?_set_self,Option.getD_some]
    show g.reserved task.device + task.nbytes + g.footprint task.device ≤ budget
    omega
  | waits => exact absurd granted new
  | released t task r' held phase =>
    unfold subtract at granted
    split at granted
    · exact absurd granted new
    · exact absurd granted new

theorem ends_subtract (calm : Calm g) {r : Reservation} (held : g.holding t = some r)
    (ends : event = .exit t ∨ event = .cancel t) : ∃ task, g.tasks.get? t = some task ∧
      task.phase = .held r ∧ step g event = some (g.subtract t task r) := by
  obtain ⟨task,found,same⟩ := Option.bind_eq_some_iff.mp held
  have phase : task.phase = .held r := by
    cases phase : task.phase with
    | held r' =>
      rw [phase] at same
      rw [Option.some.inj same]
    | _ =>
      rw [phase] at same
      cases same
  refine ⟨task,found,phase,?_⟩
  rw [← release_eq calm.free]
  rcases ends with rfl | rfl
  · simp [step,found,phase]
  · simp [step,found,cancel,phase]

theorem governor_ledger (budgets : Dict Device Int) (g : Governor)
    (reached : Transition.Reachable step (start budgets) g) :
    (∀ d, g.reserved d = g.outstanding d ∧ 0 ≤ g.reserved d) ∧
      (∀ i r, g.reservations.get? i = some r ↔ r.reservationId = i ∧ ∃ t, g.holding t = some r) ∧
      (∀ r ∈ g.granted, (∃ t, g.holding t = some r ∧ ∀ u, g.holding u = some r → u = t) ∧
          g.subtracted.count r = 0 ∨
        (∀ t, g.holding t ≠ some r) ∧ g.subtracted.count r = 1) ∧
      (∀ t r event, g.holding t = some r → event = .exit t ∨ event = .cancel t →
        ∃ g', step g event = some g' ∧ g'.subtracted = g.subtracted ++ [r]) ∧
      (∀ event g', step g event = some g' → ∀ r ∈ g'.granted, r ∉ g.granted →
        ∀ budget, g'.budgets.get? r.device = some budget →
          g'.reserved r.device + g'.footprint r.device ≤ budget) := by
  obtain ⟨calm,ledger⟩ := reachable_ledger reached
  refine ⟨fun d => ⟨ledger.sums d,?_⟩,fun i r => ?_,fun r granted => ?_,?_,?_⟩
  · rw [ledger.sums d]
    exact outstanding_nonneg ledger d
  · constructor
    · intro found
      obtain ⟨named,_,held⟩ := ledger.entries i r found
      exact ⟨named,held⟩
    · rintro ⟨rfl,t,held⟩
      exact ledger.recorded t r held
  · have notBoth (t : TaskId) (held : g.holding t = some r) : r ∉ g.subtracted := by
      intro past
      have missing := ledger.gone r past
      rw [ledger.recorded t r held] at missing
      cases missing
    rcases (ledger.history r).mp granted with ⟨t,held⟩ | past
    · refine .inl ⟨⟨t,held,fun u other => ledger.single u t r other held⟩,?_⟩
      exact List.count_eq_zero.mpr (notBoth t held)
    · refine .inr ⟨fun t held => notBoth t held past,?_⟩
      exact List.count_eq_one_of_mem ledger.once past
  · intro t r event held ends
    obtain ⟨task,_,_,stepped⟩ := ends_subtract calm held ends
    refine ⟨_,stepped,?_⟩
    unfold subtract
    rw [ledger.recorded t r held]
    rfl
  · intro event g' stepped r granted new budget declared
    exact grant_fits (step_change calm stepped) granted new declared

/-- Two requests for eight bytes under a budget of ten: one held, one waiting. -/
def contended : Governor :=
  Transition.offer step (start (Dict.empty.set "ram" 10))
    [.reserve 0 "ram" 8 false false none,.reserve 1 "ram" 8 false false none,.shed 1 .freed false]

theorem governor_ledger_contended : contended.reserved "ram" = contended.outstanding "ram" ∧
    contended.granted = [⟨1,"ram",8⟩] ∧ ∀ r ∈ contended.granted,
      (∃ t, contended.holding t = some r ∧ ∀ u, contended.holding u = some r → u = t) ∧
          contended.subtracted.count r = 0 ∨
        (∀ t, contended.holding t ≠ some r) ∧ contended.subtracted.count r = 1 := by
  have all := governor_ledger (Dict.empty.set "ram" 10) contended (Transition.reachable_offer _)
  exact ⟨(all.1 "ram").1,rfl,all.2.2.1⟩

end Governor

end Dinkster.Memory
