import Dinkster.Memory.Ledger

/-! Waiting reservations. Only `_release` notifies the condition, and it notifies every waiter; a
budget, a consumer or what a consumer holds can change without a notification. -/
namespace Dinkster.Memory.Governor

variable {g g' : Governor} {event : Event}

/-- A task waits on the condition and no notification is on its way to it. -/
def Waits (g : Governor) (t : TaskId) (task : Task) : Prop :=
  g.tasks.get? t = some task ∧ task.phase = .waiting false

/-- No step is in progress: every task waits, holds its reservation or has ended. -/
def Quiet (g : Governor) : Prop :=
  ∀ t task, g.tasks.get? t = some task → task.phase = .waiting false ∨
    (∃ r, task.phase = .held r) ∨ ∃ ending, task.phase = .ended ending

/-- The request of no waiting reservation fits the budget of its class. -/
def NoneFits (g : Governor) : Prop :=
  ∀ t task, g.Waits t task → ∀ budget, g.budgets.get? task.device = some budget →
    g.fits task.device task.nbytes budget = false

def Full (g : Governor) (footprint : Device → Int) : Prop :=
  ∀ t task budget, g.Waits t task → g.budgets.get? task.device = some budget →
    budget < g.reserved task.device + footprint task.device + task.nbytes

/-- A change from the outside makes no room for a request that waits. -/
def Roomless (g : Governor) : Event → Prop
  | .setBudget device nbytes => 0 ≤ nbytes → ∀ t task, g.Waits t task → task.device = device →
      nbytes < g.reserved device + g.footprint device + task.nbytes
  | .register shedder _ _ => g.Full fun device => g.footprint device + g.holds shedder device
  | .unregister shedder => g.Full fun device =>
      ((g.shedders.filter fun r => decide (r.shedder ≠ shedder)).map fun r =>
        g.holds r.shedder device).sum
  | .measure holds => g.Full fun device => (g.shedders.map fun r => holds r.shedder device).sum
  | _ => True

def Queued (g : Governor) : Prop := ∀ t task, g.Waits t task → t ∈ g.waiters

structure Crowded (g : Governor) : Prop where
  declared : ∀ t task, g.Waits t task → ∃ budget, g.budgets.get? task.device = some budget
  full : g.Full g.footprint

theorem noneFits_iff : g.NoneFits ↔ g.Full g.footprint := by
  constructor
  · intro none t task budget waits declared
    have out := of_decide_eq_false (none t task waits budget declared)
    omega
  · intro full t task waits budget declared
    have out := full t task budget waits declared
    exact decide_eq_false (by omega)

theorem registered_footprint (shedder : Nat) (priority : Int) (name : String) (device : Device) :
    (g.registerShedder shedder priority name).footprint device =
      g.footprint device + g.holds shedder device := by
  unfold footprint registerShedder
  dsimp only
  rw [((List.mergeSort_perm _ _).map _).sum_eq,List.map_append,List.sum_append]
  simp

private theorem crowded_of_full (crowded : Crowded g) (tasks : g'.tasks = g.tasks)
    (budgets : g'.budgets = g.budgets) (full : g'.Full g'.footprint) : Crowded g' where
  declared := by
    intro t task waits
    rw [budgets]
    exact crowded.declared t task (by unfold Waits at waits ⊢; rwa [tasks] at waits)
  full := full

theorem configured_crowded (crowded : Crowded g) (outside : event.configures = true)
    (stepped : step g event = some g') :
    (g'.NoneFits ↔ g.Roomless event) ∧ (g.Roomless event → Crowded g') := by
  cases event with
  | setBudget device nbytes =>
    obtain rfl := Option.some.inj stepped
    unfold setBudget
    split
    · rename_i negative
      have vacuous : g.Roomless (.setBudget device nbytes) := fun size => by omega
      exact ⟨iff_of_true (noneFits_iff.mpr crowded.full) vacuous,fun _ => crowded⟩
    rename_i size
    have after : Full { g with budgets := g.budgets.set device nbytes } g.footprint ↔
        g.Roomless (.setBudget device nbytes) := by
      constructor
      · rintro full _ t task waits rfl
        exact full t task nbytes waits (Dict.get?_set_self _ _ _)
      · intro room t task budget waits declared
        rw [Dict.get?_set] at declared
        split at declared
        · rename_i same
          rw [← Option.some.inj declared,same]
          exact room (Int.not_lt.mp size) t task waits same
        · exact crowded.full t task budget waits declared
    refine ⟨noneFits_iff.trans after,fun room => ⟨fun t task waits => ?_,after.mpr room⟩⟩
    rw [Dict.get?_set]
    split
    · exact ⟨_,rfl⟩
    · exact crowded.declared t task waits
  | register shedder priority name =>
    obtain rfl := Option.some.inj stepped
    have after : Full (g.registerShedder shedder priority name)
        (g.registerShedder shedder priority name).footprint ↔
          g.Roomless (.register shedder priority name) := by
      rw [show (g.registerShedder shedder priority name).footprint =
        fun device => g.footprint device + g.holds shedder device from
          funext (registered_footprint shedder priority name)]
      rfl
    exact ⟨noneFits_iff.trans after,fun room => crowded_of_full crowded rfl rfl (after.mpr room)⟩
  | unregister shedder =>
    obtain rfl := Option.some.inj stepped
    exact ⟨noneFits_iff,fun room => crowded_of_full crowded rfl rfl room⟩
  | measure holds =>
    obtain rfl := Option.some.inj stepped
    exact ⟨noneFits_iff,fun room => crowded_of_full crowded rfl rfl room⟩
  | _ => cases outside

theorem waits_putTask {t u : TaskId} {task other : Task} :
    (g.putTask t task).Waits u other ↔
      if u = t then task = other ∧ task.phase = .waiting false else g.Waits u other := by
  unfold Waits putTask
  rw [Dict.get?_set]
  split
  · constructor
    · rintro ⟨same,phase⟩
      obtain rfl := Option.some.inj same
      exact ⟨rfl,phase⟩
    · rintro ⟨rfl,phase⟩
      exact ⟨rfl,phase⟩
  · exact Iff.rfl

theorem waits_of_notify {n : Nat} {u : TaskId} {task : Task} (waits : (g.notify n).Waits u task) :
    g.Waits u task := by
  obtain ⟨found,phase⟩ := waits
  obtain ⟨before,held,same⟩ := notify_task n u task found
  rcases same with rfl | ⟨_,_,rfl⟩
  · exact ⟨held,phase⟩
  · cases phase

theorem notifyAll_waits {u : TaskId} {task : Task} (waits : g.notifyAll.Waits u task) :
    u ∉ g.waiters := by
  intro queued
  have before := waits_of_notify waits
  have woken : u ∈ (g.waiters.filter fun t => g.unnotified t).take g.waiters.length := by
    rw [List.take_of_length_le (List.length_filter_le _ _)]
    refine List.mem_filter.mpr ⟨queued,?_⟩
    unfold unnotified
    rw [before.1]
    exact decide_eq_true before.2
  have found := (Dict.get?_mapWithKey _ _ _).symm.trans waits.1
  rw [before.1] at found
  have same := Option.some.inj found
  dsimp only at same
  rw [if_pos woken] at same
  rw [← same] at waits
  cases waits.2

private theorem away_not_waiting {phase : Phase} (away : phase.away = true) :
    phase ≠ .waiting false := by
  rintro rfl
  cases away

private theorem waits_elsewhere {t u : TaskId} {task other : Task} {waiters : List TaskId}
    (elsewhere : task.phase ≠ .waiting false)
    (waits : (putTask { g with waiters } t task).Waits u other) : u ≠ t ∧ g.Waits u other := by
  have waits := waits_putTask.mp waits
  split at waits
  · exact absurd waits.2 elsewhere
  · rename_i different
    exact ⟨different,waits⟩

private theorem waits_here {t u : TaskId} {task other : Task} {waiters : List TaskId}
    (waits : (putTask { g with waiters } t { task with phase := .waiting false }).Waits u other) :
    u = t ∧ other = { task with phase := .waiting false } ∨ u ≠ t ∧ g.Waits u other := by
  have waits := waits_putTask.mp waits
  split at waits
  · rename_i same
    exact .inl ⟨same,waits.1.symm⟩
  · rename_i different
    exact .inr ⟨different,waits⟩

private theorem crowded_put (crowded : Crowded g) {t : TaskId} {task : Task}
    {waiters : List TaskId} (elsewhere : task.phase ≠ .waiting false) :
    Crowded (putTask { g with waiters } t task) where
  declared := fun u other waits => crowded.declared u other (waits_elsewhere elsewhere waits).2
  full := fun u other budget waits =>
    crowded.full u other budget (waits_elsewhere elsewhere waits).2

private theorem crowded_notify (crowded : Crowded g) (n : Nat) : Crowded (g.notify n) where
  declared := fun u task waits => crowded.declared u task (waits_of_notify waits)
  full := fun u task budget waits => crowded.full u task budget (waits_of_notify waits)

private theorem crowded_record (crowded : Crowded g) {t : TaskId} {task : Task}
    {waiters : List TaskId} (sized : 0 ≤ task.nbytes) :
    Crowded (record { g with waiters } t task) := by
  have moved : Crowded (putTask { g with waiters } t
      { task with phase := .held ⟨g.ids,task.device,task.nbytes⟩ }) := crowded_put crowded nofun
  refine ⟨moved.declared,fun u other budget waits declared => ?_⟩
  have out : budget < g.reserved other.device + g.footprint other.device + other.nbytes :=
    moved.full u other budget waits declared
  show budget < ((g.totals.set task.device _).get? other.device).getD 0 +
    g.footprint other.device + other.nbytes
  rw [Dict.get?_set]
  split
  · rename_i same
    rw [Option.getD_some]
    show budget < g.reserved task.device + task.nbytes + g.footprint other.device + other.nbytes
    rw [← same]
    omega
  · exact out

private theorem crowded_wait (crowded : Crowded g) {t : TaskId} {task : Task}
    {waiters queue : List TaskId} {budget : Int}
    (declared : g.budgets.get? task.device = some budget)
    (full : g.fits task.device task.nbytes budget = false) :
    Crowded { putTask { g with waiters } t { task with phase := .waiting false } with
      waiters := queue } := by
  refine ⟨fun u other waits => ?_,fun u other limit waits theirs => ?_⟩
  · rcases waits_here waits with ⟨_,rfl⟩ | ⟨_,waits⟩
    · exact ⟨budget,declared⟩
    · exact crowded.declared u other waits
  · rcases waits_here waits with ⟨_,rfl⟩ | ⟨_,waits⟩
    · obtain rfl := Option.some.inj (declared.symm.trans theirs)
      exact Int.not_le.mp (of_decide_eq_false full)
    · exact crowded.full u other limit waits theirs

theorem subtract_wakes (queued : Queued g) {t : TaskId} {task : Task} {r r' : Reservation}
    (found : g.reservations.get? r.reservationId = some r') (u : TaskId) (other : Task) :
    ¬ (g.subtract t task r).Waits u other := by
  unfold subtract
  rw [found]
  intro waits
  refine notifyAll_waits waits ?_
  have before := waits_putTask.mp (waits_of_notify waits)
  split at before
  · cases before.2
  · exact queued u other before

private theorem reservation_found (ledger : Ledger g) {t : TaskId} {task : Task} {r : Reservation}
    (held : g.tasks.get? t = some task) (phase : task.phase = .held r) :
    g.reservations.get? r.reservationId = some r := by
  refine ledger.recorded t r ?_
  unfold holding
  rw [held]
  show task.phase.reservation = some r
  rw [phase]
  rfl

theorem change_queued (queued : Queued g) (ledger : Ledger g) (change : Change g event g') :
    Queued g' := by
  cases change with
  | same => exact queued
  | configured => exact queued
  | moved t task waiters away _ _ kept =>
    intro u other waits
    obtain ⟨different,before⟩ := waits_elsewhere (away_not_waiting away) waits
    exact kept u (queued u other before) different
  | left t task waiters away _ _ kept =>
    intro u other waits
    obtain ⟨different,before⟩ := waits_elsewhere (away_not_waiting away) (waits_of_notify waits)
    exact kept u (queued u other before) different
  | recorded t task waiters _ _ kept =>
    intro u other waits
    have waits : (putTask { g with waiters } t
      { task with phase := .held ⟨g.ids,task.device,task.nbytes⟩ }).Waits u other := waits
    obtain ⟨different,before⟩ := waits_elsewhere (by simp) waits
    exact kept u (queued u other before) different
  | waits t task waiters _ _ kept =>
    intro u other waits
    rcases waits_here waits with ⟨rfl,_⟩ | ⟨different,before⟩
    · exact List.mem_append_right _ (List.mem_singleton_self _)
    · exact List.mem_append_left _ (kept u (queued u other before) different)
  | released t task r held phase =>
    intro u other waits
    exact absurd waits (subtract_wakes queued (reservation_found ledger held phase) u other)

theorem change_crowded (crowded : Crowded g) (queued : Queued g) (ledger : Ledger g)
    (inside : event.configures = false) (change : Change g event g') : Crowded g' := by
  cases change with
  | same => exact crowded
  | configured _ _ _ _ outside => exact nomatch inside.symm.trans outside
  | moved t task waiters away => exact crowded_put crowded (away_not_waiting away)
  | left t task waiters away => exact crowded_notify (crowded_put crowded (away_not_waiting away)) 1
  | recorded t task waiters sized => exact crowded_record crowded sized
  | waits t task waiters _ _ _ budget declared full => exact crowded_wait crowded declared full
  | released t task r held phase =>
    have nobody (u : TaskId) (other : Task) : ¬ (g.subtract t task r).Waits u other :=
      subtract_wakes queued (reservation_found ledger held phase) u other
    exact ⟨fun u other waits => absurd waits (nobody u other),
      fun u other _ waits => absurd waits (nobody u other)⟩

theorem roomless_of_inside (inside : event.configures = false) : g.Roomless event := by
  cases event <;> trivial

theorem start_idle {budgets : Dict Device Int} (t : TaskId) (task : Task) :
    ¬ (start budgets).Waits t task := by
  rintro ⟨found,_⟩
  cases found

theorem reachable_queued {budgets : Dict Device Int}
    (reached : Transition.Reachable step (start budgets) g) : Calm g ∧ Ledger g ∧ Queued g := by
  refine reached.invariant (fun g => Calm g ∧ Ledger g ∧ Queued g) ?_ ?_
  · obtain ⟨calm,ledger⟩ := start_ledger budgets
    exact ⟨calm,ledger,fun t task waits => absurd waits (start_idle t task)⟩
  · rintro g event g' ⟨calm,ledger,queued⟩ _ stepped
    have change := step_change calm stepped
    exact ⟨change_calm calm change,change_ledger ledger change,change_queued queued ledger change⟩

theorem reached_crowded {budgets : Dict Device Int}
    (reached : Transition.Reach step Roomless (start budgets) g) :
    Calm g ∧ Ledger g ∧ Queued g ∧ Crowded g := by
  refine reached.invariant (fun g => Calm g ∧ Ledger g ∧ Queued g ∧ Crowded g) ?_ ?_
  · obtain ⟨calm,ledger⟩ := start_ledger budgets
    have idle := @start_idle budgets
    exact ⟨calm,ledger,fun t task waits => absurd waits (idle t task),
      fun t task waits => absurd waits (idle t task),fun t task _ waits => absurd waits (idle t task)⟩
  · rintro g event g' ⟨calm,ledger,queued,crowded⟩ room stepped
    have change := step_change calm stepped
    refine ⟨change_calm calm change,change_ledger ledger change,change_queued queued ledger change,?_⟩
    cases outside : event.configures with
    | true => exact (configured_crowded crowded outside stepped).2 room
    | false => exact change_crowded crowded queued ledger outside change

/-- Every release wakes every waiting reservation. While no change from the outside makes room for
a request that waits, no waiting request fits, whatever is reserved, released, shed, timed out or
cancelled; and a step breaks this only by such a change. -/
theorem no_missed_wakeup (budgets : Dict Device Int) :
    (∀ g, Transition.Reachable step (start budgets) g → ∀ t r event g', g.holding t = some r →
      event = .exit t ∨ event = .cancel t → step g event = some g' →
      ∀ u task, ¬ g'.Waits u task) ∧
    (∀ g, Transition.Reach step Roomless (start budgets) g →
      (g.Quiet → ∀ t task, g.tasks.get? t = some task →
        (∃ notified, task.phase = .waiting notified) →
        ∃ budget, g.budgets.get? task.device = some budget ∧
          g.fits task.device task.nbytes budget = false) ∧
      ∀ event g', step g event = some g' → (g'.NoneFits ↔ g.Roomless event)) := by
  refine ⟨fun g reached t r event g' held ends stepped => ?_,fun g reached => ?_⟩
  · obtain ⟨calm,ledger,queued⟩ := reachable_queued reached
    obtain ⟨task,_,_,taken⟩ := ends_subtract calm held ends
    obtain rfl := Option.some.inj (taken.symm.trans stepped)
    exact subtract_wakes queued (ledger.recorded t r held)
  obtain ⟨calm,ledger,queued,crowded⟩ := reached_crowded reached
  constructor
  · rintro quiet t task found ⟨notified,phase⟩
    have waits : g.Waits t task := by
      rcases quiet t task found with waits | ⟨r,elsewhere⟩ | ⟨ending,elsewhere⟩
      · exact ⟨found,waits⟩
      · exact nomatch phase.symm.trans elsewhere
      · exact nomatch phase.symm.trans elsewhere
    obtain ⟨budget,declared⟩ := crowded.declared t task waits
    exact ⟨budget,declared,noneFits_iff.mpr crowded.full t task waits budget declared⟩
  · intro event g' stepped
    cases outside : event.configures with
    | true => exact (configured_crowded crowded outside stepped).1
    | false =>
      have next := change_crowded crowded queued ledger outside (step_change calm stepped)
      exact iff_of_true (noneFits_iff.mpr next.full) (roomless_of_inside outside)

private theorem contended_quiet (tasks : g.tasks = contended.tasks) : g.Quiet := by
  intro t task found
  have listed : contended.tasks.entries =
    [(0,⟨"ram",8,false,0,.held ⟨1,"ram",8⟩⟩),(1,⟨"ram",8,false,0,.waiting false⟩)] := rfl
  have inside := (Dict.get?_eq_some_iff _ _ _).mp found
  rw [tasks,listed] at inside
  rcases List.mem_cons.mp inside with same | inside
  · obtain ⟨_,rfl⟩ := Prod.mk.inj same
    exact .inr (.inl ⟨_,rfl⟩)
  · obtain ⟨_,rfl⟩ := Prod.mk.inj (List.mem_singleton.mp inside)
    exact .inl rfl

/-- A budget raised under a waiting request: it fits now, and nothing wakes it. -/
theorem raised_budget_missed : let g := contended.setBudget "ram" 16
    Transition.Reachable step (start (Dict.empty.set "ram" 10)) g ∧ g.Quiet ∧
      ∃ task, g.Waits 1 task ∧ g.budgets.get? task.device = some 16 ∧
        g.fits task.device task.nbytes 16 = true :=
  ⟨.step (a := .setBudget "ram" 16) (Transition.reachable_offer _) trivial rfl,
    contended_quiet rfl,⟨"ram",8,false,0,.waiting false⟩,⟨rfl,rfl⟩,rfl,rfl⟩

theorem no_missed_wakeup_contended : ∃ task budget, contended.tasks.get? 1 = some task ∧
    task.phase = .waiting false ∧ contended.budgets.get? task.device = some budget ∧
      contended.fits task.device task.nbytes budget = false := by
  have reached : Transition.Reach step Roomless (start (Dict.empty.set "ram" 10)) contended :=
    Transition.reach_offer _ (by simp [Roomless])
  obtain ⟨budget,declared,full⟩ := ((no_missed_wakeup _).2 _ reached).1 (contended_quiet rfl) 1
    ⟨"ram",8,false,0,.waiting false⟩ rfl ⟨false,rfl⟩
  exact ⟨_,budget,rfl,rfl,declared,full⟩

end Dinkster.Memory.Governor
