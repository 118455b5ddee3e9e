import Dinkster.Engine.AdmissionDesk

/-! One lease across the steps of its coroutines. At most one of them acquires at a time, and while
the lease keeps a context none does; each operation hands permits over between desk and lease. -/
namespace Dinkster.Admission
open Desk

def got (acquiring : Option Acquisition) : List Permit := (acquiring.map (·.got)).getD []

def Wait.busy : Wait → Bool
  | .awaiting | .resuming _ => true
  | .queued | .ended => false

theorem Wait.resuming_of {wait : Wait} {a : Acquisition} (acquiring : wait.acquisition? = some a) :
    wait = .resuming a := by
  cases wait with
  | resuming a' => rw [Option.some.inj acquiring]
  | _ => cases acquiring

theorem Wait.calm_idle {wait : Wait} (calm : wait.busy = false) : wait.acquisition? = none := by
  cases wait with
  | resuming a => cases calm
  | _ => rfl

namespace InvocationLease

def own (lease : InvocationLease) : List Permit :=
  lease.held.getD [] ++ Admission.got lease.main.acquisition? ++
    lease.waits.entries.flatMap fun e => Admission.got e.2.acquisition?

/-- A call of `wait` between the suspension of the lease and its end. -/
def Busy (lease : InvocationLease) (w : Nat) : Prop :=
  ∃ wait, lease.waits.get? w = some wait ∧ wait.busy = true

structure Sound (lease : InvocationLease) : Prop where
  ordered : lease.order.Pairwise fun p q => p.rank < q.rank
  fits : ∀ c a, lease.acquisition? c = some a → lease.order = a.got ++ a.next :: a.rest
  kept : ∀ got, lease.held = some got → got = lease.order ∧ lease.active = true
  inside : lease.active = true ↔ lease.main = .body
  locked : ∀ w, lease.Busy w →
    lease.waitLocked = true ∧ lease.held = none ∧ lease.main.acquisition? = none
  single : ∀ w w', lease.Busy w → lease.Busy w' → w' = w

variable {lease : InvocationLease} {w : Nat} {a : Acquisition} {c c' : Option Nat}

theorem busy_of_acquiring (acquiring : lease.acquisition? (some w) = some a) : lease.Busy w := by
  obtain ⟨wait,found,resuming⟩ := Option.bind_eq_some_iff.mp acquiring
  exact ⟨wait,found,by rw [Wait.resuming_of resuming]; rfl⟩

theorem Sound.calm (sound : lease.Sound) {held : List Permit} (keeps : lease.held = some held) :
    ¬ lease.Busy w := by
  intro busy
  have nothing := (sound.locked w busy).2.1
  rw [keeps] at nothing
  cases nothing

theorem Sound.entered (sound : lease.Sound) (active : lease.active = true) :
    lease.main.acquisition? = none := by
  rw [sound.inside.mp active]
  rfl

theorem Sound.entering_calm (sound : lease.Sound) (entering : lease.acquisition? none = some a) :
    lease.held = none ∧ ∀ w, ¬ lease.Busy w := by
  constructor
  · cases keeps : lease.held with
    | none => rfl
    | some held =>
      have nothing := sound.entered (sound.kept held keeps).2
      rw [show lease.main.acquisition? = some a from entering] at nothing
      cases nothing
  · intro w busy
    have nothing := (sound.locked w busy).2.2
    rw [show lease.main.acquisition? = some a from entering] at nothing
    cases nothing

theorem Sound.acquires_once (sound : lease.Sound) {a' : Acquisition}
    (first : lease.acquisition? c = some a) (second : lease.acquisition? c' = some a') :
    c' = c := by
  cases c with
  | none =>
    cases c' with
    | none => rfl
    | some w => exact absurd (busy_of_acquiring second) ((sound.entering_calm first).2 w)
  | some w =>
    cases c' with
    | none => exact absurd (busy_of_acquiring first) ((sound.entering_calm second).2 w)
    | some w' =>
      rw [sound.single w w' (busy_of_acquiring first) (busy_of_acquiring second)]

theorem Sound.acquiring_unheld (sound : lease.Sound) (acquiring : lease.acquisition? c = some a) :
    lease.held = none := by
  cases c with
  | none => exact (sound.entering_calm acquiring).1
  | some w => exact (sound.locked w (busy_of_acquiring acquiring)).2.1

theorem waits_idle (idle : ∀ w, lease.acquisition? (some w) = none) :
    (lease.waits.entries.flatMap fun e => Admission.got e.2.acquisition?) = [] := by
  rw [List.flatMap_eq_nil_iff]
  intro e inside
  have nothing := idle e.1
  rw [acquisition?,(Dict.get?_eq_some_iff lease.waits e.1 e.2).mpr inside,Option.bind_some] at nothing
  rw [nothing]
  rfl

theorem own_idle (unheld : lease.held = none) (idle : ∀ c, lease.acquisition? c = none) :
    lease.own = [] := by
  rw [own,unheld,waits_idle fun w => idle (some w),
    show lease.main.acquisition? = none from idle none]
  rfl

theorem Sound.own_held (sound : lease.Sound) {held : List Permit} (keeps : lease.held = some held) :
    lease.own = lease.order := by
  obtain ⟨rfl,active⟩ := sound.kept held keeps
  have idle (w : Nat) : lease.acquisition? (some w) = none := by
    refine Option.eq_none_iff_forall_ne_some.mpr fun a acquiring => ?_
    exact sound.calm keeps (busy_of_acquiring acquiring)
  rw [own,keeps,waits_idle idle,sound.entered active]
  simp [Admission.got]

theorem Sound.own_acquiring (sound : lease.Sound) (acquiring : lease.acquisition? c = some a) :
    lease.own.Perm a.got := by
  have unheld := sound.acquiring_unheld acquiring
  cases c with
  | none =>
    have idle (w : Nat) : lease.acquisition? (some w) = none := by
      refine Option.eq_none_iff_forall_ne_some.mpr fun a' other => ?_
      exact (sound.entering_calm acquiring).2 w (busy_of_acquiring other)
    rw [own,unheld,waits_idle idle,show lease.main.acquisition? = some a from acquiring]
    simp [Admission.got]
  | some w =>
    obtain ⟨wait,found,resuming⟩ := Option.bind_eq_some_iff.mp acquiring
    have alone (w' : Nat) : acquisition?
        { lease with waits := lease.waits.erase w } (some w') = none := by
      refine Option.eq_none_iff_forall_ne_some.mpr fun a' other => ?_
      simp only [acquisition?,Dict.get?_erase] at other
      split at other
      · cases other
      · rename_i apart
        exact apart (Option.some.inj (sound.acquires_once acquiring other))
    have rest := waits_idle alone
    have permuted :=
      (Dict.entries_perm_erase found).flatMap_right fun e => Admission.got e.2.acquisition?
    rw [List.flatMap_cons,resuming,rest,List.append_nil] at permuted
    rw [own,unheld,(sound.locked w (busy_of_acquiring acquiring)).2.2]
    exact permuted

/-- One operation by the coroutine `c` of lease `i`. -/
structure Moves (i : LeaseId) (c : Option Nat) (d : Desk) (lease : InvocationLease)
    (next : Desk × InvocationLease) : Prop where
  sound : next.2.Sound
  shift : Shift d next.1 lease.own next.2.own
  queue : Requeued d next.1 (i,c) ((next.2.acquisition? c).map (·.next))
  others : ∀ c' ≠ c, next.2.acquisition? c' = lease.acquisition? c'

theorem Sound.of (ordered : lease.order.Pairwise fun p q => p.rank < q.rank)
    (main : ∀ a, lease.main.acquisition? = some a → lease.order = a.got ++ a.next :: a.rest)
    (kept : ∀ got, lease.held = some got → got = lease.order ∧ lease.active = true)
    (inside : lease.active = true ↔ lease.main = .body)
    (only : ∀ w', lease.Busy w' → w' = w)
    (mine : lease.Busy w → lease.waitLocked = true ∧ lease.held = none ∧
      lease.main.acquisition? = none ∧
      ∀ a, lease.acquisition? (some w) = some a → lease.order = a.got ++ a.next :: a.rest) :
    lease.Sound := by
  refine ⟨ordered,?_,kept,inside,?_,?_⟩
  · intro c a acquiring
    cases c with
    | none => exact main a acquiring
    | some w' =>
      have busy := busy_of_acquiring acquiring
      obtain rfl := only w' busy
      exact (mine busy).2.2.2 a acquiring
  · intro w' busy
    obtain rfl := only w' busy
    exact ⟨(mine busy).1,(mine busy).2.1,(mine busy).2.2.1⟩
  · intro w₁ w₂ first second
    rw [only w₁ first,only w₂ second]

structure Fresh (lease : InvocationLease) : Prop where
  ordered : lease.order.Pairwise fun p q => p.rank < q.rank
  unheld : lease.held = none
  inactive : lease.active = false
  calm : ∀ w, ¬ lease.Busy w

theorem Sound.fresh (sound : lease.Sound) (entering : lease.acquisition? none = some a) :
    lease.Fresh := by
  obtain ⟨unheld,calm⟩ := sound.entering_calm entering
  refine ⟨sound.ordered,unheld,?_,calm⟩
  rw [← Bool.not_eq_true]
  intro active
  have nothing := sound.entered active
  rw [show lease.main.acquisition? = some a from entering] at nothing
  cases nothing

theorem Fresh.enters (fresh : lease.Fresh) {i : LeaseId} {d d' : Desk} {advance : Advance}
    (advanced : Advanced d d' (i,none) lease.own lease.order advance) :
    Moves i none d lease (d',lease.enter advance) := by
  have calm (w : Nat) : ¬ (lease.enter advance).Busy w := by
    cases advance <;> exact fresh.calm w
  have idle (w : Nat) : (lease.enter advance).acquisition? (some w) = none := by
    refine Option.eq_none_iff_forall_ne_some.mpr fun a acquiring => ?_
    exact calm w (busy_of_acquiring acquiring)
  have sound : (lease.enter advance).Sound := by
    have only (w : Nat) (busy : (lease.enter advance).Busy w) : w = 0 := absurd busy (calm w)
    cases advance with
    | complete =>
      refine .of fresh.ordered nofun ?_ (iff_of_true rfl rfl) only fun busy => absurd busy (calm 0)
      intro got held
      exact ⟨(Option.some.inj held).symm,rfl⟩
    | blocked a =>
      refine .of fresh.ordered ?_ ?_ ?_ only fun busy => absurd busy (calm 0)
      · intro a' entering
        obtain rfl := Option.some.inj entering
        exact advanced.fits a rfl
      · intro got held
        have nothing := fresh.unheld.symm.trans held
        cases nothing
      · exact iff_of_false (by simp [enter,fresh.inactive]) nofun
    | cancelled =>
      refine .of fresh.ordered nofun ?_ ?_ only fun busy => absurd busy (calm 0)
      · intro got held
        have nothing := fresh.unheld.symm.trans held
        cases nothing
      · exact iff_of_false (by simp [enter,fresh.inactive]) nofun
  refine ⟨sound,advanced.shift.perm (.refl _) ?_,?_,?_⟩
  · cases advance with
    | complete => exact .of_eq (sound.own_held rfl).symm
    | blocked a => exact (sound.own_acquiring (c := none) rfl).symm
    | cancelled =>
      have nothing : (lease.enter .cancelled).own = [] := by
        refine own_idle fresh.unheld fun c => ?_
        cases c with
        | none => rfl
        | some w => exact idle w
      exact .of_eq nothing.symm
  · have queue := advanced.queue
    cases advance <;> exact queue
  · intro c other
    cases c with
    | none => exact absurd rfl other
    | some w =>
      rw [idle w]
      refine (Option.eq_none_iff_forall_ne_some.mpr fun a acquiring => ?_).symm
      exact fresh.calm w (busy_of_acquiring acquiring)

theorem busy_putWait (wait : Wait) {w' : Nat} :
    (lease.putWait w wait).Busy w' ↔ if w' = w then wait.busy = true else lease.Busy w' := by
  unfold Busy putWait
  simp only [Dict.get?_set]
  split
  · simp
  · rfl

theorem acquisition?_putWait (wait : Wait) {w' : Nat} :
    (lease.putWait w wait).acquisition? (some w') =
      if w' = w then wait.acquisition? else lease.acquisition? (some w') := by
  simp only [acquisition?,putWait,Dict.get?_set]
  split <;> rfl

theorem acquisition?_keep : lease.keep.acquisition? c = lease.acquisition? c := by
  cases c <;> rfl

theorem Sound.own_same {lease' : InvocationLease} (sound : lease.Sound) (sound' : lease'.Sound)
    (order : lease'.order = lease.order) (held : lease'.held = lease.held)
    (same : ∀ c, lease'.acquisition? c = lease.acquisition? c) : lease'.own.Perm lease.own := by
  cases keeps : lease.held with
  | some got =>
    rw [sound.own_held keeps,sound'.own_held (held.trans keeps),order]
  | none =>
    by_cases acquiring : ∃ c a, lease.acquisition? c = some a
    · obtain ⟨c,a,found⟩ := acquiring
      exact (sound'.own_acquiring ((same c).trans found)).trans (sound.own_acquiring found).symm
    · have idle (c : Option Nat) : lease.acquisition? c = none := by
        refine Option.eq_none_iff_forall_ne_some.mpr fun a found => acquiring ⟨c,a,found⟩
      rw [own_idle keeps idle,own_idle (held.trans keeps) fun c => (same c).trans (idle c)]

section Calls

variable {i : LeaseId} {d d' : Desk}

theorem Sound.puts (sound : lease.Sound) {wait : Wait} (idle : ¬ lease.Busy w)
    (calm : wait.busy = false)
    (here : Requeued d d (i,some w) ((lease.acquisition? (some w)).map (·.next))) :
    Moves i (some w) d lease (d,lease.putWait w wait) := by
  have same (c : Option Nat) : (lease.putWait w wait).acquisition? c = lease.acquisition? c := by
    cases c with
    | none => rfl
    | some w' =>
      rw [acquisition?_putWait]
      split
      · rename_i equal
        rw [equal,Wait.calm_idle calm]
        refine (Option.eq_none_iff_forall_ne_some.mpr fun a acquiring => ?_).symm
        exact idle (busy_of_acquiring acquiring)
      · rfl
  have old {w' : Nat} (busy : (lease.putWait w wait).Busy w') : lease.Busy w' := by
    rw [busy_putWait] at busy
    split at busy
    · rw [calm] at busy
      cases busy
    · exact busy
  have next : (lease.putWait w wait).Sound := by
    refine ⟨sound.ordered,fun c a acquiring => ?_,sound.kept,sound.inside,fun w' busy => ?_,
      fun w₁ w₂ first second => ?_⟩
    · exact sound.fits c a ((same c).symm.trans acquiring)
    · exact sound.locked w' (old busy)
    · exact sound.single w₁ w₂ (old first) (old second)
  refine ⟨next,?_,?_,fun c' _ => same c'⟩
  · exact (Shift.refl lease.own).perm (.refl _) (sound.own_same next rfl rfl same).symm
  · rw [same (some w)]
    exact here

theorem Sound.unlocked (sound : lease.Sound) (busy : lease.Busy w) :
    (lease.unlock w).Sound ∧ (lease.unlock w).own = [] ∧
      ∀ c, (lease.unlock w).acquisition? c = none := by
  obtain ⟨_,unheld,entered⟩ := sound.locked w busy
  have calm (w' : Nat) : ¬ (lease.unlock w).Busy w' := by
    intro other
    have before := (busy_putWait .ended).mp other
    split at before
    · cases before
    · rename_i apart
      exact apart (sound.single w w' busy before)
  have idle (c : Option Nat) : (lease.unlock w).acquisition? c = none := by
    cases c with
    | none => exact entered
    | some w' =>
      refine Option.eq_none_iff_forall_ne_some.mpr fun a acquiring => ?_
      exact calm w' (busy_of_acquiring acquiring)
  refine ⟨?_,own_idle unheld idle,idle⟩
  refine .of (w := w) sound.ordered ?_ ?_ sound.inside (fun w' other => absurd other (calm w'))
    fun other => absurd other (calm w)
  · intro a entering
    have nothing := (idle none).symm.trans entering
    cases nothing
  · intro got held
    have nothing := unheld.symm.trans held
    cases nothing

theorem Sound.suspends (sound : lease.Sound) (unlocked : lease.waitLocked = false)
    (here : Requeued d d (i,some w) ((lease.acquisition? (some w)).map (·.next))) :
    Moves i (some w) d lease (lease.suspend d w) := by
  have calm (w' : Nat) : ¬ lease.Busy w' := by
    intro busy
    rw [(sound.locked w' busy).1] at unlocked
    cases unlocked
  have idle (w' : Nat) : lease.acquisition? (some w') = none := by
    refine Option.eq_none_iff_forall_ne_some.mpr fun a acquiring => ?_
    exact calm w' (busy_of_acquiring acquiring)
  unfold suspend
  split
  · rename_i active
    split
    · rename_i got held
      obtain ⟨rfl,_⟩ := sound.kept got held
      have entered := sound.entered active
      have none_acquires (c : Option Nat) : ({ lease.putWait w .awaiting with
          waitLocked := true, held := none } : InvocationLease).acquisition? c = none := by
        cases c with
        | none => exact entered
        | some w' =>
          refine (acquisition?_putWait .awaiting).trans ?_
          split
          · rfl
          · exact idle w'
      refine ⟨.of (w := w) sound.ordered ?_ nofun sound.inside ?_ ?_,?_,?_,fun c' _ => ?_⟩
      · intro a entering
        have nothing := entered.symm.trans entering
        cases nothing
      · intro w' other
        have before := (busy_putWait .awaiting).mp other
        split at before
        · assumption
        · exact absurd before (calm w')
      · intro _
        refine ⟨rfl,rfl,entered,fun a acquiring => ?_⟩
        rw [none_acquires] at acquiring
        cases acquiring
      · rw [sound.own_held held,own_idle rfl none_acquires]
        exact shift_unwind lease.order
      · rw [none_acquires]
        rw [idle w] at here
        exact here.same fun p => callers_unwind lease.order
      · rw [none_acquires]
        cases c' with
        | none => exact entered.symm
        | some w' => exact (idle w').symm
    · exact sound.puts (calm w) rfl here
  · exact sound.puts (calm w) rfl here

theorem Sound.resumes (sound : lease.Sound) (busy : lease.Busy w) {advance : Advance}
    (advanced : Advanced d d' (i,some w) lease.own lease.order advance) :
    Moves i (some w) d lease (lease.resume d' w advance) := by
  obtain ⟨next,empty,idle⟩ := sound.unlocked busy
  obtain ⟨locked,unheld,entered⟩ := sound.locked w busy
  have apart (c' : Option Nat) (other : c' ≠ some w) : lease.acquisition? c' = none := by
    cases c' with
    | none => exact entered
    | some w' =>
      refine Option.eq_none_iff_forall_ne_some.mpr fun a acquiring => other ?_
      rw [sound.single w w' busy (busy_of_acquiring acquiring)]
  cases advance with
  | complete =>
    simp only [resume]
    split
    · rename_i active
      have nothing (c : Option Nat) : (lease.unlock w).keep.acquisition? c = none :=
        acquisition?_keep.trans (idle c)
      have kept : (lease.unlock w).keep.Sound := by
        refine ⟨next.ordered,fun c a acquiring => ?_,fun got held => ?_,next.inside,fun w' other => ?_,
          next.single⟩
        · rw [nothing c] at acquiring
          cases acquiring
        · exact ⟨(Option.some.inj held).symm,active⟩
        · obtain ⟨open_lock,_,_⟩ := next.locked w' other
          cases open_lock
      refine ⟨kept,?_,?_,fun c' other => ?_⟩
      · rw [kept.own_held rfl]
        exact advanced.shift
      · rw [nothing]
        exact advanced.queue
      · rw [apart c' other]
        exact nothing c'
    · refine ⟨next,?_,?_,fun c' other => ?_⟩
      · rw [empty]
        exact advanced.shift.trans (shift_unwind lease.order)
      · rw [idle]
        have queue := advanced.queue
        exact ⟨fun p => by rw [callers_unwind]; exact queue.distinct p,
          fun p => by rw [callers_unwind]; exact queue.mine p,
          fun c' other p => by rw [callers_unwind]; exact queue.others c' other p⟩
      · rw [apart c' other,idle]
  | blocked a =>
    have mine : (lease.putWait w (.resuming a)).acquisition? (some w) = some a := by
      rw [acquisition?_putWait,if_pos rfl]
      rfl
    have only (w' : Nat) (other : (lease.putWait w (.resuming a)).Busy w') : w' = w := by
      have before := (busy_putWait _).mp other
      split at before
      · assumption
      · exact sound.single w w' busy before
    have sound' : (lease.putWait w (.resuming a)).Sound := by
      refine .of (w := w) sound.ordered ?_ ?_ sound.inside only fun _ => ?_
      · intro a' entering
        have nothing := entered.symm.trans entering
        cases nothing
      · intro got held
        have nothing := unheld.symm.trans held
        cases nothing
      · refine ⟨locked,unheld,entered,fun a' acquiring => ?_⟩
        obtain rfl := Option.some.inj (mine.symm.trans acquiring)
        exact advanced.fits a rfl
    refine ⟨sound',?_,?_,fun c' other => ?_⟩
    · exact advanced.shift.perm (.refl _) (sound'.own_acquiring mine).symm
    · rw [show (lease.resume d' w (.blocked a)).2.acquisition? (some w) = some a from mine]
      exact advanced.queue
    · cases c' with
      | none => rfl
      | some w' =>
        refine (acquisition?_putWait _).trans (if_neg fun same => other ?_)
        rw [same]
  | cancelled =>
    refine ⟨next,?_,?_,fun c' other => ?_⟩
    · rw [show (lease.resume d' w .cancelled).2.own = [] from empty]
      exact advanced.shift
    · rw [show (lease.resume d' w .cancelled).2.acquisition? (some w) = none from idle (some w)]
      exact advanced.queue
    · rw [apart c' other]
      exact idle c'

theorem Sound.exits (sound : lease.Sound) (body : lease.main = .body)
    (here : Requeued d d (i,none) ((lease.acquisition? none).map (·.next))) :
    Moves i none d lease (lease.exit d) := by
  have entered : lease.main.acquisition? = none := by
    rw [body]
    rfl
  have same (c : Option Nat) : (lease.exit d).2.acquisition? c = lease.acquisition? c := by
    cases c with
    | none => exact entered.symm
    | some w => rfl
  have next : (lease.exit d).2.Sound := by
    refine ⟨sound.ordered,fun c a acquiring => ?_,nofun,iff_of_false nofun nofun,fun w busy => ?_,
      sound.single⟩
    · exact sound.fits c a ((same c).symm.trans acquiring)
    · exact ⟨(sound.locked w busy).1,rfl,rfl⟩
  refine ⟨next,?_,?_,fun c' _ => same c'⟩
  · cases keeps : lease.held with
    | none =>
      have unchanged := sound.own_same next rfl keeps.symm same
      rw [show (lease.exit d).1 = d by rw [exit,keeps]; rfl]
      exact (Shift.refl lease.own).perm (.refl _) unchanged.symm
    | some got =>
      obtain ⟨rfl,_⟩ := sound.kept got keeps
      have idle (c : Option Nat) : (lease.exit d).2.acquisition? c = none := by
        rw [same c]
        refine Option.eq_none_iff_forall_ne_some.mpr fun a acquiring => ?_
        have nothing := (sound.acquiring_unheld acquiring).symm.trans keeps
        cases nothing
      rw [sound.own_held keeps,own_idle rfl idle,
        show (lease.exit d).1 = d.unwind lease.order by rw [exit,keeps]; rfl]
      exact shift_unwind lease.order
  · rw [same]
    exact here.same fun p => callers_unwind _

end Calls

end InvocationLease

end Dinkster.Admission
