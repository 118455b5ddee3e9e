import Dinkster.Engine.AdmissionLeases
import Dinkster.Lib.Digraph
import Dinkster.Lib.Transition
import Mathlib

/-! Permits of the admission are conserved, held once, given back on exit, and waited for in one
order, in every state reached. -/
namespace Dinkster.Admission
open Desk InvocationLease

namespace Engine

structure Sound (e : Engine) : Prop where
  leases : ∀ i lease, e.leases.get? i = some lease → lease.Sound
  total : ∀ p, (e.desk.resourceSlot p).total + e.leases.total (fun lease => lease.own.count p) =
    e.desk.capacity p
  counted : ∀ lane, e.desk.inUse lane = e.leases.total fun lease => lease.own.count (.lane lane)
  distinct : ∀ p, (e.desk.resourceSlot p).callers.Nodup
  queued : ∀ i c p, (i,c) ∈ (e.desk.resourceSlot p).callers ↔ ∃ lease,
    e.leases.get? i = some lease ∧ (lease.acquisition? c).map (·.next) = some p

variable {e e' : Engine} {i : LeaseId} {lease : InvocationLease}

theorem Sound.here (sound : e.Sound) (found : e.leases.get? i = some lease) (c : Option Nat) :
    Requeued e.desk e.desk (i,c) ((lease.acquisition? c).map (·.next)) := by
  refine ⟨sound.distinct,fun p => (sound.queued i c p).trans ?_,fun _ _ _ => Iff.rfl⟩
  constructor
  · rintro ⟨other,same,next⟩
    rw [found] at same
    rwa [Option.some.inj same]
  · intro next
    exact ⟨lease,found,next⟩

theorem Sound.unknown (sound : e.Sound) (absent : e.leases.get? i = none) (c : Option Nat) :
    Requeued e.desk e.desk (i,c) none := by
  refine ⟨sound.distinct,fun p => iff_of_false ?_ nofun,fun _ _ _ => Iff.rfl⟩
  intro inside
  obtain ⟨lease,found,_⟩ := (sound.queued i c p).mp inside
  rw [absent] at found
  cases found

theorem Sound.put (sound : e.Sound) {c : Option Nat} {next : Desk × InvocationLease}
    (before : e.leases.get? i = some lease ∨
      e.leases.get? i = none ∧ lease.own = [] ∧ ∀ c, lease.acquisition? c = none)
    (moves : Moves i c e.desk lease next) : (e.put i next).Sound := by
  have weight (p : Permit) : ((e.leases.get? i).map fun lease => lease.own.count p).getD 0 =
      lease.own.count p := by
    rcases before with found | ⟨absent,empty,_⟩
    · rw [found]
      rfl
    · rw [absent,empty]
      rfl
  have total (p : Permit) : (e.leases.set i next.2).total (fun lease => lease.own.count p) +
      lease.own.count p = e.leases.total (fun lease => lease.own.count p) + next.2.own.count p := by
    have erased := Dict.total_erase e.leases (fun lease => lease.own.count p) i
    rw [weight p] at erased
    have put := Dict.total_set e.leases (fun lease => lease.own.count p) i next.2
    omega
  refine ⟨fun j other found => ?_,fun p => ?_,fun lane => ?_,moves.queue.distinct,
    fun j c' p => ?_⟩
  · rw [show (e.put i next).leases = e.leases.set i next.2 from rfl,Dict.get?_set] at found
    split at found
    · obtain rfl := Option.some.inj found
      exact moves.sound
    · exact sound.leases j other found
  · have shifted := moves.shift.total p
    have conserved := sound.total p
    have changed := total p
    rw [show (e.put i next).desk.capacity p = e.desk.capacity p from
      congrFun moves.shift.capacity p]
    show (next.1.resourceSlot p).total + (e.leases.set i next.2).total _ = _
    omega
  · have shifted := moves.shift.counted lane
    have conserved := sound.counted lane
    have changed := total (.lane lane)
    show next.1.inUse lane = ((e.leases.set i next.2).total _ : Nat)
    omega
  · show (j,c') ∈ (next.1.resourceSlot p).callers ↔ ∃ other,
      (e.leases.set i next.2).get? j = some other ∧ _
    rw [Dict.get?_set]
    by_cases mine : j = i
    · subst mine
      simp only [if_true,Option.some.injEq,exists_eq_left']
      by_cases same : c' = c
      · rw [same]
        exact moves.queue.mine p
      · have apart : (j,c') ≠ (j,c) := fun equal => same (congrArg Prod.snd equal)
        rw [moves.queue.others _ apart p,sound.queued j c' p,moves.others c' same]
        rcases before with found | ⟨absent,_,idle⟩
        · simp [found]
        · simp [absent,idle c']
    · have apart : (j,c') ≠ (i,c) := fun equal => mine (congrArg Prod.fst equal)
      rw [if_neg mine,moves.queue.others _ apart p]
      exact sound.queued j c' p

theorem Sound.cancelled (sound : e.Sound) (p : Permit) (c : Caller) :
    Sound { e with desk := e.desk.setSlot p ((e.desk.resourceSlot p).cancel c) } := by
  have slot (q : Permit) : ((e.desk.setSlot p ((e.desk.resourceSlot p).cancel c)).resourceSlot
      q).total = (e.desk.resourceSlot q).total ∧
      ((e.desk.setSlot p ((e.desk.resourceSlot p).cancel c)).resourceSlot q).callers =
        (e.desk.resourceSlot q).callers := by
    rw [resourceSlot_setSlot]
    split
    · rename_i same
      rw [Semaphore.total_cancel,Semaphore.callers_cancel,same]
      exact ⟨rfl,rfl⟩
    · exact ⟨rfl,rfl⟩
  refine ⟨sound.leases,fun q => ?_,sound.counted,fun q => ?_,fun i c' q => ?_⟩
  · rw [(slot q).1]
    exact sound.total q
  · rw [(slot q).2]
    exact sound.distinct q
  · rw [(slot q).2]
    exact sound.queued i c' q

private theorem unentered_fresh {order : List Permit}
    (ordered : order.Pairwise fun p q => p.rank < q.rank) : (unentered order).Fresh := by
  refine ⟨ordered,rfl,rfl,fun w busy => ?_⟩
  obtain ⟨wait,found,_⟩ := busy
  cases found

theorem order_strict (d : Desk) {lanes : List String} (strict : lanes.Pairwise (· < ·)) :
    (d.order lanes).Pairwise fun p q => p.rank < q.rank := by
  refine List.pairwise_append.mpr ⟨?_,?_,?_⟩
  · rw [List.pairwise_map]
    exact strict.imp fun less => WithTop.coe_lt_coe.mpr less
  · split
    · exact List.pairwise_singleton _ _
    · exact .nil
  · intro p inside q last
    obtain ⟨name,_,rfl⟩ := List.mem_map.mp inside
    split at last
    · rw [List.mem_singleton.mp last]
      exact WithTop.coe_lt_top name
    · cases last

theorem step_sound {event : Event} (sound : e.Sound) (stepped : e.step event = some e') :
    e'.Sound := by
  cases event with
  | start i schema resources target =>
    simp only [step] at stepped
    split at stepped
    · cases stepped
    · rename_i fresh
      obtain rfl := Option.some.inj stepped
      have absent := (Dict.get?_eq_none_iff e.leases i).mpr fresh
      have ordered := order_strict e.desk (occupancy_strict schema resources target)
      have idle (c : Option Nat) :
          (unentered (e.desk.order (occupancy schema resources target))).acquisition? c = none := by
        cases c <;> rfl
      refine sound.put (c := none) (.inr ⟨absent,rfl,idle⟩) ((unentered_fresh ordered).enters ?_)
      exact acquire_advanced [] _ (sound.unknown absent none)
  | cancel c =>
    obtain ⟨i,c⟩ := c
    obtain ⟨lease,_,rest⟩ := Option.bind_eq_some_iff.mp stepped
    obtain ⟨a,_,rfl⟩ := Option.map_eq_some_iff.mp rest
    exact sound.cancelled a.next (i,c)
  | run c =>
    obtain ⟨i,c⟩ := c
    obtain ⟨lease,found,rest⟩ := Option.bind_eq_some_iff.mp stepped
    obtain ⟨a,acquiring,ran⟩ := Option.bind_eq_some_iff.mp rest
    obtain ⟨⟨d,advance⟩,went,same⟩ := Option.map_eq_some_iff.mp ran
    have lease_sound := sound.leases i lease found
    have waits := sound.here found c
    rw [acquiring] at waits
    have advanced := goOn_advanced waits went
    rw [← lease_sound.fits c a acquiring] at advanced
    have mine : Advanced e.desk d (i,c) lease.own lease.order advance :=
      ⟨advanced.shift.perm (lease_sound.own_acquiring acquiring).symm (.refl _),advanced.queue,
        advanced.fits⟩
    cases c with
    | none =>
      obtain rfl := same
      exact sound.put (.inl found) ((lease_sound.fresh acquiring).enters mine)
    | some w =>
      obtain rfl := same
      exact sound.put (.inl found) (lease_sound.resumes (busy_of_acquiring acquiring) mine)
  | wait i w queues =>
    obtain ⟨lease,found,rest⟩ := Option.bind_eq_some_iff.mp stepped
    split at rest
    · cases rest
    · rename_i fresh
      have lease_sound := sound.leases i lease found
      have idle : ¬ lease.Busy w := by
        rintro ⟨wait,known,_⟩
        exact fresh ((Dict.mem_keys_iff _ _).mpr ⟨wait,known⟩)
      split at rest
      · obtain rfl := Option.some.inj rest
        exact sound.put (.inl found) (lease_sound.puts idle rfl (sound.here found (some w)))
      · rename_i free
        obtain rfl := Option.some.inj rest
        have unlocked : lease.waitLocked = false := by
          cases locked : lease.waitLocked with
          | false => rfl
          | true => exact absurd (by simp [locked]) free
        exact sound.put (.inl found) (lease_sound.suspends unlocked (sound.here found (some w)))
  | lock i w cancelled =>
    obtain ⟨lease,found,rest⟩ := Option.bind_eq_some_iff.mp stepped
    have lease_sound := sound.leases i lease found
    split at rest
    · rename_i queued
      have idle : ¬ lease.Busy w := by
        rintro ⟨wait,known,busy⟩
        obtain rfl := Option.some.inj (queued.symm.trans known)
        cases busy
      split at rest
      · obtain rfl := Option.some.inj rest
        exact sound.put (.inl found) (lease_sound.puts idle rfl (sound.here found (some w)))
      · split at rest
        · cases rest
        · rename_i free
          obtain rfl := Option.some.inj rest
          exact sound.put (.inl found)
            (lease_sound.suspends (by simpa using free) (sound.here found (some w)))
    · cases rest
  | settle i w cancelled =>
    obtain ⟨lease,found,rest⟩ := Option.bind_eq_some_iff.mp stepped
    have lease_sound := sound.leases i lease found
    split at rest
    · rename_i awaiting
      have busy : lease.Busy w := ⟨_,awaiting,rfl⟩
      have here := sound.here found (some w)
      have nothing : lease.acquisition? (some w) = none := by
        rw [acquisition?,awaiting]
        rfl
      have others (c : Option Nat) : lease.acquisition? c = none := by
        refine Option.eq_none_iff_forall_ne_some.mpr fun a acquiring => ?_
        cases c with
        | none => exact (lease_sound.entering_calm acquiring).2 w busy
        | some w' =>
          obtain rfl := lease_sound.single w w' busy (busy_of_acquiring acquiring)
          rw [nothing] at acquiring
          cases acquiring
      have empty : lease.own = [] := own_idle (lease_sound.locked w busy).2.1 others
      rw [nothing] at here
      split at rest
      · obtain rfl := Option.some.inj rest
        have given : Advanced e.desk e.desk (i,some w) lease.own lease.order .cancelled := by
          refine ⟨?_,here,by simp⟩
          rw [empty]
          exact .refl []
        exact sound.put (.inl found) (lease_sound.resumes busy given)
      · obtain rfl := Option.some.inj rest
        refine sound.put (.inl found) (lease_sound.resumes busy ?_)
        rw [empty]
        exact acquire_advanced [] _ here
    · cases rest
  | exit i =>
    obtain ⟨lease,found,rest⟩ := Option.bind_eq_some_iff.mp stepped
    split at rest
    · rename_i body
      obtain rfl := Option.some.inj rest
      exact sound.put (.inl found) ((sound.leases i lease found).exits body (sound.here found none))
    · cases rest

/-- An engine that has admitted nothing yet. -/
def idle (resourceCapacities : Dict String Nat) (maxConcurrency : Option Nat) : Engine :=
  ⟨{ resourceCapacities, maxConcurrency },.empty⟩

theorem idle_sound (resourceCapacities : Dict String Nat) (maxConcurrency : Option Nat) :
    (idle resourceCapacities maxConcurrency).Sound := by
  refine ⟨?_,fun _ => rfl,fun _ => rfl,fun _ => List.nodup_nil,fun i c p => ⟨?_,?_⟩⟩
  · intro i lease found
    cases found
  · intro inside
    exact absurd inside List.not_mem_nil
  · rintro ⟨_,found,_⟩
    cases found

theorem reachable_sound {resourceCapacities : Dict String Nat} {maxConcurrency : Option Nat}
    (reached : Transition.Reachable step (idle resourceCapacities maxConcurrency) e) : e.Sound :=
  reached.invariant Sound (idle_sound _ _) fun _ _ _ sound _ stepped => step_sound sound stepped

/-- The units of a permit in the hands of an invocation; one that has just been handed to its
waiting task counts. -/
def grasp (e : Engine) (i : LeaseId) (p : Permit) : Nat :=
  ((e.leases.get? i).map fun lease => lease.own.count p).getD 0 +
    (e.desk.resourceSlot p).owners.countP fun c => c.1 = i

def holders (e : Engine) (p : Permit) : List LeaseId :=
  e.leases.keys.filter fun i => decide (0 < e.grasp i p)

def blockedOn (e : Engine) (i : LeaseId) (p : Permit) : Prop :=
  ∃ c, (e.desk.resourceSlot p).future? (i,c) = some .pending

def waitsFor (e : Engine) (i j : LeaseId) : Prop := ∃ p, e.blockedOn i p ∧ 0 < e.grasp j p

variable {p q : Permit} {c : Option Nat}

theorem Sound.queued_at (sound : e.Sound) (inside : (i,c) ∈ (e.desk.resourceSlot p).callers) :
    ∃ lease a, e.leases.get? i = some lease ∧ lease.Sound ∧ lease.acquisition? c = some a ∧
      a.next = p := by
  obtain ⟨lease,found,next⟩ := (sound.queued i c p).mp inside
  obtain ⟨a,acquiring,same⟩ := Option.map_eq_some_iff.mp next
  exact ⟨lease,a,found,sound.leases i lease found,acquiring,same⟩

theorem mem_callers_of_owners {s : Semaphore Caller} {c : Caller} (owns : c ∈ s.owners) :
    c ∈ s.callers := (List.filter_sublist.map _).subset owns

theorem got_before {a : Acquisition} (sound : lease.Sound)
    (acquiring : lease.acquisition? c = some a) (got : p ∈ a.got) : p.rank < a.next.rank := by
  have ordered := sound.ordered
  rw [sound.fits c a acquiring] at ordered
  exact (List.pairwise_append.mp ordered).2.2 p got a.next List.mem_cons_self

theorem order_nodup (sound : lease.Sound) : lease.order.Nodup :=
  sound.ordered.imp fun less same => absurd (same ▸ less) (lt_irrefl _)

theorem own_nodup (sound : lease.Sound) : lease.own.Nodup := by
  cases keeps : lease.held with
  | some got =>
    rw [sound.own_held keeps]
    exact order_nodup sound
  | none =>
    by_cases acquiring : ∃ c a, lease.acquisition? c = some a
    · obtain ⟨c,a,found⟩ := acquiring
      have whole := order_nodup sound
      rw [sound.fits c a found] at whole
      exact (sound.own_acquiring found).nodup_iff.mpr whole.of_append_left
    · rw [own_idle keeps fun c => Option.eq_none_iff_forall_ne_some.mpr fun a found =>
        acquiring ⟨c,a,found⟩]
      exact List.nodup_nil

theorem grasp_le_one (sound : e.Sound) (i : LeaseId) (p : Permit) : e.grasp i p ≤ 1 := by
  unfold grasp
  by_cases waiting : ∃ c, (i,c) ∈ (e.desk.resourceSlot p).callers
  · obtain ⟨c,inside⟩ := waiting
    obtain ⟨lease,a,found,lease_sound,acquiring,rfl⟩ := sound.queued_at inside
    -- a lease that waits for the permit does not have it, and waits for it only once
    have own : lease.own.count a.next = 0 := by
      rw [(lease_sound.own_acquiring acquiring).count_eq,List.count_eq_zero]
      exact fun got => lt_irrefl _ (got_before lease_sound acquiring got)
    have once : (e.desk.resourceSlot a.next).owners.countP (fun c => c.1 = i) ≤
        (e.desk.resourceSlot a.next).owners.count (i,c) := by
      refine List.countP_mono_left fun other owns same => beq_iff_eq.mpr ?_
      obtain ⟨j,c'⟩ := other
      obtain rfl : j = i := of_decide_eq_true same
      obtain ⟨lease',a',found',_,acquiring',_⟩ := sound.queued_at (mem_callers_of_owners owns)
      obtain rfl := Option.some.inj (found.symm.trans found')
      rw [lease_sound.acquires_once acquiring acquiring']
    have single := List.nodup_iff_count_le_one.mp
      (Semaphore.owners_nodup (sound.distinct a.next)) (i,c)
    rw [found,Option.map_some,Option.getD_some,own]
    omega
  · have unqueued : (e.desk.resourceSlot p).owners.countP (fun c => c.1 = i) = 0 := by
      refine List.countP_eq_zero.mpr fun other owns same => waiting ?_
      obtain ⟨j,c⟩ := other
      obtain rfl : j = i := of_decide_eq_true same
      exact ⟨c,mem_callers_of_owners owns⟩
    rw [unqueued]
    cases found : e.leases.get? i with
    | none => simp
    | some lease =>
      have once := List.nodup_iff_count_le_one.mp (own_nodup (sound.leases i lease found)) p
      simpa using once

private theorem countP_eq_sum {α : Type} (test : α → Bool) (xs : List α) :
    xs.countP test = (xs.map fun x => if test x then 1 else 0).sum := by
  induction xs with
  | nil => rfl
  | cons x xs ih =>
    rw [List.countP_cons,ih,List.map_cons,List.sum_cons,Nat.add_comm]

private theorem sum_owners (keys : List LeaseId) (distinct : keys.Nodup) (owners : List Caller)
    (known : ∀ c ∈ owners, c.1 ∈ keys) :
    (keys.map fun i => owners.countP fun c => c.1 = i).sum = owners.length := by
  induction owners with
  | nil => simp
  | cons c owners ih =>
    have rest := ih fun c' inside => known c' (List.mem_cons_of_mem _ inside)
    have single : (keys.map fun i => if c.1 = i then 1 else 0).sum = 1 := by
      refine Eq.trans ?_ (List.count_eq_one_of_mem distinct (known c List.mem_cons_self))
      rw [List.count_eq_countP,countP_eq_sum]
      congr 1
      refine List.map_congr_left fun i _ => ?_
      by_cases same : c.1 = i
      · simp [same]
      · simp [same,Ne.symm same]
    simp only [List.countP_cons,decide_eq_true_eq]
    rw [List.sum_map_add,rest,single,List.length_cons]

theorem holders_count (sound : e.Sound) (p : Permit) :
    (e.desk.resourceSlot p).value + (e.holders p).length = e.desk.capacity p := by
  have conserved := sound.total p
  have whole : (e.leases.keys.map fun i => e.grasp i p).sum =
      e.leases.total (fun lease => lease.own.count p) + (e.desk.resourceSlot p).owners.length := by
    unfold grasp
    have owned := sum_owners e.leases.keys e.leases.distinct
      (e.desk.resourceSlot p).owners fun c owns => by
        obtain ⟨lease,_,found,_⟩ := sound.queued_at (c := c.2) (mem_callers_of_owners owns)
        exact (Dict.mem_keys_iff _ _).mpr ⟨lease,found⟩
    rw [List.sum_map_add,Dict.total_keys,owned]
  have ones : (e.holders p).length = (e.leases.keys.map fun i => e.grasp i p).sum := by
    rw [holders,← List.countP_eq_length_filter,countP_eq_sum]
    congr 1
    refine List.map_congr_left fun i _ => ?_
    have most := grasp_le_one sound i p
    split
    · rename_i some_held
      have least := of_decide_eq_true some_held
      omega
    · rename_i none_held
      have nothing : ¬ 0 < e.grasp i p := by simpa using none_held
      omega
  rw [Semaphore.total] at conserved
  omega

theorem blocked_above (sound : e.Sound) {j : LeaseId} (holds : 0 < e.grasp j p)
    (blocked : e.blockedOn j q) : p.rank < q.rank := by
  obtain ⟨c,pending⟩ := blocked
  obtain ⟨lease,a,found,lease_sound,acquiring,rfl⟩ :=
    sound.queued_at (Semaphore.mem_callers_of_future? pending)
  rw [grasp,found,Option.map_some,Option.getD_some] at holds
  rcases Nat.eq_zero_or_pos (lease.own.count p) with none_own | own
  · rw [none_own,Nat.zero_add,List.countP_pos_iff] at holds
    obtain ⟨⟨i,c'⟩,owns,same⟩ := holds
    obtain rfl : i = j := of_decide_eq_true same
    obtain ⟨lease',a',found',_,acquiring',rfl⟩ := sound.queued_at (mem_callers_of_owners owns)
    obtain rfl := Option.some.inj (found.symm.trans found')
    obtain rfl := lease_sound.acquires_once acquiring acquiring'
    obtain rfl := Option.some.inj (acquiring.symm.trans acquiring')
    -- its future would be pending and granted at once
    obtain ⟨future,known,granted⟩ := (Semaphore.mem_owners (sound.distinct _)).mp owns
    obtain rfl := Option.some.inj (pending.symm.trans known)
    cases granted
  · have got := (lease_sound.own_acquiring acquiring).mem_iff.mp (List.count_pos_iff.mp own)
    exact got_before lease_sound acquiring got

theorem waitsFor_acyclic (sound : e.Sound) : Digraph.Acyclic e.waitsFor := by
  have climbs {i j : LeaseId} (path : Relation.TransGen e.waitsFor i j) :
      ∃ p, e.blockedOn i p ∧ ∀ q, e.blockedOn j q → p.rank < q.rank := by
    induction path with
    | single edge =>
      obtain ⟨p,blocked,holds⟩ := edge
      exact ⟨p,blocked,fun q => blocked_above sound holds⟩
    | tail _ edge ih =>
      obtain ⟨p,blocked,above⟩ := ih
      obtain ⟨q,between,holds⟩ := edge
      exact ⟨p,blocked,fun r last => (above q between).trans (blocked_above sound holds last)⟩
  intro i cycle
  obtain ⟨p,blocked,above⟩ := climbs cycle
  exact lt_irrefl _ (above p blocked)

theorem left_empty (sound : e.Sound) (found : e.leases.get? i = some lease)
    (left : lease.main = .left) (idle : ∀ c, lease.acquisition? c = none) (p : Permit) :
    e.grasp i p = 0 := by
  have lease_sound := sound.leases i lease found
  have unheld : lease.held = none := by
    cases keeps : lease.held with
    | none => rfl
    | some got =>
      have body := lease_sound.inside.mp (lease_sound.kept got keeps).2
      rw [left] at body
      cases body
  have unqueued : (e.desk.resourceSlot p).owners.countP (fun c => c.1 = i) = 0 := by
    refine List.countP_eq_zero.mpr fun other owns same => ?_
    obtain ⟨j,c⟩ := other
    obtain rfl : j = i := of_decide_eq_true same
    obtain ⟨lease',a,found',_,acquiring,_⟩ := sound.queued_at (mem_callers_of_owners owns)
    obtain rfl := Option.some.inj (found.symm.trans found')
    rw [idle c] at acquiring
    cases acquiring
  rw [grasp,found,Option.map_some,Option.getD_some,own_idle unheld idle,unqueued]
  rfl

/-- An exited invocation may still have permits only while one of its waits reacquires them. -/
theorem admission_safe (resourceCapacities : Dict String Nat) (maxConcurrency : Option Nat)
    (e : Engine)
    (reached : Transition.Reachable step (idle resourceCapacities maxConcurrency) e) :
    (∀ p, (e.desk.resourceSlot p).value + (e.holders p).length = e.desk.capacity p) ∧
      (∀ i p, e.grasp i p ≤ 1) ∧
      (∀ i lease, e.leases.get? i = some lease → lease.main = .left →
        (∀ c, lease.acquisition? c = none) → ∀ p, e.grasp i p = 0) ∧
      Digraph.Acyclic e.waitsFor := by
  have sound := reachable_sound reached
  refine ⟨holders_count sound,grasp_le_one sound,?_,waitsFor_acyclic sound⟩
  intro i lease found left idle p
  exact left_empty sound found left idle p

/-- One slot. The first invocation gives it up, the second takes it, the first resumes its lane
and waits for the slot; then its body returns. -/
def leftover : Engine :=
  Transition.offer step (idle .empty (some 1))
    [.start 0 ⟨false,[]⟩ [] none,.wait 0 0 false,.start 1 ⟨true,[]⟩ [] none,
      .settle 0 0 false,.exit 0]

theorem leftover_holds_lane : ¬ ∀ e, Transition.Reachable step (idle .empty (some 1)) e →
    ∀ i lease, e.leases.get? i = some lease → lease.main = .left → ∀ p, e.grasp i p = 0 := by
  intro never
  have reached : Transition.Reachable step (idle .empty (some 1)) leftover :=
    Transition.reachable_offer _
  obtain ⟨lease,found,left⟩ : ∃ lease, leftover.leases.get? 0 = some lease ∧ lease.main = .left :=
    ⟨_,rfl,rfl⟩
  have nothing := never leftover reached 0 lease found left (.lane "compute")
  have held : leftover.grasp 0 (.lane "compute") = 1 := by decide
  omega

theorem admission_safe_leftover :
    (leftover.desk.resourceSlot .invoke).value + (leftover.holders .invoke).length = 1 ∧
      Digraph.Acyclic leftover.waitsFor := by
  have safe := admission_safe .empty (some 1) leftover (Transition.reachable_offer _)
  exact ⟨safe.1 .invoke,safe.2.2.2⟩

end Engine

end Dinkster.Admission
