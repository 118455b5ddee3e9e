import Dinkster.Engine.Admission

/-! What the operations of the desk do to its permits, counters and queues: taking, giving back,
unwinding an exit stack, and an acquisition from one suspension to the next. -/
namespace Dinkster.Admission

namespace Desk

variable {d d' d'' : Desk} {p q : Permit} {c : Caller}

theorem resourceSlot_setSlot (slot : Semaphore Caller) :
    (d.setSlot p slot).resourceSlot q = if q = p then slot else d.resourceSlot q := by
  unfold resourceSlot setSlot
  rw [Dict.get?_set]
  split <;> rfl

@[simp] theorem resourceSlot_countLane (change : Int) :
    (d.countLane p change).resourceSlot q = d.resourceSlot q := by
  cases p <;> rfl

@[simp] theorem inUse_setSlot (slot : Semaphore Caller) (lane : String) :
    (d.setSlot p slot).inUse lane = d.inUse lane := rfl

theorem inUse_countLane (change : Int) (lane : String) :
    (d.countLane p change).inUse lane = d.inUse lane + if p = .lane lane then change else 0 := by
  cases p with
  | invoke => simp [countLane]
  | lane name =>
    rw [countLane,inUse,Dict.get?_set]
    by_cases same : lane = name
    · simp [same]
    · simp [same,Ne.symm same,inUse]

/-- Permits went over between the desk and a lease that held `before` and now holds `after`. -/
structure Shift (d d' : Desk) (before after : List Permit) : Prop where
  capacity : d'.capacity = d.capacity
  order : d'.order = d.order
  total : ∀ p, (d'.resourceSlot p).total + after.count p = (d.resourceSlot p).total + before.count p
  counted : ∀ lane, d'.inUse lane + before.count (.lane lane) =
    d.inUse lane + after.count (.lane lane)

theorem Shift.refl (held : List Permit) : Shift d d held held := ⟨rfl,rfl,fun _ => rfl,fun _ => rfl⟩

theorem Shift.trans {before between after : List Permit} (first : Shift d d' before between)
    (second : Shift d' d'' between after) : Shift d d'' before after := by
  refine ⟨second.capacity.trans first.capacity,second.order.trans first.order,fun p => ?_,
    fun lane => ?_⟩
  · have one := first.total p
    have two := second.total p
    omega
  · have one := first.counted lane
    have two := second.counted lane
    omega

theorem Shift.perm {before before' after after' : List Permit} (shift : Shift d d' before after)
    (left : before.Perm before') (right : after.Perm after') : Shift d d' before' after' := by
  refine ⟨shift.capacity,shift.order,fun p => ?_,fun lane => ?_⟩
  · rw [← left.count_eq,← right.count_eq]
    exact shift.total p
  · rw [← left.count_eq,← right.count_eq]
    exact shift.counted lane

/-- The queues afterwards: `c` waits for `at?`, the other callers where they were. -/
structure Requeued (d d' : Desk) (c : Caller) (at? : Option Permit) : Prop where
  distinct : ∀ p, (d'.resourceSlot p).callers.Nodup
  mine : ∀ p, c ∈ (d'.resourceSlot p).callers ↔ at? = some p
  others : ∀ c' ≠ c, ∀ p, c' ∈ (d'.resourceSlot p).callers ↔ c' ∈ (d.resourceSlot p).callers

theorem Requeued.trans {at? between : Option Permit} (first : Requeued d d' c between)
    (second : Requeued d' d'' c at?) : Requeued d d'' c at? :=
  ⟨second.distinct,second.mine,fun c' other p =>
    (second.others c' other p).trans (first.others c' other p)⟩

theorem Requeued.same {at? : Option Permit} (before : Requeued d d c at?)
    (same : ∀ p, (d'.resourceSlot p).callers = (d.resourceSlot p).callers) :
    Requeued d d' c at? := by
  refine ⟨fun p => ?_,fun p => ?_,fun c' _ p => ?_⟩
  · rw [same p]
    exact before.distinct p
  · rw [same p]
    exact before.mine p
  · rw [same p]

theorem shift_gain {slot : Semaphore Caller} (less : slot.total + 1 = (d.resourceSlot p).total)
    (got : List Permit) : Shift d ((d.setSlot p slot).countLane p 1) got (got ++ [p]) := by
  refine ⟨by cases p <;> rfl,by cases p <;> rfl,fun q => ?_,fun lane => ?_⟩
  · rw [resourceSlot_countLane,resourceSlot_setSlot,List.count_append,List.count_singleton]
    by_cases same : q = p
    · subst same
      simp only [if_true,beq_self_eq_true]
      omega
    · simp [same,Ne.symm same]
  · rw [inUse_countLane,inUse_setSlot,List.count_append,List.count_singleton]
    by_cases same : p = .lane lane
    · simp only [same,if_true,beq_self_eq_true]
      omega
    · simp [same]

theorem callers_take {slot : Semaphore Caller} (taken : (d.resourceSlot p).take? = some slot) :
    (((d.setSlot p slot).countLane p 1).resourceSlot q).callers =
      (d.resourceSlot q).callers := by
  rw [resourceSlot_countLane,resourceSlot_setSlot]
  split
  · rename_i same
    rw [same,(Semaphore.take?_spec taken).1]
  · rfl

theorem shift_giveBack (got : List Permit) : Shift d (d.giveBack p) (p :: got) got := by
  refine ⟨by cases p <;> rfl,by cases p <;> rfl,fun q => ?_,fun lane => ?_⟩
  · rw [giveBack,resourceSlot_setSlot,resourceSlot_countLane,List.count_cons]
    by_cases same : q = p
    · subst same
      simp only [if_true,beq_self_eq_true,Semaphore.total_release]
      omega
    · simp [same,Ne.symm same]
  · rw [giveBack,inUse_setSlot,inUse_countLane,List.count_cons]
    by_cases same : p = .lane lane
    · simp only [same,if_true,beq_self_eq_true]
      omega
    · simp [same]

theorem callers_giveBack :
    ((d.giveBack p).resourceSlot q).callers = (d.resourceSlot q).callers := by
  rw [giveBack,resourceSlot_setSlot,resourceSlot_countLane]
  split
  · rename_i same
    rw [same,Semaphore.callers_release]
  · rfl

theorem shift_unwind (got : List Permit) : Shift d (d.unwind got) got [] := by
  induction got with
  | nil => exact .refl []
  | cons p got ih =>
    -- the rest of the stack is unwound first; `p` is carried along
    have rest : Shift d (d.unwind got) (p :: got) [p] := by
      refine ⟨ih.capacity,ih.order,fun q => ?_,fun lane => ?_⟩
      · have moved := ih.total q
        rw [List.count_cons,List.count_cons]
        omega
      · have moved := ih.counted lane
        rw [List.count_cons,List.count_cons]
        push_cast
        omega
    exact rest.trans (shift_giveBack [])

theorem callers_unwind (got : List Permit) :
    ((d.unwind got).resourceSlot q).callers = (d.resourceSlot q).callers := by
  induction got with
  | nil => rfl
  | cons p got ih => exact callers_giveBack.trans ih

end Desk

open Desk

def Advance.keeps (order : List Permit) : Advance → List Permit
  | .complete => order
  | .blocked a => a.got
  | .cancelled => []

def Advance.next? : Advance → Option Permit
  | .blocked a => some a.next
  | _ => none

/-- What an acquisition of `order` by `c` did from one suspension to the next. -/
structure Advanced (d d' : Desk) (c : Caller) (before order : List Permit) (advance : Advance) :
    Prop where
  shift : Shift d d' before (advance.keeps order)
  queue : Requeued d d' c advance.next?
  fits : ∀ a, advance = .blocked a → order = a.got ++ a.next :: a.rest

theorem acquire_advanced {c : Caller} {d : Desk} (got rest : List Permit)
    (idle : Requeued d d c none) : Advanced d (d.acquire c got rest).1 c got (got ++ rest)
      (.ofAcquire (d.acquire c got rest).2) := by
  induction rest generalizing d got with
  | nil =>
    refine ⟨?_,idle,nofun⟩
    rw [List.append_nil]
    exact .refl got
  | cons p rest ih =>
    unfold acquire
    cases taken : (d.resourceSlot p).take? with
    | some slot =>
      have same (q : Permit) := callers_take (d := d) (q := q) taken
      have moved : Requeued d ((d.setSlot p slot).countLane p 1) c none := idle.same same
      have later := ih (d := (d.setSlot p slot).countLane p 1) (got ++ [p])
        ⟨moved.distinct,moved.mine,fun _ _ _ => Iff.rfl⟩
      have whole : got ++ p :: rest = got ++ [p] ++ rest := by simp
      rw [whole]
      have gained := shift_gain (Semaphore.take?_spec taken).2 got
      exact ⟨gained.trans later.shift,moved.trans later.queue,later.fits⟩
    | none =>
      refine ⟨⟨rfl,rfl,fun q => ?_,fun lane => rfl⟩,⟨fun q => ?_,fun q => ?_,fun c' other q => ?_⟩,?_⟩
      · dsimp only
        rw [resourceSlot_setSlot]
        split
        · rename_i same
          rw [Semaphore.total_enqueue,same]
          rfl
        · rfl
      · dsimp only
        rw [resourceSlot_setSlot]
        split
        · rw [Semaphore.callers_enqueue]
          refine List.nodup_append.mpr ⟨idle.distinct p,List.nodup_singleton c,?_⟩
          rintro a inside b new rfl
          rw [List.mem_singleton.mp new] at inside
          cases (idle.mine p).mp inside
        · exact idle.distinct q
      · dsimp only [Advance.ofAcquire,Advance.next?]
        rw [resourceSlot_setSlot,Option.some.injEq]
        split
        · rename_i same
          simp [same]
        · rename_i other
          constructor
          · intro inside
            cases (idle.mine q).mp inside
          · rintro rfl
            exact absurd rfl other
      · dsimp only
        rw [resourceSlot_setSlot]
        split
        · rename_i same
          rw [Semaphore.callers_enqueue,same]
          simp [other]
        · rfl
      · intro a same
        obtain rfl := Advance.blocked.inj same
        rfl

private theorem requeued_leave {d : Desk} {c : Caller} {p : Permit} {slot : Semaphore Caller}
    (waits : Requeued d d c (some p))
    (left : slot.callers = (d.resourceSlot p).callers.filter (· ≠ c)) :
    Requeued d (d.setSlot p slot) c none := by
  refine ⟨fun q => ?_,fun q => ?_,fun c' other q => ?_⟩
  · rw [resourceSlot_setSlot]
    split
    · rw [left]
      exact (waits.distinct p).filter _
    · exact waits.distinct q
  · rw [resourceSlot_setSlot]
    refine iff_of_false ?_ nofun
    split
    · simp [left]
    · rename_i elsewhere
      intro inside
      exact elsewhere (Option.some.inj ((waits.mine q).mp inside)).symm
  · rw [resourceSlot_setSlot]
    split
    · rename_i same
      simp [left,same,other]
    · rfl

private theorem abandon_advanced {d : Desk} {c : Caller} {a : Acquisition}
    {future : Semaphore.Future} (waits : Requeued d d c (some a.next))
    (found : (d.resourceSlot a.next).future? c = some future)
    (done : future = .cancelled ∨ future = .revoked) (order : List Permit) :
    Advanced d ((d.setSlot a.next ((d.resourceSlot a.next).abandon c)).unwind a.got) c a.got
      order .cancelled := by
  have kept := Semaphore.total_abandon (waits.distinct a.next) found done
  have left := requeued_leave waits (Semaphore.callers_abandon (s := d.resourceSlot a.next) c)
  have same : Shift d (d.setSlot a.next ((d.resourceSlot a.next).abandon c)) a.got a.got := by
    refine ⟨rfl,rfl,fun q => ?_,fun lane => rfl⟩
    rw [resourceSlot_setSlot]
    split
    · rename_i equal
      rw [equal,kept]
    · rfl
  have idle : Requeued (d.setSlot a.next ((d.resourceSlot a.next).abandon c)) _ c none :=
    ⟨left.distinct,left.mine,fun _ _ _ => Iff.rfl⟩
  exact ⟨same.trans (shift_unwind a.got),left.trans (idle.same fun p => callers_unwind a.got),
    nofun⟩

theorem goOn_advanced {d d' : Desk} {c : Caller} {a : Acquisition} {advance : Advance}
    (waits : Requeued d d c (some a.next)) (ran : d.goOn c a = some (d',advance)) :
    Advanced d d' c a.got (a.got ++ a.next :: a.rest) advance := by
  unfold goOn at ran
  split at ran
  · rename_i found
    obtain ⟨rfl,rfl⟩ := Prod.mk.inj (Option.some.inj ran)
    have left := requeued_leave waits (Semaphore.callers_resume (s := d.resourceSlot a.next) c)
    have counted : Requeued (d.setSlot a.next ((d.resourceSlot a.next).resume c)) _ c none :=
      (⟨left.distinct,left.mine,fun _ _ _ => Iff.rfl⟩ : Requeued _ _ c none).same fun p =>
        congrArg Semaphore.callers (resourceSlot_countLane (p := a.next) (q := p) 1)
    have later := acquire_advanced (a.got ++ [a.next]) a.rest
      (⟨counted.distinct,counted.mine,fun _ _ _ => Iff.rfl⟩ : Requeued _ _ c none)
    have whole : a.got ++ a.next :: a.rest = a.got ++ [a.next] ++ a.rest := by simp
    rw [whole]
    have gained := shift_gain (Semaphore.total_resume (waits.distinct a.next) found) a.got
    exact ⟨gained.trans later.shift,(left.trans counted).trans later.queue,later.fits⟩
  · rename_i found
    obtain ⟨rfl,rfl⟩ := Prod.mk.inj (Option.some.inj ran)
    exact abandon_advanced waits found (.inl rfl) _
  · rename_i found
    obtain ⟨rfl,rfl⟩ := Prod.mk.inj (Option.some.inj ran)
    exact abandon_advanced waits found (.inr rfl) _
  · cases ran

end Dinkster.Admission
