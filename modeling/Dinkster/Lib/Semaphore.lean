import Mathlib.Data.List.Basic
import Mathlib.Data.List.Nodup
import Mathlib.Data.List.Count

/-! A counting semaphore with a queue of futures, as the tasks of one event loop share it.
A permit that has been handed to a waiter is out of the count before the waiter runs. -/

universe u

namespace Semaphore

/-- The future of a waiter; `revoked` is a granted one whose task was cancelled before it ran. -/
inductive Future
  | pending
  | granted
  | cancelled
  | revoked
  deriving DecidableEq

def Future.owns : Future → Bool
  | .granted | .revoked => true
  | .pending | .cancelled => false

/-- What `Task.cancel` makes of the future its task waits on. -/
def Future.cancel : Future → Future
  | .pending => .cancelled
  | .granted => .revoked
  | done => done

theorem Future.owns_cancel (future : Future) : future.cancel.owns = future.owns := by
  cases future <;> rfl

end Semaphore

open Semaphore in
structure Semaphore (ω : Type u) where
  value : Nat
  waiters : List (ω × Future) := []

namespace Semaphore

variable {ω : Type u} (s : Semaphore ω)

def callers : List ω := s.waiters.map (·.1)

def owners : List ω := (s.waiters.filter (·.2.owns)).map (·.1)

/-- What is free and what has been handed over. -/
def total : Nat := s.value + s.owners.length

def locked : Bool := s.value == 0 || s.waiters.any fun w => decide (w.2 ≠ .cancelled)

def grantFirst : List (ω × Future) → Option (List (ω × Future))
  | [] => none
  | (w,.pending) :: rest => some ((w,.granted) :: rest)
  | w :: rest => (grantFirst rest).map (w :: ·)

def wakeUpNext : Option (Semaphore ω) :=
  (grantFirst s.waiters).map fun waiters => ⟨s.value - 1,waiters⟩

def release : Semaphore ω :=
  let freed : Semaphore ω := { s with value := s.value + 1 }
  freed.wakeUpNext.getD freed

/-- `while value > 0` and somebody waits: wake the next one. -/
def wake : Nat → List (ω × Future) → Semaphore ω
  | 0,waiters => ⟨0,waiters⟩
  | n + 1,waiters =>
    match grantFirst waiters with
    | some waiters => wake n waiters
    | none => ⟨n + 1,waiters⟩

/-- `acquire` without a suspension. -/
def take? : Option (Semaphore ω) :=
  if s.locked then none else some { s with value := s.value - 1 }

/-- `acquire` up to its suspension. -/
def enqueue (w : ω) : Semaphore ω := { s with waiters := s.waiters ++ [(w,.pending)] }

variable [DecidableEq ω]

def future? (w : ω) : Option Future := (s.waiters.find? (·.1 = w)).map (·.2)

def others (w : ω) : List (ω × Future) := s.waiters.filter (·.1 ≠ w)

def resume (w : ω) : Semaphore ω := wake s.value (s.others w)

/-- `acquire` left by a cancellation; a permit already handed over goes back. -/
def abandon (w : ω) : Semaphore ω :=
  wake (if s.future? w = some .revoked then s.value + 1 else s.value) (s.others w)

/-- The task that waits on the future is cancelled. -/
def cancel (w : ω) : Semaphore ω :=
  { s with waiters := s.waiters.map fun e => if e.1 = w then (e.1,e.2.cancel) else e }

omit [DecidableEq ω]
variable {s}

theorem grantFirst_spec {waiters next : List (ω × Future)} (woken : grantFirst waiters = some next) :
    next.map (·.1) = waiters.map (·.1) ∧
      (next.filter (·.2.owns)).length = (waiters.filter (·.2.owns)).length + 1 := by
  induction waiters generalizing next with
  | nil => cases woken
  | cons w rest ih =>
    obtain ⟨w,future⟩ := w
    by_cases first : future = .pending
    · subst first
      obtain rfl := Option.some.inj woken
      simp [Future.owns]
    · have later : (grantFirst rest).map ((w,future) :: ·) = some next := by
        cases future <;> first | exact absurd rfl first | exact woken
      obtain ⟨tail,found,rfl⟩ := Option.map_eq_some_iff.mp later
      obtain ⟨keys,more⟩ := ih found
      constructor
      · rw [List.map_cons,List.map_cons,keys]
      · rw [List.filter_cons,List.filter_cons]
        split
        · rw [List.length_cons,List.length_cons,more]
        · exact more

@[simp] theorem callers_release : s.release.callers = s.callers := by
  unfold release wakeUpNext
  cases woken : grantFirst s.waiters with
  | none => simp [woken,callers]
  | some next => simpa [woken,callers] using (grantFirst_spec woken).1

theorem total_release : s.release.total = s.total + 1 := by
  unfold release wakeUpNext
  cases woken : grantFirst s.waiters with
  | none =>
    simp only [woken,Option.map_none,Option.getD_none,total,owners]
    omega
  | some next =>
    have more := (grantFirst_spec woken).2
    simp only [woken,Option.map_some,Option.getD_some,total,owners,List.length_map]
    omega

@[simp] theorem callers_wake (n : Nat) (waiters : List (ω × Future)) :
    (wake n waiters).callers = waiters.map (·.1) := by
  induction n generalizing waiters with
  | zero => rfl
  | succ n ih =>
    unfold wake
    cases woken : grantFirst waiters with
    | none => rfl
    | some next => exact (ih next).trans (grantFirst_spec woken).1

theorem total_wake (n : Nat) (waiters : List (ω × Future)) :
    (wake n waiters).total = n + (waiters.filter (·.2.owns)).length := by
  induction n generalizing waiters with
  | zero => simp [wake,total,owners]
  | succ n ih =>
    unfold wake
    cases woken : grantFirst waiters with
    | none => simp [total,owners]
    | some next =>
      have more := (grantFirst_spec woken).2
      have rest := ih next
      dsimp only
      omega

theorem take?_spec {t : Semaphore ω} (taken : s.take? = some t) :
    t.callers = s.callers ∧ t.total + 1 = s.total := by
  unfold take? at taken
  split at taken
  · cases taken
  · rename_i free
    obtain rfl := Option.some.inj taken
    have some_left : s.value ≠ 0 := by
      intro none_left
      simp [locked,none_left] at free
    refine ⟨rfl,?_⟩
    simp only [total,owners]
    omega

@[simp] theorem callers_enqueue (w : ω) : (s.enqueue w).callers = s.callers ++ [w] := by
  simp [enqueue,callers]

@[simp] theorem total_enqueue (w : ω) : (s.enqueue w).total = s.total := by
  simp [enqueue,total,owners,Future.owns]

variable [DecidableEq ω]

theorem callers_others (w : ω) : (s.others w).map (·.1) = s.callers.filter (· ≠ w) := by
  rw [others,callers,List.filter_map]
  rfl

theorem future?_of_mem {w : ω} {future : Future} (distinct : s.callers.Nodup)
    (inside : (w,future) ∈ s.waiters) : s.future? w = some future := by
  obtain ⟨e,found⟩ : ∃ e, s.waiters.find? (·.1 = w) = some e := by
    rw [← Option.isSome_iff_exists,List.find?_isSome]
    exact ⟨_,inside,by simp⟩
  have key : e.1 = w := of_decide_eq_true (List.find?_some (p := fun e : ω × Future => e.1 = w) found)
  have same : e = (w,future) :=
    List.inj_on_of_nodup_map distinct (List.mem_of_find?_eq_some found) inside key
  rw [future?,found,same]
  rfl

theorem mem_of_future? {w : ω} {future : Future} (found : s.future? w = some future) :
    (w,future) ∈ s.waiters := by
  obtain ⟨e,first,rfl⟩ := Option.map_eq_some_iff.mp found
  have key : e.1 = w := of_decide_eq_true (List.find?_some (p := fun e : ω × Future => e.1 = w) first)
  rw [← key]
  exact List.mem_of_find?_eq_some first

theorem mem_callers_of_future? {w : ω} {future : Future} (found : s.future? w = some future) :
    w ∈ s.callers := List.mem_map_of_mem (mem_of_future? found)

theorem mem_owners {w : ω} (distinct : s.callers.Nodup) :
    w ∈ s.owners ↔ ∃ future, s.future? w = some future ∧ future.owns = true := by
  constructor
  · intro inside
    obtain ⟨e,member,rfl⟩ := List.mem_map.mp inside
    obtain ⟨here,owns⟩ := List.mem_filter.mp member
    exact ⟨e.2,future?_of_mem distinct here,owns⟩
  · rintro ⟨future,found,owns⟩
    exact List.mem_map.mpr ⟨_,List.mem_filter.mpr ⟨mem_of_future? found,owns⟩,rfl⟩

omit [DecidableEq ω] in
theorem owners_nodup (distinct : s.callers.Nodup) : s.owners.Nodup :=
  distinct.sublist (List.filter_sublist.map _)

theorem owners_others {w : ω} {future : Future} (distinct : s.callers.Nodup)
    (found : s.future? w = some future) :
    ((s.others w).filter (·.2.owns)).length + (if future.owns then 1 else 0) =
      s.owners.length := by
  have inside := mem_of_future? found
  unfold callers at distinct
  unfold others owners
  rw [List.length_map]
  generalize s.waiters = waiters at inside distinct
  induction waiters with
  | nil => cases inside
  | cons e rest ih =>
    obtain ⟨fresh,rest_distinct⟩ := List.nodup_cons.mp distinct
    rcases List.mem_cons.mp inside with rfl | later
    · have none_left : rest.filter (·.1 ≠ w) = rest := by
        refine List.filter_eq_self.mpr fun e' member => decide_eq_true fun same => fresh ?_
        exact List.mem_map.mpr ⟨e',member,same⟩
      simp only [List.filter_cons,none_left]
      by_cases owns : future.owns = true <;> simp [owns]
    · have other : e.1 ≠ w := fun same => fresh (List.mem_map.mpr ⟨_,later,same.symm⟩)
      have shorter := ih later rest_distinct
      simp only [List.filter_cons,decide_eq_true other,if_true]
      by_cases owns : e.2.owns = true
      · simp only [owns,if_true,List.length_cons]
        omega
      · simp only [owns]
        exact shorter

theorem callers_resume (w : ω) : (s.resume w).callers = s.callers.filter (· ≠ w) :=
  (callers_wake _ _).trans (callers_others w)

theorem total_resume {w : ω} (distinct : s.callers.Nodup) (found : s.future? w = some .granted) :
    (s.resume w).total + 1 = s.total := by
  have fewer : _ + 1 = _ := owners_others distinct found
  rw [resume,total_wake,total]
  omega

theorem callers_abandon (w : ω) : (s.abandon w).callers = s.callers.filter (· ≠ w) :=
  (callers_wake _ _).trans (callers_others w)

theorem total_abandon {w : ω} {future : Future} (distinct : s.callers.Nodup)
    (found : s.future? w = some future) (left : future = .cancelled ∨ future = .revoked) :
    (s.abandon w).total = s.total := by
  rw [abandon,total_wake,total,found]
  rcases left with rfl | rfl
  · have fewer := owners_others distinct found
    rw [if_neg (by decide)] at fewer ⊢
    omega
  · have fewer : _ + 1 = _ := owners_others distinct found
    rw [if_pos rfl]
    omega

@[simp] theorem callers_cancel (w : ω) : (s.cancel w).callers = s.callers := by
  rw [cancel,callers,List.map_map]
  refine List.map_congr_left fun e _ => ?_
  rw [Function.comp_apply]
  split <;> rfl

@[simp] theorem owners_cancel (w : ω) : (s.cancel w).owners = s.owners := by
  rw [cancel,owners,owners,List.filter_map,List.map_map]
  have kept : ((fun e : ω × Future => e.2.owns) ∘
      fun e => if e.1 = w then (e.1,e.2.cancel) else e) = fun e => e.2.owns := by
    funext e
    rw [Function.comp_apply]
    split
    · exact Future.owns_cancel e.2
    · rfl
  rw [kept]
  refine List.map_congr_left fun e _ => ?_
  rw [Function.comp_apply]
  split <;> rfl

@[simp] theorem total_cancel (w : ω) : (s.cancel w).total = s.total := by
  rw [total,owners_cancel,total]
  rfl

end Semaphore
