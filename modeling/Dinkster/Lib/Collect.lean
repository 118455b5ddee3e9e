import Dinkster.Lib.Dict
import Dinkster.Lib.Fallible

/-! Rows that each may make a value are collected in a dictionary, and two different values under
one key are a conflict. Whether the collection succeeds and what it holds does not depend on the
order of the rows. -/
namespace Collect
open Fallible

universe u v
variable {ρ : Type u} {ε : Type v} {κ : Type*} {ν : Type*} [DecidableEq κ] [DecidableEq ν]

def insertNew (key : ν → κ) (conflict : ε) (d : Dict κ ν) (v : ν) : Except ε (Dict κ ν) :=
  if (d.get? (key v)).any (· ≠ v) then .error conflict else .ok (d.set (key v) v)

def add (make : ρ → Except ε (Option ν)) (key : ν → κ) (conflict : ε) (d : Dict κ ν) (row : ρ) :
    Except ε (Dict κ ν) :=
  match make row with
  | .error error => .error error
  | .ok none => .ok d
  | .ok (some v) => insertNew key conflict d v

variable {make : ρ → Except ε (Option ν)} {key : ν → κ} {conflict : ε}

/-- A dictionary's own entries and the values that rows make. -/
def Holds (make : ρ → Except ε (Option ν)) (key : ν → κ) (d : Dict κ ν) (rows : List ρ) (k : κ)
    (v : ν) : Prop :=
  d.get? k = some v ∨ ∃ row ∈ rows, make row = .ok (some v) ∧ key v = k

theorem insertNew_ok {d d' : Dict κ ν} {v : ν} (done : insertNew key conflict d v = .ok d') :
    (∀ w, d.get? (key v) = some w → w = v) ∧ d' = d.set (key v) v := by
  unfold insertNew at done
  split at done
  · cases done
  · rename_i clear
    refine ⟨fun w held => ?_,(Except.ok.inj done).symm⟩
    simpa [held] using clear

theorem add_ok {d d' : Dict κ ν} {row : ρ} (done : add make key conflict d row = .ok d') :
    (∃ made, make row = .ok made) ∧ ∀ k v, d'.get? k = some v ↔ Holds make key d [row] k v := by
  unfold add at done
  split at done
  · cases done
  · rename_i made
    obtain rfl := Except.ok.inj done
    exact ⟨⟨_,made⟩,fun k v => by simp [Holds,made]⟩
  · rename_i w made
    obtain ⟨agrees,rfl⟩ := insertNew_ok done
    refine ⟨⟨_,made⟩,fun k v => ?_⟩
    simp only [Holds,List.mem_singleton,exists_eq_left,made,Except.ok.injEq,Option.some.injEq]
    by_cases same : k = key w
    · subst same
      rw [Dict.get?_set_self,Option.some.injEq]
      constructor
      · rintro rfl
        exact .inr ⟨rfl,rfl⟩
      · rintro (held | ⟨equal,-⟩)
        · exact (agrees v held).symm
        · exact equal
    · rw [Dict.get?_set_ne _ _ same]
      constructor
      · exact .inl
      · rintro (held | ⟨rfl,other⟩)
        · exact held
        · exact absurd other.symm same

omit [DecidableEq ν] in
theorem holds_cons {d e : Dict κ ν} {row : ρ} (rows : List ρ)
    (first : ∀ k v, e.get? k = some v ↔ Holds make key d [row] k v) (k : κ) (v : ν) :
    Holds make key e rows k v ↔ Holds make key d (row :: rows) k v := by
  simp [Holds,first,or_assoc]

theorem collect_ok (rows : List ρ) {d d' : Dict κ ν}
    (done : rows.foldlM (add make key conflict) d = .ok d') :
    (∀ row ∈ rows, ∃ made, make row = .ok made) ∧
      ∀ k v, d'.get? k = some v ↔ Holds make key d rows k v := by
  induction rows generalizing d with
  | nil =>
    obtain rfl := Except.ok.inj done
    exact ⟨by simp,fun k v => by simp [Holds]⟩
  | cons row rows ih =>
    obtain ⟨e,first,rest⟩ := bind_ok.mp done
    obtain ⟨made,one⟩ := add_ok first
    obtain ⟨others,all⟩ := ih rest
    exact ⟨List.forall_mem_cons.mpr ⟨made,others⟩,fun k v =>
      (all k v).trans (holds_cons rows one k v)⟩

theorem collect_total (rows : List ρ) {d : Dict κ ν}
    (makes : ∀ row ∈ rows, ∃ made, make row = .ok made)
    (single : ∀ k v w, Holds make key d rows k v → Holds make key d rows k w → v = w) :
    ∃ d', rows.foldlM (add make key conflict) d = .ok d' := by
  induction rows generalizing d with
  | nil => exact ⟨d,rfl⟩
  | cons row rows ih =>
    obtain ⟨⟨made,makesRow⟩,others⟩ := List.forall_mem_cons.mp makes
    obtain ⟨e,first⟩ : ∃ e, add make key conflict d row = .ok e := by
      unfold add
      rw [makesRow]
      cases made with
      | none => exact ⟨d,rfl⟩
      | some v =>
        refine ⟨d.set (key v) v,if_neg ?_⟩
        cases held : d.get? (key v) with
        | none => simp
        | some w =>
          have same := single (key v) w v (.inl held) (.inr ⟨row,List.mem_cons_self,makesRow,rfl⟩)
          simp [same]
    have one := holds_cons rows (add_ok first).2
    obtain ⟨d',rest⟩ := ih others fun k v w left right =>
      single k v w ((one k v).mp left) ((one k w).mp right)
    exact ⟨d',bind_ok.mpr ⟨e,first,rest⟩⟩

theorem collect_of_perm {rows rows' : List ρ} (listed : rows.Perm rows') {d e d' : Dict κ ν}
    (same : ∀ k, d.get? k = e.get? k) (done : rows.foldlM (add make key conflict) d = .ok d') :
    ∃ e', rows'.foldlM (add make key conflict) e = .ok e' ∧ ∀ k, d'.get? k = e'.get? k := by
  obtain ⟨makes,held⟩ := collect_ok rows done
  have alike (k : κ) (v : ν) : Holds make key e rows' k v ↔ Holds make key d rows k v := by
    simp only [Holds,same,listed.mem_iff]
  have single (k : κ) (v w : ν) (left : Holds make key e rows' k v)
      (right : Holds make key e rows' k w) : v = w := by
    have first := (held k v).mpr ((alike k v).mp left)
    have second := (held k w).mpr ((alike k w).mp right)
    exact Option.some.inj (first.symm.trans second)
  obtain ⟨e',done'⟩ : ∃ e', rows'.foldlM (add make key conflict) e = .ok e' :=
    collect_total rows' (fun row inside => makes row (listed.mem_iff.mpr inside)) single
  refine ⟨e',done',fun k => Option.ext fun v => ?_⟩
  rw [held,(collect_ok rows' done').2,alike]

end Collect
