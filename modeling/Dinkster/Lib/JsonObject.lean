import Dinkster.Lib.Fallible
import Dinkster.Lib.Json
import Mathlib.Data.List.Nodup

/-! Reading the members of a JSON object by name, and objects whose optional members are
written only when they say something. -/
namespace Json

abbrev Object := List (String × Value)

namespace Object

/-- `obj.get(key)` -/
def get? (obj : Object) (key : String) : Option Value := obj.lookup key

def writtenIf (present : Bool) (key : String) (v : Value) : Object :=
  if present then [(key,v)] else []

@[simp] theorem get?_nil (key : String) : get? [] key = none := rfl

theorem get?_cons (key other : String) (v : Value) (rest : Object) :
    get? ((other,v) :: rest) key = if key = other then some v else get? rest key := by
  rw [get?,List.lookup_cons]
  by_cases same : key = other
  · rw [if_pos same,beq_iff_eq.mpr same]
  · rw [if_neg same,beq_eq_false_iff_ne.mpr same]
    rfl

theorem get?_single (key : String) (v : Value) : get? [(key,v)] key = some v := by
  rw [get?_cons,if_pos rfl]

theorem get?_append (front rest : Object) (key : String) :
    get? (front ++ rest) key = (get? front key).or (get? rest key) := List.lookup_append

theorem get?_writtenIf (present : Bool) (key other : String) (v : Value) :
    get? (writtenIf present other v) key = if key = other ∧ present then some v else none := by
  cases present with
  | true => simp only [writtenIf,if_true,get?_cons,get?_nil,and_true]
  | false => simp [writtenIf]

theorem get?_writtenIf_append (present : Bool) (key other : String) (v : Value) (rest : Object) :
    get? (writtenIf present other v ++ rest) key =
      if key = other ∧ present then some v else get? rest key := by
  rw [get?_append,get?_writtenIf]
  split <;> rfl

theorem sizeOf_get? {obj : Object} {key : String} {v : Value} (found : obj.get? key = some v) :
    sizeOf v < sizeOf obj := by
  induction obj with
  | nil => cases found
  | cons e rest ih =>
    obtain ⟨name,w⟩ := e
    rw [get?_cons] at found
    split at found
    · rw [← Option.some.inj found]
      simp only [List.cons.sizeOf_spec,Prod.mk.sizeOf_spec]
      omega
    · have smaller := ih found
      simp only [List.cons.sizeOf_spec]
      omega

/-- `get?` for recursive readers: the member is smaller than the object. -/
def member? (obj : Object) (key : String) : Option {v : Value // sizeOf v < sizeOf obj} :=
  match found : obj.get? key with
  | none => none
  | some v => some ⟨v,sizeOf_get? found⟩

theorem member?_none {obj : Object} {key : String} (absent : obj.get? key = none) :
    obj.member? key = none := by
  unfold member?
  split
  · rfl
  · rename_i found
    rw [absent] at found
    cases found

theorem member?_some {obj : Object} {key : String} {v : Value} (found : obj.get? key = some v) :
    obj.member? key = some ⟨v,sizeOf_get? found⟩ := by
  unfold member?
  split
  · rename_i absent
    rw [absent] at found
    cases found
  · rename_i w found'
    have same : w = v := Option.some.inj (found'.symm.trans found)
    subst same
    rfl

theorem get?_eq_some_iff {members : Object} (distinct : (members.map (·.1)).Nodup) {key : String}
    {v : Value} : get? members key = some v ↔ (key,v) ∈ members := by
  induction members with
  | nil => simp
  | cons m rest ih =>
    obtain ⟨name,w⟩ := m
    obtain ⟨fresh,distinct⟩ := List.nodup_cons.mp distinct
    rw [get?_cons,List.mem_cons,Prod.mk.injEq]
    by_cases same : key = name
    · subst same
      rw [if_pos rfl,Option.some.injEq]
      refine ⟨fun equal => Or.inl ⟨rfl,equal.symm⟩,?_⟩
      rintro (⟨-,equal⟩ | later)
      · exact equal.symm
      · exact absurd (List.mem_map.mpr ⟨_,later,rfl⟩) fresh
    · rw [if_neg same,ih distinct]
      simp [same]

theorem get?_isSome_iff {members : Object} {key : String} :
    (get? members key).isSome ↔ key ∈ members.map (·.1) := by
  induction members with
  | nil => simp
  | cons m rest ih =>
    rw [get?_cons,List.map_cons,List.mem_cons]
    by_cases same : key = m.1
    · simp [same]
    · rw [if_neg same,ih]
      simp [same]

end Object

/-- Error texts name the failing place; `shown` are the values a text ends with. -/
structure WireError where
  text : String
  shown : List Value

def asStrings : List Value → Option (List String)
  | [] => some []
  | .str s :: rest => (asStrings rest).map (s :: ·)
  | _ :: _ => none

theorem asStrings_str (ss : List String) : asStrings (ss.map .str) = some ss := by
  induction ss with
  | nil => rfl
  | cons s ss ih => rw [List.map_cons,asStrings,ih,Option.map_some]

end Json
