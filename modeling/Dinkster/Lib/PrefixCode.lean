import Mathlib.Data.List.Basic

/-! Codes of which no word is the beginning of another one's continuation. A
concatenation of words is then read from the left without any separators. -/

universe u v

def PrefixFree {α : Type u} {β : Type v} (code : α → List β) : Prop :=
  ∀ a a' x y, code a ++ x = code a' ++ y → a = a' ∧ x = y

namespace PrefixFree

variable {α : Type u} {β : Type v} {code : α → List β}

theorem common (free : PrefixFree code) : ∀ (as bs : List α) (x y : List β),
    as.flatMap code ++ x = bs.flatMap code ++ y →
      ∃ same left right, as = same ++ left ∧ bs = same ++ right ∧ (left = [] ∨ right = []) ∧
        left.flatMap code ++ x = right.flatMap code ++ y
  | [],bs,_,_,equal => ⟨[],[],bs,rfl,rfl,.inl rfl,equal⟩
  | as,[],_,_,equal => ⟨[],as,[],rfl,rfl,.inr rfl,equal⟩
  | a :: as,b :: bs,x,y,equal => by
    simp only [List.flatMap_cons,List.append_assoc] at equal
    obtain ⟨rfl,rest⟩ := free a b _ _ equal
    obtain ⟨same,left,right,ha,hb,ended,rest⟩ := common free as bs x y rest
    exact ⟨a :: same,left,right,by rw [ha,List.cons_append],by rw [hb,List.cons_append],
      ended,rest⟩

end PrefixFree
