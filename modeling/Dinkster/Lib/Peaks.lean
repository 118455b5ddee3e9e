import Dinkster.Lib.Dict
import Mathlib.Algebra.BigOperators.Group.Finset.Basic
import Mathlib.Algebra.Order.BigOperators.Group.Finset

/-! Weights declared under keys, where one key counts once and with its largest weight: the
total of such a list, and how it changes when the list does. -/
namespace Peaks

universe u
variable {κ : Type u} [DecidableEq κ]

def peak (weights : List (κ × Nat)) (k : κ) : Nat :=
  weights.foldr (fun w most => if w.1 = k then max w.2 most else most) 0

def total (weights : List (κ × Nat)) : Nat :=
  ∑ k ∈ (weights.map (·.1)).toFinset, peak weights k

variable {weights more : List (κ × Nat)} {k : κ}

theorem peak_le_iff {n : Nat} : peak weights k ≤ n ↔ ∀ w ∈ weights, w.1 = k → w.2 ≤ n := by
  induction weights with
  | nil => simp [peak]
  | cons w weights ih =>
    rw [List.forall_mem_cons,← ih]
    unfold peak
    rw [List.foldr_cons]
    split
    · rename_i here
      simp [here]
    · rename_i apart
      simp [apart]

theorem peak_le {n : Nat} (bound : ∀ w ∈ weights, w.1 = k → w.2 ≤ n) : peak weights k ≤ n :=
  peak_le_iff.mpr bound

theorem le_peak {w : κ × Nat} (inside : w ∈ weights) : w.2 ≤ peak weights w.1 :=
  peak_le_iff.mp le_rfl w inside rfl

theorem peak_mono (sub : weights ⊆ more) : peak weights k ≤ peak more k :=
  peak_le fun _ inside here => here ▸ le_peak (sub inside)

theorem peak_absent (absent : k ∉ weights.map (·.1)) : peak weights k = 0 := by
  refine Nat.le_zero.mp (peak_le fun w inside here => ?_)
  exact absurd (List.mem_map.mpr ⟨w,inside,here⟩) absent

theorem peak_append : peak (weights ++ more) k = max (peak weights k) (peak more k) := by
  refine le_antisymm (peak_le fun w inside here => ?_) (max_le ?_ ?_)
  · rcases List.mem_append.mp inside with first | second
    · exact le_max_of_le_left (here ▸ le_peak first)
    · exact le_max_of_le_right (here ▸ le_peak second)
  · exact peak_mono (List.subset_append_left _ _)
  · exact peak_mono (List.subset_append_right _ _)

theorem total_eq (keys : Finset κ) (known : ∀ w, w ∈ weights → w.1 ∈ keys) :
    total weights = ∑ k ∈ keys, peak weights k := by
  refine Finset.sum_subset (fun k inside => ?_) fun k _ absent => ?_
  · obtain ⟨w,declared,rfl⟩ := List.mem_map.mp (List.mem_toFinset.mp inside)
    exact known w declared
  · exact peak_absent fun inside => absent (List.mem_toFinset.mpr inside)

theorem total_mono (sub : weights ⊆ more) : total weights ≤ total more := by
  rw [total_eq (more.map (·.1)).toFinset fun w inside =>
    List.mem_toFinset.mpr (List.mem_map.mpr ⟨w,sub inside,rfl⟩)]
  exact Finset.sum_le_sum fun k _ => peak_mono sub

private theorem total_both (weights more : List (κ × Nat)) :
    total weights + total more = ∑ k ∈ ((weights ++ more).map (·.1)).toFinset,
      (peak weights k + peak more k) := by
  rw [Finset.sum_add_distrib]
  refine congrArg₂ (· + ·) (total_eq _ fun w inside => ?_) (total_eq _ fun w inside => ?_)
  · exact List.mem_toFinset.mpr (List.mem_map.mpr ⟨w,List.mem_append_left _ inside,rfl⟩)
  · exact List.mem_toFinset.mpr (List.mem_map.mpr ⟨w,List.mem_append_right _ inside,rfl⟩)

theorem total_append_le : total (weights ++ more) ≤ total weights + total more := by
  rw [total_both,total]
  refine Finset.sum_le_sum fun k _ => ?_
  rw [peak_append]
  exact max_le (Nat.le_add_right _ _) (Nat.le_add_left _ _)

theorem total_append (apart : ∀ w ∈ weights, ∀ w' ∈ more, w.1 = w'.1 → w.2 = 0 ∨ w'.2 = 0) :
    total (weights ++ more) = total weights + total more := by
  refine le_antisymm total_append_le ?_
  rw [total_both,total]
  refine Finset.sum_le_sum fun k _ => ?_
  rw [peak_append]
  by_cases idle : peak weights k = 0
  · rw [idle,zero_add]
    exact le_max_right _ _
  · have silent : peak more k = 0 := by
      refine Nat.le_zero.mp (peak_le fun w' inside' here' => ?_)
      by_contra loud
      refine idle (Nat.le_zero.mp (peak_le fun w inside here => ?_))
      rcases apart w inside w' inside' (here.trans here'.symm) with none | none
      · exact none.le
      · exact absurd none.le loud
    rw [silent,add_zero]
    exact le_max_left _ _

theorem exists_of_total_pos (positive : 0 < total weights) : ∃ w ∈ weights, 0 < w.2 := by
  by_contra none
  push Not at none
  refine positive.ne' (Finset.sum_eq_zero fun k _ => Nat.le_zero.mp ?_)
  exact peak_le fun w inside _ => none w inside

theorem total_pos {w : κ × Nat} (inside : w ∈ weights) (positive : 0 < w.2) : 0 < total weights := by
  refine (positive.trans_le (le_peak inside)).trans_le ?_
  exact Finset.single_le_sum (f := peak weights) (fun _ _ => Nat.zero_le _)
    (List.mem_toFinset.mpr (List.mem_map.mpr ⟨w,inside,rfl⟩))

/-- `costs[key] = max(costs.get(key, 0), weight)` for a positive weight. -/
def charge (costs : Dict κ Nat) (w : κ × Nat) : Dict κ Nat :=
  if 0 < w.2 then costs.set w.1 (max ((costs.get? w.1).getD 0) w.2) else costs

theorem get?_charge (costs : Dict κ Nat) (w : κ × Nat) (k : κ) :
    ((charge costs w).get? k).getD 0 =
      max ((costs.get? k).getD 0) (if w.1 = k then w.2 else 0) := by
  unfold charge
  split
  · rw [Dict.get?_set]
    by_cases here : k = w.1
    · subst here
      rw [if_pos rfl,if_pos rfl,Option.getD_some]
    · rw [if_neg here,if_neg (Ne.symm here),max_eq_left (Nat.zero_le _)]
  · rename_i nothing
    have zero : (if w.1 = k then w.2 else 0) = 0 := by
      split <;> omega
    rw [zero,max_eq_left (Nat.zero_le _)]

theorem get?_charged (costs : Dict κ Nat) (k : κ) :
    ((weights.foldl charge costs).get? k).getD 0 =
      max ((costs.get? k).getD 0) (peak weights k) := by
  induction weights generalizing costs with
  | nil => exact (max_eq_left (Nat.zero_le _)).symm
  | cons w weights ih =>
    rw [List.foldl_cons,ih,get?_charge,max_assoc]
    congr 1
    unfold peak
    rw [List.foldr_cons]
    split
    · rfl
    · exact max_eq_right (Nat.zero_le _)

theorem total_charged (weights : List (κ × Nat)) :
    (weights.foldl charge Dict.empty).total id = total weights := by
  generalize counted : weights.foldl charge Dict.empty = costs
  have largest (k : κ) : (costs.get? k).getD 0 = peak weights k := by
    rw [← counted,get?_charged,Dict.get?_empty,Option.getD_none]
    exact max_eq_right (Nat.zero_le _)
  have listed : costs.total id = ∑ k ∈ costs.keys.toFinset, peak weights k := by
    refine Eq.trans ?_ (List.sum_toFinset (peak weights) (l := costs.keys) costs.distinct).symm
    rw [← Dict.total_keys]
    congr 1
    refine List.map_congr_left fun k _ => ?_
    rw [Option.map_id,id,largest]
  rw [listed]
  have wider := total_eq (costs.keys.toFinset ∪ (weights.map (·.1)).toFinset) fun w inside =>
    Finset.mem_union_right _ (List.mem_toFinset.mpr (List.mem_map.mpr ⟨w,inside,rfl⟩))
  rw [wider]
  refine Finset.sum_subset Finset.subset_union_left fun k _ absent => ?_
  have unlisted : costs.get? k = none :=
    (Dict.get?_eq_none_iff _ _).mpr fun inside => absent (List.mem_toFinset.mpr inside)
  rw [← largest,unlisted,Option.getD_none]

end Peaks
