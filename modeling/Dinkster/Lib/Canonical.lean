import Mathlib.Data.List.Sort
import Mathlib.Order.Basic

/-! Sorting by a key and strictly increasing lists of facts over a fixed universe.
A canonical list is determined by its members, so adding a new fact, comparing
with the whole universe and counting are each settled once here. -/
namespace Canonical

universe u v
variable {α : Type u} {β : Type v}

/-- A stable sort by `key`. -/
def sortedBy [LinearOrder β] (key : α → β) (items : List α) : List α :=
  items.insertionSort fun a b => key a ≤ key b

section Sorting

variable [LinearOrder β] (key : α → β) (items : List α)

theorem sortedBy_perm : (sortedBy key items).Perm items :=
  List.perm_insertionSort _ _

@[simp] theorem mem_sortedBy (a : α) : a ∈ sortedBy key items ↔ a ∈ items :=
  (sortedBy_perm key items).mem_iff

@[simp] theorem length_sortedBy : (sortedBy key items).length = items.length :=
  (sortedBy_perm key items).length_eq

theorem sortedBy_pairwise : (sortedBy key items).Pairwise fun a b => key a ≤ key b := by
  have total : Std.Total (fun a b : α => key a ≤ key b) := ⟨fun a b => le_total (key a) (key b)⟩
  have transitive : IsTrans α (fun a b : α => key a ≤ key b) := ⟨fun _ _ _ => le_trans⟩
  exact List.pairwise_insertionSort _ _

variable {items}

theorem sortedBy_strict (distinct : (items.map key).Nodup) :
    (sortedBy key items).Pairwise fun a b => key a < key b := by
  have different : ((sortedBy key items).map key).Nodup :=
    ((sortedBy_perm key items).map key).nodup_iff.mpr distinct
  rw [List.Nodup,List.pairwise_map] at different
  exact ((sortedBy_pairwise key items).and different).imp fun ⟨le,ne⟩ => lt_of_le_of_ne le ne

theorem sortedBy_of_strict (sorted : items.Pairwise fun a b => key a < key b) :
    sortedBy key items = items :=
  (sorted.imp le_of_lt).insertionSort_eq

theorem sortedBy_of_pairwise (sorted : items.Pairwise fun a b => key a ≤ key b) :
    sortedBy key items = items :=
  sorted.insertionSort_eq

@[simp] theorem sortedBy_sortedBy : sortedBy key (sortedBy key items) = sortedBy key items :=
  sortedBy_of_pairwise key (sortedBy_pairwise key items)

variable {key} in
theorem sortedBy_of_perm {items' : List α} (listed : items.Perm items')
    (separates : ∀ a ∈ items, ∀ b ∈ items, key a = key b → a = b) :
    sortedBy key items = sortedBy key items' := by
  refine List.Perm.eq_of_pairwise ?_ (sortedBy_pairwise key items) (sortedBy_pairwise key items')
    ((sortedBy_perm key items).trans (listed.trans (sortedBy_perm key items').symm))
  intro a b left right below above
  have left := (mem_sortedBy key items a).mp left
  have right := listed.mem_iff.mpr ((mem_sortedBy key items' b).mp right)
  exact separates a left b right (le_antisymm below above)

theorem strict_iff :
    (items.Pairwise fun a b => key a < key b) ↔
      (items.map key).Nodup ∧ sortedBy key items = items := by
  constructor
  · intro strict
    refine ⟨?_,sortedBy_of_strict key strict⟩
    rw [List.Nodup,List.pairwise_map]
    exact strict.imp ne_of_lt
  · rintro ⟨distinct,same⟩
    exact same ▸ sortedBy_strict key distinct

end Sorting

theorem nodup_concat {γ : Type*} {f : γ → α} {entries : List γ} {e : γ}
    (distinct : (entries.map f).Nodup) (fresh : f e ∉ entries.map f) :
    ((entries ++ [e]).map f).Nodup := by
  rw [List.map_append,List.nodup_append]
  refine ⟨distinct,List.nodup_singleton _,?_⟩
  rintro a ha b hb rfl
  exact fresh (List.mem_singleton.mp hb ▸ ha)

/-- Strictly increasing and drawn from `all`. -/
structure Facts [Preorder α] (all xs : List α) : Prop where
  strict : xs.Pairwise (· < ·)
  inside : xs ⊆ all

section Facts

variable [LinearOrder α] [LinearOrder β] {all xs ys : List α}

theorem Facts.nil : Facts all [] := ⟨.nil,List.nil_subset _⟩

theorem Facts.whole (strict : all.Pairwise (· < ·)) : Facts all all :=
  ⟨strict,List.Subset.refl _⟩

theorem Facts.nodup (facts : Facts all xs) : xs.Nodup :=
  facts.strict.imp ne_of_lt

theorem Facts.of_entries {γ : Type*} (key : α → β) (mono : ∀ a b, key a < key b → a < b)
    (injective : Function.Injective key) {entries : List (α × γ)}
    (distinct : (entries.map (·.1)).Nodup) (inside : entries.map (·.1) ⊆ all) :
    Facts all ((sortedBy (fun e => key e.1) entries).map (·.1)) := by
  refine ⟨?_,fun a ha => ?_⟩
  · rw [List.pairwise_map]
    have keys : (entries.map fun e => key e.1).Nodup := by
      have split : (entries.map fun e => key e.1) = (entries.map (·.1)).map key :=
        List.map_map.symm
      exact split ▸ distinct.map injective
    exact (sortedBy_strict (fun e : α × γ => key e.1) keys).imp (mono _ _)
  · obtain ⟨e,he,rfl⟩ := List.mem_map.mp ha
    exact inside (List.mem_map_of_mem ((mem_sortedBy _ _ e).mp he))

theorem Facts.insert_entry {γ : Type*} (key : α → β) (mono : ∀ a b, key a < key b → a < b)
    (injective : Function.Injective key) {entries : List (α × γ)}
    (facts : Facts all (entries.map (·.1))) {e : α × γ} (known : e.1 ∈ all)
    (fresh : e.1 ∉ entries.map (·.1)) :
    Facts all ((sortedBy (fun e => key e.1) (entries ++ [e])).map (·.1)) := by
  refine .of_entries key mono injective (nodup_concat facts.nodup fresh) fun a ha => ?_
  rw [List.map_append] at ha
  rcases List.mem_append.mp ha with old | new
  · exact facts.inside old
  · exact List.mem_singleton.mp new ▸ known

theorem Facts.insert (key : α → β) (mono : ∀ a b, key a < key b → a < b)
    (injective : Function.Injective key) (facts : Facts all xs) {a : α} (known : a ∈ all)
    (fresh : a ∉ xs) : Facts all (sortedBy key (xs ++ [a])) := by
  have distinct : ((xs ++ [a]).map key).Nodup :=
    nodup_concat (facts.nodup.map injective) fun seen =>
      fresh ((List.mem_map_of_injective injective).mp seen)
  refine ⟨(sortedBy_strict key distinct).imp (mono _ _),fun b hb => ?_⟩
  rcases List.mem_append.mp ((mem_sortedBy key _ b).mp hb) with old | new
  · exact facts.inside old
  · exact List.mem_singleton.mp new ▸ known

theorem Facts.eq_of_members (left : Facts all xs) (right : Facts all ys)
    (same : ∀ a, a ∈ xs ↔ a ∈ ys) : xs = ys :=
  ((List.perm_ext_iff_of_nodup left.nodup right.nodup).mpr same).eq_of_pairwise'
    (left.strict.imp le_of_lt) (right.strict.imp le_of_lt)

theorem Facts.eq_whole (facts : Facts all xs) (strict : all.Pairwise (· < ·))
    (covers : all ⊆ xs) : xs = all :=
  facts.eq_of_members (.whole strict) fun _ => ⟨fun h => facts.inside h,fun h => covers h⟩

theorem Facts.eq_whole_of_length (facts : Facts all xs) (strict : all.Pairwise (· < ·))
    (full : xs.length = all.length) : xs = all := by
  have sub : xs.Subperm all := List.subperm_of_subset facts.nodup facts.inside
  exact facts.eq_whole strict fun _ h => (sub.perm_of_length_le (by omega)).mem_iff.mpr h

end Facts

end Canonical
