import Dinkster.Lib.Canonical
import Mathlib.Data.List.Infix
import Mathlib.Data.List.Nodup

/-! Stable sorts: which of two items comes first, when two keys sort a list alike, and sorting what
is left of a list. -/
namespace Canonical

universe u v
variable {α : Type u} {β : Type v}

theorem before_or_after {l : List α} {x y : α} (first : x ∈ l) (second : y ∈ l) (other : x ≠ y) :
    [x,y].Sublist l ∨ [y,x].Sublist l := by
  induction l with
  | nil => cases first
  | cons a rest ih =>
    rcases List.mem_cons.mp first with rfl | later
    · refine .inl (List.Sublist.cons_cons x (List.singleton_sublist.mpr ?_))
      exact (List.mem_cons.mp second).resolve_left (Ne.symm other)
    · rcases List.mem_cons.mp second with rfl | later'
      · exact .inr (List.Sublist.cons_cons y (List.singleton_sublist.mpr later))
      · exact (ih later later').imp (·.cons a) (·.cons a)

theorem not_before_and_after {l : List α} (distinct : l.Nodup) {x y : α}
    (before : [x,y].Sublist l) (after : [y,x].Sublist l) : False := by
  induction l with
  | nil => cases before
  | cons a rest ih =>
    obtain ⟨fresh,distinct'⟩ := List.nodup_cons.mp distinct
    cases before with
    | cons _ before =>
      cases after with
      | cons _ after => exact ih distinct' before after
      | cons_cons _ after => exact fresh (before.subset (by simp))
    | cons_cons _ before =>
      cases after with
      | cons _ after => exact fresh (after.subset (by simp))
      | cons_cons _ after => exact fresh (List.singleton_sublist.mp before)

theorem before_ne {l : List α} (distinct : l.Nodup) {x y : α} (before : [x,y].Sublist l) :
    x ≠ y := by
  rintro rfl
  exact not_before_and_after distinct before before

private theorem idxOf_lt [DecidableEq α] {l : List α} (distinct : l.Nodup) {x y : α}
    (before : [x,y].Sublist l) : l.idxOf x < l.idxOf y := by
  induction l with
  | nil => cases before
  | cons a rest ih =>
    obtain ⟨fresh,distinct'⟩ := List.nodup_cons.mp distinct
    have other {z : α} (member : z ∈ rest) : a ≠ z := fun same => fresh (same ▸ member)
    cases before with
    | cons _ before =>
      have first : x ∈ rest := before.subset (by simp)
      have second : y ∈ rest := before.subset (by simp)
      rw [List.idxOf_cons_ne _ (other first),List.idxOf_cons_ne _ (other second)]
      exact Nat.succ_lt_succ (ih distinct' before)
    | cons_cons _ before =>
      have second : y ∈ rest := List.singleton_sublist.mp before
      rw [List.idxOf_cons_self,List.idxOf_cons_ne _ (other second)]
      exact Nat.succ_pos _

theorem before_iff [DecidableEq α] {l : List α} (distinct : l.Nodup) {x y : α} (first : x ∈ l)
    (second : y ∈ l) : [x,y].Sublist l ↔ l.idxOf x < l.idxOf y := by
  refine ⟨idxOf_lt distinct,fun below => ?_⟩
  have other : x ≠ y := by
    rintro rfl
    exact absurd below (lt_irrefl _)
  exact (before_or_after first second other).resolve_right fun after =>
    absurd (idxOf_lt distinct after) below.asymm

theorem idxOf_erase [DecidableEq α] {l : List α} (distinct : l.Nodup) {a x : α} (taken : a ∈ l)
    (other : x ≠ a) : (l.erase a).idxOf x =
      if l.idxOf a < l.idxOf x then l.idxOf x - 1 else l.idxOf x := by
  induction l with
  | nil => cases taken
  | cons b rest ih =>
    obtain ⟨fresh,distinct'⟩ := List.nodup_cons.mp distinct
    by_cases here : b = a
    · subst here
      rw [List.erase_cons_head,List.idxOf_cons_self,List.idxOf_cons_ne _ (Ne.symm other),
        if_pos (Nat.succ_pos _)]
      rfl
    · rw [List.erase_cons_tail (by simpa using here),List.idxOf_cons_ne _ here]
      by_cases same : b = x
      · subst same
        rw [List.idxOf_cons_self,List.idxOf_cons_self,if_neg (Nat.not_lt_zero _)]
      · rw [List.idxOf_cons_ne _ same,List.idxOf_cons_ne _ same,
          ih distinct' ((List.mem_cons.mp taken).resolve_left (Ne.symm here))]
        split <;> split <;> omega

theorem eq_of_before {l l' : List α} (distinct : l.Nodup) (listed : l.Perm l')
    (same : ∀ x y, [x,y].Sublist l → [x,y].Sublist l') : l = l' := by
  have pairs (k : List α) : k.Pairwise fun x y => [x,y].Sublist k := by
    induction k with
    | nil => exact .nil
    | cons a rest ih =>
      refine .cons (fun b inside => ?_) (ih.imp fun before => before.cons a)
      exact List.Sublist.cons_cons a (List.singleton_sublist.mpr inside)
  refine List.Perm.eq_of_pairwise ?_ ((pairs l).imp (same _ _)) (pairs l') listed
  intro x y _ _ before after
  exact (not_before_and_after (listed.nodup_iff.mp distinct) before after).elim

section

variable [LinearOrder β] {key key' : α → β} {l : List α}

theorem before_sortedBy {x y : α} (before : [x,y].Sublist l) :
    [x,y].Sublist (sortedBy key l) ↔ key x ≤ key y := by
  have total : Std.Total (fun a b : α => key a ≤ key b) := ⟨fun a b => le_total (key a) (key b)⟩
  have transitive : IsTrans α (fun a b : α => key a ≤ key b) := ⟨fun _ _ _ => le_trans⟩
  constructor
  · intro sorted
    have pair : [x,y].Pairwise fun a b => key a ≤ key b := (sortedBy_pairwise key l).sublist sorted
    simpa using pair
  · intro below
    exact List.pair_sublist_insertionSort below before

theorem sortedBy_map {γ : Type*} (f : γ → α) (items : List γ) :
    sortedBy key (items.map f) = (sortedBy (fun a => key (f a)) items).map f :=
  (List.map_insertionSort _ _ f items fun _ _ _ _ => Iff.rfl).symm

theorem nodup_sortedBy : (sortedBy key l).Nodup ↔ l.Nodup := (sortedBy_perm key l).nodup_iff

theorem sortedBy_eq_iff (distinct : l.Nodup) : sortedBy key l = sortedBy key' l ↔
    ∀ x y, [x,y].Sublist l → (key x ≤ key y ↔ key' x ≤ key' y) := by
  constructor
  · intro same x y before
    rw [← before_sortedBy before,same,before_sortedBy before]
  · intro agree
    refine eq_of_before (nodup_sortedBy.mpr distinct)
      ((sortedBy_perm key l).trans (sortedBy_perm key' l).symm) fun x y sorted => ?_
    have other := before_ne (nodup_sortedBy.mpr distinct) sorted
    have first : x ∈ l := (mem_sortedBy key l x).mp (sorted.subset (by simp))
    have second : y ∈ l := (mem_sortedBy key l y).mp (sorted.subset (by simp))
    rcases before_or_after first second other with before | after
    · rw [before_sortedBy before] at sorted ⊢
      exact (agree x y before).mp sorted
    · have kept : ¬ key y ≤ key x := fun below => not_before_and_after
        (nodup_sortedBy.mpr distinct) sorted ((before_sortedBy after).mpr below)
      have kept' : ¬ [y,x].Sublist (sortedBy key' l) := fun sorted' =>
        kept ((agree y x after).mpr ((before_sortedBy after).mp sorted'))
      exact (before_or_after ((mem_sortedBy key' l x).mpr first)
        ((mem_sortedBy key' l y).mpr second) other).resolve_right kept'

theorem sortedBy_filter (distinct : l.Nodup) (p : α → Bool) :
    sortedBy key (l.filter p) = (sortedBy key l).filter p := by
  have left : (l.filter p).Nodup := distinct.filter p
  have listed : (sortedBy key (l.filter p)).Perm ((sortedBy key l).filter p) :=
    (sortedBy_perm key _).trans ((sortedBy_perm key l).filter p).symm
  refine eq_of_before (nodup_sortedBy.mpr left) listed fun x y sorted => ?_
  have other := before_ne (nodup_sortedBy.mpr left) sorted
  have first := (mem_sortedBy key _ x).mp (sorted.subset (by simp))
  have second := (mem_sortedBy key _ y).mp (sorted.subset (by simp))
  have whole : [x,y].Sublist (sortedBy key l) := by
    rcases before_or_after first second other with before | after
    · rw [before_sortedBy before] at sorted
      exact (before_sortedBy (before.trans List.filter_sublist)).mpr sorted
    · have kept : ¬ key y ≤ key x := fun below => not_before_and_after
        (nodup_sortedBy.mpr left) sorted ((before_sortedBy after).mpr below)
      have inside {z : α} (member : z ∈ l.filter p) : z ∈ sortedBy key l :=
        (mem_sortedBy key l z).mpr (List.mem_filter.mp member).1
      refine (before_or_after (inside first) (inside second) other).resolve_right fun swapped => ?_
      exact kept ((before_sortedBy (after.trans List.filter_sublist)).mp swapped)
  have passes := whole.filter p
  rwa [List.filter_cons_of_pos (List.mem_filter.mp first).2,
    List.filter_cons_of_pos (List.mem_filter.mp second).2,List.filter_nil] at passes

end

end Canonical
