import Dinkster.Lib.Canonical

/-! Keyset paging: rows in strictly descending order of their keys, the pages that a position cuts
out of them, and what the tops of several lists say about the top of their union. -/
namespace Keyset

universe u v
variable {α : Type u} {κ : Type v} [LinearOrder κ] (key : α → κ)

def descending (rows : List α) : List α :=
  Canonical.sortedBy (fun a => OrderDual.toDual (key a)) rows

abbrev Descends (rows : List α) : Prop := rows.Pairwise fun a b => key b < key a

def behind (after : Option κ) (rows : List α) : List α :=
  rows.filter fun a => after.all fun k => decide (key a < k)

/-- A page, and the position of its last row if rows remain behind it. -/
def page (rows : List α) (after : Option κ) (limit : Nat) : List α × Option κ :=
  ((behind key after rows).take limit,
    if limit < (behind key after rows).length then
      ((behind key after rows).take limit).getLast?.map key
    else none)

variable {key} {rows : List α}

theorem descending_perm (rows : List α) : (descending key rows).Perm rows :=
  Canonical.sortedBy_perm _ rows

theorem descends_descending (distinct : (rows.map key).Nodup) :
    Descends key (descending key rows) := by
  have duals : (rows.map fun a => OrderDual.toDual (key a)).Nodup := by
    have mapped : rows.map (fun a => OrderDual.toDual (key a)) =
        (rows.map key).map OrderDual.toDual := by simp
    rw [mapped]
    exact distinct.map OrderDual.toDual.injective
  exact (Canonical.sortedBy_strict _ duals).imp OrderDual.toDual_lt_toDual.mp

theorem eq_of_perm {rows' : List α} (descends : Descends key rows) (descends' : Descends key rows')
    (same : rows.Perm rows') : rows = rows' := by
  refine same.eq_of_pairwise ?_ descends descends'
  intro a b _ _ below above
  exact absurd below above.asymm

theorem Descends.nodup (descends : Descends key rows) : rows.Nodup :=
  descends.imp fun below same => absurd (same ▸ below) (lt_irrefl _)

@[simp] theorem behind_none (rows : List α) : behind key none rows = rows := by
  simp [behind]

theorem behind_append (after : Option κ) (front rest : List α) :
    behind key after (front ++ rest) = behind key after front ++ behind key after rest :=
  List.filter_append ..

theorem mem_behind {after : Option κ} {a : α} :
    a ∈ behind key after rows ↔ a ∈ rows ∧ ∀ k ∈ after, key a < k := by
  cases after <;> simp [behind]

theorem Descends.behind (descends : Descends key rows) (after : Option κ) :
    Descends key (behind key after rows) :=
  descends.sublist List.filter_sublist

theorem behind_suffix (descends : Descends key rows) (after : Option κ) :
    behind key after rows <:+ rows := by
  induction rows with
  | nil => exact List.suffix_rfl
  | cons a rows ih =>
    obtain ⟨below,rest⟩ := List.pairwise_cons.mp descends
    by_cases passed : (after.all fun k => decide (key a < k)) = true
    · -- every later row is behind the position as well
      have whole : behind key after (a :: rows) = a :: rows := by
        refine List.filter_eq_self.mpr fun b inside => ?_
        obtain rfl | inside := List.mem_cons.mp inside
        · exact passed
        · cases after with
          | none => rfl
          | some k =>
            simp only [Option.all_some,decide_eq_true_eq] at passed ⊢
            exact (below b inside).trans passed
      exact ⟨[],whole⟩
    · have skipped : behind key after (a :: rows) = behind key after rows :=
        List.filter_cons_of_neg passed
      rw [skipped]
      exact (ih rest).trans (List.suffix_cons a rows)

theorem behind_last {front rest : List α} {last : α} (descends : Descends key (front ++ rest))
    (ends : front.getLast? = some last) : behind key (some (key last)) (front ++ rest) = rest := by
  obtain ⟨initial,rfl⟩ := List.getLast?_eq_some_iff.mp ends
  obtain ⟨before,after,across⟩ := List.pairwise_append.mp descends
  obtain ⟨_,_,top⟩ := List.pairwise_append.mp before
  unfold Keyset.behind
  rw [List.filter_append,List.filter_eq_nil_iff.mpr,List.filter_eq_self.mpr,List.nil_append]
  · intro a inside
    simpa using across last (by simp) a inside
  · intro a inside
    simp only [Option.all_some,decide_eq_true_eq,not_lt]
    obtain inside | inside := List.mem_append.mp inside
    · exact (top a inside last (by simp)).le
    · rw [List.mem_singleton.mp inside]

theorem page_ends {after : Option κ} {limit : Nat} {items : List α}
    (taken : page key rows after limit = (items,none)) (positive : 0 < limit) :
    behind key after rows = items := by
  obtain ⟨rfl,last⟩ := Prod.mk.inj taken
  refine (List.take_of_length_le ?_).symm
  by_contra more
  rw [if_pos (not_le.mp more),Option.map_eq_none_iff,List.getLast?_eq_none_iff] at last
  have length := congrArg List.length last
  rw [List.length_take] at length
  simp only [List.length_nil] at length
  omega

theorem page_continues {after : Option κ} {limit : Nat} {items : List α} {next : κ}
    (descends : Descends key rows) (taken : page key rows after limit = (items,some next)) :
    items ≠ [] ∧ items.length = limit ∧ (∀ k ∈ after, next < k) ∧
      behind key after rows = items ++ behind key (some next) rows := by
  obtain ⟨rfl,last⟩ := Prod.mk.inj taken
  split at last
  · rename_i more
    obtain ⟨a,ends,rfl⟩ := Option.map_eq_some_iff.mp last
    have member := List.mem_of_mem_take (List.mem_of_getLast? ends)
    refine ⟨?_,List.length_take_of_le more.le,(mem_behind.mp member).2,?_⟩
    · intro nothing
      rw [nothing] at ends
      cases ends
    · obtain ⟨front,whole⟩ := behind_suffix descends after
      have split := List.take_append_drop limit (behind key after rows)
      have position : (front ++ (behind key after rows).take limit).getLast? = some a := by
        rw [List.getLast?_append,ends]
        rfl
      have rest : rows = (front ++ (behind key after rows).take limit) ++
          (behind key after rows).drop limit := by
        rw [List.append_assoc,split,whole]
      have later : behind key (some (key a)) rows = (behind key after rows).drop limit := by
        conv_lhs => rw [rest]
        exact behind_last (rest ▸ descends) position
      rw [later,split]
  · cases last

theorem take_append_take (front rest : List α) (n : Nat) :
    (front.take n ++ rest).take n = (front ++ rest).take n := by
  by_cases short : front.length ≤ n
  · rw [List.take_of_length_le short]
  · have full : (front.take n).length = n := List.length_take_of_le (not_le.mp short).le
    rw [List.take_append_of_le_length full.ge,List.take_append_of_le_length (not_le.mp short).le,
      List.take_take,min_self]

theorem mem_take_filter {p : α → Bool} {a : α} (holds : p a = true) {n : Nat} {rows : List α}
    (top : a ∈ rows.take n) : a ∈ (rows.filter p).take n := by
  induction rows generalizing n with
  | nil => simp at top
  | cons b rows ih =>
    cases n with
    | zero => simp at top
    | succ n =>
      rw [List.take_succ_cons] at top
      obtain rfl | later := List.mem_cons.mp top
      · rw [List.filter_cons_of_pos holds,List.take_succ_cons]
        exact List.mem_cons_self
      · by_cases kept : p b = true
        · rw [List.filter_cons_of_pos kept,List.take_succ_cons]
          exact List.mem_cons_of_mem _ (ih later)
        · rw [List.filter_cons_of_neg kept]
          exact List.take_subset_take_left _ n.le_succ (ih later)

theorem tops {all : List α} {n : Nat} (descends : Descends key all) (distinct : rows.Nodup)
    (inside : ∀ a ∈ rows, a ∈ all) (top : ∀ a ∈ all.take n, a ∈ rows) :
    (descending key rows).take n = all.take n ∧ min n rows.length = min n all.length := by
  classical
  have same : descending key rows = all.filter (· ∈ rows) := by
    have kept : Descends key (all.filter (· ∈ rows)) := descends.sublist List.filter_sublist
    have listed : rows.Perm (all.filter (· ∈ rows)) := by
      rw [List.perm_ext_iff_of_nodup distinct kept.nodup]
      simpa using inside
    have keys : (rows.map key).Nodup := by
      rw [(listed.map key).nodup_iff,List.Nodup,List.pairwise_map]
      exact kept.imp fun below => below.ne'
    exact eq_of_perm (descends_descending keys) kept ((descending_perm rows).trans listed)
  have front : (all.filter (· ∈ rows)).take n = all.take n := by
    have whole := List.take_append_drop n all
    have kept : (all.take n).filter (· ∈ rows) = all.take n :=
      List.filter_eq_self.mpr fun a member => decide_eq_true (top a member)
    conv_lhs => rw [← whole,List.filter_append,kept]
    rw [List.take_append,List.take_of_length_le (List.length_take_le n all)]
    by_cases short : all.length ≤ n
    · simp [List.drop_of_length_le short]
    · simp [List.length_take_of_le (not_le.mp short).le]
  refine ⟨same ▸ front,?_⟩
  have length := congrArg List.length front
  rwa [← same,List.length_take,List.length_take,(descending_perm rows).length_eq] at length

end Keyset
