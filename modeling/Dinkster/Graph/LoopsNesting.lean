import Dinkster.Graph.LoopsPaths
import Mathlib.Data.Set.Function

/-! Loop validation accepts exactly the nestings: a pairing of starts and ends under which no start
leads past its end, except into loops inside its own. -/
namespace Dinkster.Loops
open Relation Digraph Canonical

def without (names : List String) (name : String) : List String := names.filter (· ≠ name)

private theorem length_without {names : List String} {name : String} (inside : name ∈ names) :
    (without names name).length < names.length :=
  List.length_filter_lt_length_iff_exists.mpr ⟨name,inside,by simp⟩

def closingOrder (v : View) (b : Boundaries) (remaining : List String) : List String :=
  match _found : leaves v b remaining with
  | [] => []
  | endId :: _ => endId :: closingOrder v b (without remaining endId)
termination_by remaining.length
decreasing_by exact length_without (mem_remaining_of_leaves v b _found)

/-- `one` is closed before `two`. -/
def Before (v : View) (b : Boundaries) (one two : String) : Prop :=
  (closingOrder v b b.ends).idxOf one < (closingOrder v b b.ends).idxOf two

/-- Every start is paired with an end that it leads to; what it leads to without that end is no
target that nothing reads, and no end but those of loops inside that are closed before; and the
end does not accumulate from inside the loop. -/
structure Nested (v : View) (b : Boundaries) (targets : List String) (m : String → String) :
    Prop where
  pairs : Set.BijOn m {s | s ∈ b.starts} {e | e ∈ b.ends}
  reaches : ∀ s ∈ b.starts, TransGen (Feeds v) s (m s)
  read : ∀ s ∈ b.starts, ∀ x ∈ targets, Within v s (m s) x → ∃ y, Feeds v x y
  inner : ∀ s ∈ b.starts, ∀ s' ∈ b.starts, Within v s (m s) (m s') →
    TransGen (Feeds v) s s' ∧ Before v b (m s') (m s)
  initial : ∀ s ∈ b.starts, ∀ node link, v.node? (m s) = some node →
    inputAt node "accumulate" = some (.link link) →
      link.nodeId ≠ s ∧ ¬ Within v s (m s) link.nodeId

variable {v : View} {b : Boundaries} {targets : List String}

theorem closingOrder_leaf {remaining : List String} {endId : String} {rest : List String}
    (found : leaves v b remaining = endId :: rest) :
    closingOrder v b remaining = endId :: closingOrder v b (remaining.filter (· ≠ endId)) := by
  change _ = endId :: closingOrder v b (without remaining endId)
  rw [closingOrder]
  split
  · rename_i none
    rw [none] at found
    cases found
  · rename_i other
    rw [found] at other
    obtain ⟨rfl,-⟩ := List.cons.inj other
    rfl

structure Progress (v : View) (b : Boundaries) (p : Pairing) : Prop where
  available : ∀ s, s ∈ p.available ↔ s ∈ b.starts ∧ s ∉ p.matched.map (·.1)
  remaining : ∀ e, e ∈ p.remaining ↔ e ∈ b.ends ∧ e ∉ p.matched.map (·.2)
  starts : (p.matched.map (·.1)).Nodup
  ends : (p.matched.map (·.2)).Nodup
  inside : ∀ pair ∈ p.matched, pair.1 ∈ b.starts ∧ pair.2 ∈ b.ends
  upward : ∀ e ∈ p.matched.map (·.2), ∀ e' ∈ p.remaining, ¬ TransGen (Feeds v) e' e
  order : closingOrder v b b.ends = p.matched.map (·.2) ++ closingOrder v b p.remaining

theorem Progress.leaf {p : Pairing} (progress : Progress v b p) {e e' : String}
    (leaf : e ∈ leaves v b p.remaining) (open' : e' ∈ p.remaining) :
    ¬ TransGen (Feeds v) e' e := by
  intro path
  obtain ⟨-,alone⟩ := List.mem_filter.mp ((mem_sortedBy _ _ _).mp leaf)
  have alone := of_decide_eq_true alone
  have known := ((progress.remaining e').mp open').1
  obtain ⟨c,stop,clear,rest⟩ := first_stop (· ∈ b.ends) path.swap known
  have closed : c ∉ p.remaining := alone c (mem_walkTo_parents.mpr ⟨stop,clear⟩)
  rcases reflTransGen_iff_eq_or_transGen.mp rest with rfl | further
  · exact closed open'
  · have matched : c ∈ p.matched.map (·.2) := by
      by_contra fresh
      exact closed ((progress.remaining c).mpr ⟨stop,fresh⟩)
    exact progress.upward c matched e' open' further.swap

theorem Progress.close {p : Pairing} (progress : Progress v b p) {s e : String} {rest : List String}
    (found : leaves v b p.remaining = e :: rest) (free : s ∈ p.available) :
    Progress v b ⟨p.available.filter (· ≠ s),p.remaining.filter (· ≠ e),p.matched ++ [(s,e)]⟩ := by
  have leaf : e ∈ leaves v b p.remaining := found ▸ List.mem_cons_self
  have left := mem_remaining_of_leaves v b found
  obtain ⟨start,fresh⟩ := (progress.available s).mp free
  obtain ⟨end',fresh'⟩ := (progress.remaining e).mp left
  refine ⟨fun x => ?_,fun x => ?_,?_,?_,fun pair inside => ?_,fun x inside y open' => ?_,?_⟩
  · rw [List.mem_filter,progress.available x]
    simp [and_assoc]
  · rw [List.mem_filter,progress.remaining x]
    simp [and_assoc]
  · exact nodup_concat progress.starts fresh
  · exact nodup_concat progress.ends fresh'
  · rcases List.mem_append.mp inside with old | new
    · exact progress.inside pair old
    · rw [List.mem_singleton.mp new]
      exact ⟨start,end'⟩
  · have before := List.mem_of_mem_filter open'
    rw [List.map_append] at inside
    rcases List.mem_append.mp inside with old | new
    · exact progress.upward x old y before
    · rw [List.mem_singleton.mp new]
      exact progress.leaf leaf before
  · rw [progress.order,closingOrder_leaf found,List.map_append,List.append_assoc]
    rfl

theorem Progress.before {p : Pairing} (progress : Progress v b p) {x e : String}
    (closed : x ∈ p.matched.map (·.2)) (open' : e ∉ p.matched.map (·.2)) : Before v b x e := by
  rw [Before,progress.order,List.idxOf_append_of_mem closed,List.idxOf_append_of_notMem open']
  exact Nat.lt_add_right _ (List.idxOf_lt_length_of_mem closed)

theorem Progress.not_before {p : Pairing} (progress : Progress v b p) {x e : String}
    {rest : List String} (found : leaves v b p.remaining = e :: rest)
    (open' : x ∉ p.matched.map (·.2)) : ¬ Before v b x e := by
  have left := ((progress.remaining e).mp (mem_remaining_of_leaves v b found)).2
  rw [Before,progress.order,List.idxOf_append_of_notMem open',List.idxOf_append_of_notMem left,
    closingOrder_leaf found,List.idxOf_cons_self]
  omega

theorem mem_openStarts {available : List String} {endId s : String} :
    s ∈ openStarts v available endId ↔
      s ∈ available ∧ Clear (· ∈ available) (fun c p => Feeds v p c) endId s := mem_walkTo_parents

theorem path_of_clear {stops : String → Prop} {endId s : String}
    (clear : Clear stops (fun c p => Feeds v p c) endId s) : TransGen (Feeds v) s endId :=
  clear.path.swap

theorem closeEnd_ok {p q : Pairing} {endId : String}
    (closed : closeEnd v b targets p endId = .ok q) :
    ∃ s, s ∈ openStarts v p.available endId ∧
      (∀ o ∈ openStarts v p.available endId, o = s ∨ s ∈ descendants v b o) ∧
      escapes v targets (p.remaining.filter (· ≠ endId)) s endId = [] ∧
      q = ⟨p.available.filter (· ≠ s),p.remaining.filter (· ≠ endId),p.matched ++ [(s,endId)]⟩ := by
  unfold closeEnd at closed
  simp only at closed
  split at closed
  · cases closed
  · split at closed
    · rename_i s single
      split at closed
      · cases closed
      · rename_i kept
        have here : s ∈ closest v b (openStarts v p.available endId) := single ▸ List.mem_cons_self
        obtain ⟨candidate,inner⟩ := List.mem_filter.mp here
        exact ⟨s,candidate,of_decide_eq_true inner,not_not.mp kept,(Except.ok.inj closed).symm⟩
    · cases closed

theorem closest_eq (acyclic : Acyclic (Feeds v)) {available : List String} {endId s : String}
    (known : ∀ o ∈ available, o ∈ b.starts) (candidate : s ∈ openStarts v available endId)
    (inner : ∀ o ∈ openStarts v available endId, o = s ∨ s ∈ descendants v b o) :
    closest v b (openStarts v available endId) = [s] := by
  have start {o : String} (candidate : o ∈ openStarts v available endId) : o ∈ b.starts :=
    known o (mem_openStarts.mp candidate).1
  have only {o : String} (here : o ∈ closest v b (openStarts v available endId)) : o = s := by
    obtain ⟨other,least⟩ := List.mem_filter.mp here
    rcases inner o other with same | below
    · exact same
    · rcases of_decide_eq_true least s candidate with same | above
      · exact same.symm
      · exact absurd (((mem_descendants (start candidate)).mp below).trans
          ((mem_descendants (start other)).mp above)) (acyclic o)
  have here : s ∈ closest v b (openStarts v available endId) :=
    List.mem_filter.mpr ⟨candidate,decide_eq_true inner⟩
  have distinct : (closest v b (openStarts v available endId)).Nodup :=
    (((nodup_collect _ _ _).filter _).filter _)
  refine List.perm_singleton.mp ((List.perm_ext_iff_of_nodup distinct (List.nodup_singleton s)).mpr
    fun o => ⟨fun inside => ?_,fun inside => ?_⟩)
  · exact List.mem_singleton.mpr (only inside)
  · rw [List.mem_singleton.mp inside]
    exact here

theorem closeEnd_of (acyclic : Acyclic (Feeds v)) {p : Pairing} {endId s : String}
    (known : ∀ o ∈ p.available, o ∈ b.starts) (candidate : s ∈ openStarts v p.available endId)
    (inner : ∀ o ∈ openStarts v p.available endId, o = s ∨ s ∈ descendants v b o)
    (kept : escapes v targets (p.remaining.filter (· ≠ endId)) s endId = []) :
    closeEnd v b targets p endId =
      .ok ⟨p.available.filter (· ≠ s),p.remaining.filter (· ≠ endId),p.matched ++ [(s,endId)]⟩ := by
  have some : openStarts v p.available endId ≠ [] := List.ne_nil_of_mem candidate
  rw [closeEnd]
  simp only [if_neg some,closest_eq acyclic known candidate inner,kept,ne_eq,not_true_eq_false,
    if_false]

theorem escapes_eq_nil {remaining : List String} {s e : String} :
    escapes v targets remaining s e = [] ↔
      ∀ y, y ∈ remaining ++ terminal v targets ++ [e] →
        Clear (· ∈ remaining ++ terminal v targets ++ [e]) (Feeds v) s y → y = e := by
  rw [escapes,List.filter_eq_nil_iff]
  simp only [mem_walkTo_children,decide_not,Bool.not_eq_true',decide_eq_false_iff_not,not_not,
    and_imp]

structure Closed (v : View) (b : Boundaries) (targets : List String) (p : Pairing) : Prop where
  reaches : ∀ pair ∈ p.matched, TransGen (Feeds v) pair.1 pair.2
  read : ∀ pair ∈ p.matched, ∀ x, Within v pair.1 pair.2 x → x ∉ terminal v targets
  early : ∀ pair ∈ p.matched, ∀ x ∈ b.ends, Within v pair.1 pair.2 x → x ∈ p.matched.map (·.2)
  inner : ∀ pair ∈ p.matched, ∀ pair' ∈ p.matched, Within v pair.1 pair.2 pair'.2 →
    TransGen (Feeds v) pair.1 pair'.1 ∧ Before v b pair'.2 pair.2
  below : ∀ pair ∈ p.matched, ∀ s ∈ p.available, TransGen (Feeds v) s pair.2 →
    TransGen (Feeds v) s pair.1

theorem Within.other {s e x : String} (within : Within v s e x) : x ≠ e := by
  obtain ⟨m,-,last⟩ := TransGen.tail'_iff.mp within
  exact last.2

theorem Closed.close {p q : Pairing} (progress : Progress v b p) (closed : Closed v b targets p)
    {e : String} {rest : List String} (found : leaves v b p.remaining = e :: rest)
    (done : closeEnd v b targets p e = .ok q) : Progress v b q ∧ Closed v b targets q := by
  obtain ⟨s,candidate,innermost,kept,rfl⟩ := closeEnd_ok done
  obtain ⟨free,clear⟩ := mem_openStarts.mp candidate
  have fresh := ((progress.remaining e).mp (mem_remaining_of_leaves v b found)).2
  have outside {x : String} (within : Within v s e x) :
      x ∉ p.remaining.filter (· ≠ e) ++ terminal v targets ++ [e] :=
    (clear_of_avoids _ (escapes_eq_nil.mp kept) within).2
  have early {x : String} (known : x ∈ b.ends) (within : Within v s e x) :
      x ∈ p.matched.map (·.2) := by
    by_contra unmatched
    refine outside within (List.mem_append_left _ (List.mem_append_left _ ?_))
    exact List.mem_filter.mpr ⟨(progress.remaining x).mpr ⟨known,unmatched⟩,
      decide_eq_true within.other⟩
  refine ⟨progress.close found free,fun pair inside => ?_,fun pair inside x within => ?_,
    fun pair inside x known within => ?_,fun pair inside pair' inside' within => ?_,
    fun pair inside s' free' path => ?_⟩
  · rcases List.mem_append.mp inside with old | new
    · exact closed.reaches pair old
    · rw [List.mem_singleton.mp new]
      exact path_of_clear clear
  · rcases List.mem_append.mp inside with old | new
    · exact closed.read pair old x within
    · rw [List.mem_singleton.mp new] at within
      exact fun bad => outside within (List.mem_append_left _ (List.mem_append_right _ bad))
  · rw [List.map_append]
    rcases List.mem_append.mp inside with old | new
    · exact List.mem_append_left _ (closed.early pair old x known within)
    · rw [List.mem_singleton.mp new] at within
      exact List.mem_append_left _ (early known within)
  · rcases List.mem_append.mp inside with old | new
    · rcases List.mem_append.mp inside' with old' | new'
      · exact closed.inner pair old pair' old' within
      · rw [List.mem_singleton.mp new'] at within
        have known := ((progress.remaining e).mp (mem_remaining_of_leaves v b found)).1
        exact absurd (closed.early pair old e known within) fresh
    · rw [List.mem_singleton.mp new] at within ⊢
      rcases List.mem_append.mp inside' with old' | new'
      · refine ⟨closed.below pair' old' s free within.path,?_⟩
        exact progress.before (List.mem_map_of_mem old') fresh
      · rw [List.mem_singleton.mp new'] at within
        exact absurd rfl within.other
  · obtain ⟨before,other⟩ := List.mem_filter.mp free'
    rcases List.mem_append.mp inside with old | new
    · exact closed.below pair old s' before path
    · rw [List.mem_singleton.mp new] at path ⊢
      obtain ⟨c,stop,way,onward⟩ := first_stop (· ∈ p.available) path.swap before
      have up : ReflTransGen (Feeds v) s' c := onward.swap
      rcases innermost c (mem_openStarts.mpr ⟨stop,way⟩) with rfl | below
      · rcases reflTransGen_iff_eq_or_transGen.mp up with same | further
        · exact absurd same.symm (of_decide_eq_true other)
        · exact further
      · have start := ((progress.available s).mp free).1
        exact .trans_right up ((mem_descendants start).mp below)

theorem closeEnds_done {p : Pairing} (empty : p.remaining = []) :
    closeEnds v b targets p = .ok p := by
  rw [closeEnds,if_pos empty]

theorem closeEnds_stuck {p : Pairing} (some : p.remaining ≠ [])
    (none : leaves v b p.remaining = []) : closeEnds v b targets p = .error (.empty,[]) := by
  rw [closeEnds,if_neg some]
  split
  · rfl
  · rename_i found
    rw [none] at found
    cases found

theorem closeEnds_round {p : Pairing} {e : String} {rest : List String}
    (found : leaves v b p.remaining = e :: rest) :
    closeEnds v b targets p = (closeEnd v b targets p e).bind (closeEnds v b targets) := by
  have some : p.remaining ≠ [] := List.ne_nil_of_mem (mem_remaining_of_leaves v b found)
  rw [closeEnds,if_neg some]
  split
  · rename_i none
    rw [none] at found
    cases found
  · rename_i other
    rw [found] at other
    obtain ⟨rfl,-⟩ := List.cons.inj other
    split <;> rename_i closed <;> rw [closed] <;> rfl

theorem Closed.run {p q : Pairing} (progress : Progress v b p) (closed : Closed v b targets p)
    (done : closeEnds v b targets p = .ok q) :
    q.remaining = [] ∧ Progress v b q ∧ Closed v b targets q := by
  induction size : p.remaining.length using Nat.strong_induction_on generalizing p with
  | _ size ih =>
    by_cases empty : p.remaining = []
    · rw [closeEnds_done empty] at done
      cases done
      exact ⟨empty,progress,closed⟩
    · cases found : leaves v b p.remaining with
      | nil =>
        rw [closeEnds_stuck empty found] at done
        cases done
      | cons e rest =>
        rw [closeEnds_round found] at done
        cases step : closeEnd v b targets p e with
        | error verdict =>
          rw [step] at done
          cases done
        | ok next =>
          rw [step] at done
          obtain ⟨progress',closed'⟩ := closed.close progress found step
          have shrinks := closeEnd_shrinks v b (mem_remaining_of_leaves v b found) step
          exact ih _ (size ▸ shrinks) progress' closed' done rfl

end Dinkster.Loops
