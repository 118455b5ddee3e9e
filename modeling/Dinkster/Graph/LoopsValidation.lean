import Dinkster.Graph.LoopsNesting

/-! Loop validation settles the nesting: it accepts a graph exactly when a nesting of its open
boundaries exists, and reports that nesting whatever the listing of the nodes. -/
namespace Dinkster.Loops
open Relation Digraph Canonical

variable {v : View} {b : Boundaries} {targets : List String} {m : String → String}

section
variable {p : Pairing} {e s : String} {rest : List String}

theorem Nested.leads (nested : Nested v b targets m) (progress : Progress v b p)
    (along : ∀ pair ∈ p.matched, pair.2 = m pair.1) (found : leaves v b p.remaining = m s :: rest)
    (start : s ∈ b.starts) {c : String} (free : c ∈ p.available) (path : TransGen (Feeds v) c (m s))
    (other : c ≠ s) : TransGen (Feeds v) c s := by
  obtain ⟨known,fresh⟩ := (progress.available c).mp free
  have left : m c ∈ p.remaining := by
    refine (progress.remaining (m c)).mpr ⟨nested.pairs.mapsTo known,fun closed => ?_⟩
    obtain ⟨pair,inside,same⟩ := List.mem_map.mp closed
    have own : pair.1 = c := nested.pairs.injOn (progress.inside pair inside).1 known
      ((along pair inside).symm.trans same)
    exact fresh (own ▸ List.mem_map_of_mem inside)
  have leaf : m s ∈ leaves v b p.remaining := found ▸ List.mem_cons_self
  refine (nested.inner c known s start (avoids_of_unreached path fun back => ?_)).1
  rcases reflTransGen_iff_eq_or_transGen.mp back with same | further
  · exact other (nested.pairs.injOn known start same.symm)
  · exact progress.leaf leaf left further

theorem Nested.candidate (acyclic : Acyclic (Feeds v)) (nested : Nested v b targets m)
    (progress : Progress v b p) (along : ∀ pair ∈ p.matched, pair.2 = m pair.1)
    (found : leaves v b p.remaining = m s :: rest) (start : s ∈ b.starts) (free : s ∈ p.available) :
    s ∈ openStarts v p.available (m s) := by
  obtain ⟨c,stop,clear,onward⟩ := first_stop (· ∈ p.available)
    (nested.reaches s start).swap free
  by_cases other : c = s
  · exact mem_openStarts.mpr ⟨free,other ▸ clear⟩
  · have back := nested.leads progress along found start stop (path_of_clear clear) other
    have up : ReflTransGen (Feeds v) s c := onward.swap
    exact absurd (TransGen.trans_right up back) (acyclic s)

theorem Nested.keeps (nested : Nested v b targets m) (progress : Progress v b p)
    (found : leaves v b p.remaining = m s :: rest) (start : s ∈ b.starts) :
    escapes v targets (p.remaining.filter (· ≠ m s)) s (m s) = [] := by
  refine escapes_eq_nil.mpr fun y stop clear => ?_
  by_contra other
  have within : Within v s (m s) y := clear.avoids (List.mem_append_right _ (.head _)) other
  rcases List.mem_append.mp stop with earlier | last
  · rcases List.mem_append.mp earlier with left | terminal
    · obtain ⟨known,unmatched⟩ := (progress.remaining y).mp (List.mem_of_mem_filter left)
      obtain ⟨s',start',rfl⟩ := nested.pairs.surjOn known
      exact progress.not_before found unmatched (nested.inner s start s' start' within).2
    · obtain ⟨target,unread⟩ := List.mem_filter.mp terminal
      obtain ⟨reader,feeds⟩ := nested.read s start y target within
      have child := mem_children.mpr feeds
      rw [(of_decide_eq_true unread).2] at child
      cases child
  · exact other (List.mem_singleton.mp last)

theorem Nested.round (acyclic : Acyclic (Feeds v)) (nested : Nested v b targets m)
    (progress : Progress v b p) (along : ∀ pair ∈ p.matched, pair.2 = m pair.1)
    (found : leaves v b p.remaining = e :: rest) :
    ∃ q, closeEnd v b targets p e = .ok q ∧ Progress v b q ∧
      ∀ pair ∈ q.matched, pair.2 = m pair.1 := by
  have left := mem_remaining_of_leaves v b found
  obtain ⟨known,fresh⟩ := (progress.remaining e).mp left
  obtain ⟨s,start,rfl⟩ := nested.pairs.surjOn known
  have free : s ∈ p.available := by
    refine (progress.available s).mpr ⟨start,fun matched => ?_⟩
    obtain ⟨pair,inside,rfl⟩ := List.mem_map.mp matched
    exact fresh (along pair inside ▸ List.mem_map_of_mem inside)
  have innermost : ∀ o ∈ openStarts v p.available (m s), o = s ∨ s ∈ descendants v b o := by
    intro o candidate
    obtain ⟨stop,clear⟩ := mem_openStarts.mp candidate
    by_cases other : o = s
    · exact .inl other
    · exact .inr ((mem_descendants start).mpr
        (nested.leads progress along found start stop (path_of_clear clear) other))
  refine ⟨_,closeEnd_of acyclic (fun o inside => ((progress.available o).mp inside).1)
    (nested.candidate acyclic progress along found start free) innermost
    (nested.keeps progress found start),progress.close found free,fun pair inside => ?_⟩
  rcases List.mem_append.mp inside with old | new
  · exact along pair old
  · rw [List.mem_singleton.mp new]

theorem leaves_of_acyclic (acyclic : Acyclic (Feeds v)) {remaining : List String}
    (some : remaining ≠ []) : leaves v b remaining ≠ [] := by
  obtain ⟨a,inside,source⟩ := acyclic.exists_source some
  refine List.ne_nil_of_mem ((mem_sortedBy _ _ a).mpr
    (List.mem_filter.mpr ⟨inside,decide_eq_true fun other edge open' => ?_⟩))
  exact source other open' (path_of_clear (mem_walkTo_parents.mp edge).2)

theorem Nested.run (acyclic : Acyclic (Feeds v)) (nested : Nested v b targets m)
    (progress : Progress v b p) (along : ∀ pair ∈ p.matched, pair.2 = m pair.1) :
    ∃ q, closeEnds v b targets p = .ok q ∧ q.remaining = [] ∧ Progress v b q ∧
      ∀ pair ∈ q.matched, pair.2 = m pair.1 := by
  induction size : p.remaining.length using Nat.strong_induction_on generalizing p with
  | _ size ih =>
    by_cases empty : p.remaining = []
    · exact ⟨p,closeEnds_done empty,empty,progress,along⟩
    · obtain ⟨e,rest,found⟩ := List.exists_cons_of_ne_nil (leaves_of_acyclic acyclic empty)
      obtain ⟨next,step,progress',along'⟩ := nested.round acyclic progress along found
      have shrinks := closeEnd_shrinks v b (mem_remaining_of_leaves v b found) step
      obtain ⟨q,done,rest⟩ := ih _ (size ▸ shrinks) progress' along' rfl
      refine ⟨q,?_,rest⟩
      rw [closeEnds_round found,step]
      exact done

end

theorem accumulated_none {s e : String} :
    accumulated v s e = none ↔ ∀ node link, v.node? e = some node →
      inputAt node "accumulate" = some (.link link) →
        link.nodeId ≠ s ∧ ¬ Within v s e link.nodeId := by
  unfold accumulated
  constructor
  · intro clean node link found reads
    simp only [found,Option.bind_some,reads] at clean
    split at clean
    · cases clean
    · rename_i outside
      rw [List.mem_cons,mem_body,not_or] at outside
      exact outside
  · intro outside
    split
    · rename_i link reads
      obtain ⟨node,found,reads⟩ := Option.bind_eq_some_iff.mp reads
      obtain ⟨other,beyond⟩ := outside node link found reads
      rw [if_neg]
      rw [List.mem_cons,mem_body,not_or]
      exact ⟨other,beyond⟩
    · rfl

/-- The pairs that are reported for a nesting. -/
structure Reported (v : View) (b : Boundaries) (m : String → String)
    (pairs : Dict String LoopPair) : Prop where
  started : ∀ s ∈ b.starts, ∃ body, pairs.get? s = some ⟨m s,body⟩ ∧ body.Pairwise (· < ·) ∧
    ∀ x, x ∈ body ↔ Within v s (m s) x
  others : ∀ s ∉ b.starts, pairs.get? s = none

theorem Closed.nested {p : Pairing} (progress : Progress v b p) (closed : Closed v b targets p)
    (noStart : p.available = []) (noEnd : p.remaining = [])
    (clean : ∀ pair ∈ p.matched, accumulated v pair.1 pair.2 = none)
    (along : ∀ pair ∈ p.matched, pair.2 = m pair.1) : Nested v b targets m := by
  have matched {s : String} (start : s ∈ b.starts) : (s,m s) ∈ p.matched := by
    have taken : s ∈ p.matched.map (·.1) := by
      by_contra fresh
      have free := (progress.available s).mpr ⟨start,fresh⟩
      rw [noStart] at free
      cases free
    obtain ⟨pair,inside,rfl⟩ := List.mem_map.mp taken
    rw [← along pair inside]
    exact inside
  refine ⟨⟨fun s start => (progress.inside _ (matched start)).2,fun s start s' start' same => ?_,
    fun e known => ?_⟩,fun s start => closed.reaches _ (matched start),
    fun s start x target within => ?_,fun s start s' start' within =>
      closed.inner _ (matched start) _ (matched start') within,
    fun s start => accumulated_none.mp (clean _ (matched start))⟩
  · have pairs := List.inj_on_of_nodup_map progress.ends (matched start) (matched start') same
    exact congrArg Prod.fst pairs
  · have taken : e ∈ p.matched.map (·.2) := by
      by_contra fresh
      have left := (progress.remaining e).mpr ⟨known,fresh⟩
      rw [noEnd] at left
      cases left
    obtain ⟨pair,inside,rfl⟩ := List.mem_map.mp taken
    exact ⟨pair.1,(progress.inside pair inside).1,(along pair inside).symm⟩
  · by_contra unread
    refine closed.read _ (matched start) x within
      (List.mem_filter.mpr ⟨target,decide_eq_true ⟨?_,?_⟩⟩)
    · obtain ⟨k,-,last⟩ := TransGen.tail'_iff.mp within.path
      exact last.listed.2
    · by_contra some
      obtain ⟨y,child⟩ := List.exists_mem_of_ne_nil _ some
      exact unread ⟨y,mem_children.mp child⟩

private def plain (nodeType : String) (inputs : Inputs) : AnyNode := .node ⟨nodeType,inputs,[],[]⟩

end Dinkster.Loops
