import Dinkster.Graph.Inputs
import Dinkster.Lib.Canonical
import Dinkster.Lib.TopologicalOrder
import Mathlib.Data.String.Basic

/-! Planning: the nodes that the targets need, and one order of them. The ready nodes are kept
sorted, so that equal graphs have one plan. -/
namespace Dinkster.Plan
open Canonical Topological

/-- What each node waits for. -/
abbrev Waits := List (String × List String)

/-- `_dependencies` -/
def dependencies (graph : Nodes) (nodeId : String) : List String :=
  match graph.get? nodeId with
  | none => []
  | some node => ((sources node).filter (· ∈ graph.keys)).dedup

def reachableFrom (graph : Nodes) (targets : List String) : List String :=
  Digraph.collect (dependencies graph) graph.keys (targets.filter (· ∈ graph.keys)) []

def within (needed : List String) (deps : String → List String) (nodeId : String) : List String :=
  (deps nodeId).filter (· ∈ needed)

def waits (needed : List String) (deps : String → List String) : Waits :=
  needed.map fun n => (n,within needed deps n)

def dependencyMap (graph : Nodes) (targets : List String) : Waits :=
  waits (reachableFrom graph targets) (dependencies graph)

def discard (nodeId : String) (remaining : Waits) : Waits :=
  remaining.map fun e => (e.1,e.2.filter (· ≠ nodeId))

def newlyReady (nodeId : String) (order : List String) (remaining : Waits) : List String :=
  (remaining.filter fun e => nodeId ∈ e.2 ∧ e.2.filter (· ≠ nodeId) = [] ∧ e.1 ∉ order).map (·.1)

def open' (remaining : Waits) : Nat := (remaining.map fun e => e.2.length).sum

private theorem newlyReady_shrinks (nodeId : String) (order : List String) (remaining : Waits) :
    (newlyReady nodeId order remaining).length + open' (discard nodeId remaining) ≤
      open' remaining := by
  induction remaining with
  | nil => exact Nat.le_refl _
  | cons e rest ih =>
    simp only [newlyReady,open',discard,List.filter_cons,List.map_cons,List.sum_cons,
      List.length_map,List.map_map,Function.comp_def] at ih ⊢
    have fewer := List.length_filter_le (· ≠ nodeId) e.2
    split
    · rename_i freed
      rw [decide_eq_true_eq] at freed
      have some : 0 < e.2.length := List.length_pos_of_mem freed.1
      rw [freed.2.1]
      simp only [List.length_cons,List.length_nil]
      omega
    · omega

/-- `ready` is sorted. -/
def planLoop (remaining : Waits) (ready order : List String) : List String :=
  match ready with
  | [] => order
  | nodeId :: ready =>
    planLoop (discard nodeId remaining)
      (sortedBy id (ready ++ newlyReady nodeId (order ++ [nodeId]) remaining).dedup)
      (order ++ [nodeId])
termination_by ready.length + open' remaining
decreasing_by
  have shrinks := newlyReady_shrinks nodeId (order ++ [nodeId]) remaining
  have fewer := (List.dedup_sublist (ready ++ newlyReady nodeId (order ++ [nodeId])
    remaining)).length_le
  rw [List.length_append] at fewer
  rw [length_sortedBy,List.length_cons]
  omega

def cycleMessage (needed : List String) : String :=
  "cannot order graph: cycle among " ++ ", ".intercalate (sortedBy id needed)

/-- `plan`; a cycle is the error. -/
def plan (graph : Nodes) (targets : List String) : Except String (List String) :=
  let needed := reachableFrom graph targets
  let remaining := dependencyMap graph targets
  let order := planLoop remaining (sortedBy id ((remaining.filter (·.2 = [])).map (·.1))) []
  if order.length = needed.length then .ok order else .error (cycleMessage needed)

theorem mem_dependencies {graph : Nodes} {n d : String} :
    d ∈ dependencies graph n ↔
      d ∈ graph.keys ∧ ∃ node, graph.get? n = some node ∧ d ∈ sources node := by
  rw [dependencies]
  cases found : graph.get? n with
  | none => simp
  | some node => simp [and_comm]

theorem mem_reachableFrom {graph : Nodes} {targets : List String} {n : String} :
    n ∈ reachableFrom graph targets ↔ ∃ t ∈ targets, t ∈ graph.keys ∧
      Relation.ReflTransGen (Digraph.Edge (dependencies graph)) t n := by
  have inner : Digraph.InnerEdge (dependencies graph) graph.keys =
      Digraph.Edge (dependencies graph) := by
    funext a b
    exact propext ⟨And.left,fun edge => ⟨edge,(mem_dependencies.mp edge).1⟩⟩
  rw [reachableFrom,Digraph.mem_collect,inner]
  constructor
  · rintro ⟨t,inside,present,path⟩
    exact ⟨t,List.mem_of_mem_filter inside,present,path⟩
  · rintro ⟨t,inside,present,path⟩
    exact ⟨t,List.mem_filter.mpr ⟨inside,decide_eq_true present⟩,present,path⟩

/-- What is left to wait for after the nodes of `done`. -/
def left (needed : List String) (deps : String → List String) (done : List String) : Waits :=
  needed.map fun n => (n,(within needed deps n).filter (· ∉ done))

theorem left_nil (needed : List String) (deps : String → List String) :
    left needed deps [] = waits needed deps := by
  simp [left,waits]

theorem discard_left (needed : List String) (deps : String → List String) (done : List String)
    (n : String) : discard n (left needed deps done) = left needed deps (done ++ [n]) := by
  rw [discard,left,left,List.map_map]
  refine List.map_congr_left fun m _ => ?_
  simp only [Function.comp_apply,Prod.mk.injEq,true_and,List.filter_filter]
  refine List.filter_congr fun d _ => ?_
  simp [not_or,and_comm]

theorem free_iff {needed done : List String} {deps : String → List String} {n : String} :
    (n,([] : List String)) ∈ left needed deps done ↔
      n ∈ needed ∧ ∀ d ∈ within needed deps n, d ∈ done := by
  simp only [left,List.mem_map,Prod.mk.injEq,List.filter_eq_nil_iff,decide_eq_true_eq,not_not]
  constructor
  · rintro ⟨m,inside,rfl,free⟩
    exact ⟨inside,free⟩
  · rintro ⟨inside,free⟩
    exact ⟨n,inside,rfl,free⟩

theorem strictly_sorted {l : List String} (sorted : l.Pairwise (· < ·)) {n : String} {rest : List String}
    (split : l = n :: rest) : ∀ m ∈ l, n ≤ m := by
  subst split
  intro m inside
  rcases List.mem_cons.mp inside with rfl | later
  · exact le_refl _
  · exact le_of_lt (List.rel_of_pairwise_cons sorted later)

theorem mem_newlyReady {needed order taken : List String} {deps : String → List String}
    {nodeId n : String} :
    n ∈ newlyReady nodeId taken (left needed deps order) ↔
      n ∈ needed ∧ n ∉ taken ∧ nodeId ∈ within needed deps n ∧ nodeId ∉ order ∧
        ∀ d ∈ within needed deps n, d ∈ order ∨ d = nodeId := by
  simp only [newlyReady,left,List.mem_map,List.mem_filter,decide_eq_true_eq]
  constructor
  · rintro ⟨-,⟨⟨m,inside,rfl⟩,waited,rest,fresh⟩,rfl⟩
    obtain ⟨waited,new⟩ := List.mem_filter.mp waited
    refine ⟨inside,fresh,waited,of_decide_eq_true new,fun d needs => ?_⟩
    by_contra other
    rw [not_or] at other
    have kept : d ∈ ((within needed deps m).filter (· ∉ order)).filter (· ≠ nodeId) := by
      simp [needs,other]
    rw [rest] at kept
    cases kept
  · rintro ⟨inside,fresh,waited,new,rest⟩
    refine ⟨_,⟨⟨n,inside,rfl⟩,List.mem_filter.mpr ⟨waited,decide_eq_true new⟩,?_,fresh⟩,rfl⟩
    rw [List.filter_filter,List.filter_eq_nil_iff]
    intro d needs
    rcases rest d needs with old | rfl <;> simp_all

theorem ready_after {needed order ready : List String} {deps : String → List String}
    {nodeId : String} (sorted : (nodeId :: ready).Pairwise (· < ·))
    (exactly : ∀ n, n ∈ nodeId :: ready ↔ Ready needed (within needed deps) order n) (n : String) :
    n ∈ ready ∨ n ∈ newlyReady nodeId (order ++ [nodeId]) (left needed deps order) ↔
      Ready needed (within needed deps) (order ++ [nodeId]) n := by
  rw [mem_newlyReady]
  have first := (exactly nodeId).mp List.mem_cons_self
  constructor
  · rintro (later | ⟨inside,fresh,-,-,rest⟩)
    · obtain ⟨inside,new,met⟩ := (exactly n).mp (List.mem_cons_of_mem _ later)
      have other : n ≠ nodeId := (ne_of_lt (List.rel_of_pairwise_cons sorted later)).symm
      exact ⟨inside,by simp [new,other],fun d needs => List.mem_append_left _ (met d needs)⟩
    · exact ⟨inside,fresh,fun d needs => by simpa using rest d needs⟩
  · rintro ⟨inside,fresh,met⟩
    have new : n ∉ order := fun old => fresh (List.mem_append_left _ old)
    have other : n ≠ nodeId := fun same => fresh (by simp [same])
    by_cases waited : nodeId ∈ within needed deps n
    · exact .inr ⟨inside,fresh,waited,first.2.1,fun d needs => by simpa using met d needs⟩
    · refine .inl (List.mem_of_ne_of_mem other ((exactly n).mpr ⟨inside,new,fun d needs => ?_⟩))
      rcases List.mem_append.mp (met d needs) with old | here
      · exact old
      · exact absurd (List.mem_singleton.mp here ▸ needs) waited

theorem planLoop_greedy (needed : List String) (deps : String → List String)
    (ready order : List String) (sorted : ready.Pairwise (· < ·))
    (exactly : ∀ n, n ∈ ready ↔ Ready needed (within needed deps) order n) :
    ∃ rest, planLoop (left needed deps order) ready order = order ++ rest ∧
      Greedy needed (within needed deps) order rest := by
  generalize same : left needed deps order = remaining
  induction remaining,ready,order using planLoop.induct with
  | case1 remaining order =>
    refine ⟨[],by rw [planLoop,List.append_nil],fun n ready => ?_⟩
    cases (exactly n).mpr ready
  | case2 remaining order nodeId ready ih =>
    subst same
    rw [discard_left] at ih
    have first := (exactly nodeId).mp List.mem_cons_self
    have next : ∀ n, n ∈ sortedBy id (ready ++ newlyReady nodeId (order ++ [nodeId])
        (left needed deps order)).dedup ↔ Ready needed (within needed deps) (order ++ [nodeId]) n := by
      intro n
      rw [mem_sortedBy,List.mem_dedup,List.mem_append]
      exact ready_after sorted exactly n
    obtain ⟨rest,result,greedy⟩ := ih
      (sortedBy_strict id (by rw [List.map_id]; exact List.nodup_dedup _)) next rfl
    refine ⟨nodeId :: rest,?_,⟨first,fun m ready => ?_⟩,greedy⟩
    · rw [planLoop,discard_left,result,List.append_assoc,List.singleton_append]
    · exact strictly_sorted sorted rfl m ((exactly m).mpr ready)

theorem mem_roots {needed : List String} {deps : String → List String} {n : String} :
    n ∈ sortedBy id (((waits needed deps).filter (·.2 = [])).map (·.1)) ↔
      Ready needed (within needed deps) [] n := by
  rw [mem_sortedBy,← left_nil]
  constructor
  · intro root
    obtain ⟨⟨m,rest⟩,kept,rfl⟩ := List.mem_map.mp root
    obtain ⟨inside,empty⟩ := List.mem_filter.mp kept
    obtain rfl := of_decide_eq_true empty
    obtain ⟨inside,free⟩ := free_iff.mp inside
    exact ⟨inside,List.not_mem_nil,free⟩
  · rintro ⟨inside,-,free⟩
    exact List.mem_map.mpr ⟨_,List.mem_filter.mpr ⟨free_iff.mpr ⟨inside,free⟩,decide_eq_true rfl⟩,rfl⟩

theorem sorted_roots {needed : List String} (distinct : needed.Nodup) (deps : String → List String) :
    (sortedBy id (((waits needed deps).filter (·.2 = [])).map (·.1))).Pairwise (· < ·) := by
  refine sortedBy_strict id ?_
  rw [List.map_id]
  have keys : (waits needed deps).map (·.1) = needed := by
    rw [waits,List.map_map]
    exact List.map_id needed
  have listed : ((waits needed deps).map (·.1)).Nodup := by rwa [keys]
  exact listed.sublist (List.filter_sublist.map _)

theorem planLoop_roots {needed : List String} (distinct : needed.Nodup)
    (deps : String → List String) :
    Greedy needed (within needed deps) [] (planLoop (waits needed deps)
      (sortedBy id (((waits needed deps).filter (·.2 = [])).map (·.1))) []) := by
  obtain ⟨rest,result,greedy⟩ := planLoop_greedy needed deps _ [] (sorted_roots distinct deps)
    fun n => mem_roots
  rw [left_nil,List.nil_append] at result
  exact result ▸ greedy

/-- The links of a graph lead from the reader to what it reads. -/
abbrev Reads (graph : Nodes) : String → String → Prop := Digraph.Edge (dependencies graph)

theorem reachable_inner {needed : List String} {deps : String → List String} :
    ∀ n ∈ needed, ∀ d ∈ within needed deps n, d ∈ needed :=
  fun _ _ _ inside => of_decide_eq_true (List.mem_filter.mp inside).2

theorem acyclic_within {needed : List String} {deps : String → List String}
    (acyclic : Digraph.Acyclic (Digraph.Edge deps)) :
    Digraph.Acyclic (Digraph.Edge (within needed deps)) :=
  acyclic.mono fun _ _ edge => List.mem_of_mem_filter edge

end Dinkster.Plan
