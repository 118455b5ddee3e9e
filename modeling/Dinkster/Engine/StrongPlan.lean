import Dinkster.Graph.Plan

/-! The engine's own planner: one walk gives the closure, the dependencies and the order, with the
links of lazy inputs left for the run. -/
namespace Dinkster.Plan
open Canonical Topological

/-- What the planner reads of an effective schema's inputs. -/
structure InputSpec where
  id : String
  lazy : Bool

/-- The effective schemas of the plain nodes. -/
abbrev Effective := Dict String (List InputSpec)

def lazyInputs (effective : Effective) (nodeId : String) : List String :=
  (((effective.get? nodeId).getD []).filter (·.lazy)).map (·.id)

def linked (graph : Nodes) (inputs : Inputs) : List String :=
  ((inputs.filterMap fun e => source? e.2).filter (· ∈ graph.keys)).dedup

/-- `dependencies` of `_strong_plan` -/
def strongDependencies (graph : Nodes) (effective : Effective) (nodeId : String) : List String :=
  match graph.get? nodeId with
  | none => []
  | some (.region region) => linked graph region.inputs
  | some (.node node) =>
    linked graph (node.inputs.filter fun e => e.1 ∉ lazyInputs effective nodeId)

def strongReachable (graph : Nodes) (targets : List String) (effective : Effective) :
    List String :=
  Digraph.collect (strongDependencies graph effective) graph.keys targets []

def strongReady (remaining : Waits) (order : List String) : List String :=
  sortedBy id ((remaining.filter fun e => e.2 = [] ∧ e.1 ∉ order).map (·.1))

def unplaced (remaining : Waits) (order : List String) : Nat :=
  (remaining.filter fun e => e.1 ∉ order).length

private theorem discard_unplaced (n : String) (remaining : Waits) (order : List String) :
    unplaced (discard n remaining) order = unplaced remaining order := by
  rw [unplaced,discard,List.filter_map,List.length_map]
  rfl

private theorem unplaced_place {remaining : Waits} {order : List String} {n : String}
    (ready : n ∈ strongReady remaining order) :
    unplaced remaining (order ++ [n]) < unplaced remaining order := by
  rw [strongReady,mem_sortedBy] at ready
  obtain ⟨e,kept,rfl⟩ := List.mem_map.mp ready
  obtain ⟨inside,free⟩ := List.mem_filter.mp kept
  have free := of_decide_eq_true free
  have fewer : (remaining.filter fun m => m.1 ∉ order ++ [e.1]).Sublist
      (remaining.filter fun m => m.1 ∉ order) :=
    List.monotone_filter_right _ fun m new => by simp_all
  refine fewer.length_le.lt_of_ne fun same => ?_
  have whole := fewer.eq_of_length same
  have kept : e ∈ remaining.filter fun m => m.1 ∉ order :=
    List.mem_filter.mpr ⟨inside,decide_eq_true free.2⟩
  rw [← whole] at kept
  exact absurd (of_decide_eq_true (List.mem_filter.mp kept).2) (by simp)

def strongLoop (remaining : Waits) (order : List String) : List String :=
  match _first : (strongReady remaining order).head? with
  | none => order
  | some nodeId => strongLoop (discard nodeId remaining) (order ++ [nodeId])
termination_by unplaced remaining order
decreasing_by
  rw [discard_unplaced]
  exact unplaced_place (List.mem_of_mem_head? _first)

/-- `_strong_plan`; `none` is a `KeyError`, for a target outside the graph or a plain node without
an effective schema. -/
def strongPlan (graph : Nodes) (targets : List String) (effective : Effective) :
    Option (List String × Waits) :=
  let needed := strongReachable graph targets effective
  let schema? := fun n => match graph.get? n with
    | some (.node _) => (effective.get? n).isSome
    | _ => true
  if targets.all (· ∈ graph.keys) ∧ needed.all schema? then
    let deps := waits needed (strongDependencies graph effective)
    some (strongLoop deps [],deps)
  else none

theorem mem_strongReady {needed order : List String} {deps : String → List String} {n : String} :
    n ∈ strongReady (left needed deps order) order ↔
      Ready needed (within needed deps) order n := by
  rw [strongReady,mem_sortedBy]
  constructor
  · intro ready
    obtain ⟨⟨m,rest⟩,kept,rfl⟩ := List.mem_map.mp ready
    obtain ⟨inside,free⟩ := List.mem_filter.mp kept
    obtain ⟨rfl,new⟩ := of_decide_eq_true free
    obtain ⟨inside,met⟩ := free_iff.mp inside
    exact ⟨inside,new,met⟩
  · rintro ⟨inside,new,met⟩
    exact List.mem_map.mpr ⟨_,List.mem_filter.mpr ⟨free_iff.mpr ⟨inside,met⟩,
      decide_eq_true ⟨rfl,new⟩⟩,rfl⟩

theorem strongLoop_greedy (needed : List String) (distinct : needed.Nodup)
    (deps : String → List String) (order : List String) :
    ∃ rest, strongLoop (left needed deps order) order = order ++ rest ∧
      Greedy needed (within needed deps) order rest := by
  generalize same : left needed deps order = remaining
  induction remaining,order using strongLoop.induct with
  | case1 remaining order none =>
    subst same
    refine ⟨[],?_,fun n ready => ?_⟩
    · rw [strongLoop]
      split
      · rw [List.append_nil]
      · simp_all
    · rw [List.head?_eq_none_iff] at none
      have listed := mem_strongReady.mpr ready
      rw [none] at listed
      cases listed
  | case2 remaining order nodeId first ih =>
    subst same
    obtain ⟨rest,result,greedy⟩ := ih (discard_left needed deps order nodeId).symm
    refine ⟨nodeId :: rest,?_,⟨mem_strongReady.mp (List.mem_of_mem_head? first),
      fun m ready => ?_⟩,greedy⟩
    · rw [strongLoop]
      split
      · simp_all
      · rename_i found
        obtain rfl := Option.some.inj (first.symm.trans found)
        rw [result,List.append_assoc,List.singleton_append]
    · obtain ⟨tail,split⟩ := List.head?_eq_some_iff.mp first
      have kept : (((left needed deps order).filter fun e => e.2 = [] ∧ e.1 ∉ order).map
          (·.1)).Nodup := by
        have listed : ((left needed deps order).map (·.1)).Nodup := by
          rw [left,List.map_map]
          exact (List.map_id needed).symm ▸ distinct
        exact listed.sublist (List.filter_sublist.map _)
      exact strictly_sorted (sortedBy_strict id (by rwa [List.map_id])) split m
        (mem_strongReady.mpr ready)

variable {graph : Nodes} {targets : List String} {effective : Effective}

/-- The links that no lazy input holds. -/
abbrev StronglyReads (graph : Nodes) (effective : Effective) : String → String → Prop :=
  Digraph.Edge (strongDependencies graph effective)

theorem mem_linked {inputs : Inputs} {d : String} :
    d ∈ linked graph inputs ↔ d ∈ graph.keys ∧ ∃ e ∈ inputs, source? e.2 = some d := by
  simp [linked,and_comm]

theorem strongly_reads {n d : String} (reads : StronglyReads graph effective n d) :
    Reads graph n d := by
  simp only [StronglyReads,Digraph.Edge,strongDependencies] at reads
  refine mem_dependencies.mpr ?_
  cases found : graph.get? n with
  | none => simp [found] at reads
  | some node =>
    rw [found] at reads
    cases node with
    | region region =>
      obtain ⟨present,e,inside,source⟩ := mem_linked.mp reads
      exact ⟨present,_,rfl,mem_sources.mpr ⟨e,inside,source⟩⟩
    | node node =>
      obtain ⟨present,e,inside,source⟩ := mem_linked.mp reads
      exact ⟨present,_,rfl,mem_sources.mpr ⟨e,List.mem_of_mem_filter inside,source⟩⟩

theorem mem_strongReachable (inside : ∀ t ∈ targets, t ∈ graph.keys) {n : String} :
    n ∈ strongReachable graph targets effective ↔
      ∃ t ∈ targets, Relation.ReflTransGen (StronglyReads graph effective) t n := by
  have inner : Digraph.InnerEdge (strongDependencies graph effective) graph.keys =
      StronglyReads graph effective := by
    funext a b
    exact propext ⟨And.left,fun edge => ⟨edge,(mem_dependencies.mp (strongly_reads edge)).1⟩⟩
  rw [strongReachable,Digraph.mem_collect,inner]
  constructor
  · rintro ⟨t,target,-,path⟩
    exact ⟨t,target,path⟩
  · rintro ⟨t,target,path⟩
    exact ⟨t,target,inside t target,path⟩

/-- No lazy input of the graph holds a link. -/
def Unlazy (graph : Nodes) (effective : Effective) : Prop :=
  ∀ n node, graph.get? n = some (.node node) → ∀ e ∈ node.inputs,
    e.1 ∈ lazyInputs effective n → source? e.2 = none

theorem filterMap_kept {α β : Type} {f : α → Option β} {p : α → Bool} {l : List α}
    (dropped : ∀ a ∈ l, p a = false → f a = none) : (l.filter p).filterMap f = l.filterMap f := by
  induction l with
  | nil => rfl
  | cons a rest ih =>
    have later := ih fun b inside => dropped b (List.mem_cons_of_mem _ inside)
    cases kept : p a with
    | true => rw [List.filter_cons_of_pos kept,List.filterMap_cons,List.filterMap_cons,later]
    | false =>
      rw [List.filter_cons_of_neg (by simp [kept]),later,
        List.filterMap_cons_none (dropped a List.mem_cons_self kept)]

theorem strongDependencies_unlazy (unlazy : Unlazy graph effective) :
    strongDependencies graph effective = dependencies graph := by
  funext n
  rw [strongDependencies,dependencies]
  cases found : graph.get? n with
  | none => rfl
  | some node =>
    cases node with
    | region region => rfl
    | node node =>
      have same := filterMap_kept (f := fun e : String × InputValue => source? e.2)
        (p := fun e => e.1 ∉ lazyInputs effective n) (l := node.inputs) fun e inside dropped =>
          unlazy n node found e inside (by simpa using dropped)
      simp only [linked,sources,inputsOf,same]

theorem reachableFrom_inside (inside : ∀ t ∈ targets, t ∈ graph.keys) :
    reachableFrom graph targets =
      Digraph.collect (dependencies graph) graph.keys targets [] := by
  rw [reachableFrom,List.filter_eq_self.mpr fun t target => decide_eq_true (inside t target)]

theorem within_closed {needed : List String} {deps : String → List String}
    (closed : ∀ n ∈ needed, ∀ d ∈ deps n, d ∈ needed) {n : String} (inside : n ∈ needed)
    (d : String) : d ∈ within needed deps n ↔ d ∈ deps n := by
  rw [within,List.mem_filter,decide_eq_true_eq]
  exact ⟨And.left,fun needs => ⟨needs,closed n inside d needs⟩⟩

theorem greedy_order {needed order : List String} {deps : String → List String}
    (greedy : Greedy needed (within needed deps) [] order)
    (acyclic : Digraph.Acyclic (Digraph.Edge deps))
    (closed : ∀ n ∈ needed, ∀ d ∈ deps n, d ∈ needed) :
    Order needed deps order ∧ Order order deps order := by
  have whole := greedy.complete (acyclic_within acyclic) reachable_inner
  have here := whole.congr (fun _ => Iff.rfl) fun n inside d => within_closed closed inside d
  exact ⟨here,here.congr (fun n => here.mem_iff.symm) fun _ _ _ => Iff.rfl⟩

theorem strongReachable_closed (inside : ∀ t ∈ targets, t ∈ graph.keys) :
    ∀ n ∈ strongReachable graph targets effective, ∀ d ∈ strongDependencies graph effective n,
      d ∈ strongReachable graph targets effective := by
  intro n reached d needs
  obtain ⟨t,target,path⟩ := (mem_strongReachable inside).mp reached
  exact (mem_strongReachable inside).mpr ⟨t,target,path.tail needs⟩

theorem reachableFrom_closed :
    ∀ n ∈ reachableFrom graph targets, ∀ d ∈ dependencies graph n,
      d ∈ reachableFrom graph targets := by
  intro n reached d needs
  obtain ⟨t,target,present,path⟩ := mem_reachableFrom.mp reached
  exact mem_reachableFrom.mpr ⟨t,target,present,path.tail needs⟩

theorem plan_of_greedy {order : List String}
    (greedy : Greedy (reachableFrom graph targets)
      (within (reachableFrom graph targets) (dependencies graph)) [] order)
    (complete : ∀ n, n ∈ order ↔ n ∈ reachableFrom graph targets) :
    plan graph targets = .ok order := by
  have distinct : (reachableFrom graph targets).Nodup := Digraph.nodup_collect _ _ _
  have same := (planLoop_roots distinct (dependencies graph)).unique greedy
  have counted : order.length = (reachableFrom graph targets).length :=
    ((List.perm_ext_iff_of_nodup greedy.ordered.fresh.1 distinct).mpr complete).length_eq
  rw [plan,dependencyMap,same,if_pos counted]

/-- The engine's planner orders the closure that it makes, and never follows a lazy link. Where no
lazy input is linked, its result is the plain plan with its dependency map, and that plan is the
least of all orders. -/
theorem strongPlan_agrees (graph : Nodes) (targets : List String) (effective : Effective)
    (acyclic : Digraph.Acyclic (Reads graph)) (inside : ∀ t ∈ targets, t ∈ graph.keys)
    (schemas : ∀ n node, graph.get? n = some (.node node) → (effective.get? n).isSome) :
    ∃ order deps, strongPlan graph targets effective = some (order,deps) ∧
      (∀ n, n ∈ order ↔ ∃ t ∈ targets, Relation.ReflTransGen (StronglyReads graph effective) t n) ∧
      Order order (strongDependencies graph effective) order ∧
      (Unlazy graph effective →
        plan graph targets = .ok order ∧ dependencyMap graph targets = deps ∧
          (∀ n, n ∈ order ↔ ∃ t ∈ targets, Relation.ReflTransGen (Reads graph) t n) ∧
          ∀ other, Order order (dependencies graph) other → order ≤ other) := by
  obtain ⟨order,result,greedy⟩ := strongLoop_greedy (strongReachable graph targets effective)
    (Digraph.nodup_collect _ _ _) (strongDependencies graph effective) []
  rw [left_nil,List.nil_append] at result
  have strongly : Digraph.Acyclic (StronglyReads graph effective) :=
    acyclic.mono fun _ _ edge => strongly_reads edge
  obtain ⟨whole,ordered⟩ := greedy_order greedy strongly (strongReachable_closed inside)
  have planned : strongPlan graph targets effective = some (order,
      waits (strongReachable graph targets effective) (strongDependencies graph effective)) := by
    rw [strongPlan,if_pos]
    · simp only [result]
    refine ⟨List.all_eq_true.mpr fun t target => decide_eq_true (inside t target),
      List.all_eq_true.mpr fun n _ => ?_⟩
    cases found : graph.get? n with
    | none => rfl
    | some node =>
      cases node with
      | region => rfl
      | node node => exact schemas n node found
  refine ⟨order,_,planned,fun n => by rw [whole.mem_iff,mem_strongReachable inside],ordered,?_⟩
  intro unlazy
  have same := strongDependencies_unlazy unlazy
  have reached : strongReachable graph targets effective = reachableFrom graph targets := by
    rw [strongReachable,same,reachableFrom_inside inside]
  rw [same,reached] at greedy whole
  refine ⟨plan_of_greedy greedy fun n => whole.mem_iff,?_,fun n => ?_,fun other topological => ?_⟩
  · rw [dependencyMap,same,reached]
  · rw [whole.mem_iff,mem_reachableFrom]
    exact ⟨fun ⟨t,target,_,path⟩ => ⟨t,target,path⟩,
      fun ⟨t,target,path⟩ => ⟨t,target,inside t target,path⟩⟩
  · refine greedy.least (topological.ordered.congr (fun n => whole.mem_iff)
      fun n listed d => ?_) fun n needed => .inr ?_
    · exact (within_closed reachableFrom_closed (whole.mem_iff.mp listed) d).symm
    · exact topological.complete n (whole.mem_iff.mpr needed)

/-- One node that reads another. -/
def pair : Nodes :=
  ⟨[("b",.node ⟨"Source",[],[],[]⟩),("a",.node ⟨"Sink",[("value",.link ⟨"b","out"⟩)],[],[]⟩)],
    by decide⟩

theorem pair_acyclic : Digraph.Acyclic (Reads pair) := by
  have once : ∀ n d, Reads pair n d → n = "a" ∧ d = "b" := by
    intro n d reads
    obtain ⟨-,node,found,source⟩ := mem_dependencies.mp reads
    rw [Dict.get?_eq_some_iff] at found
    simp only [pair,List.mem_cons,Prod.mk.injEq,List.not_mem_nil,or_false] at found
    obtain ⟨rfl,rfl⟩ | ⟨rfl,rfl⟩ := found
    · cases source
    · exact ⟨rfl,by simpa [sources,inputsOf,source?] using source⟩
  have first : ∀ n d, Relation.TransGen (Reads pair) n d → n = "a" ∧ d = "b" := by
    intro n d path
    induction path with
    | single step => exact once _ _ step
    | tail _ step ih => exact ⟨ih.1,(once _ _ step).2⟩
  intro n cycle
  obtain ⟨rfl,other⟩ := first n n cycle
  exact absurd other (by decide)

theorem strongPlan_agrees_pair :
    ∃ order deps, strongPlan pair ["a"] ⟨[("a",[⟨"value",false⟩]),("b",[])],by decide⟩ =
      some (order,deps) ∧ plan pair ["a"] = .ok order ∧ dependencyMap pair ["a"] = deps := by
  obtain ⟨order,deps,result,-,-,plain⟩ := strongPlan_agrees pair ["a"]
    ⟨[("a",[⟨"value",false⟩]),("b",[])],by decide⟩ pair_acyclic (by decide) (fun n node found => by
      rw [Dict.get?_eq_some_iff] at found
      simp only [pair,List.mem_cons,Prod.mk.injEq,List.not_mem_nil,or_false] at found
      obtain ⟨rfl,-⟩ | ⟨rfl,-⟩ := found <;> rfl)
  obtain ⟨planned,mapped,-⟩ := plain fun n node found e inside lazy => by
    have none : lazyInputs ⟨[("a",[⟨"value",false⟩]),("b",[])],by decide⟩ n = [] := by
      rw [Dict.get?_eq_some_iff] at found
      simp only [pair,List.mem_cons,Prod.mk.injEq,List.not_mem_nil,or_false] at found
      obtain ⟨rfl,-⟩ | ⟨rfl,-⟩ := found <;> rfl
    rw [none] at lazy
    cases lazy
  exact ⟨order,deps,result,planned,mapped⟩

end Dinkster.Plan
