import Dinkster.Engine.Compile
import Dinkster.Graph.WireRoundTrip

/-! What admission lets through. A delta stays beside its parent and reads it through declared joins
only; a compiler may rewrite what was submitted, but every path it adds has an origin and the id
that the origin generates. -/
namespace Dinkster.Compile
open Canonical Fallible Paths

def pathsOf (nodes : Nodes) : List String := (nodesExtent "" 0 nodes.entries).paths

def edgesOf (nodes : Nodes) : List Edge := nodesEdges "" nodes.entries

theorem mem_pathsOf {nodes : Nodes} {p : String} : p ∈ pathsOf nodes ↔
    ∃ nodeId node, nodes.get? nodeId = some node ∧ p ∈ (nodeExtent nodeId 0 node).paths := by
  rw [pathsOf,mem_nodesExtent]
  constructor
  · rintro ⟨⟨nodeId,node⟩,inside,found⟩
    exact ⟨nodeId,node,(Dict.get?_eq_some_iff _ _ _).mpr inside,found⟩
  · rintro ⟨nodeId,node,found,inside⟩
    exact ⟨(nodeId,node),(Dict.get?_eq_some_iff _ _ _).mp found,inside⟩

theorem mem_edgesOf {nodes : Nodes} {edge : Edge} : edge ∈ edgesOf nodes ↔
    ∃ nodeId node, nodes.get? nodeId = some node ∧ edge ∈ nodeEdges "" nodeId node := by
  rw [edgesOf,mem_nodesEdges]
  constructor
  · rintro ⟨⟨nodeId,node⟩,inside,found⟩
    exact ⟨nodeId,node,(Dict.get?_eq_some_iff _ _ _).mpr inside,found⟩
  · rintro ⟨nodeId,node,found,inside⟩
    exact ⟨(nodeId,node),(Dict.get?_eq_some_iff _ _ _).mp found,inside⟩

def ValidRoots (nodes : Nodes) : Prop := ∀ nodeId ∈ nodes.keys, validNodeId nodeId = true

theorem mem_keys_of_get? {nodes : Nodes} {nodeId : String} {node : AnyNode}
    (found : nodes.get? nodeId = some node) : nodeId ∈ nodes.keys :=
  (Dict.mem_keys_iff _ _).mpr ⟨node,found⟩

section Roots

variable {nodes : Nodes} (valid : ValidRoots nodes)
include valid

theorem root_path {nodeId : String} {node : AnyNode} (found : nodes.get? nodeId = some node)
    {p : String} (inside : p ∈ (nodeExtent nodeId 0 node).paths) : root p = nodeId := by
  obtain ⟨named,plain⟩ := validNodeId_plain (valid nodeId (mem_keys_of_get? found))
  exact root_inside plain (nodeExtent_inside node nodeId 0 named p inside)

theorem root_mem {p : String} (inside : p ∈ pathsOf nodes) : root p ∈ nodes.keys := by
  obtain ⟨nodeId,node,found,within⟩ := mem_pathsOf.mp inside
  rw [root_path valid found within]
  exact mem_keys_of_get? found

theorem edge_cases {edge : Edge} (inside : edge ∈ edgesOf nodes) : ∃ node,
    nodes.get? (root edge.target) = some node ∧ edge ∈ nodeEdges "" (root edge.target) node ∧
      ((∃ inputId link, (inputId,.link link) ∈ inputsOf node ∧
        edge = ⟨root edge.target,inputId,link.nodeId,link.outputId⟩) ∨
          root edge.source = root edge.target) := by
  obtain ⟨nodeId,node,found,own⟩ := mem_edgesOf.mp inside
  obtain ⟨named,plain⟩ := validNodeId_plain (valid nodeId (mem_keys_of_get? found))
  rcases nodeEdges_cases node "" nodeId named edge own with input | ⟨target,source⟩
  · obtain ⟨inputId,link,member,rfl⟩ := mem_inputEdges.mp input
    have same : root nodeId = nodeId := root_inside plain (.self nodeId)
    rw [same]
    exact ⟨node,found,own,.inl ⟨inputId,link,member,rfl⟩⟩
  · have same := root_inside plain target
    rw [same]
    exact ⟨node,found,own,.inr (root_inside plain source)⟩

end Roots

def Joined (joins : List VirtualGraphJoin) (nodeId : String) (base node : AnyNode) : Prop :=
  ∃ added : Inputs, node = withInputs (inputsOf base ++ added) base ∧ ∀ e ∈ added,
    ∃ join ∈ joins, join.targetNodeId = nodeId ∧
      e = (join.inputId,.link ⟨join.sourceNodeId,join.outputId⟩)

@[simp] theorem inputsOf_withInputs (inputs : Inputs) (node : AnyNode) :
    inputsOf (withInputs inputs node) = inputs := by
  cases node <;> rfl

@[simp] theorem withInputs_withInputs (inputs inputs' : Inputs) (node : AnyNode) :
    withInputs inputs (withInputs inputs' node) = withInputs inputs node := by
  cases node <;> rfl

@[simp] theorem withInputs_inputsOf (node : AnyNode) : withInputs (inputsOf node) node = node := by
  cases node <;> rfl

@[simp] theorem nodeExtent_withInputs (path : String) (depth : Nat) (inputs : Inputs)
    (node : AnyNode) : (nodeExtent path depth (withInputs inputs node)).paths =
      (nodeExtent path depth node).paths := by
  cases node with
  | node node => rfl
  | region region =>
    obtain ⟨_,⟨_⟩,_,_,_,_,_,_,_,_,_⟩ := region
    rfl

theorem Joined.refl (joins : List VirtualGraphJoin) (nodeId : String) (node : AnyNode) :
    Joined joins nodeId node node :=
  ⟨[],by rw [List.append_nil,withInputs_inputsOf],nofun⟩

theorem Joined.add {joins : List VirtualGraphJoin} {nodeId : String} {base node : AnyNode}
    (joined : Joined joins nodeId base node) {join : VirtualGraphJoin} (declared : join ∈ joins)
    (target : join.targetNodeId = nodeId) : Joined joins nodeId base
      (addLink join.inputId ⟨join.sourceNodeId,join.outputId⟩ node) := by
  obtain ⟨added,rfl,each⟩ := joined
  refine ⟨added ++ [(join.inputId,.link ⟨join.sourceNodeId,join.outputId⟩)],?_,fun e inside => ?_⟩
  · rw [addLink,inputsOf_withInputs,withInputs_withInputs,List.append_assoc]
  · rcases List.mem_append.mp inside with old | new
    · exact each e old
    · exact ⟨join,declared,target,List.mem_singleton.mp new⟩

theorem withVirtualJoins_ok {py : Python} {delta parent joined : Nodes}
    {joins : List VirtualGraphJoin} (done : withVirtualJoins py delta parent joins = .ok joined) :
    (∀ nodeId, nodeId ∈ joined.keys ↔ nodeId ∈ delta.keys) ∧
      ∀ nodeId node, joined.get? nodeId = some node →
        ∃ base, delta.get? nodeId = some base ∧ Joined joins nodeId base node := by
  obtain ⟨⟨nodes,pairs⟩,run,same⟩ := bind_ok.mp done
  cases same
  refine foldlM_keeps (P := fun state : Nodes × List (String × String) =>
    (∀ nodeId, nodeId ∈ state.1.keys ↔ nodeId ∈ delta.keys) ∧
      ∀ nodeId node, state.1.get? nodeId = some node →
        ∃ base, delta.get? nodeId = some base ∧ Joined joins nodeId base node) ?_
    ⟨fun _ => Iff.rfl,fun nodeId node found => ⟨node,found,.refl joins nodeId node⟩⟩ run
  rintro join declared before after ⟨keys,each⟩ step
  obtain ⟨_,_,rest⟩ := bind_ok.mp step
  split at rest
  · cases rest
  · rename_i target found
    obtain ⟨_,_,rest⟩ := bind_ok.mp rest
    obtain ⟨_,_,last⟩ := bind_ok.mp rest
    cases last
    refine ⟨fun nodeId => ?_,fun nodeId node held => ?_⟩
    · rw [Dict.mem_keys_set,keys]
      constructor
      · rintro (rfl | inside)
        · exact (keys _).mp (mem_keys_of_get? found)
        · exact inside
      · exact .inr
    · rw [Dict.get?_set] at held
      split at held
      · rename_i same
        cases held
        obtain ⟨base,there,joined⟩ := each _ _ found
        exact ⟨base,same ▸ there,same ▸ joined.add declared rfl⟩
      · exact each nodeId node held

theorem foldlM_leaves {ε : Type} {f : List String → String → Except ε (List String)}
    (step : ∀ leaves path after, f leaves path = .ok after →
      leafOf path ∉ leaves ∧ after = leaves ++ [leafOf path])
    {paths before after : List String} (done : paths.foldlM f before = .ok after)
    (distinct : before.Nodup) : (before ++ paths.map leafOf).Nodup := by
  induction paths generalizing before with
  | nil => simpa using distinct
  | cons path paths ih =>
    rw [List.foldlM_cons] at done
    obtain ⟨next,here,rest⟩ := bind_ok.mp done
    obtain ⟨fresh,rfl⟩ := step before path next here
    have apart : (before ++ [leafOf path]).Nodup := by
      rw [← List.concat_eq_append]
      exact distinct.concat fresh
    simpa using ih rest apart

theorem checkGenerated_step {py : Python} {namespaceId path : String}
    {origins : Dict String GraphAdmissionOrigin} {candidatePaths leaves after : List String}
    (done : checkGenerated py namespaceId origins candidatePaths leaves path = .ok after) :
    (leafOf path ∉ leaves ∧ after = leaves ++ [leafOf path]) ∧
      ∃ origin, origins.get? path = some origin ∧
        generatedNodeId py namespaceId origin.sources origin.localKey = .ok (leafOf path) := by
  unfold checkGenerated at done
  split at done
  · cases done
  · rename_i origin found
    obtain ⟨_,_,rest⟩ := bind_ok.mp done
    obtain ⟨expected,generated,rest⟩ := bind_ok.mp rest
    obtain ⟨_,leaf,rest⟩ := bind_ok.mp rest
    obtain ⟨_,fresh,last⟩ := bind_ok.mp rest
    rw [refuseIf_ok] at leaf fresh
    refine ⟨⟨fresh,(Except.ok.inj last).symm⟩,origin,found,?_⟩
    rw [not_not.mp leaf]
    exact mapError_ok.mp generated

structure CheckedDelta (py : Python) (parent delta : Nodes) (a : Admission)
    (origins : Dict String GraphAdmissionOrigin) : Prop where
  apart : ∀ nodeId ∈ parent.keys, nodeId ∉ delta.keys
  covered : ∀ p, p ∈ origins.keys ↔ p ∈ pathsOf delta
  confined : ∀ nodeId node, delta.get? nodeId = some node → ∀ inputId link,
    (inputId,.link link) ∈ inputsOf node → link.nodeId ∈ delta.keys
  leaves : ∀ p ∈ pathsOf delta, ∀ q ∈ pathsOf delta, leafOf p = leafOf q → p = q
  generated : ∀ p ∈ pathsOf delta, ∃ origin, origins.get? p = some origin ∧
    generatedNodeId py a.namespaceId origin.sources origin.localKey = .ok (leafOf p)

theorem checkDelta_ok {py : Python} {parent delta : Nodes} {a : Admission}
    {origins : Dict String GraphAdmissionOrigin}
    (done : checkDelta py parent a delta = .ok origins) :
    CheckedDelta py parent delta a origins := by
  obtain ⟨_,disjoint,rest⟩ := bind_ok.mp done
  obtain ⟨found,_,rest⟩ := bind_ok.mp rest
  obtain ⟨_,cover,rest⟩ := bind_ok.mp rest
  obtain ⟨_,boundary,rest⟩ := bind_ok.mp rest
  obtain ⟨leaves,generated,last⟩ := bind_ok.mp rest
  cases last
  rw [refuseIf_ok,not_not] at disjoint cover
  have distinct := foldlM_leaves (fun _ _ _ step => (checkGenerated_step step).1) generated
    List.nodup_nil
  rw [List.nil_append] at distinct
  have listed : ∀ p, p ∈ sortedBy id (pathsOf delta).dedup ↔ p ∈ pathsOf delta := fun p => by
    rw [mem_sortedBy,List.mem_dedup]
  refine ⟨fun nodeId inside shared => ?_,fun p => ⟨fun inside => cover.1 inside,
    fun inside => cover.2 inside⟩,fun nodeId node held inputId link member => ?_,
    fun p inP q inQ same => ?_,fun p inside => ?_⟩
  · have member : nodeId ∈ sortedBy id (parent.keys.filter fun nodeId => nodeId ∈ delta.keys) :=
      (mem_sortedBy _ _ _).mpr (List.mem_filter.mpr ⟨inside,decide_eq_true shared⟩)
    rw [disjoint] at member
    cases member
  · have clean := forM_ok (forM_ok boundary _ ((Dict.get?_eq_some_iff _ _ _).mp held)) _ member
    rw [refuseIf_ok] at clean
    by_contra outside
    exact clean ⟨link.nodeId,rfl,outside⟩
  · exact List.inj_on_of_nodup_map distinct ((listed p).mpr inP) ((listed q).mpr inQ) same
  · obtain ⟨before,after,step⟩ := foldlM_each generated p ((listed p).mpr inside)
    exact (checkGenerated_step step).2

/-- An admitted candidate: the parent's nodes as they were and, beside them, the nodes of a delta
with the declared joins. -/
structure Admitted (py : Python) (parent : Nodes) (a : Admission) (result : AdmittedGraph) :
    Prop where
  unchanged : ∀ nodeId node, parent.get? nodeId = some node →
    result.graph.get? nodeId = some node
  covered : ∀ p, p ∈ result.origins.keys ↔ p ∈ pathsOf result.graph ∧ p ∉ pathsOf parent
  generated : ∀ p origin, result.origins.get? p = some origin →
    generatedNodeId py a.namespaceId origin.sources origin.localKey = .ok (leafOf p)
  unique : ∀ p ∈ result.origins.keys, ∀ q ∈ result.origins.keys, leafOf p = leafOf q → p = q
  joins : ∀ edge ∈ edgesOf result.graph, edge.target ∈ result.origins.keys →
    edge.source ∈ pathsOf parent → ∃ join ∈ a.virtualJoins,
      edge = ⟨join.targetNodeId,join.inputId,join.sourceNodeId,join.outputId⟩
  kept : ∀ edge ∈ edgesOf result.graph, edge.target ∈ pathsOf parent → edge ∈ edgesOf parent
  nodes : (nodesExtent "" 0 result.graph.entries).nodes ≤ a.budget.nodes
  links : (nodesExtent "" 0 result.graph.entries).links ≤ a.budget.edges
  depth : (nodesExtent "" 0 result.graph.entries).depth ≤ a.budget.depth

theorem validRoots_of_clean {py : Python} {candidate : Nodes} {paths : List String}
    {others : List Diagnostic}
    (clean : blocking paths (invalidNodeIds py candidate ++ others) = []) :
    ValidRoots candidate := by
  intro nodeId inside
  by_contra invalid
  have reported : (⟨"error","invalid-node-id",
      "node ids must be non-empty and may not contain '/', '[' or ']': " ++ py.repr nodeId,
      some nodeId⟩ : Diagnostic) ∈ blocking paths (invalidNodeIds py candidate ++ others) := by
    refine List.mem_filter.mpr ⟨List.mem_append_left _ (List.mem_map.mpr
      ⟨nodeId,List.mem_filter.mpr ⟨inside,?_⟩,rfl⟩),rfl⟩
    rw [Bool.not_eq_true']
    exact Bool.eq_false_iff.mpr invalid
  rw [clean] at reported
  cases reported

structure Overlaid (parent delta joined : Nodes) (joins : List VirtualGraphJoin) : Prop where
  apart : ∀ nodeId ∈ parent.keys, nodeId ∉ delta.keys
  keys : ∀ nodeId, nodeId ∈ joined.keys ↔ nodeId ∈ delta.keys
  each : ∀ nodeId node, joined.get? nodeId = some node →
    ∃ base, delta.get? nodeId = some base ∧ Joined joins nodeId base node
  valid : ValidRoots (parent.update joined)

namespace Overlaid

variable {parent delta joined : Nodes} {joins : List VirtualGraphJoin}

theorem get?_iff (o : Overlaid parent delta joined joins) {nodeId : String} {node : AnyNode} :
    (parent.update joined).get? nodeId = some node ↔
      parent.get? nodeId = some node ∨ joined.get? nodeId = some node := by
  rw [Dict.get?_update]
  cases here : joined.get? nodeId with
  | none => simp
  | some other =>
    have absent : parent.get? nodeId = none := (Dict.get?_eq_none_iff _ _).mpr fun inside =>
      o.apart nodeId inside ((o.keys nodeId).mp (mem_keys_of_get? here))
    rw [absent]
    simp

theorem mem_joined (o : Overlaid parent delta joined joins) {p : String} :
    p ∈ pathsOf joined ↔ p ∈ pathsOf delta := by
  rw [mem_pathsOf,mem_pathsOf]
  constructor
  · rintro ⟨nodeId,node,found,inside⟩
    obtain ⟨base,held,added,rfl,-⟩ := o.each nodeId node found
    rw [nodeExtent_withInputs] at inside
    exact ⟨nodeId,base,held,inside⟩
  · rintro ⟨nodeId,base,held,inside⟩
    obtain ⟨node,found⟩ := (Dict.mem_keys_iff _ _).mp
      ((o.keys nodeId).mpr (mem_keys_of_get? held))
    obtain ⟨base',held',added,rfl,-⟩ := o.each nodeId node found
    obtain rfl := Option.some.inj (held.symm.trans held')
    exact ⟨nodeId,_,found,by rwa [nodeExtent_withInputs]⟩

theorem mem_candidate (o : Overlaid parent delta joined joins) {p : String} :
    p ∈ pathsOf (parent.update joined) ↔ p ∈ pathsOf parent ∨ p ∈ pathsOf delta := by
  rw [← o.mem_joined,mem_pathsOf,mem_pathsOf,mem_pathsOf]
  simp only [o.get?_iff,or_and_right,exists_or]

theorem parent_roots (o : Overlaid parent delta joined joins) : ValidRoots parent :=
  fun nodeId inside => o.valid nodeId ((Dict.mem_keys_update _ _ _).mpr (.inr inside))

theorem delta_roots (o : Overlaid parent delta joined joins) : ValidRoots delta :=
  fun nodeId inside => o.valid nodeId
    ((Dict.mem_keys_update _ _ _).mpr (.inl ((o.keys nodeId).mpr inside)))

theorem paths_apart (o : Overlaid parent delta joined joins) {p : String}
    (old : p ∈ pathsOf parent) : p ∉ pathsOf delta := fun new =>
  o.apart (root p) (root_mem o.parent_roots old) (root_mem o.delta_roots new)

theorem edges_kept (o : Overlaid parent delta joined joins) {edge : Edge}
    (inside : edge ∈ edgesOf (parent.update joined)) (old : edge.target ∈ pathsOf parent) :
    edge ∈ edgesOf parent := by
  obtain ⟨node,found,own,-⟩ := edge_cases o.valid inside
  have target := root_mem o.parent_roots old
  rcases o.get?_iff.mp found with held | held
  · exact mem_edgesOf.mpr ⟨_,node,held,own⟩
  · exact absurd ((o.keys _).mp (mem_keys_of_get? held)) (o.apart _ target)

theorem edges_joined (o : Overlaid parent delta joined joins)
    (confined : ∀ nodeId node, delta.get? nodeId = some node → ∀ inputId link,
      (inputId,.link link) ∈ inputsOf node → link.nodeId ∈ delta.keys)
    {edge : Edge} (inside : edge ∈ edgesOf (parent.update joined))
    (new : edge.target ∈ pathsOf delta) (old : edge.source ∈ pathsOf parent) :
    ∃ join ∈ joins, edge = ⟨join.targetNodeId,join.inputId,join.sourceNodeId,join.outputId⟩ := by
  have target := root_mem o.delta_roots new
  have source := root_mem o.parent_roots old
  obtain ⟨node,found,own,⟨inputId,link,member,same⟩ | within⟩ := edge_cases o.valid inside
  · rcases o.get?_iff.mp found with held | held
    · exact absurd target (o.apart _ (mem_keys_of_get? held))
    · obtain ⟨base,there,added,rfl,declared⟩ := o.each _ node held
      rw [inputsOf_withInputs] at member
      rcases List.mem_append.mp member with first | later
      · have linked := confined _ base there inputId link first
        have named := validNodeId_plain (o.delta_roots _ linked)
        have from_ : edge.source = link.nodeId := congrArg Edge.source same
        rw [from_,root_inside named.2 (.self _)] at source
        exact absurd linked (o.apart _ source)
      · obtain ⟨join,listed,at_,read⟩ := declared _ later
        obtain ⟨rfl,value⟩ := Prod.mk.inj read
        obtain rfl := InputValue.link.inj value
        exact ⟨join,listed,by rw [at_]; exact same⟩
  · rw [within] at source
    exact absurd target (o.apart _ source)

end Overlaid

theorem checkBudget_ok {budget : ParentGraphBudget} {candidate : Nodes} {u : PUnit}
    (done : checkBudget budget candidate = .ok u) :
    (nodesExtent "" 0 candidate.entries).nodes ≤ budget.nodes ∧
      (nodesExtent "" 0 candidate.entries).links ≤ budget.edges ∧
        (nodesExtent "" 0 candidate.entries).depth ≤ budget.depth := by
  obtain ⟨_,nodes,rest⟩ := bind_ok.mp done
  obtain ⟨_,links,depth⟩ := bind_ok.mp rest
  rw [refuseIf_ok] at nodes links depth
  exact ⟨Nat.le_of_not_lt nodes,Nat.le_of_not_lt links,Nat.le_of_not_lt depth⟩

theorem admitParentGraph_ok {py : Python} {otherDiagnostics : Nodes → List Diagnostic}
    {parent : Nodes} {a : Admission} {result : AdmittedGraph}
    (done : admitParentGraph py otherDiagnostics parent a = .ok result) :
    Admitted py parent a result := by
  obtain ⟨delta,_,rest⟩ := bind_ok.mp done
  obtain ⟨origins,checked,rest⟩ := bind_ok.mp rest
  obtain ⟨joined,joins,rest⟩ := bind_ok.mp rest
  obtain ⟨_,budget,rest⟩ := bind_ok.mp rest
  obtain ⟨_,clean,last⟩ := bind_ok.mp rest
  cases last
  rw [refuseIf_ok,not_not] at clean
  have facts := checkDelta_ok checked
  obtain ⟨keys,each⟩ := withVirtualJoins_ok joins
  have o : Overlaid parent delta joined a.virtualJoins :=
    ⟨facts.apart,keys,each,validRoots_of_clean clean⟩
  obtain ⟨nodes,links,depth⟩ := checkBudget_ok budget
  have new : ∀ p, p ∈ origins.keys ↔ p ∈ pathsOf delta := facts.covered
  refine ⟨fun nodeId node held => o.get?_iff.mpr (.inl held),fun p => ?_,
    fun p origin held => ?_,fun p inP q inQ => facts.leaves p ((new p).mp inP) q ((new q).mp inQ),
    fun edge inside target => o.edges_joined facts.confined inside ((new _).mp target),
    fun edge inside => o.edges_kept inside,nodes,links,depth⟩
  · rw [new,o.mem_candidate]
    constructor
    · exact fun inside => ⟨.inr inside,fun old => o.paths_apart old inside⟩
    · rintro ⟨old | inside,fresh⟩
      · exact absurd old fresh
      · exact inside
  · obtain ⟨origin',held',identity⟩ := facts.generated p
      ((new p).mp ((Dict.mem_keys_iff _ _).mpr ⟨origin,held⟩))
    obtain rfl := Option.some.inj (held.symm.trans held')
    exact identity

def graphPaths (graph : Graph) : List String := (nodesExtent "" 0 graph.nodes).paths

/-- A compiled graph has the targets that were submitted and stays within the hard limits; its new
paths are the ones with an origin. -/
structure Compiled (py : Python) (s : Submission) (result : CompiledGraph) : Prop where
  targets : ∀ target ∈ s.targets, target ∈ result.graph.nodes.map (·.1)
  covered : ∀ p, p ∈ result.origins.keys ↔ p ∈ graphPaths result.graph ∧ p ∉ graphPaths s.graph
  generated : ∀ p origin, result.origins.get? p = some origin →
    generatedNodeId py origin.compilerId origin.sources origin.localKey = .ok (leafOf p)
  unique : ∀ p ∈ result.origins.keys, ∀ q ∈ result.origins.keys, leafOf p = leafOf q → p = q
  fresh : ∀ p ∈ result.origins.keys, ∀ q ∈ graphPaths s.graph, leafOf p ≠ leafOf q
  nodes : (nodesExtent "" 0 result.graph.nodes).nodes ≤ maxNodes
  links : (nodesExtent "" 0 result.graph.nodes).links ≤ maxLinks
  depth : (nodesExtent "" 0 result.graph.nodes).depth ≤ maxDepth

theorem checkLimits_ok {graph : Graph} {paths : List String}
    (done : checkLimits graph = .ok paths) :
    paths = graphPaths graph ∧ (nodesExtent "" 0 graph.nodes).nodes ≤ maxNodes ∧
      (nodesExtent "" 0 graph.nodes).links ≤ maxLinks ∧
        (nodesExtent "" 0 graph.nodes).depth ≤ maxDepth := by
  obtain ⟨_,nodes,rest⟩ := bind_ok.mp done
  obtain ⟨_,links,rest⟩ := bind_ok.mp rest
  obtain ⟨_,depth,last⟩ := bind_ok.mp rest
  rw [refuseIf_ok] at nodes links depth
  exact ⟨(Except.ok.inj last).symm,Nat.le_of_not_lt nodes,Nat.le_of_not_lt links,
    Nat.le_of_not_lt depth⟩

theorem checkLeaf_step {py : Python} {leaves after : List String} {path : String}
    (done : checkLeaf py leaves path = .ok after) :
    leafOf path ∉ leaves ∧ after = leaves ++ [leafOf path] := by
  obtain ⟨_,fresh,last⟩ := bind_ok.mp done
  exact ⟨refuseIf_ok.mp fresh,(Except.ok.inj last).symm⟩

theorem checkOrigins_ok {py : Python} {submitted compiled : List String}
    {origins : Dict String CompileOrigin} {u : PUnit}
    (done : checkOrigins py submitted compiled origins = .ok u) :
    (∀ p, p ∈ origins.keys ↔ p ∈ compiled ∧ p ∉ submitted) ∧
    (∀ p origin, origins.get? p = some origin →
      generatedNodeId py origin.compilerId origin.sources origin.localKey = .ok (leafOf p) ∧
        generatedNodeIdPrefix.toList <+: (leafOf p).toList) ∧
    ∀ p ∈ origins.keys, ∀ q ∈ origins.keys, leafOf p = leafOf q → p = q := by
  obtain ⟨_,_,rest⟩ := bind_ok.mp done
  obtain ⟨_,cover,rest⟩ := bind_ok.mp rest
  obtain ⟨_,_,rest⟩ := bind_ok.mp rest
  obtain ⟨_,identity,rest⟩ := bind_ok.mp rest
  obtain ⟨leaves,distinct,_⟩ := bind_ok.mp rest
  rw [refuseIf_ok,not_not] at cover
  have new : ∀ p, p ∈ origins.keys ↔ p ∈ compiled ∧ p ∉ submitted := by
    intro p
    constructor
    · intro inside
      obtain ⟨found,outside⟩ := List.mem_filter.mp (cover.1 inside)
      exact ⟨found,of_decide_eq_true outside⟩
    · rintro ⟨found,outside⟩
      exact cover.2 (List.mem_filter.mpr ⟨found,decide_eq_true outside⟩)
  have listed : ∀ p ∈ origins.keys,
      p ∈ sortedBy id (compiled.filter fun path => path ∉ submitted).dedup := fun p inside =>
    (mem_sortedBy _ _ p).mpr (List.mem_dedup.mpr (cover.1 inside))
  refine ⟨new,fun p origin held => ?_,fun p inP q inQ same => ?_⟩
  · have checked := forM_ok identity p (listed p ((Dict.mem_keys_iff _ _).mpr ⟨origin,held⟩))
    unfold checkIdentity at checked
    rw [held] at checked
    obtain ⟨expected,generated,last⟩ := bind_ok.mp checked
    rw [refuseIf_ok] at last
    push Not at last
    refine ⟨?_,last.1⟩
    rw [last.2.2.2]
    exact mapError_ok.mp generated
  · have leaves_ := foldlM_leaves (fun _ _ _ => checkLeaf_step) distinct List.nodup_nil
    rw [List.nil_append] at leaves_
    exact List.inj_on_of_nodup_map leaves_ (listed p inP) (listed q inQ) same

theorem compileGraph_ok {py : Python} {sameWire : Json.Value → Json.Value → Bool} {s : Submission}
    {raw : Json.Value} {result : CompiledGraph}
    (done : compileGraph py sameWire s raw = .ok result) :
    Compiled py s result := by
  obtain ⟨submitted,limited,rest⟩ := bind_ok.mp done
  obtain ⟨rfl,_⟩ := checkLimits_ok limited
  obtain ⟨_,plain,rest⟩ := bind_ok.mp rest
  obtain ⟨_,_,parsed⟩ := bind_ok.mp rest
  rw [refuseIf_ok] at plain
  obtain ⟨reply,_,rest⟩ := bind_ok.mp parsed
  obtain ⟨_,_,rest⟩ := bind_ok.mp rest
  obtain ⟨_,_,rest⟩ := bind_ok.mp rest
  obtain ⟨_,_,rest⟩ := bind_ok.mp rest
  obtain ⟨passCount,_,rest⟩ := bind_ok.mp rest
  obtain ⟨attempted,_,rest⟩ := bind_ok.mp rest
  obtain ⟨origins,_,rest⟩ := bind_ok.mp rest
  obtain ⟨graph,read,rest⟩ := bind_ok.mp rest
  obtain ⟨compiled,limits,rest⟩ := bind_ok.mp rest
  obtain ⟨_,_,rest⟩ := bind_ok.mp rest
  obtain ⟨_,checked,rest⟩ := bind_ok.mp rest
  obtain ⟨_,_,rest⟩ := bind_ok.mp rest
  obtain ⟨_,_,rest⟩ := bind_ok.mp rest
  obtain ⟨_,_,last⟩ := bind_ok.mp rest
  cases last
  obtain ⟨rfl,nodes,links,depth⟩ := checkLimits_ok limits
  obtain ⟨covered,generated,unique⟩ := checkOrigins_ok checked
  obtain ⟨found,_,rest⟩ := bind_ok.mp read
  obtain ⟨_,targets,same⟩ := bind_ok.mp rest
  cases same
  rw [refuseIf_ok] at targets
  refine ⟨fun target inside => ?_,covered,fun p origin held => (generated p origin held).1,unique,
    fun p inside q old same => ?_,nodes,links,depth⟩
  · by_contra outside
    exact targets ⟨target,inside,outside⟩
  · obtain ⟨origin,held⟩ := (Dict.mem_keys_iff _ _).mp inside
    exact plain ⟨q,old,same ▸ (generated p origin held).2⟩

/-- An admitted delta stands beside its unchanged parent and reads it through its joins; a reply
that is taken has exactly the new paths that its origins account for. Neither writes what it was
given, whether it is admitted or refused. -/
theorem admission (py : Python) :
    (∀ otherDiagnostics parent a, ((admitHeld py otherDiagnostics a).run.run parent).2 = parent ∧
      ∀ result, ((admitHeld py otherDiagnostics a).run.run parent).1 = .ok result →
        Admitted py parent a result) ∧
    ∀ sameWire s raw graph, ((compileHeld py sameWire s raw).run.run graph).2 = graph ∧
      ∀ result, ((compileHeld py sameWire s raw).run.run graph).1 = .ok result →
        Compiled py { s with graph } result :=
  ⟨fun _ _ _ => ⟨rfl,fun _ done => admitParentGraph_ok done⟩,
    fun _ _ _ _ => ⟨rfl,fun _ done => compileGraph_ok done⟩⟩

/-! A reply that gives the submitted node another type. -/

def oneNode (nodeType : String) : Graph := ⟨[("g",.node ⟨nodeType,[],[],[]⟩)]⟩

def zeroDigest : String :=
  "sha256:0000000000000000000000000000000000000000000000000000000000000000"

def gradient : Submission :=
  ⟨oneNode "dev.image.gradient",["g"],zeroDigest,["test.compiler"],fun _ => none⟩

def invertWire : Json.Value :=
  .obj [("nodes",.obj [("g",.obj [("nodeType",.str "dev.image.invert"),("inputs",.obj [])])])]

def invertMembers : Json.Object :=
  [("type",.str "compileGraphResult"),("requestId",.str "request-1"),("blobs",.arr []),
    ("generationKey",.str zeroDigest),("graph",invertWire),("targets",.arr [.str "g"]),
    ("passCount",.int 1),("attemptedGeneratedCounts",.arr [.int 0]),("origins",.arr [])]

private theorem invertWire_read : graphFromWire invertWire = .ok (oneNode "dev.image.invert") :=
  graph_back (oneNode "dev.image.invert") invertWire (by decide) rfl

private theorem invert_length : canonicalLength (.obj invertMembers) = some 296 := by
  decide +kernel

private theorem invert_envelope : checkEnvelope (.obj invertMembers) = .ok invertMembers := by
  rw [checkEnvelope,invert_length]
  rfl

def inverted : CompiledGraph :=
  ⟨oneNode "dev.image.invert",["g"],zeroDigest,Dict.empty⟩

/-- A function on texts that the run below does not call. -/
def silentPython : Python := ⟨id,fun _ => ""⟩

private theorem gradient_inverts (sameWire : Json.Value → Json.Value → Bool) :
    compileGraph silentPython sameWire gradient (.obj invertMembers) = .ok inverted := by
  refine bind_ok.mpr ⟨["g"],rfl,bind_ok.mpr ⟨⟨⟩,?_,bind_ok.mpr ⟨⟨⟩,rfl,?_⟩⟩⟩
  · exact refuseIf_ok.mpr (by decide)
  refine bind_ok.mpr ⟨invertMembers,invert_envelope,bind_ok.mpr ⟨⟨⟩,?_,?_⟩⟩
  · exact refuseIf_ok.mpr (by decide)
  refine bind_ok.mpr ⟨⟨⟩,?_,bind_ok.mpr ⟨⟨⟩,?_,bind_ok.mpr ⟨1,rfl,bind_ok.mpr ⟨[0],rfl,?_⟩⟩⟩⟩
  · exact refuseIf_ok.mpr (by decide)
  · exact refuseIf_ok.mpr (by decide)
  refine bind_ok.mpr ⟨Dict.empty,rfl,bind_ok.mpr ⟨oneNode "dev.image.invert",?_,?_⟩⟩
  · refine bind_ok.mpr ⟨oneNode "dev.image.invert",mapError_ok.mpr invertWire_read,?_⟩
    rfl
  refine bind_ok.mpr ⟨["g"],rfl,bind_ok.mpr ⟨⟨⟩,rfl,bind_ok.mpr ⟨⟨⟩,rfl,?_⟩⟩⟩
  refine bind_ok.mpr ⟨⟨⟩,rfl,bind_ok.mpr ⟨⟨⟩,rfl,bind_ok.mpr ⟨⟨⟩,?_,rfl⟩⟩⟩
  exact refuseIf_ok.mpr (by decide +kernel)

theorem admission_inverted : Compiled silentPython gradient inverted :=
  ((admission silentPython).2 (fun _ _ => true) gradient (.obj invertMembers) gradient.graph).2
    inverted (gradient_inverts fun _ _ => true)

/-- The compiler's reply is taken although it changes the node that was submitted. -/
theorem submitted_node_rewritten :
    compileGraph silentPython (fun _ _ => true) gradient (.obj invertMembers) = .ok inverted ∧
    graphPaths gradient.graph = ["g"] ∧ graphPaths inverted.graph = ["g"] ∧
    nodeTypes gradient.graph.nodes = ["dev.image.gradient"] ∧
    nodeTypes inverted.graph.nodes = ["dev.image.invert"] :=
  ⟨gradient_inverts _,rfl,rfl,rfl,rfl⟩

end Dinkster.Compile
