import Dinkster.Graph.Inputs

/-! Full node paths of a graph and of the bodies of its regions, with the counts that budgets are
measured in and the edges between paths. A node without a slash in its id owns the paths that begin
with its id. -/
namespace Dinkster.Paths

def underPath (scope nodeId : String) : String :=
  if scope = "" then nodeId else scope ++ "/" ++ nodeId

/-- What `_paths_and_counts` adds up. -/
structure Extent where
  paths : List String
  nodes : Nat
  links : Nat
  depth : Nat

def Extent.nothing : Extent := ⟨[],0,0,0⟩

def Extent.add (a b : Extent) : Extent :=
  ⟨a.paths ++ b.paths,a.nodes + b.nodes,a.links + b.links,max a.depth b.depth⟩

def isLink : InputValue → Bool
  | .link _ => true
  | _ => false

def linkCount (inputs : Inputs) : Nat := inputs.countP fun e => isLink e.2

mutual

/-- `_paths_and_counts` of the nodes at one level; each pending graph is taken up once. -/
def nodesExtent (scope : String) (depth : Nat) : List (String × AnyNode) → Extent
  | [] => .nothing
  | (nodeId,node) :: rest =>
    (nodeExtent (underPath scope nodeId) depth node).add (nodesExtent scope depth rest)

def nodeExtent (path : String) (depth : Nat) : AnyNode → Extent
  | .node node => ⟨[path],1,linkCount node.inputs,depth⟩
  | .region ⟨_,⟨body⟩,_,inputs,_,_,outputs,_,_,_,continueSource⟩ =>
    Extent.add ⟨[path],1,linkCount inputs + outputs.length + continueSource.toList.length,depth⟩
      (nodesExtent path (depth + 1) body)

end

/-- An input or a region's output at `target` reads an output of `source`. -/
structure Edge where
  target : String
  inputId : String
  source : String
  outputId : String
  deriving DecidableEq

def linkEdge (scope path : String) : String × InputValue → Option Edge
  | (inputId,.link link) => some ⟨path,inputId,underPath scope link.nodeId,link.outputId⟩
  | _ => none

def inputEdges (scope path : String) (inputs : Inputs) : List Edge :=
  inputs.filterMap (linkEdge scope path)

mutual

def nodesEdges (scope : String) : List (String × AnyNode) → List Edge
  | [] => []
  | (nodeId,node) :: rest => nodeEdges scope (underPath scope nodeId) node ++ nodesEdges scope rest

def nodeEdges (scope path : String) : AnyNode → List Edge
  | .node node => inputEdges scope path node.inputs
  | .region ⟨_,⟨body⟩,_,inputs,_,_,outputs,_,_,_,continueSource⟩ =>
    inputEdges scope path inputs ++
      (outputs.map fun out =>
        ⟨path,out.1,underPath path out.2.source.nodeId,out.2.source.outputId⟩) ++
      (continueSource.toList.map fun link =>
        ⟨path,"continueSource",underPath path link.nodeId,link.outputId⟩) ++
      nodesEdges path body

end

theorem mem_nodesExtent {scope : String} {depth : Nat} {nodes : List (String × AnyNode)}
    {p : String} : p ∈ (nodesExtent scope depth nodes).paths ↔
      ∃ e ∈ nodes, p ∈ (nodeExtent (underPath scope e.1) depth e.2).paths := by
  induction nodes with
  | nil => simp [nodesExtent,Extent.nothing]
  | cons e rest ih =>
    rw [nodesExtent]
    simp only [Extent.add,List.mem_append,ih,List.mem_cons,exists_eq_or_imp]

theorem mem_nodesEdges {scope : String} {nodes : List (String × AnyNode)} {edge : Edge} :
    edge ∈ nodesEdges scope nodes ↔
      ∃ e ∈ nodes, edge ∈ nodeEdges scope (underPath scope e.1) e.2 := by
  induction nodes with
  | nil => simp [nodesEdges]
  | cons e rest ih =>
    rw [nodesEdges]
    simp only [List.mem_append,ih,List.mem_cons,exists_eq_or_imp]

/-- `path` is `base` or inside it. -/
def Inside (base path : String) : Prop := path = base ∨ ∃ rest, path = base ++ "/" ++ rest

theorem Inside.self (base : String) : Inside base base := .inl rfl

theorem inside_underPath {base : String} (named : base ≠ "") (nodeId : String) :
    Inside base (underPath base nodeId) := by
  rw [underPath,if_neg named]
  exact .inr ⟨nodeId,rfl⟩

theorem Inside.trans {a b c : String} (outer : Inside a b) (inner : Inside b c) : Inside a c := by
  rcases inner with rfl | ⟨rest,rfl⟩
  · exact outer
  · rcases outer with rfl | ⟨more,rfl⟩
    · exact .inr ⟨rest,rfl⟩
    · exact .inr ⟨more ++ "/" ++ rest,by simp only [String.append_assoc]⟩

theorem underPath_named {scope : String} (named : scope ≠ "") (nodeId : String) :
    underPath scope nodeId ≠ "" := by
  rw [underPath,if_neg named]
  intro same
  have chars := congrArg String.toList same
  simp at chars

mutual

theorem nodeExtent_inside : ∀ (node : AnyNode) (path : String) (depth : Nat), path ≠ "" →
    ∀ p ∈ (nodeExtent path depth node).paths, Inside path p
  | .node node,path,depth,_,p,inside => by
    rw [nodeExtent,List.mem_singleton] at inside
    exact .inl inside
  | .region ⟨_,⟨body⟩,_,_,_,_,_,_,_,_,_⟩,path,depth,named,p,inside => by
    rw [nodeExtent] at inside
    rcases List.mem_append.mp inside with own | below
    · exact .inl (List.mem_singleton.mp own)
    · exact nodesExtent_inside body path (depth + 1) named p below

theorem nodesExtent_inside : ∀ (nodes : List (String × AnyNode)) (scope : String) (depth : Nat),
    scope ≠ "" → ∀ p ∈ (nodesExtent scope depth nodes).paths, Inside scope p
  | [],scope,depth,_,p,inside => by simp [nodesExtent,Extent.nothing] at inside
  | (nodeId,node) :: rest,scope,depth,named,p,inside => by
    rw [nodesExtent] at inside
    rcases List.mem_append.mp inside with here | there
    · exact (inside_underPath named nodeId).trans
        (nodeExtent_inside node _ depth (underPath_named named nodeId) p here)
    · exact nodesExtent_inside rest scope depth named p there

end

theorem mem_inputEdges {scope path : String} {inputs : Inputs} {edge : Edge} :
    edge ∈ inputEdges scope path inputs ↔ ∃ inputId link, (inputId,.link link) ∈ inputs ∧
      edge = ⟨path,inputId,underPath scope link.nodeId,link.outputId⟩ := by
  rw [inputEdges,List.mem_filterMap]
  constructor
  · rintro ⟨⟨inputId,value⟩,inside,read⟩
    cases value with
    | link link => exact ⟨inputId,link,inside,(Option.some.inj read).symm⟩
    | typed _ => cases read
    | literal _ => cases read
  · rintro ⟨inputId,link,inside,rfl⟩
    exact ⟨_,inside,rfl⟩

mutual

theorem nodeEdges_cases : ∀ (node : AnyNode) (scope path : String), path ≠ "" →
    ∀ edge ∈ nodeEdges scope path node,
      edge ∈ inputEdges scope path (inputsOf node) ∨ Inside path edge.target ∧
        Inside path edge.source
  | .node node,scope,path,_,edge,inside => .inl (by rw [nodeEdges] at inside; exact inside)
  | .region ⟨_,⟨body⟩,_,_,_,_,_,_,_,_,_⟩,scope,path,named,edge,inside => by
    rw [nodeEdges] at inside
    simp only [List.mem_append,List.mem_map] at inside
    rcases inside with ((own | ⟨out,_,rfl⟩) | ⟨link,_,rfl⟩) | below
    · exact .inl own
    · exact .inr ⟨.self path,inside_underPath named _⟩
    · exact .inr ⟨.self path,inside_underPath named _⟩
    · exact .inr (nodesEdges_inside body path named edge below)

theorem nodesEdges_inside : ∀ (nodes : List (String × AnyNode)) (scope : String), scope ≠ "" →
    ∀ edge ∈ nodesEdges scope nodes, Inside scope edge.target ∧ Inside scope edge.source
  | [],scope,_,edge,inside => by simp [nodesEdges] at inside
  | (nodeId,node) :: rest,scope,named,edge,inside => by
    rw [nodesEdges] at inside
    rcases List.mem_append.mp inside with here | there
    · have below := inside_underPath named nodeId
      rcases nodeEdges_cases node scope _ (underPath_named named nodeId) edge here with
        input | ⟨target,source⟩
      · obtain ⟨inputId,link,_,rfl⟩ := mem_inputEdges.mp input
        exact ⟨below,inside_underPath named _⟩
      · exact ⟨below.trans target,below.trans source⟩
    · exact nodesEdges_inside rest scope named edge there

end

/-- The first segment of a path. -/
def root (path : String) : String := String.ofList (path.toList.takeWhile fun c => c ≠ '/')

theorem root_inside {base path : String} (plain : '/' ∉ base.toList) (inside : Inside base path) :
    root path = base := by
  have whole : ∀ rest : List Char, (rest = [] ∨ ∃ more, rest = '/' :: more) →
      (base.toList ++ rest).takeWhile (fun c => c ≠ '/') = base.toList := by
    intro rest ends
    have kept : ∀ c ∈ base.toList, decide (c ≠ '/') = true := fun c member =>
      decide_eq_true fun same => plain (same ▸ member)
    rw [List.takeWhile_append_of_pos kept]
    rcases ends with rfl | ⟨more,rfl⟩
    · simp
    · simp
  rcases inside with rfl | ⟨rest,rfl⟩
  · have own := whole [] (.inl rfl)
    rw [List.append_nil] at own
    rw [root,own,String.ofList_toList]
  · have own := whole ('/' :: rest.toList) (.inr ⟨_,rfl⟩)
    have spelled : (base ++ "/" ++ rest).toList = base.toList ++ '/' :: rest.toList := by
      simp
    rw [root,spelled,own,String.ofList_toList]

theorem validNodeId_plain {nodeId : String} (valid : validNodeId nodeId = true) :
    nodeId ≠ "" ∧ '/' ∉ nodeId.toList := by
  rw [validNodeId,Bool.and_eq_true] at valid
  refine ⟨of_decide_eq_true valid.1,fun inside => ?_⟩
  have clean := valid.2
  rw [Bool.not_eq_true',List.any_eq_false] at clean
  exact clean '/' inside (by decide)

end Dinkster.Paths
