import Dinkster.Schema.TypeExprWire

/-! Graph documents: plain nodes, regions over a body graph, and the values their inputs
hold. Mappings are association lists in insertion order. -/
namespace Dinkster

structure Link where
  nodeId : String
  outputId : String
  deriving DecidableEq

structure TypedLiteral where
  typeId : String
  value : Json.Value

/-- What a node's input holds. -/
inductive InputValue
  | link (link : Link)
  | typed (typed : TypedLiteral)
  | literal (value : Json.Value)

abbrev Inputs := List (String × InputValue)

structure GraphNode where
  nodeType : String
  inputs : Inputs
  outputMembers : List (String × List String)
  slotVariants : List (String × String)

def portsNodeId : String := "$region"

def nodeIdForbiddenChars : List Char := ['/','[',']']

def validNodeId (nodeId : String) : Bool :=
  nodeId ≠ "" && !(nodeId.toList.any fun c => nodeIdForbiddenChars.contains c)

inductive RegionKind
  | map | fold | while
  deriving DecidableEq

inductive BindingMode
  | zip | cross | broadcast
  deriving DecidableEq

inductive OutputMode
  | gather | compact | state | flatten | last
  deriving DecidableEq

inductive CachePolicy
  | reuse | rerun
  deriving DecidableEq

structure RegionOutput where
  source : Link
  mode : OutputMode
  deriving DecidableEq

structure PortType where
  expr : TypeExpr
  wellFormed : expr.wellFormed = true

structure RegionNode (Body : Type) where
  kind : RegionKind
  body : Body
  ports : List (String × PortType)
  inputs : Inputs
  elementPorts : List String
  statePorts : List String
  outputs : List (String × RegionOutput)
  binding : BindingMode
  cachePolicy : CachePolicy
  maxIterations : Option Int
  continueSource : Option Link

mutual

inductive AnyNode
  | node (node : GraphNode)
  | region (region : RegionNode Graph)

structure Graph where
  nodes : List (String × AnyNode)

end

end Dinkster
