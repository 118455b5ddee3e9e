import Dinkster.Graph.Loops
import Dinkster.Graph.Lowering
import Dinkster.Graph.Paths
import Dinkster.Graph.Wire
import Mathlib

/-! Compile admission. A parent admits a wire delta beside its own nodes, and takes the reply of a
graph compiler in place of the graph it submitted. Both are refused with a code of their own. -/
namespace Dinkster.Compile
open Canonical Fallible Paths Json Json.Object

abbrev Diagnostic := Loops.Diagnostic

/-- Python's `repr` of a string, and the hex digest of the SHA-256 of an ASCII text. -/
structure Python where
  repr : String → String
  sha256 : List Char → String

def generatedNodeIdPrefix : String := "$gen-"

/-- `generated_node_id` -/
def generatedNodeId (py : Python) (compilerId : String) (sources : List String)
    (localKey : String) : Except String String := do
  refuseIf ('.' ∉ compilerId.toList ∨ compilerId.toList.head? = some '.' ∨
    compilerId.toList.getLast? = some '.') "compiler_id must be namespace-qualified"
  refuseIf (localKey = "") "local_key must be a non-empty string"
  refuseIf (sources = [] ∨ "" ∈ sources) "sources must be a sequence of non-empty strings"
  let canonical := text .compact (.obj [("compiler",.str compilerId),("key",.str localKey),
    ("sources",.arr (sources.map .str))])
  return generatedNodeIdPrefix ++ String.ofList ((py.sha256 canonical).toList.take 16)

/-- The segments of `path.split("/")`. -/
def segments (path : String) : List String := (path.toList.splitOn '/').map String.ofList

def validFullPath (path : String) : Bool := path ≠ "" && (segments path).all validNodeId

/-- `path.rsplit("/", 1)[-1]` -/
def leafOf (path : String) : String :=
  String.ofList (path.toList.reverse.takeWhile fun c => c ≠ '/').reverse

mutual

def finiteFloats : Json.Value → Bool
  | .float t => t.finite
  | .arr items => allFinite items
  | .obj members => membersFinite members
  | .null => true
  | .bool _ => true
  | .int _ => true
  | .str _ => true

def allFinite : List Json.Value → Bool
  | [] => true
  | v :: rest => finiteFloats v && allFinite rest

def membersFinite : Object → Bool
  | [] => true
  | (_,v) :: rest => finiteFloats v && membersFinite rest

end

def canonicalLength (v : Json.Value) : Option Nat :=
  if finiteFloats v then some (text .compact v).length else none

structure GraphAdmissionOrigin where
  nodeId : String
  sources : List String
  localKey : String
  deriving DecidableEq

structure VirtualGraphJoin where
  targetNodeId : String
  inputId : String
  sourceNodeId : String
  outputId : String
  deriving DecidableEq

def maxNodes : Nat := 4096

def maxLinks : Nat := 16384

def maxPasses : Nat := 32

def maxDepth : Nat := 16

def maxGeneratedPerPass : Nat := 1024

def maxReplyBytes : Nat := 8 * 1024 * 1024

structure ParentGraphBudget where
  nodes : Nat
  edges : Nat
  depth : Nat
  headerBytes : Nat
  nodes_le : nodes ≤ maxNodes
  edges_le : edges ≤ maxLinks
  depth_le : depth ≤ maxDepth
  headerBytes_le : headerBytes ≤ maxReplyBytes

inductive AdmissionCode
  | idFormat | malformedDelta | recursionBudget | headerBudget | idCollision | originCoverage
  | crossBoundaryLink | virtualJoin | nodeBudget | edgeBudget | graphValidation
  deriving DecidableEq

structure GraphAdmissionError where
  code : AdmissionCode
  message : String
  diagnostics : List Diagnostic

structure AdmittedGraph where
  graph : Nodes
  origins : Dict String GraphAdmissionOrigin

structure Admission where
  delta : Json.Value
  namespaceId : String
  origins : List GraphAdmissionOrigin
  virtualJoins : List VirtualGraphJoin
  budget : ParentGraphBudget

def admissionRefuse (code : AdmissionCode) (message : String) : GraphAdmissionError :=
  ⟨code,message,[]⟩

def admissionHeader (a : Admission) : Json.Value :=
  .obj [("delta",a.delta),("namespace",.str a.namespaceId),
    ("origins",.arr (a.origins.map fun o => .obj [("nodeId",.str o.nodeId),
      ("sources",.arr (o.sources.map .str)),("localKey",.str o.localKey)])),
    ("virtualJoins",.arr (a.virtualJoins.map fun j => .obj [("targetNodeId",.str j.targetNodeId),
      ("inputId",.str j.inputId),("sourceNodeId",.str j.sourceNodeId),
      ("outputId",.str j.outputId)]))]

def wireBodies (wire : Json.Value) : List Json.Value :=
  match wire with
  | .obj document =>
    match get? document "nodes" with
    | some (.obj nodes) => nodes.filterMap fun
        | (_,.obj entry) =>
          match get? entry "region" with
          | some (.obj region) => some ((get? region "body").getD .null)
          | _ => none
        | _ => none
    | _ => []
  | _ => []

def wireExceedsLimit : Nat → Json.Value → Bool
  | 0,wire => !(wireBodies wire).isEmpty
  | depth + 1,wire => (wireBodies wire).any (wireExceedsLimit depth)

def takeOrigin (py : Python) (origins : Dict String GraphAdmissionOrigin)
    (origin : GraphAdmissionOrigin) :
    Except GraphAdmissionError (Dict String GraphAdmissionOrigin) := do
  refuseIf (validFullPath origin.nodeId = false ∨ origin.localKey = "" ∨ origin.sources = [] ∨
    origin.sources.all validFullPath = false)
    (admissionRefuse .originCoverage "origin values are malformed")
  refuseIf (origin.nodeId ∈ origins.keys)
    (admissionRefuse .idCollision ("duplicate origin " ++ py.repr origin.nodeId))
  return origins.set origin.nodeId origin

def checkBoundary (py : Python) (rootIds : List String) (e : String × AnyNode) :
    Except GraphAdmissionError PUnit :=
  (inputsOf e.2).forM fun input =>
    refuseIf (∃ source ∈ source? input.2,source ∉ rootIds) (admissionRefuse .crossBoundaryLink
      ("delta input " ++ py.repr e.1 ++ "/" ++ py.repr input.1 ++
        " crosses its boundary without a join"))

def checkGenerated (py : Python) (namespaceId : String) (origins : Dict String GraphAdmissionOrigin)
    (candidatePaths : List String) (leaves : List String) (path : String) :
    Except GraphAdmissionError (List String) :=
  match origins.get? path with
  | none => .error (admissionRefuse .originCoverage "KeyError")
  | some origin => do
    refuseIf (path ∈ origin.sources ∨ ∃ source ∈ origin.sources, source ∉ candidatePaths)
      (admissionRefuse .originCoverage
        ("origin " ++ py.repr path ++ " names an unverifiable source"))
    let expected ← (generatedNodeId py namespaceId origin.sources origin.localKey).mapError
      fun message => admissionRefuse .idFormat
        ("generated-node identity is malformed: " ++ message)
    refuseIf (leafOf path ≠ expected) (admissionRefuse .idFormat
      ("generated node id " ++ py.repr (leafOf path) ++ " is invalid"))
    refuseIf (leafOf path ∈ leaves) (admissionRefuse .idCollision
      ("generated leaf " ++ py.repr (leafOf path) ++ " is duplicated"))
    return leaves ++ [leafOf path]

def addLink (inputId : String) (link : Link) (node : AnyNode) : AnyNode :=
  withInputs (inputsOf node ++ [(inputId,.link link)]) node

local instance wiredLawful : LawfulBEq (String × String) := inferInstance

def joinNode (py : Python) (available : List String) (state : Nodes × List (String × String))
    (join : VirtualGraphJoin) : Except GraphAdmissionError (Nodes × List (String × String)) := do
  refuseIf (join.targetNodeId = "" ∨ join.inputId = "" ∨ join.sourceNodeId = "" ∨
    join.outputId = "") (admissionRefuse .virtualJoin
      "virtual join fields must be non-empty strings")
  match state.1.get? join.targetNodeId with
  | none => .error (admissionRefuse .virtualJoin
      ("virtual join target " ++ py.repr join.targetNodeId ++ " is not a new root node"))
  | some target => do
    refuseIf (join.sourceNodeId ∉ available) (admissionRefuse .virtualJoin
      ("virtual join source " ++ py.repr join.sourceNodeId ++ " is outside the candidate"))
    refuseIf ((join.targetNodeId,join.inputId) ∈ state.2 ∨
      join.inputId ∈ (inputsOf target).map (·.1)) (admissionRefuse .virtualJoin
        ("virtual join collides with input " ++ py.repr join.targetNodeId ++ "/" ++
          py.repr join.inputId))
    return (state.1.set join.targetNodeId
        (addLink join.inputId ⟨join.sourceNodeId,join.outputId⟩ target),
      state.2 ++ [(join.targetNodeId,join.inputId)])

/-- `_with_virtual_joins` -/
def withVirtualJoins (py : Python) (delta parent : Nodes) (joins : List VirtualGraphJoin) :
    Except GraphAdmissionError Nodes := do
  let joined ← joins.foldlM (joinNode py (parent.keys ++ delta.keys)) (delta,[])
  return joined.1

def invalidNodeIds (py : Python) (nodes : Nodes) : List Diagnostic :=
  (nodes.keys.filter fun nodeId => !validNodeId nodeId).map fun nodeId =>
    ⟨"error","invalid-node-id",
      "node ids must be non-empty and may not contain '/', '[' or ']': " ++ py.repr nodeId,
      some nodeId⟩

def blocking (deltaPaths : List String) (diagnostics : List Diagnostic) : List Diagnostic :=
  diagnostics.filter fun d => decide (d.severity = "error") ||
    (decide (d.code = "type-mismatch") && d.nodeId.any fun path => path ∈ deltaPaths)

section Admit

variable (py : Python) (otherDiagnostics : Nodes → List Diagnostic)

def parseDelta (a : Admission) : Except GraphAdmissionError Nodes := do
  refuseIf ('.' ∉ a.namespaceId.toList ∨ a.namespaceId.toList.head? = some '.' ∨
    a.namespaceId.toList.getLast? = some '.')
    (admissionRefuse .idFormat "admission namespace must be namespace-qualified")
  match canonicalLength (admissionHeader a) with
  | none =>
    if wireExceedsLimit a.budget.depth a.delta then
      .error (admissionRefuse .recursionBudget "delta exceeds its recursion budget")
    else .error (admissionRefuse .malformedDelta "admission header is not canonical JSON")
  | some bytes => do
    refuseIf (a.budget.headerBytes < bytes) (admissionRefuse .headerBudget
      ("admission header has " ++ toString bytes ++ " bytes, budget is " ++
        toString a.budget.headerBytes))
    refuseIf (wireExceedsLimit a.budget.depth a.delta = true)
      (admissionRefuse .recursionBudget "delta exceeds its recursion budget")
    let parsed ← (graphFromWire a.delta).mapError fun error =>
      admissionRefuse .malformedDelta ("delta graph wire is malformed: " ++ error.text)
    return Dict.ofList parsed.nodes

def checkDelta (parent : Nodes) (a : Admission) (delta : Nodes) :
    Except GraphAdmissionError (Dict String GraphAdmissionOrigin) := do
  let parentPaths := (nodesExtent "" 0 parent.entries).paths
  let deltaPaths := (nodesExtent "" 0 delta.entries).paths
  let collisions := sortedBy id (parent.keys.filter fun nodeId => nodeId ∈ delta.keys)
  refuseIf (collisions ≠ []) (admissionRefuse .idCollision
    ("delta collides with existing node " ++ py.repr (collisions.headD "")))
  let origins ← a.origins.foldlM (takeOrigin py) Dict.empty
  refuseIf (¬ (origins.keys ⊆ deltaPaths ∧ deltaPaths ⊆ origins.keys))
    (admissionRefuse .originCoverage "origins do not exactly cover delta nodes")
  delta.entries.forM (checkBoundary py delta.keys)
  let _ ← (sortedBy id deltaPaths.dedup).foldlM
    (checkGenerated py a.namespaceId origins (parentPaths ++ deltaPaths)) []
  return origins

def checkBudget (budget : ParentGraphBudget) (candidate : Nodes) :
    Except GraphAdmissionError PUnit := do
  let extent := nodesExtent "" 0 candidate.entries
  refuseIf (budget.nodes < extent.nodes) (admissionRefuse .nodeBudget ("candidate has " ++
    toString extent.nodes ++ " nodes, budget is " ++ toString budget.nodes))
  refuseIf (budget.edges < extent.links) (admissionRefuse .edgeBudget ("candidate has " ++
    toString extent.links ++ " edges, budget is " ++ toString budget.edges))
  refuseIf (budget.depth < extent.depth) (admissionRefuse .recursionBudget
    ("candidate reaches depth " ++ toString extent.depth ++ ", budget is " ++
      toString budget.depth))

/-- `admit_parent_graph`. `otherDiagnostics` is what elaboration and validation report of a
candidate besides its node ids. -/
def admitParentGraph (parent : Nodes) (a : Admission) :
    Except GraphAdmissionError AdmittedGraph := do
  let delta ← parseDelta a
  let origins ← checkDelta py parent a delta
  let joined ← withVirtualJoins py delta parent a.virtualJoins
  let candidate := parent.update joined
  checkBudget a.budget candidate
  let blocked := blocking (nodesExtent "" 0 delta.entries).paths
    (invalidNodeIds py candidate ++ otherDiagnostics candidate)
  refuseIf (blocked ≠ []) ⟨.graphValidation,"admitted candidate failed graph validation",blocked⟩
  return ⟨candidate,origins⟩

/-- The same with the parent where its caller holds it. -/
def admitHeld (a : Admission) : ExceptT GraphAdmissionError (StateM Nodes) AdmittedGraph := do
  let parent ← get
  ExceptT.mk (pure (admitParentGraph py otherDiagnostics parent a))

end Admit

inductive CompileCode
  | unknownGeneration | timeout | replyOversize | malformedReply | nodeLimit | linkLimit | passLimit
  | depthLimit | generatedLimit | targetMismatch | selectorEmitted | selectorInput | idCollision
  | idFormat | originCoverage | generationMismatch | compilerFailure
  deriving DecidableEq

def CompileCode.value : CompileCode → String
  | .unknownGeneration => "compile-unknown-generation"
  | .timeout => "compile-timeout"
  | .replyOversize => "compile-reply-oversize"
  | .malformedReply => "compile-malformed-reply"
  | .nodeLimit => "compile-node-limit"
  | .linkLimit => "compile-link-limit"
  | .passLimit => "compile-pass-limit"
  | .depthLimit => "compile-depth-limit"
  | .generatedLimit => "compile-generated-limit"
  | .targetMismatch => "compile-target-mismatch"
  | .selectorEmitted => "compile-selector-emitted"
  | .selectorInput => "compile-selector-input"
  | .idCollision => "compile-id-collision"
  | .idFormat => "compile-id-format"
  | .originCoverage => "compile-origin-coverage"
  | .generationMismatch => "compile-generation-mismatch"
  | .compilerFailure => "compile-compiler-failure"

/-- `_KNOWN_REMOTE_ERRORS` -/
def CompileCode.known : List CompileCode :=
  [.unknownGeneration,.timeout,.replyOversize,.malformedReply,.nodeLimit,.linkLimit,.passLimit,
    .depthLimit,.generatedLimit,.targetMismatch,.selectorEmitted,.selectorInput,.idCollision,
    .idFormat,.originCoverage,.generationMismatch,.compilerFailure]

/-- A refusal with its code, or a `ValueError` that is not caught. -/
inductive CompileError
  | refused (code : CompileCode) (message : String)
  | value (message : String)

structure CompileOrigin where
  nodeId : String
  compilerId : String
  passIndex : Nat
  sources : List String
  localKey : String
  deriving DecidableEq

structure CompiledGraph where
  graph : Graph
  targets : List String
  extensionSnapshotDigest : String
  origins : Dict String CompileOrigin

structure Submission where
  graph : Graph
  targets : List String
  generationKey : String
  compilerIds : List String
  schemas : Lowering.Schemas

section Reply

variable (py : Python)

def malformed (message : String) : CompileError := .refused .malformedReply message

/-- `_check_limits` -/
def checkLimits (graph : Graph) : Except CompileError (List String) := do
  let extent := nodesExtent "" 0 graph.nodes
  refuseIf (maxNodes < extent.nodes)
    (.refused .nodeLimit ("compiled graph has " ++ toString extent.nodes ++ " nodes"))
  refuseIf (maxLinks < extent.links)
    (.refused .linkLimit ("compiled graph has " ++ toString extent.links ++ " links"))
  refuseIf (maxDepth < extent.depth)
    (.refused .depthLimit ("compiled graph reaches depth " ++ toString extent.depth))
  return extent.paths

mutual

/-- The node types under a graph. -/
def nodeTypes : List (String × AnyNode) → List String
  | [] => []
  | (_,node) :: rest => typesOf node ++ nodeTypes rest

def typesOf : AnyNode → List String
  | .node node => [node.nodeType]
  | .region ⟨_,⟨body⟩,_,_,_,_,_,_,_,_,_⟩ => nodeTypes body

end

/-- `_check_selectors` -/
def checkSelectors (schemas : Lowering.Schemas) (code : CompileCode) (graph : Graph) :
    Except CompileError PUnit :=
  (nodeTypes graph.nodes).forM fun nodeType =>
    refuseIf (∃ schema ∈ schemas nodeType, schema.selector.isSome = true)
      (.refused code ("selector node " ++ py.repr nodeType ++ " is not executable"))

def checkEnvelope (raw : Json.Value) : Except CompileError Object :=
  match raw with
  | .obj reply => do
    match canonicalLength (.obj reply) with
    | none => .error (malformed "compile reply is not canonical JSON")
    | some bytes => do
      refuseIf (maxReplyBytes < bytes) (.refused .replyOversize "compile reply exceeds 8 MiB")
      match get? reply "type",get? reply "requestId",get? reply "blobs" with
      | some (.str "compileGraphResult"),some (.str requestId),some (.arr []) => do
        refuseIf (requestId = "") (malformed "compile reply framing is malformed")
        match get? reply "errorName" with
        | none => return reply
        | some errorName => do
          refuseIf (∃ m ∈ reply, m.1 ∉ ["type","requestId","blobs","errorName","error"])
            (malformed "compile error envelope fields are malformed")
          match errorName,get? reply "error" with
          | _,none => .error (malformed "compile error envelope fields are malformed")
          | .str name,some (.str message) => do
            refuseIf (name = "") (malformed "compile error envelope values are malformed")
            match CompileCode.known.find? (·.value = name) with
            | some code => .error (.refused code message)
            | none => .error (.refused .compilerFailure
                ("unknown remote compile error " ++ name ++ ": " ++ message))
          | _,_ => .error (malformed "compile error envelope values are malformed")
      | _,_,_ => .error (malformed "compile reply framing is malformed")
  | _ => .error (malformed "compile reply must be a mapping with string keys")

def semanticFields : List String :=
  ["generationKey","graph","targets","passCount","attemptedGeneratedCounts","origins"]

def nats : List Json.Value → Option (List Nat)
  | [] => some []
  | .int (.ofNat n) :: rest => (nats rest).map (n :: ·)
  | _ => none

def checkFields (reply : Object) : Except CompileError PUnit :=
  refuseIf ((∃ field ∈ semanticFields, (get? reply field).isNone = true) ∨
    ∃ m ∈ reply, m.1 ∉ ["type","requestId","blobs"] ++ semanticFields)
    (malformed "compile success envelope fields are malformed")

def checkGeneration (s : Submission) (reply : Object) : Except CompileError PUnit :=
  match get? reply "generationKey" with
  | some (.str key) =>
    refuseIf (key ≠ s.generationKey) (.refused .generationMismatch "compile generation changed")
  | _ => .error (.refused .generationMismatch "compile generation changed")

def checkTargets (s : Submission) (reply : Object) : Except CompileError PUnit :=
  match get? reply "targets" with
  | some (.arr targets) =>
    refuseIf (asStrings targets ≠ some s.targets)
      (.refused .targetMismatch "compiled targets changed")
  | _ => .error (.refused .targetMismatch "compiled targets changed")

def readPassCount (reply : Object) : Except CompileError Nat :=
  match get? reply "passCount" with
  | some (.int (.ofNat passCount)) => do
    refuseIf (maxPasses < passCount) (.refused .passLimit "compile pass limit exceeded")
    return passCount
  | _ => .error (malformed "passCount must be a non-negative integer")

def readAttempted (passCount : Nat) (reply : Object) : Except CompileError (List Nat) :=
  match get? reply "attemptedGeneratedCounts" with
  | some (.arr items) =>
    match nats items with
    | none => .error (malformed "attemptedGeneratedCounts is malformed")
    | some attempted => do
      refuseIf (attempted.length ≠ passCount) (malformed "attemptedGeneratedCounts is malformed")
      refuseIf (∃ value ∈ attempted, maxGeneratedPerPass < value)
        (.refused .generatedLimit "generated-node attempt limit exceeded")
      return attempted
  | _ => .error (malformed "attemptedGeneratedCounts is malformed")

def originFields : List String := ["nodeId","compilerId","passIndex","sources","localKey"]

def originFromWire (passCount : Nat) (wire : Json.Value) : Except CompileError CompileOrigin :=
  match wire with
  | .obj members => do
    refuseIf ((∃ field ∈ originFields, (get? members field).isNone = true) ∨
      ∃ m ∈ members, m.1 ∉ originFields) (malformed "origin fields are malformed")
    match get? members "nodeId",get? members "compilerId",get? members "passIndex",
      get? members "sources",get? members "localKey" with
    | some (.str nodeId),some (.str compilerId),some (.int (.ofNat passIndex)),some (.arr items),
      some (.str localKey) =>
      match asStrings items with
      | none => .error (malformed "origin values are malformed")
      | some sources => do
        refuseIf (validFullPath nodeId = false ∨ compilerId = "" ∨ localKey = "" ∨
          passCount ≤ passIndex ∨ sources = [] ∨ sources.all validFullPath = false)
          (malformed "origin values are malformed")
        return ⟨nodeId,compilerId,passIndex,sources,localKey⟩
    | _,_,_,_,_ => .error (malformed "origin values are malformed")
  | _ => .error (malformed "origin fields are malformed")

def readOrigin (s : Submission) (passCount : Nat) (origins : Dict String CompileOrigin)
    (wire : Json.Value) : Except CompileError (Dict String CompileOrigin) := do
  let origin ← originFromWire passCount wire
  refuseIf (origin.compilerId ∉ s.compilerIds)
    (.refused .originCoverage ("unknown compiler " ++ py.repr origin.compilerId))
  refuseIf (origin.nodeId ∈ origins.keys)
    (.refused .idCollision ("duplicate origin " ++ py.repr origin.nodeId))
  return origins.set origin.nodeId origin

def readOrigins (s : Submission) (passCount : Nat) (reply : Object) :
    Except CompileError (Dict String CompileOrigin) :=
  match get? reply "origins" with
  | some (.arr items) => items.foldlM (readOrigin py s passCount) Dict.empty
  | _ => .error (malformed "origins must be a list")

def readGraph (s : Submission) (reply : Object) : Except CompileError Graph := do
  let graph ← (graphFromWire ((get? reply "graph").getD .null)).mapError fun error =>
    malformed ("compiled graph is malformed: " ++ error.text)
  refuseIf (∃ target ∈ s.targets, target ∉ graph.nodes.map (·.1))
    (.refused .targetMismatch "compiled graph removed a target")
  return graph

def checkSources (verifiable : List String) (origins : Dict String CompileOrigin) (path : String) :
    Except CompileError PUnit :=
  match origins.get? path with
  | none => .error (.value "KeyError")
  | some origin =>
    refuseIf (path ∈ origin.sources ∨ ∃ source ∈ origin.sources, source ∉ verifiable)
      (.refused .originCoverage ("origin " ++ py.repr path ++ " names an unverifiable source"))

def checkIdentity (origins : Dict String CompileOrigin) (path : String) :
    Except CompileError PUnit :=
  match origins.get? path with
  | none => .error (.value "KeyError")
  | some origin => do
    let expected ← (generatedNodeId py origin.compilerId origin.sources origin.localKey).mapError
      CompileError.value
    let digits := (leafOf path).toList.drop generatedNodeIdPrefix.length
    refuseIf (¬ generatedNodeIdPrefix.toList <+: (leafOf path).toList ∨
      (leafOf path).length ≠ generatedNodeIdPrefix.length + 16 ∨
      (∃ c ∈ digits, c ∉ "0123456789abcdef".toList) ∨ leafOf path ≠ expected)
      (.refused .idFormat ("generated node id " ++ py.repr (leafOf path) ++ " is invalid"))

def checkLeaf (leaves : List String) (path : String) : Except CompileError (List String) := do
  refuseIf (leafOf path ∈ leaves) (.refused .idCollision
    ("generated leaf " ++ py.repr (leafOf path) ++ " is duplicated"))
  return leaves ++ [leafOf path]

def checkOrigins (submitted compiled : List String) (origins : Dict String CompileOrigin) :
    Except CompileError PUnit := do
  let new := compiled.filter fun path => path ∉ submitted
  refuseIf (∃ path ∈ origins.keys, path ∈ submitted)
    (.refused .idCollision "origin collides with a submitted node")
  refuseIf (¬ (origins.keys ⊆ new ∧ new ⊆ origins.keys))
    (.refused .originCoverage "origins do not exactly cover new nodes")
  (sortedBy id origins.keys).forM (checkSources py (submitted ++ compiled) origins)
  (sortedBy id new.dedup).forM (checkIdentity py origins)
  let _ ← (sortedBy id new.dedup).foldlM (checkLeaf py) []
  return ⟨⟩

def surviving (origins : Dict String CompileOrigin) (passIndex : Nat) : Nat :=
  (origins.entries.filter fun e => e.2.passIndex = passIndex).length

def isExtensionSnapshotDigest (value : String) : Bool :=
  "sha256:".toList.isPrefixOf value.toList && value.length = 71 &&
    (value.toList.drop 7).all fun c => c ∈ "0123456789abcdef".toList

def checkSurviving (passCount : Nat) (attempted : List Nat) (origins : Dict String CompileOrigin) :
    Except CompileError PUnit :=
  refuseIf (∃ i ∈ List.range passCount, attempted.getD i 0 < surviving origins i)
    (.refused .generatedLimit "surviving nodes exceed attempted nodes")

def checkUnchanged (sameWire : Json.Value → Json.Value → Bool) (s : Submission) (passCount : Nat)
    (origins : Dict String CompileOrigin) (graph : Graph) : Except CompileError PUnit :=
  if passCount = 0 then do
    refuseIf (origins.keys ≠ []) (.refused .originCoverage "zero-pass compile changed the graph")
    let compiled ← (graphToWire graph).mapError fun error => CompileError.value error.text
    let requested ← (graphToWire s.graph).mapError fun error => CompileError.value error.text
    refuseIf (sameWire compiled requested = false)
      (.refused .originCoverage "zero-pass compile changed the graph")
  else .ok ⟨⟩

/-- `_parse_reply` -/
def parseReply (sameWire : Json.Value → Json.Value → Bool) (s : Submission)
    (submittedPaths : List String) (raw : Json.Value) : Except CompileError CompiledGraph := do
  let reply ← checkEnvelope raw
  checkFields reply
  checkGeneration s reply
  checkTargets s reply
  let passCount ← readPassCount reply
  let attempted ← readAttempted passCount reply
  let origins ← readOrigins py s passCount reply
  let graph ← readGraph s reply
  let compiledPaths ← checkLimits graph
  checkSelectors py s.schemas .selectorEmitted graph
  checkOrigins py submittedPaths compiledPaths origins
  checkSurviving passCount attempted origins
  checkUnchanged sameWire s passCount origins graph
  refuseIf (isExtensionSnapshotDigest s.generationKey = false)
    (.value "extension_snapshot_digest must be a sha256 digest")
  return ⟨graph,s.targets,s.generationKey,origins⟩

/-- `compile_graph` with a compiler registered, on the snapshot it takes, up to the reply. -/
def compileGraph (sameWire : Json.Value → Json.Value → Bool) (s : Submission) (raw : Json.Value) :
    Except CompileError CompiledGraph := do
  let submittedPaths ← checkLimits s.graph
  refuseIf (∃ path ∈ submittedPaths, generatedNodeIdPrefix.toList <+: (leafOf path).toList)
    (.refused .idCollision "submitted graph contains a generated id")
  checkSelectors py s.schemas .selectorInput s.graph
  parseReply py sameWire s submittedPaths raw

/-- The same with the submitted graph where its caller holds it. -/
def compileHeld (sameWire : Json.Value → Json.Value → Bool) (s : Submission) (raw : Json.Value) :
    ExceptT CompileError (StateM Graph) CompiledGraph := do
  let graph ← get
  ExceptT.mk (pure (compileGraph py sameWire { s with graph } raw))

end Reply

end Dinkster.Compile
