import Dinkster.Graph.Model

/-! The wire form of graph documents. Links, typed literals and integers that JSON
doubles cannot hold are marker objects; every other literal stands for itself. -/
namespace Dinkster
open Json Json.Object Fallible

def linkKey : String := "$link"
def typedKey : String := "$typed"
def intKey : String := "$int"

def jsonSafeInt : Nat := 2 ^ 53 - 1
def decimalWireIntMin : Int := -(2 ^ 63)
def decimalWireIntMax : Int := 2 ^ 64 - 1

def unsafeInt (n : Int) : Bool := n.natAbs > jsonSafeInt

mutual

def weight : Json.Value → Nat
  | .arr items => 1 + weights items
  | .obj members => 1 + memberWeights members
  | .null => 1
  | .bool _ => 1
  | .int _ => 1
  | .float _ => 1
  | .str _ => 1

def weights : List Json.Value → Nat
  | [] => 0
  | v :: vs => weight v + weights vs

def memberWeights : Object → Nat
  | [] => 0
  | (_,v) :: ms => weight v + memberWeights ms

end

theorem weights_append (vs ws : List Json.Value) : weights (vs ++ ws) = weights vs + weights ws := by
  induction vs with
  | nil => simp [weights]
  | cons v vs ih => simp only [List.cons_append,weights,ih]; omega

theorem weights_reverse (vs : List Json.Value) : weights vs.reverse = weights vs := by
  induction vs with
  | nil => rfl
  | cons v vs ih =>
    rw [List.reverse_cons,weights_append,ih]
    simp only [weights]
    omega

/-- `pending.extend(items)`; the end of `pending` is the head of the list. -/
def extend (pending items : List Json.Value) : List Json.Value := items.reverse ++ pending

theorem weights_extend (pending items : List Json.Value) :
    weights (extend pending items) = weights items + weights pending := by
  rw [extend,weights_append,weights_reverse]

def memberValues (members : Object) : List Json.Value := members.map (·.2)

theorem weights_memberValues (ms : Object) : weights (memberValues ms) = memberWeights ms := by
  induction ms with
  | nil => rfl
  | cons m ms ih =>
    rw [memberWeights,← ih]
    rfl

/-- The loop over `pending`. -/
def refuseNestedUnsafeInts : List Json.Value → Except WireError Unit
  | [] => .ok ()
  | .int n :: pending =>
    if unsafeInt n then
      .error ⟨"unsafe integer nested inside a literal is not representable on the graph wire",[]⟩
    else refuseNestedUnsafeInts pending
  | .arr items :: pending => refuseNestedUnsafeInts (extend pending items)
  | .obj members :: pending => refuseNestedUnsafeInts (extend pending (memberValues members))
  | .null :: pending => refuseNestedUnsafeInts pending
  | .bool _ :: pending => refuseNestedUnsafeInts pending
  | .float _ :: pending => refuseNestedUnsafeInts pending
  | .str _ :: pending => refuseNestedUnsafeInts pending
termination_by pending => weights pending
decreasing_by
  all_goals simp only [weights,weights_extend,weights_memberValues,weight]
  all_goals omega

def asObject (value : Json.Value) (what : String) : Except WireError Object :=
  match value with
  | .obj members => .ok members
  | _ => .error ⟨what ++ " must be an object",[]⟩

def reservedIn (members : Object) : List String :=
  [intKey,linkKey,typedKey].filter fun key => (members.get? key).isSome

def linkToWire (link : Link) : Json.Value :=
  .obj [("node",.str link.nodeId),("output",.str link.outputId)]

/-- `_input_to_wire` -/
def inputToWire : InputValue → Except WireError Json.Value
  | .link link => .ok (.obj [(linkKey,linkToWire link)])
  | .typed typed => do
    refuseNestedUnsafeInts [typed.value]
    return .obj [(typedKey,.obj [("type",.str typed.typeId),("value",typed.value)])]
  | .literal (.int n) =>
    if unsafeInt n then
      if decimalWireIntMin ≤ n ∧ n ≤ decimalWireIntMax then
        .ok (.obj [(intKey,.str (String.ofList (intText n)))])
      else .error ⟨"integer literal is outside the supported range",[.int n]⟩
    else do
      refuseNestedUnsafeInts [.int n]
      return .int n
  | .literal (.obj members) =>
    if reservedIn members ≠ [] then
      .error ⟨"literal inputs must not contain the reserved key(s)",(reservedIn members).map .str⟩
    else do
      refuseNestedUnsafeInts [.obj members]
      return .obj members
  | .literal value => do
    refuseNestedUnsafeInts [value]
    return value

def linkMarkerFromWire (value : Json.Value) (marker : Json.Value) : Except WireError InputValue :=
  match marker with
  | .obj link =>
    match get? link "node",get? link "output" with
    | some (.str node),some (.str output) => .ok (.link ⟨node,output⟩)
    | _,_ => .error ⟨"malformed link",[value]⟩
  | _ => .error ⟨"malformed link",[value]⟩

def typedMarkerFromWire (value : Json.Value) (marker : Json.Value) : Except WireError InputValue :=
  match marker with
  | .obj typed =>
    match get? typed "type",get? typed "value" with
    | some (.str typeId),some stamped =>
      if typeId = "" then
        .error ⟨"malformed typed literal (needs a non-empty string 'type' and a 'value')",[value]⟩
      else do
        refuseNestedUnsafeInts [stamped]
        return .typed ⟨typeId,stamped⟩
    | _,_ =>
      .error ⟨"malformed typed literal (needs a non-empty string 'type' and a 'value')",[value]⟩
  | _ => .error ⟨"malformed typed literal (needs a non-empty string 'type' and a 'value')",[value]⟩

/-- `0|[1-9][0-9]*` -/
def canonicalNat : List Char → Bool
  | [] => false
  | ['0'] => true
  | c :: cs => c ≠ '0' && c.isDigit && cs.all Char.isDigit

def canonicalDecimalInt : List Char → Option Int
  | '-' :: digits => if canonicalNat digits then some (-(Nat.ofDigitChars 10 digits 0)) else none
  | digits => if canonicalNat digits then some (Nat.ofDigitChars 10 digits 0) else none

def intMarkerFromWire (value : Json.Value) (marker : Json.Value) : Except WireError InputValue :=
  match marker with
  | .str decimal =>
    match canonicalDecimalInt decimal.toList with
    | none => .error ⟨"malformed decimal integer literal",[value]⟩
    | some decoded =>
      if ¬ unsafeInt decoded then
        .error ⟨"decimal integer literal must be outside the JSON-double-safe range",[]⟩
      else if decimalWireIntMin ≤ decoded ∧ decoded ≤ decimalWireIntMax then
        .ok (.literal (.int decoded))
      else .error ⟨"decimal integer literal is outside the supported range",[]⟩
  | _ => .error ⟨"malformed decimal integer literal",[value]⟩

/-- `_input_from_wire` -/
def inputFromWire (value : Json.Value) : Except WireError InputValue :=
  match value with
  | .int n =>
    if unsafeInt n then
      .error ⟨"unsafe integer literal must use the decimal integer marker",[]⟩
    else do
      refuseNestedUnsafeInts [.int n]
      return .literal (.int n)
  | .obj members =>
    if reservedIn members = [] then do
      refuseNestedUnsafeInts [.obj members]
      return .literal (.obj members)
    else if members.length > 1 then
      .error ⟨"a marker input must be exactly one reserved key, got",members.map fun m => .str m.1⟩
    else
      match get? members linkKey,get? members typedKey,get? members intKey with
      | some link,_,_ => linkMarkerFromWire value link
      | none,some typed,_ => typedMarkerFromWire value typed
      | none,none,some decimal => intMarkerFromWire value decimal
      | none,none,none => .ok (.literal value)
  | value => do
    refuseNestedUnsafeInts [value]
    return .literal value

def RegionKind.value : RegionKind → String
  | .map => "map"
  | .fold => "fold"
  | .while => "while"

def BindingMode.value : BindingMode → String
  | .zip => "zip"
  | .cross => "cross"
  | .broadcast => "broadcast"

def OutputMode.value : OutputMode → String
  | .gather => "gather"
  | .compact => "compact"
  | .state => "state"
  | .flatten => "flatten"
  | .last => "last"

def CachePolicy.value : CachePolicy → String
  | .reuse => "reuse"
  | .rerun => "rerun"

def inputsToWire (inputs : Inputs) : Except WireError Object := mapValues inputToWire inputs

def outputToWire (out : RegionOutput) : Json.Value :=
  .obj [("source",linkToWire out.source),("mode",.str out.mode.value)]

def optionalInt? (key : String) : Option Int → Object
  | none => []
  | some n => [(key,.int n)]

def optionalLink? (key : String) : Option Link → Object
  | none => []
  | some link => [(key,linkToWire link)]

def graphNodeToWire (node : GraphNode) : Except WireError Json.Value := do
  let inputs ← inputsToWire node.inputs
  return .obj ([("nodeType",.str node.nodeType),("inputs",.obj inputs)] ++
    writtenIf (!node.outputMembers.isEmpty) "outputMembers"
      (.obj (node.outputMembers.map fun e => (e.1,stringsToWire e.2))) ++
    writtenIf (!node.slotVariants.isEmpty) "slotVariants"
      (.obj (node.slotVariants.map fun e => (e.1,.str e.2))))

mutual

def graphToWire : Graph → Except WireError Json.Value
  | ⟨nodes⟩ => do
    let entries ← nodesToWire nodes
    return .obj [("nodes",.obj entries)]

def nodesToWire : List (String × AnyNode) → Except WireError Object
  | [] => .ok []
  | (nodeId,node) :: rest => do
    let entry ← nodeToWire node
    let entries ← nodesToWire rest
    return (nodeId,entry) :: entries

def nodeToWire : AnyNode → Except WireError Json.Value
  | .node node => graphNodeToWire node
  | .region region => regionToWire region

/-- `_region_to_wire` -/
def regionToWire : RegionNode Graph → Except WireError Json.Value
  | ⟨kind,body,ports,inputs,elementPorts,statePorts,outputs,binding,cachePolicy,maxIterations,
      continueSource⟩ => do
    let inputs ← inputsToWire inputs
    let body ← graphToWire body
    return .obj [("region",.obj (
      [("kind",.str kind.value),
        ("ports",.obj (ports.map fun e => (e.1,.obj (typeExprToWire e.2.expr)))),
        ("inputs",.obj inputs),
        ("body",body),
        ("outputs",.obj (outputs.map fun e => (e.1,outputToWire e.2)))] ++
      writtenIf (!elementPorts.isEmpty) "elementPorts" (stringsToWire elementPorts) ++
      writtenIf (!statePorts.isEmpty) "statePorts" (stringsToWire statePorts) ++
      writtenIf (binding ≠ .zip) "binding" (.str binding.value) ++
      writtenIf (cachePolicy ≠ .reuse) "cachePolicy" (.str cachePolicy.value) ++
      optionalInt? "maxIterations" maxIterations ++
      optionalLink? "continueSource" continueSource))]

end

def choiceFromWire {α : Type} (choices : List (String × α)) (what : String) (value : Json.Value) :
    Except WireError α :=
  match value with
  | .str s =>
    match choices.lookup s with
    | some choice => .ok choice
    | none => .error ⟨what,[value]⟩
  | .arr _ => .error ⟨"unhashable type",[value]⟩
  | .obj _ => .error ⟨"unhashable type",[value]⟩
  | _ => .error ⟨what,[value]⟩

def regionKinds : List (String × RegionKind) := [("map",.map),("fold",.fold),("while",.while)]

def bindingModes : List (String × BindingMode) :=
  [("zip",.zip),("cross",.cross),("broadcast",.broadcast)]

def outputModes : List (String × OutputMode) :=
  [("gather",.gather),("compact",.compact),("state",.state),("flatten",.flatten),("last",.last)]

def cachePolicies : List (String × CachePolicy) := [("reuse",.reuse),("rerun",.rerun)]

/-- `_link_from_wire` -/
def linkFromWire (value : Json.Value) (what : String) : Except WireError Link := do
  let obj ← asObject value what
  match get? obj "node",get? obj "output" with
  | some (.str node),some (.str output) => .ok ⟨node,output⟩
  | _,_ => .error ⟨what ++ " must carry string 'node' and 'output'",[]⟩

def strList (value : Json.Value) (what : String) : Except WireError (List String) :=
  match value with
  | .arr items =>
    match asStrings items with
    | some ss => .ok ss
    | none => .error ⟨what ++ " must be a list of strings",[]⟩
  | _ => .error ⟨what ++ " must be a list of strings",[]⟩

def malformedPort {α : Type} (place : String) : Except WireError α → Except WireError α
  | .ok a => .ok a
  | .error e => .error ⟨place ++ ": malformed port type: " ++ e.text,e.shown⟩

def portFromWire (place : String) (port : String × Json.Value) :
    Except WireError (String × PortType) :=
  malformedPort place (do
    let members ← asObject port.2 (place ++ ": port " ++ port.1)
    match read : typeExprFromWire members with
    | .ok expr => .ok (port.1,⟨expr,typeExprFromWire_wellFormed members expr read⟩)
    | .error e => .error e)

def outputFromWire (place : String) (out : String × Json.Value) :
    Except WireError (String × RegionOutput) := do
  let obj ← asObject out.2 (place ++ ": output " ++ out.1)
  let mode ← choiceFromWire outputModes (place ++ ": output " ++ out.1 ++ ": unknown mode")
    ((get? obj "mode").getD (.str "gather"))
  let source ← linkFromWire ((get? obj "source").getD .null)
    (place ++ ": output " ++ out.1 ++ " source")
  return (out.1,⟨source,mode⟩)

def maxIterationsFromWire (place : String) : Option Json.Value → Except WireError (Option Int)
  | none => .ok none
  | some .null => .ok none
  | some (.int n) => .ok (some n)
  | some _ => .error ⟨place ++ ": maxIterations must be an integer",[]⟩

def continueSourceFromWire (place : String) : Option Json.Value → Except WireError (Option Link)
  | none => .ok none
  | some .null => .ok none
  | some value => (linkFromWire value (place ++ ": 'continueSource'")).map some

def inputsFromWire (wire : Object) : Except WireError Inputs := mapValues inputFromWire wire

def membersFromWire (place : String) (e : String × Json.Value) :
    Except WireError (String × List String) :=
  match e.2 with
  | .arr items =>
    match asStrings items with
    | some ss => .ok (e.1,ss)
    | none => .error ⟨place ++ ": output members must be a list of strings",[.str e.1]⟩
  | _ => .error ⟨place ++ ": output members must be a list of strings",[.str e.1]⟩

def variantFromWire (place : String) (e : String × Json.Value) :
    Except WireError (String × String) :=
  match e.2 with
  | .str key => .ok (e.1,key)
  | _ => .error ⟨place ++ ": slot variant must be a string",[.str e.1]⟩

def graphNodeFromWire (nodeId : String) (entry : Object) : Except WireError GraphNode := do
  let place := "node " ++ nodeId
  match get? entry "nodeType" with
  | some (.str nodeType) =>
    let inputsWire ← asObject ((get? entry "inputs").getD (.obj [])) (place ++ ": 'inputs'")
    let membersWire ← asObject ((get? entry "outputMembers").getD (.obj []))
      (place ++ ": 'outputMembers'")
    let outputMembers ← membersWire.mapM (membersFromWire place)
    let variantsWire ← asObject ((get? entry "slotVariants").getD (.obj []))
      (place ++ ": 'slotVariants'")
    let slotVariants ← variantsWire.mapM (variantFromWire place)
    let inputs ← inputsFromWire inputsWire
    return ⟨nodeType,inputs,outputMembers,slotVariants⟩
  | _ => .error ⟨place ++ ": entry must be an object with 'nodeType'",[]⟩

mutual

def graphFromWire (wire : Json.Value) : Except WireError Graph :=
  match wire with
  | .obj document =>
    match member? document "nodes" with
    | none => .error ⟨"graph wire must be an object with a 'nodes' object",[]⟩
    | some ⟨.obj nodesWire,_⟩ => do
      let nodes ← nodesFromWire nodesWire
      return ⟨nodes⟩
    | some _ => .error ⟨"'nodes' must be an object",[]⟩
  | _ => .error ⟨"graph wire must be an object",[]⟩
termination_by sizeOf wire
decreasing_by
  have smaller := ‹sizeOf (Json.Value.obj nodesWire) < sizeOf document›
  simp only [Json.Value.obj.sizeOf_spec] at smaller ⊢
  omega

def nodesFromWire (nodesWire : Object) : Except WireError (List (String × AnyNode)) :=
  match nodesWire with
  | [] => .ok []
  | (nodeId,rawEntry) :: rest => do
    if !validNodeId nodeId then
      .error ⟨"node ids must be non-empty and may not contain '/', '[' or ']'",[.str nodeId]⟩
    else
      let node ← nodeFromWire nodeId rawEntry
      let nodes ← nodesFromWire rest
      return (nodeId,node) :: nodes
termination_by sizeOf nodesWire

def nodeFromWire (nodeId : String) (rawEntry : Json.Value) : Except WireError AnyNode :=
  match rawEntry with
  | .obj entry =>
    match member? entry "region" with
    | some ⟨.obj wire,_⟩ => do
      let region ← regionFromWire nodeId wire
      return .region region
    | some _ => .error ⟨"region " ++ nodeId ++ " must be an object",[]⟩
    | none => do
      let node ← graphNodeFromWire nodeId entry
      return .node node
  | _ => .error ⟨"node " ++ nodeId ++ ": entry must be an object",[]⟩
termination_by sizeOf rawEntry
decreasing_by
  have smaller := ‹sizeOf (Json.Value.obj wire) < sizeOf entry›
  simp only [Json.Value.obj.sizeOf_spec] at smaller ⊢
  omega

/-- `_region_from_wire` -/
def regionFromWire (nodeId : String) (wire : Object) : Except WireError (RegionNode Graph) := do
  let place := "region " ++ nodeId
  let kind ← choiceFromWire regionKinds (place ++ ": unknown kind") ((get? wire "kind").getD .null)
  let binding ← choiceFromWire bindingModes (place ++ ": unknown binding")
    ((get? wire "binding").getD (.str "zip"))
  let cachePolicy ← choiceFromWire cachePolicies (place ++ ": unknown cache policy")
    ((get? wire "cachePolicy").getD (.str "reuse"))
  let portsWire ← asObject ((get? wire "ports").getD (.obj [])) (place ++ ": 'ports'")
  let ports ← portsWire.mapM (portFromWire place)
  let inputsWire ← asObject ((get? wire "inputs").getD (.obj [])) (place ++ ": 'inputs'")
  let outputsWire ← asObject ((get? wire "outputs").getD (.obj [])) (place ++ ": 'outputs'")
  let outputs ← outputsWire.mapM (outputFromWire place)
  let maxIterations ← maxIterationsFromWire place (get? wire "maxIterations")
  let body ← (match member? wire "body" with
    | some ⟨body,_⟩ => graphFromWire body
    | none => .error ⟨"graph wire must be an object",[]⟩)
  let inputs ← inputsFromWire inputsWire
  let elementPorts ← strList ((get? wire "elementPorts").getD (.arr []))
    (place ++ ": 'elementPorts'")
  let statePorts ← strList ((get? wire "statePorts").getD (.arr [])) (place ++ ": 'statePorts'")
  let continueSource ← continueSourceFromWire place (get? wire "continueSource")
  return ⟨kind,body,ports,inputs,elementPorts,statePorts,outputs,binding,cachePolicy,maxIterations,
    continueSource⟩
termination_by sizeOf wire

end

end Dinkster
