import Dinkster.Graph.Loops
import Dinkster.Schema.EffectiveSchema
import Dinkster.Schema.Solve

/-! Types along links: what generic outputs become when their inputs are linked, one level of a
graph after the other, with the interface of every region derived from its body. -/
namespace Dinkster.LinkedTypes
open Fallible TypeExpr Dinkster.Dynamic Solve

abbrev Diagnostic := Loops.Diagnostic

instance : DecidableEq Json.Value := fun v w =>
  decidable_of_iff (Json.dumps Json.Style.compact v = Json.dumps Json.Style.compact w)
    ⟨Json.dumps_injective _,congrArg _⟩

mutual

def sameType : TypeExpr → TypeExpr → Bool
  | ⟨kind,types,templateId,element,elements,inputId,index⟩,
    ⟨kind',types',templateId',element',elements',inputId',index'⟩ =>
    decide (kind = kind' ∧ types = types' ∧ templateId = templateId' ∧ inputId = inputId' ∧
      index = index') && sameElement element element' && sameTypes elements elements'

def sameElement : Option TypeExpr → Option TypeExpr → Bool
  | none,none => true
  | some element,some element' => sameType element element'
  | _,_ => false

def sameTypes : List TypeExpr → List TypeExpr → Bool
  | [],[] => true
  | expr :: rest,expr' :: rest' => sameType expr expr' && sameTypes rest rest'
  | _,_ => false

end

mutual

theorem sameType_iff : ∀ a b : TypeExpr, sameType a b = true ↔ a = b
  | ⟨_,_,_,element,elements,_,_⟩,⟨_,_,_,element',elements',_,_⟩ => by
    rw [sameType,Bool.and_eq_true,Bool.and_eq_true,sameElement_iff element element',
      sameTypes_iff elements elements',decide_eq_true_eq,TypeExpr.mk.injEq]
    constructor
    · rintro ⟨⟨⟨kind,types,template,input,index⟩,inner⟩,all⟩
      exact ⟨kind,types,template,inner,all,input,index⟩
    · rintro ⟨kind,types,template,inner,all,input,index⟩
      exact ⟨⟨⟨kind,types,template,input,index⟩,inner⟩,all⟩

theorem sameElement_iff : ∀ a b : Option TypeExpr, sameElement a b = true ↔ a = b
  | none,none => by simp [sameElement]
  | some a,some b => by rw [sameElement,sameType_iff a b,Option.some.injEq]
  | none,some _ => by simp [sameElement]
  | some _,none => by simp [sameElement]

theorem sameTypes_iff : ∀ a b : List TypeExpr, sameTypes a b = true ↔ a = b
  | [],[] => by simp [sameTypes]
  | a :: as,b :: bs => by
    rw [sameTypes,Bool.and_eq_true,sameType_iff a b,sameTypes_iff as bs,List.cons.injEq]
  | [],_ :: _ => by simp [sameTypes]
  | _ :: _,[] => by simp [sameTypes]

end

instance : DecidableEq TypeExpr := fun a b => decidable_of_iff _ (sameType_iff a b)

/-- A schema that its constructor accepts. -/
abbrev ValidSchema := { schema : NodeSchema // schema.Valid }

theorem elaborate_valid {py : Python} {schema result : NodeSchema} {doc : Document}
    (valid : schema.Valid) (done : elaborate py schema doc = .ok result) : result.Valid := by
  unfold elaborate at done
  split at done
  · exact elaborateStatic_ok done ▸ valid
  · exact (elaborateDynamic_ok done).1.valid

namespace ValidSchema

def input (schema : ValidSchema) (inputId : String) : Option Dynamic.InputSpec :=
  schema.1.inputs.find? (·.id = inputId)

def output (schema : ValidSchema) (outputId : String) : Option OutputSpec :=
  schema.1.outputs.find? (·.id = outputId)

def solverInputs (schema : ValidSchema) : List Solve.InputSpec :=
  schema.1.inputs.map fun spec => ⟨spec.id,spec.type,spec.acceptsList⟩

end ValidSchema

abbrev Schemas := Dict String ValidSchema

section
variable (py : Python) (repr : InputValue → String) (schemas : Schemas)

def stored : InputValue → Stored
  | .literal (.int n) => .int n
  | .literal (.str s) => .str s
  | value => .other (repr value)

def document (node : GraphNode) : Document where
  storedInputs := .values (Dict.ofList (node.inputs.map fun e => (e.1,stored repr e.2)))
  choices := Dict.ofList (node.slotVariants.map fun e => (e.1,.str e.2))
  outputMembers := Dict.ofList (node.outputMembers.map fun e => (e.1,e.2.map .str))

def elaborateValid (schema : ValidSchema) (node : GraphNode) :
    Except ElaborationError ValidSchema :=
  match done : elaborate py schema.1 (document repr node) with
  | .error error => .error error
  | .ok result => .ok ⟨result,elaborate_valid schema.2 done⟩

/-- One pass of the loop of `elaborate_graph`, which catches only errors of elaboration. -/
def elaborateNode (found : Dict String ValidSchema × List Diagnostic) (entry : String × AnyNode) :
    Except ElaborationError (Dict String ValidSchema × List Diagnostic) :=
  match entry.2 with
  | .region _ => .ok found
  | .node node =>
    match schemas.get? node.nodeType with
    | none => .ok (found.1,found.2 ++
        [⟨"error","unknown-node-type","unknown node type: " ++ node.nodeType,some entry.1⟩])
    | some schema =>
      match elaborateValid py repr schema node with
      | .ok result => .ok (found.1.set entry.1 result,found.2)
      | .error (.elaboration text) =>
        .ok (found.1,found.2 ++ [⟨"error","elaboration-failed",text,some entry.1⟩])
      | .error error => .error error

def elaborateGraph (graph : Graph) :
    Except ElaborationError (Dict String ValidSchema × List Diagnostic) :=
  graph.nodes.foldlM (elaborateNode py repr schemas) (Dict.empty,[])

end

mutual

def containsVariable : TypeExpr → Bool
  | ⟨kind,_,_,element,elements,_,_⟩ =>
    decide (kind = .variable) || elementVariable element || someVariable elements

def elementVariable : Option TypeExpr → Bool
  | none => false
  | some element => containsVariable element

def someVariable : List TypeExpr → Bool
  | [] => false
  | position :: rest => containsVariable position || someVariable rest

end

def regionIndexPortId : String := "index"

def regionIndexPortType : TypeExpr := .concrete "INT"

def regionPortType (ports : Dict String TypeExpr) (outputId : String) : Option TypeExpr :=
  match ports.get? outputId with
  | some declared => some declared
  | none => if outputId = regionIndexPortId then some regionIndexPortType else none

/-- Region outputs with their types as seen from outside, where these could be derived. -/
abbrev Interface := Dict String (Option TypeExpr)

structure Level where
  ports : Dict String TypeExpr
  effective : Dict String ValidSchema
  interfaces : Dict String Interface

abbrev Outputs := Dict String TypeExpr

section
variable (level : Level)

/-- `source_type` -/
def sourceType (resolved : Dict String Outputs) (link : Link) : Option TypeExpr :=
  if link.nodeId = portsNodeId then regionPortType level.ports link.outputId
  else
    match level.interfaces.get? link.nodeId with
    | some nested => (nested.get? link.outputId).join
    | none =>
      match (resolved.get? link.nodeId).bind (·.get? link.outputId) with
      | some type => some type
      | none => ((level.effective.get? link.nodeId).bind (·.output link.outputId)).map (·.type)

variable (includeTypedLiterals : Bool)

def carried (source : Link → Option TypeExpr) : InputValue → Option String
  | .typed literal => if includeTypedLiterals then some literal.typeId else none
  | .link link => (source link).bind runtimeTypeId
  | .literal _ => none

def isGeneric (schema : ValidSchema) (inputId : String) : Bool :=
  match schema.input inputId with
  | none => false
  | some spec => containsVariable spec.type

def inputType (schema : ValidSchema) (source : Link → Option TypeExpr)
    (inputTypes : Dict String String) (entry : String × InputValue) :
    Option (Dict String String) :=
  if isGeneric schema entry.1 then
    (carried includeTypedLiterals source entry.2).map (inputTypes.set entry.1)
  else some inputTypes

def linkedInputTypes (schema : ValidSchema) (source : Link → Option TypeExpr) (node : GraphNode) :
    Option (Dict String String) :=
  (Dict.ofList node.inputs).entries.foldlM (inputType includeTypedLiterals schema source) Dict.empty

def concreteOutput (bindings : Solve.Bindings) (outputs : Outputs) (output : OutputSpec) :
    Except TypeSolveError Outputs :=
  (resolvedTypeExpr bindings output.type).map fun concrete =>
    match concrete with
    | none => outputs
    | some type => outputs.set output.id type

def concreteOutputs (schema : ValidSchema) (bindings : Solve.Bindings) :
    Except TypeSolveError Outputs :=
  schema.1.outputs.foldlM (concreteOutput bindings) Dict.empty

/-- What one visit makes of a node's outputs. -/
inductive Found
  | open
  | invalid (error : TypeSolveError)
  | outputs (outputs : Outputs)

def findOutputs (schema : ValidSchema) (source : Link → Option TypeExpr) (node : GraphNode) :
    Found :=
  match linkedInputTypes includeTypedLiterals schema source node with
  | none => .open
  | some inputTypes =>
    match bindTypeVariables schema.solverInputs inputTypes with
    | .error _ => .open
    | .ok bindings =>
      match concreteOutputs schema bindings with
      | .error error => .invalid error
      | .ok outputs => .outputs outputs

structure Round where
  resolved : Dict String Outputs
  invalidOutputs : Dict String Diagnostic
  changed : Bool

def visitNode (round : Round) (entry : String × AnyNode) : Round :=
  match entry.2 with
  | .region _ => round
  | .node node =>
    match level.effective.get? entry.1 with
    | none => round
    | some schema =>
      match findOutputs includeTypedLiterals schema (sourceType level round.resolved) node with
      | .open => round
      | .invalid error => { round with
          invalidOutputs := round.invalidOutputs.set entry.1
            ⟨"error","output-type-invalid",error.text,some entry.1⟩ }
      | .outputs outputs =>
        let valid := round.invalidOutputs.erase entry.1
        if outputs.entries ≠ [] ∧ round.resolved.get? entry.1 ≠ some outputs then
          ⟨round.resolved.set entry.1 outputs,valid,true⟩
        else { round with invalidOutputs := valid }

def rounds (nodes : Nodes) : Nat → Round → Round
  | 0,round => round
  | n + 1,round =>
    let next := nodes.entries.foldl (visitNode level includeTypedLiterals)
      { round with changed := false }
    if next.changed then rounds nodes n next else next

/-- `_resolve_linked_output_types`, with the diagnostics that it adds. -/
def resolveLinkedOutputTypes (nodes : Nodes) : Dict String Outputs × List Diagnostic :=
  let round := rounds level includeTypedLiterals nodes nodes.keys.length
    ⟨Dict.empty,Dict.empty,false⟩
  (round.resolved,round.invalidOutputs.entries.map (·.2))

end

structure RegionData where
  bodyEffective : Dict String ValidSchema
  bodyRegions : List (String × RegionData)
  bodyOutputTypes : Dict String Outputs
  interface : Interface

def interfaces (regions : List (String × RegionData)) : Dict String Interface :=
  Dict.ofList (regions.map fun e => (e.1,e.2.interface))

def portTypes (ports : List (String × PortType)) : Dict String TypeExpr :=
  Dict.ofList (ports.map fun e => (e.1,e.2.expr))

/-- `_body_output_type`: a declaration reads the body as the body's own links do. -/
def bodyOutputType (body : Level) (outputTypes : Dict String Outputs) (source : Link) :
    Option TypeExpr :=
  sourceType body outputTypes source

def regionOutputType (body : Level) (outputTypes : Dict String Outputs) (outputId : String)
    (out : RegionOutput) : Option TypeExpr :=
  match out.mode with
  | .state => body.ports.get? outputId
  | .flatten | .last => bodyOutputType body outputTypes out.source
  | .gather | .compact => (bodyOutputType body outputTypes out.source).map listOf

def regionData (body : Graph) (ports : List (String × PortType))
    (outputs : List (String × RegionOutput)) (bodyEffective : Dict String ValidSchema)
    (bodyRegions : List (String × RegionData)) : RegionData :=
  let level : Level := ⟨portTypes ports,bodyEffective,interfaces bodyRegions⟩
  let bodyOutputTypes := (resolveLinkedOutputTypes level false (Dict.ofList body.nodes)).1
  ⟨bodyEffective,bodyRegions,bodyOutputTypes,
    Dict.ofList (outputs.map fun e => (e.1,regionOutputType level bodyOutputTypes e.1 e.2))⟩

def prefixed (scope : String) (diagnostic : Diagnostic) : Diagnostic :=
  { diagnostic with nodeId := diagnostic.nodeId.map (scope ++ ·) }

structure InterfacePass where
  effective : Dict String ValidSchema
  regions : List (String × RegionData)
  diagnostics : List Diagnostic

section
variable (py : Python) (repr : InputValue → String) (schemas : Schemas)

mutual

/-- `_interface_pass` -/
def interfacePass (scope : String) (includeElab : Bool) :
    Graph → Except ElaborationError InterfacePass
  | ⟨nodes⟩ => do
    let elaborated ← elaborateGraph py repr schemas ⟨nodes⟩
    let regions ← regionsPass scope nodes
    return ⟨elaborated.1,regions.1,
      (if includeElab then elaborated.2.map (prefixed scope) else []) ++ regions.2⟩

def regionsPass (scope : String) :
    List (String × AnyNode) → Except ElaborationError (List (String × RegionData) × List Diagnostic)
  | [] => .ok ([],[])
  | (nodeId,node) :: rest => do
    let here ← regionPass (scope ++ nodeId ++ "/") node
    let others ← regionsPass scope rest
    return (here.1.toList.map (nodeId,·) ++ others.1,here.2 ++ others.2)

def regionPass (scope : String) :
    AnyNode → Except ElaborationError (Option RegionData × List Diagnostic)
  | .node _ => .ok (none,[])
  | .region ⟨_,body,ports,_,_,_,outputs,_,_,_,_⟩ => do
    let inner ← interfacePass scope true body
    return (some (regionData body ports outputs inner.effective inner.regions),inner.diagnostics)

end

def regionInterface (region : RegionNode Graph) : Except ElaborationError Interface := do
  let pass ← interfacePass py repr schemas "" false ⟨[("$",.region region)]⟩
  match pass.regions.find? (·.1 = "$") with
  | some data => return data.2.interface
  | none => .error (.value "KeyError")

end

end Dinkster.LinkedTypes
