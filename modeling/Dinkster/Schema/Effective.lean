import Dinkster.Schema.Elaborate

/-! The effective schema of a node: the inputs and outputs that elaboration ends with, on a schema
without dynamic constructs. -/
namespace Dinkster.Dynamic
open Canonical Fallible TypeExpr

def commaList (names : List String) : String := ", ".intercalate (sortedBy id names)

def additionalInput (schema : NodeSchema) (type : TypeExpr) (inputs : List InputSpec)
    (inputId : String) : Except ElaborationError (List InputSpec) :=
  if inputId ∈ inputs.map (·.id) then .ok inputs
  else do
    refuseIf (inputId = "" ∨ '\x00' ∈ inputId.toList) (.elaboration
      "additional input names must be non-empty strings without NUL")
    refuseIf (∃ root ∈ schema.constructs.map (·.id), inputId = root ∨
        (root ++ ".").toList.isPrefixOf inputId.toList) (.elaboration (schema.nodeType ++
      ": additional input '" ++ inputId ++ "' belongs to a declared dynamic construct"))
    return inputs ++ [{ id := inputId, type := scopeMemberType inputId type, required := false }]

def additionalInputs (schema : NodeSchema) (doc : Document) (inputs : List InputSpec) :
    Except ElaborationError (List InputSpec) :=
  match schema.additionalInputs with
  | none => .ok inputs
  | some type => doc.storedIds.foldlM (additionalInput schema type) inputs

mutual

/-- `_materialize_family_options` -/
def materializeFamilyOptions (ids : List String) : Widget → Widget
  | .combo _ (some family) => .combo (membersIn ids family) none
  | .representations widgets => .representations (materializeAll ids widgets)
  | widget => widget

def materializeAll (ids : List String) : List Widget → List Widget
  | [] => []
  | widget :: rest => materializeFamilyOptions ids widget :: materializeAll ids rest

end

def materializeInputs (inputs : List InputSpec) : List InputSpec :=
  inputs.map fun spec =>
    { spec with widget := spec.widget.map (materializeFamilyOptions (inputs.map (·.id))) }

def bindSlot (doc : Document) (bindings : Dict String TypeExpr)
    (slot : Slot × List (String × TypeExpr)) :
    Except ElaborationError (Dict String TypeExpr) :=
  if slot.1.typeTemplateId = "" then .ok bindings
  else
    match doc.choices.get? slot.1.id with
    | some (.str key) =>
      match slot.2.find? (·.1 = key) with
      | some variant => .ok (bindings.set slot.1.typeTemplateId variant.2)
      | none => .error (.value "AssertionError")
    | _ => .error (.value "AssertionError")

def slotTypeBindings (schema : NodeSchema) (doc : Document) :
    Except ElaborationError (Dict String TypeExpr) :=
  schema.slotVariants.foldlM (bindSlot doc) Dict.empty

def bindType (bindings : Dict String TypeExpr) (subject : String) (type : TypeExpr) :
    Except ElaborationError TypeExpr :=
  if bindings.keys = [] then .ok type else substituteType bindings subject type

def substituteInput (schema : NodeSchema) (bindings : Dict String TypeExpr) (spec : InputSpec) :
    Except ElaborationError InputSpec := do
  let type ← bindType bindings (schema.nodeType ++ ": input '" ++ spec.id ++ "'") spec.type
  return { spec with type := type }

def duplicates (names : List String) : List String :=
  names.dedup.filter fun name => 1 < names.count name

/-- The inputs as they stand when `_validate_projected_namespace` has passed, with the active
choices and the bindings of the slots. -/
def elaborateInputs (py : Python) (schema : NodeSchema) (doc : Document) :
    Except ElaborationError (List InputSpec × List (String × String) × Dict String TypeExpr) := do
  let entries ← elaborateEntries py doc "" schema.inputEntries
  let declared ← additionalInputs schema doc entries.inputs
  let unknown := doc.choices.keys.filter fun path => path ∉ entries.consumed
  refuseIf (unknown ≠ []) (.elaboration (schema.nodeType ++
    ": dynamic choice(s) stored for undeclared or inactive construct(s): " ++ commaList unknown))
  let bindings ← slotTypeBindings schema doc
  let inputs ← (materializeInputs declared).mapM (substituteInput schema bindings)
  refuseIf (¬ (inputs.map (·.id)).Nodup) (.elaboration (schema.nodeType ++
    ": projected input namespace collision: " ++ commaList (duplicates (inputs.map (·.id)))))
  return (inputs,entries.active,bindings)

/-- `repr` of a tuple of digits. -/
def tupleRepr : List String → String
  | [suffix] => "('" ++ suffix ++ "',)"
  | suffixes => "(" ++ ", ".intercalate (suffixes.map fun suffix => "'" ++ suffix ++ "'") ++ ")"

def checkCounted (schema : NodeSchema) (doc : Document) (family : OutputFamily)
    (suffixes : List Raw) : Except ElaborationError PUnit :=
  match family.count with
  | none => .ok ⟨⟩
  | some input =>
    let refuse (text : String) := ElaborationError.elaboration (schema.nodeType ++
      ": output family '" ++ family.id ++ "' " ++ text)
    match doc.storedValues.bind (·.get? input) with
    | some (.int value) => do
      refuseIf (value < 0) (refuse "count must be >= 0")
      refuseIf (value > maxFamilyMembers) (refuse
        ("count exceeds the " ++ toString maxFamilyMembers ++ " member budget"))
      refuseIf (value < family.minMembers ∨ ∃ most ∈ family.maxMembers, value > most)
        (refuse "count is outside its bounds")
      let expected := (List.range value.toNat).map toString
      refuseIf (suffixes ≠ expected.map .str) (refuse
        ("members must exactly equal the canonical count suffixes " ++ tupleRepr expected))
    | _ => .error (refuse
        ("count input '" ++ input ++ "' must be a stored untyped integer literal"))

def memberOutput (family : OutputFamily) (suffix : String) : OutputSpec :=
  { id := family.id ++ "." ++ suffix, type := family.type, doc := family.doc,
    preview := family.preview }

def outputMember (schema : NodeSchema) (family : OutputFamily)
    (state : List String × List OutputSpec) (suffix : Raw) :
    Except ElaborationError (List String × List OutputSpec) :=
  let refuse (text : String) := ElaborationError.elaboration (schema.nodeType ++
    ": output family '" ++ family.id ++ "' has " ++ text)
  match suffix with
  | .null => .error (refuse "an empty or non-string member suffix: None")
  | .other repr => .error (refuse ("an empty or non-string member suffix: " ++ repr))
  | .str name => do
    refuseIf (name = "") (refuse "an empty or non-string member suffix: ''")
    refuseIf (name ∈ state.1) (refuse ("duplicate member suffix '" ++ name ++ "'"))
    let output := memberOutput family name
    refuseIf (output.id ∈ schema.outputs.map (·.id)) (.elaboration (schema.nodeType ++
      ": output member '" ++ output.id ++ "' collides with a static output"))
    return (state.1 ++ [name],state.2 ++ [output])

def outputFamily (schema : NodeSchema) (doc : Document) (family : OutputFamily) :
    Except ElaborationError (List OutputSpec) := do
  let suffixes := (doc.outputMembers.get? family.id).getD []
  checkCounted schema doc family suffixes
  refuseIf (maxFamilyMembers < suffixes.length) (.elaboration (schema.nodeType ++
    ": output family '" ++ family.id ++ "' has " ++ toString suffixes.length ++
      " members, budget is " ++ toString maxFamilyMembers))
  let (_,outputs) ← suffixes.foldlM (outputMember schema family) ([],[])
  return outputs

section Descriptors

variable (py : Python)

/-- `output_descriptor_entries` -/
def outputDescriptorEntries (value : Option Stored) :
    Except ElaborationError (List Json.Object) :=
  match value with
  | some (.str text) => do
    refuseIf (maxDescriptorBytes < text.utf8ByteSize)
      (.value "output descriptor document exceeds the byte budget")
    match py.jsonLoads text with
    | none => .error (.value "output descriptor document must be valid JSON")
    | some (.obj document) =>
      match document.lookup "entries" with
      | some (.arr entries) => do
        refuseIf (512 < entries.length) (.value
          "output descriptor entries must be a list of at most 512 entries")
        entries.mapM fun
          | .obj members => pure members
          | _ => .error (.value "output descriptor entries must be objects")
      | _ => .error (.value "output descriptor entries must be a list of at most 512 entries")
    | some _ => .error (.value
        "output descriptor document must be an object with entries")
  | _ => .error (.value "output descriptors must be a stored string literal, not a link")

def descriptorId (entry : Json.Object) : Except ElaborationError String :=
  match entry.lookup "id" with
  | some (.str id) =>
    if structuralFullmatch id then .ok id
    else .error (.value "output descriptor id must match [A-Za-z0-9_-]+")
  | _ => .error (.value "output descriptor id must match [A-Za-z0-9_-]+")

def descriptorName (entry : Json.Object) : Except ElaborationError String :=
  match entry.lookup "name" with
  | some (.str name) =>
    if name.toList.all py.isSpace ∨ 256 < name.length ∨ '\x00' ∈ name.toList then
      .error (.value "output descriptor name must be non-empty and at most 256 characters")
    else .ok name
  | _ => .error (.value
      "output descriptor name must be non-empty and at most 256 characters")

def descriptorChoice (spec : OutputDescriptors) (entry : Json.Object) :
    Except ElaborationError OutputSpec :=
  match entry.lookup "type" with
  | some (.str choice) =>
    match spec.choices.find? (·.id = choice) with
    | some output => .ok output
    | none => .error (.value ("unknown output descriptor type choice: " ++ py.repr choice))
  | other => .error (.value ("unknown output descriptor type choice: " ++ py.reprJson other))

def outputDescriptor (spec : OutputDescriptors) (outputs : List OutputSpec) (entry : Json.Object) :
    Except ElaborationError (List OutputSpec) := do
  let memberId ← descriptorId entry
  let name ← descriptorName py entry
  refuseIf (memberId ∈ outputs.map (·.id) ∨ name ∈ outputs.map (·.displayName))
    (.value "output descriptor ids and names must be unique")
  let output ← descriptorChoice py spec entry
  refuseIf (spec.fixedIds = true ∧ memberId ≠ output.id) (.value
    "fixed output descriptor ids must equal their semantic choice ids")
  return outputs ++ [{ output with id := memberId, displayName := name }]

def elaborateOutputDescriptors (spec : OutputDescriptors) (value : Option Stored) :
    Except ElaborationError (List OutputSpec) := do
  let entries ← outputDescriptorEntries py value
  refuseIf (¬ (spec.minEntries ≤ entries.length ∧ entries.length ≤ spec.maxEntries))
    (.value "output descriptor count is outside its declared bounds")
  entries.foldlM (outputDescriptor py spec) []

/-- A `ValueError` raised over a descriptor document, as `_elaborate_outputs` raises it again. -/
def atNode (schema : NodeSchema) : ElaborationError → ElaborationError
  | .elaboration text => .elaboration (schema.nodeType ++ ": " ++ text)
  | .value text => .elaboration (schema.nodeType ++ ": " ++ text)

/-- `_elaborate_outputs` -/
def elaborateOutputs (schema : NodeSchema) (doc : Document) :
    Except ElaborationError (List OutputSpec) := do
  let declared := schema.outputFamilies.map (·.id)
  let unknown := doc.outputMembers.keys.filter fun name => name ∉ declared
  refuseIf (unknown ≠ []) (.elaboration (schema.nodeType ++
    ": output members stored for undeclared family(ies): " ++ commaList unknown))
  let members ← schema.outputFamilies.mapM (outputFamily schema doc)
  let outputs := schema.outputs ++ members.flatten
  match schema.outputDescriptors with
  | none => return outputs
  | some spec => do
    let descriptors ← (elaborateOutputDescriptors py spec
      (doc.storedValues.bind (·.get? spec.input))).mapError (atNode schema)
    let occupied := outputs.map (·.id) ++ declared
    let colliding := descriptors.find? fun output => output.id ∈ occupied
    refuseIf (colliding ≠ none) (.elaboration (schema.nodeType ++ ": descriptor '" ++
      (colliding.map (·.id)).getD "" ++ "' collides with an output"))
    return outputs ++ descriptors

end Descriptors

def projectOutput (doc : Document) (inputs : List InputSpec) (output : OutputSpec) :
    Except ElaborationError OutputSpec :=
  if requiresElaboration output.type then do
    let type ← projectTupleOutput inputs doc.storedValues output.type
    return { output with type := type }
  else .ok output

def substituteOutput (schema : NodeSchema) (bindings : Dict String TypeExpr) (output : OutputSpec) :
    Except ElaborationError OutputSpec := do
  let type ← bindType bindings (schema.nodeType ++ ": output '" ++ output.id ++ "'") output.type
  return { output with type := type }

/-- `scope_is_covered` -/
def scopeIsCovered (chosen : Dict String String) : Applies → Except ElaborationError Bool
  | [] => .ok true
  | (combo,covered) :: rest =>
    match chosen.get? combo with
    | none => .error (.value "KeyError")
    | some key => if key ∈ covered then scopeIsCovered chosen rest else .ok false

def resolveApplies (chosen : Dict String String) : Option Applies → Except ElaborationError Bool
  | none => .ok true
  | some applies => scopeIsCovered chosen applies

def resolveRepresents (chosen : Dict String String) (output : OutputSpec) :
    Except ElaborationError OutputSpec :=
  match output.represents with
  | none => .ok output
  | some promise => do
    let covered ← resolveApplies chosen promise.applies
    return { output with
      represents := if covered then some { promise with applies := none } else none }

def resolveMirror (chosen : Dict String String) :
    Option Mirror → Except ElaborationError (Option Mirror)
  | none => .ok none
  | some mirror => do
    let covered ← resolveApplies chosen mirror.applies
    return if covered then some { mirror with applies := none } else none

def closeStreams (ids : List String) (inputs : List InputSpec) : List InputSpec :=
  inputs.map fun spec => if spec.id ∈ ids then { spec with acceptsStream := false } else spec

def construct (schema : NodeSchema) : Except ElaborationError NodeSchema :=
  if schema.Valid then .ok schema else .error (.value schema.nodeType)

def elaborateStatic (schema : NodeSchema) (doc : Document) :
    Except ElaborationError NodeSchema := do
  refuseIf (doc.outputMembers.keys ≠ []) (.elaboration (schema.nodeType ++
    ": output members stored for a static schema"))
  refuseIf (doc.choices.keys ≠ []) (.elaboration (schema.nodeType ++
    ": slot variants stored for a static schema"))
  return schema

def elaborateDynamic (py : Python) (schema : NodeSchema) (doc : Document) :
    Except ElaborationError NodeSchema := do
  let (inputs,active,bindings) ← elaborateInputs py schema doc
  let outputs ← elaborateOutputs py schema doc
  let outputs ← outputs.mapM (projectOutput doc inputs)
  let outputs ← outputs.mapM (substituteOutput schema bindings)
  let chosen := Dict.ofList active
  let chunked ← resolveApplies chosen schema.chunkSafeApplies
  let inputs := if chunked then inputs else
    closeStreams ((schema.chunkSafe.map (·.1)).getD []) inputs
  let mirror ← resolveMirror chosen schema.mirror
  let outputs ← outputs.mapM (resolveRepresents chosen)
  let total := inputs.length + outputs.length
  refuseIf (maxInterfaceItems < total) (.elaboration (schema.nodeType ++
    ": effective interface has " ++ toString total ++ " items, budget is " ++
      toString maxInterfaceItems))
  construct { schema with
    inputs := inputs
    inputOrder := []
    outputs := outputs
    mirror := mirror
    chunkSafe := if chunked then schema.chunkSafe.map fun safe =>
      (safe.1.filter fun name => name ∈ inputs.map (·.id),safe.2) else none
    chunkSafeApplies := none
    constructs := []
    outputFamilies := []
    outputDescriptors := none
    additionalInputs := none
    slotChoices := active }

def elaborate (py : Python) (schema : NodeSchema) (doc : Document) :
    Except ElaborationError NodeSchema :=
  if schema.isStatic then elaborateStatic schema doc else elaborateDynamic py schema doc

end Dinkster.Dynamic
