import Dinkster.Lib.Canonical
import Dinkster.Lib.Dict
import Dinkster.Schema.Replacement
import Mathlib.Data.String.Basic

/-! Replacement rules on the wire. Pairs are written as an object's members and members that say
nothing are left out; the reader passes what it finds to the constructors, which check it. -/
namespace Dinkster.Replacement
open Json Json.Object Fallible

/-- `dict(pairs)` -/
def dict (pairs : List (String × Value)) : Value := .obj (Dict.ofList pairs).entries

def writtenSome (key : String) (v : Option Value) : Object := v.toList.map fun v => (key,v)

mutual

def predicateToWire : ReplacementPredicate → Value
  | .always => .obj [("kind",.str "always")]
  | .inputConnected input => .obj [("kind",.str "inputConnected"),("input",.str input.val)]
  | .valuePresent input => .obj [("kind",.str "valuePresent"),("input",.str input.val)]
  | .valueEquals input value =>
    .obj [("kind",.str "valueEquals"),("input",.str input.val),("value",value.val)]
  | .not child => .obj [("kind",.str "not"),("of",predicateToWire child)]
  | .all children => .obj [("kind",.str "all"),("of",.arr (predicatesToWire children))]
  | .any children => .obj [("kind",.str "any"),("of",.arr (predicatesToWire children))]

def predicatesToWire : List ReplacementPredicate → List Value
  | [] => []
  | child :: rest => predicateToWire child :: predicatesToWire rest

end

def transformToWire (t : ValueTransform) : Value :=
  match t.fields.kind with
  | .enumRename => .obj [("kind",.str "enumRename"),
      ("map",dict (t.fields.map.map fun e => (e.1,.str e.2)))]
  | .scale => .obj ([("kind",.str "scale"),("factor",t.fields.factor.val)] ++
      writtenIf (!isZero t.fields.offset.val) "offset" t.fields.offset.val)

def mappingSourceToWire (s : MappingSource) : Value :=
  .obj (("kind",.str s.fields.kind.name) ::
    (if s.fields.kind = .constant then ("value",s.fields.value)
      else ("input",.str s.fields.input)) ::
    writtenSome "transform" (s.fields.transform.map transformToWire))

/-- `{target: mapping_source_to_wire(source) for target, source in inputs}` -/
def inputsToWire (inputs : List (String × MappingSource)) : Value :=
  dict (inputs.map fun e => (e.1,mappingSourceToWire e.2))

def inputFamilyMemberToWire (m : InputFamilyMember) : Value :=
  .obj [("suffix",.str m.fields.suffix),("inputs",inputsToWire m.fields.inputs)]

def sourceTemplateToWire (m : InputMappingFields) : Value :=
  .obj (("inputs",.arr (m.sourceTemplate.map .str)) ::
    writtenIf (m.sourceMemberPort ≠ "") "memberPort" (.str m.sourceMemberPort))

def copyMembers (m : InputMappingFields) : Object :=
  [("kind",.str "copy"),("sourceFamily",.str m.sourceFamily),("inputs",inputsToWire m.inputs)] ++
    writtenIf (!m.sourceTemplate.isEmpty) "sourceTemplate" (sourceTemplateToWire m) ++
    writtenSome "memberIds" (m.memberIds.map .str)

def inputFamilyMappingToWire (m : InputFamilyMapping) : Value :=
  match m.fields.kind with
  | .copy => .obj (copyMembers m.fields)
  | .members => .obj [("kind",.str "members"),
      ("members",.arr (m.fields.members.map inputFamilyMemberToWire))]

def outputFamilyMemberToWire (m : OutputFamilyMember) : Value :=
  .obj [("suffix",.str m.fields.suffix),("output",.str m.fields.output)]

def outputFamilyMappingToWire (m : OutputFamilyMapping) : Value :=
  match m.fields.kind with
  | .copy => .obj [("kind",.str "copy"),("sourceFamily",.str m.fields.sourceFamily)]
  | .members => .obj [("kind",.str "members"),
      ("members",.arr (m.fields.members.map outputFamilyMemberToWire))]

def nodeToWire (n : ReplacementNode) : Value :=
  .obj (("type",.str n.fields.type) ::
    writtenIf (!n.fields.values.isEmpty) "values" (dict n.fields.values))

def linkToWire (link : ReplacementLink) : Value :=
  .obj [("from",.str link.fromAddress),("to",.str link.toAddress)]

def caseMembers (c : CaseFields) : Object :=
  [("to",.str c.target)] ++
    writtenSome "when" (c.whenPredicate.map predicateToWire) ++
    writtenSome "nodes" (c.nodes.map fun nodes => dict (nodes.map fun e => (e.1,nodeToWire e.2))) ++
    writtenIf (!c.slotVariants.isEmpty) "slotVariants"
      (dict (c.slotVariants.map fun e => (e.1,.str e.2))) ++
    writtenIf (!c.inputs.isEmpty) "inputs" (inputsToWire c.inputs) ++
    writtenIf (!c.inputFamilies.isEmpty) "inputFamilies"
      (dict (c.inputFamilies.map fun e => (e.1,inputFamilyMappingToWire e.2))) ++
    writtenIf (!c.outputFamilies.isEmpty) "outputFamilies"
      (dict (c.outputFamilies.map fun e => (e.1,outputFamilyMappingToWire e.2))) ++
    writtenIf (!c.links.isEmpty) "links" (.arr (c.links.map linkToWire)) ++
    writtenIf (!c.outputs.isEmpty) "outputs" (dict (c.outputs.map fun e => (e.1,.str e.2)))

def caseToWire (c : ReplacementCase) : Value := .obj (caseMembers c.fields)

def migrationToWire (m : ReplacementMigration) : Value :=
  .obj [("historicalInputs",.arr (m.fields.historicalInputs.map .str))]

def ruleMembers (r : RuleFields) : Object :=
  [("from",.str r.fromType)] ++
    writtenIf (r.note ≠ "") "note" (.str r.note) ++
    writtenSome "migration" (r.migration.map migrationToWire) ++
    [("cases",.arr (r.cases.map caseToWire))]

def ruleToWire (r : ReplacementRule) : Value := .obj (ruleMembers r.fields)

inductive Failure
  | valueError (e : Invalid)
  /-- A `KeyError`, `TypeError` or `AttributeError`: the data is not of the shape that is read. -/
  | shape

def invalid {α : Type} (text : String) : Except Failure α := .error (.valueError (.text text))

def constructed {α : Type} (x : Except Invalid α) : Except Failure α := x.mapError .valueError

/-- `wire[key]` -/
def item (data : Object) (key : String) : Except Failure Value :=
  match get? data key with
  | some v => .ok v
  | none => .error .shape

/-- `v.items()` -/
def items : Value → Except Failure Object
  | .obj members => .ok members
  | _ => .error .shape

/-- `tuple(read(x) for x in v)`; text and objects are traversed too, by character and by key. -/
def each {α : Type} (read : Value → Except Failure α) : Value → Except Failure (List α)
  | .arr vs => vs.mapM read
  | .str s => s.toList.mapM fun c => read (.str (String.ofList [c]))
  | .obj members => members.mapM fun e => read (.str e.1)
  | _ => .error .shape

/-- `set(data) == expected` -/
def exactly (data : Object) (expected : List String) : Bool :=
  data.all (fun e => expected.contains e.1) && expected.all fun key => (get? data key).isSome

section

-- `str` of data that is not text
variable (str : Value → String)

/-- `str(v)` -/
def asStr : Value → String
  | .str s => s
  | v => str v

mutual

def predicateFromWire : Value → Except Failure ReplacementPredicate
  | .obj data => do
    let kind ← item data "kind"
    match PredicateKind.ofString? (asStr str kind) with
    | none => .error (.valueError ⟨"unknown predicate kind: ",some (.str (asStr str kind)),""⟩)
    | some .not =>
      match member? data "of" with
      | none => .error .shape
      | some of => do
        let child ← predicateFromWire of.1
        constructed (ReplacementPredicate.new .not "" .null [child])
    | some .all =>
      match member? data "of" with
      | none => .error .shape
      | some of => do
        let children ← childrenFromWire of.1
        constructed (ReplacementPredicate.new .all "" .null children)
    | some .any =>
      match member? data "of" with
      | none => .error .shape
      | some of => do
        let children ← childrenFromWire of.1
        constructed (ReplacementPredicate.new .any "" .null children)
    | some .valueEquals => do
      let input ← item data "input"
      let value ← item data "value"
      constructed (ReplacementPredicate.new .valueEquals (asStr str input) value [])
    | some .inputConnected => do
      let input ← item data "input"
      constructed (ReplacementPredicate.new .inputConnected (asStr str input) .null [])
    | some .valuePresent => do
      let input ← item data "input"
      constructed (ReplacementPredicate.new .valuePresent (asStr str input) .null [])
    | some .always => constructed (ReplacementPredicate.new .always "" .null [])
  | _ => .error .shape
termination_by v => sizeOf v
decreasing_by
  all_goals
    have := of.2
    simp only [Value.obj.sizeOf_spec]
    omega

def childrenFromWire : Value → Except Failure (List ReplacementPredicate)
  | .arr vs => predicatesFromWire vs
  | .str s => if s = "" then .ok [] else .error .shape
  | .obj members => if members.isEmpty then .ok [] else .error .shape
  | _ => .error .shape
termination_by v => sizeOf v

def predicatesFromWire : List Value → Except Failure (List ReplacementPredicate)
  | [] => .ok []
  | v :: rest => do
    let child ← predicateFromWire v
    let children ← predicatesFromWire rest
    return child :: children
termination_by vs => sizeOf vs

end

def transformFromWire (wire : Value) : Except Failure ValueTransform := do
  let data ← items wire
  let kind ← item data "kind"
  if asStr str kind = "enumRename" then
    let map ← item data "map"
    let pairs ← items map
    constructed (Checked.new _ {
      kind := .enumRename, map := (Dict.ofList (pairs.map fun e => (e.1,asStr str e.2))).entries })
  else if asStr str kind = "scale" then
    let factor ← item data "factor"
    constructed (Checked.new _ {
      kind := .scale, factor := .of factor
      offset := .of ((get? data "offset").getD (.float zeroText)) })
  else .error (.valueError ⟨"unknown transform kind: ",some (.str (asStr str kind)),""⟩)

def sourceTransform : Option Value → Except Failure (Option ValueTransform)
  | none => .ok none
  | some .null => .ok none
  | some wire => do
    let transform ← transformFromWire str wire
    return some transform

def expectedFields (data : Object) : MappingSourceKind → List String
  | .constant => ["kind","value"]
  | .value =>
    if (get? data "transform").isSome then ["kind","input","transform"] else ["kind","input"]
  | _ => ["kind","input"]

def constantFromWire (data : Object) : Except Failure MappingSource :=
  constructed (Checked.new _ { kind := .constant, value := (get? data "value").getD .null })

def feedingFromWire (data : Object) (kind : MappingSourceKind) : Except Failure MappingSource :=
  match get? data "input" with
  | some (.str input) => do
    let transform ← sourceTransform str (get? data "transform")
    constructed (Checked.new _ { kind, input, transform })
  | _ => invalid (kind.name ++ " mapping source input must be a string")

def mappingSourceFromWire : Value → Except Failure MappingSource
  | .obj data =>
    match get? data "kind" with
    | some (.str kind) =>
      match MappingSourceKind.ofString? kind with
      | none => .error (.valueError ⟨"unknown mapping source kind: ",some (.str kind),""⟩)
      | some kind =>
        if exactly data (expectedFields data kind) then
          if kind = .constant then constantFromWire data else feedingFromWire str data kind
        else invalid (kind.name ++ " mapping source contains unexpected fields")
    | _ => invalid "mapping source kind must be a string"
  | _ => invalid "mapping source must be an object"

/-- `tuple((str(target), mapping_source_from_wire(source)) for target, source in v.items())` -/
def inputsFromWire (v : Value) : Except Failure (List (String × MappingSource)) := do
  let pairs ← items v
  mapValues (mappingSourceFromWire str) pairs

def inputFamilyMemberFromWire (wire : Value) : Except Failure InputFamilyMember := do
  let data ← items wire
  let suffix ← item data "suffix"
  let inputs ← item data "inputs"
  let inputs ← inputsFromWire str inputs
  constructed (Checked.new _ { suffix := asStr str suffix, inputs })

def memberIdsFromWire (data : Object) (kind : String) : Except Failure (Option String) :=
  match get? data "memberIds" with
  | none => .ok none
  | some (.str ids) =>
    if kind = "copy" ∧ ids = "targetPositions" then .ok (some ids)
    else invalid "memberIds requires a copy mapping and targetPositions"
  | some _ => invalid "memberIds requires a copy mapping and targetPositions"

def memberPortFromWire (template : Object) : Except Failure String :=
  match get? template "memberPort" with
  | none => .ok ""
  | some (.str port) =>
    if port = "" then invalid "sourceTemplate memberPort must be a nonempty path" else .ok port
  | some _ => invalid "sourceTemplate memberPort must be a nonempty path"

def templateInputsFromWire : Option Value → Except Failure (List String)
  | some (.arr vs) =>
    match asStrings vs with
    | some (id :: ids) => .ok (id :: ids)
    | _ => invalid "sourceTemplate inputs must be a nonempty string array"
  | some _ => invalid "sourceTemplate inputs must be a nonempty string array"
  | none => invalid "sourceTemplate requires inputs and optional memberPort"

def sourceTemplateFromWire (data : Object) (kind : String) :
    Except Failure (List String × String) :=
  match get? data "sourceTemplate" with
  | none => .ok ([],"")
  | some (.obj template) =>
    if kind = "copy" then
      if template.all fun e => ["inputs","memberPort"].contains e.1 then do
        let inputs ← templateInputsFromWire (get? template "inputs")
        let port ← memberPortFromWire template
        return (inputs,port)
      else invalid "sourceTemplate requires inputs and optional memberPort"
    else invalid "sourceTemplate requires a copy mapping and an object"
  | some _ => invalid "sourceTemplate requires a copy mapping and an object"

def inputFamilyMappingFromWire (wire : Value) : Except Failure InputFamilyMapping := do
  let data ← items wire
  let kind ← item data "kind"
  let memberIds ← memberIdsFromWire data (asStr str kind)
  let template ← sourceTemplateFromWire data (asStr str kind)
  if asStr str kind = "copy" then
    let sourceFamily ← item data "sourceFamily"
    let inputs ← item data "inputs"
    let inputs ← inputsFromWire str inputs
    constructed (Checked.new _ {
      kind := .copy, sourceFamily := asStr str sourceFamily, inputs
      sourceTemplate := template.1, sourceMemberPort := template.2, memberIds })
  else if asStr str kind = "members" then
    let members ← item data "members"
    let members ← each (inputFamilyMemberFromWire str) members
    constructed (Checked.new _ { kind := .members, members })
  else .error (.valueError ⟨"unknown input family mapping kind: ",some (.str (asStr str kind)),""⟩)

def outputFamilyMemberFromWire : Value → Except Failure OutputFamilyMember
  | .obj data =>
    if exactly data ["suffix","output"] then
      match get? data "suffix",get? data "output" with
      | some (.str suffix),some (.str output) => constructed (Checked.new _ { suffix, output })
      | some (.str suffix),some output =>
        if structuralId suffix then
          .error (.valueError ⟨"invalid source output id: ",some output,""⟩)
        else .error (.valueError ⟨"invalid output family member suffix: ",some (.str suffix),""⟩)
      | suffix,_ => .error (.valueError ⟨"invalid output family member suffix: ",suffix,""⟩)
    else invalid "output family member must contain exactly suffix and output"
  | _ => invalid "output family member must contain exactly suffix and output"

def outputFamilyMappingFromWire : Value → Except Failure OutputFamilyMapping
  | .obj data =>
    match get? data "kind" with
    | some (.str kind) =>
      if kind = "copy" then
        if exactly data ["kind","sourceFamily"] then
          match get? data "sourceFamily" with
          | some (.str sourceFamily) => constructed (Checked.new _ { kind := .copy, sourceFamily })
          | _ => invalid "copy output family sourceFamily must be a string"
        else invalid "copy output family mapping must contain exactly kind and sourceFamily"
      else if kind = "members" then
        if exactly data ["kind","members"] then
          match get? data "members" with
          | some (.arr vs) => do
            let members ← vs.mapM outputFamilyMemberFromWire
            constructed (Checked.new _ { kind := .members, members })
          | _ => invalid "output family members must be an array"
        else invalid "members output family mapping must contain exactly kind and members"
      else .error (.valueError ⟨"unknown output family mapping kind: ",some (.str kind),""⟩)
    | _ => invalid "output family mapping kind must be a string"
  | _ => invalid "output family mapping must be an object"

def textItem (data : Object) (key : String) (error : Value → Invalid) : Except Failure String :=
  match get? data key with
  | some (.str s) => .ok s
  | some v => .error (.valueError (error v))
  | none => .error .shape

def nodeFromWire (wire : Value) : Except Failure ReplacementNode := do
  let data ← items wire
  let type ← textItem data "type" fun _ => .text "replacement helper requires a node type"
  let values ← items ((get? data "values").getD (.obj []))
  constructed (Checked.new _ { type, values })

def linkFromWire (wire : Value) : Except Failure ReplacementLink := do
  let data ← items wire
  let fromAddress ← textItem data "from" fun v => ⟨"invalid replacement address: ",some v,""⟩
  let toAddress ← textItem data "to" fun v => ⟨"invalid replacement address: ",some v,""⟩
  return { fromAddress, toAddress }

def caseFieldNames : List String :=
  ["to","when","nodes","slotVariants","inputs","inputFamilies","outputFamilies","links","outputs"]

def unknownFields (data : Object) : List String :=
  Canonical.sortedBy id ((data.map (·.1)).filter (!caseFieldNames.contains ·))

def whenFromWire : Option Value → Except Failure (Option ReplacementPredicate)
  | none => .ok none
  | some .null => .ok none
  | some wire => do
    let p ← predicateFromWire str wire
    return some p

def nodesFromWire : Option Value → Except Failure (Option (List (String × ReplacementNode)))
  | none => .ok none
  | some wire => do
    let pairs ← items wire
    let nodes ← mapValues nodeFromWire pairs
    return some nodes

def choiceFromWire : Value → Except Failure String
  | .str choice => .ok choice
  | _ => invalid "replacement case slotVariants must map string addresses to string choices"

def slotVariantsFromWire : Value → Except Failure (List (String × String))
  | .obj pairs => mapValues choiceFromWire pairs
  | _ => invalid "replacement case slotVariants must be an object"

def caseFromWire (wire : Value) : Except Failure ReplacementCase := do
  let data ← items wire
  if unknownFields data ≠ [] then
    invalid ("replacement case contains unexpected fields: " ++
      ", ".intercalate (unknownFields data))
  else
    let slotVariants ← slotVariantsFromWire ((get? data "slotVariants").getD (.obj []))
    let target ← item data "to"
    let whenPredicate ← whenFromWire str (get? data "when")
    let nodes ← nodesFromWire (get? data "nodes")
    let inputs ← inputsFromWire str ((get? data "inputs").getD (.obj []))
    let families ← items ((get? data "inputFamilies").getD (.obj []))
    let inputFamilies ← mapValues (inputFamilyMappingFromWire str) families
    let families ← items ((get? data "outputFamilies").getD (.obj []))
    let outputFamilies ← mapValues outputFamilyMappingFromWire families
    let links ← each linkFromWire ((get? data "links").getD (.arr []))
    let outputs ← items ((get? data "outputs").getD (.obj []))
    constructed (Checked.new _ {
      target := asStr str target, whenPredicate, nodes, inputs, inputFamilies, outputFamilies, links
      outputs := outputs.map fun e => (e.1,asStr str e.2), slotVariants })

def migrationFromWire : Option Value → Except Failure (Option ReplacementMigration)
  | none => .ok none
  | some (.obj data) =>
    if exactly data ["historicalInputs"] then
      match get? data "historicalInputs" with
      | some (.arr vs) =>
        match asStrings vs with
        | some historicalInputs => do
          let migration ← constructed (Checked.new _ { historicalInputs })
          return some migration
        | none => invalid "replacement migration historicalInputs must be an array of strings"
      | _ => invalid "replacement migration historicalInputs must be an array of strings"
    else invalid "replacement migration must contain exactly historicalInputs"
  | some _ => invalid "replacement migration must be an object"

def ruleFromWire (wire : Value) : Except Failure ReplacementRule := do
  let data ← items wire
  let migration ← migrationFromWire (get? data "migration")
  let fromType ← item data "from"
  let cases ← item data "cases"
  let cases ← each (caseFromWire str) cases
  constructed (Checked.new _ {
    fromType := asStr str fromType, note := asStr str ((get? data "note").getD (.str ""))
    cases, migration })

end

end Dinkster.Replacement
