import Dinkster.Lib.Checked
import Dinkster.Lib.DepthFirst
import Dinkster.Lib.Fallible
import Dinkster.Lib.JsonObject

/-! Node replacement rules: what migrates a stored node of one type into another. A rule is data, a
closed vocabulary of guards, transforms and mappings, and every record of it is checked where it is
constructed. -/
namespace Dinkster.Replacement
open Json Fallible

/-- The text of a `ValueError`, around the value it shows. -/
structure Invalid where
  before : String
  shown : Option Value := none
  after : String := ""

def Invalid.text (text : String) : Invalid := ⟨text,none,""⟩

/-- `_STRUCTURAL_ID.fullmatch` -/
def structuralId (s : String) : Bool :=
  s ≠ "" && s.toList.all fun c => c.isAlphanum || c = '_' || c = '-'

/-- `s.split(separator)` -/
def split (separator : Char) (s : String) : List String :=
  (s.toList.splitOn separator).map String.ofList

def structuralPath (s : String) : Bool := (split '.' s).all structuralId

mutual

def serializable : Value → Bool
  | .float t => t.finite
  | .arr items => serializableItems items
  | .obj members => serializableMembers members
  | _ => true

def serializableItems : List Value → Bool
  | [] => true
  | v :: rest => serializable v && serializableItems rest

def serializableMembers : Object → Bool
  | [] => true
  | e :: rest => serializable e.2 && serializableMembers rest

end

/-- `_require_json` -/
def requireJson (value : Value) (place : String) : Except Invalid Unit :=
  refuseIf (serializable value = false) (.text (place ++ " must be JSON-serializable data"))

def isNone : Value → Bool
  | .null => true
  | _ => false

/-- Duplicate ids are an error. -/
def distinct (ids : List String) (error : Invalid) : Except Invalid Unit :=
  refuseIf (¬ ids.Nodup) error

theorem distinct_ok {ids : List String} {error : Invalid} :
    distinct ids error = .ok () ↔ ids.Nodup := by
  rw [distinct,refuseIf_ok,not_not]

inductive PredicateKind
  | always
  | inputConnected
  | valuePresent
  | valueEquals
  | not
  | all
  | any
  deriving DecidableEq

def PredicateKind.name : PredicateKind → String
  | always => "always"
  | inputConnected => "inputConnected"
  | valuePresent => "valuePresent"
  | valueEquals => "valueEquals"
  | not => "not"
  | all => "all"
  | any => "any"

def PredicateKind.ofString? : String → Option PredicateKind
  | "always" => some always
  | "inputConnected" => some inputConnected
  | "valuePresent" => some valuePresent
  | "valueEquals" => some valueEquals
  | "not" => some not
  | "all" => some all
  | "any" => some any
  | _ => none

@[simp] theorem PredicateKind.ofString?_name (kind : PredicateKind) :
    ofString? kind.name = some kind := by
  cases kind <;> rfl

abbrev InputId := {s : String // s ≠ ""}

abbrev JsonData := {v : Value // serializable v = true}

/-- A guard, in the only shapes that the constructor lets through. -/
inductive ReplacementPredicate
  | always
  | inputConnected (input : InputId)
  | valuePresent (input : InputId)
  | valueEquals (input : InputId) (value : JsonData)
  | not (child : ReplacementPredicate)
  | all (children : List ReplacementPredicate)
  | any (children : List ReplacementPredicate)

namespace ReplacementPredicate

def kind : ReplacementPredicate → PredicateKind
  | always => .always
  | inputConnected _ => .inputConnected
  | valuePresent _ => .valuePresent
  | valueEquals _ _ => .valueEquals
  | not _ => .not
  | all _ => .all
  | any _ => .any

def checkInput (kind : PredicateKind) (input : String) (of : List ReplacementPredicate) :
    Except Invalid InputId :=
  if some : input ≠ "" then
    if of.isEmpty then .ok ⟨input,some⟩
    else .error (.text (kind.name ++ " predicate carries no children"))
  else .error (.text (kind.name ++ " predicate requires an input id"))

def checkJson (value : Value) : Except Invalid JsonData :=
  if data : serializable value = true then .ok ⟨value,data⟩
  else .error (.text "valueEquals.value must be JSON-serializable data")

def checkNoInput (kind : PredicateKind) (input : String) : Except Invalid Unit :=
  refuseIf (input ≠ "") (.text (kind.name ++ " predicate carries no input id"))

/-- Only `valueEquals` has a value. -/
def checkNoValue (kind : PredicateKind) (value : Value) : Except Invalid Unit :=
  refuseIf (isNone value = false) (.text (kind.name ++ " predicate carries no value"))

/-- The constructor and its `__post_init__`. -/
def new (kind : PredicateKind) (input : String) (value : Value) (of : List ReplacementPredicate) :
    Except Invalid ReplacementPredicate :=
  match kind with
  | .inputConnected => do
    let input ← checkInput kind input of
    checkNoValue kind value
    return inputConnected input
  | .valuePresent => do
    let input ← checkInput kind input of
    checkNoValue kind value
    return valuePresent input
  | .valueEquals => do
    let input ← checkInput kind input of
    let value ← checkJson value
    return valueEquals input value
  | .not => do
    checkNoInput kind input
    match of with
    | [child] => do
      checkNoValue kind value
      return not child
    | _ => .error (.text "not predicate requires exactly one child")
  | .all => do
    checkNoInput kind input
    checkNoValue kind value
    return all of
  | .any => do
    checkNoInput kind input
    checkNoValue kind value
    return any of
  | .always => do
    refuseIf (input ≠ "" ∨ of.isEmpty = false) (.text "always predicate carries no fields")
    checkNoValue kind value
    return always

end ReplacementPredicate

inductive TransformKind
  | enumRename
  | scale
  deriving DecidableEq

def zeroText : FloatText := ⟨'0',['.','0'],rfl,by simp [isNumberChar],'.',by simp,rfl,by decide⟩

def negativeZeroText : FloatText :=
  ⟨'-',['0','.','0'],rfl,by simp [isNumberChar],'.',by simp,rfl,by decide⟩

def oneText : FloatText := ⟨'1',['.','0'],rfl,by simp [isNumberChar],'.',by simp,rfl,by decide⟩

def isZero : Value → Bool
  | .int n => n = 0
  | .float t => t = zeroText || t = negativeZeroText
  | _ => false

/-- `v == 1.0` for a number. -/
def isOne : Value → Bool
  | .int n => n = 1
  | .float t => t = oneText
  | _ => false

def canonical (v : Value) : Value :=
  if isZero v then .float zeroText else if isOne v then .float oneText else v

theorem canonical_canonical (v : Value) : canonical (canonical v) = canonical v := by
  unfold canonical
  by_cases zero : isZero v = true
  · rw [if_pos zero]
    rfl
  · by_cases one : isOne v = true
    · rw [if_neg zero,if_pos one]
      rfl
    · simp only [zero,one,Bool.false_eq_true,if_false]

/-- An operand of a transform. Numbers that `==` takes for zero are one operand, and so are those
that it takes for one. -/
abbrev Operand := {v : Value // canonical v = v}

def Operand.of (v : Value) : Operand := ⟨canonical v,canonical_canonical v⟩

def Operand.zero : Operand := .of (.float zeroText)

def Operand.one : Operand := .of (.float oneText)

@[simp] theorem Operand.of_val (operand : Operand) : Operand.of operand.val = operand :=
  Subtype.ext operand.property

theorem Operand.eq_zero {operand : Operand} (zero : isZero operand.val = true) :
    operand = Operand.zero := by
  rw [← operand.of_val]
  exact Subtype.ext (if_pos zero)

theorem Operand.eq_one {operand : Operand} (one : isOne operand.val = true) :
    operand = Operand.one := by
  have nonzero : isZero operand.val = false := by
    by_contra zero
    have same : operand = Operand.zero := Operand.eq_zero (by simpa using zero)
    rw [same] at one
    exact absurd one (by decide)
  rw [← operand.of_val]
  refine Subtype.ext ?_
  simp only [Operand.of,canonical,nonzero,one,Bool.false_eq_true,if_true,if_false]
  rfl

/-- `math.isfinite` of an integer or a float; an integer beyond the floats overflows. -/
def finiteNumber : Value → Bool
  | .int n => n.natAbs < 2 ^ 1024 - 2 ^ 970
  | .float t => t.finite
  | _ => false

structure TransformFields where
  kind : TransformKind
  map : List (String × String) := []
  factor : Operand := Operand.one
  offset : Operand := Operand.zero

def TransformFields.check (t : TransformFields) : Except Invalid Unit :=
  match t.kind with
  | .enumRename => refuseIf (isOne t.factor.val = false ∨ isZero t.offset.val = false)
      (.text "enumRename carries no factor/offset")
  | .scale => do
    refuseIf (t.map ≠ []) (.text "scale carries no map")
    refuseIf (finiteNumber t.factor.val = false ∨ finiteNumber t.offset.val = false)
      (.text "scale factor and offset must be finite numbers")

abbrev ValueTransform := Checked TransformFields.check

inductive MappingSourceKind
  | copy
  | value
  | link
  | constant
  deriving DecidableEq

def MappingSourceKind.name : MappingSourceKind → String
  | copy => "copy"
  | value => "value"
  | link => "link"
  | constant => "constant"

def MappingSourceKind.ofString? : String → Option MappingSourceKind
  | "copy" => some copy
  | "value" => some value
  | "link" => some link
  | "constant" => some constant
  | _ => none

@[simp] theorem MappingSourceKind.ofString?_name (kind : MappingSourceKind) :
    ofString? kind.name = some kind := by
  cases kind <;> rfl

structure SourceFields where
  kind : MappingSourceKind
  input : String := ""
  transform : Option ValueTransform := none
  value : Value := .null

def SourceFields.check (s : SourceFields) : Except Invalid Unit :=
  if s.kind = .constant then do
    refuseIf (s.input ≠ "" ∨ s.transform.isSome) (.text "constant mapping carries only a value")
    requireJson s.value "constant.value"
  else do
    refuseIf (s.input = "") (.text (s.kind.name ++ " mapping requires a source input id"))
    refuseIf (isNone s.value = false)
      (.text (s.kind.name ++ " mapping carries no constant value"))
    refuseIf (s.transform.isSome ∧ s.kind ≠ .value)
      (.text (s.kind.name ++ " mapping carries no transform"))

abbrev MappingSource := Checked SourceFields.check

inductive FamilyKind
  | copy
  | members
  deriving DecidableEq

def checkTemplateId (id : String) : Except Invalid Unit :=
  refuseIf (structuralId id = false)
    ⟨"invalid input family template input id: ",some (.str id),""⟩

structure MemberFields where
  suffix : String
  inputs : List (String × MappingSource)

def MemberFields.check (m : MemberFields) : Except Invalid Unit := do
  refuseIf (structuralId m.suffix = false)
    ⟨"invalid input family member suffix: ",some (.str m.suffix),""⟩
  refuseIf (m.inputs = [])
    ⟨"input family member ",some (.str m.suffix)," requires input mappings"⟩
  distinct (m.inputs.map (·.1))
    ⟨"input family member ",some (.str m.suffix)," has duplicate input mappings"⟩
  (m.inputs.map (·.1)).forM checkTemplateId

abbrev InputFamilyMember := Checked MemberFields.check

structure InputMappingFields where
  kind : FamilyKind
  sourceFamily : String := ""
  inputs : List (String × MappingSource) := []
  members : List InputFamilyMember := []
  sourceTemplate : List String := []
  sourceMemberPort : String := ""
  memberIds : Option String := none

def InputMappingFields.checkKind (m : InputMappingFields) : Except Invalid Unit :=
  match m.kind with
  | .copy => do
    refuseIf (structuralId m.sourceFamily = false)
      (.text "copy input family mapping requires a source family id")
    refuseIf (m.inputs = [])
      (.text "copy input family mapping requires template input mappings")
    refuseIf (m.members ≠ []) (.text "copy input family mapping carries no explicit members")
  | .members => do
    refuseIf (m.sourceFamily ≠ "" ∨ m.inputs ≠ [] ∨ m.sourceTemplate ≠ [] ∨
        m.sourceMemberPort ≠ "" ∨ m.memberIds.isSome)
      (.text "members input family mapping carries only explicit members")
    refuseIf (m.members = []) (.text "members input family mapping requires explicit members")
    distinct (m.members.map (·.fields.suffix))
      (.text "members input family mapping has duplicate suffixes")

def InputMappingFields.check (m : InputMappingFields) : Except Invalid Unit := do
  refuseIf (m.memberIds.isSome ∧ m.memberIds ≠ some "targetPositions")
    (.text "input family member ids must be targetPositions or omitted")
  m.checkKind
  distinct (m.inputs.map (·.1)) (.text "copy input family mapping has duplicate input mappings")
  (m.inputs.map (·.1)).forM checkTemplateId
  m.sourceTemplate.forM fun id =>
    refuseIf (structuralId id = false) (.text "source template requires structural input ids")
  distinct m.sourceTemplate (.text "source template has duplicate input ids")
  refuseIf (m.sourceTemplate ≠ [] ∧ ∃ e ∈ m.inputs, e.2.fields.kind ≠ .constant ∧
      e.2.fields.input ∉ m.sourceTemplate)
    (.text "mapping input is not declared in source template")
  refuseIf (m.sourceMemberPort ≠ "" ∧
      (m.sourceTemplate.length ≠ 1 ∨ structuralPath m.sourceMemberPort = false))
    (.text "source member port requires a single-input source template and path")

abbrev InputFamilyMapping := Checked InputMappingFields.check

structure OutputMemberFields where
  suffix : String
  output : String

def OutputMemberFields.check (m : OutputMemberFields) : Except Invalid Unit := do
  refuseIf (structuralId m.suffix = false)
    ⟨"invalid output family member suffix: ",some (.str m.suffix),""⟩
  refuseIf (structuralId m.output = false)
    ⟨"invalid source output id: ",some (.str m.output),""⟩

abbrev OutputFamilyMember := Checked OutputMemberFields.check

structure OutputMappingFields where
  kind : FamilyKind
  sourceFamily : String := ""
  members : List OutputFamilyMember := []

def OutputMappingFields.check (m : OutputMappingFields) : Except Invalid Unit :=
  match m.kind with
  | .copy => do
    refuseIf (structuralId m.sourceFamily = false)
      (.text "copy output family mapping requires a source family id")
    refuseIf (m.members ≠ []) (.text "copy output family mapping carries no explicit members")
  | .members => do
    refuseIf (m.sourceFamily ≠ "")
      (.text "members output family mapping carries only explicit members")
    refuseIf (m.members = []) (.text "members output family mapping requires explicit members")
    distinct (m.members.map (·.fields.suffix))
      (.text "members output family mapping has duplicate suffixes")

abbrev OutputFamilyMapping := Checked OutputMappingFields.check

structure NodeFields where
  type : String
  values : List (String × Value) := []

def NodeFields.check (n : NodeFields) : Except Invalid Unit := do
  refuseIf (n.type = "") (.text "replacement helper requires a node type")
  distinct (n.values.map (·.1)) (.text "replacement helper has duplicate value ids")
  n.values.forM fun e => do
    refuseIf (structuralPath e.1 = false) (.text "replacement helper has an invalid value id")
    refuseIf (serializable e.2 = false) ⟨"replacement helper value ",some (.str e.1),
      " must be JSON-serializable data"⟩

abbrev ReplacementNode := Checked NodeFields.check

structure ReplacementLink where
  fromAddress : String
  toAddress : String

def addressLocalId (address : String) (localIds : List String) (helpersEnabled : Bool) :
    Except Invalid (Option String) :=
  if address = "" then .error ⟨"invalid replacement address: ",some (.str address),""⟩
  else if helpersEnabled = false then .ok none
  else match split ':' address with
    | [_] => .ok none
    | [localId,port] =>
      if port ≠ "" ∧ structuralId localId ∧ localId ∈ localIds then .ok (some localId)
      else .error ⟨"invalid replacement address: ",some (.str address),""⟩
    | _ => .error ⟨"invalid replacement address: ",some (.str address),""⟩

def addressPath (address : String) : Option String → String
  | none => address
  | some _ => ":".intercalate ((split ':' address).drop 1)

structure CaseFields where
  target : String
  whenPredicate : Option ReplacementPredicate := none
  nodes : Option (List (String × ReplacementNode)) := none
  inputs : List (String × MappingSource) := []
  inputFamilies : List (String × InputFamilyMapping) := []
  outputFamilies : List (String × OutputFamilyMapping) := []
  links : List ReplacementLink := []
  outputs : List (String × String) := []
  slotVariants : List (String × String) := []

namespace CaseFields

variable (c : CaseFields)

def localIds : List String := (c.nodes.getD []).map (·.1)

def localId (address : String) : Except Invalid (Option String) :=
  addressLocalId address c.localIds c.nodes.isSome

/-- The errors of a case name its target. -/
def invalid (text : String) : Invalid := (.text ("case -> " ++ c.target ++ ": " ++ text))

def checkNodes : Except Invalid Unit := do
  distinct c.localIds (c.invalid "duplicate helper local id")
  refuseIf (∃ id ∈ c.localIds, structuralId id = false) (c.invalid "invalid helper local id")

def checkSlotVariants : Except Invalid Unit := do
  distinct (c.slotVariants.map (·.1)) (c.invalid "duplicate slot variant address")
  c.slotVariants.forM fun e => do
    let owner ← c.localId e.1
    refuseIf (structuralPath (addressPath e.1 owner) = false)
      (c.invalid "invalid slot variant path")
    refuseIf (e.2 = "") (c.invalid "slot variant must be a non-empty string")

def checkInputs : Except Invalid Unit := do
  distinct (c.inputs.map (·.1)) (c.invalid "duplicate target input mapping")
  c.inputs.forM fun e => do
    let _ ← c.localId e.1
    return ()

def checkFamilies : Except Invalid Unit := do
  distinct (c.inputFamilies.map (·.1)) (c.invalid "duplicate target input family mapping")
  c.inputFamilies.forM fun e => do
    let owner ← c.localId e.1
    refuseIf (structuralId (addressPath e.1 owner) = false)
      (c.invalid "invalid target input family id")
  distinct (c.outputFamilies.map (·.1)) (c.invalid "duplicate target output family mapping")
  c.outputFamilies.forM fun e =>
    refuseIf (structuralId e.1 = false) (c.invalid "invalid target output family id")

def feed (fed : List String) (link : ReplacementLink) : Except Invalid (List String) :=
  if link.toAddress ∈ fed then
    .error ⟨"case -> " ++ c.target ++ ": target input ",some (.str link.toAddress),
    " has two feeders"⟩
  else .ok (link.toAddress :: fed)

def checkLinks : Except Invalid Unit := do
  c.links.forM fun link => do
    let _ ← c.localId link.fromAddress
    let _ ← c.localId link.toAddress
    return ()
  let _ ← c.links.foldlM c.feed (c.inputs.map (·.1))
  return ()

def sourceOutputs : List String :=
  c.outputs.map (·.2) ++ c.outputFamilies.flatMap fun e =>
    if e.2.fields.kind = .members then e.2.fields.members.map (·.fields.output) else []

def sourceOutputFamilies : List String :=
  c.outputFamilies.filterMap fun e =>
    if e.2.fields.kind = .copy then some e.2.fields.sourceFamily else none

def checkOutputs : Except Invalid Unit := do
  distinct (c.outputs.map (·.1)) (c.invalid "duplicate target output mapping")
  c.outputs.forM fun e => do
    let _ ← c.localId e.1
    return ()
  distinct c.sourceOutputs
    (c.invalid "a source output feeds two target outputs (fan-in would duplicate links)")
  distinct c.sourceOutputFamilies
    (c.invalid "a source output family feeds two target families (fan-in would duplicate links)")

def edge (link : ReplacementLink) : Except Invalid (String × String) := do
  let source ← c.localId link.fromAddress
  let target ← c.localId link.toAddress
  return (source.getD "",target.getD "")

/-- What the links out of a node lead to. -/
def targets (edges : List (String × String)) (node : String) : List String :=
  (edges.filter (·.1 = node)).map (·.2)

def checkCycles : Except Invalid Unit := do
  let edges ← c.links.mapM c.edge
  refuseIf (DepthFirst.acyclicFrom (targets edges) (c.localIds.length + 2)
      ("" :: c.localIds) = false)
    (c.invalid "internal links must be acyclic")

def check : Except Invalid Unit := do
  refuseIf (c.target = "") (.text "replacement case requires a target node type")
  c.checkNodes
  c.checkSlotVariants
  c.checkInputs
  c.checkFamilies
  c.checkLinks
  c.checkOutputs
  c.checkCycles

end CaseFields

abbrev ReplacementCase := Checked CaseFields.check

theorem addressLocalId_known {address : String} {localIds : List String} {helpersEnabled : Bool}
    {owner : Option String} (found : addressLocalId address localIds helpersEnabled = .ok owner) :
    owner.getD "" ∈ "" :: localIds := by
  unfold addressLocalId at found
  split at found
  · cases found
  · split at found
    · cases found
      exact List.mem_cons_self
    · split at found
      · cases found
        exact List.mem_cons_self
      · split at found
        · rename_i named
          cases found
          exact List.mem_cons_of_mem _ named.2.2
        · cases found
      · cases found

theorem case_acyclic (c : ReplacementCase) :
    ∃ edges, c.fields.links.mapM c.fields.edge = .ok edges ∧
      Digraph.Acyclic (Digraph.Edge (CaseFields.targets edges)) := by
  obtain ⟨c,passed⟩ := c
  obtain ⟨_,-,rest⟩ := bind_ok.mp passed
  obtain ⟨_,-,rest⟩ := bind_ok.mp rest
  obtain ⟨_,-,rest⟩ := bind_ok.mp rest
  obtain ⟨_,-,rest⟩ := bind_ok.mp rest
  obtain ⟨_,-,rest⟩ := bind_ok.mp rest
  obtain ⟨_,-,rest⟩ := bind_ok.mp rest
  obtain ⟨_,-,cycles⟩ := bind_ok.mp rest
  obtain ⟨edges,made,free⟩ := bind_ok.mp cycles
  have searched := refuseIf_ok.mp free
  rw [Bool.not_eq_false] at searched
  refine ⟨edges,made,(DepthFirst.acyclicFrom_acyclic ?_ (by simp)).mp searched⟩
  -- a node that leads somewhere is the owner of a link's address
  intro node leads
  obtain ⟨next,member⟩ := List.exists_mem_of_ne_nil _ leads
  obtain ⟨e,inside,-⟩ := List.mem_map.mp member
  obtain ⟨listed,named⟩ := List.mem_filter.mp inside
  obtain ⟨link,-,joined⟩ := mapM_image made e listed
  obtain ⟨source,found,rest⟩ := bind_ok.mp joined
  obtain ⟨target,-,same⟩ := bind_ok.mp rest
  rw [← of_decide_eq_true named,← Except.ok.inj same]
  exact addressLocalId_known found

def ReplacementCase.unconditional (c : ReplacementCase) : Bool :=
  match c.fields.whenPredicate with
  | none => true
  | some p => p.kind = .always

structure MigrationFields where
  historicalInputs : List String

def MigrationFields.check (m : MigrationFields) : Except Invalid Unit := do
  refuseIf (m.historicalInputs = [])
    (.text "replacement migration requires historical input ids")
  distinct m.historicalInputs
    (.text "replacement migration has duplicate historical input ids")
  m.historicalInputs.forM fun id =>
    refuseIf (structuralPath id = false) ⟨"invalid historical input id: ",some (.str id),""⟩

abbrev ReplacementMigration := Checked MigrationFields.check

structure RuleFields where
  fromType : String
  cases : List ReplacementCase := []
  note : String := ""
  migration : Option ReplacementMigration := none

def RuleFields.check (r : RuleFields) : Except Invalid Unit := do
  refuseIf (r.fromType = "") (.text "replacement rule requires a source node type")
  refuseIf (r.cases = []) (.text ("rule for " ++ r.fromType ++ ": at least one case required"))
  refuseIf (r.cases.getLast?.any ReplacementCase.unconditional = false)
    (.text ("rule for " ++ r.fromType ++
      ": the last case must be unconditional (the required fallback)"))
  refuseIf (r.migration.isSome ∧ ∃ c ∈ r.cases, c.fields.target ≠ r.fromType)
    (.text ("migration rule for " ++ r.fromType ++ ": every case must preserve the node type"))

abbrev ReplacementRule := Checked RuleFields.check

end Dinkster.Replacement
