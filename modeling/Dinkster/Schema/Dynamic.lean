import Dinkster.Lib.Dict
import Dinkster.Schema.TypeIds

/-! Schemas with dynamic constructs: input families, combos and slots that nest, output families and
output descriptors. A document says which of their parts exist. -/
namespace Dinkster.Dynamic
open TypeExpr

/-- `isinstance(index, str)` -/
def isName : Option Json.Value → Bool
  | some (.str _) => true
  | _ => false

mutual

/-- `requires_elaboration` -/
def requiresElaboration : TypeExpr → Bool
  | ⟨_,_,_,element,elements,inputId,index⟩ =>
    decide (inputId ≠ "") || isName index || elementRequires element || someRequires elements

def elementRequires : Option TypeExpr → Bool
  | none => false
  | some element => requiresElaboration element

def someRequires : List TypeExpr → Bool
  | [] => false
  | expr :: rest => requiresElaboration expr || someRequires rest

end

mutual

def recursivelyConcrete : TypeExpr → Bool
  | ⟨kind,types,templateId,element,elements,inputId,index⟩ =>
    decide (kind ≠ .wildcard) &&
      (runtimeTypeId ⟨kind,types,templateId,element,elements,inputId,index⟩).isSome &&
      elementConcrete element && allConcrete elements

def elementConcrete : Option TypeExpr → Bool
  | none => true
  | some element => recursivelyConcrete element

def allConcrete : List TypeExpr → Bool
  | [] => true
  | expr :: rest => recursivelyConcrete expr && allConcrete rest

end

/-- A literal as elaboration reads it: an integer, a string, or anything else by its `repr`. -/
inductive Stored
  | int (n : Int)
  | str (s : String)
  | other (repr : String)

/-- A combo may take its options from the members of an input family. -/
inductive Widget
  | combo (options : List String) (optionSource : Option String)
  | representations (widgets : List Widget)
  | other (kind : String)

structure InputSpec where
  id : String
  type : TypeExpr
  required : Bool
  default : Option Stored := none
  doc : String := ""
  displayName : String := ""
  forceInput : Bool := false
  acceptsStream : Bool := false
  acceptsList : Bool := false
  adjacentTo : Option String := none
  widget : Option Widget := none

structure InputFamily where
  id : String
  minMembers : Nat
  maxMembers : Option Nat
  memberPrefix : Option String
  memberNames : Option (List String)
  independentTypes : Bool
  optionalAfterMinimum : Bool
  distinct : ∀ names ∈ memberNames, names.Nodup

structure Combo where
  id : String
  required : Bool

structure Slot where
  id : String
  required : Bool
  doc : String
  displayName : String
  slotType : Option TypeExpr
  forceInput : Bool
  typeTemplateId : String

inductive DynamicEntry
  | input (spec : InputSpec)
  | family (family : InputFamily) (template : List DynamicEntry)
  | combo (combo : Combo) (options : List (String × List DynamicEntry))
  | slot (slot : Slot) (inputs : List DynamicEntry)
    (variants : Option (List (String × TypeExpr × List DynamicEntry)))

def DynamicEntry.id : DynamicEntry → String
  | .input spec => spec.id
  | .family f _ => f.id
  | .combo c _ => c.id
  | .slot s _ _ => s.id

/-- Required combo values that a promise is limited to. -/
abbrev Applies := List (String × List String)

structure Represents where
  input : String
  rendition : String
  applies : Option Applies

structure OutputSpec where
  id : String
  type : TypeExpr
  doc : String
  preview : Bool
  displayName : String := ""
  represents : Option Represents := none

/-- `count` names the input that a family's number of members is bound to. -/
structure OutputFamily where
  id : String
  type : TypeExpr
  minMembers : Nat
  maxMembers : Option Nat
  doc : String
  preview : Bool
  count : Option String

structure OutputDescriptors where
  input : String
  choices : List OutputSpec
  maxEntries : Nat
  minEntries : Nat
  fixedIds : Bool

structure Mirror where
  source : String
  applies : Option Applies

structure NodeSchema where
  nodeType : String
  inputs : List InputSpec
  constructs : List DynamicEntry
  inputOrder : List String
  outputs : List OutputSpec
  outputFamilies : List OutputFamily
  outputDescriptors : Option OutputDescriptors
  additionalInputs : Option TypeExpr
  mirror : Option Mirror
  chunkSafe : Option (List String × List String)
  chunkSafeApplies : Option Applies
  slotChoices : List (String × String)

namespace NodeSchema

/-- `input_entries` -/
def inputEntries (schema : NodeSchema) : List DynamicEntry :=
  let entries := schema.inputs.map .input ++ schema.constructs
  if schema.inputOrder = [] then entries
  else schema.inputOrder.filterMap fun name => entries.find? (·.id = name)

/-- `is_static` -/
def isStatic (schema : NodeSchema) : Bool :=
  schema.additionalInputs.isNone && schema.constructs.isEmpty && schema.outputFamilies.isEmpty &&
    schema.outputDescriptors.isNone && !schema.outputs.any fun output =>
      requiresElaboration output.type

def slotVariants (schema : NodeSchema) : List (Slot × List (String × TypeExpr)) :=
  schema.constructs.filterMap fun
    | .slot s _ (some variants) => some (s,variants.map fun v => (v.1,v.2.1))
    | _ => none

def outputTypes (schema : NodeSchema) : List TypeExpr :=
  schema.outputs.map (·.type) ++ schema.outputFamilies.map (·.type) ++
    schema.outputDescriptors.toList.flatMap fun spec => spec.choices.map (·.type)

/-- The checks of the constructors that the results below rest on. The constructors make more of
them, so fewer schemas get past theirs than past these. -/
structure Valid (schema : NodeSchema) : Prop where
  inputIds : (schema.inputs.map (·.id)).Nodup
  outputIds : (schema.outputs.map (·.id)).Nodup
  choiceIds : (schema.slotChoices.map (·.1)).Nodup
  inputTypes : ∀ spec ∈ schema.inputs, requiresElaboration spec.type = false
  outputTypes : ∀ type ∈ schema.outputTypes, type.wellFormed = true
  choiceTypes : ∀ spec ∈ schema.outputDescriptors.toList, ∀ choice ∈ spec.choices,
    choice.type.kind = .concrete
  variantTypes : ∀ slot ∈ schema.slotVariants, ∀ variant ∈ slot.2,
    variant.2.wellFormed = true ∧ recursivelyConcrete variant.2 = true

instance (schema : NodeSchema) : Decidable schema.Valid :=
  decidable_of_iff ((schema.inputs.map (·.id)).Nodup ∧ (schema.outputs.map (·.id)).Nodup ∧
      (schema.slotChoices.map (·.1)).Nodup ∧
      (∀ spec ∈ schema.inputs, requiresElaboration spec.type = false) ∧
      (∀ type ∈ schema.outputTypes, type.wellFormed = true) ∧
      (∀ spec ∈ schema.outputDescriptors.toList, ∀ choice ∈ spec.choices,
        choice.type.kind = .concrete) ∧
      ∀ slot ∈ schema.slotVariants, ∀ variant ∈ slot.2,
        variant.2.wellFormed = true ∧ recursivelyConcrete variant.2 = true)
    ⟨fun ⟨a,b,c,d,e,f,g⟩ => ⟨a,b,c,d,e,f,g⟩,fun v => ⟨v.1,v.2,v.3,v.4,v.5,v.6,v.7⟩⟩

end NodeSchema

end Dinkster.Dynamic
