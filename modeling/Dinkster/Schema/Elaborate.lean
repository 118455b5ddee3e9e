import Dinkster.Lib.Canonical
import Dinkster.Lib.Fallible
import Dinkster.Schema.Dynamic

/-! Elaboration: what a document stores for a node turns the dynamic constructs of its schema into
plain inputs and outputs, once, before anything else reads the interface. -/
namespace Dinkster.Dynamic
open Canonical Fallible TypeExpr

def maxFamilyMembers : Nat := 512

def maxInterfaceItems : Nat := 1024

def maxDescriptorBytes : Nat := 1048576

inductive ElaborationError
  | elaboration (text : String)
  | value (text : String)

/-- Python's own functions on texts. -/
structure Python where
  repr : String → String
  reprJson : Option Json.Value → String
  int : String → Option Int
  jsonLoads : String → Option Json.Value
  isSpace : Char → Bool

/-- A name out of a document, or what stands in its place. -/
inductive Raw
  | null
  | str (s : String)
  | other (repr : String)
  deriving DecidableEq

/-- The inputs of a node, or just their names. -/
inductive StoredInputs
  | values (values : Dict String Stored)
  | names (ids : List String)

/-- What a document stores for a node. -/
structure Document where
  storedInputs : StoredInputs
  choices : Dict String Raw
  outputMembers : Dict String (List Raw)

def Document.storedIds (doc : Document) : List String :=
  match doc.storedInputs with
  | .values values => values.keys
  | .names ids => ids

def Document.storedValues (doc : Document) : Option (Dict String Stored) :=
  match doc.storedInputs with
  | .values values => some values
  | .names _ => none

/-- What a run over entries has collected: inputs, active choices, and the choices it has read. -/
structure Elaborated where
  inputs : List InputSpec
  active : List (String × String)
  consumed : List String

def Elaborated.empty : Elaborated := ⟨[],[],[]⟩

def Elaborated.append (a b : Elaborated) : Elaborated :=
  ⟨a.inputs ++ b.inputs,a.active ++ b.active,a.consumed ++ b.consumed⟩

/-- `_join_path` -/
def joinPath (parent name : String) : String := if parent = "" then name else parent ++ "." ++ name

def isStructuralChar (c : Char) : Bool := c.isAlphanum || c = '_' || c = '-'

/-- `STRUCTURAL_ID_PATTERN.match`, whose `$` also stands before a last line feed. -/
def structuralMatch (s : String) : Bool :=
  let body := if s.toList.getLast? = some '\n' then s.toList.dropLast else s.toList
  decide (body ≠ []) && body.all isStructuralChar

/-- `STRUCTURAL_ID_PATTERN.fullmatch` -/
def structuralFullmatch (s : String) : Bool :=
  decide (s.toList ≠ []) && s.toList.all isStructuralChar

def memberOf (path id : String) : Option String :=
  if (path ++ ".").toList.isPrefixOf id.toList then
    let suffix := String.ofList
      ((id.toList.drop (path ++ ".").toList.length).takeWhile fun c => c ≠ '.')
    if suffix = "" then none else some suffix
  else none

def addNew (names : List String) (name : String) : List String :=
  if name ∈ names then names else names ++ [name]

def membersIn (ids : List String) (path : String) : List String :=
  (ids.filterMap (memberOf path)).foldl addNew []

def namedMembers (doc : Document) (path : String) : List String :=
  membersIn (doc.storedIds ++ doc.choices.keys) path

mutual

/-- `_scope_member_type` -/
def scopeMemberType (member : String) : TypeExpr → TypeExpr
  | ⟨kind,types,templateId,element,elements,inputId,index⟩ =>
    if kind = .variable then
      ⟨kind,types,member ++ ":" ++ templateId,element,elements,inputId,index⟩
    else ⟨kind,types,templateId,scopeElement member element,scopeElements member elements,inputId,
      index⟩

def scopeElement (member : String) : Option TypeExpr → Option TypeExpr
  | none => none
  | some element => some (scopeMemberType member element)

def scopeElements (member : String) : List TypeExpr → List TypeExpr
  | [] => []
  | expr :: rest => scopeMemberType member expr :: scopeElements member rest

end

mutual

/-- `_substitute_type` -/
def substituteType (bindings : Dict String TypeExpr) (subject : String) :
    TypeExpr → Except ElaborationError TypeExpr
  | ⟨kind,types,templateId,element,elements,inputId,index⟩ =>
    match kind with
    | .variable =>
      match bindings.get? templateId with
      | none => .ok ⟨.variable,types,templateId,element,elements,inputId,index⟩
      | some bound =>
        match bound.runtimeTypeId with
        | none => .error (.value "AssertionError")
        | some typeId =>
          if types = [] ∨ typeId ∈ types then .ok bound
          else .error (.elaboration (subject ++ " type variable '" ++ templateId ++
            "' does not allow selected type '" ++ typeId ++ "'"))
    | .tuple => do
      let elements ← substituteElements bindings subject elements
      return ⟨.tuple,types,templateId,element,elements,inputId,index⟩
    | .list => (substituteElement bindings subject element).map fun element =>
      ⟨.list,types,templateId,element,elements,inputId,index⟩
    | .asset => (substituteElement bindings subject element).map fun element =>
      ⟨.asset,types,templateId,element,elements,inputId,index⟩
    | .stream => (substituteElement bindings subject element).map fun element =>
      ⟨.stream,types,templateId,element,elements,inputId,index⟩
    | .tupleElement => (substituteElement bindings subject element).map fun element =>
      ⟨.tupleElement,types,templateId,element,elements,inputId,index⟩
    | other => .ok ⟨other,types,templateId,element,elements,inputId,index⟩

def substituteElement (bindings : Dict String TypeExpr) (subject : String) :
    Option TypeExpr → Except ElaborationError (Option TypeExpr)
  | none => .error (.value "AssertionError")
  | some element => (substituteType bindings subject element).map some

def substituteElements (bindings : Dict String TypeExpr) (subject : String) :
    List TypeExpr → Except ElaborationError (List TypeExpr)
  | [] => .ok []
  | expr :: rest => do
    let first ← substituteType bindings subject expr
    let others ← substituteElements bindings subject rest
    return first :: others

end

def tupleIndex (inputs : List InputSpec) (stored : Option (Dict String Stored)) :
    Option Json.Value → Except ElaborationError (Option Json.Value)
  | some (.str name) =>
    match stored with
    | none => .error (.elaboration "tuple index requires stored literal input values")
    | some values =>
      match inputs.find? (·.id = name) with
      | none => .error (.value "StopIteration")
      | some selector =>
        match (values.get? name).orElse fun _ => selector.default with
        | some (.int n) => .ok (some (.int n))
        | _ => .error (.elaboration
          "tuple index must be a constant INT; use a list for same-typed items")
  | index => .ok index

def tupleSource (inputs : List InputSpec) (inputId : String) (element : Option TypeExpr) :
    Except ElaborationError TypeExpr :=
  if inputId = "" then
    match element with
    | some element => .ok element
    | none => .error (.value "AssertionError")
  else
    match inputs.find? (·.id = inputId) with
    | some spec => .ok spec.type
    | none => .error (.value "StopIteration")

mutual

/-- `_project_tuple_output` -/
def projectTupleOutput (inputs : List InputSpec) (stored : Option (Dict String Stored)) :
    TypeExpr → Except ElaborationError TypeExpr
  | ⟨kind,types,templateId,element,elements,inputId,index⟩ =>
    match kind with
    | .familyTuple => .ok (tupleOf ((inputs.filter fun spec =>
        (inputId ++ ".").toList.isPrefixOf spec.id.toList).map (·.type)))
    | .tupleElement => do
      let source ← tupleSource inputs inputId element
      let index ← tupleIndex inputs stored index
      return ⟨.tupleElement,[],"",some source,[],"",index⟩
    | kind => do
      let element ← projectElement inputs stored element
      let elements ← projectElements inputs stored elements
      return ⟨kind,types,templateId,element,elements,inputId,index⟩

def projectElement (inputs : List InputSpec) (stored : Option (Dict String Stored)) :
    Option TypeExpr → Except ElaborationError (Option TypeExpr)
  | none => .ok none
  | some element => (projectTupleOutput inputs stored element).map some

def projectElements (inputs : List InputSpec) (stored : Option (Dict String Stored)) :
    List TypeExpr → Except ElaborationError (List TypeExpr)
  | [] => .ok []
  | expr :: rest => do
    let first ← projectTupleOutput inputs stored expr
    let others ← projectElements inputs stored rest
    return first :: others

end

section Families

variable (py : Python)

def memberPosition (family : InputFamily) (path suffix : String) :
    Except ElaborationError Int :=
  match family.memberNames,family.memberPrefix with
  | some names,_ =>
    if suffix ∈ names then .ok (names.idxOf suffix)
    else .error (.elaboration ("input family '" ++ path ++ "' has unknown member " ++
      py.repr suffix))
  | none,none => .error (.value "AssertionError")
  | none,some first =>
    let number := if first.toList.isPrefixOf suffix.toList then
      String.ofList (suffix.toList.drop first.toList.length) else suffix
    match py.int number with
    | none => .error (.elaboration ("input family '" ++ path ++ "' has invalid numeric member " ++
        py.repr suffix))
    | some position =>
      if number.toList.all Char.isDigit ∧ suffix = first ++ toString position then .ok position
      else .error (.elaboration ("input family '" ++ path ++ "' has noncanonical member " ++
        py.repr suffix))

def placeMember (family : InputFamily) (path : String) (positions : Dict String Int)
    (suffix : String) : Except ElaborationError (Dict String Int) := do
  let position ← memberPosition py family path suffix
  match family.maxMembers with
  | none => pure (positions.set suffix position)
  | some most =>
    if (most : Int) ≤ position then
      .error (.elaboration ("input family '" ++ path ++ "' member " ++ py.repr suffix ++
        " exceeds its maximum"))
    else pure (positions.set suffix position)

def memberAt (family : InputFamily) (position : Nat) : Except ElaborationError String :=
  match family.memberNames with
  | some names =>
    match names[position]? with
    | some name => .ok name
    | none => .error (.value "IndexError")
  | none => .ok (family.memberPrefix.getD "None" ++ toString position)

def placeMembers (family : InputFamily) (path : String) (required : Bool)
    (suffixes : List String) : Except ElaborationError (Dict String Int) := do
  let positions ← suffixes.foldlM (placeMember py family path) Dict.empty
  if required then
    if maxFamilyMembers < family.minMembers then
      .error (.elaboration ("input family '" ++ path ++ "' minimum exceeds member budget"))
    else
      (List.range family.minMembers).foldlM (fun positions position => do
        let suffix ← memberAt family position
        pure (positions.set suffix (position : Int))) positions
  else pure positions

def firstRequired : List DynamicEntry → Bool
  | .input spec :: _ => spec.required
  | _ => false

def checkMember (family : InputFamily) (path suffix : String) : Except ElaborationError PUnit := do
  refuseIf (structuralMatch suffix = false) (.elaboration ("input family '" ++ path ++
    "' has invalid member suffix " ++ py.repr suffix))
  refuseIf (∃ names ∈ family.memberNames, suffix ∉ names) (.elaboration ("input family '" ++ path ++
    "' member suffix " ++ py.repr suffix ++ " is not in member_names"))

def checkCount (family : InputFamily) (path : String) (count : Nat) :
    Except ElaborationError PUnit := do
  refuseIf (maxFamilyMembers < count) (.elaboration ("input family '" ++ path ++ "' has " ++
    toString count ++ " members, budget is " ++ toString maxFamilyMembers))
  refuseIf (family.optionalAfterMinimum = false ∧ count < family.minMembers)
    (.elaboration ("input family '" ++ path ++ "' has " ++ toString count ++
      " members, needs >= " ++ toString family.minMembers))
  refuseIf (∃ most ∈ family.maxMembers, most < count) (.elaboration ("input family '" ++ path ++
    "' has " ++ toString count ++ " members, allows <= " ++
      toString (family.maxMembers.getD 0)))

/-- The members of a family at `path`, and their places where those are read. -/
def familyMembers (doc : Document) (family : InputFamily) (template : List DynamicEntry)
    (path : String) : Except ElaborationError (List String × Dict String Int) :=
  let named := namedMembers doc path
  if family.optionalAfterMinimum then do
    let positions ← placeMembers py family path (firstRequired template) named
    checkCount family path positions.keys.length
    return (positions.keys,positions)
  else do
    checkCount family path named.length
    return (named,Dict.empty)

def memberInput (family : InputFamily) (memberPath suffix : String) (positions : Dict String Int)
    (spec : InputSpec) : InputSpec :=
  { spec with
    id := memberPath
    required := spec.required && (!family.optionalAfterMinimum ||
      decide (((positions.get? suffix).getD 0) < family.minMembers))
    type := if family.independentTypes then scopeMemberType memberPath spec.type else spec.type }

def scopeInputs (family : InputFamily) (memberPath : String) (inputs : List InputSpec) :
    List InputSpec :=
  if family.independentTypes then
    inputs.map fun spec => { spec with type := scopeMemberType memberPath spec.type }
  else inputs

/-- `_choice` -/
def choice (path : String) (raw : Option Raw) (required : Bool) :
    Except ElaborationError (Option String) :=
  match raw with
  | none | some .null =>
    if required then .error (.elaboration ("required dynamic construct '" ++ path ++
      "' has no stored choice")) else .ok none
  | some (.str key) => .ok (some key)
  | some (.other repr) => .error (.elaboration ("dynamic construct '" ++ path ++
      "' has a non-string choice: " ++ repr))

def readChoice (doc : Document) (path : String) : List String :=
  if path ∈ doc.choices.keys then [path] else []

def slotInput (slot : Slot) (path : String) (type : TypeExpr) (required forceInput : Bool) :
    InputSpec :=
  { id := path, type := type, required := required, doc := slot.doc,
    displayName := slot.displayName, forceInput := forceInput }

def elaborateMember (family : InputFamily) (template : List DynamicEntry) (path : String)
    (positions : Dict String Int) (nested : String → Except ElaborationError Elaborated)
    (suffix : String) : Except ElaborationError Elaborated := do
  checkMember py family path suffix
  match template with
  | [.input spec] =>
    return ⟨[memberInput family (joinPath path suffix) suffix positions spec],[],[]⟩
  | _ => do
    let inner ← nested (joinPath path suffix)
    return { inner with inputs := scopeInputs family (joinPath path suffix) inner.inputs }

/-- `_elaborate_family`, with the elaboration of its template under the path of a member. -/
def elaborateFamily (doc : Document) (family : InputFamily) (template : List DynamicEntry)
    (path : String) (nested : String → Except ElaborationError Elaborated) :
    Except ElaborationError Elaborated := do
  let chosen ← familyMembers py doc family template path
  let members ← chosen.1.mapM (elaborateMember py family template path chosen.2 nested)
  return members.foldl Elaborated.append .empty

/-- `_elaborate_combo`, with the elaboration of the option that a key names. -/
def elaborateCombo (doc : Document) (combo : Combo) (empty : Bool) (path : String)
    (option : String → Except ElaborationError Elaborated) : Except ElaborationError Elaborated :=
  if empty = true ∧ path ∉ doc.choices.keys then .ok .empty
  else do
    let picked ← choice path (doc.choices.get? path) combo.required
    match picked with
    | none => return ⟨[],[],readChoice doc path⟩
    | some key => do
      let inner ← option key
      return ⟨inner.inputs,(path,key) :: inner.active,readChoice doc path ++ inner.consumed⟩

/-- `_elaborate_slot` of an open slot. -/
def elaborateOpenSlot (doc : Document) (slot : Slot) (path : String)
    (inner : Except ElaborationError Elaborated) : Except ElaborationError Elaborated :=
  match slot.slotType with
  | none => .error (.value "AssertionError")
  | some type =>
    let own := slotInput slot path type slot.required slot.forceInput
    if path ∉ doc.storedIds then .ok ⟨[own],[],[]⟩
    else do
      let nested ← inner
      return ⟨own :: nested.inputs,nested.active,nested.consumed⟩

/-- `_elaborate_slot` of a closed slot, with the elaboration of the variant that a key names. -/
def elaborateClosedSlot (doc : Document) (slot : Slot) (path : String)
    (variant : String → Except ElaborationError (TypeExpr × Elaborated)) :
    Except ElaborationError Elaborated := do
  refuseIf (path ∉ doc.choices.keys ∧ slot.required = true) (.elaboration ("required slot '" ++
    path ++ "' has no stored variant choice"))
  let picked ← choice path (doc.choices.get? path) slot.required
  match picked with
  | none => return ⟨[],[],readChoice doc path⟩
  | some key => do
    let nested ← variant key
    return ⟨slotInput slot path nested.1 true false :: nested.2.inputs,
      (path,key) :: nested.2.active,readChoice doc path ++ nested.2.consumed⟩

mutual

/-- `_elaborate_dynamic_entries` -/
def elaborateEntries (doc : Document) (parent : String) :
    List DynamicEntry → Except ElaborationError Elaborated
  | [] => .ok .empty
  | entry :: rest => do
    let first ← elaborateEntry doc parent entry
    let others ← elaborateEntries doc parent rest
    return first.append others

def elaborateEntry (doc : Document) (parent : String) :
    DynamicEntry → Except ElaborationError Elaborated
  | .input spec => .ok ⟨[{ spec with
      id := joinPath parent spec.id
      adjacentTo := spec.adjacentTo.map (joinPath parent) }],[],[]⟩
  | .family f template => elaborateFamily py doc f template (joinPath parent f.id) fun memberPath =>
      elaborateEntries doc memberPath template
  | .combo c options => elaborateCombo doc c options.isEmpty (joinPath parent c.id) fun key =>
      elaborateOption doc (joinPath parent c.id) key options
  | .slot s inputs none => elaborateOpenSlot doc s (joinPath parent s.id)
      (elaborateEntries doc (joinPath parent s.id) inputs)
  | .slot s inputs (some variants) => elaborateClosedSlot doc s (joinPath parent s.id) fun key =>
      elaborateVariant doc (joinPath parent s.id) key
        (elaborateEntries doc (joinPath parent s.id) inputs) variants

def elaborateOption (doc : Document) (path key : String) :
    List (String × List DynamicEntry) → Except ElaborationError Elaborated
  | [] => .error (.elaboration ("dynamic combo '" ++ path ++ "' has unknown option choice '" ++
      key ++ "'"))
  | (name,inputs) :: rest =>
    if name = key then elaborateEntries doc path inputs else elaborateOption doc path key rest

/-- `shared` is the elaboration of the inputs that all variants have. -/
def elaborateVariant (doc : Document) (path key : String)
    (shared : Except ElaborationError Elaborated) :
    List (String × TypeExpr × List DynamicEntry) →
      Except ElaborationError (TypeExpr × Elaborated)
  | [] => .error (.elaboration ("dynamic slot '" ++ path ++ "' has unknown variant choice '" ++
      key ++ "'"))
  | (name,type,inputs) :: rest =>
    if name = key then do
      let first ← shared
      let own ← elaborateEntries doc path inputs
      return (type,first.append own)
    else elaborateVariant doc path key shared rest

end

end Families

end Dinkster.Dynamic
