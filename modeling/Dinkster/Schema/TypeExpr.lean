import Dinkster.Lib.JsonObject
import Mathlib

/-! Type expressions: the closed grammar of runtime type ids and the checks that a
`TypeExpr` passes when it is built. -/
namespace Dinkster
open Json

def bracketed (left : List Char) (typeId : String) : Option String :=
  let chars := typeId.toList
  if chars.take left.length = left ∧ chars.getLast? = some '>' ∧ chars.length > left.length + 1 then
    some (String.ofList ((chars.drop left.length).dropLast))
  else none

def parseListTypeId (typeId : String) : Option String := bracketed "list<".toList typeId

def parseAssetTypeId (typeId : String) : Option String := bracketed "asset<".toList typeId

def parseStreamTypeId (typeId : String) : Option String := bracketed "stream<".toList typeId

/-- The scan of `parse_tuple_type_id`: the bracket depth, the position read so far
(reversed) and the positions before it (reversed). -/
def tuplePositions : List Char → Nat → List Char → List String → Option (List String)
  | [],depth,position,before =>
    if depth = 0 then some ((String.ofList position.reverse :: before).reverse) else none
  | c :: cs,depth,position,before =>
    if c = '<' then tuplePositions cs (depth + 1) (c :: position) before
    else if c = '>' then
      match depth with
      | 0 => none
      | depth + 1 => tuplePositions cs depth (c :: position) before
    else if c = ',' ∧ depth = 0 then
      tuplePositions cs depth [] (String.ofList position.reverse :: before)
    else tuplePositions cs depth (c :: position) before

def parseTupleTypeId (typeId : String) : Option (List String) :=
  let chars := typeId.toList
  let left := "tuple<".toList
  if chars.take left.length = left ∧ chars.getLast? = some '>' then
    let body := (chars.drop left.length).dropLast
    if body = [] then some []
    else (tuplePositions body 0 [] []).bind fun positions =>
      if positions.all (· ≠ "") then some positions else none
  else none

inductive TypeExprKind
  | concrete | union | wildcard | variable | list | asset | stream | tuple | familyTuple
  | tupleElement
  deriving DecidableEq

def TypeExprKind.value : TypeExprKind → String
  | .concrete => "concrete"
  | .union => "union"
  | .wildcard => "wildcard"
  | .variable => "variable"
  | .list => "list"
  | .asset => "asset"
  | .stream => "stream"
  | .tuple => "tuple"
  | .familyTuple => "family_tuple"
  | .tupleElement => "tuple_element"

def TypeExprKind.all : List TypeExprKind :=
  [.concrete,.union,.wildcard,.variable,.list,.asset,.stream,.tuple,.familyTuple,.tupleElement]

def TypeExprKind.ofString? (s : String) : Option TypeExprKind :=
  TypeExprKind.all.find? (·.value = s)

theorem TypeExprKind.ofString?_value (kind : TypeExprKind) : ofString? kind.value = some kind := by
  cases kind <;> decide

/-- A type expression before its checks. `index` holds whatever the document says. -/
structure TypeExpr where
  kind : TypeExprKind
  types : List String
  templateId : String
  element : Option TypeExpr
  elements : List TypeExpr
  inputId : String
  index : Option Json.Value

namespace TypeExpr

def hasElement (expr : TypeExpr) : Bool := expr.element.isSome

def hasElements (expr : TypeExpr) : Bool := !expr.elements.isEmpty

def atomChecks (kind : TypeExprKind) (entry : String) : List (Bool × WireError) :=
  [((parseTupleTypeId entry).isSome,
      ⟨kind.value ++ " entries are atom type ids, not tuple types",[]⟩),
    ((parseStreamTypeId entry).isSome,
      ⟨kind.value ++ " TypeExpr entries are atom type ids; stream types are spelled " ++
        "TypeExpr.stream_of(...), got",[.str entry]⟩),
    ((parseListTypeId entry).isSome,
      ⟨kind.value ++ " TypeExpr entries are atom type ids; list types are spelled " ++
        "TypeExpr.list_of(...), got",[.str entry]⟩),
    ((parseAssetTypeId entry).isSome,
      ⟨kind.value ++ " TypeExpr entries are atom type ids; asset types are spelled " ++
        "TypeExpr.asset_of(...), got",[.str entry]⟩)]

def concreteChecks (types : List String) : List (Bool × WireError) :=
  match types with
  | [typeId] =>
    [((parseTupleTypeId typeId).isSome,⟨"tuple types require TypeExpr.tuple_of(...)",[]⟩),
      ((parseStreamTypeId typeId).isSome,⟨"stream types require TypeExpr.stream_of(...)",[]⟩),
      ((parseListTypeId typeId).isSome,
        ⟨"list types are spelled TypeExpr.list_of(...), never concrete",[.str typeId]⟩),
      ((parseAssetTypeId typeId).isSome,
        ⟨"asset types are spelled TypeExpr.asset_of(...), never concrete",[.str typeId]⟩)]
  | _ => [(true,⟨"concrete TypeExpr requires exactly one type id",[]⟩)]

def isIntOrStr : Option Json.Value → Bool
  | some (.int _) => true
  | some (.str _) => true
  | _ => false

def isEmptyStr : Option Json.Value → Bool
  | some (.str s) => s = ""
  | _ => false

def checks (expr : TypeExpr) : List (Bool × WireError) :=
  let kind := expr.kind
  let carries := !expr.types.isEmpty || expr.templateId ≠ ""
  (if kind = .concrete then concreteChecks expr.types else []) ++
  [(kind = .union && expr.types.length < 2,
    ⟨"union TypeExpr requires at least two type ids",[]⟩)] ++
  (if kind = .union ∨ kind = .variable then expr.types.flatMap (atomChecks kind) else []) ++
  [(kind = .variable && expr.templateId = "",⟨"variable TypeExpr requires a template_id",[]⟩),
    (kind = .wildcard && !expr.types.isEmpty,⟨"wildcard TypeExpr carries no type ids",[]⟩)] ++
  (if kind = .list ∨ kind = .asset ∨ kind = .stream then
    [(!expr.hasElement,⟨kind.value ++ " TypeExpr requires an element expression",[]⟩),
      (carries,⟨kind.value ++ " TypeExpr carries only an element expression",[]⟩)]
  else
    [(expr.hasElement && kind ≠ .tupleElement,
      ⟨kind.value ++ " TypeExpr carries no element expression",[]⟩)]) ++
  (if kind = .tuple then
    [(carries,⟨"tuple TypeExpr carries only an immutable elements tuple",[]⟩)]
  else
    [(expr.hasElements,⟨kind.value ++ " TypeExpr carries no positional elements",[]⟩)]) ++
  (if kind = .familyTuple then
    [(expr.inputId = "" || carries || expr.index.isSome,
      ⟨"family tuple requires only a named input family",[]⟩)]
  else if kind = .tupleElement then
    [(decide (expr.inputId ≠ "") == expr.hasElement,
        ⟨"tuple element requires one input reference or element expression",[]⟩),
      (carries || !isIntOrStr expr.index,
        ⟨"tuple element requires an integer index or named literal input",[]⟩),
      (isEmptyStr expr.index,⟨"tuple element index input must be nonempty",[]⟩)]
  else
    [(expr.inputId ≠ "" || expr.index.isSome,
      ⟨kind.value ++ " TypeExpr carries no input or index reference",[]⟩)])

def passes (expr : TypeExpr) : Bool := expr.checks.all fun check => !check.1

def postInit (expr : TypeExpr) : Except WireError TypeExpr :=
  match expr.checks.find? (·.1) with
  | some check => .error check.2
  | none => .ok expr

theorem postInit_ok_iff (expr expr' : TypeExpr) :
    expr.postInit = .ok expr' ↔ expr' = expr ∧ expr.passes = true := by
  unfold postInit passes
  cases found : expr.checks.find? (·.1) with
  | some check =>
    have failed := List.find?_some found
    have member := List.mem_of_find?_eq_some found
    constructor
    · intro same
      cases same
    · rintro ⟨-,all⟩
      have passed := List.all_eq_true.mp all check member
      rw [failed] at passed
      cases passed
  | none =>
    have clean := List.find?_eq_none.mp found
    have all : (expr.checks.all fun check => !check.1) = true := by
      rw [List.all_eq_true]
      intro check member
      have passed := clean check member
      rw [Bool.not_eq_true] at passed
      rw [passed]
      rfl
    constructor
    · intro same
      exact ⟨(Except.ok.inj same).symm,all⟩
    · rintro ⟨rfl,-⟩
      rfl

theorem passes_check {expr : TypeExpr} (passes : expr.passes) {check : Bool × WireError}
    (member : check ∈ expr.checks) : check.1 = false := by
  have passed := List.all_eq_true.mp passes check member
  rw [Bool.not_eq_true'] at passed
  exact passed

theorem elements_nil {expr : TypeExpr} (passes : expr.passes) (kind : expr.kind ≠ .tuple) :
    expr.elements = [] := by
  have member : (expr.hasElements,
      (⟨expr.kind.value ++ " TypeExpr carries no positional elements",[]⟩ : WireError)) ∈
        expr.checks := by
    simp [checks,kind]
  have clean := passes_check passes member
  simpa [hasElements] using clean

theorem reference_none {expr : TypeExpr} (passes : expr.passes) (family : expr.kind ≠ .familyTuple)
    (element : expr.kind ≠ .tupleElement) : expr.inputId = "" ∧ expr.index = none := by
  have member : (decide (expr.inputId ≠ "") || expr.index.isSome,
      (⟨expr.kind.value ++ " TypeExpr carries no input or index reference",[]⟩ : WireError)) ∈
        expr.checks := by
    simp [checks,family,element]
  have clean := passes_check passes member
  simpa using clean

theorem element_none {expr : TypeExpr} (passes : expr.passes)
    (structural : ¬ (expr.kind = .list ∨ expr.kind = .asset ∨ expr.kind = .stream))
    (element : expr.kind ≠ .tupleElement) : expr.element = none := by
  have member : (expr.hasElement && decide (expr.kind ≠ .tupleElement),
      (⟨expr.kind.value ++ " TypeExpr carries no element expression",[]⟩ : WireError)) ∈
        expr.checks := by
    simp [checks,structural]
  have clean := passes_check passes member
  simpa [element,hasElement] using clean

theorem index_readable {expr : TypeExpr} (passes : expr.passes) : expr.index ≠ some .null := by
  intro null
  by_cases element : expr.kind = .tupleElement
  · have member : (!expr.types.isEmpty || decide (expr.templateId ≠ "") || !isIntOrStr expr.index,
        (⟨"tuple element requires an integer index or named literal input",[]⟩ : WireError)) ∈
          expr.checks := by
      simp [checks,element]
    have clean := passes_check passes member
    simp [null,isIntOrStr] at clean
  · by_cases family : expr.kind = .familyTuple
    · have member : (decide (expr.inputId = "") || (!expr.types.isEmpty ||
          decide (expr.templateId ≠ "")) || expr.index.isSome,
          (⟨"family tuple requires only a named input family",[]⟩ : WireError)) ∈
            expr.checks := by
        simp [checks,family]
      have clean := passes_check passes member
      simp [null] at clean
    · have bare := (reference_none passes family element).2
      rw [bare] at null
      cases null

end TypeExpr

end Dinkster
