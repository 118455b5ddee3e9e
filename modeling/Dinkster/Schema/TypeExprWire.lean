import Dinkster.Schema.TypeExpr

/-! The wire form of type expressions. Every expression whose checks pass at every level
is read back from its wire form. -/
namespace Dinkster
open Json Json.Object Fallible

def stringsToWire (ss : List String) : Json.Value := .arr (ss.map .str)

def indexToWire : Option Json.Value → Object
  | none => []
  | some index => [("index",index)]

mutual

def typeExprToWire : TypeExpr → Object
  | ⟨kind,types,templateId,element,elements,inputId,index⟩ =>
    [("kind",.str kind.value)] ++
    writtenIf (kind = .tuple) "elements" (.arr (typeExprsToWire elements)) ++
    if kind = .variable then
      [("templateId",.str templateId)] ++
      writtenIf (!types.isEmpty) "allowed" (stringsToWire types)
    else
      writtenIf (!types.isEmpty) "types" (stringsToWire types) ++
      writtenIf (templateId ≠ "") "templateId" (.str templateId) ++
      elementToWire element ++
      writtenIf (inputId ≠ "") "input" (.str inputId) ++
      indexToWire index

def elementToWire : Option TypeExpr → Object
  | none => []
  | some element => [("element",.obj (typeExprToWire element))]

def typeExprsToWire : List TypeExpr → List Json.Value
  | [] => []
  | expr :: rest => .obj (typeExprToWire expr) :: typeExprsToWire rest

end

def expectStr (value : Option Json.Value) (field : String) : Except WireError String :=
  match value with
  | some (.str s) => .ok s
  | _ => .error ⟨field ++ " must be a string",[]⟩

def expectStrings (value : Json.Value) (field : String) : Except WireError (List String) :=
  match value with
  | .arr items =>
    match asStrings items with
    | some ss => .ok ss
    | none => .error ⟨field ++ " must be an array of strings",[]⟩
  | _ => .error ⟨field ++ " must be an array",[]⟩

def indexFromWire : Option Json.Value → Option Json.Value
  | some .null => none
  | index => index

def typesFromWire (kind : String) (wire : Object) : Except WireError (List String) :=
  if kind = "variable" then
    if (wire.get? "types").isSome then
      .error ⟨"type.types is not a variable field; use allowed",[]⟩
    else expectStrings ((wire.get? "allowed").getD (.arr [])) "type.allowed"
  else if (wire.get? "allowed").isSome then
    .error ⟨"type.allowed is only legal on variable TypeExprs; use types",[]⟩
  else expectStrings ((wire.get? "types").getD (.arr [])) "type.types"

mutual

def typeExprFromWire (wire : Object) : Except WireError TypeExpr := do
  let kind ← expectStr (wire.get? "kind") "type.kind"
  let types ← typesFromWire kind wire
  let templateId ← expectStr (some ((wire.get? "templateId").getD (.str ""))) "type.templateId"
  let element ← (match wire.member? "element" with
    | none => .ok none
    | some ⟨.null,_⟩ => .ok none
    | some ⟨.obj members,smaller⟩ => (typeExprFromWire members).map some
    | some _ => .error ⟨"type.element must be an object",[]⟩)
  let elements ← (match wire.member? "elements" with
    | none => .ok []
    | some ⟨.arr items,smaller⟩ => typeExprsFromWire items
    | some _ => .error ⟨"type.elements must be an array",[]⟩)
  let inputId ← expectStr (some ((wire.get? "input").getD (.str ""))) "type.input"
  match TypeExprKind.ofString? kind with
  | none => .error ⟨"unknown TypeExpr kind",[.str kind]⟩
  | some kind =>
    (TypeExpr.mk kind types templateId element elements inputId
      (indexFromWire (wire.get? "index"))).postInit
termination_by sizeOf wire
decreasing_by
  · simp only [Json.Value.obj.sizeOf_spec] at smaller
    omega
  · simp only [Json.Value.arr.sizeOf_spec] at smaller
    omega

def typeExprsFromWire (items : List Json.Value) : Except WireError (List TypeExpr) :=
  match items with
  | [] => .ok []
  | .obj members :: rest => do
    let expr ← typeExprFromWire members
    let exprs ← typeExprsFromWire rest
    return expr :: exprs
  | _ :: _ => .error ⟨"type.elements position must be an object",[]⟩
termination_by sizeOf items

end

mutual

/-- The checks pass at every level. -/
def TypeExpr.wellFormed : TypeExpr → Bool
  | ⟨kind,types,templateId,element,elements,inputId,index⟩ =>
    TypeExpr.passes ⟨kind,types,templateId,element,elements,inputId,index⟩ &&
      elementWellFormed element && elementsWellFormed elements

def elementWellFormed : Option TypeExpr → Bool
  | none => true
  | some element => element.wellFormed

def elementsWellFormed : List TypeExpr → Bool
  | [] => true
  | expr :: rest => expr.wellFormed && elementsWellFormed rest

end

theorem expectStrings_toWire (ss : List String) (field : String) :
    expectStrings (stringsToWire ss) field = .ok ss := by
  simp only [expectStrings,stringsToWire,asStrings_str]

theorem get?_elementToWire (element : Option TypeExpr) (key : String) :
    get? (elementToWire element) key =
      if key = "element" then element.map fun e => .obj (typeExprToWire e) else none := by
  cases element <;> simp [elementToWire,get?_cons]

theorem get?_indexToWire (index : Option Json.Value) (key : String) :
    get? (indexToWire index) key = if key = "index" then index else none := by
  cases index <;> simp [indexToWire,get?_cons]

section Members

variable {kind : TypeExprKind} (types : List String) (templateId : String)
  (element : Option TypeExpr) (elements : List TypeExpr) (inputId : String)
  (index : Option Json.Value)

theorem wire_variable (key : String) (variable_ : kind = .variable) :
    (typeExprToWire ⟨kind,types,templateId,element,elements,inputId,index⟩).get? key =
      if key = "kind" then some (.str kind.value)
      else if key = "templateId" then some (.str templateId)
      else if key = "allowed" ∧ types ≠ [] then some (stringsToWire types)
      else none := by
  subst variable_
  simp only [typeExprToWire,List.cons_append,List.nil_append,get?_cons,get?_append,get?_nil,
    get?_writtenIf,if_true]
  grind

theorem wire_other (key : String) (other : kind ≠ .variable) :
    (typeExprToWire ⟨kind,types,templateId,element,elements,inputId,index⟩).get? key =
      if key = "kind" then some (.str kind.value)
      else if key = "elements" ∧ kind = .tuple then some (.arr (typeExprsToWire elements))
      else if key = "types" ∧ types ≠ [] then some (stringsToWire types)
      else if key = "templateId" ∧ templateId ≠ "" then some (.str templateId)
      else if key = "element" then element.map fun e => .obj (typeExprToWire e)
      else if key = "input" ∧ inputId ≠ "" then some (.str inputId)
      else if key = "index" then index
      else none := by
  simp only [typeExprToWire,List.cons_append,List.nil_append,get?_cons,get?_append,get?_nil,
    get?_writtenIf,get?_elementToWire,get?_indexToWire,if_neg other]
  grind

end Members

private theorem optionalStrings_read {found : Option Json.Value} {ss : List String}
    (read : found = if ss ≠ [] then some (stringsToWire ss) else none) (field : String) :
    expectStrings (found.getD (.arr [])) field = .ok ss := by
  rw [read]
  split
  · exact expectStrings_toWire ss field
  · rename_i empty
    rw [not_not.mp empty]
    rfl

private theorem optionalText_read {found : Option Json.Value} {s : String}
    (read : found = if s ≠ "" then some (.str s) else none) : found.getD (.str "") = .str s := by
  rw [read]
  split
  · rfl
  · rename_i empty
    rw [not_not.mp empty]
    rfl

private theorem typesFromWire_variable {kind : String} {wire : Object} {types : List String}
    (variable_ : kind = "variable") (absent : wire.get? "types" = none)
    (read : wire.get? "allowed" = if types ≠ [] then some (stringsToWire types) else none) :
    typesFromWire kind wire = .ok types := by
  rw [typesFromWire,if_pos variable_,absent]
  exact optionalStrings_read read _

private theorem typesFromWire_other {kind : String} {wire : Object} {types : List String}
    (other : kind ≠ "variable") (absent : wire.get? "allowed" = none)
    (read : wire.get? "types" = if types ≠ [] then some (stringsToWire types) else none) :
    typesFromWire kind wire = .ok types := by
  rw [typesFromWire,if_neg other,absent]
  exact optionalStrings_read read _

private theorem typeExprFromWire_members {wire : Object} {expr : TypeExpr}
    (kind : wire.get? "kind" = some (.str expr.kind.value))
    (types : typesFromWire expr.kind.value wire = .ok expr.types)
    (template : (wire.get? "templateId").getD (.str "") = .str expr.templateId)
    (element : wire.get? "element" = expr.element.map fun e => .obj (typeExprToWire e))
    (elementBack : ∀ e, expr.element = some e → typeExprFromWire (typeExprToWire e) = .ok e)
    (elements : wire.get? "elements" = none ∧ expr.elements = [] ∨
      ∃ items, wire.get? "elements" = some (.arr items) ∧
        typeExprsFromWire items = .ok expr.elements)
    (input : (wire.get? "input").getD (.str "") = .str expr.inputId)
    (index : indexFromWire (wire.get? "index") = expr.index) (passes : expr.passes) :
    typeExprFromWire wire = .ok expr := by
  rw [typeExprFromWire,bind_ok]
  refine ⟨expr.kind.value,by rw [kind]; rfl,?_⟩
  rw [bind_ok]
  refine ⟨expr.types,types,?_⟩
  rw [bind_ok]
  refine ⟨expr.templateId,by rw [template]; rfl,?_⟩
  rw [bind_ok]
  refine ⟨expr.element,?_,?_⟩
  · cases present : expr.element with
    | none =>
      rw [present] at element
      rw [member?_none element]
    | some e =>
      rw [present] at element
      rw [member?_some element]
      simp only [elementBack e present,Except.map]
  rw [bind_ok]
  refine ⟨expr.elements,?_,?_⟩
  · rcases elements with ⟨absent,none⟩ | ⟨items,found,back⟩
    · rw [member?_none absent,none]
    · rw [member?_some found]
      exact back
  rw [bind_ok]
  refine ⟨expr.inputId,by rw [input]; rfl,?_⟩
  rw [TypeExprKind.ofString?_value,index]
  cases expr
  exact (TypeExpr.postInit_ok_iff _ _).mpr ⟨rfl,passes⟩

mutual

theorem typeExpr_roundTrip : ∀ expr : TypeExpr, expr.wellFormed →
    typeExprFromWire (typeExprToWire expr) = .ok expr
  | ⟨kind,types,templateId,element,elements,inputId,index⟩,wellFormed => by
    simp only [TypeExpr.wellFormed,Bool.and_eq_true] at wellFormed
    obtain ⟨⟨passes,inner⟩,positions⟩ := wellFormed
    have back := element_roundTrip element inner
    have positionsBack := typeExprs_roundTrip elements positions
    have readable := TypeExpr.index_readable passes
    have indexBack : indexFromWire index = index := by
      rcases index with _ | v
      · rfl
      · cases v with
        | null => exact absurd rfl readable
        | bool | int | float | str | arr | obj => rfl
    by_cases variable_ : kind = .variable
    · have others : kind ≠ .tuple ∧ kind ≠ .familyTuple ∧ kind ≠ .tupleElement ∧
          ¬ (kind = .list ∨ kind = .asset ∨ kind = .stream) := by
        rw [variable_]
        decide
      obtain ⟨tuple,family,member,structural⟩ := others
      have noElements : elements = [] := TypeExpr.elements_nil passes tuple
      have noElement : element = none := TypeExpr.element_none passes structural member
      obtain ⟨noInput,noIndex⟩ : inputId = "" ∧ index = none :=
        TypeExpr.reference_none passes family member
      subst noElements noElement noInput noIndex
      have read := fun key => wire_variable types templateId none [] "" none key variable_
      apply typeExprFromWire_members
      · simp only [read,if_true]
      · exact typesFromWire_variable (by rw [variable_]; rfl) (by simp [read]) (by simp [read])
      · simp [read]
      · simp [read]
      · exact back
      · exact .inl ⟨by simp [read],rfl⟩
      · simp [read]
      · simp [read,indexFromWire]
      · exact passes
    · have read := fun key => wire_other types templateId element elements inputId index key
        variable_
      apply typeExprFromWire_members
      · simp only [read,if_true]
      · exact typesFromWire_other (by cases kind <;> simp_all [TypeExprKind.value]) (by simp [read])
          (by simp [read])
      · exact optionalText_read (by simp [read])
      · simp [read]
      · exact back
      · by_cases tuple : kind = .tuple
        · exact .inr ⟨typeExprsToWire elements,by rw [read]; simp [tuple],positionsBack⟩
        · exact .inl ⟨by rw [read]; simp [tuple],TypeExpr.elements_nil passes tuple⟩
      · exact optionalText_read (by simp [read])
      · simp [read,indexBack]
      · exact passes

theorem element_roundTrip : ∀ element : Option TypeExpr, elementWellFormed element →
    ∀ e, element = some e → typeExprFromWire (typeExprToWire e) = .ok e
  | none,_,e,same => by cases same
  | some expr,wellFormed,e,same => by
    rw [← Option.some.inj same]
    exact typeExpr_roundTrip expr wellFormed

theorem typeExprs_roundTrip : ∀ exprs : List TypeExpr, elementsWellFormed exprs →
    typeExprsFromWire (typeExprsToWire exprs) = .ok exprs
  | [],_ => by rw [typeExprsToWire,typeExprsFromWire]
  | expr :: rest,wellFormed => by
    simp only [elementsWellFormed,Bool.and_eq_true] at wellFormed
    rw [typeExprsToWire,typeExprsFromWire,bind_ok]
    refine ⟨expr,typeExpr_roundTrip expr wellFormed.1,?_⟩
    rw [bind_ok]
    exact ⟨rest,typeExprs_roundTrip rest wellFormed.2,rfl⟩

end

mutual

theorem typeExprFromWire_wellFormed (wire : Object) (expr : TypeExpr)
    (read : typeExprFromWire wire = .ok expr) : expr.wellFormed := by
  rw [typeExprFromWire,bind_ok] at read
  obtain ⟨kind,-,read⟩ := read
  rw [bind_ok] at read
  obtain ⟨types,-,read⟩ := read
  rw [bind_ok] at read
  obtain ⟨templateId,-,read⟩ := read
  rw [bind_ok] at read
  obtain ⟨element,elementRead,read⟩ := read
  rw [bind_ok] at read
  obtain ⟨elements,elementsRead,read⟩ := read
  rw [bind_ok] at read
  obtain ⟨inputId,-,read⟩ := read
  have inner : elementWellFormed element := by
    split at elementRead
    · cases elementRead
      rfl
    · cases elementRead
      rfl
    · rename_i members smaller _
      have decreases : sizeOf members < sizeOf wire := by
        simp only [Json.Value.obj.sizeOf_spec] at smaller
        omega
      cases read' : typeExprFromWire members with
      | error e =>
        rw [read'] at elementRead
        cases elementRead
      | ok e =>
        rw [read'] at elementRead
        cases elementRead
        exact typeExprFromWire_wellFormed members e read'
    · cases elementRead
  have positions : elementsWellFormed elements := by
    split at elementsRead
    · cases elementsRead
      rfl
    · rename_i items smaller _
      have decreases : sizeOf items < sizeOf wire := by
        simp only [Json.Value.arr.sizeOf_spec] at smaller
        omega
      exact typeExprsFromWire_wellFormed items elements elementsRead
    · cases elementsRead
  split at read
  · cases read
  · obtain ⟨rfl,passes⟩ := (TypeExpr.postInit_ok_iff _ _).mp read
    simp only [TypeExpr.wellFormed,passes,inner,positions,Bool.and_self]
termination_by sizeOf wire

theorem typeExprsFromWire_wellFormed (items : List Json.Value) (exprs : List TypeExpr)
    (read : typeExprsFromWire items = .ok exprs) : elementsWellFormed exprs := by
  rw [typeExprsFromWire.eq_def] at read
  split at read
  · cases read
    rfl
  · rename_i members rest
    rw [bind_ok] at read
    obtain ⟨expr,head,read⟩ := read
    rw [bind_ok] at read
    obtain ⟨tail,rest',read⟩ := read
    cases read
    simp only [elementsWellFormed,typeExprFromWire_wellFormed members expr head,
      typeExprsFromWire_wellFormed rest tail rest',Bool.and_self]
  · cases read
termination_by sizeOf items

end

end Dinkster
