import Dinkster.Lib.Dict
import Dinkster.Schema.TypeIds

/-! Solving the type variables of an interface from the type ids that its inputs receive. What an
input asks of the variables does not depend on the bindings so far, so the order of the inputs
matters for nothing but the wording of an error. -/
namespace Dinkster.Solve
open Fallible TypeExpr

structure TypeSolveError where
  text : String
  subjects : List String

/-- An elaborated input, as far as the solver reads it. -/
structure InputSpec where
  id : String
  type : TypeExpr
  acceptsList : Bool

abbrev Bindings := Dict String String

mutual

/-- `_unify` -/
def unify (inputId : String) : TypeExpr → String → Bindings → Except TypeSolveError Bindings
  | ⟨kind,types,templateId,element,elements,_,_⟩,typeId,bindings =>
    match kind with
    | .tuple =>
      match parseTupleTypeId typeId with
      | none => .error ⟨"input '" ++ inputId ++ "': expected a tuple of " ++
          toString elements.length ++ " positions, got " ++ typeId,[]⟩
      | some positions =>
        if positions.length = elements.length then unifyAll inputId elements positions bindings
        else .error ⟨"input '" ++ inputId ++ "': expected a tuple of " ++
          toString elements.length ++ " positions, got " ++ typeId,[]⟩
    | .variable =>
      if types ≠ [] ∧ typeId ∉ types then
        .error ⟨"input '" ++ inputId ++ "': " ++ typeId ++ " is outside variable '" ++
          templateId ++ "' allowlist",types⟩
      else
        match bindings.get? templateId with
        | none => .ok (bindings.set templateId typeId)
        | some bound =>
          if bound = typeId then .ok bindings
          else .error ⟨"input '" ++ inputId ++ "': variable '" ++ templateId ++
            "' already bound to " ++ bound ++ ", got " ++ typeId,[]⟩
    | .stream => unifyElement inputId "stream" element typeId (parseStreamTypeId typeId) bindings
    | .list => unifyElement inputId "list" element typeId (parseListTypeId typeId) bindings
    | .asset => unifyElement inputId "asset" element typeId (parseAssetTypeId typeId) bindings
    | _ => .ok bindings

def unifyElement (inputId what : String) : Option TypeExpr → String → Option String → Bindings →
    Except TypeSolveError Bindings
  | _,typeId,none,_ => .error ⟨"input '" ++ inputId ++ "': expected " ++
      (if what = "asset" then "an " else "a ") ++ what ++ " value, got " ++ typeId,[]⟩
  | none,_,some _,_ => .error ⟨"AssertionError",[]⟩
  | some element,_,some inner,bindings => unify inputId element inner bindings

def unifyAll (inputId : String) : List TypeExpr → List String → Bindings →
    Except TypeSolveError Bindings
  | expr :: rest,position :: positions,bindings => do
    let bindings ← unify inputId expr position bindings
    unifyAll inputId rest positions bindings
  | _,_,bindings => .ok bindings

end

/-- The id that an input is unified with: one layer of list is taken off where it accepts a list. -/
def InputSpec.received (spec : InputSpec) (typeId : String) : String :=
  if spec.acceptsList = true ∧ spec.type.kind ≠ .list then (parseListTypeId typeId).getD typeId
  else typeId

def bindInput (inputTypes : Dict String String) (bindings : Bindings) (spec : InputSpec) :
    Except TypeSolveError Bindings :=
  match inputTypes.get? spec.id with
  | none => .ok bindings
  | some typeId => unify spec.id spec.type (spec.received typeId) bindings

/-- `bind_type_variables` -/
def bindTypeVariables (specs : List InputSpec) (inputTypes : Dict String String) :
    Except TypeSolveError Bindings :=
  specs.foldlM (bindInput inputTypes) Dict.empty

def position? (elements : List TypeExpr) (index : Int) : Option TypeExpr :=
  if 0 ≤ index then elements[index.toNat]?
  else if -elements.length ≤ index then elements[(elements.length + index).toNat]? else none

mutual

/-- `resolved_type_expr` -/
def resolvedTypeExpr (bindings : Bindings) : TypeExpr → Except TypeSolveError (Option TypeExpr)
  | ⟨kind,types,templateId,element,elements,inputId,index⟩ =>
    match kind with
    | .concrete => .ok (some ⟨kind,types,templateId,element,elements,inputId,index⟩)
    | .variable => .ok ((bindings.get? templateId).map typeExprFromRuntimeId)
    | .tuple => (resolvedElements bindings elements).map (·.map tupleOf)
    | .tupleElement =>
      match element,index with
      | some element,some (.int index) =>
        match resolvedTypeExpr bindings element with
        | .error error => .error error
        | .ok none => .ok none
        | .ok (some source) =>
          if source.kind ≠ .tuple then .error ⟨"tuple element requires a tuple input",[]⟩
          else match position? source.elements index with
            | none => .error ⟨"tuple index " ++ toString index ++ " is out of range",[]⟩
            | some position => .ok (some position)
      | _,_ => .error ⟨"tuple element must be elaborated before type solving",[]⟩
    | .stream => (resolvedElement bindings element).map (·.map streamOf)
    | .list =>
      if element.map (·.kind) = some .wildcard then
        .ok (some ⟨kind,types,templateId,element,elements,inputId,index⟩)
      else (resolvedElement bindings element).map (·.map listOf)
    | .asset => (resolvedElement bindings element).map (·.map assetOf)
    | _ => .ok none

def resolvedElement (bindings : Bindings) : Option TypeExpr →
    Except TypeSolveError (Option TypeExpr)
  | none => .error ⟨"AssertionError",[]⟩
  | some element => resolvedTypeExpr bindings element

def resolvedElements (bindings : Bindings) : List TypeExpr →
    Except TypeSolveError (Option (List TypeExpr))
  | [] => .ok (some [])
  | expr :: rest => do
    let position ← resolvedTypeExpr bindings expr
    let positions ← resolvedElements bindings rest
    return position.bind fun p => positions.map (p :: ·)

end

/-- `resolved_type_id` -/
def resolvedTypeId (expr : TypeExpr) (bindings : Bindings) :
    Except TypeSolveError (Option String) :=
  (resolvedTypeExpr bindings expr).map (·.bind runtimeTypeId)

mutual

def demands : TypeExpr → String → Option (List (String × String))
  | ⟨kind,types,templateId,element,elements,_,_⟩,typeId =>
    match kind with
    | .tuple =>
      match parseTupleTypeId typeId with
      | none => none
      | some positions =>
        if positions.length = elements.length then allDemands elements positions else none
    | .variable => if types ≠ [] ∧ typeId ∉ types then none else some [(templateId,typeId)]
    | .stream => elementDemands element (parseStreamTypeId typeId)
    | .list => elementDemands element (parseListTypeId typeId)
    | .asset => elementDemands element (parseAssetTypeId typeId)
    | _ => some []

def elementDemands : Option TypeExpr → Option String → Option (List (String × String))
  | some element,some inner => demands element inner
  | _,_ => none

def allDemands : List TypeExpr → List String → Option (List (String × String))
  | expr :: rest,position :: positions => do
    let first ← demands expr position
    let others ← allDemands rest positions
    return first ++ others
  | _,_ => some []

end

def bindAll : Bindings → List (String × String) → Option Bindings
  | bindings,[] => some bindings
  | bindings,(variable_,typeId) :: rest =>
    match bindings.get? variable_ with
    | none => bindAll (bindings.set variable_ typeId) rest
    | some bound => if bound = typeId then bindAll bindings rest else none

theorem bindAll_append (bindings : Bindings) (first rest : List (String × String)) :
    bindAll bindings (first ++ rest) = (bindAll bindings first).bind (bindAll · rest) := by
  induction first generalizing bindings with
  | nil => rfl
  | cons e first ih =>
    obtain ⟨name,typeId⟩ := e
    rw [List.cons_append,bindAll,bindAll]
    split
    · exact ih _
    · split
      · exact ih _
      · rfl

mutual

theorem unify_agrees (inputId : String) : ∀ (expr : TypeExpr) (typeId : String)
    (bindings : Bindings), (unify inputId expr typeId bindings).toOption =
      (demands expr typeId).bind (bindAll bindings)
  | ⟨kind,types,templateId,element,elements,_,_⟩,typeId,bindings => by
    cases kind with
    | tuple =>
      rw [unify,demands]
      cases parseTupleTypeId typeId with
      | none => rfl
      | some positions =>
        simp only
        split
        · rename_i same
          exact unifyAll_agrees inputId elements positions bindings same
        · rfl
    | «variable» =>
      rw [unify,demands]
      split
      · rfl
      · simp only [Option.bind_some,bindAll]
        split
        · rfl
        · split <;> rfl
    | stream => exact unifyElement_agrees inputId _ element typeId _ bindings
    | list => exact unifyElement_agrees inputId _ element typeId _ bindings
    | asset => exact unifyElement_agrees inputId _ element typeId _ bindings
    | _ => rfl

theorem unifyElement_agrees (inputId what : String) : ∀ (element : Option TypeExpr)
    (typeId : String) (inner : Option String) (bindings : Bindings),
    (unifyElement inputId what element typeId inner bindings).toOption =
      (elementDemands element inner).bind (bindAll bindings)
  | none,_,none,_ => rfl
  | none,_,some _,_ => rfl
  | some _,_,none,_ => rfl
  | some element,_,some inner,bindings => unify_agrees inputId element inner bindings

theorem unifyAll_agrees (inputId : String) : ∀ (elements : List TypeExpr) (positions : List String)
    (bindings : Bindings), positions.length = elements.length →
    (unifyAll inputId elements positions bindings).toOption =
      (allDemands elements positions).bind (bindAll bindings)
  | [],[],_,_ => rfl
  | expr :: rest,position :: positions,bindings,same => by
    have here := unify_agrees inputId expr position bindings
    rw [unifyAll,allDemands]
    cases first : demands expr position with
    | none =>
      rw [first] at here
      cases made : unify inputId expr position bindings with
      | error _ => rfl
      | ok _ => rw [made] at here; cases here
    | some ps =>
      rw [first,Option.bind_some] at here
      have step : ∀ next, (unifyAll inputId rest positions next).toOption =
          (allDemands rest positions).bind (bindAll next) := fun next =>
        unifyAll_agrees inputId rest positions next (Nat.succ.inj same)
      cases made : unify inputId expr position bindings with
      | error _ =>
        rw [made] at here
        cases allDemands rest positions with
        | none => rfl
        | some others =>
          simp only [Option.bind_eq_bind,Option.bind_some,Option.pure_def]
          rw [bindAll_append,← here]
          rfl
      | ok next =>
        rw [made] at here
        refine (step next).trans ?_
        cases allDemands rest positions with
        | none => rfl
        | some others =>
          simp only [Option.bind_eq_bind,Option.bind_some,Option.pure_def]
          rw [bindAll_append,← here]
          rfl

end

private theorem get?_set_fresh {bindings : Bindings} {name typeId : String}
    (free : bindings.get? name = none) (T x : String) :
    (bindings.set name typeId).get? T = some x ↔
      bindings.get? T = some x ∨ (T,x) = (name,typeId) := by
  by_cases same : T = name
  · subst same
    rw [Dict.get?_set_self,free]
    simp [eq_comm]
  · rw [Dict.get?_set_ne bindings typeId same]
    simp [same]

theorem bindAll_some {bindings after : Bindings} {ps : List (String × String)}
    (bound : bindAll bindings ps = some after) (T x : String) :
    after.get? T = some x ↔ bindings.get? T = some x ∨ (T,x) ∈ ps := by
  induction ps generalizing bindings with
  | nil =>
    cases bound
    simp
  | cons e ps ih =>
    obtain ⟨name,typeId⟩ := e
    rw [bindAll] at bound
    split at bound
    · rename_i free
      rw [ih bound,get?_set_fresh free,List.mem_cons,or_assoc]
    · rename_i old present
      split at bound
      · rename_i same
        have known : (T,x) = (name,typeId) → bindings.get? T = some x := by
          rintro ⟨⟩
          exact same ▸ present
        rw [ih bound,List.mem_cons]
        constructor
        · exact fun here => here.imp_right .inr
        · rintro (here | here | here)
          · exact .inl here
          · exact .inl (known here)
          · exact .inr here
      · cases bound

def Consistent (bound : String → String → Prop) : Prop :=
  ∀ T x y, bound T x → bound T y → x = y

theorem bindAll_exists (bindings : Bindings) (ps : List (String × String))
    (agree : Consistent fun T x => bindings.get? T = some x ∨ (T,x) ∈ ps) :
    ∃ after, bindAll bindings ps = some after := by
  induction ps generalizing bindings with
  | nil => exact ⟨bindings,rfl⟩
  | cons e ps ih =>
    obtain ⟨name,typeId⟩ := e
    rw [bindAll]
    split
    · rename_i free
      have whole : ∀ T x, (bindings.set name typeId).get? T = some x ∨ (T,x) ∈ ps →
          bindings.get? T = some x ∨ (T,x) ∈ (name,typeId) :: ps := fun T x given => by
        rw [get?_set_fresh free,or_assoc] at given
        exact given.imp_right List.mem_cons.mpr
      exact ih _ fun T x y left right => agree T x y (whole T x left) (whole T y right)
    · rename_i old present
      rw [if_pos (agree name old typeId (.inl present) (.inr List.mem_cons_self))]
      exact ih _ fun T x y left right => agree T x y (left.imp_right (List.mem_cons_of_mem _))
        (right.imp_right (List.mem_cons_of_mem _))

section Inputs

variable (inputTypes : Dict String String)

def specDemands (spec : InputSpec) : Option (List (String × String)) :=
  match inputTypes.get? spec.id with
  | none => some []
  | some typeId => demands spec.type (spec.received typeId)

def Asked (specs : List InputSpec) (T x : String) : Prop :=
  ∃ spec ∈ specs, ∃ ps, specDemands inputTypes spec = some ps ∧ (T,x) ∈ ps

theorem bindInput_agrees (bindings : Bindings) (spec : InputSpec) :
    (bindInput inputTypes bindings spec).toOption =
      (specDemands inputTypes spec).bind (bindAll bindings) := by
  rw [bindInput,specDemands]
  split
  · rfl
  · exact unify_agrees _ _ _ _

variable {inputTypes}

theorem toOption_ok {result : Except TypeSolveError Bindings} {bindings : Bindings} :
    result.toOption = some bindings ↔ result = .ok bindings := by
  cases result <;> simp [Except.toOption]

theorem bindInput_ok {bindings after : Bindings} {spec : InputSpec} :
    bindInput inputTypes bindings spec = .ok after ↔
      ∃ ps, specDemands inputTypes spec = some ps ∧ bindAll bindings ps = some after := by
  rw [← Option.bind_eq_some_iff,← bindInput_agrees,toOption_ok]

theorem asked_cons {spec : InputSpec} {specs : List InputSpec} {ps : List (String × String)}
    (asks : specDemands inputTypes spec = some ps) (T x : String) :
    Asked inputTypes (spec :: specs) T x ↔ (T,x) ∈ ps ∨ Asked inputTypes specs T x := by
  constructor
  · rintro ⟨s,inside,qs,here,pair⟩
    obtain rfl | rest := List.mem_cons.mp inside
    · cases asks.symm.trans here
      exact .inl pair
    · exact .inr ⟨s,rest,qs,here,pair⟩
  · rintro (pair | ⟨s,inside,qs,here,pair⟩)
    · exact ⟨spec,List.mem_cons_self,ps,asks,pair⟩
    · exact ⟨s,List.mem_cons_of_mem _ inside,qs,here,pair⟩

theorem foldlM_bindInput_ok {specs : List InputSpec} {bindings after : Bindings}
    (bound : specs.foldlM (bindInput inputTypes) bindings = .ok after) :
    (∀ spec ∈ specs, ∃ ps, specDemands inputTypes spec = some ps) ∧
      ∀ T x, after.get? T = some x ↔ bindings.get? T = some x ∨ Asked inputTypes specs T x := by
  induction specs generalizing bindings with
  | nil =>
    cases bound
    exact ⟨nofun,fun T x => by simp [Asked]⟩
  | cons spec specs ih =>
    rw [List.foldlM_cons] at bound
    obtain ⟨next,first,rest⟩ := bind_ok.mp bound
    obtain ⟨ps,asks,bindsPs⟩ := bindInput_ok.mp first
    obtain ⟨others,values⟩ := ih rest
    refine ⟨List.forall_mem_cons.mpr ⟨⟨ps,asks⟩,others⟩,fun T x => ?_⟩
    rw [values,bindAll_some bindsPs,asked_cons asks,or_assoc]

theorem foldlM_bindInput_exists (specs : List InputSpec) (bindings : Bindings)
    (shaped : ∀ spec ∈ specs, ∃ ps, specDemands inputTypes spec = some ps)
    (agree : Consistent fun T x => bindings.get? T = some x ∨ Asked inputTypes specs T x) :
    ∃ after, specs.foldlM (bindInput inputTypes) bindings = .ok after := by
  induction specs generalizing bindings with
  | nil => exact ⟨bindings,rfl⟩
  | cons spec specs ih =>
    obtain ⟨⟨ps,asks⟩,others⟩ := List.forall_mem_cons.mp shaped
    have whole : ∀ T x, bindings.get? T = some x ∨ (T,x) ∈ ps ∨ Asked inputTypes specs T x →
        bindings.get? T = some x ∨ Asked inputTypes (spec :: specs) T x := fun T x given =>
      given.imp_right (asked_cons asks T x).mpr
    obtain ⟨next,first⟩ := bindAll_exists bindings ps
      fun T x y left right => agree T x y (whole T x (left.imp_right .inl))
        (whole T y (right.imp_right .inl))
    obtain ⟨after,rest⟩ := ih next others fun T x y left right => by
      beta_reduce at left right
      rw [bindAll_some first,or_assoc] at left right
      exact agree T x y (whole T x left) (whole T y right)
    exact ⟨after,bind_ok.mpr ⟨next,bindInput_ok.mpr ⟨ps,asks,first⟩,rest⟩⟩

theorem bindTypeVariables_perm {specs specs' : List InputSpec} {bindings : Bindings}
    (bound : bindTypeVariables specs inputTypes = .ok bindings) (listed : specs'.Perm specs) :
    ∃ bindings', bindTypeVariables specs' inputTypes = .ok bindings' ∧
      ∀ T, bindings'.get? T = bindings.get? T := by
  obtain ⟨shaped,values⟩ := foldlM_bindInput_ok bound
  have same : ∀ T x, Asked inputTypes specs' T x ↔ Asked inputTypes specs T x := fun T x =>
    exists_congr fun spec => and_congr_left' listed.mem_iff
  have clear : ∀ T x, bindings.get? T = some x ↔ Asked inputTypes specs T x := fun T x => by
    rw [values]
    simp
  obtain ⟨bindings',bound'⟩ := foldlM_bindInput_exists specs' Dict.empty
    (fun spec inside => shaped spec (listed.mem_iff.mp inside)) fun T x y left right => by
      simp only [Dict.get?_empty,reduceCtorEq,false_or] at left right
      rw [same,← clear] at left right
      exact Option.some.inj (left.symm.trans right)
  refine ⟨bindings',bound',fun T => Option.ext fun x => ?_⟩
  rw [(foldlM_bindInput_ok bound').2,clear,same]
  simp

end Inputs

/-- Variables and concrete ids under tuples, lists, assets and streams. -/
inductive Rigid : TypeExpr → Prop
  | concrete (typeId : String) : Rigid (.concrete typeId)
  | «variable» (templateId : String) (allowed : List String) :
    Rigid (.variable templateId allowed)
  | tuple {elements : List TypeExpr} (all : ∀ e ∈ elements, Rigid e) : Rigid (.tupleOf elements)
  | stream {element : TypeExpr} (inner : Rigid element) : Rigid (.streamOf element)
  | list {element : TypeExpr} (inner : Rigid element) : Rigid (.listOf element)
  | asset {element : TypeExpr} (inner : Rigid element) : Rigid (.assetOf element)

theorem Rigid.kind {e : TypeExpr} (rigid : Rigid e) : e.kind ≠ .wildcard := by
  cases rigid <;> nofun

def ResolvesTo (bindings : Bindings) (e : TypeExpr) (typeId : String) : Prop :=
  ∃ r, resolvedTypeExpr bindings e = .ok (some r) ∧ r.runtimeTypeId = some typeId ∧
    r.kind ≠ .wildcard

section Resolve

variable {bindings : Bindings} {e : TypeExpr} {inner : String}

attribute [local simp] resolvedTypeExpr

theorem ResolvesTo.stream (resolves : ResolvesTo bindings e inner) :
    ResolvesTo bindings (.streamOf e) (streamTypeId inner) := by
  obtain ⟨r,resolved,named,_⟩ := resolves
  refine ⟨.streamOf r,?_,?_,nofun⟩
  · rw [streamOf,resolvedTypeExpr,resolvedElement,resolved]
    rfl
  · rw [streamOf,runtimeTypeId,elementTypeId,named]
    rfl

theorem ResolvesTo.asset (resolves : ResolvesTo bindings e inner) :
    ResolvesTo bindings (.assetOf e) (assetTypeId inner) := by
  obtain ⟨r,resolved,named,_⟩ := resolves
  refine ⟨.assetOf r,?_,?_,nofun⟩
  · rw [assetOf,resolvedTypeExpr,resolvedElement,resolved]
    rfl
  · rw [assetOf,runtimeTypeId,elementTypeId,named]
    rfl

theorem ResolvesTo.list (closed : e.kind ≠ .wildcard) (resolves : ResolvesTo bindings e inner) :
    ResolvesTo bindings (.listOf e) (listTypeId inner) := by
  obtain ⟨r,resolved,named,kind⟩ := resolves
  have open_ : ∀ x : TypeExpr, x.kind ≠ .wildcard →
      ¬(some x).map (·.kind) = some TypeExprKind.wildcard := fun x other same =>
    other (Option.some.inj same)
  refine ⟨.listOf r,?_,?_,nofun⟩
  · rw [listOf,resolvedTypeExpr,if_neg (open_ e closed),resolvedElement,resolved]
    rfl
  · rw [listOf,runtimeTypeId,if_neg (open_ r kind),elementTypeId,named]
    rfl

theorem resolvedElements_ok {elements : List TypeExpr} {positions : List String}
    (all : List.Forall₂ (ResolvesTo bindings) elements positions) :
    ∃ rs, resolvedElements bindings elements = .ok (some rs) ∧
      runtimeTypeIds rs = some positions := by
  induction all with
  | nil => exact ⟨[],rfl,rfl⟩
  | cons here _ ih =>
    obtain ⟨r,resolved,named,_⟩ := here
    obtain ⟨rs,others,names⟩ := ih
    refine ⟨r :: rs,?_,?_⟩
    · rw [resolvedElements,resolved,others]
      rfl
    · rw [runtimeTypeIds,named,names]
      rfl

theorem ResolvesTo.tuple {elements : List TypeExpr} {positions : List String}
    (all : List.Forall₂ (ResolvesTo bindings) elements positions) :
    ResolvesTo bindings (.tupleOf elements) (tupleTypeId positions) := by
  obtain ⟨rs,resolved,named⟩ := resolvedElements_ok all
  refine ⟨.tupleOf rs,?_,?_,nofun⟩
  · rw [tupleOf,resolvedTypeExpr,resolved]
    rfl
  · rw [tupleOf,runtimeTypeId,named]
    rfl

theorem forall₂_demands {P : TypeExpr → String → Prop} {elements : List TypeExpr}
    {positions : List String} {ps : List (String × String)}
    (long : positions.length = elements.length) (asks : allDemands elements positions = some ps)
    (accepts : acceptsAll elements positions = true)
    (each : ∀ e ∈ elements, ∀ t qs, demands e t = some qs → e.acceptsConcrete t = true →
      qs ⊆ ps → P e t) : List.Forall₂ P elements positions := by
  induction elements generalizing positions ps with
  | nil =>
    cases positions with
    | nil => exact .nil
    | cons _ _ => cases long
  | cons e elements ih =>
    cases positions with
    | nil => cases long
    | cons t positions =>
      rw [allDemands] at asks
      obtain ⟨first,here,rest⟩ := Option.bind_eq_some_iff.mp asks
      obtain ⟨others,there,both⟩ := Option.bind_eq_some_iff.mp rest
      cases both
      rw [acceptsAll,Bool.and_eq_true] at accepts
      refine .cons (each e List.mem_cons_self t first here accepts.1
        (List.subset_append_left _ _)) (ih (Nat.succ.inj long) there accepts.2 ?_)
      exact fun e' inside t' qs asks' takes within => each e' (List.mem_cons_of_mem _ inside) t' qs
        asks' takes (List.Subset.trans within (List.subset_append_right _ _))

theorem Rigid.resolves (rigid : Rigid e) {typeId : String} {ps : List (String × String)}
    (asks : demands e typeId = some ps) (accepts : e.acceptsConcrete typeId = true)
    (answered : ∀ T x, (T,x) ∈ ps → bindings.get? T = some x) : ResolvesTo bindings e typeId := by
  induction rigid generalizing typeId ps with
  | concrete atom =>
    obtain rfl := List.mem_singleton.mp (of_decide_eq_true accepts)
    exact ⟨_,rfl,rfl,nofun⟩
  | «variable» templateId allowed =>
    rw [TypeExpr.variable,demands] at asks
    split at asks
    · cases asks
    · cases asks
      refine ⟨typeExprFromRuntimeId typeId,?_,runtimeTypeId_typeExprFromRuntimeId typeId,
        typeExprFromRuntimeId_kind typeId⟩
      rw [TypeExpr.variable,resolvedTypeExpr,answered templateId typeId (List.mem_singleton.mpr rfl)]
      rfl
  | @tuple elements all ih =>
    cases found : parseTupleTypeId typeId with
    | none => simp [tupleOf,demands,found] at asks
    | some positions =>
      rw [acceptsConcrete_tupleOf found] at accepts
      rw [tupleOf,demands] at asks
      simp only [found] at asks
      split at asks
      · rename_i long
        rw [(parseTupleTypeId_some found).1]
        exact .tuple (forall₂_demands long asks accepts fun e inside t qs asks takes within =>
          ih e inside asks takes fun T x pair => answered T x (within pair))
      · cases asks
  | @stream element _ ih =>
    rw [acceptsConcrete_streamOf] at accepts
    rw [streamOf,demands] at asks
    cases found : parseStreamTypeId typeId with
    | none => rw [found] at asks; cases asks
    | some inner =>
      rw [found] at asks accepts
      rw [(parseStreamTypeId_some.mp found).1]
      exact (ih asks accepts answered).stream
  | @list element rigid ih =>
    rw [acceptsConcrete_listOf] at accepts
    rw [listOf,demands] at asks
    cases found : parseListTypeId typeId with
    | none => rw [found] at asks; cases asks
    | some inner =>
      rw [found] at asks accepts
      rw [(parseListTypeId_some.mp found).1]
      exact (ih asks accepts answered).list rigid.kind
  | @asset element _ ih =>
    rw [acceptsConcrete_assetOf] at accepts
    rw [assetOf,demands] at asks
    cases found : parseAssetTypeId typeId with
    | none => rw [found] at asks; cases asks
    | some inner =>
      rw [found] at asks accepts
      rw [(parseAssetTypeId_some.mp found).1]
      exact (ih asks accepts answered).asset

end Resolve

theorem resolvedTypeId_received {specs : List InputSpec} {inputTypes : Dict String String}
    {bindings : Bindings} (bound : bindTypeVariables specs inputTypes = .ok bindings)
    {spec : InputSpec} (inside : spec ∈ specs) {typeId : String}
    (fed : inputTypes.get? spec.id = some typeId) (rigid : Rigid spec.type)
    (accepts : spec.type.acceptsConcrete (spec.received typeId) = true) :
    resolvedTypeId spec.type bindings = .ok (some (spec.received typeId)) := by
  obtain ⟨shaped,values⟩ := foldlM_bindInput_ok bound
  obtain ⟨ps,asks⟩ := shaped spec inside
  have shown : demands spec.type (spec.received typeId) = some ps := by
    rw [specDemands,fed] at asks
    exact asks
  obtain ⟨r,resolved,named,_⟩ := rigid.resolves shown accepts fun T x pair =>
    (values T x).mpr (.inr ⟨spec,inside,ps,asks,pair⟩)
  rw [resolvedTypeId,resolved]
  exact congrArg Except.ok named

section
variable {bindings : Bindings}

mutual

theorem resolved_runtime : ∀ (expr type : TypeExpr) (typeId : String),
    resolvedTypeExpr bindings expr = .ok (some type) → expr.runtimeTypeId = some typeId →
      type.runtimeTypeId = some typeId
  | ⟨kind,types,templateId,element,elements,inputId,index⟩,type,typeId,resolved,named => by
    cases kind with
    | concrete =>
      rw [resolvedTypeExpr] at resolved
      cases resolved
      exact named
    | tuple =>
      rw [resolvedTypeExpr] at resolved
      obtain ⟨found,all,same⟩ := map_ok.mp resolved
      obtain ⟨positions,rfl,rfl⟩ := Option.map_eq_some_iff.mp same
      rw [runtimeTypeId] at named
      obtain ⟨typeIds,each,rfl⟩ := Option.map_eq_some_iff.mp named
      rw [tupleOf,runtimeTypeId]
      exact congrArg (Option.map tupleTypeId)
        (resolvedElements_runtime elements positions typeIds all each)
    | stream =>
      rw [resolvedTypeExpr] at resolved
      obtain ⟨found,inner,same⟩ := map_ok.mp resolved
      obtain ⟨inside,rfl,rfl⟩ := Option.map_eq_some_iff.mp same
      rw [runtimeTypeId] at named
      obtain ⟨innerId,here,rfl⟩ := Option.map_eq_some_iff.mp named
      rw [streamOf,runtimeTypeId]
      exact congrArg (Option.map streamTypeId)
        (resolvedElement_runtime element inside innerId inner here)
    | list =>
      rw [resolvedTypeExpr] at resolved
      rw [runtimeTypeId] at named
      by_cases wild : element.map (·.kind) = some .wildcard
      · rw [if_pos wild] at resolved named
        cases resolved
        rw [runtimeTypeId,if_pos wild]
        exact named
      · rw [if_neg wild] at resolved named
        obtain ⟨found,inner,same⟩ := map_ok.mp resolved
        obtain ⟨inside,rfl,rfl⟩ := Option.map_eq_some_iff.mp same
        obtain ⟨innerId,here,rfl⟩ := Option.map_eq_some_iff.mp named
        have kept := resolvedElement_runtime element inside innerId inner here
        have tame : (some inside).map (·.kind) ≠ some TypeExprKind.wildcard := by
          intro same
          obtain ⟨kind,_,_,_,_,_,_⟩ := inside
          obtain rfl := Option.some.inj same
          simp [runtimeTypeId] at kept
        rw [listOf,runtimeTypeId,if_neg tame]
        exact congrArg (Option.map listTypeId) kept
    | asset =>
      rw [resolvedTypeExpr] at resolved
      obtain ⟨found,inner,same⟩ := map_ok.mp resolved
      obtain ⟨inside,rfl,rfl⟩ := Option.map_eq_some_iff.mp same
      rw [runtimeTypeId] at named
      obtain ⟨innerId,here,rfl⟩ := Option.map_eq_some_iff.mp named
      rw [assetOf,runtimeTypeId]
      exact congrArg (Option.map assetTypeId)
        (resolvedElement_runtime element inside innerId inner here)
    | _ => simp [runtimeTypeId] at named

theorem resolvedElement_runtime : ∀ (element : Option TypeExpr) (type : TypeExpr) (typeId : String),
    resolvedElement bindings element = .ok (some type) → elementTypeId element = some typeId →
      type.runtimeTypeId = some typeId
  | none,_,_,resolved,_ => by cases resolved
  | some element,type,typeId,resolved,named => resolved_runtime element type typeId resolved named

theorem resolvedElements_runtime : ∀ (elements types : List TypeExpr) (typeIds : List String),
    resolvedElements bindings elements = .ok (some types) → runtimeTypeIds elements = some typeIds →
      runtimeTypeIds types = some typeIds
  | [],_,_,resolved,named => by
    cases resolved
    exact named
  | expr :: rest,types,typeIds,resolved,named => by
    rw [resolvedElements] at resolved
    obtain ⟨position,first,resolved⟩ := bind_ok.mp resolved
    obtain ⟨positions,others,resolved⟩ := bind_ok.mp resolved
    obtain ⟨type,rfl,joined⟩ := Option.bind_eq_some_iff.mp (Except.ok.inj resolved)
    obtain ⟨later,rfl,rfl⟩ := Option.map_eq_some_iff.mp joined
    rw [runtimeTypeIds] at named
    obtain ⟨typeId,here,named⟩ := Option.bind_eq_some_iff.mp named
    obtain ⟨typeIds',there,same⟩ := Option.bind_eq_some_iff.mp named
    rw [runtimeTypeIds,resolved_runtime expr type typeId first here,
      resolvedElements_runtime rest later typeIds' others there]
    exact same

end

end

/-- Runtime type ids determine fully concrete types, and solving an interface depends neither on the
order of its inputs nor on more than the ids that their variables receive. -/
theorem type_ids_determine :
    (∀ e, FullyConcrete e → ∃ typeId, e.runtimeTypeId = some typeId ∧
      typeExprFromRuntimeId typeId = e ∧ e.acceptsConcrete typeId = true) ∧
    (∀ e e', FullyConcrete e → FullyConcrete e' → e.runtimeTypeId = e'.runtimeTypeId → e = e') ∧
    ∀ specs inputTypes bindings, bindTypeVariables specs inputTypes = .ok bindings →
      (∀ specs' : List InputSpec, specs'.Perm specs → ∃ bindings',
        bindTypeVariables specs' inputTypes = .ok bindings' ∧
          ∀ T, bindings'.get? T = bindings.get? T) ∧
      ∀ spec ∈ specs, ∀ typeId, inputTypes.get? spec.id = some typeId → Rigid spec.type →
        spec.type.acceptsConcrete (spec.received typeId) = true →
          resolvedTypeId spec.type bindings = .ok (some (spec.received typeId)) := by
  refine ⟨fun e formed => ?_,fun e e' formed formed' same => ?_,fun specs inputTypes bindings bound =>
    ⟨fun specs' listed => bindTypeVariables_perm bound listed,fun spec inside typeId fed rigid =>
      resolvedTypeId_received bound inside fed rigid⟩⟩
  · obtain ⟨typeId,named⟩ := formed.named
    exact ⟨typeId,named.name,named.read,named.accepts⟩
  · obtain ⟨typeId,named⟩ := formed.named
    obtain ⟨typeId',named'⟩ := formed'.named
    have names : typeId = typeId' :=
      Option.some.inj (named.name.symm.trans (same.trans named'.name))
    exact named.read.symm.trans (names ▸ named'.read)

/-- An input that accepts a list is unified without its list layer, a concrete position of a tuple
is not compared with what it receives, and `*` spells any element of a list. -/
theorem type_ids_differ :
    (∃ bindings, bindTypeVariables [⟨"x",.variable "T" [],true⟩]
        (Dict.empty.set "x" "list<core.int>") = .ok bindings ∧
      resolvedTypeId (.variable "T" []) bindings = .ok (some "core.int") ∧
      resolvedTypeId (.variable "T" []) bindings ≠ .ok (some "list<core.int>")) ∧
    (∃ bindings, bindTypeVariables
        [⟨"x",.tupleOf [.variable "T" [],.concrete "core.int"],false⟩]
        (Dict.empty.set "x" "tuple<core.string,core.float>") = .ok bindings ∧
      resolvedTypeId (.tupleOf [.variable "T" [],.concrete "core.int"]) bindings =
        .ok (some "tuple<core.string,core.int>") ∧
      "tuple<core.string,core.int>" ≠ "tuple<core.string,core.float>") ∧
    (listOf (.concrete "*")).runtimeTypeId = (listOf .wildcard).runtimeTypeId := by
  refine ⟨⟨Dict.empty.set "T" "core.int",toOption_ok.mp (by decide +kernel),?_⟩,
    ⟨Dict.empty.set "T" "core.string",toOption_ok.mp (by decide +kernel),?_⟩,rfl⟩
  · have resolved : resolvedTypeId (.variable "T" []) (Dict.empty.set "T" "core.int") =
        .ok (some "core.int") := by
      rw [resolvedTypeId,TypeExpr.variable,resolvedTypeExpr,Dict.get?_set_self]
      exact congrArg Except.ok (runtimeTypeId_typeExprFromRuntimeId "core.int")
    refine ⟨resolved,fun other => ?_⟩
    have same := resolved.symm.trans other
    simp at same
  · refine ⟨?_,by decide⟩
    have solved : ResolvesTo (Dict.empty.set "T" "core.string")
        (.tupleOf [.variable "T" [],.concrete "core.int"])
        (tupleTypeId ["core.string","core.int"]) :=
      .tuple (.cons ⟨typeExprFromRuntimeId "core.string",rfl,runtimeTypeId_typeExprFromRuntimeId _,
        typeExprFromRuntimeId_kind _⟩ (.cons ⟨.concrete "core.int",rfl,rfl,nofun⟩ .nil))
    obtain ⟨r,resolved,named,_⟩ := solved
    rw [resolvedTypeId,resolved]
    exact congrArg Except.ok named

end Dinkster.Solve
