import Dinkster.Schema.Effective

/-! Output types after elaboration: projection takes the references out of a type, and binding the
variables of slots puts none back. -/
namespace Dinkster.Dynamic
open Canonical Fallible TypeExpr

mutual

def nestedElement : TypeExpr → Bool
  | ⟨kind,_,_,element,elements,_,_⟩ =>
    (decide (kind = .tupleElement) && elementRequires element) || elementNested element ||
      someNested elements

def elementNested : Option TypeExpr → Bool
  | none => false
  | some element => nestedElement element

def someNested : List TypeExpr → Bool
  | [] => false
  | expr :: rest => nestedElement expr || someNested rest

end

theorem someRequires_false {elements : List TypeExpr} :
    someRequires elements = false ↔ ∀ e ∈ elements, requiresElaboration e = false := by
  induction elements with
  | nil => simp [someRequires]
  | cons e rest ih => simp [someRequires,ih]

section Project

variable {inputs : List InputSpec} {stored : Option (Dict String Stored)}

theorem tupleIndex_ok {index selected : Option Json.Value}
    (taken : tupleIndex inputs stored index = .ok selected) : isName selected = false := by
  unfold tupleIndex at taken
  split at taken
  · split at taken
    · cases taken
    · split at taken
      · cases taken
      · split at taken
        · cases taken
          rfl
        · cases taken
  · rename_i other
    cases taken
    cases index with
    | none => rfl
    | some value =>
      cases value with
      | str name => exact absurd rfl (other name)
      | _ => rfl

theorem tupleSource_ok (closed : ∀ spec ∈ inputs, requiresElaboration spec.type = false)
    {inputId : String} {element : Option TypeExpr} (plain : elementRequires element = false)
    {source : TypeExpr} (found : tupleSource inputs inputId element = .ok source) :
    requiresElaboration source = false := by
  unfold tupleSource at found
  split at found
  · split at found
    · cases found
      exact plain
    · cases found
  · split at found
    · rename_i spec at_
      cases found
      exact closed spec (List.mem_of_find?_eq_some at_)
    · cases found

mutual

theorem projectTupleOutput_closed
    (closed : ∀ spec ∈ inputs, requiresElaboration spec.type = false) :
    ∀ e : TypeExpr, e.wellFormed = true → nestedElement e = false → ∀ e',
      projectTupleOutput inputs stored e = .ok e' → requiresElaboration e' = false
  | ⟨kind,types,templateId,element,elements,inputId,index⟩,formed,plain,e',projected => by
    simp only [TypeExpr.wellFormed,Bool.and_eq_true] at formed
    obtain ⟨⟨passes,inner⟩,positions⟩ := formed
    simp only [nestedElement,Bool.or_eq_false_iff] at plain
    obtain ⟨⟨here,plainElement⟩,plainElements⟩ := plain
    by_cases family : kind = .familyTuple
    · subst family
      cases projected
      simp only [tupleOf,requiresElaboration,elementRequires,isName,Bool.or_false,decide_not,
        decide_true,Bool.not_true,Bool.false_or]
      refine someRequires_false.mpr fun e inside => ?_
      obtain ⟨spec,member,rfl⟩ := List.mem_map.mp inside
      exact closed spec (List.mem_of_mem_filter member)
    by_cases tuple : kind = .tupleElement
    · subst tuple
      rw [projectTupleOutput] at projected
      obtain ⟨source,found,rest⟩ := bind_ok.mp projected
      obtain ⟨selected,taken,same⟩ := bind_ok.mp rest
      cases same
      have sourceClosed := tupleSource_ok closed (by simpa using here) found
      simp [requiresElaboration,elementRequires,someRequires,sourceClosed,tupleIndex_ok taken]
    · rw [projectTupleOutput.eq_3 inputs stored kind _ _ _ _ _ _ family tuple] at projected
      obtain ⟨element',elementDone,rest⟩ := bind_ok.mp projected
      obtain ⟨elements',elementsDone,same⟩ := bind_ok.mp rest
      cases same
      obtain ⟨noInput,noIndex⟩ := reference_none passes family tuple
      simp only at noInput noIndex
      subst noInput noIndex
      simp [requiresElaboration,isName,
        projectElement_closed closed element inner plainElement element' elementDone,
        projectElements_closed closed elements positions plainElements elements' elementsDone]

theorem projectElement_closed
    (closed : ∀ spec ∈ inputs, requiresElaboration spec.type = false) :
    ∀ element : Option TypeExpr, elementWellFormed element = true →
    elementNested element = false → ∀ element', projectElement inputs stored element =
      .ok element' → elementRequires element' = false
  | none,_,_,_,projected => by
    cases projected
    rfl
  | some e,formed,plain,element',projected => by
    rw [projectElement] at projected
    cases done : projectTupleOutput inputs stored e with
    | error _ => rw [done] at projected; cases projected
    | ok e' =>
      rw [done] at projected
      cases projected
      exact projectTupleOutput_closed closed e formed plain e' done

theorem projectElements_closed
    (closed : ∀ spec ∈ inputs, requiresElaboration spec.type = false) :
    ∀ elements : List TypeExpr, elementsWellFormed elements = true →
    someNested elements = false → ∀ elements', projectElements inputs stored elements =
      .ok elements' → someRequires elements' = false
  | [],_,_,_,projected => by
    cases projected
    rfl
  | e :: rest,formed,plain,elements',projected => by
    simp only [elementsWellFormed,Bool.and_eq_true] at formed
    simp only [someNested,Bool.or_eq_false_iff] at plain
    rw [projectElements] at projected
    obtain ⟨first,done,more⟩ := bind_ok.mp projected
    obtain ⟨others,doneOthers,same⟩ := bind_ok.mp more
    cases same
    simp [someRequires,projectTupleOutput_closed closed e formed.1 plain.1 first done,
      projectElements_closed closed rest formed.2 plain.2 others doneOthers]

end

end Project

mutual

theorem recursivelyConcrete_closed : ∀ e : TypeExpr, e.wellFormed = true →
    recursivelyConcrete e = true → requiresElaboration e = false
  | ⟨kind,types,templateId,element,elements,inputId,index⟩,formed,concrete => by
    simp only [TypeExpr.wellFormed,Bool.and_eq_true] at formed
    obtain ⟨⟨passes,inner⟩,positions⟩ := formed
    simp only [recursivelyConcrete,Bool.and_eq_true] at concrete
    obtain ⟨⟨⟨_,named⟩,innerConcrete⟩,positionsConcrete⟩ := concrete
    have family : kind ≠ .familyTuple := by
      rintro rfl
      simp [runtimeTypeId] at named
    have tuple : kind ≠ .tupleElement := by
      rintro rfl
      simp [runtimeTypeId] at named
    obtain ⟨noInput,noIndex⟩ := reference_none passes family tuple
    simp only at noInput noIndex
    subst noInput noIndex
    simp [requiresElaboration,isName,elementConcrete_closed element inner innerConcrete,
      allConcrete_closed elements positions positionsConcrete]

theorem elementConcrete_closed :
    ∀ element : Option TypeExpr, elementWellFormed element = true →
    elementConcrete element = true → elementRequires element = false
  | none,_,_ => rfl
  | some e,formed,concrete => recursivelyConcrete_closed e formed concrete

theorem allConcrete_closed :
    ∀ elements : List TypeExpr, elementsWellFormed elements = true →
    allConcrete elements = true → someRequires elements = false
  | [],_,_ => rfl
  | e :: rest,formed,concrete => by
    simp only [elementsWellFormed,Bool.and_eq_true] at formed
    simp only [allConcrete,Bool.and_eq_true] at concrete
    simp [someRequires,recursivelyConcrete_closed e formed.1 concrete.1,
      allConcrete_closed rest formed.2 concrete.2]

end

section Substitute

variable {bindings : Dict String TypeExpr} {subject : String}

mutual

theorem substituteType_closed
    (closed : ∀ T bound, bindings.get? T = some bound → requiresElaboration bound = false) :
    ∀ e : TypeExpr, requiresElaboration e = false →
      ∀ e', substituteType bindings subject e = .ok e' → requiresElaboration e' = false
  | ⟨kind,types,templateId,element,elements,inputId,index⟩,plain,e',done => by
    have parts := plain
    simp only [requiresElaboration,Bool.or_eq_false_iff] at parts
    obtain ⟨⟨⟨noInput,noIndex⟩,plainElement⟩,plainElements⟩ := parts
    have onElement : ∀ kind', (substituteElement bindings subject element).map (fun element =>
        (⟨kind',types,templateId,element,elements,inputId,index⟩ : TypeExpr)) = .ok e' →
          requiresElaboration e' = false := by
      intro kind' mapped
      obtain ⟨element',inner,rfl⟩ := map_ok.mp mapped
      simp only [requiresElaboration,noInput,noIndex,plainElements,
        substituteElement_closed closed element plainElement element' inner,Bool.or_self]
    cases kind with
    | «variable» =>
      rw [substituteType] at done
      split at done
      · cases done
        exact plain
      · rename_i bound found
        split at done
        · cases done
        · split at done
          · cases done
            exact closed _ _ found
          · cases done
    | tuple =>
      rw [substituteType] at done
      obtain ⟨elements',inner,same⟩ := bind_ok.mp done
      cases same
      simp only [requiresElaboration,noInput,noIndex,plainElement,
        substituteElements_closed closed elements plainElements elements' inner,Bool.or_self]
    | list | asset | stream | tupleElement =>
      rw [substituteType] at done
      exact onElement _ done
    | _ =>
      cases done
      exact plain

theorem substituteElement_closed
    (closed : ∀ T bound, bindings.get? T = some bound → requiresElaboration bound = false) :
    ∀ element : Option TypeExpr, elementRequires element = false →
      ∀ element', substituteElement bindings subject element = .ok element' →
        elementRequires element' = false
  | none,_,_,done => by cases done
  | some e,plain,element',done => by
    rw [substituteElement] at done
    obtain ⟨e',inner,rfl⟩ := map_ok.mp done
    exact substituteType_closed closed e plain e' inner

theorem substituteElements_closed
    (closed : ∀ T bound, bindings.get? T = some bound → requiresElaboration bound = false) :
    ∀ elements : List TypeExpr, someRequires elements = false →
      ∀ elements', substituteElements bindings subject elements = .ok elements' →
        someRequires elements' = false
  | [],_,_,done => by
    cases done
    rfl
  | e :: rest,plain,elements',done => by
    simp only [someRequires,Bool.or_eq_false_iff] at plain
    rw [substituteElements] at done
    obtain ⟨first,here,more⟩ := bind_ok.mp done
    obtain ⟨others,there,same⟩ := bind_ok.mp more
    cases same
    simp [someRequires,substituteType_closed closed e plain.1 first here,
      substituteElements_closed closed rest plain.2 others there]

end

theorem bindType_closed
    (closed : ∀ T bound, bindings.get? T = some bound → requiresElaboration bound = false)
    {e e' : TypeExpr} (plain : requiresElaboration e = false)
    (done : bindType bindings subject e = .ok e') : requiresElaboration e' = false := by
  unfold bindType at done
  split at done
  · cases done
    exact plain
  · exact substituteType_closed closed e plain e' done

end Substitute

theorem slotTypeBindings_closed {schema : NodeSchema} (valid : schema.Valid) {doc : Document}
    {bindings : Dict String TypeExpr} (bound : slotTypeBindings schema doc = .ok bindings) :
    ∀ T type, bindings.get? T = some type → requiresElaboration type = false := by
  refine foldlM_keeps (P := fun bindings : Dict String TypeExpr => ∀ T type,
    bindings.get? T = some type → requiresElaboration type = false) ?_ (by simp) bound
  intro slot inside before after closed step
  unfold bindSlot at step
  split at step
  · cases step
    exact closed
  · split at step
    · split at step
      · rename_i variant found
        cases step
        intro T type held
        rw [Dict.get?_set] at held
        split at held
        · cases held
          obtain ⟨formed,concrete⟩ := valid.variantTypes slot inside variant
            (List.mem_of_find?_eq_some found)
          exact recursivelyConcrete_closed _ formed concrete
        · exact closed T type held
      · cases step
    · cases step

end Dinkster.Dynamic
