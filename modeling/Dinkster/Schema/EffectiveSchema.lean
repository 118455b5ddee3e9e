import Dinkster.Schema.Expansion
import Dinkster.Schema.Projection
import Mathlib

/-! Effective schemas: distinct ids within the budget, no dynamic construct left, and every group as
often as its bounds allow. -/
namespace Dinkster.Dynamic
open Canonical Fallible TypeExpr

theorem additionalInputs_ids {schema : NodeSchema} {doc : Document}
    {inputs declared : List InputSpec} (done : additionalInputs schema doc inputs = .ok declared) :
    ∃ extra, declared.map (·.id) = inputs.map (·.id) ++ extra ∧
      (schema.additionalInputs = none → extra = []) ∧ ∀ name ∈ extra, name ∈ doc.storedIds := by
  unfold additionalInputs at done
  split at done
  · cases done
    exact ⟨[],by simp,fun _ => rfl,List.forall_mem_nil _⟩
  · rename_i type open_
    have grown : ∃ extra, declared.map (·.id) = inputs.map (·.id) ++ extra ∧
        ∀ name ∈ extra, name ∈ doc.storedIds := by
      refine foldlM_keeps (P := fun found : List InputSpec => ∃ extra,
        found.map (·.id) = inputs.map (·.id) ++ extra ∧ ∀ name ∈ extra, name ∈ doc.storedIds) ?_
        ⟨[],by simp,List.forall_mem_nil _⟩ done
      rintro name inside before after ⟨extra,same,stored⟩ step
      unfold additionalInput at step
      split at step
      · cases step
        exact ⟨extra,same,stored⟩
      · obtain ⟨_,_,rest⟩ := bind_ok.mp step
        obtain ⟨_,_,last⟩ := bind_ok.mp rest
        cases last
        refine ⟨extra ++ [name],by simp [same],fun other member => ?_⟩
        rcases List.mem_append.mp member with old | new
        · exact stored other old
        · exact List.mem_singleton.mp new ▸ inside
    obtain ⟨extra,same,stored⟩ := grown
    refine ⟨extra,same,fun closed => ?_,stored⟩
    rw [open_] at closed
    cases closed

theorem materializeInputs_ids (inputs : List InputSpec) :
    (materializeInputs inputs).map (·.id) = inputs.map (·.id) := by
  rw [materializeInputs,List.map_map]
  rfl

theorem closeStreams_ids (ids : List String) (inputs : List InputSpec) :
    (closeStreams ids inputs).map (·.id) = inputs.map (·.id) := by
  rw [closeStreams,List.map_map]
  refine List.map_congr_left fun spec _ => ?_
  rw [Function.comp_apply]
  split <;> rfl

theorem closeStreams_types (ids : List String) (inputs : List InputSpec) :
    (closeStreams ids inputs).map (·.type) = inputs.map (·.type) := by
  rw [closeStreams,List.map_map]
  refine List.map_congr_left fun spec _ => ?_
  rw [Function.comp_apply]
  split <;> rfl

theorem elaborateInputs_ok {py : Python} {schema : NodeSchema} {doc : Document}
    {inputs : List InputSpec} {active : List (String × String)} {bindings : Dict String TypeExpr}
    (done : elaborateInputs py schema doc = .ok (inputs,active,bindings)) :
    (∃ ids extra, Expansion "" schema.inputEntries ids ∧ inputs.map (·.id) = ids ++ extra ∧
      (schema.additionalInputs = none → extra = []) ∧ ∀ name ∈ extra, name ∈ doc.storedIds) ∧
      slotTypeBindings schema doc = .ok bindings := by
  obtain ⟨entries,expanded,rest⟩ := bind_ok.mp done
  obtain ⟨declared,more,rest⟩ := bind_ok.mp rest
  obtain ⟨_,_,rest⟩ := bind_ok.mp rest
  obtain ⟨bound,binds,rest⟩ := bind_ok.mp rest
  obtain ⟨substituted,each,rest⟩ := bind_ok.mp rest
  obtain ⟨_,_,last⟩ := bind_ok.mp rest
  obtain ⟨rfl,tail⟩ := Prod.mk.inj (Except.ok.inj last)
  obtain ⟨rfl,rfl⟩ := Prod.mk.inj tail
  obtain ⟨extra,same,closed,stored⟩ := additionalInputs_ids more
  refine ⟨⟨entries.ids,extra,elaborateEntries_expands _ _ _ expanded,?_,closed,stored⟩,binds⟩
  have kept : substituted.map InputSpec.id = List.map InputSpec.id _ :=
    mapM_map (fun spec spec' step => by
      obtain ⟨_,_,last⟩ := bind_ok.mp step
      cases last
      rfl) each
  rw [kept,materializeInputs_ids,same]
  rfl

/-- The numbers of members that an output family is held to: its own bounds where an input counts
its members, else the budget. -/
structure OutputFamily.Allows (family : OutputFamily) (count : Nat) : Prop where
  budget : count ≤ maxFamilyMembers
  bounds : family.count ≠ none →
    family.minMembers ≤ count ∧ ∀ most ∈ family.maxMembers, count ≤ most

theorem checkCounted_ok {schema : NodeSchema} {doc : Document} {family : OutputFamily}
    {suffixes : List Raw} {u : PUnit} (checked : checkCounted schema doc family suffixes = .ok u)
    (counted : family.count ≠ none) : family.minMembers ≤ suffixes.length ∧
      ∀ most ∈ family.maxMembers, suffixes.length ≤ most := by
  unfold checkCounted at checked
  split at checked
  · rename_i uncounted
    exact absurd uncounted counted
  · dsimp only at checked
    split at checked
    · rename_i value _
      obtain ⟨_,positive,rest⟩ := bind_ok.mp checked
      obtain ⟨_,_,rest⟩ := bind_ok.mp rest
      obtain ⟨_,bounds,canonical⟩ := bind_ok.mp rest
      rw [refuseIf_ok] at positive bounds canonical
      have long : (suffixes.length : Int) = value := by
        rw [not_not.mp canonical]
        simp [Int.not_lt.mp positive]
      push Not at bounds
      refine ⟨by omega,fun most declared => ?_⟩
      have under := bounds.2 most declared
      omega
    · cases checked

theorem outputFamily_ok {schema : NodeSchema} {doc : Document} {family : OutputFamily}
    {outputs : List OutputSpec} (done : outputFamily schema doc family = .ok outputs) :
    ∃ members : List String, members.Nodup ∧ family.Allows members.length ∧
      outputs = members.map (memberOutput family) := by
  obtain ⟨_,checked,rest⟩ := bind_ok.mp done
  obtain ⟨_,budget,rest⟩ := bind_ok.mp rest
  obtain ⟨⟨names,found⟩,run,last⟩ := bind_ok.mp rest
  cases last
  rw [refuseIf_ok] at budget
  have each : ∀ (suffixes : List Raw) (state after : List String × List OutputSpec),
      suffixes.foldlM (outputMember schema family) state = .ok after →
      state.1.Nodup ∧ state.2 = state.1.map (memberOutput family) →
        (after.1.Nodup ∧ after.2 = after.1.map (memberOutput family)) ∧
          after.1.length = state.1.length + suffixes.length := by
    intro suffixes
    induction suffixes with
    | nil =>
      intro state after step kept
      cases step
      exact ⟨kept,rfl⟩
    | cons suffix suffixes ih =>
      intro state after step kept
      rw [List.foldlM_cons] at step
      obtain ⟨next,here,others⟩ := bind_ok.mp step
      unfold outputMember at here
      dsimp only at here
      split at here
      · cases here
      · cases here
      · obtain ⟨_,_,more⟩ := bind_ok.mp here
        obtain ⟨_,fresh,more⟩ := bind_ok.mp more
        obtain ⟨_,_,same⟩ := bind_ok.mp more
        cases same
        rw [refuseIf_ok] at fresh
        obtain ⟨whole,long⟩ := ih _ _ others ⟨nodup_snoc kept.1 fresh,by simp [kept.2]⟩
        refine ⟨whole,?_⟩
        rw [long]
        simp only [List.length_append,List.length_cons,List.length_nil]
        omega
  obtain ⟨⟨distinct,same⟩,long⟩ := each _ _ _ run ⟨List.nodup_nil,rfl⟩
  rw [List.length_nil,Nat.zero_add] at long
  refine ⟨names,distinct,⟨?_,fun counted => ?_⟩,same⟩
  · rw [long]
    exact Nat.le_of_not_lt budget
  · rw [long]
    exact checkCounted_ok checked counted

theorem elaborateOutputDescriptors_ok {py : Python} {spec : OutputDescriptors}
    {value : Option Stored} {outputs : List OutputSpec}
    (done : elaborateOutputDescriptors py spec value = .ok outputs) :
    (spec.minEntries ≤ outputs.length ∧ outputs.length ≤ spec.maxEntries) ∧
      ∀ output ∈ outputs, output.type ∈ spec.choices.map (·.type) := by
  obtain ⟨entries,_,rest⟩ := bind_ok.mp done
  obtain ⟨_,bounds,run⟩ := bind_ok.mp rest
  rw [refuseIf_ok,not_not] at bounds
  have each : ∀ (entries : List Json.Object) (before after : List OutputSpec),
      entries.foldlM (outputDescriptor py spec) before = .ok after →
      (∀ output ∈ before, output.type ∈ spec.choices.map (·.type)) →
        (∀ output ∈ after, output.type ∈ spec.choices.map (·.type)) ∧
          after.length = before.length + entries.length := by
    intro entries
    induction entries with
    | nil =>
      intro before after step typed
      cases step
      exact ⟨typed,rfl⟩
    | cons entry entries ih =>
      intro before after step typed
      rw [List.foldlM_cons] at step
      obtain ⟨next,here,others⟩ := bind_ok.mp step
      obtain ⟨memberId,_,more⟩ := bind_ok.mp here
      obtain ⟨name,_,more⟩ := bind_ok.mp more
      obtain ⟨_,_,more⟩ := bind_ok.mp more
      obtain ⟨output,chosen,more⟩ := bind_ok.mp more
      obtain ⟨_,_,same⟩ := bind_ok.mp more
      cases same
      have declared : output ∈ spec.choices := by
        unfold descriptorChoice at chosen
        split at chosen
        · split at chosen
          · rename_i found
            cases chosen
            exact List.mem_of_find?_eq_some found
          · cases chosen
        · cases chosen
      obtain ⟨all,long⟩ := ih _ _ others fun o inside => by
        rcases List.mem_append.mp inside with old | new
        · exact typed o old
        · rw [List.mem_singleton.mp new]
          exact List.mem_map.mpr ⟨output,declared,rfl⟩
      refine ⟨all,?_⟩
      rw [long]
      simp only [List.length_append,List.length_cons,List.length_nil]
      omega
  obtain ⟨typed,long⟩ := each _ _ _ run (List.forall_mem_nil _)
  rw [List.length_nil,Nat.zero_add] at long
  rw [long]
  exact ⟨bounds,typed⟩

def OutputsWithin (schema : NodeSchema) (outputs : List OutputSpec) : Prop :=
  ∃ (members : List (List String)) (described : List OutputSpec),
    List.Forall₂ (fun (family : OutputFamily) names => names.Nodup ∧ family.Allows names.length)
      schema.outputFamilies members ∧
    (schema.outputDescriptors = none → described = []) ∧
    (∀ spec ∈ schema.outputDescriptors,
      spec.minEntries ≤ described.length ∧ described.length ≤ spec.maxEntries) ∧
    outputs.map (·.id) = schema.outputs.map (·.id) ++
      (List.zipWith (fun family names => names.map fun name => (memberOutput family name).id)
        schema.outputFamilies members).flatten ++ described.map (·.id)

theorem families_ok {schema : NodeSchema} {doc : Document} {families : List OutputFamily}
    {members : List (List OutputSpec)}
    (done : families.mapM (outputFamily schema doc) = .ok members) :
    ∃ names : List (List String),
      List.Forall₂ (fun (family : OutputFamily) names => names.Nodup ∧ family.Allows names.length)
        families names ∧
      members = List.zipWith (fun family names => names.map (memberOutput family)) families
        names := by
  have pairs := mapM_ok.mp done
  clear done
  induction pairs with
  | nil => exact ⟨[],.nil,rfl⟩
  | cons here _ ih =>
    obtain ⟨names,distinct,allowed,rfl⟩ := outputFamily_ok here
    obtain ⟨others,each,rfl⟩ := ih
    exact ⟨names :: others,.cons ⟨distinct,allowed⟩ each,rfl⟩

theorem families_typed {schema : NodeSchema} {names : List (List String)} :
    ∀ output ∈ (List.zipWith (fun family names => names.map (memberOutput family))
      schema.outputFamilies names).flatten, output.type ∈ schema.outputFamilies.map (·.type) := by
  intro output inside
  obtain ⟨group,member,within⟩ := List.mem_flatten.mp inside
  rw [List.mem_iff_getElem] at member
  obtain ⟨i,bound,rfl⟩ := member
  rw [List.getElem_zipWith] at within
  obtain ⟨name,_,rfl⟩ := List.mem_map.mp within
  exact List.mem_map.mpr ⟨_,List.getElem_mem _,rfl⟩

theorem elaborateOutputs_ok {py : Python} {schema : NodeSchema} {doc : Document}
    {outputs : List OutputSpec} (done : elaborateOutputs py schema doc = .ok outputs) :
    OutputsWithin schema outputs ∧ ∀ output ∈ outputs, output.type ∈ schema.outputTypes := by
  obtain ⟨_,_,rest⟩ := bind_ok.mp done
  obtain ⟨members,each,rest⟩ := bind_ok.mp rest
  obtain ⟨names,allowed,rfl⟩ := families_ok each
  have typed : ∀ output ∈ schema.outputs ++ (List.zipWith (fun family names =>
      names.map (memberOutput family)) schema.outputFamilies names).flatten,
        output.type ∈ schema.outputs.map (·.type) ++ schema.outputFamilies.map (·.type) := by
    intro output inside
    rcases List.mem_append.mp inside with own | other
    · exact List.mem_append_left _ (List.mem_map_of_mem own)
    · exact List.mem_append_right _ (families_typed output other)
  have named : (List.zipWith (fun family names => names.map (memberOutput family))
      schema.outputFamilies names).flatten.map (·.id) =
        (List.zipWith (fun family names => names.map fun name => (memberOutput family name).id)
          schema.outputFamilies names).flatten := by
    rw [List.map_flatten,List.map_zipWith]
    simp only [List.map_map,Function.comp_def]
  split at rest
  · rename_i closed
    cases rest
    refine ⟨⟨names,[],allowed,fun _ => rfl,?_,?_⟩,fun output inside => ?_⟩
    · rw [closed]
      nofun
    · simp [named]
    · exact List.mem_append_left _ (typed output inside)
  · rename_i spec described
    obtain ⟨descriptors,elaborated,rest⟩ := bind_ok.mp rest
    obtain ⟨_,_,last⟩ := bind_ok.mp rest
    cases last
    obtain ⟨bounds,choices⟩ := elaborateOutputDescriptors_ok (mapError_ok.mp elaborated)
    refine ⟨⟨names,descriptors,allowed,?_,?_,?_⟩,fun output inside => ?_⟩
    · rw [described]
      nofun
    · rw [described]
      rintro _ ⟨⟩
      exact bounds
    · simp only [List.map_append,named]
    · rcases List.mem_append.mp inside with declared | new
      · exact List.mem_append_left _ (typed output declared)
      · refine List.mem_append_right _ (List.mem_flatMap.mpr ⟨spec,?_,choices output new⟩)
        rw [described]
        exact List.mem_singleton.mpr rfl

def InputsWithin (schema : NodeSchema) (inputs : List InputSpec) : Prop :=
  ∃ ids extra, Expansion "" schema.inputEntries ids ∧ inputs.map (·.id) = ids ++ extra ∧
    (schema.additionalInputs = none → extra = [])

/-- No family, combo, slot or other construct that a document decides about is left. -/
structure NodeSchema.Plain (schema : NodeSchema) : Prop where
  constructs : schema.constructs = []
  outputFamilies : schema.outputFamilies = []
  outputDescriptors : schema.outputDescriptors = none
  additionalInputs : schema.additionalInputs = none

theorem construct_ok {schema result : NodeSchema} (done : construct schema = .ok result) :
    result = schema ∧ schema.Valid := by
  unfold construct at done
  split at done
  · rename_i valid
    exact ⟨(Except.ok.inj done).symm,valid⟩
  · cases done

theorem resolveRepresents_type {chosen : Dict String String} {output output' : OutputSpec}
    (done : resolveRepresents chosen output = .ok output') :
    output'.id = output.id ∧ output'.type = output.type := by
  unfold resolveRepresents at done
  split at done
  · cases done
    exact ⟨rfl,rfl⟩
  · obtain ⟨_,_,last⟩ := bind_ok.mp done
    cases last
    exact ⟨rfl,rfl⟩

theorem substituteOutput_ok {schema : NodeSchema} {bindings : Dict String TypeExpr}
    {output output' : OutputSpec} (done : substituteOutput schema bindings output = .ok output') :
    output'.id = output.id ∧
      ∃ subject, bindType bindings subject output.type = .ok output'.type := by
  obtain ⟨type,bound,last⟩ := bind_ok.mp done
  cases last
  exact ⟨rfl,_,bound⟩

theorem projectOutput_ok {doc : Document} {inputs : List InputSpec} {output output' : OutputSpec}
    (done : projectOutput doc inputs output = .ok output') :
    output'.id = output.id ∧ (requiresElaboration output.type = false ∧ output' = output ∨
      projectTupleOutput inputs doc.storedValues output.type = .ok output'.type) := by
  unfold projectOutput at done
  split at done
  · obtain ⟨type,projected,last⟩ := bind_ok.mp done
    cases last
    exact ⟨rfl,.inr projected⟩
  · rename_i plain
    cases done
    exact ⟨rfl,.inl ⟨Bool.eq_false_iff.mpr plain,rfl⟩⟩

structure Interface (schema result : NodeSchema) : Prop where
  valid : result.Valid
  plain : result.Plain
  budget : result.inputs.length + result.outputs.length ≤ maxInterfaceItems
  inputs : InputsWithin schema result.inputs
  outputs : OutputsWithin schema result.outputs

/-- No output takes a position out of an expression that itself has to be elaborated. -/
def NodeSchema.Flat (schema : NodeSchema) : Prop :=
  ∀ type ∈ schema.outputTypes, nestedElement type = false

theorem OutputsWithin.of_ids {schema : NodeSchema} {outputs outputs' : List OutputSpec}
    (within : OutputsWithin schema outputs) (same : outputs'.map (·.id) = outputs.map (·.id)) :
    OutputsWithin schema outputs' := by
  obtain ⟨members,described,each,none_,bounds,ids⟩ := within
  exact ⟨members,described,each,none_,bounds,same.trans ids⟩

theorem elaborateDynamic_ok {py : Python} {schema result : NodeSchema} {doc : Document}
    (done : elaborateDynamic py schema doc = .ok result) : Interface schema result ∧
      (schema.Valid → schema.Flat →
        ∀ output ∈ result.outputs, requiresElaboration output.type = false) := by
  obtain ⟨⟨inputs,active,bindings⟩,onInputs,rest⟩ := bind_ok.mp done
  obtain ⟨declared,onOutputs,rest⟩ := bind_ok.mp rest
  obtain ⟨projected,projects,rest⟩ := bind_ok.mp rest
  obtain ⟨substituted,substitutes,rest⟩ := bind_ok.mp rest
  obtain ⟨chunked,_,rest⟩ := bind_ok.mp rest
  obtain ⟨mirror,_,rest⟩ := bind_ok.mp rest
  obtain ⟨outputs,represents,rest⟩ := bind_ok.mp rest
  obtain ⟨_,budget,rest⟩ := bind_ok.mp rest
  rw [refuseIf_ok] at budget
  obtain ⟨rfl,valid⟩ := construct_ok rest
  obtain ⟨⟨ids,extra,expanded,named,none_,_⟩,bound⟩ := elaborateInputs_ok onInputs
  obtain ⟨within,typed⟩ := elaborateOutputs_ok onOutputs
  have sameIds : ∀ ids, (if chunked then inputs else closeStreams ids inputs).map (·.id) =
      inputs.map (·.id) := by
    intro ids
    split
    · rfl
    · exact closeStreams_ids ids inputs
  have sameTypes : ∀ ids, (if chunked then inputs else closeStreams ids inputs).map (·.type) =
      inputs.map (·.type) := by
    intro ids
    split
    · rfl
    · exact closeStreams_types ids inputs
  have outputIds : outputs.map (·.id) = declared.map (·.id) :=
    ((mapM_map (fun _ _ step => (resolveRepresents_type step).1) represents).trans
      (mapM_map (fun _ _ step => (substituteOutput_ok step).1) substitutes)).trans
        (mapM_map (fun _ _ step => (projectOutput_ok step).1) projects)
  refine ⟨⟨valid,⟨rfl,rfl,rfl,rfl⟩,Nat.le_of_not_lt budget,
    ⟨ids,extra,expanded,(sameIds _).trans named,none_⟩,within.of_ids outputIds⟩,?_⟩
  intro whole flat output inside
  have closed : ∀ spec ∈ inputs, requiresElaboration spec.type = false := by
    intro spec member
    have kept := List.mem_map_of_mem (f := InputSpec.type) member
    rw [← sameTypes] at kept
    obtain ⟨spec',member',same⟩ := List.mem_map.mp kept
    rw [← same]
    exact valid.inputTypes spec' member'
  obtain ⟨last,inLast,represented⟩ := mapM_image represents output inside
  obtain ⟨next,inNext,substituted'⟩ := mapM_image substitutes last inLast
  obtain ⟨first,inFirst,projected'⟩ := mapM_image projects next inNext
  have open_ : requiresElaboration next.type = false := by
    rcases (projectOutput_ok projected').2 with ⟨plain,rfl⟩ | done
    · exact plain
    · exact projectTupleOutput_closed closed _ (whole.outputTypes _ (typed first inFirst))
        (flat _ (typed first inFirst)) _ done
  obtain ⟨_,subject,binds⟩ := substituteOutput_ok substituted'
  rw [(resolveRepresents_type represented).2]
  exact bindType_closed (slotTypeBindings_closed whole bound) open_ binds

theorem elaborateStatic_ok {schema result : NodeSchema} {doc : Document}
    (done : elaborateStatic schema doc = .ok result) : result = schema := by
  obtain ⟨_,_,rest⟩ := bind_ok.mp done
  obtain ⟨_,_,last⟩ := bind_ok.mp rest
  exact (Except.ok.inj last).symm

/-- Functions on texts that the run below does not call. -/
def silentPython : Python := ⟨id,fun _ => "",fun _ => none,fun _ => none,fun _ => false⟩

end Dinkster.Dynamic
