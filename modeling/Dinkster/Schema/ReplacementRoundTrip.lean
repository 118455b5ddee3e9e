import Dinkster.Schema.ReplacementWire

/-! What the writer of a replacement rule writes, the reader reads back. The pairs of a record have
distinct ids by its constructor's check, so an object holds them all; the pairs of an `enumRename`
have no such check. -/
namespace Dinkster.Replacement
open Json Json.Object Fallible

variable {str : Value → String}

@[simp] theorem constructed_ok {α : Type} {x : Except Invalid α} {a : α} :
    constructed x = .ok a ↔ x = .ok a := by
  cases x <;> simp [constructed,Except.mapError]

theorem constructed_new {Fields : Type} {check : Fields → Except Invalid Unit}
    (record : Checked check) : constructed (Checked.new check record.fields) = .ok record :=
  constructed_ok.mpr record.new_fields

@[simp] theorem items_dict {pairs : List (String × Value)} (unique : (pairs.map (·.1)).Nodup) :
    items (dict pairs) = .ok pairs := by
  rw [dict,items,Dict.entries_ofList unique]

theorem keys_written {α : Type} (pairs : List (String × α)) (f : α → Value) :
    (pairs.map fun e => (e.1,f e.2)).map (·.1) = pairs.map (·.1) := by
  rw [List.map_map]
  rfl

theorem mapValues_written {α : Type} {pairs : List (String × α)} {f : α → Value}
    {g : Value → Except Failure α} (inverse : ∀ e ∈ pairs, g (f e.2) = .ok e.2) :
    mapValues g (pairs.map fun e => (e.1,f e.2)) = .ok pairs := by
  induction pairs with
  | nil => rfl
  | cons e rest ih =>
    obtain ⟨head,tail⟩ := List.forall_mem_cons.mp inverse
    exact mapValues_cons.mpr ⟨e.2,rest,head,ih tail,rfl⟩

theorem mapM_written {α : Type} {xs : List α} {f : α → Value} {g : Value → Except Failure α}
    (inverse : ∀ x ∈ xs, g (f x) = .ok x) : (xs.map f).mapM g = .ok xs := by
  induction xs with
  | nil => rfl
  | cons x rest ih =>
    obtain ⟨head,tail⟩ := List.forall_mem_cons.mp inverse
    rw [List.map_cons,List.mapM_cons,bind_ok]
    exact ⟨x,head,bind_ok.mpr ⟨rest,ih tail,rfl⟩⟩

@[simp] theorem asStr_str (s : String) : asStr str (.str s) = s := rfl

@[simp] theorem get?_writtenSome (key other : String) (v : Option Value) :
    get? (writtenSome other v) key = if key = other then v else none := by
  cases v <;> simp [writtenSome,get?_cons]

theorem get?_writtenSome_append (key other : String) (v : Option Value) (rest : Object) :
    get? (writtenSome other v ++ rest) key =
      if key = other then v.or (get? rest key) else get? rest key := by
  rw [get?_append,get?_writtenSome]
  split <;> rfl

namespace ReplacementPredicate

private theorem checkInput_some (kind : PredicateKind) (input : InputId) :
    checkInput kind input.val [] = .ok input := by
  rw [checkInput,dif_pos input.property]
  rfl

private theorem checkJson_data (value : JsonData) : checkJson value.val = .ok value := by
  rw [checkJson,dif_pos value.property]

end ReplacementPredicate

open ReplacementPredicate in
mutual

theorem predicate_roundTrip : ∀ p : ReplacementPredicate,
    predicateFromWire str (predicateToWire p) = .ok p
  | .always => by
    rw [predicateToWire,predicateFromWire]
    rfl
  | .inputConnected input => by
    rw [predicateToWire,predicateFromWire]
    have passed := checkInput_some .inputConnected input
    simp only [item,get?_cons]
    exact constructed_ok.mpr (bind_ok.mpr ⟨input,passed,rfl⟩)
  | .valuePresent input => by
    rw [predicateToWire,predicateFromWire]
    have passed := checkInput_some .valuePresent input
    simp only [item,get?_cons]
    exact constructed_ok.mpr (bind_ok.mpr ⟨input,passed,rfl⟩)
  | .valueEquals input value => by
    rw [predicateToWire,predicateFromWire]
    have passed := checkInput_some .valueEquals input
    simp only [item,get?_cons]
    refine constructed_ok.mpr (bind_ok.mpr ⟨input,passed,?_⟩)
    exact bind_ok.mpr ⟨value,checkJson_data value,rfl⟩
  | .not child => by
    rw [predicateToWire,predicateFromWire]
    have found : get? [("kind",.str "not"),("of",predicateToWire child)] "of" =
      some (predicateToWire child) := by simp [get?_cons]
    rw [bind_ok]
    refine ⟨.str "not",by simp [item,get?_cons],?_⟩
    simp only [asStr_str,PredicateKind.ofString?,member?_some found]
    exact bind_ok.mpr ⟨child,predicate_roundTrip child,rfl⟩
  | .all children => by
    rw [predicateToWire,predicateFromWire]
    have found : get? [("kind",.str "all"),("of",.arr (predicatesToWire children))] "of" =
      some (.arr (predicatesToWire children)) := by simp [get?_cons]
    rw [bind_ok]
    refine ⟨.str "all",by simp [item,get?_cons],?_⟩
    simp only [asStr_str,PredicateKind.ofString?,member?_some found]
    rw [bind_ok]
    refine ⟨children,?_,rfl⟩
    rw [childrenFromWire]
    exact predicates_roundTrip children
  | .any children => by
    rw [predicateToWire,predicateFromWire]
    have found : get? [("kind",.str "any"),("of",.arr (predicatesToWire children))] "of" =
      some (.arr (predicatesToWire children)) := by simp [get?_cons]
    rw [bind_ok]
    refine ⟨.str "any",by simp [item,get?_cons],?_⟩
    simp only [asStr_str,PredicateKind.ofString?,member?_some found]
    rw [bind_ok]
    refine ⟨children,?_,rfl⟩
    rw [childrenFromWire]
    exact predicates_roundTrip children

theorem predicates_roundTrip : ∀ ps : List ReplacementPredicate,
    predicatesFromWire str (predicatesToWire ps) = .ok ps
  | [] => by rw [predicatesToWire,predicatesFromWire]
  | p :: rest => by
    rw [predicatesToWire,predicatesFromWire,bind_ok]
    exact ⟨p,predicate_roundTrip p,bind_ok.mpr ⟨rest,predicates_roundTrip rest,rfl⟩⟩

end

/-- No source value is renamed twice. -/
def ValueTransform.Unambiguous (t : ValueTransform) : Prop := (t.fields.map.map (·.1)).Nodup

theorem transform_roundTrip {t : ValueTransform} (unambiguous : t.Unambiguous) :
    transformFromWire str (transformToWire t) = .ok t := by
  obtain ⟨⟨kind,map,factor,offset⟩,passed⟩ := t
  cases kind with
  | enumRename =>
    have defaults := refuseIf_ok.mp passed
    simp only [not_or,Bool.not_eq_false] at defaults
    obtain rfl := Operand.eq_one defaults.1
    obtain rfl := Operand.eq_zero defaults.2
    rw [transformToWire,transformFromWire]
    refine bind_ok.mpr ⟨_,rfl,bind_ok.mpr ⟨.str "enumRename",by simp [item,get?_cons],?_⟩⟩
    rw [if_pos (by simp)]
    refine bind_ok.mpr ⟨_,rfl,bind_ok.mpr ⟨_,items_dict ?_,?_⟩⟩
    · rw [keys_written]
      exact unambiguous
    rw [constructed_ok,Checked.new_ok]
    have back :
        ((map.map fun e => (e.1,Value.str e.2)).map fun e => (e.1,asStr str e.2)) = map := by
      simp [Function.comp_def]
    rw [back,Dict.entries_ofList unambiguous]
  | scale =>
    obtain ⟨_,noMap,-⟩ := bind_ok.mp passed
    obtain rfl := not_not.mp (refuseIf_ok.mp noMap)
    rw [transformToWire,transformFromWire]
    refine bind_ok.mpr ⟨_,rfl,bind_ok.mpr ⟨.str "scale",by simp [item,get?_cons],?_⟩⟩
    rw [if_neg (by simp),if_pos (by simp)]
    refine bind_ok.mpr ⟨factor.val,by simp [item,get?_cons],?_⟩
    rw [constructed_ok,Checked.new_ok]
    simp only [List.cons_append,List.nil_append,get?_cons,get?_writtenIf]
    by_cases zero : isZero offset.val = true
    · obtain rfl := Operand.eq_zero zero
      simp only [zero,Operand.of_val,Bool.not_true,Bool.false_eq_true,and_false,if_false]
      rfl
    · simp [zero]

/-- A transform is unambiguous wherever there is one. -/
def MappingSource.Unambiguous (s : MappingSource) : Prop :=
  ∀ t ∈ s.fields.transform, ValueTransform.Unambiguous t

private theorem isNone_iff {v : Value} : isNone v = true ↔ v = .null := by
  cases v <;> simp [isNone]

theorem constant_fields {s : SourceFields} (passed : s.check = .ok ())
    (constant : s.kind = .constant) : s.input = "" ∧ s.transform = none := by
  rw [SourceFields.check,if_pos constant] at passed
  obtain ⟨_,alone,-⟩ := bind_ok.mp passed
  have only := refuseIf_ok.mp alone
  simpa only [ne_eq,not_or,not_not,Bool.not_eq_true,Option.isSome_eq_false_iff,
    Option.isNone_iff_eq_none] using only

theorem feeding_fields {s : SourceFields} (passed : s.check = .ok ()) (other : s.kind ≠ .constant) :
    s.value = .null ∧ (s.transform.isSome → s.kind = .value) := by
  rw [SourceFields.check,if_neg other] at passed
  obtain ⟨_,-,rest⟩ := bind_ok.mp passed
  obtain ⟨_,noValue,noTransform⟩ := bind_ok.mp rest
  have value := refuseIf_ok.mp noValue
  have transform := refuseIf_ok.mp noTransform
  rw [Bool.not_eq_false] at value
  exact ⟨isNone_iff.mp value,fun some => not_not.mp fun kind => transform ⟨some,kind⟩⟩

theorem sourceTransform_roundTrip {transform : Option ValueTransform}
    (unambiguous : ∀ t ∈ transform, ValueTransform.Unambiguous t) :
    sourceTransform str (transform.map transformToWire) = .ok transform := by
  cases transform with
  | none => rfl
  | some t =>
    have read := @transform_roundTrip str t (unambiguous t rfl)
    have data : ∃ members, transformToWire t = .obj members := by
      rw [transformToWire]
      split
      · exact ⟨_,rfl⟩
      · exact ⟨_,rfl⟩
    obtain ⟨members,written⟩ := data
    rw [Option.map_some,written]
    rw [written] at read
    exact bind_ok.mpr ⟨t,read,rfl⟩

theorem mappingSource_roundTrip {s : MappingSource} (unambiguous : s.Unambiguous) :
    mappingSourceFromWire str (mappingSourceToWire s) = .ok s := by
  obtain ⟨⟨kind,input,transform,value⟩,passed⟩ := s
  by_cases constant : kind = .constant
  · obtain rfl := constant
    obtain ⟨same,none⟩ := constant_fields passed rfl
    obtain rfl : input = "" := same
    obtain rfl : transform = .none := none
    exact constructed_new ⟨_,passed⟩
  · obtain ⟨null,valued⟩ := feeding_fields passed constant
    obtain rfl : value = .null := null
    have read := @sourceTransform_roundTrip str _ unambiguous
    have known := MappingSourceKind.ofString?_name kind
    rw [mappingSourceToWire,mappingSourceFromWire]
    simp only [constant,if_false,get?_cons,if_true,known]
    rw [if_pos]
    · have input_at : get? (("kind",Value.str kind.name) :: ("input",.str input) ::
        writtenSome "transform" (transform.map transformToWire)) "input" = some (.str input) := by
        simp [get?_cons]
      have transform_at : get? (("kind",Value.str kind.name) :: ("input",.str input) ::
        writtenSome "transform" (transform.map transformToWire)) "transform" =
          transform.map transformToWire := by
        simp [get?_cons]
      rw [feedingFromWire]
      simp only [input_at,transform_at]
      exact bind_ok.mpr ⟨transform,read,constructed_new ⟨_,passed⟩⟩
    · cases transform with
      | none => cases kind <;> first | rfl | exact absurd rfl constant
      | some t =>
        obtain rfl : kind = .value := valued rfl
        rfl

def InputsUnambiguous (inputs : List (String × MappingSource)) : Prop :=
  ∀ e ∈ inputs, MappingSource.Unambiguous e.2

theorem inputs_roundTrip {inputs : List (String × MappingSource)}
    (unique : (inputs.map (·.1)).Nodup) (unambiguous : InputsUnambiguous inputs) :
    inputsFromWire str (inputsToWire inputs) = .ok inputs := by
  refine bind_ok.mpr ⟨_,items_dict ?_,?_⟩
  · rw [keys_written]
    exact unique
  · exact mapValues_written fun e member => mappingSource_roundTrip (unambiguous e member)

def InputFamilyMember.Unambiguous (m : InputFamilyMember) : Prop :=
  InputsUnambiguous m.fields.inputs

theorem member_distinct {m : MemberFields} (passed : m.check = .ok ()) :
    (m.inputs.map (·.1)).Nodup := by
  obtain ⟨_,-,rest⟩ := bind_ok.mp passed
  obtain ⟨_,-,rest⟩ := bind_ok.mp rest
  obtain ⟨_,unique,-⟩ := bind_ok.mp rest
  exact distinct_ok.mp unique

theorem inputFamilyMember_roundTrip {m : InputFamilyMember} (unambiguous : m.Unambiguous) :
    inputFamilyMemberFromWire str (inputFamilyMemberToWire m) = .ok m := by
  have read := @inputs_roundTrip str _ (member_distinct m.passed) unambiguous
  refine bind_ok.mpr ⟨_,rfl,bind_ok.mpr ⟨.str m.fields.suffix,by simp [item,get?_cons],?_⟩⟩
  refine bind_ok.mpr ⟨inputsToWire m.fields.inputs,by simp [item,get?_cons],?_⟩
  exact bind_ok.mpr ⟨m.fields.inputs,read,constructed_new m⟩

structure InputFamilyMapping.Unambiguous (m : InputFamilyMapping) : Prop where
  inputs : InputsUnambiguous m.fields.inputs
  members : ∀ x ∈ m.fields.members, InputFamilyMember.Unambiguous x

/-- What the check of an input family mapping leaves of the fields that its kind does not have. -/
structure InputMappingFields.Shaped (m : InputMappingFields) : Prop where
  unique : (m.inputs.map (·.1)).Nodup
  ids : m.memberIds = none ∨ m.memberIds = some "targetPositions"
  template : m.sourceTemplate = [] → m.sourceMemberPort = ""
  copied : m.kind = .copy → m.members = []
  listed : m.kind = .members → m = { kind := .members, members := m.members }

theorem inputMapping_shaped {m : InputMappingFields} (passed : m.check = .ok ()) : m.Shaped := by
  obtain ⟨_,ids,rest⟩ := bind_ok.mp passed
  obtain ⟨_,kinds,rest⟩ := bind_ok.mp rest
  obtain ⟨_,unique,rest⟩ := bind_ok.mp rest
  obtain ⟨_,-,rest⟩ := bind_ok.mp rest
  obtain ⟨_,-,rest⟩ := bind_ok.mp rest
  obtain ⟨_,-,rest⟩ := bind_ok.mp rest
  obtain ⟨_,-,port⟩ := bind_ok.mp rest
  refine ⟨distinct_ok.mp unique,?_,?_,?_,?_⟩
  · have only := refuseIf_ok.mp ids
    cases named : m.memberIds with
    | none => exact .inl rfl
    | some ids => simpa [named] using only
  · intro empty
    have only := refuseIf_ok.mp port
    simpa [empty] using only
  · intro copy
    rw [InputMappingFields.checkKind,copy] at kinds
    obtain ⟨_,-,rest⟩ := bind_ok.mp kinds
    obtain ⟨_,-,members⟩ := bind_ok.mp rest
    exact not_not.mp (refuseIf_ok.mp members)
  · intro listed
    rw [InputMappingFields.checkKind,listed] at kinds
    obtain ⟨_,carries,-⟩ := bind_ok.mp kinds
    have only := refuseIf_ok.mp carries
    obtain ⟨kind,sourceFamily,inputs,members,template,port,ids⟩ := m
    simp only [ne_eq,not_or,not_not,Bool.not_eq_true,Option.isSome_eq_false_iff,
      Option.isNone_iff_eq_none] at only
    obtain ⟨rfl,rfl,rfl,rfl,rfl⟩ := only
    obtain rfl : kind = .members := listed
    rfl

theorem get?_copyMembers (m : InputMappingFields) (key : String) :
    get? (copyMembers m) key =
      if key = "kind" then some (.str "copy")
      else if key = "sourceFamily" then some (.str m.sourceFamily)
      else if key = "inputs" then some (inputsToWire m.inputs)
      else if key = "sourceTemplate" ∧ m.sourceTemplate ≠ [] then some (sourceTemplateToWire m)
      else if key = "memberIds" then m.memberIds.map .str
      else none := by
  simp only [copyMembers,List.cons_append,List.nil_append,get?_cons,get?_writtenIf_append,
    get?_writtenSome,Bool.not_eq_true',List.isEmpty_eq_false_iff]

theorem sourceTemplate_roundTrip {m : InputMappingFields} {data : Object} (shaped : m.Shaped)
    (read : get? data "sourceTemplate" =
      if m.sourceTemplate ≠ [] then some (sourceTemplateToWire m) else none) :
    sourceTemplateFromWire data "copy" = .ok (m.sourceTemplate,m.sourceMemberPort) := by
  rw [sourceTemplateFromWire,read]
  cases template : m.sourceTemplate with
  | nil =>
    simp [shaped.template template]
  | cons id ids =>
    have port_at : get? (("inputs",Value.arr (m.sourceTemplate.map .str)) ::
        writtenIf (m.sourceMemberPort ≠ "") "memberPort" (.str m.sourceMemberPort)) "memberPort" =
        if m.sourceMemberPort ≠ "" then some (.str m.sourceMemberPort) else none := by
      simp [get?_cons,get?_writtenIf]
    rw [if_pos (by simp),sourceTemplateToWire]
    simp only [if_true]
    rw [if_pos]
    · refine bind_ok.mpr ⟨m.sourceTemplate,?_,bind_ok.mpr ⟨m.sourceMemberPort,?_,?_⟩⟩
      · simp [get?_cons,templateInputsFromWire,template,asStrings_str,asStrings]
      · rw [memberPortFromWire,port_at]
        by_cases port : m.sourceMemberPort = ""
        · simp [port]
        · simp [port]
      · rw [template]
        rfl
    · unfold writtenIf
      split <;> rfl

theorem memberIds_roundTrip {m : InputMappingFields} {data : Object} (shaped : m.Shaped)
    (read : get? data "memberIds" = m.memberIds.map .str) :
    memberIdsFromWire data "copy" = .ok m.memberIds := by
  rw [memberIdsFromWire,read]
  obtain none | some := shaped.ids
  · rw [none]
    rfl
  · rw [some]
    rfl

theorem inputFamilyMapping_roundTrip {m : InputFamilyMapping} (unambiguous : m.Unambiguous) :
    inputFamilyMappingFromWire str (inputFamilyMappingToWire m) = .ok m := by
  have shaped := inputMapping_shaped m.passed
  obtain ⟨fields,passed⟩ := m
  cases kind : fields.kind with
  | copy =>
    have read := get?_copyMembers fields
    have inputs := @inputs_roundTrip str _ shaped.unique unambiguous.inputs
    have written : inputFamilyMappingToWire ⟨fields,passed⟩ = .obj (copyMembers fields) := by
      rw [inputFamilyMappingToWire]
      simp only [kind]
    rw [written,inputFamilyMappingFromWire]
    refine bind_ok.mpr ⟨_,rfl,bind_ok.mpr ⟨.str "copy",by simp [item,read],?_⟩⟩
    refine bind_ok.mpr ⟨_,memberIds_roundTrip shaped (by simp [read]),?_⟩
    refine bind_ok.mpr ⟨_,sourceTemplate_roundTrip shaped (by simp [read]),?_⟩
    rw [if_pos (asStr_str _)]
    refine bind_ok.mpr ⟨.str fields.sourceFamily,by simp [item,read],?_⟩
    refine bind_ok.mpr ⟨inputsToWire fields.inputs,by simp [item,read],?_⟩
    refine bind_ok.mpr ⟨fields.inputs,inputs,?_⟩
    rw [constructed_ok,Checked.new_ok]
    obtain ⟨_,_,_,members,_,_,_⟩ := fields
    obtain rfl : _ = FamilyKind.copy := kind
    obtain rfl : members = [] := shaped.copied rfl
    rfl
  | members =>
    have members := mapM_written fun x inside =>
      @inputFamilyMember_roundTrip str _ (unambiguous.members x inside)
    have written : inputFamilyMappingToWire ⟨fields,passed⟩ = .obj [("kind",.str "members"),
        ("members",.arr (fields.members.map inputFamilyMemberToWire))] := by
      rw [inputFamilyMappingToWire]
      simp only [kind]
    rw [written,inputFamilyMappingFromWire]
    refine bind_ok.mpr ⟨_,rfl,bind_ok.mpr ⟨.str "members",by simp [item,get?_cons],?_⟩⟩
    refine bind_ok.mpr ⟨none,by simp [memberIdsFromWire,get?_cons],?_⟩
    refine bind_ok.mpr ⟨([],""),by simp [sourceTemplateFromWire,get?_cons],?_⟩
    rw [if_neg (by simp),if_pos (asStr_str _)]
    refine bind_ok.mpr ⟨.arr (fields.members.map inputFamilyMemberToWire),
      by simp [item,get?_cons],bind_ok.mpr ⟨_,members,?_⟩⟩
    rw [constructed_ok,Checked.new_ok]
    exact shaped.listed kind

theorem exactly_pair {a b : String} {v w : Value} : exactly [(a,v),(b,w)] [a,b] = true := by
  simp only [exactly,get?_cons,List.all_cons,List.all_nil]
  by_cases same : b = a
  · simp [same]
  · simp [same]

theorem outputFamilyMember_roundTrip (m : OutputFamilyMember) :
    outputFamilyMemberFromWire (outputFamilyMemberToWire m) = .ok m := by
  rw [outputFamilyMemberToWire,outputFamilyMemberFromWire,if_pos exactly_pair]
  simp only [get?_cons,if_true]
  exact constructed_new m

theorem outputMapping_shaped {m : OutputMappingFields} (passed : m.check = .ok ()) :
    (m.kind = .copy → m.members = []) ∧ (m.kind = .members → m.sourceFamily = "") := by
  constructor
  · intro copy
    rw [OutputMappingFields.check,copy] at passed
    obtain ⟨_,-,members⟩ := bind_ok.mp passed
    exact not_not.mp (refuseIf_ok.mp members)
  · intro listed
    rw [OutputMappingFields.check,listed] at passed
    obtain ⟨_,carries,-⟩ := bind_ok.mp passed
    exact not_not.mp (refuseIf_ok.mp carries)

theorem outputFamilyMapping_roundTrip (m : OutputFamilyMapping) :
    outputFamilyMappingFromWire (outputFamilyMappingToWire m) = .ok m := by
  obtain ⟨⟨kind,sourceFamily,members⟩,passed⟩ := m
  have shaped := outputMapping_shaped passed
  cases kind with
  | copy =>
    obtain rfl : members = [] := shaped.1 rfl
    rw [outputFamilyMappingToWire,outputFamilyMappingFromWire]
    simp only [get?_cons,if_true]
    rw [if_pos exactly_pair]
    exact constructed_new ⟨_,passed⟩
  | members =>
    obtain rfl : sourceFamily = "" := shaped.2 rfl
    have read := mapM_written fun x (_ : x ∈ members) => outputFamilyMember_roundTrip x
    rw [outputFamilyMappingToWire,outputFamilyMappingFromWire]
    simp only [get?_cons,if_true]
    rw [if_neg (by simp),if_pos exactly_pair]
    exact bind_ok.mpr ⟨members,read,constructed_new ⟨_,passed⟩⟩

theorem node_roundTrip (n : ReplacementNode) : nodeFromWire (nodeToWire n) = .ok n := by
  obtain ⟨⟨type,values⟩,passed⟩ := n
  obtain ⟨_,-,rest⟩ := bind_ok.mp passed
  obtain ⟨_,unique,-⟩ := bind_ok.mp rest
  have values_at : items ((get? (("type",Value.str type) ::
      writtenIf (!values.isEmpty) "values" (dict values)) "values").getD (.obj [])) =
      .ok values := by
    cases values with
    | nil => rfl
    | cons e rest =>
      simp only [get?_cons,get?_writtenIf]
      exact items_dict (distinct_ok.mp unique)
  refine bind_ok.mpr ⟨_,rfl,bind_ok.mpr ⟨type,by simp [textItem,get?_cons],?_⟩⟩
  exact bind_ok.mpr ⟨values,values_at,constructed_new ⟨_,passed⟩⟩

theorem link_roundTrip (link : ReplacementLink) : linkFromWire (linkToWire link) = .ok link := by
  refine bind_ok.mpr ⟨_,rfl,bind_ok.mpr ⟨link.fromAddress,by simp [textItem,get?_cons],?_⟩⟩
  exact bind_ok.mpr ⟨link.toAddress,by simp [textItem,get?_cons],rfl⟩

structure ReplacementCase.Unambiguous (c : ReplacementCase) : Prop where
  inputs : InputsUnambiguous c.fields.inputs
  families : ∀ e ∈ c.fields.inputFamilies, InputFamilyMapping.Unambiguous e.2

/-- The pairs that a case's check makes distinct. -/
structure CaseFields.Distinct (c : CaseFields) : Prop where
  nodes : c.localIds.Nodup
  slotVariants : (c.slotVariants.map (·.1)).Nodup
  inputs : (c.inputs.map (·.1)).Nodup
  inputFamilies : (c.inputFamilies.map (·.1)).Nodup
  outputFamilies : (c.outputFamilies.map (·.1)).Nodup
  outputs : (c.outputs.map (·.1)).Nodup

theorem case_distinct {c : CaseFields} (passed : c.check = .ok ()) : c.Distinct := by
  obtain ⟨_,-,rest⟩ := bind_ok.mp passed
  obtain ⟨_,nodes,rest⟩ := bind_ok.mp rest
  obtain ⟨_,slotVariants,rest⟩ := bind_ok.mp rest
  obtain ⟨_,inputs,rest⟩ := bind_ok.mp rest
  obtain ⟨_,families,rest⟩ := bind_ok.mp rest
  obtain ⟨_,-,rest⟩ := bind_ok.mp rest
  obtain ⟨_,outputs,-⟩ := bind_ok.mp rest
  obtain ⟨_,nodes,-⟩ := bind_ok.mp nodes
  obtain ⟨_,slotVariants,-⟩ := bind_ok.mp slotVariants
  obtain ⟨_,inputs,-⟩ := bind_ok.mp inputs
  obtain ⟨_,inputFamilies,families⟩ := bind_ok.mp families
  obtain ⟨_,-,families⟩ := bind_ok.mp families
  obtain ⟨_,outputFamilies,-⟩ := bind_ok.mp families
  obtain ⟨_,outputs,-⟩ := bind_ok.mp outputs
  exact ⟨distinct_ok.mp nodes,distinct_ok.mp slotVariants,distinct_ok.mp inputs,
    distinct_ok.mp inputFamilies,distinct_ok.mp outputFamilies,distinct_ok.mp outputs⟩

theorem get?_caseMembers (c : CaseFields) (key : String) :
    get? (caseMembers c) key =
      if key = "to" then some (.str c.target)
      else if key = "when" then c.whenPredicate.map predicateToWire
      else if key = "nodes" then
        c.nodes.map fun nodes => dict (nodes.map fun e => (e.1,nodeToWire e.2))
      else if key = "slotVariants" ∧ c.slotVariants ≠ [] then
        some (dict (c.slotVariants.map fun e => (e.1,.str e.2)))
      else if key = "inputs" ∧ c.inputs ≠ [] then some (inputsToWire c.inputs)
      else if key = "inputFamilies" ∧ c.inputFamilies ≠ [] then
        some (dict (c.inputFamilies.map fun e => (e.1,inputFamilyMappingToWire e.2)))
      else if key = "outputFamilies" ∧ c.outputFamilies ≠ [] then
        some (dict (c.outputFamilies.map fun e => (e.1,outputFamilyMappingToWire e.2)))
      else if key = "links" ∧ c.links ≠ [] then some (.arr (c.links.map linkToWire))
      else if key = "outputs" ∧ c.outputs ≠ [] then
        some (dict (c.outputs.map fun e => (e.1,.str e.2)))
      else none := by
  simp only [caseMembers,List.append_assoc,List.cons_append,List.nil_append,get?_cons,
    get?_writtenSome_append,get?_writtenIf_append,get?_writtenIf,Bool.not_eq_true',
    List.isEmpty_eq_false_iff]
  by_cases guard : key = "when"
  · simp [guard]
  · by_cases helpers : key = "nodes"
    · simp [helpers]
    · simp only [guard,helpers,if_false]

theorem choices_roundTrip (choices : List (String × String)) :
    mapValues choiceFromWire (choices.map fun e => (e.1,Value.str e.2)) = .ok choices :=
  mapValues_written fun _ _ => rfl

private theorem optional_items {α : Type} {pairs : List (String × α)} (f : α → Value)
    {found : Option Value} (unique : (pairs.map (·.1)).Nodup)
    (read : found = if pairs ≠ [] then some (dict (pairs.map fun e => (e.1,f e.2))) else none) :
    items (found.getD (.obj [])) = .ok (pairs.map fun e => (e.1,f e.2)) := by
  rw [read]
  split
  · refine items_dict ?_
    rw [keys_written]
    exact unique
  · rename_i empty
    rw [not_not.mp empty]
    rfl

theorem nodes_roundTrip {nodes : Option (List (String × ReplacementNode))}
    (unique : ((nodes.getD []).map (·.1)).Nodup) :
    nodesFromWire (nodes.map fun nodes => dict (nodes.map fun e => (e.1,nodeToWire e.2))) =
      .ok nodes := by
  cases nodes with
  | none => rfl
  | some nodes =>
    refine bind_ok.mpr ⟨_,items_dict ?_,bind_ok.mpr ⟨nodes,?_,rfl⟩⟩
    · rw [keys_written]
      exact unique
    · exact mapValues_written fun e _ => node_roundTrip e.2

theorem when_roundTrip (guard : Option ReplacementPredicate) :
    whenFromWire str (guard.map predicateToWire) = .ok guard := by
  cases guard with
  | none => rfl
  | some p =>
    have read := @predicate_roundTrip str p
    have data : ∃ members, predicateToWire p = .obj members := by
      cases p <;> exact ⟨_,predicateToWire.eq_def _⟩
    obtain ⟨members,written⟩ := data
    rw [Option.map_some,written]
    rw [written] at read
    exact bind_ok.mpr ⟨p,read,rfl⟩

theorem caseMembers_known (c : CaseFields) : unknownFields (caseMembers c) = [] := by
  refine List.eq_nil_iff_forall_not_mem.mpr fun key inside => ?_
  rw [unknownFields,Canonical.mem_sortedBy,List.mem_filter] at inside
  have found := get?_isSome_iff.mpr inside.1
  have unknown : key ∉ caseFieldNames := by simpa using inside.2
  simp only [caseFieldNames,List.mem_cons,List.not_mem_nil,or_false,not_or] at unknown
  rw [get?_caseMembers] at found
  simp [unknown] at found

theorem slotVariants_roundTrip {slotVariants : List (String × String)} {found : Option Value}
    (unique : (slotVariants.map (·.1)).Nodup)
    (read : found = if slotVariants ≠ [] then
      some (dict (slotVariants.map fun e => (e.1,.str e.2))) else none) :
    slotVariantsFromWire (found.getD (.obj [])) = .ok slotVariants := by
  have pairs := optional_items .str unique read
  cases data : found.getD (.obj []) with
  | obj members =>
    rw [data] at pairs
    rw [slotVariantsFromWire,Except.ok.inj pairs]
    exact choices_roundTrip slotVariants
  | null | bool | int | float | str | arr =>
    rw [data] at pairs
    cases pairs

theorem links_roundTrip {links : List ReplacementLink} {found : Option Value}
    (read : found = if links ≠ [] then some (.arr (links.map linkToWire)) else none) :
    each linkFromWire (found.getD (.arr [])) = .ok links := by
  rw [read]
  split
  · exact mapM_written fun link _ => link_roundTrip link
  · rename_i empty
    rw [not_not.mp empty]
    rfl

theorem case_roundTrip {c : ReplacementCase} (unambiguous : c.Unambiguous) :
    caseFromWire str (caseToWire c) = .ok c := by
  obtain ⟨c,passed⟩ := c
  have unique := case_distinct passed
  have read := get?_caseMembers c
  have inputs : inputsFromWire str ((get? (caseMembers c) "inputs").getD (.obj [])) =
      .ok c.inputs :=
    bind_ok.mpr ⟨_,optional_items mappingSourceToWire unique.inputs (by simp [read,inputsToWire]),
      mapValues_written fun e member => mappingSource_roundTrip (unambiguous.inputs e member)⟩
  have families := mapValues_written fun e member =>
    @inputFamilyMapping_roundTrip str _ (unambiguous.families e member)
  have outputFamilies := mapValues_written fun e (_ : e ∈ c.outputFamilies) =>
    outputFamilyMapping_roundTrip e.2
  refine bind_ok.mpr ⟨_,rfl,?_⟩
  rw [if_neg (not_not.mpr (caseMembers_known c))]
  refine bind_ok.mpr ⟨c.slotVariants,slotVariants_roundTrip unique.slotVariants (by simp [read]),?_⟩
  refine bind_ok.mpr ⟨.str c.target,by simp [item,read],?_⟩
  refine bind_ok.mpr ⟨c.whenPredicate,by simpa [read] using when_roundTrip c.whenPredicate,?_⟩
  refine bind_ok.mpr ⟨c.nodes,by simpa [read] using nodes_roundTrip unique.nodes,?_⟩
  refine bind_ok.mpr ⟨c.inputs,inputs,?_⟩
  refine bind_ok.mpr ⟨_,optional_items inputFamilyMappingToWire unique.inputFamilies
    (by simp [read]),bind_ok.mpr ⟨c.inputFamilies,families,?_⟩⟩
  refine bind_ok.mpr ⟨_,optional_items outputFamilyMappingToWire unique.outputFamilies
    (by simp [read]),bind_ok.mpr ⟨c.outputFamilies,outputFamilies,?_⟩⟩
  refine bind_ok.mpr ⟨c.links,links_roundTrip (by simp [read]),?_⟩
  refine bind_ok.mpr ⟨_,optional_items .str unique.outputs (by simp [read]),?_⟩
  have outputs : ((c.outputs.map fun e => (e.1,Value.str e.2)).map fun e => (e.1,asStr str e.2)) =
      c.outputs := by
    simp [Function.comp_def]
  rw [outputs]
  exact constructed_new ⟨c,passed⟩

def ReplacementRule.Unambiguous (r : ReplacementRule) : Prop :=
  ∀ c ∈ r.fields.cases, ReplacementCase.Unambiguous c

theorem get?_ruleMembers (r : RuleFields) (key : String) :
    get? (ruleMembers r) key =
      if key = "from" then some (.str r.fromType)
      else if key = "note" ∧ r.note ≠ "" then some (.str r.note)
      else if key = "migration" then r.migration.map migrationToWire
      else if key = "cases" then some (.arr (r.cases.map caseToWire))
      else none := by
  simp only [ruleMembers,List.append_assoc,List.cons_append,List.nil_append,get?_cons,
    get?_writtenSome_append,get?_writtenIf_append,get?_nil,decide_eq_true_eq]
  by_cases moved : key = "migration"
  · simp [moved]
  · simp only [moved,if_false]

theorem migration_roundTrip (migration : Option ReplacementMigration) :
    migrationFromWire (migration.map migrationToWire) = .ok migration := by
  cases migration with
  | none => rfl
  | some m =>
    have whole : exactly [("historicalInputs",Value.arr (m.fields.historicalInputs.map .str))]
        ["historicalInputs"] = true := rfl
    rw [Option.map_some,migrationToWire,migrationFromWire,if_pos whole]
    simp only [get?_cons,if_true,asStrings_str]
    exact bind_ok.mpr ⟨m,constructed_new m,rfl⟩

theorem rule_roundTrip {r : ReplacementRule} (unambiguous : r.Unambiguous) :
    ruleFromWire str (ruleToWire r) = .ok r := by
  obtain ⟨r,passed⟩ := r
  have read := get?_ruleMembers r
  have cases := mapM_written fun c member => @case_roundTrip str _ (unambiguous c member)
  have note : asStr str ((get? (ruleMembers r) "note").getD (.str "")) = r.note := by
    by_cases note : r.note = ""
    · simp [read,note]
    · simp [read,note]
  refine bind_ok.mpr ⟨_,rfl,?_⟩
  refine bind_ok.mpr ⟨r.migration,by simpa [read] using migration_roundTrip r.migration,?_⟩
  refine bind_ok.mpr ⟨.str r.fromType,by simp [item,read],?_⟩
  refine bind_ok.mpr ⟨.arr (r.cases.map caseToWire),by simp [item,read],?_⟩
  refine bind_ok.mpr ⟨r.cases,cases,?_⟩
  rw [note]
  exact constructed_new ⟨r,passed⟩

theorem transform_read {wire : Value} {t : ValueTransform}
    (read : transformFromWire str wire = .ok t) : t.Unambiguous := by
  obtain ⟨data,-,rest⟩ := bind_ok.mp read
  obtain ⟨kind,-,rest⟩ := bind_ok.mp rest
  split at rest
  · obtain ⟨_,-,rest⟩ := bind_ok.mp rest
    obtain ⟨pairs,-,rest⟩ := bind_ok.mp rest
    rw [constructed_ok,Checked.new_ok] at rest
    rw [ValueTransform.Unambiguous,rest]
    exact (Dict.ofList _).distinct
  · split at rest
    · obtain ⟨_,-,rest⟩ := bind_ok.mp rest
      rw [constructed_ok,Checked.new_ok] at rest
      rw [ValueTransform.Unambiguous,rest]
      exact List.nodup_nil
    · cases rest

theorem sourceTransform_read {found : Option Value} {transform : Option ValueTransform}
    (read : sourceTransform str found = .ok transform) :
    ∀ t ∈ transform, ValueTransform.Unambiguous t := by
  unfold sourceTransform at read
  split at read
  · cases read
    exact nofun
  · cases read
    exact nofun
  · obtain ⟨t,made,same⟩ := bind_ok.mp read
    obtain rfl := Except.ok.inj same
    intro t' member
    obtain rfl := Option.some.inj member
    exact transform_read made

theorem mappingSource_read {wire : Value} {s : MappingSource}
    (read : mappingSourceFromWire str wire = .ok s) : s.Unambiguous := by
  have feeding (data : Object) (kind : MappingSourceKind)
      (read : feedingFromWire str data kind = .ok s) : s.Unambiguous := by
    unfold feedingFromWire at read
    split at read
    · obtain ⟨transform,made,rest⟩ := bind_ok.mp read
      rw [constructed_ok,Checked.new_ok] at rest
      rw [MappingSource.Unambiguous,rest]
      exact sourceTransform_read made
    · cases read
  unfold mappingSourceFromWire at read
  split at read
  · split at read
    · split at read
      · cases read
      · split at read
        · split at read
          · rw [constantFromWire,constructed_ok,Checked.new_ok] at read
            rw [MappingSource.Unambiguous,read]
            exact nofun
          · exact feeding _ _ read
        · cases read
    · cases read
  · cases read

theorem inputs_read {wire : Value} {inputs : List (String × MappingSource)}
    (read : inputsFromWire str wire = .ok inputs) : InputsUnambiguous inputs := by
  obtain ⟨pairs,-,rest⟩ := bind_ok.mp read
  intro e member
  obtain ⟨w,made⟩ := mapValues_image rest e member
  exact mappingSource_read made

theorem inputFamilyMember_read {wire : Value} {m : InputFamilyMember}
    (read : inputFamilyMemberFromWire str wire = .ok m) : m.Unambiguous := by
  obtain ⟨_,-,rest⟩ := bind_ok.mp read
  obtain ⟨_,-,rest⟩ := bind_ok.mp rest
  obtain ⟨_,-,rest⟩ := bind_ok.mp rest
  obtain ⟨inputs,made,rest⟩ := bind_ok.mp rest
  rw [constructed_ok,Checked.new_ok] at rest
  rw [InputFamilyMember.Unambiguous,rest]
  exact inputs_read made

theorem each_image {α : Type} {read : Value → Except Failure α} {v : Value} {xs : List α}
    (done : each read v = .ok xs) : ∀ x ∈ xs, ∃ w, read w = .ok x := by
  intro x member
  unfold each at done
  split at done
  · obtain ⟨w,-,made⟩ := mapM_image done x member
    exact ⟨w,made⟩
  · obtain ⟨_,-,made⟩ := mapM_image done x member
    exact ⟨_,made⟩
  · obtain ⟨_,-,made⟩ := mapM_image done x member
    exact ⟨_,made⟩
  · cases done

theorem inputFamilyMapping_read {wire : Value} {m : InputFamilyMapping}
    (read : inputFamilyMappingFromWire str wire = .ok m) : m.Unambiguous := by
  obtain ⟨_,-,rest⟩ := bind_ok.mp read
  obtain ⟨_,-,rest⟩ := bind_ok.mp rest
  obtain ⟨_,-,rest⟩ := bind_ok.mp rest
  obtain ⟨_,-,rest⟩ := bind_ok.mp rest
  split at rest
  · obtain ⟨_,-,rest⟩ := bind_ok.mp rest
    obtain ⟨_,-,rest⟩ := bind_ok.mp rest
    obtain ⟨inputs,made,rest⟩ := bind_ok.mp rest
    rw [constructed_ok,Checked.new_ok] at rest
    constructor
    · rw [rest]
      exact inputs_read made
    · rw [rest]
      exact nofun
  · split at rest
    · obtain ⟨_,-,rest⟩ := bind_ok.mp rest
      obtain ⟨members,made,rest⟩ := bind_ok.mp rest
      rw [constructed_ok,Checked.new_ok] at rest
      constructor
      · rw [rest]
        exact nofun
      · rw [rest]
        intro x member
        obtain ⟨w,made⟩ := each_image made x member
        exact inputFamilyMember_read made
    · cases rest

theorem case_read {wire : Value} {c : ReplacementCase} (read : caseFromWire str wire = .ok c) :
    c.Unambiguous := by
  obtain ⟨_,-,rest⟩ := bind_ok.mp read
  split at rest
  · cases rest
  · obtain ⟨_,-,rest⟩ := bind_ok.mp rest
    obtain ⟨_,-,rest⟩ := bind_ok.mp rest
    obtain ⟨_,-,rest⟩ := bind_ok.mp rest
    obtain ⟨_,-,rest⟩ := bind_ok.mp rest
    obtain ⟨inputs,inputsMade,rest⟩ := bind_ok.mp rest
    obtain ⟨_,-,rest⟩ := bind_ok.mp rest
    obtain ⟨families,familiesMade,rest⟩ := bind_ok.mp rest
    obtain ⟨_,-,rest⟩ := bind_ok.mp rest
    obtain ⟨_,-,rest⟩ := bind_ok.mp rest
    obtain ⟨_,-,rest⟩ := bind_ok.mp rest
    obtain ⟨_,-,rest⟩ := bind_ok.mp rest
    rw [constructed_ok,Checked.new_ok] at rest
    constructor
    · rw [rest]
      exact inputs_read inputsMade
    · rw [rest]
      intro e member
      obtain ⟨w,made⟩ := mapValues_image familiesMade e member
      exact inputFamilyMapping_read made

theorem rule_read {wire : Value} {r : ReplacementRule} (read : ruleFromWire str wire = .ok r) :
    r.Unambiguous := by
  obtain ⟨_,-,rest⟩ := bind_ok.mp read
  obtain ⟨_,-,rest⟩ := bind_ok.mp rest
  obtain ⟨_,-,rest⟩ := bind_ok.mp rest
  obtain ⟨_,-,rest⟩ := bind_ok.mp rest
  obtain ⟨cases,made,rest⟩ := bind_ok.mp rest
  rw [constructed_ok,Checked.new_ok] at rest
  rw [ReplacementRule.Unambiguous,rest]
  intro c member
  obtain ⟨w,made⟩ := each_image made c member
  exact case_read made

/-- A rule comes back from the wire as it was exactly when none of its transforms renames a source
value twice; every rule that was read comes back again. -/
theorem rule_on_the_wire (str : Value → String) :
    (∀ r : ReplacementRule, ruleFromWire str (ruleToWire r) = .ok r ↔ r.Unambiguous) ∧
      ∀ wire r, ruleFromWire str wire = .ok r → ruleFromWire str (ruleToWire r) = .ok r :=
  ⟨fun _ => ⟨rule_read,rule_roundTrip⟩,fun _ _ read => rule_roundTrip (rule_read read)⟩

def renamedTwice : ValueTransform :=
  ⟨{ kind := .enumRename, map := [("fast","quick"),("fast","rapid")] },rfl⟩

def renamingSource : MappingSource :=
  ⟨{ kind := .value, input := "mode", transform := some renamedTwice },rfl⟩

def renamingCase : ReplacementCase :=
  ⟨{ target := "Sampler", inputs := [("mode",renamingSource)] },rfl⟩

def renamingRule : ReplacementRule := ⟨{ fromType := "OldSampler", cases := [renamingCase] },rfl⟩

/-- The second target of the source value is lost on the wire. -/
theorem renamed_twice_lost :
    ruleFromWire (fun _ => "") (ruleToWire renamingRule) ≠ .ok renamingRule := by
  intro read
  have case_unambiguous := rule_read read renamingCase List.mem_cons_self
  have source := case_unambiguous.inputs ("mode",renamingSource) List.mem_cons_self
  have transform : renamedTwice.Unambiguous := source renamedTwice rfl
  simp [ValueTransform.Unambiguous,renamedTwice] at transform

end Dinkster.Replacement
