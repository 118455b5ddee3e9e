import Dinkster.Server.FederatedCatalog

/-! The generation of a catalog names its items and aliases: two catalogs with one generation text
are one catalog. A candidate is read back from its JSON form member by member. -/
namespace Dinkster.Federated
open Canonical Fallible Json Object

@[simp] theorem sortKeys_strings (values : List String) :
    sortKeys (strings values) = strings values := by
  simp [strings,sortKeys,sortItems_eq]

theorem strings_injective {values values' : List String} (same : strings values = strings values') :
    values = values' := by
  have texts := Value.arr.inj same
  exact List.map_injective_iff.mpr (fun _ _ equal => Value.str.inj equal) texts

theorem AssetRef.encode_injective {r r' : AssetRef}
    (same : sortKeys r.encode = sortKeys r'.encode) : r = r' := by
  have at_ := member_of_sorted (by simp) (by simp) same
  have digest := at_ "digest"
  have name := at_ "name"
  have size := at_ "size"
  have mediaType := at_ "mediaType"
  have virtualPath := at_ "virtualPath"
  simp only [get?_cons,String.reduceEq,if_true,if_false,Option.map_some,sortKeys,Option.some.injEq,
    Value.str.injEq,Value.int.injEq] at digest name size mediaType virtualPath
  cases r
  cases r'
  simp_all

theorem str_option {a b : Option String}
    (same : (a.map Value.str).map sortKeys = (b.map Value.str).map sortKeys) : a = b := by
  cases a <;> cases b <;> simp_all [sortKeys]

theorem int_option {a b : Option Int}
    (same : (a.map Value.int).map sortKeys = (b.map Value.int).map sortKeys) : a = b := by
  cases a <;> cases b <;> simp_all [sortKeys]

theorem ProviderRequirementsV1.encode_injective {r r' : ProviderRequirementsV1}
    (same : sortKeys r.encode = sortKeys r'.encode) : r = r' := by
  have at_ := present_sorted (by simp) (by simp) same
  have credential := at_ "credential"
  have license := at_ "license"
  have cost := at_ "cost"
  have override := at_ "policyOverride"
  simp only [List.lookup_cons,String.reduceBEq,Option.join_some] at credential license cost override
  cases r
  cases r'
  exact ProviderRequirementsV1.mk.injEq .. ▸
    ⟨str_option credential,str_option license,str_option cost,str_option override⟩

theorem SourceIdentity.encode_injective {s s' : SourceIdentity}
    (same : sortKeys s.encode = sortKeys s'.encode) : s = s' := by
  have at_ := member_of_sorted (by simp) (by simp) same
  have provider := at_ "providerId"
  have source := at_ "sourceId"
  simp only [get?_cons,String.reduceEq,if_true,if_false,Option.map_some,sortKeys,Option.some.injEq,
    Value.str.injEq] at provider source
  cases s
  cases s'
  simp_all

theorem SourceState.text_injective {s s' : SourceState} (same : s.text = s'.text) : s = s' := by
  cases s <;> cases s' <;> simp_all [SourceState.text]

theorem Availability.text_injective {a a' : Availability} (same : a.text = a'.text) : a = a' := by
  cases a <;> cases a' <;> simp_all [Availability.text]

theorem Compatibility.text_injective {c c' : Compatibility} (same : c.text = c'.text) : c = c' := by
  cases c <;> cases c' <;> simp_all [Compatibility.text]

theorem ProviderSourceV1.encode_injective {s s' : ProviderSourceV1}
    (same : sortKeys s.encode = sortKeys s'.encode) : s = s' := by
  have at_ := member_of_sorted (by simp) (by simp) same
  have source := at_ "source"
  have status := at_ "status"
  have reason := at_ "reason"
  have requires := at_ "requires"
  simp only [get?_cons,String.reduceEq,if_true,if_false,Option.map_some,Option.some.injEq]
    at source status reason requires
  simp only [sortKeys,Value.str.injEq] at status reason
  have identity := SourceIdentity.encode_injective source
  have state := SourceState.text_injective status
  have requirements := ProviderRequirementsV1.encode_injective requires
  cases s
  cases s'
  simp_all

private theorem arr_injective {α : Type} {encode : α → Value}
    (injective : ∀ {a b : α}, sortKeys (encode a) = sortKeys (encode b) → a = b) {xs ys : List α}
    (same : sortKeys (.arr (xs.map encode)) = sortKeys (.arr (ys.map encode))) : xs = ys := by
  have listed := sortKeys_arr_inj same
  rw [List.map_map,List.map_map] at listed
  exact List.map_injective_iff.mpr (fun _ _ equal => injective equal) listed

private theorem requirements_injective {r r' : CandidateRequirementsV1}
    (same : sortKeys (.obj [("loaders",strings r.loaders),("runtimes",strings r.runtimes),
      ("hardware",strings r.hardware)]) = sortKeys (.obj [("loaders",strings r'.loaders),
      ("runtimes",strings r'.runtimes),("hardware",strings r'.hardware)])) : r = r' := by
  have at_ := member_of_sorted (by simp) (by simp) same
  have loaders := at_ "loaders"
  have runtimes := at_ "runtimes"
  have hardware := at_ "hardware"
  simp only [get?_cons,String.reduceEq,if_true,if_false,Option.map_some,Option.some.injEq,
    sortKeys_strings] at loaders runtimes hardware
  cases r
  cases r'
  exact CandidateRequirementsV1.mk.injEq .. ▸
    ⟨strings_injective loaders,strings_injective runtimes,strings_injective hardware⟩

private theorem status_injective {status status' reason reason' : String}
    (same : sortKeys (.obj [("status",.str status),("reason",.str reason)]) =
      sortKeys (.obj [("status",.str status'),("reason",.str reason')])) :
    status = status' ∧ reason = reason' := by
  have at_ := member_of_sorted (by simp) (by simp) same
  have first := at_ "status"
  have second := at_ "reason"
  simp only [get?_cons,String.reduceEq,if_true,if_false,Option.map_some,sortKeys,Option.some.injEq,
    Value.str.injEq] at first second
  exact ⟨first,second⟩

theorem encodeCandidate_injective {c c' : CandidateV1}
    (same : sortKeys (encodeCandidate c) = sortKeys (encodeCandidate c')) : c = c' := by
  have at_ := present_sorted (by simp [Candidate.members]) (by simp [Candidate.members]) same
  have logicalId := at_ "logicalId"
  have family := at_ "family"
  have assetKind := at_ "assetKind"
  have variantId := at_ "variantId"
  have dtype := at_ "dtype"
  have quantization := at_ "quantization"
  have format := at_ "format"
  have role := at_ "role"
  have requirements := at_ "requirements"
  have digest := at_ "digest"
  have availability := at_ "availability"
  have compatibility := at_ "compatibility"
  have providerSources := at_ "providerSources"
  have size := at_ "size"
  have mediaType := at_ "mediaType"
  have assetRef := at_ "assetRef"
  simp only [Candidate.members,List.lookup_cons,String.reduceBEq,Option.join_some,Option.map_some,
    Option.some.injEq] at logicalId family assetKind variantId dtype quantization format role
  simp only [Candidate.members,List.lookup_cons,String.reduceBEq,Option.join_some,Option.map_some,
    Option.some.injEq] at requirements digest availability compatibility providerSources
  simp only [Candidate.members,List.lookup_cons,String.reduceBEq,Option.join_some]
    at size mediaType assetRef
  simp only [sortKeys,Value.str.injEq] at logicalId family assetKind variantId dtype quantization
  simp only [sortKeys,Value.str.injEq] at format role digest
  have needs := requirements_injective requirements
  obtain ⟨available,whyAvailable⟩ := status_injective availability
  obtain ⟨fits,whyFits⟩ := status_injective compatibility
  have sources := arr_injective ProviderSourceV1.encode_injective providerSources
  have sizes := int_option size
  have types := str_option mediaType
  have refs : c.fields.assetRef = c'.fields.assetRef := by
    cases here : c.fields.assetRef <;> cases there : c'.fields.assetRef <;>
      simp only [here,there,Option.map_none,Option.map_some,reduceCtorEq,Option.some.injEq]
        at assetRef ⊢
    exact AssetRef.encode_injective assetRef
  have status := Availability.text_injective available
  have compatible := Compatibility.text_injective fits
  clear at_ same
  obtain ⟨fields,checked⟩ := c
  obtain ⟨fields',checked'⟩ := c'
  cases fields
  cases fields'
  simp_all

private theorem alias_injective {e e' : AliasKey × List String}
    (same : sortKeys (strings ((ofLex e.1).1 :: (ofLex e.1).2 :: e.2)) =
      sortKeys (strings ((ofLex e'.1).1 :: (ofLex e'.1).2 :: e'.2))) : e = e' := by
  rw [sortKeys_strings,sortKeys_strings] at same
  obtain ⟨first,rest⟩ := List.cons.inj (strings_injective same)
  obtain ⟨second,names⟩ := List.cons.inj rest
  obtain ⟨⟨logicalId,variantId⟩,values⟩ := e
  obtain ⟨⟨logicalId',variantId'⟩,values'⟩ := e'
  exact Prod.ext (Prod.ext first second) names

theorem generationInput_injective {items items' : List CandidateV1}
    {aliases aliases' : List (AliasKey × List String)}
    (same : sortedText (generationInput items aliases) =
      sortedText (generationInput items' aliases')) : items = items' ∧ aliases = aliases' := by
  have at_ := member_of_sorted (by simp) (by simp) (sortedText_injective same)
  have first := at_ "items"
  have second := at_ "aliases"
  simp only [get?_cons,String.reduceEq,if_true,if_false,Option.map_some,Option.some.injEq]
    at first second
  exact ⟨arr_injective encodeCandidate_injective first,arr_injective alias_injective second⟩

variable {lib : Library}

/-- What the generation of a snapshot digests. -/
def CatalogSnapshot.text (s : CatalogSnapshot) : List Char :=
  sortedText (generationInput s.items s.aliases)

end Dinkster.Federated
