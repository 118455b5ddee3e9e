import Dinkster.Lib.Collect
import Dinkster.Server.FederatedCatalog

/-! What a scope's catalog depends on: the unscoped facts, the scope's own rows and the rows of the
providers that its policy names, each as a set. Everything is carried from one listing to another
through the lookups, which is all that the candidates are made from. -/
namespace Dinkster.Federated
open Canonical Fallible

section ByKey

variable {κ ν ω : Type} [LinearOrder κ]

private theorem byKey_strict (d : Dict κ ν) : (byKey d).Pairwise fun a b => a.1 < b.1 :=
  sortedBy_strict (fun p : κ × ν => p.1) d.distinct

theorem byKey_congr {d e : Dict κ ν} {f : ν → ω}
    (same : ∀ k, (d.get? k).map f = (e.get? k).map f) :
    (byKey d).map (fun p => (p.1,f p.2)) = (byKey e).map fun p => (p.1,f p.2) := by
  have strict (d : Dict κ ν) : ((byKey d).map fun p => (p.1,f p.2)).Pairwise
      fun a b => a.1 < b.1 := by
    rw [List.pairwise_map]
    exact byKey_strict d
  have members (d : Dict κ ν) (p : κ × ω) :
      p ∈ (byKey d).map (fun p => (p.1,f p.2)) ↔ (d.get? p.1).map f = some p.2 := by
    obtain ⟨k,w⟩ := p
    simp only [List.mem_map,Prod.mk.injEq,Option.map_eq_some_iff,byKey,mem_sortedBy]
    constructor
    · rintro ⟨⟨k,v⟩,inside,rfl,rfl⟩
      exact ⟨v,(d.get?_eq_some_iff k v).mpr inside,rfl⟩
    · rintro ⟨v,held,rfl⟩
      exact ⟨(k,v),(d.get?_eq_some_iff k v).mp held,rfl,rfl⟩
  have distinct (d : Dict κ ν) : ((byKey d).map fun p => (p.1,f p.2)).Nodup :=
    (strict d).imp fun below equal => absurd (equal ▸ below) (lt_irrefl _)
  refine List.Perm.eq_of_pairwise (fun a b _ _ below above => ?_) (strict d) (strict e)
    ((List.perm_ext_iff_of_nodup (distinct d) (distinct e)).mpr fun p => ?_)
  · exact absurd (below.trans above) (lt_irrefl _)
  · rw [members,members,same]

theorem byKey_congr_id {d e : Dict κ ν} (same : ∀ k, d.get? k = e.get? k) : byKey d = byKey e := by
  have mapped := byKey_congr (f := id) (d := d) (e := e) fun k => by rw [same]
  simpa using mapped

end ByKey

/-- The same visible rows, in any order; nothing is said of other scopes and providers. -/
structure SeenAlike (facts facts' : ResolutionSnapshot) (sources sources' : List AcquisitionSource)
    (providers : Finset String) (scope : String) : Prop where
  models : facts.logicalModels.Perm facts'.logicalModels
  variants : facts.variants.Perm facts'.variants
  links : facts.links.Perm facts'.links
  aliases : facts.aliases.Perm facts'.aliases
  locals : (facts.locals.filter (·.scope == scope)).Perm (facts'.locals.filter (·.scope == scope))
  mounts : (facts.mounts.filter (·.scope == scope)).Perm (facts'.mounts.filter (·.scope == scope))
  mirrors : (facts.mirrors.filter (·.source.providerId ∈ providers)).Perm
    (facts'.mirrors.filter (·.source.providerId ∈ providers))
  sources : (sources.filter (·.source.providerId ∈ providers)).Perm
    (sources'.filter (·.source.providerId ∈ providers))

/-- `facts` lists the rows of a store's snapshot, in any order. -/
structure Lists (facts rows : ResolutionSnapshot) : Prop where
  models : facts.logicalModels.Perm rows.logicalModels
  variants : facts.variants.Perm rows.variants
  links : facts.links.Perm rows.links
  aliases : facts.aliases.Perm rows.aliases
  locals : facts.locals.Perm rows.locals
  mounts : facts.mounts.Perm rows.mounts
  mirrors : facts.mirrors.Perm rows.mirrors

theorem Lists.refl (rows : ResolutionSnapshot) : Lists rows rows :=
  ⟨.refl _,.refl _,.refl _,.refl _,.refl _,.refl _,.refl _⟩

variable {lib : Library} {facts facts' : ResolutionSnapshot}
  {sources sources' : List AcquisitionSource} {providers : Finset String} {scope : String}
  {context : Option ResolveContextV1}

private theorem add_ok {f g : SourceFacts} {source : AcquisitionSource}
    (done : f.add source = .ok g) :
    (∀ old, f.identities.get? source.identity = some old → old = source) ∧
      g.identities = f.identities.set source.identity source := by
  unfold SourceFacts.add at done
  split at done
  · cases done
  · split at done
    · cases done
    · rename_i clear
      rw [← Except.ok.inj done]
      refine ⟨fun old held => ?_,rfl⟩
      simpa [held] using clear

private theorem add_separates (list : List AcquisitionSource) {f g : SourceFacts}
    (done : list.foldlM SourceFacts.add f = .ok g) :
    (∀ s ∈ list, g.identities.get? s.identity = some s) ∧
      ∀ k s, f.identities.get? k = some s → g.identities.get? k = some s := by
  induction list generalizing f with
  | nil =>
    obtain rfl := Except.ok.inj done
    simp
  | cons source rest ih =>
    obtain ⟨next,first,later⟩ := bind_ok.mp done
    obtain ⟨agrees,set⟩ := add_ok first
    obtain ⟨others,kept⟩ := ih later
    refine ⟨List.forall_mem_cons.mpr ⟨?_,others⟩,fun k s held => kept k s ?_⟩
    · exact kept _ _ (by rw [set,Dict.get?_set_self])
    · rw [set]
      by_cases same : k = source.identity
      · subst same
        rw [Dict.get?_set_self,agrees s held]
      · rw [Dict.get?_set_ne _ _ same,held]

private theorem authorized_sorted (sources : List AcquisitionSource) (providers : Finset String) :
    (authorized sources providers).Pairwise fun a b =>
      toLex (a.source.providerId,toLex (a.source.sourceId,a.digest)) ≤
        toLex (b.source.providerId,toLex (b.source.sourceId,b.digest)) :=
  (sortedBy_pairwise _ sources).sublist List.filter_sublist

private theorem authorized_perm (sources : List AcquisitionSource) (providers : Finset String) :
    (authorized sources providers).Perm (sources.filter (·.source.providerId ∈ providers)) :=
  (sortedBy_perm _ sources).filter _

theorem sourceFacts_alike {known : SourceFacts}
    (alike : (sources.filter (·.source.providerId ∈ providers)).Perm
      (sources'.filter (·.source.providerId ∈ providers)))
    (done : sourceFacts sources providers = .ok known) :
    sourceFacts sources' providers = .ok known := by
  have held := (add_separates _ done).1
  have listed : (authorized sources providers).Perm (authorized sources' providers) :=
    (authorized_perm sources providers).trans
      (alike.trans (authorized_perm sources' providers).symm)
  have same : authorized sources providers = authorized sources' providers := by
    refine List.Perm.eq_of_pairwise (fun a b left right below above => ?_)
      (authorized_sorted sources providers) (authorized_sorted sources' providers) listed
    -- equal sort keys are equal identities, and an identity has one source
    have key := toLex_inj.mp (le_antisymm below above)
    simp only [Prod.mk.injEq,toLex_inj] at key
    have identity : a.identity = b.identity := by
      simp [AcquisitionSource.identity,key.1,key.2.1]
    have first := held a left
    have second := held b (listed.mem_iff.mpr right)
    exact Option.some.inj (first.symm.trans (identity ▸ second))
  rw [sourceFacts,← same]
  exact done

/-- Both make the same candidates. -/
structure Visible.Same (v w : Visible) : Prop where
  logical : ∀ k, v.logical.get? k = w.logical.get? k
  variants : ∀ k, v.variants.get? k = w.variants.get? k
  localsByDigest : ∀ k, v.localsByDigest.get? k = w.localsByDigest.get? k
  mountsByKindDigest : v.mountsByKindDigest = w.mountsByKindDigest
  sources : v.sources = w.sources
  mirrors : ∀ k, v.mirrors.get? k = w.mirrors.get? k

private theorem names_distinct {ρ κ : Type} {rows : List ρ} {key : ρ → κ} {ν : Type} {value : ρ → ν}
    (distinct : (rows.map key).Nodup) : ((rows.map fun r => (key r,value r)).map (·.1)).Nodup := by
  rwa [List.map_map]

private theorem mountsByKindDigest_alike {mounts mounts' : List MountMaterialization}
    (listed : mounts.Perm mounts')
    (identity : (mounts.map fun r => (r.scope,r.mountId,r.ref.virtualPath)).Nodup)
    (one : ∀ r ∈ mounts, r.scope = scope) :
    mountsByKindDigest mounts = mountsByKindDigest mounts' := by
  unfold mountsByKindDigest
  rw [sortedBy_of_perm listed]
  intro a left b right same
  simp only [toLex_inj,Prod.mk.injEq] at same
  exact List.inj_on_of_nodup_map identity left right (by
    rw [one a left,one b right,same.2.1,same.2.2])

private theorem locals_distinct (locals : List LocalMaterialization)
    (identity : (locals.map fun r => (r.scope,r.ref.digest)).Nodup) (scope : String) :
    ((locals.filter (·.scope == scope)).map fun r => r.ref.digest).Nodup := by
  refine (identity.of_map.filter _).map_on fun a left b right same => ?_
  obtain ⟨left,here⟩ := List.mem_filter.mp left
  obtain ⟨right,here'⟩ := List.mem_filter.mp right
  refine List.inj_on_of_nodup_map identity left right ?_
  rw [beq_iff_eq.mp here,beq_iff_eq.mp here',same]

private theorem mirrors_distinct (mirrors : List ProviderMirror)
    (identity : (mirrors.map (·.source)).Nodup) (providers : Finset String) :
    ((mirrors.filter (·.source.providerId ∈ providers)).map fun m =>
      (m.source.providerId,m.source.sourceId,m.digest)).Nodup := by
  have kept := identity.sublist (List.filter_sublist (p := fun m : ProviderMirror =>
    decide (m.source.providerId ∈ providers)).map (·.source))
  refine List.Nodup.of_map (fun key : SourceKey => SourceIdentity.mk key.1 key.2.1) ?_
  rwa [List.map_map]

theorem visible_alike {v : Visible}
    (alike : SeenAlike facts facts' sources sources' providers scope)
    (mounts : facts.mounts.Perm facts'.mounts) (one : ∀ r ∈ facts.mounts, r.scope = scope)
    (done : visible facts sources providers scope = .ok v) :
    ∃ w, visible facts' sources' providers scope = .ok w ∧ v.Same w := by
  obtain ⟨known,found,made⟩ := bind_ok.mp done
  refine ⟨_,bind_ok.mpr ⟨known,sourceFacts_alike alike.sources found,rfl⟩,?_⟩
  obtain rfl := Except.ok.inj made
  refine ⟨?_,?_,?_,mountsByKindDigest_alike mounts facts.mount_identity one,rfl,?_⟩
  · exact Dict.get?_ofList_perm (names_distinct facts.logical_model_identity) (alike.models.map _)
  · exact Dict.get?_ofList_perm (names_distinct facts.variant_identity) (alike.variants.map _)
  · exact Dict.get?_ofList_perm (names_distinct
      (locals_distinct facts.locals facts.local_identity scope)) (alike.locals.map _)
  · exact Dict.get?_ofList_perm (names_distinct
      (mirrors_distinct facts.mirrors facts.provider_source_identity providers))
      (alike.mirrors.map _)

section Same

variable {v w : Visible}

private theorem providerSource_same (same : v.Same w) :
    providerSource lib v.mirrors = providerSource lib w.mirrors := by
  funext source
  simp only [providerSource,same.mirrors]

private theorem addAuthority_same (same : v.Same w) :
    addAuthority lib v.mirrors = addAuthority lib w.mirrors := by
  funext state source
  simp only [addAuthority,providerSource_same same]

theorem linkCandidate_same (same : v.Same w) (model : LogicalModel) (variant : ModelVariant)
    (link : VariantArtifact) :
    v.linkCandidate lib context model variant link =
      w.linkCandidate lib context model variant link := by
  have ref : v.ref link.digest model.assetKind = w.ref link.digest model.assetKind := by
    rw [Visible.ref,same.localsByDigest,same.mountsByKindDigest,Visible.ref]
  have authorities : v.authorities link.digest model.assetKind =
      w.authorities link.digest model.assetKind := by
    rw [Visible.authorities,same.sources,Visible.authorities]
  unfold Visible.linkCandidate
  rw [ref,authorities,addAuthority_same same]

theorem linked_same (same : v.Same w) : v.linked lib context = w.linked lib context := by
  funext link
  simp only [Visible.linked,same.logical,same.variants,linkCandidate_same same]

theorem representedMounts_same (same : v.Same w) {links links' : List VariantArtifact}
    (listed : links.Perm links') :
    mounted (v.representedMounts links) = mounted (w.representedMounts links') := by
  have members : (v.representedMounts links).Perm (w.representedMounts links') := by
    simp only [Visible.representedMounts,same.logical,same.variants]
    exact listed.filterMap _
  funext entry
  simp only [mounted,members.mem_iff]

end Same

private theorem addMade_collects {ρ : Type} (make : ρ → Except CatalogError (Option CandidateV1)) :
    addMade make = Collect.add make CandidateV1.key
      (.authority "candidate identity has conflicting facts") := by
  funext items row
  unfold addMade Collect.add
  cases make row with
  | error error => rfl
  | ok made => cases made <;> rfl

theorem items_alike {ρ : Type} {make : ρ → Except CatalogError (Option CandidateV1)}
    {rows rows' : List ρ} (listed : rows.Perm rows') {before before' after : Items}
    (same : ∀ k, before.get? k = before'.get? k)
    (done : rows.foldlM (addMade make) before = .ok after) :
    ∃ after', rows'.foldlM (addMade make) before' = .ok after' ∧
      ∀ k, after.get? k = after'.get? k := by
  rw [addMade_collects] at done ⊢
  exact Collect.collect_of_perm listed same done

def AdvisoryAlias.key (row : AdvisoryAlias) : AliasKey :=
  toLex (row.logicalId,row.variantId.getD "")

private theorem get?_aliases (rows : List AdvisoryAlias) (d : Dict AliasKey (List String))
    (k : AliasKey) : (rows.foldl addAlias d).get? k =
      if ∃ row ∈ rows, row.key = k then
        some ((d.get? k).getD [] ++ (rows.filter (·.key = k)).map (·.name))
      else d.get? k := by
  induction rows generalizing d with
  | nil => simp
  | cons row rows ih =>
    rw [List.foldl_cons,ih]
    have set : addAlias d row = d.set row.key ((d.get? row.key).getD [] ++ [row.name]) := rfl
    by_cases same : row.key = k
    · subst same
      by_cases later : ∃ other ∈ rows, other.key = row.key
      · simp [set,later]
      · have none_later : rows.filter (·.key = row.key) = [] := by
          simpa using later
        simp [set,later,none_later]
    · simp [set,same,Dict.get?_set_ne d _ (Ne.symm same)]

theorem aliases_alike {rows rows' : List AdvisoryAlias} (listed : rows.Perm rows') :
    (byKey (rows.foldl addAlias .empty)).map (fun e => (e.1,sortedBy id e.2)) =
      (byKey (rows'.foldl addAlias .empty)).map fun e => (e.1,sortedBy id e.2) := by
  refine byKey_congr fun k => ?_
  have names : sortedBy id ((rows.filter (·.key = k)).map (·.name)) =
      sortedBy id ((rows'.filter (·.key = k)).map (·.name)) :=
    sortedBy_of_perm ((listed.filter _).map _) fun _ _ _ _ same => same
  simp only [get?_aliases,listed.mem_iff]
  split <;> simp [names]

theorem adaptSnapshot_alike {snapshot : CatalogSnapshot}
    (alike : SeenAlike facts facts' sources sources' providers scope)
    (mounts : facts.mounts.Perm facts'.mounts) (one : ∀ r ∈ facts.mounts, r.scope = scope)
    (done : adaptSnapshot lib facts sources providers scope context = .ok snapshot) :
    adaptSnapshot lib facts' sources' providers scope context = .ok snapshot := by
  obtain ⟨v,looked,done⟩ := bind_ok.mp done
  obtain ⟨linked,fromLinks,done⟩ := bind_ok.mp done
  obtain ⟨items,fromMounts,done⟩ := bind_ok.mp done
  obtain ⟨w,looked',same⟩ := visible_alike alike mounts one looked
  obtain ⟨linked',fromLinks',linkedSame⟩ := items_alike alike.links (fun _ => rfl) fromLinks
  rw [same.mountsByKindDigest,representedMounts_same same alike.links] at fromMounts
  obtain ⟨items',fromMounts',itemsSame⟩ := items_alike (.refl _) linkedSame fromMounts
  rw [linked_same same] at fromLinks'
  refine bind_ok.mpr ⟨w,looked',bind_ok.mpr ⟨linked',fromLinks',bind_ok.mpr
    ⟨items',fromMounts',?_⟩⟩⟩
  rw [← done]
  simp only [byKey_congr_id itemsSame,aliases_alike alike.aliases]

theorem SeenAlike.symm (alike : SeenAlike facts facts' sources sources' providers scope) :
    SeenAlike facts' facts sources' sources providers scope :=
  ⟨alike.models.symm,alike.variants.symm,alike.links.symm,alike.aliases.symm,alike.locals.symm,
    alike.mounts.symm,alike.mirrors.symm,alike.sources.symm⟩

theorem Lists.seen (sources : List AcquisitionSource) (providers : Finset String)
    {store : ResolutionStore} (listed : Lists facts (store.snapshot scope)) :
    SeenAlike facts store.toResolutionSnapshot sources sources providers scope ∧
      facts.mounts.Perm (store.mounts.filter (·.scope == scope)) := by
  have mounts := listed.mounts.trans (sortedBy_perm _ _)
  have again {ρ : Type} (rows : List ρ) (p : ρ → Bool) : (rows.filter p).filter p = rows.filter p :=
    by simp
  refine ⟨⟨listed.models.trans (sortedBy_perm _ _),listed.variants.trans (sortedBy_perm _ _),
    listed.links.trans (sortedBy_perm _ _),listed.aliases.trans (sortedBy_perm _ _),?_,?_,
    (listed.mirrors.trans (sortedBy_perm _ _)).filter _,.refl _⟩,mounts⟩
  · have locals := (listed.locals.trans (sortedBy_perm _ _)).filter (·.scope == scope)
    rwa [again] at locals
  · have seen := mounts.filter (·.scope == scope)
    rwa [again] at seen

private theorem SeenAlike.trans {middle : ResolutionSnapshot} {among : List AcquisitionSource}
    (first : SeenAlike facts middle sources among providers scope)
    (second : SeenAlike middle facts' among sources' providers scope) :
    SeenAlike facts facts' sources sources' providers scope :=
  ⟨first.models.trans second.models,first.variants.trans second.variants,
    first.links.trans second.links,first.aliases.trans second.aliases,
    first.locals.trans second.locals,first.mounts.trans second.mounts,
    first.mirrors.trans second.mirrors,first.sources.trans second.sources⟩

/-- Two stores that look alike to the scope give it one catalog, in whatever order their facts are
listed: the same items, aliases and generation, or no catalog from either. -/
theorem isolation {store store' : ResolutionStore}
    (alike : SeenAlike store.toResolutionSnapshot store'.toResolutionSnapshot sources sources'
      providers scope)
    (listed : Lists facts (store.snapshot scope)) (listed' : Lists facts' (store'.snapshot scope)) :
    (adaptSnapshot lib facts sources providers scope context).toOption =
      (adaptSnapshot lib facts' sources' providers scope context).toOption := by
  obtain ⟨seen,mounts⟩ := listed.seen sources providers
  obtain ⟨seen',mounts'⟩ := listed'.seen sources' providers
  have both := seen.trans (alike.trans seen'.symm)
  have swapped := mounts.trans (alike.mounts.trans mounts'.symm)
  have one {rows : List MountMaterialization} {table : List MountMaterialization}
      (taken : rows.Perm (table.filter (·.scope == scope))) : ∀ r ∈ rows, r.scope = scope := by
    intro r inside
    exact beq_iff_eq.mp (List.mem_filter.mp (taken.mem_iff.mp inside)).2
  cases left : adaptSnapshot lib facts sources providers scope context with
  | ok snapshot => rw [adaptSnapshot_alike both swapped (one mounts) left]
  | error error =>
    cases right : adaptSnapshot lib facts' sources' providers scope context with
    | error error' => rfl
    | ok snapshot =>
      rw [adaptSnapshot_alike both.symm swapped.symm (one mounts') right] at left
      cases left

private def exampleDigest : String :=
  "blake3:0000000000000000000000000000000000000000000000000000000000000000"

/-- A store with one local row of the scope `team`, and the rows of others as given. -/
private def exampleStore (mirrors : List ProviderMirror) (locals : List LocalMaterialization)
    (sourced : (mirrors.map (·.source)).Nodup)
    (placed : (locals.map fun r => (r.scope,r.ref.digest)).Nodup) : ResolutionStore where
  logicalModels := [⟨"flux","flux","model/diffusion"⟩]
  variants := [⟨"flux","bf16","bf16","none","safetensors","unet",⟨∅,∅,∅⟩⟩]
  links := [⟨"flux","bf16",exampleDigest⟩]
  aliases := [⟨.logical,"Flux","flux",none⟩]
  mirrors
  locals
  mounts := []
  logical_model_identity := by simp
  variant_identity := by simp
  variant_artifact_identity := by simp
  alias_identity := by simp
  provider_source_identity := sourced
  local_identity := placed
  mount_identity := by simp

private def exampleRef : AssetRef := ⟨exampleDigest,"flux.safetensors",4,"model/x","local/flux"⟩

private def teamStore : ResolutionStore :=
  exampleStore [] [⟨"team",exampleRef⟩] (by simp) (by simp)

private def sharedStore : ResolutionStore :=
  exampleStore [⟨⟨"hub","x"⟩,exampleDigest,.available,""⟩]
    [⟨"other",exampleRef⟩,⟨"team",exampleRef⟩] (by simp) (by simp)

private theorem stores_alike : SeenAlike teamStore.toResolutionSnapshot
    sharedStore.toResolutionSnapshot [] [] ∅ "team" :=
  ⟨.refl _,.refl _,.refl _,.refl _,by simp [teamStore,sharedStore,exampleStore],
    by simp [teamStore,sharedStore,exampleStore],by simp [teamStore,sharedStore,exampleStore],
    .refl _⟩

/-- The rows of the provider `hub` and of the scope `other` make no difference to `team`. -/
theorem isolation_from_others :
    (adaptSnapshot ⟨fun _ => true,id,String.ofList⟩ (teamStore.snapshot "team") [] ∅ "team"
      none).toOption =
    (adaptSnapshot ⟨fun _ => true,id,String.ofList⟩ (sharedStore.snapshot "team") [] ∅ "team"
      none).toOption :=
  isolation stores_alike (.refl _) (.refl _)

end Dinkster.Federated
