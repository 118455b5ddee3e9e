import Dinkster.Lib.Dict
import Dinkster.Lib.JsonSortKeys
import Dinkster.Server.Candidates
import Mathlib

/-! The catalog snapshot that a scope sees under its provider policy: facts, mounts and trusted
sources are merged into candidates, and their digest is the generation that cursors are bound to. -/
namespace Dinkster.Federated
open Canonical Fallible Json

structure ResolveContextV1 where
  assetKind : String
  nodeType : String
  inputId : String
  accept : List String
  typeId : Option String
  deriving DecidableEq

/-- `str.endswith` and `str.startswith` -/
def endsWith (s suffix : String) : Bool := suffix.toList.isSuffixOf s.toList

def startsWith (s start : List Char) : Bool := start.isPrefixOf s

def mimeMatches (mediaType : String) (accepts : List String) : Bool :=
  accepts.isEmpty || accepts.any fun accept =>
    accept == mediaType ||
      (endsWith accept "/*" && startsWith mediaType.toList accept.toList.dropLast)

def compatibility (context : Option ResolveContextV1) (requirements : CandidateRequirementsV1)
    (mediaType : Option String) : Compatibility × String :=
  match context with
  | none => (.unknown,"compatibility context required")
  | some context =>
    if mediaType.any fun m => !mimeMatches m context.accept then
      (.incompatible,"media type not accepted")
    else if requirements.loaders ≠ [] ∨ requirements.runtimes ≠ [] ∨ requirements.hardware ≠ [] then
      (.unknown,"runtime compatibility facts unavailable")
    else if context.accept ≠ [] ∧ mediaType = none then
      (.unknown,"media type unavailable")
    else (.compatible,"")

/-- What makes the catalog unavailable. -/
inductive CatalogError
  | authority (message : String)
  | codec (error : CodecError)
  deriving DecidableEq

def codec {α : Type} (x : Except CodecError α) : Except CatalogError α := x.mapError .codec

def providerRequirements (source : AcquisitionSource) : ProviderRequirementsV1 :=
  ⟨source.credentialRequirementId,source.licenseRequirementId,source.costRequirementId,
    source.policyOverrideRequirementId⟩

def mountKind (row : MountMaterialization) : String :=
  if row.assetKind ≠ "" then row.assetKind
  else
    let major := String.ofList (row.ref.mediaType.toList.takeWhile (· ≠ '/'))
    if major = "audio" ∨ major = "image" ∨ major = "video" then "media/" ++ major
    else "asset/file"

def syntheticLogicalId (assetKind digest : String) : Except CatalogError String :=
  let algorithm := digest.toList.takeWhile (· ≠ ':')
  match digest.toList.drop algorithm.length with
  | [] => .error (.authority "mount digest has no algorithm separator")
  | _ :: value =>
    .ok ("mounted/" ++ assetKind ++ "/" ++ String.ofList algorithm ++ "/" ++ String.ofList value)

abbrev SourceKey := String × String × String

def AcquisitionSource.key (s : AcquisitionSource) : SourceKey :=
  (s.source.providerId,s.source.sourceId,s.digest)

def AcquisitionSource.identity (s : AcquisitionSource) : String × String :=
  (s.source.providerId,s.source.sourceId)

structure SourceFacts where
  facts : Dict SourceKey AcquisitionSource
  identities : Dict (String × String) AcquisitionSource

def SourceFacts.add (f : SourceFacts) (source : AcquisitionSource) :
    Except CatalogError SourceFacts :=
  if (f.facts.get? source.key).any (· ≠ source) then
    .error (.authority "conflicting authorized provider source facts")
  else if (f.identities.get? source.identity).any (· ≠ source) then
    .error (.authority "authorized provider source identity is ambiguous")
  else .ok ⟨f.facts.set source.key source,f.identities.set source.identity source⟩

def authorized (sources : List AcquisitionSource) (providers : Finset String) :
    List AcquisitionSource :=
  (sortedBy (fun s => toLex (s.source.providerId,toLex (s.source.sourceId,s.digest)))
    sources).filter (·.source.providerId ∈ providers)

def sourceFacts (sources : List AcquisitionSource) (providers : Finset String) :
    Except CatalogError SourceFacts :=
  (authorized sources providers).foldlM SourceFacts.add ⟨.empty,.empty⟩

def mirrorsBySource (mirrors : List ProviderMirror) (providers : Finset String) :
    Dict SourceKey ProviderMirror :=
  Dict.ofList ((mirrors.filter (·.source.providerId ∈ providers)).map fun m =>
    ((m.source.providerId,m.source.sourceId,m.digest),m))

/-- `setdefault` in the order of priority: the first mount of a kind and digest stays. -/
def mountsByKindDigest (mounts : List MountMaterialization) :
    Dict (String × String) MountMaterialization :=
  (sortedBy (fun r => toLex (r.priority,toLex (r.mountId,r.ref.virtualPath))) mounts).foldl
    (fun d r => if (d.get? (mountKind r,r.ref.digest)).isSome then d
      else d.set (mountKind r,r.ref.digest) r) .empty

structure Visible where
  logical : Dict String LogicalModel
  variants : Dict (String × String) ModelVariant
  localsByDigest : Dict String AssetRef
  mountsByKindDigest : Dict (String × String) MountMaterialization
  sources : Dict SourceKey AcquisitionSource
  mirrors : Dict SourceKey ProviderMirror

def visible (facts : ResolutionSnapshot) (sources : List AcquisitionSource)
    (providers : Finset String) (scope : String) : Except CatalogError Visible := do
  let known ← sourceFacts sources providers
  return {
    logical := Dict.ofList (facts.logicalModels.map fun r => (r.logicalId,r))
    variants := Dict.ofList (facts.variants.map fun r => ((r.logicalId,r.variantId),r))
    localsByDigest := Dict.ofList
      ((facts.locals.filter (·.scope == scope)).map fun r => (r.ref.digest,r.ref))
    mountsByKindDigest := Federated.mountsByKindDigest facts.mounts
    sources := known.facts
    mirrors := mirrorsBySource facts.mirrors providers }

/-- Size and media type of the materialization, or of the first source where there is none. -/
structure Agreed where
  size : Option Int
  mediaType : Option String

def Agreed.add (a : Agreed) (source : AcquisitionSource) : Except CatalogError Agreed := do
  refuseIf (a.size.any (· ≠ source.expectedSize))
    (.authority "authorized provider size conflicts with local materialization")
  refuseIf (a.mediaType.any (· ≠ source.mediaType))
    (.authority "authorized provider media type conflicts with local materialization")
  return ⟨some source.expectedSize,some source.mediaType⟩

/-- `a or b` of texts -/
def orText (a b : String) : String := if a = "" then b else a

def providerSource (lib : Library) (mirrors : Dict SourceKey ProviderMirror)
    (source : AcquisitionSource) : Except CatalogError ProviderSourceV1 :=
  let mirror := mirrors.get? source.key
  let available := source.state = .available ∧ mirror.any fun m => m.state = .available
  let made : ProviderSourceV1 := {
    source := source.source
    status := if available then .available else .unavailable
    reason := if available then "" else
      orText source.unavailableReason
        (orText ((mirror.map (·.reason)).getD "") "provider mirror unavailable")
    requires := providerRequirements source }
  codec ((made.check lib).map fun _ => made)

def addAuthority (lib : Library) (mirrors : Dict SourceKey ProviderMirror)
    (state : Agreed × List ProviderSourceV1) (source : AcquisitionSource) :
    Except CatalogError (Agreed × List ProviderSourceV1) := do
  let agreed ← state.1.add source
  let made ← providerSource lib mirrors source
  return (agreed,state.2 ++ [made])

def availability (ref : Option AssetRef) (sources : List ProviderSourceV1) :
    Availability × String :=
  if ref.isSome then (.localRef,"local materialization")
  else if sources.any (·.status = .available) then
    (.downloadable,"authorized provider mirror available")
  else (.unavailable,((((sources.map (·.reason)).filter (· ≠ "")).min?).getD
    "no local or authorized provider materialization"))

def Visible.authorities (v : Visible) (digest assetKind : String) : List AcquisitionSource :=
  sortedBy (fun s => toLex (s.source.providerId,s.source.sourceId))
    ((v.sources.entries.map (·.2)).filter fun s => s.digest = digest ∧ s.assetKind = assetKind)

def Visible.ref (v : Visible) (digest assetKind : String) : Option AssetRef :=
  (v.localsByDigest.get? digest).or
    ((v.mountsByKindDigest.get? (assetKind,digest)).map (·.ref))

def sortedRequirements (r : DeclaredRequirements) : CandidateRequirementsV1 :=
  ⟨r.loaders.sort,r.runtimes.sort,r.hardware.sort⟩

def Visible.linkCandidate (lib : Library) (v : Visible) (context : Option ResolveContextV1)
    (model : LogicalModel) (variant : ModelVariant) (link : VariantArtifact) :
    Except CatalogError CandidateV1 := do
  let ref := v.ref link.digest model.assetKind
  let authorities := v.authorities link.digest model.assetKind
  refuseIf (64 < authorities.length)
    (.authority "candidate has more than 64 authorized provider sources")
  let (agreed,providerSources) ← authorities.foldlM (addAuthority lib v.mirrors)
    (⟨ref.map (·.size),ref.map (·.mediaType)⟩,[])
  let available := availability ref providerSources
  let requirements := sortedRequirements variant.requirements
  let compatible := compatibility context requirements agreed.mediaType
  codec (candidateV1 {
    logicalId := model.logicalId
    family := model.family
    assetKind := model.assetKind
    variantId := variant.variantId
    dtype := variant.dtype
    quantization := variant.quantization
    format := variant.format
    role := variant.role
    requirements
    digest := link.digest
    size := agreed.size
    mediaType := agreed.mediaType
    availabilityStatus := available.1
    availabilityReason := available.2
    compatibilityStatus := compatible.1
    compatibilityReason := compatible.2
    assetRef := ref
    providerSources })

def mountCandidate (assetKind digest : String) (mount : MountMaterialization) :
    Except CatalogError CandidateV1 := do
  let logicalId ← syntheticLogicalId assetKind digest
  codec (candidateV1 {
    logicalId
    family := "unclassified"
    assetKind
    variantId := "unclassified"
    dtype := "unclassified"
    quantization := "none"
    format := "unclassified"
    role := "asset"
    requirements := ⟨[],[],[]⟩
    digest
    size := some mount.ref.size
    mediaType := some mount.ref.mediaType
    availabilityStatus := .localRef
    availabilityReason := "ready local mount"
    compatibilityStatus := .compatible
    compatibilityReason := ""
    assetRef := some mount.ref
    providerSources := [] })

abbrev Items := Dict (String ×ₗ (String ×ₗ String)) CandidateV1

def addItem (items : Items) (item : CandidateV1) : Except CatalogError Items :=
  if (items.get? item.key).any (· ≠ item) then
    .error (.authority "candidate identity has conflicting facts")
  else .ok (items.set item.key item)

def addMade {ρ : Type} (make : ρ → Except CatalogError (Option CandidateV1)) (items : Items)
    (row : ρ) : Except CatalogError Items := do
  match ← make row with
  | none => return items
  | some item => addItem items item

def Visible.linked (lib : Library) (v : Visible) (context : Option ResolveContextV1)
    (link : VariantArtifact) : Except CatalogError (Option CandidateV1) :=
  match v.logical.get? link.logicalId,v.variants.get? (link.logicalId,link.variantId) with
  | some model,some variant => (v.linkCandidate lib context model variant link).map some
  | _,_ => .ok none

def Visible.representedMounts (v : Visible) (links : List VariantArtifact) :
    List (String × String) :=
  links.filterMap fun link =>
    match v.logical.get? link.logicalId,v.variants.get? (link.logicalId,link.variantId) with
    | some model,some _ => some (model.assetKind,link.digest)
    | _,_ => none

local instance representedLawful : LawfulBEq (String × String) := inferInstance

def mounted (represented : List (String × String))
    (entry : (String × String) × MountMaterialization) : Except CatalogError (Option CandidateV1) :=
  if entry.1 ∈ represented then .ok none
  else (mountCandidate entry.1.1 entry.1.2 entry.2).map some

abbrev AliasKey := String ×ₗ String

def addAlias (aliases : Dict AliasKey (List String)) (row : AdvisoryAlias) :
    Dict AliasKey (List String) :=
  let key := toLex (row.logicalId,row.variantId.getD "")
  aliases.set key ((aliases.get? key).getD [] ++ [row.name])

def byKey {κ ν : Type} [LinearOrder κ] (d : Dict κ ν) : List (κ × ν) := sortedBy (·.1) d.entries

structure CatalogSnapshot where
  generation : String
  items : List CandidateV1
  aliases : List (AliasKey × List String)
  deriving DecidableEq

def generationInput (items : List CandidateV1) (aliases : List (AliasKey × List String)) : Value :=
  .obj [("items",.arr (items.map encodeCandidate)),
    ("aliases",.arr (aliases.map fun e =>
      strings ((ofLex e.1).1 :: (ofLex e.1).2 :: e.2)))]

def adaptSnapshot (lib : Library) (facts : ResolutionSnapshot) (sources : List AcquisitionSource)
    (providers : Finset String) (scope : String) (context : Option ResolveContextV1) :
    Except CatalogError CatalogSnapshot := do
  let v ← visible facts sources providers scope
  let linked ← facts.links.foldlM (addMade (v.linked lib context)) .empty
  let represented := v.representedMounts facts.links
  let items ← v.mountsByKindDigest.entries.foldlM (addMade (mounted represented)) linked
  let ordered := (byKey items).map (·.2)
  let aliases := (byKey (facts.aliases.foldl addAlias .empty)).map fun e =>
    (e.1,sortedBy id e.2)
  return ⟨lib.sha256 (sortedText (generationInput ordered aliases)),ordered,aliases⟩

end Dinkster.Federated
