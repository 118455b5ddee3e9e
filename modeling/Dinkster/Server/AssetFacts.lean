import Dinkster.Lib.Canonical
import Mathlib.Data.Finset.Sort
import Mathlib.Data.Prod.Lex
import Mathlib.Data.String.Basic

/-! The normalized resolution facts of the asset store, the snapshot that one scope reads, and the
trusted acquisition sources beside them. A row lists what the catalog reads of it; times of
observation and provider metadata are left out. -/
namespace Dinkster.Federated
open Canonical

structure AssetRef where
  digest : String
  name : String
  size : Int
  mediaType : String
  virtualPath : String
  deriving DecidableEq

structure SourceIdentity where
  providerId : String
  sourceId : String
  deriving DecidableEq

structure LogicalModel where
  logicalId : String
  family : String
  assetKind : String
  deriving DecidableEq

structure DeclaredRequirements where
  loaders : Finset String
  runtimes : Finset String
  hardware : Finset String
  deriving DecidableEq

structure ModelVariant where
  logicalId : String
  variantId : String
  dtype : String
  quantization : String
  format : String
  role : String
  requirements : DeclaredRequirements
  deriving DecidableEq

structure VariantArtifact where
  logicalId : String
  variantId : String
  digest : String
  deriving DecidableEq

inductive AliasKind
  | logical
  | variant
  deriving DecidableEq

structure AdvisoryAlias where
  kind : AliasKind
  name : String
  logicalId : String
  variantId : Option String
  deriving DecidableEq

inductive SourceState
  | available
  | unavailable
  deriving DecidableEq

structure ProviderMirror where
  source : SourceIdentity
  digest : String
  state : SourceState
  reason : String
  deriving DecidableEq

structure LocalMaterialization where
  scope : String
  ref : AssetRef
  deriving DecidableEq

structure MountMaterialization where
  scope : String
  mountId : String
  priority : Int
  assetKind : String
  ref : AssetRef
  deriving DecidableEq

structure AcquisitionSource where
  source : SourceIdentity
  digest : String
  assetKind : String
  state : SourceState
  authorizedLocator : String
  expectedSize : Int
  mediaType : String
  providerPriority : Int
  unavailableReason : String
  credentialRequirementId : Option String
  licenseRequirementId : Option String
  costRequirementId : Option String
  policyOverrideRequirementId : Option String
  deriving DecidableEq

/-- Rows under the identities that the constructor checks and that are the tables' primary keys. -/
structure ResolutionSnapshot where
  logicalModels : List LogicalModel
  variants : List ModelVariant
  links : List VariantArtifact
  aliases : List AdvisoryAlias
  mirrors : List ProviderMirror
  locals : List LocalMaterialization
  mounts : List MountMaterialization
  logical_model_identity : (logicalModels.map (·.logicalId)).Nodup
  variant_identity : (variants.map fun r => (r.logicalId,r.variantId)).Nodup
  variant_artifact_identity : (links.map fun r => (r.logicalId,r.variantId,r.digest)).Nodup
  alias_identity : (aliases.map fun r => (r.kind,r.name,r.logicalId,r.variantId)).Nodup
  provider_source_identity : (mirrors.map (·.source)).Nodup
  local_identity : (locals.map fun r => (r.scope,r.ref.digest)).Nodup
  mount_identity : (mounts.map fun r => (r.scope,r.mountId,r.ref.virtualPath)).Nodup

/-- The tables of the store hold the rows of every scope. -/
structure ResolutionStore extends ResolutionSnapshot

private theorem ordered_identity {ρ κ ι : Type*} [LinearOrder κ] {key : ρ → κ} {identity : ρ → ι}
    {rows : List ρ} (distinct : (rows.map identity).Nodup) (keep : ρ → Bool) :
    ((sortedBy key (rows.filter keep)).map identity).Nodup :=
  ((sortedBy_perm key _).map identity).nodup_iff.mpr
    (distinct.sublist (List.filter_sublist.map identity))

private theorem sorted_identity {ρ κ ι : Type*} [LinearOrder κ] {key : ρ → κ} {identity : ρ → ι}
    {rows : List ρ} (distinct : (rows.map identity).Nodup) :
    ((sortedBy key rows).map identity).Nodup :=
  ((sortedBy_perm key _).map identity).nodup_iff.mpr distinct

def AliasKind.text : AliasKind → String
  | .logical => "logical"
  | .variant => "variant"

/-- The rows in the order of the queries, of one scope where the table has scopes. -/
def ResolutionStore.snapshot (store : ResolutionStore) (scope : String) : ResolutionSnapshot where
  logicalModels := sortedBy (·.logicalId) store.logicalModels
  variants := sortedBy (fun r => toLex (r.logicalId,r.variantId)) store.variants
  links := sortedBy (fun r => toLex (r.logicalId,toLex (r.variantId,r.digest))) store.links
  aliases := sortedBy (fun r => toLex (r.kind.text,toLex (r.name,toLex (r.logicalId,
    r.variantId.getD "")))) store.aliases
  mirrors := sortedBy (fun r => toLex (r.source.providerId,r.source.sourceId)) store.mirrors
  locals := sortedBy (·.ref.digest) (store.locals.filter (·.scope == scope))
  mounts := sortedBy (fun r => toLex (r.priority,toLex (r.mountId,r.ref.virtualPath)))
    (store.mounts.filter (·.scope == scope))
  logical_model_identity := sorted_identity store.logical_model_identity
  variant_identity := sorted_identity store.variant_identity
  variant_artifact_identity := sorted_identity store.variant_artifact_identity
  alias_identity := sorted_identity store.alias_identity
  provider_source_identity := sorted_identity store.provider_source_identity
  local_identity := ordered_identity store.local_identity _
  mount_identity := ordered_identity store.mount_identity _

end Dinkster.Federated
