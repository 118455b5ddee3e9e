import Dinkster.Lib.Fallible
import Dinkster.Lib.JsonSortKeys
import Dinkster.Server.AssetFacts

/-! The candidate of the federated asset contract: its fields with the checks of its constructor,
and its JSON form. -/
namespace Dinkster.Federated
open Canonical Fallible Json

/-- What the catalog uses of the language's library: the character table behind
`str.isprintable`, full case folding and two digests of bytes, which are the characters of an
ASCII text. -/
structure Library where
  isPrintable : Char → Bool
  casefold : String → String
  sha256 : List Char → String

structure CodecError where
  field : String
  reason : String
  deriving DecidableEq

def isControl (c : Char) : Bool := c.toNat < 32 || c.toNat == 127

def identifier (value field : String) : Except CodecError Unit := do
  refuseIf (value = "") ⟨field,"must be nonempty"⟩
  refuseIf (value.toList.any isControl) ⟨field,"must not contain control characters"⟩

def isDigest (value : String) : Bool :=
  "blake3:".toList.isPrefixOf value.toList && value.toList.length == 71 &&
    (value.toList.drop 7).all fun c => c.isDigit || ('a' ≤ c && c ≤ 'f')

def digest (value field : String) : Except CodecError Unit :=
  refuseIf (¬ isDigest value) ⟨field,"must be a canonical BLAKE3 digest"⟩

def safeInteger : Int := 2 ^ 53 - 1

def integer (value : Int) (field : String) : Except CodecError Unit :=
  refuseIf (¬ (0 ≤ value ∧ value ≤ safeInteger))
    ⟨field,"must be between 0 and 9007199254740991"⟩

/-- `nonempty` tells whether the text has to be there or has to be missing. -/
def reason (value field : String) (nonempty : Option Bool) : Except CodecError Unit := do
  refuseIf (256 < value.length) ⟨field,"must contain at most 256 characters"⟩
  refuseIf (value.toList.any isControl) ⟨field,"must not contain control characters"⟩
  refuseIf (nonempty = some true ∧ value = "") ⟨field,"must be nonempty"⟩
  refuseIf (nonempty = some false ∧ value ≠ "") ⟨field,"must be empty"⟩

def requirement (lib : Library) (value : Option String) (name : String) :
    Except CodecError Unit :=
  match value with
  | none => .ok ()
  | some value => do
    let field := "requires." ++ name
    refuseIf (value = "") ⟨field,"must be nonempty"⟩
    refuseIf (256 < value.length) ⟨field,"must contain at most 256 characters"⟩
    refuseIf (value.toList.any fun c => !lib.isPrintable c) ⟨field,"must be printable"⟩

structure CandidateRequirementsV1 where
  loaders : List String
  runtimes : List String
  hardware : List String
  deriving DecidableEq

structure ProviderRequirementsV1 where
  credential : Option String
  license : Option String
  cost : Option String
  policyOverride : Option String
  deriving DecidableEq

def ProviderRequirementsV1.check (lib : Library) (r : ProviderRequirementsV1) :
    Except CodecError Unit := do
  requirement lib r.credential "credential"
  requirement lib r.license "license"
  requirement lib r.cost "cost"
  requirement lib r.policyOverride "policy_override"

structure ProviderSourceV1 where
  source : SourceIdentity
  status : SourceState
  reason : String
  requires : ProviderRequirementsV1
  deriving DecidableEq

def ProviderSourceV1.check (lib : Library) (s : ProviderSourceV1) : Except CodecError Unit := do
  identifier s.source.providerId "source.providerId"
  identifier s.source.sourceId "source.sourceId"
  Federated.reason s.reason "providerSource.reason" none
  s.requires.check lib

def ProviderSourceV1.key (s : ProviderSourceV1) : String ×ₗ String :=
  toLex (s.source.providerId,s.source.sourceId)

inductive Availability
  | localRef
  | downloadable
  | unavailable
  deriving DecidableEq

inductive Compatibility
  | compatible
  | incompatible
  | unknown
  deriving DecidableEq

structure Candidate where
  logicalId : String
  family : String
  assetKind : String
  variantId : String
  dtype : String
  quantization : String
  format : String
  role : String
  requirements : CandidateRequirementsV1
  digest : String
  availabilityStatus : Availability
  availabilityReason : String
  compatibilityStatus : Compatibility
  compatibilityReason : String
  providerSources : List ProviderSourceV1
  size : Option Int
  mediaType : Option String
  assetRef : Option AssetRef
  deriving DecidableEq

def validateAssetRef (ref : AssetRef) (field : String) : Except CodecError Unit := do
  Federated.digest ref.digest (field ++ ".digest")
  integer ref.size (field ++ ".size")

def Candidate.checkRef (c : Candidate) : Except CodecError Unit :=
  match c.availabilityStatus,c.assetRef with
  | .localRef,none => .error ⟨"candidate.assetRef","is required for local availability"⟩
  | .localRef,some ref => do
    validateAssetRef ref "candidate.assetRef"
    refuseIf (ref.digest ≠ c.digest) ⟨"candidate.assetRef.digest","must equal candidate.digest"⟩
  | _,some _ => .error ⟨"candidate.assetRef","is allowed only for local availability"⟩
  | _,none => .ok ()

def Candidate.checkSize (c : Candidate) : Except CodecError Unit :=
  match c.size with
  | none => .ok ()
  | some size => integer size "candidate.size"

/-- `__post_init__`. The provider sources have been constructed, and checked, before. -/
def Candidate.check (c : Candidate) : Except CodecError Unit := do
  identifier c.logicalId "candidate.logical_id"
  identifier c.family "candidate.family"
  identifier c.assetKind "candidate.asset_kind"
  identifier c.variantId "candidate.variant_id"
  identifier c.dtype "candidate.dtype"
  identifier c.quantization "candidate.quantization"
  identifier c.format "candidate.format"
  identifier c.role "candidate.role"
  Federated.digest c.digest "candidate.digest"
  c.checkSize
  reason c.availabilityReason "candidate.availability.reason" none
  reason c.compatibilityReason "candidate.compatibility.reason"
    (some (c.compatibilityStatus ≠ .compatible))
  refuseIf (64 < c.providerSources.length)
    ⟨"candidate.providerSources","must contain at most 64 items"⟩
  refuseIf (¬ c.providerSources.Pairwise fun a b => a.key < b.key)
    ⟨"candidate.providerSources","must be strictly ordered with unique source identities"⟩
  c.checkRef

structure CandidateV1 where
  fields : Candidate
  checked : fields.check = .ok ()
  deriving DecidableEq

def candidateV1 (fields : Candidate) : Except CodecError CandidateV1 :=
  match done : fields.check with
  | .ok _ => .ok ⟨fields,done⟩
  | .error error => .error error

def CandidateV1.key (c : CandidateV1) : String ×ₗ (String ×ₗ String) :=
  toLex (c.fields.logicalId,toLex (c.fields.variantId,c.fields.digest))

def strings (values : List String) : Value := .arr (values.map .str)

def AssetRef.encode (ref : AssetRef) : Value :=
  .obj [("digest",.str ref.digest),("name",.str ref.name),("size",.int ref.size),
    ("mediaType",.str ref.mediaType),("virtualPath",.str ref.virtualPath)]

def ProviderRequirementsV1.encode (r : ProviderRequirementsV1) : Value :=
  .obj (present [("credential",r.credential.map .str),("license",r.license.map .str),
    ("cost",r.cost.map .str),("policyOverride",r.policyOverride.map .str)])

def SourceState.text : SourceState → String
  | .available => "available"
  | .unavailable => "unavailable"

def Availability.text : Availability → String
  | .localRef => "local"
  | .downloadable => "downloadable"
  | .unavailable => "unavailable"

def Compatibility.text : Compatibility → String
  | .compatible => "compatible"
  | .incompatible => "incompatible"
  | .unknown => "unknown"

def SourceIdentity.encode (s : SourceIdentity) : Value :=
  .obj [("providerId",.str s.providerId),("sourceId",.str s.sourceId)]

def ProviderSourceV1.encode (s : ProviderSourceV1) : Value :=
  .obj [("source",s.source.encode),("status",.str s.status.text),("reason",.str s.reason),
    ("requires",s.requires.encode)]

def Candidate.members (c : Candidate) : List (String × Option Value) :=
  [("logicalId",some (.str c.logicalId)),("family",some (.str c.family)),
    ("assetKind",some (.str c.assetKind)),("variantId",some (.str c.variantId)),
    ("dtype",some (.str c.dtype)),("quantization",some (.str c.quantization)),
    ("format",some (.str c.format)),("role",some (.str c.role)),
    ("requirements",some (.obj [("loaders",strings c.requirements.loaders),
      ("runtimes",strings c.requirements.runtimes),("hardware",strings c.requirements.hardware)])),
    ("digest",some (.str c.digest)),
    ("availability",some (.obj [("status",.str c.availabilityStatus.text),
      ("reason",.str c.availabilityReason)])),
    ("compatibility",some (.obj [("status",.str c.compatibilityStatus.text),
      ("reason",.str c.compatibilityReason)])),
    ("providerSources",some (.arr (c.providerSources.map (·.encode)))),
    ("size",c.size.map .int),("mediaType",c.mediaType.map .str),
    ("assetRef",c.assetRef.map (·.encode))]

def encodeCandidate (candidate : CandidateV1) : Value := .obj (present candidate.fields.members)

end Dinkster.Federated
