import Dinkster.Registry.Grants
import Dinkster.Registry.Releases

/-! The publish gate: what a submission is admitted as, and how an accepted publish lands in the
grant table and the release index. -/
namespace Dinkster.Publish
open Names Registry Grants

/-- What admission uses of its libraries. -/
structure Host (V K : Type) where
  /-- `str.casefold` of a character that is not ASCII -/
  wide : Char → List Char
  packaging : Packaging V K
  repr : String → String

inductive Severity where
  | error | info
  deriving DecidableEq

structure AdmissionFinding where
  severity : Severity
  code : String
  message : String
  fix : String
  deriving DecidableEq

structure DoctorEvidence where
  packName : String
  ok : Bool
  nodeTypes : List String
  errorCodes : List String
  deriving DecidableEq

structure Submission where
  publisher : String
  packName : String
  namespaces : List String
  version : String
  artifactDigest : String
  evidence : DoctorEvidence
  templates : List ReleaseTemplate
  executes : List String
  deriving DecidableEq

inductive VerdictState where
  | accepted | needsReview | rejected
  deriving DecidableEq

structure Verdict where
  state : VerdictState
  findings : List AdmissionFinding
  newClaims : List String
  alreadyPublished : Bool
  deriving DecidableEq

inductive AdmissionError where
  /-- `invalid version {version!r}: {problem}` -/
  | version (version : String)
  | grants (problem : Grants.RegistryError)
  /-- `a rejected verdict is never recorded` -/
  | rejected
  /-- `recording requires an accepted review, got {state!r}` -/
  | review (state : VersionState)
  /-- `accepted verdict claims do not match current grants: expected {required}, got {declared}` -/
  | mismatch (required declared : List String)
  | immutable (problem : Immutable)
  deriving DecidableEq

variable {V K : Type} (host : Host V K)

/-- `_claims_of`: the pack name and the namespaces, each canonical claim once. -/
def claimsOf (submission : Submission) : List String :=
  ((submission.packName :: submission.namespaces).map (canonicalClaim host.wide)).foldl
    (fun seen claim => if claim ∈ seen then seen else seen ++ [claim]) []

def nameFinding (label name : String) (problem : Option String) : List AdmissionFinding :=
  match problem with
  | some problem => [⟨.error,"registry.invalid-name",label ++ " " ++ host.repr name ++ " " ++ problem,
      "use lowercase pack/publisher names and namespace or exact node claims"⟩]
  | none => []

def grammarFindings (s : Submission) : List AdmissionFinding :=
  nameFinding host "publisher id" s.publisher (validateName s.publisher) ++
  nameFinding host "pack name" s.packName (validateName s.packName) ++
  s.namespaces.flatMap (fun claim =>
    nameFinding host "namespace claim" claim (validateClaim claim)) ++
  (match validateVersion host.packaging s.version with
    | some problem => [⟨.error,"registry.invalid-version",
        "version " ++ host.repr s.version ++ " " ++ problem,""⟩]
    | none => []) ++
  (match validateArtifactDigest s.artifactDigest with
    | some problem => [⟨.error,"registry.invalid-digest",
        "artifact digest " ++ host.repr s.artifactDigest ++ " " ++ problem,""⟩]
    | none => [])

def doctorFindings (evidence : DoctorEvidence) : List AdmissionFinding :=
  if evidence.ok then []
  else
    let codes := ", ".intercalate evidence.errorCodes.dedup.mergeSort
    [⟨.error,"registry.doctor-failed",
      "doctor reported errors: " ++ (if codes = "" then "unknown" else codes),
      "run \x60dinkster doctor\x60 locally - same predicate, same verdict"⟩]

def coverageFindings (s : Submission) : List AdmissionFinding :=
  (s.evidence.nodeTypes.filter fun nodeType => nodeType ∉ s.executes &&
    !(claimsOf host s).any (claimCovers host.wide · nodeType)).map fun nodeType =>
  ⟨.error,"registry.node-type-uncovered",
    "node type " ++ host.repr nodeType ++ " falls under no claimed namespace",
    "add the covering namespace to [pack] namespaces"⟩

/-- What the claims come to: findings, claims that are new and claims that are the first of free
namespace. -/
structure Claimed where
  findings : List AdmissionFinding
  newClaims : List String
  firstClaims : List String

def claimFinding (table : List Grant) (publisher : String) (claimed : Claimed) (claim : String) :
    Except AdmissionError Claimed :=
  match evaluate host.wide table claim publisher with
  | .error problem => .error (.grants problem)
  | .ok .deniedReserved => .ok { claimed with findings := claimed.findings ++
      [⟨.error,"registry.namespace-reserved",
        "namespace " ++ host.repr claim ++ " is reserved and never grantable",""⟩] }
  | .ok .deniedTaken =>
    let held := match ownerOf host.wide table claim with
      | some owner => " (held by " ++ owner ++ ")"
      | none => ""
    .ok { claimed with findings := claimed.findings ++ [⟨.error,"registry.namespace-taken",
      "namespace " ++ host.repr claim ++ " conflicts with another publisher's grant" ++ held,
      "namespaces are owned; pick a namespace outside existing grants"⟩] }
  | .ok .free => .ok ⟨claimed.findings ++ [⟨.info,"registry.first-claim",
      "first claim of free namespace " ++ host.repr claim ++
        " - explicit review before the grant is recorded",""⟩],
      claimed.newClaims ++ [claim],claimed.firstClaims ++ [claim]⟩
  | .ok .grantable => .ok { claimed with newClaims := claimed.newClaims ++ [claim] }
  | .ok .granted => .ok claimed

/-- `str(Version.parse(text))` -/
def versionText (text : String) : Except AdmissionError String :=
  match parseVersion host.packaging text with
  | some version => .ok (host.packaging.text version)
  | none => .error (.version text)

def rejectedFor (findings : List AdmissionFinding) : Verdict := ⟨.rejected,findings,[],false⟩

def judge (table : List Grant) (s : Submission) (findings : List AdmissionFinding) :
    Except AdmissionError Verdict := do
  let claimed ← (claimsOf host s).foldlM (claimFinding host table s.publisher) ⟨findings,[],[]⟩
  return if claimed.findings.any (·.severity == .error) then rejectedFor claimed.findings
    else if claimed.firstClaims ≠ [] then ⟨.needsReview,claimed.findings,claimed.newClaims,false⟩
    else ⟨.accepted,claimed.findings,claimed.newClaims,false⟩

/-- `admit` -/
def admitRelease (s : Submission) (table : List Grant) (index : ReleaseIndex) :
    Except AdmissionError Verdict :=
  let grammar := grammarFindings host s
  if grammar ≠ [] then .ok (rejectedFor grammar)
  else do
    let pack := canonicalName host.wide s.packName
    let version ← versionText host s.version
    if canonicalName host.wide s.evidence.packName ≠ pack then
      return rejectedFor [⟨.error,"registry.evidence-mismatch","doctor evidence is for pack " ++
        host.repr s.evidence.packName ++ ", submission is for " ++ host.repr s.packName,
        "the report must come from the registry's doctor run over this artifact"⟩]
    else
      let findings := doctorFindings s.evidence ++ coverageFindings host s
      match index.get? (pack,version) with
      | none => judge host table s findings
      | some existing =>
        if existing.artifactDigest = s.artifactDigest then return ⟨.accepted,[],[],true⟩
        else judge host table s (findings ++ [⟨.error,"registry.release-immutable",
          pack ++ " " ++ version ++ " is already published with digest " ++ existing.artifactDigest,
          "publish the new bytes under a new version; releases never mutate"⟩])

/-- The order in which a set of claims is gone through. -/
structure Order where
  arrange : List String → List String
  perm : ∀ claims, (arrange claims).Perm claims

/-- The grants of `record_acceptance`, up to the first that is refused. -/
def grantAll (table : List Grant) (publisher : String) :
    List String → Except Grants.RegistryError Unit × List Grant
  | [] => (.ok (),table)
  | claim :: rest =>
    match grant host.wide table claim publisher with
    | (.ok _,table) => grantAll table publisher rest
    | (.error problem,table) => (.error problem,table)

def requiredNew (s : Submission) (table : List Grant) : List String :=
  (claimsOf host s).filter fun claim =>
    ownerOf host.wide table claim ≠ some (canonicalName host.wide s.publisher)

def releaseOf (s : Submission) (version : String) : Release where
  pack := canonicalName host.wide s.packName
  version := version
  artifactDigest := s.artifactDigest
  publisher := canonicalName host.wide s.publisher
  claims := claimsOf host s
  nodeTypes := s.evidence.nodeTypes
  templates := s.templates

def landRelease (s : Submission) (table : List Grant) (index : ReleaseIndex) :
    Except AdmissionError Release × List Grant × ReleaseIndex :=
  match versionText host s.version with
  | .error problem => (.error problem,table,index)
  | .ok version =>
    match index.add (releaseOf host s version) with
    | (.ok release,index) => (.ok release,table,index)
    | (.error problem,index) => (.error (.immutable problem),table,index)

/-- `record_acceptance`: what it returns or raises, and the table and the index after it. -/
def recordAcceptance (order : Order) (s : Submission) (verdict : Verdict) (review : ReviewLog)
    (table : List Grant) (index : ReleaseIndex) :
    Except AdmissionError Release × List Grant × ReleaseIndex :=
  let required := requiredNew host s table
  let declared := verdict.newClaims.map (canonicalClaim host.wide)
  if verdict.state = .rejected then (.error .rejected,table,index)
  else if review.state ≠ .accepted then (.error (.review review.state),table,index)
  else if declared.toFinset ≠ required.toFinset then
    (.error (.mismatch required.mergeSort declared.dedup.mergeSort),table,index)
  else
    match grantAll host table s.publisher (order.arrange required) with
    | (.ok _,table) => landRelease host s table index
    | (.error problem,table) => (.error (.grants problem),table,index)

structure Case where
  submission : Submission
  verdict : Verdict
  review : ReviewLog

structure State where
  table : List Grant
  index : ReleaseIndex
  cases : List Case

inductive Move where
  /-- A submission is admitted and its review starts. -/
  | submit (submission : Submission) (actor at_ : String)
  | advance (case_ : Nat) (toState : VersionState) (actor at_ reason : String)
  | record (case_ : Nat) (order : Order)
  | grants (call : Grants.Call)

/-- The recording of a case: what it returns or raises, and the table and the index after it. -/
def recording (state : State) (order : Order) (c : Case) :
    Except AdmissionError Release × List Grant × ReleaseIndex :=
  recordAcceptance host order c.submission c.verdict c.review state.table state.index

def initial : State := ⟨[],.empty,[]⟩

/-- The registry after a move; what raises changes what it changed before it raised. -/
def step (state : State) : Move → State
  | .submit submission actor at_ =>
    match admitRelease host submission state.table state.index,ReviewLog.start actor at_ with
    | .ok verdict,.ok review => { state with cases := state.cases ++ [⟨submission,verdict,review⟩] }
    | _,_ => state
  | .advance i toState actor at_ reason =>
    match state.cases[i]? with
    | none => state
    | some c =>
      match c.review.advance toState actor at_ reason with
      | .ok review => { state with cases := state.cases.set i { c with review := review } }
      | .error _ => state
  | .record i order =>
    match state.cases[i]? with
    | none => state
    | some c =>
      let landed := recording host state order c
      { state with table := landed.2.1, index := landed.2.2 }
  | .grants call => { state with table := (perform host.wide state.table call).2 }

def run (moves : List Move) : State := moves.foldl (step host) initial

end Dinkster.Publish
