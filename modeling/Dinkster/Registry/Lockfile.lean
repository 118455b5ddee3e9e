import Dinkster.Lib.Canonical
import Dinkster.Lib.Fallible
import Dinkster.Lib.JsonObject
import Dinkster.Lib.JsonRead
import Dinkster.Registry.Model
import Dinkster.Registry.Names

/-! Lockfiles: the installation as a value, its record and the plan that leads from one lockfile to
another. -/
namespace Dinkster.Install
open Json Json.Object Names Registry Fallible Canonical

/-- `InstallError`, with what its message is made of. -/
inductive InstallError where
  | text (message : String)
  /-- `{label} {name!r} {problem}` -/
  | invalid (label name problem : String)
  /-- `{label} {name!r} is not canonical (expected {expected!r}); lockfiles store canonical forms
  only` -/
  | uncanonical (label name expected : String)
  /-- `claim of pack {pack!r} {claim!r} {problem or 'is not canonical'}` -/
  | claim (pack claim : String) (problem : Option String)
  /-- `pack {pack!r} {what} {value!r} {problem}` -/
  | pinned (pack what value problem : String)
  /-- `two entries lock pack {pack!r}; one canonical name is one pack, whatever the source` -/
  | duplicate (pack : String)
  /-- `packs {earlier!r} and {pack!r} claim conflicting namespaces ({a!r} vs {b!r}) across
  publishers; installing both would make node ownership load-order dependent` -/
  | conflict (earlier pack a b : String)
  /-- `unsupported {what} format {format!r}; expected {expected!r}` -/
  | unsupported (what : String) (format : Option Value) (expected : String)
  /-- A message about a value of a record: `{before}{value!r}{after}`. -/
  | about (before value after : String)

def fail {α : Type} (message : String) : Except InstallError α := .error (.text message)

structure LockedPack where
  pack : String
  version : String
  artifactDigest : String
  publisher : String
  claims : List String
  source : String
  deriving DecidableEq

structure Lockfile where
  packs : List LockedPack
  deriving DecidableEq

section

variable (wide : Char → List Char)

/-- `_require_canonical` -/
def requireCanonical (label name : String) : Except InstallError Unit :=
  match validateName name with
  | some problem => .error (.invalid label name problem)
  | none => refuseIf (canonicalName wide name ≠ name)
      (.uncanonical label name (canonicalName wide name))

def checkClaim (pack claim : String) : Except InstallError Unit :=
  refuseIf (validateClaim claim ≠ none ∨ canonicalClaim wide claim ≠ claim)
    (.claim pack claim (validateClaim claim))

variable {V K : Type} (packaging : Packaging V K)

def checkPinned (pack what value : String) : Option String → Except InstallError Unit
  | some problem => .error (.pinned pack what value problem)
  | none => .ok ⟨⟩

def checkEntry (entry : LockedPack) : Except InstallError Unit := do
  requireCanonical wide "pack name" entry.pack
  requireCanonical wide "publisher id" entry.publisher
  entry.claims.forM (checkClaim wide entry.pack)
  checkPinned entry.pack "version" entry.version (validateVersion packaging entry.version)
  checkPinned entry.pack "digest" entry.artifactDigest (validateArtifactDigest entry.artifactDigest)

def checkPair (entry earlier : LockedPack) : Except InstallError Unit := do
  refuseIf (earlier.pack = entry.pack) (.duplicate entry.pack)
  if earlier.publisher = entry.publisher then pure ()
  else earlier.claims.forM fun a => entry.claims.forM fun b =>
    refuseIf (claimsConflict wide a b = true) (.conflict earlier.pack entry.pack a b)

def checkPairs (earlier : List LockedPack) : List LockedPack → Except InstallError Unit
  | [] => pure ()
  | entry :: rest => do
    earlier.forM (checkPair wide entry)
    checkPairs (earlier ++ [entry]) rest

/-- `Lockfile.of` -/
def Lockfile.of (packs : List LockedPack) : Except InstallError Lockfile := do
  let ordered := sortedBy (·.pack) packs
  ordered.forM (checkEntry wide packaging)
  checkPairs wide [] ordered
  return ⟨ordered⟩

/-- `Lockfile.get` -/
def Lockfile.get (lockfile : Lockfile) (pack : String) : Option LockedPack :=
  lockfile.packs.find? (·.pack == canonicalName wide pack)

def lockfileFormat : String := "dinkster.lock/1"

def LockedPack.record (entry : LockedPack) : Value :=
  .obj [("pack",.str entry.pack),("version",.str entry.version),
    ("artifactDigest",.str entry.artifactDigest),("publisher",.str entry.publisher),
    ("claims",.arr (entry.claims.map .str)),("source",.str entry.source)]

def Lockfile.record (lockfile : Lockfile) : Value :=
  .obj [("format",.str lockfileFormat),("packs",.arr (lockfile.packs.map (·.record)))]

def Lockfile.recordJson (lockfile : Lockfile) : String := canonicalJson lockfile.record

/-- The installation's content address; `blake3` gives the hex digest of a text. -/
def Lockfile.recordDigest (blake3 : String → String) (lockfile : Lockfile) : String :=
  artifactDigestPrefix ++ blake3 lockfile.recordJson

def entryField (entry : Object) (key : String) : Except InstallError String :=
  match get? entry key with
  | some (.str value) => .ok value
  | _ => fail ("lockfile pack entry field '" ++ key ++ "' must be a string")

def entryClaims (entry : Object) : Except InstallError (List String) :=
  match get? entry "claims" with
  | some (.arr claims) =>
    match asStrings claims with
    | some claims => .ok claims
    | none => fail "lockfile pack entry 'claims' must be a list of strings"
  | _ => fail "lockfile pack entry 'claims' must be a list of strings"

def entryOfRecord : Value → Except InstallError LockedPack
  | .obj entry => do
    let pack ← entryField entry "pack"
    let version ← entryField entry "version"
    let artifactDigest ← entryField entry "artifactDigest"
    let publisher ← entryField entry "publisher"
    let source ← entryField entry "source"
    let claims ← entryClaims entry
    return ⟨pack,version,artifactDigest,publisher,claims,source⟩
  | _ => fail "lockfile pack entries must be JSON objects"

/-- `record.get("format") != expected` -/
def checkFormat (what : String) (record : Object) (expected : String) :
    Except InstallError Unit :=
  match get? record "format" with
  | some (.str format) =>
    refuseIf (format ≠ expected) (.unsupported what (some (.str format)) expected)
  | format => .error (.unsupported what format expected)

def readRecord (what document : String) (expected text : String) : Except InstallError Object :=
  match loads .plain text.toList with
  | none => fail (document ++ " is not valid JSON")
  | some (.obj record) => do
    checkFormat what record expected
    return record
  | some _ => fail (document ++ " must be a JSON object")

/-- `Lockfile.from_record_json` -/
def Lockfile.fromRecordJson (text : String) : Except InstallError Lockfile := do
  let record ← readRecord "lockfile" "lockfile" lockfileFormat text
  match get? record "packs" with
  | some (.arr packs) =>
    packs.mapM entryOfRecord >>= Lockfile.of wide packaging
  | _ => fail "lockfile 'packs' must be a list"

end

end Dinkster.Install
