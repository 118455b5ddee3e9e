import Dinkster.Lib.Dict
import Dinkster.Lib.JsonSortKeys
import Dinkster.Registry.Lockfile
import Mathlib.Data.List.Lex
import Mathlib.Data.Prod.Lex

/-! Plan files and snapshot files: what their constructors accept, how they are written and what
their readers accept. -/
namespace Dinkster.Install
open Json Json.Object Registry Fallible Canonical

def isBlank (c : Char) : Bool :=
  let n := c.toNat
  (9 ≤ n && n ≤ 13) || (28 ≤ n && n ≤ 32) || n == 0x85 || n == 0xA0 || n == 0x1680 ||
    (0x2000 ≤ n && n ≤ 0x200A) || n == 0x2028 || n == 0x2029 || n == 0x202F || n == 0x205F ||
    n == 0x3000

/-- `str.split()` -/
def words (text : String) : List String :=
  ((text.toList.splitOnP isBlank).filter (· ≠ [])).map String.ofList

def isAlnum (c : Char) : Bool := c.isAlphanum

def isDistribution (name : List Char) : Bool :=
  name.head?.any isAlnum && name.getLast?.any isAlnum &&
    name.all fun c => isAlnum c || c == '.' || c == '_' || c == '-'

/-- A version without its epoch: groups of letters and digits, parted by `.` or `+`. -/
def isRelease (text : List Char) : Bool :=
  (text.splitOnP fun c => c == '.' || c == '+').all fun part => part ≠ [] && part.all isAlnum

def isPinnedVersion (text : List Char) : Bool :=
  match text.dropWhile Char.isDigit with
  | '!' :: release => text.takeWhile Char.isDigit ≠ [] && isRelease release
  | _ => isRelease text

/-- `_EXACT_PIN.fullmatch` -/
def isExactPin (token : String) : Bool :=
  match token.toList.dropWhile (· ≠ '=') with
  | '=' :: '=' :: version =>
    isDistribution (token.toList.takeWhile (· ≠ '=')) && isPinnedVersion version
  | _ => false

def hashAnnotation : String := "--hash="

/-- A token that starts with `_HASH_ANNOTATION` and goes on as `_HASH_DIGEST`. -/
def isHash (token : String) : Bool :=
  hashAnnotation.toList.isPrefixOf token.toList &&
    let digest := token.toList.drop hashAnnotation.length
    match digest.dropWhile (· ≠ ':') with
    | ':' :: hex => digest.takeWhile (· ≠ ':') ≠ [] &&
        (digest.takeWhile (· ≠ ':')).all (fun c => isAlnum c || c == '_') &&
        hex ≠ [] && hex.all fun c => isHex c.toLower
    | _ => false

section

variable (repr : String → String)

def checkToken (label pack pin : String) (allowHashes : Bool) (token : String) :
    Except InstallError Unit := do
  refuseIf (¬ allowHashes) (.text (label ++ " pin " ++ repr pin ++ " for pack " ++ repr pack ++
    " carries an annotation " ++ repr token ++ "; constraints are version-only"))
  refuseIf (¬ isHash token) (.text (label ++ " pin " ++ repr pin ++ " for pack " ++ repr pack ++
    " carries an unrecognized annotation " ++ repr token ++
    "; only '--hash=<algo>:<hex digest>' may follow the exact pin"))

def decodePin (label pack : String) (allowHashes : Bool) : Value → Except InstallError String
  | .str pin =>
    match words pin with
    | [] => fail (label ++ " pin " ++ repr pin ++ " for pack " ++ repr pack ++
        " is not an exact 'name==version' pin")
    | first :: annotations => do
      refuseIf (¬ isExactPin first) (.text (label ++ " pin " ++ repr pin ++ " for pack " ++
        repr pack ++ " is not an exact 'name==version' pin"))
      annotations.forM (checkToken repr label pack pin allowHashes)
      return " ".intercalate (first :: annotations)
  | _ => fail (label ++ " pins for pack " ++ repr pack ++ " must be a list of strings")

/-- `_decode_pins` -/
def decodePins (label : String) (allowHashes : Bool) (pack : String) :
    Value → Except InstallError (List String)
  | .arr pins => (pins.mapM (decodePin repr label pack allowHashes)).map (sortedBy id)
  | _ => fail (label ++ " pins for pack " ++ repr pack ++ " must be a list of strings")

abbrev Group := String × List String

def checkGroup (what : String) (locked grouped : List String) (group : Group) :
    Except InstallError (List String) := do
  refuseIf (group.2.length < 2 ∨ ∃ member ∈ group.2, member ∉ locked)
    (.text (what ++ " venv group " ++ repr group.1 ++ " has invalid members"))
  refuseIf (∃ member ∈ group.2, member ∈ grouped)
    (.text (what ++ " records duplicate venv-group membership"))
  return grouped ++ group.2

def checkPlacement (what owner : String) (locked grouped inProcess : List String)
    (runtimePins : List (String × String)) : Except InstallError Unit := do
  refuseIf (¬ inProcess.Nodup) (.text (what ++ " records duplicate in-process membership"))
  refuseIf (∃ pack ∈ inProcess, pack ∉ locked)
    (.text (what ++ " records in-process packs not locked by the " ++ owner ++ ": " ++
      ", ".intercalate (sortedBy id (inProcess.filter (· ∉ locked)).dedup)))
  refuseIf (∃ pack ∈ inProcess, pack ∈ grouped)
    (.text (what ++ " records packs in both a venv group and in-process: " ++
      ", ".intercalate (sortedBy id (inProcess.filter (· ∈ grouped)).dedup)))
  refuseIf (¬ (runtimePins.map (·.1)).Nodup)
    (.text (what ++ " records duplicate runtime pin names"))
  refuseIf (inProcess ≠ [] ∧ (runtimePins.map (·.1)).toFinset ≠ {"torch","comfy-aimdo"})
    (.text (what ++ " records in-process packs without exact torch and comfy-aimdo pins"))
  refuseIf (runtimePins ≠ [] ∧ inProcess = [])
    (.text (what ++ " records runtime pins without in-process packs"))

/-- `record.get(key)`, where `null` is no value either. -/
def given (record : Object) (key : String) : Option Value :=
  match get? record key with
  | some .null => none
  | value => value

def decodeFlag (record : Object) (key : String) : Except InstallError Bool :=
  match get? record key with
  | none => .ok false
  | some (.bool value) => .ok value
  | some _ => fail ("plan " ++ repr key ++ " must be a boolean")

def decodeText (what : String) (record : Object) (key : String) : Except InstallError String :=
  match get? record key with
  | none => .ok ""
  | some (.str value) => .ok value
  | some _ => fail (what ++ " " ++ repr key ++ " must be a string")

def decodeMembers {α : Type} (message : String) (decode : String → Value → Except InstallError α)
    (record : Object) (key : String) : Except InstallError (Option (List (String × α))) :=
  match given record key with
  | none => .ok none
  | some (.obj members) =>
    (members.mapM fun m => (decode m.1 m.2).map (m.1,·)).map some
  | some _ => fail message

def decodeGroup (what name : String) : Value → Except InstallError (List String)
  | .arr members =>
    match asStrings members with
    | some members => .ok members
    | none => fail (what ++ " venv group " ++ repr name ++ " must be a list of strings")
  | _ => fail (what ++ " venv group " ++ repr name ++ " must be a list of strings")

/-- `record.get("inProcess", [])` -/
def decodeInProcess (what : String) (record : Object) : Except InstallError (List String) :=
  match get? record "inProcess" with
  | none => .ok []
  | some (.arr packs) =>
    match asStrings packs with
    | some packs => .ok packs
    | none => fail (what ++ " 'inProcess' must be a list of strings")
  | some _ => fail (what ++ " 'inProcess' must be a list of strings")

def textMember (message : String) : Value → Except InstallError String
  | .str value => .ok value
  | _ => fail message

/-- `record.get("runtimePins", {})` -/
def decodeRuntimePins (what : String) (record : Object) :
    Except InstallError (List (String × String)) :=
  let message := what ++ " 'runtimePins' must be an object of strings"
  match get? record "runtimePins" with
  | none => .ok []
  | some (.obj members) => members.mapM fun m => (textMember message m.2).map (m.1,·)
  | some _ => fail message

def only (condition : Prop) [Decidable condition] (v : Value) : Option Value :=
  if condition then some v else none

def texts (items : List String) : Value := .arr (items.map .str)

def dictOf {α : Type} (f : α → Value) (pairs : List (String × α)) : Value :=
  .obj (Dict.ofList (pairs.map fun p => (p.1,f p.2))).entries

/-- `json.loads(lockfile.record_json())` -/
def Lockfile.document (lockfile : Lockfile) : Value :=
  (loads .plain lockfile.recordJson.toList).getD .null

variable (wide : Char → List Char) {V K : Type} (packaging : Packaging V K)

def decodeLockfile (what key : String) (record : Object) : Except InstallError Lockfile :=
  match get? record key with
  | some (.obj members) => Lockfile.fromRecordJson wide packaging (dumps .spaced (.obj members))
  | _ => fail (what ++ " '" ++ key ++ "' must be a lockfile object")

def planFormat : String := "dinkster.plan/1"

structure VenvSpec where
  exact_ : Option (List String)
  constraints : List String
  deriving DecidableEq

structure PlanRecord where
  target : Lockfile
  base : Option String
  venvs : Bool
  accelerator : String
  acquire : Bool
  deriveClaims : Bool
  venvSpecs : List (String × VenvSpec)
  allowDoctorFindings : Bool
  venvGroups : Option (List Group)
  inProcess : List String
  runtimePins : List (String × String)
  generationTopology : Bool
  deriving DecidableEq

def checkPlanGroup (locked : List String) (specs : List (String × VenvSpec))
    (grouped : List String) (group : Group) : Except InstallError (List String) := do
  let grouped ← checkGroup repr "plan" locked grouped group
  let memberSpecs := group.2.map (Dict.ofList specs).get?
  refuseIf (∃ spec ∈ memberSpecs, memberSpecs.head? ≠ some spec)
    (.text ("plan venv group " ++ repr group.1 ++ " has contradictory per-member exact pins"))
  return grouped

/-- `PlanRecord(...)`, with what `__post_init__` makes of the fields. -/
def PlanRecord.of (r : PlanRecord) : Except InstallError PlanRecord := do
  let locked := r.target.packs.map (·.pack)
  let specs := sortedBy (·.1) r.venvSpecs
  specs.forM fun spec => refuseIf (spec.1 ∉ locked)
    (.text ("plan records a venv spec for pack " ++ repr spec.1 ++
      " that the target does not lock"))
  let groups := r.venvGroups.map (sortedBy toLex)
  let grouped ← (groups.getD []).foldlM (checkPlanGroup repr locked specs) []
  let inProcess := sortedBy id r.inProcess
  let runtimePins := sortedBy toLex r.runtimePins
  checkPlacement "plan" "target" locked grouped inProcess runtimePins
  return { r with
    venvSpecs := specs, venvGroups := groups, inProcess := inProcess, runtimePins := runtimePins }

def VenvSpec.members (spec : VenvSpec) : List (String × Option Value) :=
  [("exact",spec.exact_.map texts),("constraints",only (spec.constraints ≠ []) (texts spec.constraints))]

def VenvSpec.document (spec : VenvSpec) : Value := .obj (present spec.members)

def PlanRecord.members (r : PlanRecord) : List (String × Option Value) :=
  [("format",some (.str planFormat)),("base",some (r.base.elim .null .str)),
    ("target",some r.target.document),("venvs",some (.bool r.venvs)),
    ("accelerator",some (.str r.accelerator)),("acquire",only r.acquire (.bool true)),
    ("deriveClaims",only r.deriveClaims (.bool true)),
    ("allowDoctorFindings",only r.allowDoctorFindings (.bool true)),
    ("venvSpecs",only (r.venvSpecs ≠ []) (dictOf VenvSpec.document r.venvSpecs)),
    ("venvGroups",r.venvGroups.map (dictOf texts)),
    ("inProcess",only (r.inProcess ≠ []) (texts r.inProcess)),
    ("runtimePins",only (r.runtimePins ≠ []) (dictOf .str r.runtimePins)),
    ("generationTopology",only r.generationTopology (.bool true))]

/-- `PlanRecord.record_json` -/
def PlanRecord.recordJson (r : PlanRecord) : String := canonicalJson (.obj (present r.members))

def decodeBase (record : Object) : Except InstallError (Option String) :=
  match given record "base" with
  | none => .ok none
  | some (.str base) =>
    if validateArtifactDigest base ≠ none then fail ("plan 'base' " ++ repr base ++
      " is not a digest")
    else .ok (some base)
  | some _ => fail "plan 'base' must be a string digest or null"

def decodeVenvs (record : Object) : Except InstallError Bool :=
  match get? record "venvs" with
  | some (.bool venvs) => .ok venvs
  | _ => fail "plan 'venvs' must be a boolean"

/-- Pins that may be missing or `null`. -/
def decodeSomePins (label : String) (allowHashes : Bool) (pack : String) (spec : Object)
    (key : String) : Except InstallError (Option (List String)) :=
  match given spec key with
  | none => .ok none
  | some raw => (decodePins repr label allowHashes pack raw).map some

def decodeSpec (pack : String) : Value → Except InstallError VenvSpec
  | .obj spec => do
    let exact_ ← decodeSomePins repr "plan venv exact" true pack spec "exact"
    let constraints ← decodeSomePins repr "plan venv constraint" false pack spec "constraints"
    return ⟨exact_,constraints.getD []⟩
  | _ => fail ("plan venv spec for pack " ++ repr pack ++ " must be an object")

def decodePlanGroup (name : String) (members : Value) : Except InstallError (List String) :=
  (decodeGroup repr "plan" name members).map (sortedBy id)

/-- `PlanRecord.from_record_json` -/
def PlanRecord.fromRecordJson (text : String) : Except InstallError PlanRecord := do
  let record ← readRecord "plan" "plan file" planFormat text
  let base ← decodeBase repr record
  let venvs ← decodeVenvs record
  let accelerator ← decodeText repr "plan" record "accelerator"
  let acquire ← decodeFlag repr record "acquire"
  let deriveClaims ← decodeFlag repr record "deriveClaims"
  let allowDoctorFindings ← decodeFlag repr record "allowDoctorFindings"
  let generationTopology ← decodeFlag repr record "generationTopology"
  let target ← decodeLockfile wide packaging "plan" "target" record
  let specs ← decodeMembers "plan 'venvSpecs' must be an object of pack -> spec" (decodeSpec repr)
    record "venvSpecs"
  let groups ← decodeMembers "plan 'venvGroups' must be an object" (decodePlanGroup repr) record
    "venvGroups"
  let inProcess ← decodeInProcess "plan" record
  let runtimePins ← decodeRuntimePins "plan" record
  PlanRecord.of repr ⟨target,base,venvs,accelerator,acquire,deriveClaims,specs.getD [],
    allowDoctorFindings,groups,inProcess,runtimePins,generationTopology⟩

def snapshotFormat : String := "dinkster.snapshot/1"

structure SnapshotRecord where
  lockfile : Lockfile
  venvs : List (String × List String)
  python : String
  platform : String
  dinkster : String
  accelerator : String
  runtime : List (String × String)
  venvGroups : List Group
  inProcess : List String
  runtimePins : List (String × String)
  deriving DecidableEq

/-- `SnapshotRecord(...)`: the checks of `__post_init__`, which leave the fields as they are. -/
def SnapshotRecord.build (r : SnapshotRecord) : Except InstallError SnapshotRecord := do
  let locked := r.lockfile.packs.map (·.pack)
  r.venvs.forM fun venv => refuseIf (venv.1 ∉ locked)
    (.text ("snapshot pins a venv for pack " ++ repr venv.1 ++
      " that the lockfile does not lock"))
  let grouped ← r.venvGroups.foldlM (checkGroup repr "snapshot" locked) []
  checkPlacement "snapshot" "lockfile" locked grouped r.inProcess r.runtimePins
  return r

def sortedPairs (pairs : List (String × List String)) : List (String × List String) :=
  sortedBy (·.1) ((Dict.ofList pairs).entries.map fun p => (p.1,sortedBy id p.2))

/-- `SnapshotRecord.of`, of fields whose mappings are listed as pairs. -/
def SnapshotRecord.of (r : SnapshotRecord) : Except InstallError SnapshotRecord :=
  SnapshotRecord.build repr { r with
    venvs := sortedPairs r.venvs
    runtime := sortedBy toLex (Dict.ofList r.runtime).entries
    venvGroups := sortedPairs r.venvGroups
    inProcess := sortedBy id r.inProcess
    runtimePins := sortedBy toLex (Dict.ofList r.runtimePins).entries }

def SnapshotRecord.members (r : SnapshotRecord) : List (String × Option Value) :=
  [("format",some (.str snapshotFormat)),("dinkster",some (.str r.dinkster)),
    ("python",some (.str r.python)),("platform",some (.str r.platform)),
    ("accelerator",some (.str r.accelerator)),("lockfile",some r.lockfile.document),
    ("venvs",some (dictOf texts r.venvs)),("runtime",only (r.runtime ≠ []) (dictOf .str r.runtime)),
    ("venvGroups",only (r.venvGroups ≠ []) (dictOf texts r.venvGroups)),
    ("inProcess",only (r.inProcess ≠ []) (texts r.inProcess)),
    ("runtimePins",only (r.runtimePins ≠ []) (dictOf .str r.runtimePins))]

/-- `SnapshotRecord.record_json` -/
def SnapshotRecord.recordJson (r : SnapshotRecord) : String :=
  canonicalJson (.obj (present r.members))

def decodeSnapshotVenvs (record : Object) :
    Except InstallError (List (String × List String)) :=
  match get? record "venvs" with
  | some (.obj members) => members.mapM fun m =>
      (decodePins repr "snapshot venv" true m.1 m.2).map (m.1,·)
  | _ => fail "snapshot 'venvs' must be an object of pack -> pins"

/-- `SnapshotRecord.from_record_json` -/
def SnapshotRecord.fromRecordJson (text : String) : Except InstallError SnapshotRecord := do
  let record ← readRecord "snapshot" "snapshot file" snapshotFormat text
  let lockfile ← decodeLockfile wide packaging "snapshot" "lockfile" record
  let venvs ← decodeSnapshotVenvs repr record
  let python ← decodeText repr "snapshot" record "python"
  let platform ← decodeText repr "snapshot" record "platform"
  let dinkster ← decodeText repr "snapshot" record "dinkster"
  let accelerator ← decodeText repr "snapshot" record "accelerator"
  let runtime ← decodeMembers "snapshot 'runtime' must be an object of strings"
    (fun _ => textMember "snapshot 'runtime' must be an object of strings") record "runtime"
  let groups ← decodeMembers "snapshot 'venvGroups' must be an object"
    (decodeGroup repr "snapshot") record "venvGroups"
  let inProcess ← decodeInProcess "snapshot" record
  let runtimePins ← decodeRuntimePins "snapshot" record
  SnapshotRecord.of repr ⟨lockfile,venvs,python,platform,dinkster,accelerator,runtime.getD [],
    groups.getD [],inProcess,runtimePins⟩

end

end Dinkster.Install
