import Dinkster.Lib.Canonical
import Dinkster.Lib.Dict
import Dinkster.Lib.Fallible
import Mathlib

/-! Durable project records: sealed generation trees, journals and what is read back of them.
Absolute paths are kept as their components and a file's bytes as their content digest. -/
namespace Dinkster.Environment
open Canonical Fallible

abbrev Path := List String

/-- `path.is_relative_to(base)` -/
def isRelativeTo (path base : Path) : Bool := base.isPrefixOf path

inductive Source
  | published
  | locally
  deriving DecidableEq

structure Generation where
  number : Nat
  base : String
  engineVersion : String
  engineRelease : String
  constraints : String
  variant : String
  workerProtocol : Nat
  files : List (Path × String)
  inProcessPacks : List String
  source : Source
  deriving DecidableEq

/-- A directory under `generations`; `record` is what `Generation.read` makes of its record. -/
structure Tree where
  files : Dict Path String
  record : Option Generation
  deriving DecidableEq

namespace Tree

def empty : Tree := ⟨.empty,none⟩

def read (tree : Tree) : Except String Generation :=
  tree.record.elim (.error "cannot read generation.json") .ok

end Tree

namespace Generation

def overlooked (name : Path) : Bool := (name.head? == some "packs" && 1 < name.length) ||
  name.contains "__pycache__"

def drift (generation : Generation) (tree : Tree) : List String :=
  let expected := Dict.ofList generation.files
  expected.entries.filterMap (fun (name,sha) => match tree.files.get? name with
    | none => some ("missing: " ++ "/".intercalate name)
    | some actual => if actual = sha then none else some ("modified: " ++ "/".intercalate name)) ++
  (sortedBy id tree.files.keys).filterMap fun name =>
    if overlooked name ∨ name ∈ expected.keys then none
    else some ("unexpected: " ++ "/".intercalate name)

end Generation

inductive Operation
  | setup
  | update
  | rollback
  | restore
  | move
  | repair
  | gc
  deriving DecidableEq

def Operation.activates (operation : Operation) : Bool :=
  operation ∈ [.setup,.update,.rollback,.repair,.restore]

/-- A software snapshot: the sealed identities and the portable metadata beside them. -/
structure Snapshot where
  engineVersion : String
  engineRelease : String
  base : String
  variant : String
  constraints : String
  workerProtocol : Nat
  source : Source
  inProcessPacks : List String
  metadata : List (Path × String)
  deriving DecidableEq

/-- An installation history entry; `operation` is the name of the journal it belongs to. -/
structure Entry where
  id : Nat
  timestamp : String
  operation : Nat
  reason : Operation
  generation : Nat
  snapshot : Snapshot
  restoredFrom : Option Nat
  exact : Bool
  deriving DecidableEq

structure Attempt where
  id : Nat
  timestamp : String
  operation : Nat
  restoredFrom : Nat
  current : Option Nat
  error : String
  deriving DecidableEq

inductive Stage
  | planned
  | building
  | starting
  | switching
  | complete
  | rolledBack
  deriving DecidableEq

structure Binding where
  name : String
  port : Nat
  targetPort : Nat
  gpus : List String
  running : Bool
  healthProbe : Bool
  deriving DecidableEq

/-- The text of a `project.json`; `format` is the member of that name when the text is a JSON
object that has one. -/
structure Settings where
  text : String
  format : Option String
  deriving DecidableEq

def Settings.document (settings : Settings) : Bool := settings.format == some "dinkster.project/1"

structure SettingsChange where
  previous : Settings
  target : Settings
  deriving DecidableEq

structure Registration where
  store : Path
  project : Option Settings
  pointer : Option Path
  addedProject : Bool
  addedVolume : Bool
  hadProjects : Bool
  hadRegistry : Bool
  deriving DecidableEq

structure Relocation where
  sourceRoot : Path
  targetRoot : Path
  sourceStore : Path
  targetStore : Path
  sourceFiles : Option (Dict Path String)
  deriving DecidableEq

structure Journal where
  operation : Operation
  previous : Option Nat
  target : Nat
  stage : Stage
  error : Option String := none
  bindings : List Binding := []
  setupRegistration : Option Registration := none
  projectSettings : Option SettingsChange := none
  collectedGenerations : List Nat := []
  collectionStore : Option Path := none
  collectedStorePaths : List Path := []
  relocation : Option Relocation := none
  historyEntry : Option Entry := none
  restoredFrom : Option Nat := none
  deriving DecidableEq

/-- `[a-z0-9]` -/
def portable (c : Char) : Bool := c.isLower || c.isDigit

/-- `[a-z0-9][a-z0-9-]*` -/
def engineName (name : String) : Bool :=
  match name.toList with
  | [] => false
  | first :: rest => portable first && rest.all fun c => portable c || c == '-'

/-- `[0-9A-Fa-f-]` -/
def uuidChar (c : Char) : Bool := c.isDigit || c == '-' || ('a' ≤ c && c ≤ 'f') || ('A' ≤ c && c ≤ 'F')

/-- `[0-9]+|GPU-[0-9A-Fa-f-]+` -/
def gpuId (gpu : String) : Bool :=
  match gpu.toList with
  | 'G' :: 'P' :: 'U' :: '-' :: rest => rest ≠ [] && rest.all uuidChar
  | digits => digits ≠ [] && digits.all Char.isDigit

def validPort (port : Nat) : Bool := 1 ≤ port && port ≤ 65535

def readBindings : List String → List Nat → List Binding → Except String Unit
  | _,_,[] => .ok ⟨⟩
  | names,ports,binding :: rest => do
    refuseIf (engineName binding.name = false ∨ binding.name ∈ names ∨
      validPort binding.port = false ∨ validPort binding.targetPort = false ∨
      binding.targetPort ∈ ports) "invalid journal binding"
    refuseIf (binding.gpus.all gpuId = false) "invalid journal GPU assignment"
    readBindings (binding.name :: names) (binding.targetPort :: ports) rest

def generationNumber (number : Nat) : Except String Unit :=
  refuseIf (number < 1) "generation must be a positive integer"

def storeCachePath (entry : Path) : Bool :=
  match entry with
  | ["uv-cache"] => true
  | [category,name] => category ∈ ["bases","engines","downloads","wheels"] &&
      name.toList.length == 64 && name.toList.all fun c => c.isDigit || ('a' ≤ c && c ≤ 'f')
  | _ => false

namespace Journal

def incomplete (journal : Journal) : Bool := journal.stage ∉ [.complete,.rolledBack]

def readCollection (journal : Journal) : Except String Unit := do
  journal.collectedGenerations.forM generationNumber
  refuseIf (journal.collectedGenerations ≠ [] ∧ (journal.operation ≠ .gc ∨
    journal.previous ≠ some journal.target ∨ journal.target ∈ journal.collectedGenerations ∨
    ¬ journal.collectedGenerations.Nodup)) "collection must name distinct non-current generations"
  refuseIf (journal.collectedStorePaths.all storeCachePath = false)
    "store collection paths must name disposable cache entries"
  refuseIf ((journal.collectionStore.isSome ∨ journal.collectedStorePaths ≠ []) ∧
    (journal.operation ≠ .gc ∨ journal.previous ≠ some journal.target ∨
      journal.collectionStore = none ∨ ¬ journal.collectedStorePaths.Nodup))
    "store collection requires a distinct cache set and absolute store"

def readSettings (journal : Journal) : Except String Unit :=
  match journal.projectSettings with
  | none => .ok ⟨⟩
  | some settings => do
    refuseIf (journal.operation ∉ [.update,.rollback])
      "project settings snapshot requires update or rollback"
    refuseIf (settings.previous.document = false ∨ settings.target.document = false)
      "project settings snapshots require project documents"

def readRegistration (journal : Journal) : Except String Unit :=
  refuseIf (journal.setupRegistration.isSome ∧ (journal.operation ∉ [.setup,.move] ∨
    (journal.operation = .setup ∧ journal.previous ≠ none)))
    "registration snapshot requires initial setup"

def readRelocation (journal : Journal) : Except String Unit :=
  match journal.relocation with
  | none => .ok ⟨⟩
  | some relocation => do
    refuseIf (journal.operation ≠ .move ∨ journal.previous ≠ some journal.target)
      "relocation requires a move of the active generation"
    refuseIf (isRelativeTo relocation.sourceRoot relocation.targetRoot ∨
      isRelativeTo relocation.targetRoot relocation.sourceRoot)
      "relocation roots must be separate trees"

def readEntry (journal : Journal) : Except String Unit :=
  match journal.historyEntry with
  | none => .ok ⟨⟩
  | some entry => do
    refuseIf (entry.generation ≠ journal.target ∨ journal.operation.activates = false)
      "journal history entry must describe its activation"
    generationNumber entry.id

def readRestored (journal : Journal) : Except String Unit :=
  match journal.restoredFrom with
  | none => .ok ⟨⟩
  | some entry => do
    refuseIf (journal.operation ∉ [.restore,.rollback])
      "restoredFrom requires a restore or rollback journal"
    generationNumber entry

def check (journal : Journal) : Except String Unit := do
  readBindings [] [] journal.bindings
  refuseIf (journal.previous = some journal.target ∧
    journal.operation ∈ [.update,.rollback,.repair,.restore])
    "activation journal must name distinct generations"
  journal.readCollection
  journal.readSettings
  journal.readRegistration
  journal.readRelocation
  journal.readEntry
  journal.readRestored
  journal.previous.elim (.ok ⟨⟩) generationNumber
  generationNumber journal.target

def read (journal : Journal) : Except String Journal := journal.check.map fun _ => journal

end Journal

/-- The record of one engine under `runtime`, with the state its inspection gives. -/
structure Engine where
  port : Nat
  gpus : List String
  running : Bool
  deriving DecidableEq

def validateAssignment (generation : Nat) (name : String) (port : Nat) (gpus : List String) :
    Except String Unit := do
  generationNumber generation
  refuseIf (engineName name = false) "engine name must be a portable engine id"
  refuseIf (validPort port = false) "port must be in 1..65535"
  refuseIf (gpus.all gpuId = false) "GPU ids must be decimal indexes or GPU UUIDs"

end Dinkster.Environment
