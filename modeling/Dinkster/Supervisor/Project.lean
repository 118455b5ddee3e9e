import Dinkster.Lib.Faults
import Dinkster.Supervisor.State
import Mathlib

/-! One project with the stores and the registry it shares: engine records, store registration and
the append-only history. A read and the write it decides are one operation of the program. -/
namespace Dinkster.Environment
open Canonical Faults Fallible

structure Project where
  current : Option Nat
  settings : Option Settings
  pointer : Option Path
  trees : Dict Nat Tree
  journals : Dict Nat Journal
  history : List Entry
  attempts : List Attempt
  runtime : Dict (Nat × String) Engine
  projects : Dict Path (Finset Path)
  volumes : Option (Dict String Path)
  /-- the trees that a collection has moved to `.garbage`, by the collection's journal -/
  parked : Dict (Nat × Nat) Tree := .empty
  /-- the cache entries of each store, and those that a collection has moved aside -/
  caches : Finset (Path × Path) := ∅
  parkedCaches : Finset (Path × Nat × Path) := ∅
  /-- the journal of the project that the `collection` file of a store names -/
  markers : Dict Path Nat := .empty
  deriving DecidableEq

/-- Where the project stands, and what the file system says of paths and of directories. -/
structure Site where
  root : Path
  volume : Path → String
  /-- the order a listing gives a tree's files in, `none` being `generation.json` -/
  listing : Tree → List (Option Path)
  /-- the cache entries of a store that the generations of its registered projects refer to, with
  the given generations of this project left out -/
  references : Project → Path → List Nat → Except String (Finset Path)

abbrev Action (α : Type) := Prog Project String α

namespace Project

def generation (s : Project) (number : Nat) : Except String Generation :=
  (s.trees.get? number).elim (.error "cannot read generation.json") Tree.read

def readJournal (stem : Nat) : Action Journal := look fun s =>
  (s.journals.get? stem).elim (.error "cannot read the journal") Journal.read

def writeJournal (stem : Nat) (journal : Journal) : Action Unit :=
  put fun s => { s with journals := s.journals.set stem journal }

/-- `any(Journal.read(path).incomplete for path in ...)` -/
def anyIncomplete : List Journal → Except String Bool
  | [] => .ok false
  | journal :: rest => do
    let read ← journal.read
    if read.incomplete then return true
    anyIncomplete rest

def setCurrent (number : Nat) : Action Unit := act fun s => do
  generationNumber number
  let generation ← s.generation number
  refuseIf (generation.number ≠ number) "generation directory and recorded number disagree"
  return (⟨⟩,{ s with current := some number })

def startEngine (generation : Nat) (name : String) (port : Nat) (gpus : List String) :
    Action Unit := act fun s => do
  validateAssignment generation name port gpus
  let _ ← s.generation generation
  if (s.runtime.get? (generation,name)).any Engine.running then
    refuseIf (s.runtime.get? (generation,name) ≠ some ⟨port,gpus,true⟩)
      "engine assignment changed; stop it first"
    return (⟨⟩,s)
  else
    return (⟨⟩,{ s with runtime := s.runtime.set (generation,name) ⟨port,gpus,true⟩ })

def stopEngine (name : String) (generation : Nat) : Action Unit := put fun s =>
  match s.runtime.get? (generation,name) with
  | none => s
  | some engine => { s with
      runtime := s.runtime.set (generation,name) { engine with running := false } }

def engineRecords (s : Project) (generation : Nat) : List (String × Engine) :=
  sortedBy (·.1) (s.runtime.entries.filterMap fun e =>
    if e.1.1 = generation then some (e.1.2,e.2) else none)

/-- The assignments of a generation; `_parse_record` validates each. -/
def engineAssignments (s : Project) (generation : Nat) : Except String (List (String × Engine)) := do
  (s.engineRecords generation).forM fun e => validateAssignment generation e.1 e.2.port e.2.gpus
  return s.engineRecords generation

def preserveStoppedEngine (name : String) (previous target port : Nat) : Action Unit :=
  act fun s =>
    match s.runtime.get? (previous,name) with
    | none => .error "previous binding is not safely stopped"
    | some record => do
      refuseIf (record.running = true) "previous binding is not safely stopped"
      refuseIf ((s.runtime.get? (target,name)).any Engine.running = true)
        "target binding is not safely stopped"
      return (⟨⟩,{ s with
        runtime := s.runtime.set (target,name) { record with port := port, running := false } })

def requireIdle : Action Unit := look fun _ => .ok ⟨⟩

def selectStore (site : Site) (s : Project) (requested : Option Path) : Except String Path := do
  let registered := (s.volumes.getD .empty).get? (site.volume site.root)
  let selected := requested.getD (registered.getD (site.root.dropLast ++ ["dinkster-data"]))
  refuseIf (registered.any (· ≠ selected) = true) "volume already uses another store"
  refuseIf (site.volume selected ≠ site.volume site.root)
    "project and wheel store must be on the same volume"
  refuseIf (isRelativeTo selected site.root ∨ isRelativeTo site.root selected)
    "project and wheel store must not contain each other"
  return selected

def storeProjects (s : Project) (store : Path) : Finset Path := (s.projects.get? store).getD ∅

def registeredStores (s : Project) : Dict String Path := s.volumes.getD .empty

def registerProject (site : Site) (store : Path) : Action Unit := do
  act fun s => do
    let selected ← selectStore site s (some store)
    refuseIf (selected ≠ store) "store selection changed after planning"
    return (⟨⟩,{ s with projects := s.projects.set store (insert site.root (s.storeProjects store)) })
  put fun s => { s with
    volumes := some (s.registeredStores.set (site.volume site.root) store) }

def setupRegistration (site : Site) (s : Project) (store : Path) : Registration where
  store := store
  project := s.settings
  pointer := s.pointer
  addedProject := decide (site.root ∉ s.storeProjects store)
  addedVolume := decide (site.volume site.root ∉ s.registeredStores.keys)
  hadProjects := (s.projects.get? store).isSome
  hadRegistry := s.volumes.isSome

def restoreSetupRegistration (site : Site) (snapshot : Registration) : Action Unit := do
  let found ← look fun s => .ok (s.storeProjects snapshot.store)
  let projects := if snapshot.addedProject then found.erase site.root else found
  onlyIf (snapshot.addedProject = true) (put fun s => { s with
    projects := if projects ≠ ∅ ∨ snapshot.hadProjects then s.projects.set snapshot.store projects
      else s.projects.erase snapshot.store })
  put fun s =>
    let device := site.volume site.root
    let entries := if snapshot.addedVolume ∧ projects = ∅ ∧
      s.registeredStores.get? device = some snapshot.store then s.registeredStores.erase device
      else s.registeredStores
    { s with volumes := if entries.entries ≠ [] ∨ snapshot.hadRegistry then some entries else none }
  put fun s => { s with settings := snapshot.project }
  put fun s => { s with pointer := snapshot.pointer }

def consecutive {α : Type} (number : α → Nat) (records : List α) : Except String Unit :=
  refuseIf (records.map number ≠ (List.range records.length).map (· + 1))
    "invalid installation history entry"

/-- `_publish_record`: what is there is never replaced, and what is new comes last. -/
def publishRecord {α : Type} [DecidableEq α] (number : α → Nat) (records : List α) (entry : α) :
    Except String (List α) := do
  generationNumber (number entry)
  match records.find? fun kept => number kept = number entry with
  | some kept => do
    refuseIf (kept ≠ entry) "cannot replace an installation history entry"
    return records
  | none => do
    consecutive number records
    refuseIf (number entry ≠ records.length + 1) "history entries must append consecutively"
    return records ++ [entry]

def publishEntry (entry : Entry) : Action Unit := act fun s => do
  let history ← publishRecord Entry.id s.history entry
  return (⟨⟩,{ s with history := history })

def recordFailedRestore (operation entryId : Nat) (now error : String) : Action Unit :=
  act fun s => do
    consecutive Attempt.id s.attempts
    if s.attempts.any (·.operation = operation) then return (⟨⟩,s)
    else do
      let attempts ← publishRecord Attempt.id s.attempts
        ⟨s.attempts.length + 1,now,operation,entryId,s.current,error⟩
      return (⟨⟩,{ s with attempts := attempts })

local instance pathLawful : LawfulBEq Path := inferInstance

def isSoftwareMetadata (name : Path) : Bool :=
  name ∈ [["constraints.txt"],["base-manifest.json"],["engine-manifest.json"],
    ["artifact-sources.json"],["dinkster.lock"]] ||
  match name with
  | ["packs",_,"pack-lock.json"] => true
  | ["pack-sources",_,"dinkster-pack.toml"] => true
  | _ => false

def captureSoftware (tree : Tree) : Except String Snapshot := do
  let record ← tree.read
  let expected := Dict.ofList record.files
  let names := sortedBy id (["constraints.txt"] ::
    expected.keys.filter fun name => isSoftwareMetadata name && name ≠ ["constraints.txt"])
  let metadata ← names.mapM fun name =>
    match expected.get? name,tree.files.get? name with
    | some sha,some actual => if actual = sha then .ok (name,actual)
      else .error ("snapshot requires intact software metadata: " ++ "/".intercalate name)
    | _,_ => .error ("snapshot requires intact software metadata: " ++ "/".intercalate name)
  return ⟨record.engineVersion,record.engineRelease,record.base,record.variant,record.constraints,
    record.workerProtocol,record.source,record.inProcessPacks,metadata⟩

def prepareEntry (s : Project) (target operation : Nat) (now : String) (reason : Operation)
    (restoredFrom : Option Nat) (exact : Bool) : Except String Entry := do
  consecutive Entry.id s.history
  let tree ← (s.trees.get? target).elim (.error "cannot read generation.json") .ok
  let snapshot ← captureSoftware tree
  return ⟨s.history.length + 1,now,operation,reason,target,snapshot,restoredFrom,exact⟩

def editTree (target : Nat) (change : Tree → Tree) (s : Project) : Project :=
  { s with trees := s.trees.set target (change ((s.trees.get? target).getD Tree.empty)) }

/-- `shutil.rmtree`: the files one by one in the listing's order, then the directory. -/
def removeTree (site : Site) (target : Nat) : Action Unit := do
  let tree ← look fun s => .ok ((s.trees.get? target).getD Tree.empty)
  forEach (site.listing tree) fun file => put (editTree target fun tree => match file with
    | none => { tree with record := none }
    | some name => { tree with files := tree.files.erase name })
  put fun s => { s with trees := s.trees.erase target }

/-- One durable change of a tree under construction. -/
inductive Edit
  | file (name : Path) (sha : String)
  | remove (name : Path)
  | record (generation : Generation)
  deriving DecidableEq

def Edit.apply : Edit → Tree → Tree
  | .file name sha,tree => { tree with files := tree.files.set name sha }
  | .remove name,tree => { tree with files := tree.files.erase name }
  | .record generation,tree => { tree with record := some generation }

def buildGeneration (site : Site) (target : Nat) (edits : List Edit) : Action Unit := do
  look fun s => refuseIf (target ∈ s.trees.keys) "generation already exists"
  handling (forEach edits fun edit => put (editTree target edit.apply)) fun error => do
    let tree ← look fun s => .ok (s.trees.get? target)
    onlyIf (tree.isSome = true) (removeTree site target)
    raise error

end Project

end Dinkster.Environment
