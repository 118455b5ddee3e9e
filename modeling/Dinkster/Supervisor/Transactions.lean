import Dinkster.Supervisor.Collection

/-! Journaled generation activation and recovery from an interruption, with the three callers that
build the target in between. -/
namespace Dinkster.Environment
open Faults Fallible

/-- Ports the operating system hands out while the sockets before them are still open. -/
structure FreePorts where
  ports : List Nat
  distinct : ports.Nodup
  valid : ∀ port ∈ ports, validPort port = true

namespace Project

variable (site : Site)

def nextGeneration (s : Project) : Nat :=
  let published := s.journals.entries.filterMap fun e =>
    if e.2.stage = .complete then some e.2.target else none
  (s.trees.keys ++ published).foldr max 0 + 1

def beginSetup (stem target port : Nat) (gpus : List String) (name : String)
    (registration : Option Registration) : Action Unit := do
  look fun s => do
    refuseIf (s.current ≠ none) "project already has an active generation"
    let pending ← anyIncomplete (s.journals.entries.map (·.2))
    refuseIf (pending = true) "incomplete environment operation requires recovery first"
    refuseIf (target ∈ s.trees.keys) "new generation target already exists"
    validateAssignment target name port gpus
  requireIdle
  writeJournal stem {
    operation := .setup
    previous := none
    target := target
    stage := .planned
    bindings := [⟨name,port,port,gpus,true,false⟩]
    setupRegistration := registration }

def assignPorts (stopped : List Nat) : List Nat → List (String × Engine) →
    Except String (List Binding)
  | _,[] => .ok []
  | free,(name,engine) :: rest =>
    if engine.running then
      match free.dropWhile (· ∈ stopped) with
      | [] => .error "cannot bind a loopback port"
      | port :: left => do
        let more ← assignPorts stopped left rest
        return ⟨name,engine.port,port,engine.gpus,true,false⟩ :: more
    else do
      let more ← assignPorts stopped free rest
      return ⟨name,engine.port,engine.port,engine.gpus,false,false⟩ :: more

def stoppedPorts (engines : List (String × Engine)) : List Nat :=
  engines.filterMap fun e => if e.2.running then none else some e.2.port

def beginActivation (stem target : Nat) (operation : Operation) (free : FreePorts)
    (projectSettings : Option SettingsChange) (restoredFrom : Option Nat) : Action Unit := do
  let previous ← look fun s => do
    refuseIf (operation ∉ [.update,.rollback,.repair,.restore])
      "activation requires update, rollback, repair or restore"
    refuseIf (s.current = some target)
      "activation requires distinct previous and target generations"
    let previous ← s.current.elim
      (.error "activation requires distinct previous and target generations") .ok
    let pending ← anyIncomplete (s.journals.entries.map (·.2))
    refuseIf (pending = true) "incomplete environment operation requires recovery first"
    refuseIf (target ∈ s.trees.keys) "new generation target already exists"
    return previous
  requireIdle
  let bindings ← look fun s => do
    let engines ← s.engineAssignments previous
    assignPorts (stoppedPorts engines) free.ports engines
  writeJournal stem {
    operation := operation
    previous := some previous
    target := target
    stage := .planned
    bindings := bindings
    projectSettings := projectSettings
    restoredFrom := restoredFrom }
  let _ ← readJournal stem

def checkInterrupted (journal : Journal) (s : Project) : Except String Unit := do
  refuseIf (journal.operation.activates = false)
    "journal operation does not support activation recovery"
  refuseIf (¬ (journal.previous = none ↔ journal.operation = .setup))
    "journal previous generation does not match its operation"
  refuseIf (s.current ≠ journal.previous ∧ s.current ≠ some journal.target)
    "current does not match interrupted activation"
  refuseIf (journal.stage = .switching ∧ journal.projectSettings.any (fun change =>
    s.settings ≠ some change.previous ∧ s.settings ≠ some change.target) = true)
    "project settings changed during interrupted selection"

def restoreCurrent (previous : Option Nat) : Action Unit :=
  match previous with
  | none => put fun s => { s with current := none }
  | some previous => setCurrent previous

def removeTarget (journal : Journal) : Action Unit := do
  let tree ← look fun s => .ok (s.trees.get? journal.target)
  onlyIf (tree.isSome = true ∧ (journal.operation ≠ .rollback ∨ journal.restoredFrom ≠ none))
    (removeTree site journal.target)

def rollBack (stem : Nat) (now : String) (journal : Journal) : Action Unit := do
  look (checkInterrupted journal)
  forEach journal.bindings fun binding => stopEngine binding.name journal.target
  onSome journal.projectSettings fun change => onlyIf (journal.stage = .switching)
    (put fun s => { s with settings := some change.previous })
  restoreCurrent journal.previous
  onSome journal.previous fun previous => forEach journal.bindings fun binding =>
    onlyIf (binding.running = true) (startEngine previous binding.name binding.port binding.gpus)
  removeTarget site journal
  onSome journal.setupRegistration (restoreSetupRegistration site)
  onSome journal.restoredFrom fun entry => recordFailedRestore stem entry now
    (journal.error.getD "restore interrupted before successful activation")
  writeJournal stem { journal with stage := .rolledBack }

def recoverActivation (stem : Nat) (now : String) : Action Unit := do
  let journal ← readJournal stem
  if journal.incomplete then rollBack site stem now journal
  else onlyIf (journal.stage = .complete) (onSome journal.historyEntry publishEntry)

/-- `except Exception as exc`: the error is recorded, the activation undone and the error raised. -/
def abandon {α : Type} (stem : Nat) (now error : String) : Action α := do
  let journal ← readJournal stem
  writeJournal stem { journal with error := some error }
  recoverActivation site stem now
  raise error

def startCandidate (journal : Journal) (binding : Binding) : Action Unit :=
  if binding.running then
    startEngine journal.target binding.name binding.targetPort binding.gpus
  else match journal.previous with
    | none => raise "previous binding is not safely stopped"
    | some previous =>
      preserveStoppedEngine binding.name previous journal.target binding.targetPort

def candidateEntry (stem : Nat) (now : String) (journal : Journal) (s : Project) :
    Except String Entry := do
  let tree ← (s.trees.get? journal.target).elim (.error "cannot read generation.json") .ok
  let generation ← tree.read
  refuseIf (generation.number ≠ journal.target ∨ generation.drift tree ≠ [])
    "target generation is incomplete or has drift"
  journal.historyEntry.elim (prepareEntry s journal.target stem now journal.operation none true) .ok

/-- The guarded part of `activate`; every candidate is started before the switch. -/
def switchOver (stem : Nat) (now : String) (revalidate : Action Unit) (journal : Journal) :
    Action Entry := do
  let entry ← look (candidateEntry stem now journal)
  let journal := { journal with historyEntry := some entry, stage := .starting }
  writeJournal stem journal
  forEach journal.bindings (startCandidate journal)
  revalidate
  requireIdle
  let journal := { journal with stage := .switching }
  writeJournal stem journal
  onSome journal.projectSettings fun change =>
    put fun s => { s with settings := some change.target }
  setCurrent journal.target
  onSome journal.previous fun previous => forEach journal.bindings fun binding =>
    onlyIf (binding.running = true) (stopEngine binding.name previous)
  writeJournal stem { journal with stage := .complete }
  return entry

def activate (stem : Nat) (now : String) (revalidate : Action Unit) : Action Unit := do
  let journal ← readJournal stem
  look fun s => do
    refuseIf (journal.incomplete = false ∨ journal.operation.activates = false)
      "journal does not describe a pending generation activation"
    refuseIf (s.current ≠ journal.previous) "current changed after activation was planned"
  let entry ← handling (switchOver stem now revalidate journal) (abandon site stem now)
  publishEntry entry

/-- `replace(Journal.read(journal), stage="building").write(journal)` -/
def startBuilding (stem : Nat) : Action Unit := do
  let journal ← readJournal stem
  writeJournal stem { journal with stage := .building }

def unchanged (current : Option Nat) (settings : Option Settings) (pointer : Option Path) :
    Action Unit := look fun s =>
  refuseIf (s.current ≠ current ∨ s.settings ≠ settings ∨ s.pointer ≠ pointer)
    "project changed after planning; request a new plan"

structure Install where
  data : Option Path
  engine : String
  port : Nat
  gpus : List String
  /-- the text of a first `project.json` -/
  initial : String
  /-- the text an update selects, where it changes the settings -/
  selected : Option String

def planInstall (request : Install) (s : Project) : Except String (Project × Path) := do
  refuseIf (s.settings.any (fun settings => ! settings.document) = true)
    "unsupported project settings"
  refuseIf (s.current ≠ none ∧ s.settings = none)
    "project has no active generation; run setup first"
  refuseIf (s.current = none ∧ request.selected ≠ none) "change channel or variant with update"
  refuseIf (s.pointer ≠ none ∧ request.data ≠ none ∧ request.data ≠ s.pointer)
    "project store differs from requested --data"
  let store ← selectStore site s (s.pointer <|> request.data)
  return (s,store)

def Install.change (request : Install) (s : Project) : Option SettingsChange := do
  let settings ← s.settings
  let text ← request.selected
  return ⟨settings,⟨text,settings.format⟩⟩

def beginInstall (request : Install) (stem : Nat) (free : FreePorts) (s : Project) (store : Path) :
    Action Unit :=
  match s.current with
  | none =>
    beginSetup stem s.nextGeneration request.port request.gpus request.engine
      (some (setupRegistration site s store))
  | some _ => beginActivation stem s.nextGeneration .update free (request.change s) none

def install (request : Install) (stem : Nat) (now : String) (free : FreePorts)
    (edits : List Edit) : Action Unit := do
  let (s,store) ← look (planInstall site request)
  beginInstall site request stem free s store
  let snapshot := s.settings.getD ⟨request.initial,some "dinkster.project/1"⟩
  handling (do
    registerProject site store
    onlyIf (s.settings = none) (put fun s => { s with settings := some snapshot })
    put fun s => { s with pointer := some store }
    startBuilding stem
    buildGeneration site s.nextGeneration edits
    activate site stem now (unchanged s.current (some snapshot) (some store)))
    (abandon site stem now)

def sameInventory (expected repaired : Generation) : Bool :=
  let retained := expected.files.map (·.1)
  retained.all (repaired.files.map (·.1)).contains && repaired.files.all fun file =>
    retained.contains file.1 || (file.1.length == 3 && file.1.head? == some "packs" &&
      file.1.getLast? == some "pack-lock.json")

def repair (stem : Nat) (now : String) (free : FreePorts) (edits : List Edit) : Action Unit := do
  let (s,generation) ← look fun s => do
    let current ← s.current.elim (.error "project has no active generation") .ok
    let generation ← s.generation current
    refuseIf (generation.number ≠ current) "generation directory and recorded number disagree"
    let store ← s.pointer.elim (.error "cannot read the store") .ok
    let _ ← selectStore site s (some store)
    return (s,generation)
  beginActivation stem s.nextGeneration .repair free none none
  handling (do
    startBuilding stem
    buildGeneration site s.nextGeneration edits
    look fun t => do
      let repaired ← t.generation s.nextGeneration
      refuseIf (sameInventory generation repaired = false)
        "repaired file inventory differs from the retained generation"
    activate site stem now (unchanged s.current s.settings s.pointer))
    (abandon site stem now)

/-- A restore, or a rollback to the entry before the last: rebuilt software has to be what the
entry recorded, or the substitution approved for it. -/
inductive Reason
  | restore
  | rollback
  deriving DecidableEq

def Reason.operation : Reason → Operation
  | .restore => .restore
  | .rollback => .rollback

structure Restore where
  entry : Nat
  reason : Reason
  /-- the approved snapshot, where it is not the recorded one -/
  substituted : Option Snapshot

def abandonRestore (stem entry : Nat) (now error : String) : Action Unit := do
  let journal ← readJournal stem
  look fun _ => refuseIf (journal.stage = .complete)
    "restore activated; history publication requires recovery"
  writeJournal stem { journal with error := some error }
  recordFailedRestore stem entry now error
  recoverActivation site stem now
  raise error

def restoreEntry (request : Restore) (stem : Nat) (now : String) (free : FreePorts)
    (edits : List Edit) : Action Unit := do
  let (s,snapshot) ← look fun s => do
    consecutive Entry.id s.history
    let selected ← (s.history.find? (·.id = request.entry)).elim
      (.error "installation history has no such entry") .ok
    let store ← s.pointer.elim (.error "cannot read the store") .ok
    let _ ← selectStore site s (some store)
    return (s,request.substituted.getD selected.snapshot)
  beginActivation stem s.nextGeneration request.reason.operation free none (some request.entry)
  handling (do
    startBuilding stem
    buildGeneration site s.nextGeneration edits
    let entry ← look fun t => prepareEntry t s.nextGeneration stem now request.reason.operation
      (some request.entry) request.substituted.isNone
    look fun _ => refuseIf (entry.snapshot ≠ snapshot)
      "rebuilt software differs from the recorded snapshot"
    let journal ← readJournal stem
    writeJournal stem { journal with historyEntry := some entry }
    activate site stem now (do
      unchanged s.current s.settings s.pointer
      look fun t => refuseIf (t.history ≠ s.history)
        "project changed after planning; request a new plan"))
    (abandonRestore site stem request.entry now)

def direct (target : Nat) (operation : Operation) (projectSettings : Option SettingsChange)
    (restoredFrom : Option Nat) (stem : Nat) (now : String) (free : FreePorts)
    (edits : List Edit) : Action Unit := do
  beginActivation stem target operation free projectSettings restoredFrom
  buildGeneration site target edits
  activate site stem now (pure ⟨⟩)

/-- One journal of `_recover_pending`; moves have a recovery of their own. -/
def recoverOne (now : String) (stem : Nat) : Action Unit := do
  let journal ← readJournal stem
  look fun _ => refuseIf (journal.operation = .move ∧ journal.incomplete = true)
    "move requires recovery before acquiring project locks"
  if journal.operation = .gc then
    if journal.incomplete then recoverCollection stem
    else onlyIf (journal.stage = .complete) (cleanupCollection stem)
  else onlyIf (journal.operation ≠ .move ∧
    (journal.incomplete = true ∨ journal.historyEntry ≠ none)) (recoverActivation site stem now)

def recoverPending (now : String) : Action Unit := do
  let pointer ← look fun s => .ok s.pointer
  onSome pointer recoverStoreCollection
  let stems ← look fun s => .ok (Canonical.sortedBy id s.journals.keys)
  forEach stems (recoverOne site now)

end Project

end Dinkster.Environment
