import Dinkster.Supervisor.Project

/-! Collection of obsolete generations and of unreferenced store caches: what is collected is moved
aside first and deleted only once the journal is complete. -/
namespace Dinkster.Environment
open Canonical Faults Fallible

namespace Project

/-- The first journal, from the last one back, that activated `current` over another generation. -/
def findActivation (current : Nat) : List Journal → Except String (Option Journal)
  | [] => .ok none
  | journal :: rest => do
    let read ← journal.read
    if read.operation ∈ [.update,.rollback,.repair,.restore] ∧ read.stage = .complete ∧
        read.target = current ∧ read.previous ≠ none then
      return some read
    findActivation current rest

def previousActivation (s : Project) (current : Nat) : Except String (Option Journal) :=
  findActivation current ((sortedBy (·.1) s.journals.entries).reverse.map (·.2))

def sealedNumber (s : Project) (number : Nat) : Except String Unit := do
  let generation ← s.generation number
  refuseIf (generation.number ≠ number) "generation directory and recorded number disagree"

/-- The current generation, those that are retained and those that are collected. -/
structure Plan where
  current : Nat
  retained : List Nat
  collected : List Nat
  deriving DecidableEq

def collectionPlan (s : Project) : Except String Plan := do
  let current ← s.current.elim (.error "project has no active generation") .ok
  let previous ← s.previousActivation current
  let retained := current :: ((previous.bind Journal.previous).toList.filter (· ≠ current))
  retained.forM s.sealedNumber
  let trees := sortedBy id s.trees.keys
  trees.forM fun number => do
    refuseIf (number < 1) "generation directory must have a positive canonical number"
    if number ∉ retained then
      let engines ← s.engineAssignments number
      refuseIf (engines.any (·.2.running) = true) "collected generation has a live engine"
  return ⟨current,sortedBy id retained,trees.filter (· ∉ retained)⟩

def storeCollectionPlan (site : Site) (s : Project) (store : Path) (excluded : List Nat) :
    Except String (List Path) := do
  refuseIf (isRelativeTo store site.root ∨ isRelativeTo site.root store)
    "collection store and project must be unlinked separate trees"
  refuseIf (site.root ∉ s.storeProjects store)
    "collection project is not registered with its store"
  let referenced ← site.references s store excluded
  let entries := ((s.caches.filter (·.1 = store)).image (·.2)).sort
  entries.forM fun entry =>
    refuseIf (storeCachePath entry = false) "store path must name a disposable cache entry"
  return entries.filter (· ∉ referenced)

def parkTree (stem number : Nat) : Action Unit := act fun s =>
  match s.trees.get? number with
  | none => .error "cannot rename the generation"
  | some tree => .ok (⟨⟩,{ s with
      trees := s.trees.erase number, parked := s.parked.set (stem,number) tree })

def parkCache (store : Path) (stem : Nat) (entry : Path) : Action Unit := act fun s =>
  if (store,entry) ∈ s.caches then .ok (⟨⟩,{ s with
    caches := s.caches.erase (store,entry)
    parkedCaches := insert (store,stem,entry) s.parkedCaches })
  else .error "cannot rename the cache entry"

def restoreTree (stem number : Nat) : Action Unit := act fun s =>
  match s.parked.get? (stem,number),s.trees.get? number with
  | some _,some _ => .error "collection recovery found both original and parked trees"
  | some tree,none => .ok (⟨⟩,{ s with
      trees := s.trees.set number tree, parked := s.parked.erase (stem,number) })
  | none,some _ => .ok (⟨⟩,s)
  | none,none => .error "collection recovery cannot find an original generation"

def restoreCache (store : Path) (stem : Nat) (entry : Path) : Action Unit := act fun s =>
  if (store,stem,entry) ∈ s.parkedCaches then
    if (store,entry) ∈ s.caches then
      .error "collection recovery found both original and parked cache"
    else .ok (⟨⟩,{ s with
      caches := insert (store,entry) s.caches
      parkedCaches := s.parkedCaches.erase (store,stem,entry) })
  else if (store,entry) ∈ s.caches then .ok (⟨⟩,s)
  else .error "collection recovery cannot find an original cache entry"

/-- `_release_store` -/
def releaseStore (stem : Nat) (journal : Journal) : Action Unit :=
  onSome journal.collectionStore fun store => put fun s =>
    if s.markers.get? store = some stem then { s with markers := s.markers.erase store } else s

def cleanupCollection (stem : Nat) : Action Unit := do
  let journal ← readJournal stem
  look fun _ => refuseIf (journal.operation ≠ .gc ∨ journal.stage ≠ .complete)
    "only committed collection trash can be deleted"
  forEach journal.collectedGenerations fun number =>
    put fun s => { s with parked := s.parked.erase (stem,number) }
  onSome journal.collectionStore fun store => forEach journal.collectedStorePaths fun entry =>
    put fun s => { s with parkedCaches := s.parkedCaches.erase (store,stem,entry) }
  releaseStore stem journal

def recoverCollection (stem : Nat) : Action Unit := do
  let journal ← readJournal stem
  onlyIf (journal.operation = .gc ∧ journal.incomplete = true) (do
    look fun s => refuseIf (s.current ≠ some journal.target)
      "current changed during generation collection"
    forEach journal.collectedGenerations (restoreTree stem)
    onSome journal.collectionStore fun store =>
      forEach journal.collectedStorePaths (restoreCache store stem)
    writeJournal stem { journal with stage := .rolledBack }
    releaseStore stem journal)

/-- `except Exception as exc`: the collection is undone and the error raised. -/
def abandonCollection (stem : Nat) (error : String) : Action Unit := do
  let journal ← readJournal stem
  writeJournal stem { journal with error := some error }
  recoverCollection stem
  raise error

/-- `recover_store_collection`, where the store names a journal of this project. -/
def recoverStoreCollection (store : Path) : Action Unit := do
  let marker ← look fun s => .ok (s.markers.get? store)
  onSome marker fun stem => do
    let journal ← readJournal stem
    look fun _ => refuseIf (journal.operation ≠ .gc ∨ journal.collectionStore ≠ some store)
      "store collection pointer names another operation"
    if journal.incomplete then recoverCollection stem
    else if journal.stage = .complete then cleanupCollection stem
    else releaseStore stem journal

def clearEarlier (stem : Nat) : Action Unit := do
  let record ← readJournal stem
  look fun _ => refuseIf (record.incomplete = true)
    "incomplete environment operation requires recovery first"
  onlyIf (record.operation = .gc ∧ record.stage = .complete) (cleanupCollection stem)

def collection (approved : Plan) (cache : Option (Path × List Path)) : Journal where
  operation := .gc
  previous := some approved.current
  target := approved.current
  stage := .planned
  collectedGenerations := approved.collected
  collectionStore := cache.map (·.1)
  collectedStorePaths := (cache.map (·.2)).getD []

/-- `collect_generations` for a plan that was approved, with its cache entries where a store is
collected too. -/
def collectGenerations (site : Site) (stem : Nat) (approved : Plan)
    (cache : Option (Path × List Path)) : Action Unit := do
  look fun s => do
    let plan ← s.collectionPlan
    refuseIf (plan ≠ approved) "generation collection changed after planning; request a new plan"
    match cache with
    | none => return ⟨⟩
    | some (store,paths) =>
      let plan ← storeCollectionPlan site s store approved.collected
      refuseIf (plan ≠ paths) "store collection changed after planning; request a new plan"
  let stems ← look fun s => .ok (sortedBy id s.journals.keys)
  forEach stems clearEarlier
  let journal := collection approved cache
  onlyIf (journal.collectedGenerations ≠ [] ∨ journal.collectedStorePaths ≠ []) (do
    writeJournal stem journal
    handling (do
      onSome journal.collectionStore fun store =>
        put fun s => { s with markers := s.markers.set store stem }
      writeJournal stem { journal with stage := .building }
      forEach journal.collectedGenerations (parkTree stem)
      onSome journal.collectionStore fun store =>
        forEach journal.collectedStorePaths (parkCache store stem)
      writeJournal stem { journal with stage := .complete })
      (abandonCollection stem)
    cleanupCollection stem)

end Project

end Dinkster.Environment
