import Dinkster.Lib.Fallible
import Dinkster.Lib.JsonObject
import Dinkster.Server.Journal
import Mathlib

/-! The training ledger: sessions, their committed checkpoints and their advance operations, which
move in one transaction with the session's journal stream. Every request is one transaction. A
missing integer stands for a value that is not an `int`. -/
namespace Dinkster.Training
open Journal (PyStr JournalRecord Stamp Entry Store)
open Fallible (refuseIf)

private theorem toNat_bound (c : Char) : c.toNat < 0x110000 := by
  have valid := c.valid
  unfold UInt32.isValidChar Nat.isValidChar at valid
  show c.val.toNat < 0x110000
  omega

def pyStr (s : String) : PyStr := s.toList.map fun c => ⟨c.toNat,toNat_bound c⟩

def isHexDigit (c : Char) : Bool := ('0' ≤ c && c ≤ '9') || ('a' ≤ c && c ≤ 'f')

def isTrainingSessionId (s : String) : Bool :=
  32 ≤ s.length && s.length ≤ 64 && s.toList.all isHexDigit

def isTrainingCheckpointDigest (s : String) : Bool :=
  s.startsWith "blake3:" && s.length == 71 && (s.toList.drop 7).all isHexDigit

def isCount : Option Int → Bool
  | some n => 0 ≤ n
  | none => false

def trainingSessionStream (sessionId : String) : PyStr := pyStr ("training-session/" ++ sessionId)

/-- `repr` of the texts that errors quote: hexadecimal ids and digests. -/
def quoted (s : String) : String := "'" ++ s ++ "'"

def strip (s : PyStr) : PyStr := (s.dropWhile Journal.isSpace).rdropWhile Journal.isSpace

inductive Raised
  | valueError (message : String)
  | unknownTrainingSession (message : String)
  | staleTrainingFence (message : String)
  | advanceInProgress (message : String)
  | trainingLineageConflict (message : String)
  | journal (raised : Journal.Raised)
  | integrityError
  | assertionError
  deriving DecidableEq

inductive TrainingEventName
  | sessionCreated | sessionRecovered | phaseChanged | advanceStarted | trainProgress | metric
  | resourceReport | recoveryCheckpointPublished | checkpointPublished | previewStarted
  | previewPublished | warning | diagnostic | cancelRequested | advancePaused | advanceResumed
  | advanceCommitted | advanceAborted | advanceFailed | sessionCompleted
  deriving DecidableEq

def TrainingEventName.value : TrainingEventName → String
  | .sessionCreated => "session_created"
  | .sessionRecovered => "session_recovered"
  | .phaseChanged => "phase_changed"
  | .advanceStarted => "advance_started"
  | .trainProgress => "train_progress"
  | .metric => "metric"
  | .resourceReport => "resource_report"
  | .recoveryCheckpointPublished => "recovery_checkpoint_published"
  | .checkpointPublished => "checkpoint_published"
  | .previewStarted => "preview_started"
  | .previewPublished => "preview_published"
  | .warning => "warning"
  | .diagnostic => "diagnostic"
  | .cancelRequested => "cancel_requested"
  | .advancePaused => "advance_paused"
  | .advanceResumed => "advance_resumed"
  | .advanceCommitted => "advance_committed"
  | .advanceAborted => "advance_aborted"
  | .advanceFailed => "advance_failed"
  | .sessionCompleted => "session_completed"

def coalescibleTrainingEvents : List TrainingEventName := [.trainProgress,.metric,.resourceReport]

def isDurableTrainingEvent (name : TrainingEventName) : Bool :=
  !coalescibleTrainingEvents.contains name

def advanceScopedEvents : List TrainingEventName :=
  [.advanceStarted,.recoveryCheckpointPublished,.cancelRequested,.advancePaused,.advanceResumed,
    .advanceCommitted,.advanceAborted,.advanceFailed]

/-- `_is_opaque_ref` on ASCII text, which is all that the ledger passes. -/
def isOpaqueRef (s : String) : Bool := s.toList.all fun c => '!' ≤ c && c ≤ '~'

def maxTrainingEventDataBytes : Nat := 64 * 1024

/-- The provenance fields, which the ledger leaves at their defaults, are left out here. -/
structure TrainingJournalEvent where
  sessionId : String
  name : TrainingEventName
  timestamp : Stamp
  advanceId : String := ""
  phase : String := ""
  sessionAttempt : Int
  fenceEpoch : Int
  data : Json.Object := []

namespace TrainingJournalEvent

/-- `__post_init__`: the timestamp and the checked data, or what is raised. -/
def postInit (e : TrainingJournalEvent) : Except Raised ℚ := do
  refuseIf (!isTrainingSessionId e.sessionId)
    (.valueError "TrainingJournalEvent.session_id must be 32-64 lowercase hex characters")
  let timestamp ← match e.timestamp with
    | .finite t => if 0 ≤ t then .ok t else .error (.valueError
        "TrainingJournalEvent.timestamp must be a finite non-negative float")
    | _ => .error (.valueError "TrainingJournalEvent.timestamp must be a finite non-negative float")
  refuseIf (!isOpaqueRef e.advanceId)
    (.valueError "TrainingJournalEvent.advance_id must be empty or an opaque token")
  refuseIf (e.name ∈ advanceScopedEvents ∧ e.advanceId = "")
    (.valueError (e.name.value ++ " events require an advance_id"))
  refuseIf (!isOpaqueRef e.phase)
    (.valueError "TrainingJournalEvent.phase must be empty or an opaque token")
  refuseIf (e.name = .phaseChanged ∧ e.phase = "")
    (.valueError "phase_changed events require a phase")
  refuseIf (e.sessionAttempt < 1)
    (.valueError "TrainingJournalEvent.session_attempt must be an int >= 1")
  refuseIf (e.fenceEpoch < 1) (.valueError "TrainingJournalEvent.fence_epoch must be an int >= 1")
  match Journal.canonicalJsonPayload (.obj e.data) maxTrainingEventDataBytes
      "TrainingJournalEvent.data" with
  | .error message => .error (.valueError message)
  | .ok _ => .ok timestamp

/-- `floatText` is `float.__repr__`. -/
def toWire (floatText : ℚ → Json.FloatText) (e : TrainingJournalEvent) (timestamp : ℚ) :
    Json.Object :=
  [("sessionId",.str e.sessionId),("name",.str e.name.value),("timestamp",.float (floatText timestamp)),
    ("advanceId",.str e.advanceId),("phase",.str e.phase),("sessionAttempt",.int e.sessionAttempt),
    ("fenceEpoch",.int e.fenceEpoch),("jobRef",.str ""),("nodeAttempt",.null),("rank",.null),
    ("data",.obj e.data)]

end TrainingJournalEvent

inductive SessionState
  | active | completed
  deriving DecidableEq

structure SessionRow where
  sessionId : String
  scope : String
  principal : String
  createdAt : ℚ
  fenceEpoch : Int
  configDigest : String
  extensionSnapshotDigest : String
  committedManifestDigest : String
  committedStepCursor : Int
  committedJournalSeq : Int
  state : SessionState
  deriving DecidableEq

structure CheckpointRow where
  sessionId : String
  manifestDigest : String
  parentDigest : String
  stepCursor : Int
  journalSeq : Int
  operationId : String
  committedAt : ℚ
  deriving DecidableEq

inductive OperationStatus
  | started | committed | aborted
  deriving DecidableEq

def OperationStatus.value : OperationStatus → String
  | .started => "started"
  | .committed => "committed"
  | .aborted => "aborted"

structure OperationRow where
  sessionId : String
  operationId : String
  inputManifestDigest : String
  status : OperationStatus
  fenceEpoch : Int
  recoveryCheckpointDigest : String
  outputManifestDigest : String
  outputStepCursor : Int
  outputJournalSeq : Int
  claimedAt : ℚ
  resolvedAt : Option ℚ
  paused : Bool
  deriving DecidableEq

structure Ledger where
  journal : Store := {}
  sessions : List SessionRow := []
  checkpoints : List CheckpointRow := []
  operations : List OperationRow := []

namespace Ledger

variable (s : Ledger)

def sessionRow (sessionId : String) : Option SessionRow :=
  s.sessions.find? (·.sessionId = sessionId)

def requireSession (sessionId : String) : Except Raised SessionRow :=
  match s.sessionRow sessionId with
  | some row => .ok row
  | none => .error (.unknownTrainingSession ("no training session " ++ quoted sessionId))

def operationRow (sessionId operationId : String) : Option OperationRow :=
  s.operations.find? fun row => row.sessionId = sessionId ∧ row.operationId = operationId

def rereadOperation (sessionId operationId : String) : Except Raised OperationRow :=
  match s.operationRow sessionId operationId with
  | some row => .ok row
  | none => .error .assertionError

def insertSession (row : SessionRow) : Except Raised Ledger :=
  if s.sessions.any (·.sessionId = row.sessionId) then .error .integrityError
  else .ok { s with sessions := s.sessions ++ [row] }

def insertCheckpoint (row : CheckpointRow) : Except Raised Ledger :=
  if s.checkpoints.any fun r =>
      r.sessionId = row.sessionId ∧ r.manifestDigest = row.manifestDigest then
    .error .integrityError
  else .ok { s with checkpoints := s.checkpoints ++ [row] }

def insertOperation (row : OperationRow) : Except Raised Ledger :=
  if s.operations.any fun r => r.sessionId = row.sessionId ∧ r.operationId = row.operationId then
    .error .integrityError
  else .ok { s with operations := s.operations ++ [row] }

def updateSession (sessionId : String) (f : SessionRow → SessionRow) : Ledger :=
  { s with sessions := s.sessions.map fun r => if r.sessionId = sessionId then f r else r }

def updateOperation (sessionId operationId : String) (f : OperationRow → OperationRow) : Ledger :=
  { s with operations := s.operations.map fun r =>
      if r.sessionId = sessionId ∧ r.operationId = operationId then f r else r }

def startedOperation (sessionId : String) : Option OperationRow :=
  s.operations.find? fun r => r.sessionId = sessionId ∧ r.status = .started

end Ledger

def checkFence (row : SessionRow) (fenceEpoch : Option Int) : Except Raised Int :=
  match fenceEpoch with
  | some epoch =>
    if epoch < 1 then .error (.valueError "fence_epoch must be an int >= 1")
    else if epoch ≠ row.fenceEpoch then
      .error (.staleTrainingFence ("fence epoch " ++ toString epoch ++
        " is not the session's current epoch " ++ toString row.fenceEpoch))
    else .ok epoch
  | none => .error (.valueError "fence_epoch must be an int >= 1")

/-- `_append_event`: the record carries the sequence number and the time that was written. -/
def appendEvent (floatText : ℚ → Json.FloatText) (s : Ledger) (e : TrainingJournalEvent) :
    Except Raised (JournalRecord × Ledger) := do
  let timestamp ← e.postInit
  match s.journal.append ⟨trainingSessionStream e.sessionId,pyStr e.name.value,
      .obj (e.toWire floatText timestamp),some (isDurableTrainingEvent e.name),
      some (.finite timestamp),timestamp⟩ with
  | (.error raised,_) => .error (.journal raised)
  | (.ok record,journal) => .ok (record,{ s with journal := journal })

inductive Request
  | createSession (sessionId scope principalId configDigest extensionSnapshotDigest
      initialManifestDigest : String)
  | acquireFence (sessionId : String)
  | claimAdvance (sessionId operationId inputManifestDigest : String) (fenceEpoch : Option Int)
  | setRecoveryCheckpoint (sessionId operationId : String) (fenceEpoch : Option Int)
      (manifestDigest : String)
  | pauseAdvance (sessionId operationId : String) (fenceEpoch : Option Int) (reason : String)
  | commitAdvance (sessionId operationId : String) (fenceEpoch : Option Int)
      (outputManifestDigest : String) (outputStepCursor coveredJournalSeq : Option Int)
  | abortAdvance (sessionId operationId : String) (fenceEpoch : Option Int) (reason : String)
  | completeSession (sessionId : String) (fenceEpoch : Option Int)

inductive Reply
  | session (row : SessionRow)
  | operation (row : OperationRow)
  deriving DecidableEq

def badSessionId : Raised := .valueError "session_id must be 32-64 lowercase hex characters"

def badOperationId : Raised := .valueError "operation_id must be 32-64 lowercase hex characters"

def completedConflict (sessionId : String) : Raised :=
  .trainingLineageConflict ("session " ++ quoted sessionId ++ " is completed")

def neverClaimed (operationId : String) : Raised :=
  .trainingLineageConflict ("operation " ++ quoted operationId ++ " was never claimed")

def heldElsewhere (existing : OperationRow) : Raised :=
  .staleTrainingFence ("operation " ++ quoted existing.operationId ++
    " is held under fence epoch " ++ toString existing.fenceEpoch ++ "; claim it to resume")

def reasonData (reason : String) : Json.Object :=
  if reason = "" then [] else [("reason",.str reason)]

section Mutations

variable (floatText : ℚ → Json.FloatText) (s : Ledger) (stamp : Stamp)

def createSession (sessionId scope principalId configDigest extensionSnapshotDigest
    initialManifestDigest : String) : Except Raised (SessionRow × Ledger) := do
  refuseIf (!isTrainingSessionId sessionId) badSessionId
  refuseIf (Journal.blank (pyStr scope) ∨ pyStr scope ≠ strip (pyStr scope))
    (.valueError "scope must be a non-empty trimmed string")
  refuseIf (Journal.blank (pyStr principalId))
    (.valueError "principal_id must be a non-empty string")
  refuseIf (!isTrainingCheckpointDigest configDigest)
    (.valueError "config_digest must be 'blake3:' + 64 lowercase hex")
  refuseIf (!isTrainingCheckpointDigest extensionSnapshotDigest)
    (.valueError "extension_snapshot_digest must be 'blake3:' + 64 lowercase hex")
  refuseIf (!isTrainingCheckpointDigest initialManifestDigest)
    (.valueError "initial_manifest_digest must be 'blake3:' + 64 lowercase hex")
  match s.sessionRow sessionId with
  | some existing =>
    let initial := s.checkpoints.find? fun row => row.sessionId = sessionId ∧ row.operationId = ""
    if existing.scope = scope ∧ existing.principal = principalId ∧
        existing.configDigest = configDigest ∧
        existing.extensionSnapshotDigest = extensionSnapshotDigest ∧
        initial.map (·.manifestDigest) = some initialManifestDigest then
      .ok (existing,s)
    else .error (.trainingLineageConflict ("session " ++ quoted sessionId ++
      " already exists with different identity facts"))
  | none =>
    let (record,s) ← appendEvent floatText s {
      sessionId := sessionId, name := .sessionCreated, timestamp := stamp
      sessionAttempt := 1, fenceEpoch := 1
      data := [("scope",.str scope),("principalId",.str principalId),
        ("configDigest",.str configDigest),
        ("sessionExtensionSnapshotDigest",.str extensionSnapshotDigest),
        ("initialManifestDigest",.str initialManifestDigest)] }
    let s ← s.insertSession ⟨sessionId,scope,principalId,record.timestamp,1,configDigest,
      extensionSnapshotDigest,initialManifestDigest,0,record.seq,.active⟩
    let s ← s.insertCheckpoint ⟨sessionId,initialManifestDigest,"",0,record.seq,"",record.timestamp⟩
    let row ← s.requireSession sessionId
    .ok (row,s)

def acquireFence (sessionId : String) : Except Raised (SessionRow × Ledger) := do
  refuseIf (!isTrainingSessionId sessionId) badSessionId
  let row ← s.requireSession sessionId
  refuseIf (row.state ≠ .active) (completedConflict sessionId)
  let newEpoch := row.fenceEpoch + 1
  let (_,s) ← appendEvent floatText s {
    sessionId := sessionId, name := .phaseChanged, timestamp := stamp
    phase := "fence-acquired", sessionAttempt := newEpoch, fenceEpoch := newEpoch
    data := [("previousFenceEpoch",.int row.fenceEpoch)] }
  let s := s.updateSession sessionId fun r => { r with fenceEpoch := newEpoch }
  let row ← s.requireSession sessionId
  .ok (row,s)

def reclaimAdvance (session : SessionRow) (existing : OperationRow)
    (inputManifestDigest : String) (fenceEpoch : Option Int) :
    Except Raised (OperationRow × Ledger) := do
  let sessionId := existing.sessionId
  let operationId := existing.operationId
  refuseIf (existing.inputManifestDigest ≠ inputManifestDigest)
    (.trainingLineageConflict ("operation " ++ quoted operationId ++
      " was claimed with a different input checkpoint"))
  if existing.status = .committed then .ok (existing,s)
  else
    refuseIf (existing.status = .aborted) (.trainingLineageConflict ("operation " ++
      quoted operationId ++ " was aborted; claim a new operation id"))
    refuseIf (session.state ≠ .active) (completedConflict sessionId)
    let epoch ← checkFence session fenceEpoch
    if existing.fenceEpoch = epoch then
      refuseIf (!existing.paused) (.advanceInProgress ("operation " ++ quoted operationId ++
        " is already claimed under fence epoch " ++ toString epoch))
      let (_,s) ← appendEvent floatText s {
        sessionId := sessionId, name := .advanceResumed, timestamp := stamp
        advanceId := operationId, sessionAttempt := epoch, fenceEpoch := epoch
        data := [("resumedFromPause",.bool true)] }
      let s := s.updateOperation sessionId operationId fun r => { r with paused := false }
      let row ← s.rereadOperation sessionId operationId
      .ok (row,s)
    else
      let (_,s) ← appendEvent floatText s {
        sessionId := sessionId, name := .advanceResumed, timestamp := stamp
        advanceId := operationId, sessionAttempt := epoch, fenceEpoch := epoch
        data := [("previousFenceEpoch",.int existing.fenceEpoch)] }
      let s := s.updateOperation sessionId operationId fun r =>
        { r with fenceEpoch := epoch, paused := false }
      let row ← s.rereadOperation sessionId operationId
      .ok (row,s)

def startAdvance (session : SessionRow) (operationId inputManifestDigest : String)
    (fenceEpoch : Option Int) : Except Raised (OperationRow × Ledger) := do
  let sessionId := session.sessionId
  refuseIf (session.state ≠ .active) (completedConflict sessionId)
  let epoch ← checkFence session fenceEpoch
  match s.startedOperation sessionId with
  | some blocking => .error (.trainingLineageConflict ("operation " ++ quoted blocking.operationId ++
      " is still started; abort it under the fence to supersede it"))
  | none =>
    refuseIf (inputManifestDigest ≠ session.committedManifestDigest)
      (.trainingLineageConflict ("input checkpoint is stale or unknown: the committed head is " ++
        quoted session.committedManifestDigest))
    let (record,s) ← appendEvent floatText s {
      sessionId := sessionId, name := .advanceStarted, timestamp := stamp
      advanceId := operationId, sessionAttempt := epoch, fenceEpoch := epoch
      data := [("inputManifestDigest",.str inputManifestDigest)] }
    let s ← s.insertOperation ⟨sessionId,operationId,inputManifestDigest,.started,epoch,"","",0,0,
      record.timestamp,none,false⟩
    let row ← s.rereadOperation sessionId operationId
    .ok (row,s)

def claimAdvance (sessionId operationId inputManifestDigest : String)
    (fenceEpoch : Option Int) : Except Raised (OperationRow × Ledger) := do
  refuseIf (!isTrainingSessionId sessionId) badSessionId
  refuseIf (!isTrainingSessionId operationId) badOperationId
  refuseIf (!isTrainingCheckpointDigest inputManifestDigest)
    (.valueError "input_manifest_digest must be 'blake3:' + 64 lowercase hex")
  let session ← s.requireSession sessionId
  match s.operationRow sessionId operationId with
  | some existing => reclaimAdvance floatText s stamp session existing inputManifestDigest fenceEpoch
  | none => startAdvance floatText s stamp session operationId inputManifestDigest fenceEpoch

def heldOperation (session : SessionRow) (operationId : String) (fenceEpoch : Option Int) :
    Except Raised (Int × OperationRow) := do
  refuseIf (session.state ≠ .active) (completedConflict session.sessionId)
  let epoch ← checkFence session fenceEpoch
  match s.operationRow session.sessionId operationId with
  | none => .error (neverClaimed operationId)
  | some existing =>
    refuseIf (existing.status ≠ .started) (.trainingLineageConflict ("operation " ++
      quoted operationId ++ " is " ++ existing.status.value ++ ", not started"))
    refuseIf (existing.fenceEpoch ≠ epoch) (heldElsewhere existing)
    .ok (epoch,existing)

def setRecoveryCheckpoint (sessionId operationId : String) (fenceEpoch : Option Int)
    (manifestDigest : String) : Except Raised (OperationRow × Ledger) := do
  refuseIf (!isTrainingSessionId sessionId) badSessionId
  refuseIf (!isTrainingSessionId operationId) badOperationId
  refuseIf (!isTrainingCheckpointDigest manifestDigest)
    (.valueError "manifest_digest must be 'blake3:' + 64 lowercase hex")
  let session ← s.requireSession sessionId
  let (epoch,_) ← heldOperation s session operationId fenceEpoch
  let (_,s) ← appendEvent floatText s {
    sessionId := sessionId, name := .recoveryCheckpointPublished, timestamp := stamp
    advanceId := operationId, sessionAttempt := epoch, fenceEpoch := epoch
    data := [("manifestDigest",.str manifestDigest)] }
  let s := s.updateOperation sessionId operationId fun r =>
    { r with recoveryCheckpointDigest := manifestDigest }
  let row ← s.rereadOperation sessionId operationId
  .ok (row,s)

def pauseAdvance (sessionId operationId : String) (fenceEpoch : Option Int) (reason : String) :
    Except Raised (OperationRow × Ledger) := do
  refuseIf (!isTrainingSessionId sessionId) badSessionId
  refuseIf (!isTrainingSessionId operationId) badOperationId
  let session ← s.requireSession sessionId
  let (epoch,existing) ← heldOperation s session operationId fenceEpoch
  if existing.paused then .ok (existing,s)
  else
    refuseIf (existing.recoveryCheckpointDigest = "") (.trainingLineageConflict ("operation " ++
      quoted operationId ++ " has no recovery checkpoint; publish one before pausing"))
    let (_,s) ← appendEvent floatText s {
      sessionId := sessionId, name := .advancePaused, timestamp := stamp
      advanceId := operationId, sessionAttempt := epoch, fenceEpoch := epoch
      data := reasonData reason }
    let s := s.updateOperation sessionId operationId fun r => { r with paused := true }
    let row ← s.rereadOperation sessionId operationId
    .ok (row,s)

def publishCheckpoint (existing : OperationRow) (epoch : Int) (outputManifestDigest : String)
    (outputStepCursor coveredJournalSeq : Int) : Except Raised (OperationRow × Ledger) := do
  let sessionId := existing.sessionId
  let operationId := existing.operationId
  let (record,s) ← appendEvent floatText s {
    sessionId := sessionId, name := .checkpointPublished, timestamp := stamp
    advanceId := operationId, sessionAttempt := epoch, fenceEpoch := epoch
    data := [("manifestDigest",.str outputManifestDigest),
      ("parentDigest",.str existing.inputManifestDigest),("stepCursor",.int outputStepCursor),
      ("coveredJournalSeq",.int coveredJournalSeq)] }
  let (_,s) ← appendEvent floatText s {
    sessionId := sessionId, name := .advanceCommitted, timestamp := .finite record.timestamp
    advanceId := operationId, sessionAttempt := epoch, fenceEpoch := epoch
    data := [("outputManifestDigest",.str outputManifestDigest),
      ("stepCursor",.int outputStepCursor)] }
  let s ← s.insertCheckpoint ⟨sessionId,outputManifestDigest,existing.inputManifestDigest,
    outputStepCursor,coveredJournalSeq,operationId,record.timestamp⟩
  let s := s.updateOperation sessionId operationId fun r => { r with
    status := .committed
    paused := false
    outputManifestDigest := outputManifestDigest
    outputStepCursor := outputStepCursor
    outputJournalSeq := coveredJournalSeq
    resolvedAt := some record.timestamp }
  let s := s.updateSession sessionId fun r => { r with
    committedManifestDigest := outputManifestDigest
    committedStepCursor := outputStepCursor
    committedJournalSeq := coveredJournalSeq }
  let row ← s.rereadOperation sessionId operationId
  .ok (row,s)

def commitAdvance (sessionId operationId : String) (fenceEpoch : Option Int)
    (outputManifestDigest : String) (outputStepCursor coveredJournalSeq : Option Int) :
    Except Raised (OperationRow × Ledger) := do
  refuseIf (!isTrainingSessionId sessionId) badSessionId
  refuseIf (!isTrainingSessionId operationId) badOperationId
  refuseIf (!isTrainingCheckpointDigest outputManifestDigest)
    (.valueError "output_manifest_digest must be 'blake3:' + 64 lowercase hex")
  refuseIf (!isCount outputStepCursor)
    (.valueError "output_step_cursor must be a non-negative int")
  refuseIf (!isCount coveredJournalSeq)
    (.valueError "covered_journal_seq must be a non-negative int")
  let cursor := outputStepCursor.getD 0
  let covered := coveredJournalSeq.getD 0
  let session ← s.requireSession sessionId
  match s.operationRow sessionId operationId with
  | none => .error (.trainingLineageConflict ("operation " ++ quoted operationId ++
      " was never claimed; commit refused"))
  | some existing =>
    match existing.status with
    | .committed =>
      if existing.outputManifestDigest = outputManifestDigest ∧
          existing.outputStepCursor = cursor ∧ existing.outputJournalSeq = covered then
        .ok (existing,s)
      else .error (.trainingLineageConflict ("operation " ++ quoted operationId ++
        " already committed a different output"))
    | .aborted => .error (.trainingLineageConflict ("operation " ++ quoted operationId ++
        " was aborted"))
    | .started =>
      refuseIf (session.state ≠ .active) (completedConflict sessionId)
      let epoch ← checkFence session fenceEpoch
      refuseIf (existing.fenceEpoch ≠ epoch) (heldElsewhere existing)
      refuseIf (cursor ≤ session.committedStepCursor) (.trainingLineageConflict
        ("step cursor must increase: committed head is at " ++
          toString session.committedStepCursor ++ ", commit offered " ++ toString cursor))
      let latest := s.journal.latestSeq (trainingSessionStream sessionId)
      refuseIf (covered < session.committedJournalSeq) (.trainingLineageConflict
        ("covered journal watermark regresses below the committed watermark " ++
          toString session.committedJournalSeq))
      refuseIf (latest < covered) (.trainingLineageConflict ("covered journal watermark " ++
        toString covered ++ " exceeds the stream's latest seq " ++ toString latest))
      refuseIf (s.checkpoints.any fun r =>
          r.sessionId = sessionId ∧ r.manifestDigest = outputManifestDigest)
        (.trainingLineageConflict ("checkpoint " ++ quoted outputManifestDigest ++
          " is already recorded in this session's lineage"))
      publishCheckpoint floatText s stamp existing epoch outputManifestDigest cursor covered

def abortAdvance (sessionId operationId : String) (fenceEpoch : Option Int) (reason : String) :
    Except Raised (OperationRow × Ledger) := do
  refuseIf (!isTrainingSessionId sessionId) badSessionId
  refuseIf (!isTrainingSessionId operationId) badOperationId
  let session ← s.requireSession sessionId
  match s.operationRow sessionId operationId with
  | none => .error (neverClaimed operationId)
  | some existing =>
    match existing.status with
    | .aborted => .ok (existing,s)
    | .committed => .error (.trainingLineageConflict ("operation " ++ quoted operationId ++
        " already committed; commits are final"))
    | .started =>
      let epoch ← checkFence session fenceEpoch
      let (record,s) ← appendEvent floatText s {
        sessionId := sessionId, name := .advanceAborted, timestamp := stamp
        advanceId := operationId, sessionAttempt := epoch, fenceEpoch := epoch
        data := reasonData reason }
      let s := s.updateOperation sessionId operationId fun r => { r with
        status := .aborted
        paused := false
        resolvedAt := some record.timestamp }
      let row ← s.rereadOperation sessionId operationId
      .ok (row,s)

def completeSession (sessionId : String) (fenceEpoch : Option Int) :
    Except Raised (SessionRow × Ledger) := do
  refuseIf (!isTrainingSessionId sessionId) badSessionId
  let session ← s.requireSession sessionId
  if session.state = .completed then .ok (session,s)
  else
    let epoch ← checkFence session fenceEpoch
    match s.startedOperation sessionId with
    | some started => .error (.trainingLineageConflict ("operation " ++
        quoted started.operationId ++
        " is still started; commit or abort it before completing the session"))
    | none =>
      let (_,s) ← appendEvent floatText s {
        sessionId := sessionId, name := .sessionCompleted, timestamp := stamp
        sessionAttempt := epoch, fenceEpoch := epoch }
      let s := s.updateSession sessionId fun r => { r with state := .completed }
      let row ← s.requireSession sessionId
      .ok (row,s)

end Mutations

/-- A request with its timestamp argument and the clock's reading. -/
structure Call where
  request : Request
  timestamp : Option Stamp
  now : ℚ

/-- `_written_at` -/
def Call.stamp (c : Call) : Stamp := c.timestamp.getD (.finite c.now)

/-- The body of a request's transaction. -/
def serve (floatText : ℚ → Json.FloatText) (s : Ledger) (c : Call) :
    Except Raised (Reply × Ledger) :=
  match c.request with
  | .createSession sessionId scope principalId configDigest extensionSnapshotDigest
      initialManifestDigest =>
    (createSession floatText s c.stamp sessionId scope principalId configDigest
      extensionSnapshotDigest initialManifestDigest).map fun r => (.session r.1,r.2)
  | .acquireFence sessionId =>
    (acquireFence floatText s c.stamp sessionId).map fun r => (.session r.1,r.2)
  | .claimAdvance sessionId operationId inputManifestDigest fenceEpoch =>
    (claimAdvance floatText s c.stamp sessionId operationId inputManifestDigest fenceEpoch).map
      fun r => (.operation r.1,r.2)
  | .setRecoveryCheckpoint sessionId operationId fenceEpoch manifestDigest =>
    (setRecoveryCheckpoint floatText s c.stamp sessionId operationId fenceEpoch
      manifestDigest).map fun r => (.operation r.1,r.2)
  | .pauseAdvance sessionId operationId fenceEpoch reason =>
    (pauseAdvance floatText s c.stamp sessionId operationId fenceEpoch reason).map
      fun r => (.operation r.1,r.2)
  | .commitAdvance sessionId operationId fenceEpoch outputManifestDigest outputStepCursor
      coveredJournalSeq =>
    (commitAdvance floatText s c.stamp sessionId operationId fenceEpoch outputManifestDigest
      outputStepCursor coveredJournalSeq).map fun r => (.operation r.1,r.2)
  | .abortAdvance sessionId operationId fenceEpoch reason =>
    (abortAdvance floatText s c.stamp sessionId operationId fenceEpoch reason).map
      fun r => (.operation r.1,r.2)
  | .completeSession sessionId fenceEpoch =>
    (completeSession floatText s c.stamp sessionId fenceEpoch).map fun r => (.session r.1,r.2)

/-- `transact`: what raises rolls back. -/
def transact (floatText : ℚ → Json.FloatText) (s : Ledger) (c : Call) :
    Except Raised Reply × Ledger :=
  match serve floatText s c with
  | .ok (reply,written) => (.ok reply,written)
  | .error raised => (.error raised,s)

/-- Requests, telemetry that producers append to any stream, and its retention. -/
inductive Action
  | call (c : Call)
  | telemetry (e : Entry)
  | prune (stream : PyStr) (upTo : Int)

def step (floatText : ℚ → Json.FloatText) (s : Ledger) : Action → Option Ledger
  | .call c => some (transact floatText s c).2
  | .telemetry e =>
    if e.durable = some false then
      match s.journal.append e with
      | (.ok _,journal) => some { s with journal := journal }
      | (.error _,_) => some s
    else none
  | .prune stream upTo =>
    match s.journal.pruneCoalescible stream upTo with
    | (.ok _,journal) => some { s with journal := journal }
    | (.error _,_) => some s

end Dinkster.Training
