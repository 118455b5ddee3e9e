import Dinkster.Server.TrainingSafety

/-! The journal stream of a session is enough to rebuild its rows. Each durable record says what its
move wrote, and the fold over the records in sequence order gives back the three tables. -/
namespace Dinkster.Training
open Journal (PyStr JournalRecord Stamp Sound)
open Transition

variable {floatText : ℚ → Json.FloatText} {s s' : Ledger} {id : String} {v v' : View}
  {q : Request} {a : Action} {r : JournalRecord}

def TrainingEventName.all : List TrainingEventName :=
  [.sessionCreated,.sessionRecovered,.phaseChanged,.advanceStarted,.trainProgress,.metric,
    .resourceReport,.recoveryCheckpointPublished,.checkpointPublished,.previewStarted,
    .previewPublished,.warning,.diagnostic,.cancelRequested,.advancePaused,.advanceResumed,
    .advanceCommitted,.advanceAborted,.advanceFailed,.sessionCompleted]

def TrainingEventName.read (name : PyStr) : Option TrainingEventName :=
  TrainingEventName.all.find? fun n => pyStr n.value = name

def textAt (obj : Json.Object) (key : String) : String :=
  match obj.get? key with
  | some (.str text) => text
  | _ => ""

def intAt (obj : Json.Object) (key : String) : Int :=
  match obj.get? key with
  | some (.int n) => n
  | _ => 0

def objectAt (obj : Json.Object) (key : String) : Json.Object :=
  match obj.get? key with
  | some (.obj members) => members
  | _ => []

def members : Json.Value → Json.Object
  | .obj members => members
  | _ => []

structure Rows where
  session : Option SessionRow := none
  checkpoints : List CheckpointRow := []
  operations : List OperationRow := []

def Rows.update (rows : Rows) (operationId : String) (f : OperationRow → OperationRow) : Rows :=
  { rows with
    operations := rows.operations.map fun o => if o.operationId = operationId then f o else o }

/-- The rows after one more event. A commit takes what its own event leaves out from the checkpoint
published just before it. -/
def Rows.applyEvent (id : String) (rows : Rows) (r : JournalRecord) (name : TrainingEventName)
    (operationId : String) (epoch : Int) (data : Json.Object) : Rows :=
  match name with
  | .sessionCreated =>
    { rows with
      session := some ⟨id,textAt data "scope",textAt data "principalId",r.timestamp,epoch,
        textAt data "configDigest",textAt data "sessionExtensionSnapshotDigest",
        textAt data "initialManifestDigest",0,r.seq,.active⟩
      checkpoints := rows.checkpoints ++
        [⟨id,textAt data "initialManifestDigest","",0,r.seq,"",r.timestamp⟩] }
  | .phaseChanged =>
    { rows with session := rows.session.map fun row => { row with fenceEpoch := epoch } }
  | .advanceStarted =>
    { rows with
      operations := rows.operations ++ [⟨id,operationId,textAt data "inputManifestDigest",.started,
        epoch,"","",0,0,r.timestamp,none,false⟩] }
  | .advanceResumed =>
    rows.update operationId fun o => { o with fenceEpoch := epoch, paused := false }
  | .recoveryCheckpointPublished =>
    rows.update operationId fun o =>
      { o with recoveryCheckpointDigest := textAt data "manifestDigest" }
  | .advancePaused => rows.update operationId fun o => { o with paused := true }
  | .checkpointPublished =>
    { rows with
      checkpoints := rows.checkpoints ++ [⟨id,textAt data "manifestDigest",
        textAt data "parentDigest",intAt data "stepCursor",intAt data "coveredJournalSeq",
        operationId,r.timestamp⟩] }
  | .advanceCommitted =>
    match rows.checkpoints.getLast? with
    | none => rows
    | some published =>
      { rows.update operationId fun o => { o with
          status := .committed
          paused := false
          outputManifestDigest := textAt data "outputManifestDigest"
          outputStepCursor := intAt data "stepCursor"
          outputJournalSeq := published.journalSeq
          resolvedAt := some published.committedAt } with
        session := rows.session.map fun row => { row with
          committedManifestDigest := textAt data "outputManifestDigest"
          committedStepCursor := intAt data "stepCursor"
          committedJournalSeq := published.journalSeq } }
  | .advanceAborted =>
    rows.update operationId fun o =>
      { o with status := .aborted, paused := false, resolvedAt := some r.timestamp }
  | .sessionCompleted =>
    { rows with session := rows.session.map fun row => { row with state := .completed } }
  | _ => rows

def Rows.apply (id : String) (rows : Rows) (r : JournalRecord) : Rows :=
  let event := members r.payload
  match TrainingEventName.read r.name with
  | none => rows
  | some name => rows.applyEvent id r name (textAt event "advanceId") (intAt event "fenceEpoch")
    (objectAt event "data")

def rebuild (id : String) (records : List JournalRecord) : Rows :=
  records.foldl (Rows.apply id) {}

/-- The durable records of a session's stream in sequence order. -/
def Ledger.history (s : Ledger) (id : String) : List JournalRecord :=
  ((s.journal.records (trainingSessionStream id)).filter (·.durable)).mergeSort
    fun a b => decide (a.seq ≤ b.seq)

def Ledger.rows (s : Ledger) (id : String) : Rows where
  session := s.sessionRow id
  checkpoints := s.checkpoints.filter (·.sessionId = id)
  operations := s.operations.filter (·.sessionId = id)

private theorem value_injective : Function.Injective TrainingEventName.value := by
  intro a b same
  cases a <;> cases b <;> first | rfl | exact absurd same (by decide)

theorem read_value (name : TrainingEventName) :
    TrainingEventName.read (pyStr name.value) = some name := by
  have same : (fun n : TrainingEventName => decide (pyStr n.value = pyStr name.value)) =
      fun n => decide (n = name) := by
    funext n
    rw [decide_eq_decide]
    exact ⟨fun texts => value_injective (pyStr_injective texts),fun names => by rw [names]⟩
  unfold TrainingEventName.read
  rw [same]
  cases name <;> rfl

variable {latest : Nat} {e : TrainingJournalEvent}

theorem apply_logged (logged : Logged floatText latest e r) (rows : Rows) :
    rows.apply id r = rows.applyEvent id r e.name e.advanceId e.fenceEpoch e.data := by
  unfold Rows.apply
  rw [logged.payload,logged.name,read_value]
  rfl

def View.rows (v : View) : Rows := ⟨v.session,v.checkpoints,v.operations⟩

private theorem update_congr {rows : List OperationRow} {operationId : String}
    {f g : OperationRow → OperationRow}
    (same : ∀ o ∈ rows, o.operationId = operationId → f o = g o) :
    (rows.map fun o => if o.operationId = operationId then f o else o) =
      rows.map fun o => if o.operationId = operationId then g o else o := by
  apply List.map_congr_left
  intro o inside
  split
  · rename_i here
    exact same o inside here
  · rfl

theorem move_rebuilt (lineage : Lineage v) (moved : Move floatText id v q v') :
    ∃ recorded, v'.records = v.records ++ recorded ∧
      recorded.foldl (Rows.apply id) v.rows = v'.rows := by
  cases moved with
  | @created stamp r scope principalId config snapshot initial fresh logged =>
    exact ⟨[r],rfl,apply_logged logged v.rows⟩
  | @fenced stamp r row found active logged =>
    refine ⟨[r],rfl,(apply_logged logged v.rows).trans ?_⟩
    unfold View.rows
    rw [found]
    rfl
  | @started stamp r row operationId found active fresh idle logged =>
    exact ⟨[r],rfl,apply_logged logged v.rows⟩
  | @continued stamp r row o found active member running held paused logged =>
    refine ⟨[r],rfl,(apply_logged logged v.rows).trans ?_⟩
    refine congrArg (Rows.mk _ _) (update_congr ?_)
    -- the event names the epoch that the operation is held under already
    intro p inside named
    rw [lineage.unique inside member named,← held]
    rfl
  | @takenOver stamp r row o found active member running older logged =>
    exact ⟨[r],rfl,apply_logged logged v.rows⟩
  | @recovered stamp r row o digest found active member running held logged =>
    exact ⟨[r],rfl,apply_logged logged v.rows⟩
  | @paused stamp r row o reason found active member running held logged =>
    exact ⟨[r],rfl,apply_logged logged v.rows⟩
  | @committed stamp r r' row o digest cursor covered found active member running held forward
      lower upper fresh published logged =>
    refine ⟨[r,r'],List.append_assoc _ _ _,?_⟩
    rw [List.foldl_cons,List.foldl_cons,List.foldl_nil,apply_logged published,apply_logged logged]
    dsimp only [eventOf,Rows.applyEvent,View.rows]
    rw [List.getLast?_concat,found]
    rfl
  | @aborted stamp r row o reason found member running logged =>
    exact ⟨[r],rfl,apply_logged logged v.rows⟩
  | @completed stamp r row found active idle logged =>
    refine ⟨[r],rfl,(apply_logged logged v.rows).trans ?_⟩
    unfold View.rows
    rw [found]
    rfl

def Rebuilt (id : String) (v : View) : Prop := rebuild id v.records = v.rows

theorem change_rebuilt (lineage : Lineage v) (rebuilt : Rebuilt id v)
    (changed : Change floatText id v a v') : Rebuilt id v' := by
  cases changed with
  | same => exact rebuilt
  | longer more => exact rebuilt
  | move mine checked moved =>
    obtain ⟨recorded,records,folded⟩ := move_rebuilt lineage moved
    unfold Rebuilt rebuild at rebuilt ⊢
    rw [records,List.foldl_append,rebuilt]
    exact folded

theorem history_records (sound : Sound s.journal) (id : String) :
    s.history id = (s.view id).records := by
  unfold Ledger.history Ledger.view
  apply List.mergeSort_of_pairwise
  apply List.Pairwise.filter
  unfold Journal.Store.records
  rw [List.pairwise_filter]
  refine sound.ordered.imp ?_
  intro a b earlier mine theirs
  have same : a.streamId = b.streamId :=
    (of_decide_eq_true mine).trans (of_decide_eq_true theirs).symm
  exact decide_eq_true (earlier same).le

theorem reachable_rebuilt (reached : Reachable (step floatText) {} s) (id : String) :
    Sound s.journal ∧ Lineage (s.view id) ∧ Rebuilt id (s.view id) := by
  apply reached.invariant fun s => Sound s.journal ∧ Lineage (s.view id) ∧ Rebuilt id (s.view id)
  · exact ⟨Sound.empty,lineage_initial,rfl⟩
  · intro t a u before _ taken
    obtain ⟨sound,lineage,rebuilt⟩ := before
    obtain ⟨changes,kept⟩ := step_changes taken
    exact ⟨kept sound,change_lineage lineage (changes id),change_rebuilt lineage rebuilt (changes id)⟩

theorem prune_history {stream : PyStr} {upTo : Int}
    (pruned : step floatText s (.prune stream upTo) = some s') (id : String) :
    s'.history id = s.history id := by
  have view := prune_view (s := s) stream upTo id
  have records := congrArg View.records view
  unfold step at pruned
  dsimp only at pruned
  split at pruned
  · rename_i removed journal done
    obtain rfl := Option.some.inj pruned
    rw [done] at records
    exact congrArg (List.mergeSort · fun a b => decide (a.seq ≤ b.seq)) records
  · obtain rfl := Option.some.inj pruned
    rfl

/-- After every run of requests, telemetry and pruning. -/
theorem ledger_journal_agree (reached : Reachable (step floatText) {} s) (id : String) :
    rebuild id (s.history id) = s.rows id ∧
      ∀ stream upTo s', step floatText s (.prune stream upTo) = some s' →
        rebuild id (s'.history id) = rebuild id (s.history id) := by
  obtain ⟨sound,_,rebuilt⟩ := reachable_rebuilt reached id
  constructor
  · rw [history_records sound id]
    exact rebuilt
  · intro stream upTo s' pruned
    rw [prune_history pruned id]

theorem abortedRun_rebuilt :
    rebuild soleSession ((offer (step zeroText) {} abortedRun).history soleSession) =
      (offer (step zeroText) {} abortedRun).rows soleSession :=
  (ledger_journal_agree (reachable_offer abortedRun) soleSession).1

end Dinkster.Training
