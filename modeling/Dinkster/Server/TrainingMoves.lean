import Dinkster.Server.JournalHistory
import Dinkster.Server.TrainingSessions

/-! What a request can do to a session: it fails, it answers from what is recorded, or it makes one of
the moves below and leaves every other session alone. -/
namespace Dinkster.Training
open Journal (PyStr JournalRecord Stamp Entry Store Sound)
open Fallible (bind_ok refuseIf refuseIf_ok)

variable {floatText : ℚ → Json.FloatText} {s s' : Ledger} {r : JournalRecord}

/-- The rows of one session, the durable records of its stream and the stream's last number. -/
structure View where
  session : Option SessionRow
  checkpoints : List CheckpointRow
  operations : List OperationRow
  records : List JournalRecord
  latest : Nat

def Ledger.view (s : Ledger) (id : String) : View where
  session := s.sessionRow id
  checkpoints := s.checkpoints.filter (·.sessionId = id)
  operations := s.operations.filter (·.sessionId = id)
  records := (s.journal.records (trainingSessionStream id)).filter (·.durable)
  latest := s.journal.latestSeq (trainingSessionStream id)

def View.log (v : View) (r : JournalRecord) : View :=
  { v with records := v.records ++ [r], latest := v.latest + 1 }

def View.update (v : View) (operationId : String) (f : OperationRow → OperationRow) : View :=
  { v with operations := v.operations.map fun o => if o.operationId = operationId then f o else o }

structure Logged (floatText : ℚ → Json.FloatText) (latest : Nat) (e : TrainingJournalEvent)
    (r : JournalRecord) : Prop where
  seq : r.seq = latest + 1
  name : r.name = pyStr e.name.value
  payload : r.payload = .obj (e.toWire floatText r.timestamp)

theorem pyStr_injective : Function.Injective pyStr := by
  intro a b same
  unfold pyStr at same
  apply String.toList_injective
  refine List.map_injective_iff.mpr ?_ same
  intro c d equal
  exact Char.toNat_inj.mp (Fin.mk.inj equal)

theorem trainingSessionStream_injective : Function.Injective trainingSessionStream := by
  intro a b same
  exact (String.append_right_inj _).mp (pyStr_injective same)

private theorem canonical_ok {payload checked : Json.Value} {maxBytes : Nat} {description : String}
    (ok : Journal.canonicalJsonPayload payload maxBytes description = .ok checked) :
    checked = payload := by
  unfold Journal.canonicalJsonPayload at ok
  split at ok
  · obtain ⟨_,_,rest⟩ := bind_ok.mp ok
    split at rest
    · cases rest
    · exact (Except.ok.inj rest).symm
  · cases ok

private theorem check_ok {e : Entry} {t : ℚ} {durable : Bool} {payload : Json.Value}
    (ok : e.check = .ok (t,durable,payload)) :
    e.timestamp.getD (.finite e.now) = .finite t ∧ e.durable = some durable ∧
      e.payload = payload := by
  unfold Journal.Entry.check at ok
  split at ok
  · cases ok
  split at ok
  · cases ok
  split at ok
  · cases ok
  rename_i flag kept
  split at ok
  · cases ok
  rename_i payload' canonical
  split at ok
  · rename_i u stamp
    split at ok
    · cases ok
    · obtain ⟨rfl,rest⟩ := Prod.mk.inj (Except.ok.inj ok)
      obtain ⟨rfl,rfl⟩ := Prod.mk.inj rest
      exact ⟨stamp,kept,(canonical_ok canonical).symm⟩
  · cases ok

theorem append_recorded {store : Store} {e : Entry} (done : (store.append e).1 = .ok r) :
    e.timestamp.getD (.finite e.now) = .finite r.timestamp ∧ e.durable = some r.durable ∧
      r.name = e.name ∧ r.payload = e.payload ∧ e.unstorable = false := by
  unfold Journal.Store.append at done
  cases checked : e.check with
  | error raised =>
    rw [checked] at done
    cases done
  | ok args =>
    obtain ⟨t,durable,payload⟩ := args
    obtain ⟨stamp,kept,same⟩ := check_ok checked
    rw [checked] at done
    dsimp only at done
    split at done
    · split at done
      · cases done
      · rename_i written inserted
        obtain ⟨named,_,_⟩ := Journal.insertRow_ok.mp inserted
        obtain rfl := Except.ok.inj done
        refine ⟨stamp,kept,rfl,same.symm,?_⟩
        unfold Journal.Entry.unstorable
        rw [show Journal.encodable e.name = true from named]
        simp
    · cases done

private theorem append_sound {store : Store} {e : Entry} (sound : Sound store)
    (storable : e.unstorable = false) : Sound (store.append e).2 := by
  have kept : Sound (store.answer (.append e)).2 := Journal.answer_sound sound storable
  exact kept

private theorem records_append {store : Store} {stream : PyStr} :
    ({ store.bumpSeq r.streamId with journal := store.journal ++ [r] } : Store).records stream =
      store.records stream ++ if r.streamId = stream then [r] else [] := by
  unfold Journal.Store.records
  rw [List.filter_append]
  congr 1
  by_cases same : r.streamId = stream
  · simp [same]
  · simp [same]

theorem view_append {journal : Store} {e : Entry} {id : String}
    (done : s.journal.append e = (.ok r,journal)) (mine : e.streamId = trainingSessionStream id) :
    ({ s with journal := journal } : Ledger).view id =
        { s.view id with
          records := (s.view id).records ++ if r.durable then [r] else []
          latest := (s.view id).latest + 1 } ∧
      ∀ other ≠ id, ({ s with journal := journal } : Ledger).view other = s.view other := by
  obtain ⟨stream,seq,written⟩ := Journal.append_ok (congrArg Prod.fst done)
  rw [done] at written
  dsimp only at written
  rw [← stream] at written mine
  subst written
  constructor
  · refine congrArg₂ (View.mk _ _ _) ?_ ?_
    · refine (congrArg _ records_append).trans ?_
      rw [if_pos mine,List.filter_append]
      refine congrArg _ ?_
      split
      · exact List.filter_cons_of_pos ‹_›
      · exact List.filter_cons_of_neg ‹_›
    · refine (Journal.latestSeq_bumpSeq _ _ _).trans ?_
      rw [if_pos mine.symm,mine]
      rfl
  · intro other different
    have apart : r.streamId ≠ trainingSessionStream other := by
      intro same
      exact different (trainingSessionStream_injective (same.symm.trans mine))
    refine congrArg₂ (View.mk _ _ _) ?_ ?_
    · refine (congrArg _ records_append).trans ?_
      rw [if_neg apart,List.append_nil]
    · exact (Journal.latestSeq_bumpSeq _ _ _).trans (if_neg (Ne.symm apart))

theorem appendEvent_spec {e : TrainingJournalEvent} (done : appendEvent floatText s e = .ok (r,s'))
    (durable : isDurableTrainingEvent e.name = true) :
    Logged floatText (s.view e.sessionId).latest e r ∧
      s'.view e.sessionId = (s.view e.sessionId).log r ∧
      (∀ other ≠ e.sessionId, s'.view other = s.view other) ∧
      s' = { s with journal := s'.journal } ∧ (Sound s.journal → Sound s'.journal) := by
  unfold appendEvent at done
  obtain ⟨t,_,rest⟩ := bind_ok.mp done
  split at rest
  · cases rest
  · rename_i record journal appended
    obtain ⟨rfl,rfl⟩ := Prod.mk.inj (Except.ok.inj rest)
    obtain ⟨_,seq,_⟩ := Journal.append_ok (congrArg Prod.fst appended)
    obtain ⟨stamp,kept,named,payload,storable⟩ := append_recorded (congrArg Prod.fst appended)
    obtain rfl := Stamp.finite.inj (Option.some.inj (congrArg some stamp))
    obtain ⟨here,others⟩ := view_append appended rfl
    have lasting : record.durable = true := (Option.some.inj kept).symm.trans durable
    refine ⟨⟨seq,named,payload⟩,?_,others,rfl,?_⟩
    · rw [here,lasting]
      rfl
    · intro sound
      have kept := append_sound sound storable
      rw [appended] at kept
      exact kept

private theorem find_where {α : Type} (rows : List α) (p q : α → Bool) :
    (rows.filter p).find? q = rows.find? fun a => p a && q a := by
  induction rows with
  | nil => rfl
  | cons a rest ih =>
    rw [List.filter_cons]
    cases here : p a <;> simp [List.find?_cons,here,ih]

theorem view_updateSession (id : String) (f : SessionRow → SessionRow)
    (keeps : ∀ row, (f row).sessionId = row.sessionId) :
    (s.updateSession id f).view id = { s.view id with session := (s.view id).session.map f } ∧
      ∀ other ≠ id, (s.updateSession id f).view other = s.view other := by
  have found (other : String) : (s.updateSession id f).sessionRow other =
      if other = id then (s.sessionRow other).map f else s.sessionRow other := by
    unfold Ledger.updateSession Ledger.sessionRow
    rw [List.find?_map]
    have same : ((fun row : SessionRow => decide (row.sessionId = other)) ∘
        fun row => if row.sessionId = id then f row else row) =
          fun row => decide (row.sessionId = other) := by
      funext row
      simp only [Function.comp_apply]
      split
      · rw [keeps]
      · rfl
    rw [same]
    cases here : s.sessions.find? fun row => decide (row.sessionId = other) with
    | none => simp
    | some row =>
      have named : row.sessionId = other := by simpa using List.find?_some here
      simp only [Option.map_some,named]
      split
      · rfl
      · rfl
  constructor
  · refine (congrArg (View.mk · _ _ _ _) (found id)).trans ?_
    rw [if_pos rfl]
    rfl
  · intro other different
    refine (congrArg (View.mk · _ _ _ _) (found other)).trans ?_
    rw [if_neg different]
    rfl

theorem view_updateOperation (id operationId : String) (f : OperationRow → OperationRow)
    (keeps : ∀ row, (f row).sessionId = row.sessionId) :
    (s.updateOperation id operationId f).view id = (s.view id).update operationId f ∧
      ∀ other ≠ id, (s.updateOperation id operationId f).view other = s.view other := by
  have rows (other : String) : (s.updateOperation id operationId f).operations.filter
      (·.sessionId = other) = (s.operations.filter (·.sessionId = other)).map
        fun r => if r.sessionId = id ∧ r.operationId = operationId then f r else r := by
    unfold Ledger.updateOperation
    rw [List.filter_map]
    congr 2
    funext row
    simp only [Function.comp_apply]
    split
    · rw [keeps]
    · rfl
  constructor
  · refine (congrArg (View.mk _ _ · _ _) (rows id)).trans ?_
    refine congrArg (View.mk _ _ · _ _) (List.map_congr_left ?_)
    intro row inside
    have mine : row.sessionId = id := by simpa using (List.mem_filter.mp inside).2
    simp [mine]
  · intro other different
    refine (congrArg (View.mk _ _ · _ _) (rows other)).trans ?_
    refine congrArg (View.mk _ _ · _ _) ((List.map_congr_left ?_).trans (List.map_id _))
    intro row inside
    have theirs : row.sessionId = other := by simpa using (List.mem_filter.mp inside).2
    exact if_neg fun both => different (theirs.symm.trans both.1)

theorem view_insertSession {row : SessionRow} (done : s.insertSession row = .ok s')
    (fresh : s.sessionRow row.sessionId = none) :
    s'.view row.sessionId = { s.view row.sessionId with session := some row } ∧
      (∀ other ≠ row.sessionId, s'.view other = s.view other) ∧ s'.journal = s.journal := by
  unfold Ledger.insertSession at done
  split at done
  · cases done
  obtain rfl := Except.ok.inj done
  have found (other : String) : ({ s with sessions := s.sessions ++ [row] } : Ledger).sessionRow
      other = (s.sessionRow other).or (if row.sessionId = other then some row else none) := by
    unfold Ledger.sessionRow
    rw [List.find?_append]
    congr 1
    by_cases same : row.sessionId = other <;> simp [same]
  refine ⟨?_,?_,rfl⟩
  · refine (congrArg (View.mk · _ _ _ _) (found _)).trans ?_
    rw [fresh,if_pos rfl]
    rfl
  · intro other different
    refine (congrArg (View.mk · _ _ _ _) (found other)).trans ?_
    rw [if_neg (Ne.symm different),Option.or_none]
    rfl

theorem view_insertCheckpoint {row : CheckpointRow} (done : s.insertCheckpoint row = .ok s') :
    s'.view row.sessionId = { s.view row.sessionId with
        checkpoints := (s.view row.sessionId).checkpoints ++ [row] } ∧
      (∀ other ≠ row.sessionId, s'.view other = s.view other) ∧ s'.journal = s.journal := by
  unfold Ledger.insertCheckpoint at done
  split at done
  · cases done
  obtain rfl := Except.ok.inj done
  refine ⟨?_,?_,rfl⟩
  · refine congrArg (View.mk _ · _ _ _) ?_
    rw [List.filter_append,List.filter_cons_of_pos (by simp)]
    rfl
  · intro other different
    refine congrArg (View.mk _ · _ _ _) ?_
    rw [List.filter_append,List.filter_cons_of_neg (by simpa using Ne.symm different)]
    exact List.append_nil _

theorem view_insertOperation {row : OperationRow} (done : s.insertOperation row = .ok s') :
    s'.view row.sessionId = { s.view row.sessionId with
        operations := (s.view row.sessionId).operations ++ [row] } ∧
      (∀ other ≠ row.sessionId, s'.view other = s.view other) ∧ s'.journal = s.journal := by
  unfold Ledger.insertOperation at done
  split at done
  · cases done
  obtain rfl := Except.ok.inj done
  refine ⟨?_,?_,rfl⟩
  · refine congrArg (View.mk _ _ · _ _) ?_
    rw [List.filter_append,List.filter_cons_of_pos (by simp)]
    rfl
  · intro other different
    refine congrArg (View.mk _ _ · _ _) ?_
    rw [List.filter_append,List.filter_cons_of_neg (by simpa using Ne.symm different)]
    exact List.append_nil _

theorem operationRow_view (s : Ledger) (id operationId : String) :
    s.operationRow id operationId =
      (s.view id).operations.find? (·.operationId = operationId) := by
  refine Eq.trans ?_ (find_where _ _ _).symm
  unfold Ledger.operationRow
  congr 1
  funext row
  exact Bool.decide_and _ _

theorem operationRow_some {id operationId : String} {o : OperationRow}
    (found : s.operationRow id operationId = some o) :
    o ∈ (s.view id).operations ∧ o.sessionId = id ∧ o.operationId = operationId := by
  unfold Ledger.operationRow at found
  have named := List.find?_some found
  have both : o.sessionId = id ∧ o.operationId = operationId := of_decide_eq_true named
  exact ⟨List.mem_filter.mpr ⟨List.mem_of_find?_eq_some found,by simp [both.1]⟩,both⟩

theorem startedOperation_none {id : String} (idle : s.startedOperation id = none) :
    ∀ o ∈ (s.view id).operations, o.status ≠ .started := by
  intro o inside started
  obtain ⟨listed,mine⟩ := List.mem_filter.mp inside
  have missed := List.find?_eq_none.mp idle o listed
  exact missed (by simpa [started] using mine)

theorem sessionRow_some {id : String} {row : SessionRow} (found : s.sessionRow id = some row) :
    row.sessionId = id := by
  simpa using List.find?_some found

theorem requireSession_ok {id : String} {row : SessionRow} (found : s.requireSession id = .ok row) :
    (s.view id).session = some row ∧ row.sessionId = id := by
  unfold Ledger.requireSession at found
  split at found
  · rename_i here
    obtain rfl := Except.ok.inj found
    exact ⟨here,sessionRow_some here⟩
  · cases found

theorem checkFence_ok {row : SessionRow} {fenceEpoch : Option Int} {epoch : Int}
    (ok : checkFence row fenceEpoch = .ok epoch) :
    fenceEpoch = some row.fenceEpoch ∧ epoch = row.fenceEpoch := by
  unfold checkFence at ok
  split at ok
  · split at ok
    · cases ok
    · split at ok
      · cases ok
      · rename_i same
        obtain rfl := Except.ok.inj ok
        rw [not_not] at same
        exact ⟨congrArg some same,same⟩
  · cases ok

def eventOf (id : String) (name : TrainingEventName) (stamp : Stamp) (operationId : String)
    (epoch : Int) (data : Json.Object) : TrainingJournalEvent where
  sessionId := id
  name := name
  timestamp := stamp
  advanceId := operationId
  sessionAttempt := epoch
  fenceEpoch := epoch
  data := data

/-- What a request that changes something does to its session. -/
inductive Move (floatText : ℚ → Json.FloatText) (id : String) (v : View) : Request → View → Prop
  | created {stamp : Stamp} {r : JournalRecord}
      {scope principalId configDigest extensionSnapshotDigest initialManifestDigest : String}
      (fresh : v.session = none)
      (logged : Logged floatText v.latest (eventOf id .sessionCreated stamp "" 1
        [("scope",.str scope),("principalId",.str principalId),("configDigest",.str configDigest),
          ("sessionExtensionSnapshotDigest",.str extensionSnapshotDigest),
          ("initialManifestDigest",.str initialManifestDigest)]) r) :
      Move floatText id v (.createSession id scope principalId configDigest extensionSnapshotDigest
          initialManifestDigest) { v.log r with
        session := some ⟨id,scope,principalId,r.timestamp,1,configDigest,extensionSnapshotDigest,
          initialManifestDigest,0,r.seq,.active⟩
        checkpoints := v.checkpoints ++ [⟨id,initialManifestDigest,"",0,r.seq,"",r.timestamp⟩] }
  | fenced {stamp : Stamp} {r : JournalRecord} {row : SessionRow} (found : v.session = some row)
      (active : row.state = .active)
      (logged : Logged floatText v.latest { eventOf id .phaseChanged stamp "" (row.fenceEpoch + 1)
        [("previousFenceEpoch",.int row.fenceEpoch)] with phase := "fence-acquired" } r) :
      Move floatText id v (.acquireFence id) { v.log r with
        session := some { row with fenceEpoch := row.fenceEpoch + 1 } }
  | started {stamp : Stamp} {r : JournalRecord} {row : SessionRow} {operationId : String}
      (found : v.session = some row) (active : row.state = .active)
      (fresh : ∀ o ∈ v.operations, o.operationId ≠ operationId)
      (idle : ∀ o ∈ v.operations, o.status ≠ .started)
      (logged : Logged floatText v.latest (eventOf id .advanceStarted stamp operationId
        row.fenceEpoch [("inputManifestDigest",.str row.committedManifestDigest)]) r) :
      Move floatText id v (.claimAdvance id operationId row.committedManifestDigest
          (some row.fenceEpoch)) { v.log r with
        operations := v.operations ++ [⟨id,operationId,row.committedManifestDigest,.started,
          row.fenceEpoch,"","",0,0,r.timestamp,none,false⟩] }
  | continued {stamp : Stamp} {r : JournalRecord} {row : SessionRow} {o : OperationRow}
      (found : v.session = some row) (active : row.state = .active) (member : o ∈ v.operations)
      (running : o.status = .started) (held : o.fenceEpoch = row.fenceEpoch)
      (paused : o.paused = true)
      (logged : Logged floatText v.latest (eventOf id .advanceResumed stamp o.operationId
        row.fenceEpoch [("resumedFromPause",.bool true)]) r) :
      Move floatText id v (.claimAdvance id o.operationId o.inputManifestDigest
          (some row.fenceEpoch))
        ((v.log r).update o.operationId fun o => { o with paused := false })
  | takenOver {stamp : Stamp} {r : JournalRecord} {row : SessionRow} {o : OperationRow}
      (found : v.session = some row) (active : row.state = .active) (member : o ∈ v.operations)
      (running : o.status = .started) (older : o.fenceEpoch ≠ row.fenceEpoch)
      (logged : Logged floatText v.latest (eventOf id .advanceResumed stamp o.operationId
        row.fenceEpoch [("previousFenceEpoch",.int o.fenceEpoch)]) r) :
      Move floatText id v (.claimAdvance id o.operationId o.inputManifestDigest
          (some row.fenceEpoch)) ((v.log r).update o.operationId fun o =>
            { o with fenceEpoch := row.fenceEpoch, paused := false })
  | recovered {stamp : Stamp} {r : JournalRecord} {row : SessionRow} {o : OperationRow}
      {digest : String} (found : v.session = some row) (active : row.state = .active)
      (member : o ∈ v.operations) (running : o.status = .started)
      (held : o.fenceEpoch = row.fenceEpoch)
      (logged : Logged floatText v.latest (eventOf id .recoveryCheckpointPublished stamp
        o.operationId row.fenceEpoch [("manifestDigest",.str digest)]) r) :
      Move floatText id v (.setRecoveryCheckpoint id o.operationId (some row.fenceEpoch) digest)
        ((v.log r).update o.operationId fun o => { o with recoveryCheckpointDigest := digest })
  | paused {stamp : Stamp} {r : JournalRecord} {row : SessionRow} {o : OperationRow}
      {reason : String} (found : v.session = some row) (active : row.state = .active)
      (member : o ∈ v.operations) (running : o.status = .started)
      (held : o.fenceEpoch = row.fenceEpoch)
      (logged : Logged floatText v.latest (eventOf id .advancePaused stamp o.operationId
        row.fenceEpoch (reasonData reason)) r) :
      Move floatText id v (.pauseAdvance id o.operationId (some row.fenceEpoch) reason)
        ((v.log r).update o.operationId fun o => { o with paused := true })
  | committed {stamp : Stamp} {r r' : JournalRecord} {row : SessionRow} {o : OperationRow}
      {digest : String} {cursor covered : Int} (found : v.session = some row)
      (active : row.state = .active) (member : o ∈ v.operations) (running : o.status = .started)
      (held : o.fenceEpoch = row.fenceEpoch) (forward : row.committedStepCursor < cursor)
      (lower : row.committedJournalSeq ≤ covered) (upper : covered ≤ v.latest)
      (fresh : ∀ c ∈ v.checkpoints, c.manifestDigest ≠ digest)
      (published : Logged floatText v.latest (eventOf id .checkpointPublished stamp o.operationId
        row.fenceEpoch [("manifestDigest",.str digest),("parentDigest",.str o.inputManifestDigest),
          ("stepCursor",.int cursor),("coveredJournalSeq",.int covered)]) r)
      (logged : Logged floatText (v.latest + 1) (eventOf id .advanceCommitted (.finite r.timestamp)
        o.operationId row.fenceEpoch [("outputManifestDigest",.str digest),
          ("stepCursor",.int cursor)]) r') :
      Move floatText id v (.commitAdvance id o.operationId (some row.fenceEpoch) digest
          (some cursor) (some covered))
        { ((v.log r).log r').update o.operationId fun o => { o with
              status := .committed
              paused := false
              outputManifestDigest := digest
              outputStepCursor := cursor
              outputJournalSeq := covered
              resolvedAt := some r.timestamp } with
          session := some { row with
            committedManifestDigest := digest
            committedStepCursor := cursor
            committedJournalSeq := covered }
          checkpoints := v.checkpoints ++ [⟨id,digest,o.inputManifestDigest,cursor,covered,
            o.operationId,r.timestamp⟩] }
  | aborted {stamp : Stamp} {r : JournalRecord} {row : SessionRow} {o : OperationRow}
      {reason : String} (found : v.session = some row) (member : o ∈ v.operations)
      (running : o.status = .started)
      (logged : Logged floatText v.latest (eventOf id .advanceAborted stamp o.operationId
        row.fenceEpoch (reasonData reason)) r) :
      Move floatText id v (.abortAdvance id o.operationId (some row.fenceEpoch) reason)
        ((v.log r).update o.operationId fun o => { o with
          status := .aborted
          paused := false
          resolvedAt := some r.timestamp })
  | completed {stamp : Stamp} {r : JournalRecord} {row : SessionRow} (found : v.session = some row)
      (active : row.state = .active) (idle : ∀ o ∈ v.operations, o.status ≠ .started)
      (logged : Logged floatText v.latest (eventOf id .sessionCompleted stamp "" row.fenceEpoch
        []) r) :
      Move floatText id v (.completeSession id (some row.fenceEpoch)) { v.log r with
        session := some { row with state := .completed } }

def Request.sessionId : Request → String
  | .createSession id _ _ _ _ _ => id
  | .acquireFence id => id
  | .claimAdvance id _ _ _ => id
  | .setRecoveryCheckpoint id _ _ _ => id
  | .pauseAdvance id _ _ _ => id
  | .commitAdvance id _ _ _ _ _ => id
  | .abortAdvance id _ _ _ => id
  | .completeSession id _ => id

structure Served (floatText : ℚ → Json.FloatText) (q : Request) (s s' : Ledger) : Prop where
  view : s'.view q.sessionId = s.view q.sessionId ∨
    Move floatText q.sessionId (s.view q.sessionId) q (s'.view q.sessionId)
  others : ∀ other ≠ q.sessionId, s'.view other = s.view other
  sound : Sound s.journal → Sound s'.journal

theorem Served.idle (floatText : ℚ → Json.FloatText) (q : Request) (s : Ledger) :
    Served floatText q s s := ⟨.inl rfl,fun _ _ => rfl,fun sound => sound⟩

private theorem logged_update {e : TrainingJournalEvent} {logged : Ledger}
    (done : appendEvent floatText s e = .ok (r,logged))
    (durable : isDurableTrainingEvent e.name = true) (operationId : String)
    (f : OperationRow → OperationRow) (keeps : ∀ row, (f row).sessionId = row.sessionId) :
    Logged floatText (s.view e.sessionId).latest e r ∧
      (logged.updateOperation e.sessionId operationId f).view e.sessionId =
        ((s.view e.sessionId).log r).update operationId f ∧
      (∀ other ≠ e.sessionId,
        (logged.updateOperation e.sessionId operationId f).view other = s.view other) ∧
      (Sound s.journal → Sound (logged.updateOperation e.sessionId operationId f).journal) := by
  obtain ⟨entry,here,others,_,sound⟩ := appendEvent_spec done durable
  obtain ⟨mine,apart⟩ := view_updateOperation (s := logged) e.sessionId operationId f keeps
  refine ⟨entry,?_,?_,sound⟩
  · rw [mine,here]
  · exact fun other different => (apart other different).trans (others other different)

private theorem logged_updateSession {e : TrainingJournalEvent} {logged : Ledger}
    (done : appendEvent floatText s e = .ok (r,logged))
    (durable : isDurableTrainingEvent e.name = true) (f : SessionRow → SessionRow)
    (keeps : ∀ row, (f row).sessionId = row.sessionId) :
    Logged floatText (s.view e.sessionId).latest e r ∧
      (logged.updateSession e.sessionId f).view e.sessionId = { (s.view e.sessionId).log r with
        session := (s.view e.sessionId).session.map f } ∧
      (∀ other ≠ e.sessionId, (logged.updateSession e.sessionId f).view other = s.view other) ∧
      (Sound s.journal → Sound (logged.updateSession e.sessionId f).journal) := by
  obtain ⟨entry,here,others,_,sound⟩ := appendEvent_spec done durable
  obtain ⟨mine,apart⟩ := view_updateSession (s := logged) e.sessionId f keeps
  refine ⟨entry,?_,?_,sound⟩
  · rw [mine,here]
    rfl
  · exact fun other different => (apart other different).trans (others other different)

variable {stamp : Stamp}

private theorem createSession_served {id scope principalId configDigest extensionSnapshotDigest
    initialManifestDigest : String} {reply : SessionRow}
    (done : createSession floatText s stamp id scope principalId configDigest
      extensionSnapshotDigest initialManifestDigest = .ok (reply,s')) :
    Served floatText (.createSession id scope principalId configDigest extensionSnapshotDigest
      initialManifestDigest) s s' := by
  unfold createSession at done
  obtain ⟨_,_,done⟩ := bind_ok.mp done
  obtain ⟨_,_,done⟩ := bind_ok.mp done
  obtain ⟨_,_,done⟩ := bind_ok.mp done
  obtain ⟨_,_,done⟩ := bind_ok.mp done
  obtain ⟨_,_,done⟩ := bind_ok.mp done
  obtain ⟨_,_,done⟩ := bind_ok.mp done
  split at done
  · dsimp only at done
    split at done
    · obtain ⟨_,rfl⟩ := Prod.mk.inj (Except.ok.inj done)
      exact Served.idle floatText _ _
    · cases done
  · rename_i fresh
    obtain ⟨⟨r,logged⟩,appended,done⟩ := bind_ok.mp done
    obtain ⟨inserted,session,done⟩ := bind_ok.mp done
    obtain ⟨written,checkpoint,done⟩ := bind_ok.mp done
    obtain ⟨row,_,done⟩ := bind_ok.mp done
    obtain ⟨_,rfl⟩ := Prod.mk.inj (Except.ok.inj done)
    obtain ⟨entry,here,others,kept,sound⟩ := appendEvent_spec appended rfl
    have fresh' : logged.sessionRow id = none := by
      rw [kept]
      exact fresh
    obtain ⟨mine,apart,same⟩ := view_insertSession session fresh'
    obtain ⟨mine',apart',same'⟩ := view_insertCheckpoint checkpoint
    refine ⟨.inr ?_,?_,?_⟩
    · dsimp only [Request.sessionId] at mine mine' ⊢
      rw [mine',mine,here]
      exact .created fresh entry
    · intro other different
      exact (apart' other different).trans ((apart other different).trans (others other different))
    · intro before
      rw [same',same]
      exact sound before

private theorem acquireFence_served {id : String} {reply : SessionRow}
    (done : acquireFence floatText s stamp id = .ok (reply,s')) :
    Served floatText (.acquireFence id) s s' := by
  unfold acquireFence at done
  obtain ⟨_,_,done⟩ := bind_ok.mp done
  obtain ⟨row,required,done⟩ := bind_ok.mp done
  obtain ⟨_,refused,done⟩ := bind_ok.mp done
  obtain ⟨⟨r,logged⟩,appended,done⟩ := bind_ok.mp done
  obtain ⟨_,_,done⟩ := bind_ok.mp done
  obtain ⟨_,rfl⟩ := Prod.mk.inj (Except.ok.inj done)
  obtain ⟨found,_⟩ := requireSession_ok required
  have active := not_not.mp (refuseIf_ok.mp refused)
  obtain ⟨entry,here,others,sound⟩ := logged_updateSession appended rfl
    (fun r => { r with fenceEpoch := row.fenceEpoch + 1 }) fun _ => rfl
  refine ⟨.inr ?_,others,sound⟩
  dsimp only [Request.sessionId] at here ⊢
  rw [here,found]
  exact .fenced found active entry

private theorem reclaimAdvance_served {session : SessionRow} {existing reply : OperationRow}
    {inputManifestDigest : String} {fenceEpoch : Option Int}
    (found : (s.view existing.sessionId).session = some session)
    (member : existing ∈ (s.view existing.sessionId).operations)
    (done : reclaimAdvance floatText s stamp session existing inputManifestDigest fenceEpoch =
      .ok (reply,s')) :
    Served floatText (.claimAdvance existing.sessionId existing.operationId inputManifestDigest
      fenceEpoch) s s' := by
  unfold reclaimAdvance at done
  obtain ⟨_,matched,done⟩ := bind_ok.mp done
  have input := not_not.mp (refuseIf_ok.mp matched)
  split at done
  · obtain ⟨_,rfl⟩ := Prod.mk.inj (Except.ok.inj done)
    exact Served.idle floatText _ _
  · rename_i uncommitted
    obtain ⟨_,unaborted,done⟩ := bind_ok.mp done
    obtain ⟨_,passed,done⟩ := bind_ok.mp done
    obtain ⟨epoch,fence,done⟩ := bind_ok.mp done
    have active := not_not.mp (refuseIf_ok.mp passed)
    have running : existing.status = .started := by
      cases status : existing.status with
      | started => rfl
      | committed => exact absurd status uncommitted
      | aborted => exact absurd status (refuseIf_ok.mp unaborted)
    obtain ⟨given,current⟩ := checkFence_ok fence
    subst given current
    split at done
    · rename_i held
      obtain ⟨_,resting,done⟩ := bind_ok.mp done
      obtain ⟨⟨r,logged⟩,appended,done⟩ := bind_ok.mp done
      obtain ⟨_,_,done⟩ := bind_ok.mp done
      obtain ⟨_,rfl⟩ := Prod.mk.inj (Except.ok.inj done)
      have paused : existing.paused = true := by simpa using refuseIf_ok.mp resting
      obtain ⟨entry,here,others,sound⟩ := logged_update appended rfl existing.operationId
        (fun r => { r with paused := false }) fun _ => rfl
      refine ⟨.inr ?_,others,sound⟩
      dsimp only [Request.sessionId] at here ⊢
      rw [here,← input]
      exact .continued found active member running held paused entry
    · rename_i older
      obtain ⟨⟨r,logged⟩,appended,done⟩ := bind_ok.mp done
      obtain ⟨_,_,done⟩ := bind_ok.mp done
      obtain ⟨_,rfl⟩ := Prod.mk.inj (Except.ok.inj done)
      obtain ⟨entry,here,others,sound⟩ := logged_update appended rfl existing.operationId
        (fun r => { r with fenceEpoch := session.fenceEpoch, paused := false }) fun _ => rfl
      refine ⟨.inr ?_,others,sound⟩
      dsimp only [Request.sessionId] at here ⊢
      rw [here,← input]
      exact .takenOver found active member running older entry

private theorem startAdvance_served {session : SessionRow} {reply : OperationRow}
    {operationId inputManifestDigest : String} {fenceEpoch : Option Int}
    (found : (s.view session.sessionId).session = some session)
    (fresh : ∀ o ∈ (s.view session.sessionId).operations, o.operationId ≠ operationId)
    (done : startAdvance floatText s stamp session operationId inputManifestDigest fenceEpoch =
      .ok (reply,s')) :
    Served floatText (.claimAdvance session.sessionId operationId inputManifestDigest fenceEpoch)
      s s' := by
  unfold startAdvance at done
  obtain ⟨_,passed,done⟩ := bind_ok.mp done
  obtain ⟨epoch,fence,done⟩ := bind_ok.mp done
  have active := not_not.mp (refuseIf_ok.mp passed)
  obtain ⟨rfl,rfl⟩ := checkFence_ok fence
  split at done
  · cases done
  · rename_i idle
    obtain ⟨_,matched,done⟩ := bind_ok.mp done
    obtain rfl := not_not.mp (refuseIf_ok.mp matched)
    obtain ⟨⟨r,logged⟩,appended,done⟩ := bind_ok.mp done
    obtain ⟨inserted,operation,done⟩ := bind_ok.mp done
    obtain ⟨_,_,done⟩ := bind_ok.mp done
    obtain ⟨_,rfl⟩ := Prod.mk.inj (Except.ok.inj done)
    obtain ⟨entry,here,others,_,sound⟩ := appendEvent_spec appended rfl
    obtain ⟨mine,apart,same⟩ := view_insertOperation operation
    refine ⟨.inr ?_,?_,?_⟩
    · dsimp only [Request.sessionId] at mine here ⊢
      rw [mine,here]
      exact .started found active fresh (startedOperation_none idle) entry
    · exact fun other different => (apart other different).trans (others other different)
    · intro before
      rw [same]
      exact sound before

private theorem claimAdvance_served {id operationId inputManifestDigest : String}
    {fenceEpoch : Option Int} {reply : OperationRow}
    (done : claimAdvance floatText s stamp id operationId inputManifestDigest fenceEpoch =
      .ok (reply,s')) :
    Served floatText (.claimAdvance id operationId inputManifestDigest fenceEpoch) s s' := by
  unfold claimAdvance at done
  obtain ⟨_,_,done⟩ := bind_ok.mp done
  obtain ⟨_,_,done⟩ := bind_ok.mp done
  obtain ⟨_,_,done⟩ := bind_ok.mp done
  obtain ⟨session,required,done⟩ := bind_ok.mp done
  obtain ⟨found,rfl⟩ := requireSession_ok required
  split at done
  · rename_i existing recorded
    obtain ⟨member,mine,named⟩ := operationRow_some recorded
    rw [← mine] at found member ⊢
    rw [← named]
    exact reclaimAdvance_served found member done
  · rename_i missing
    apply startAdvance_served found _ done
    rw [operationRow_view] at missing
    intro o inside
    simpa using List.find?_eq_none.mp missing o inside

private theorem heldOperation_ok {session : SessionRow} {operationId : String}
    {fenceEpoch : Option Int} {epoch : Int} {o : OperationRow}
    (ok : heldOperation s session operationId fenceEpoch = .ok (epoch,o)) :
    session.state = .active ∧ fenceEpoch = some session.fenceEpoch ∧
      epoch = session.fenceEpoch ∧ o ∈ (s.view session.sessionId).operations ∧
      o.operationId = operationId ∧ o.status = .started ∧ o.fenceEpoch = session.fenceEpoch := by
  unfold heldOperation at ok
  obtain ⟨_,passed,ok⟩ := bind_ok.mp ok
  obtain ⟨epoch',fence,ok⟩ := bind_ok.mp ok
  obtain ⟨given,rfl⟩ := checkFence_ok fence
  split at ok
  · cases ok
  · rename_i existing recorded
    obtain ⟨_,running,ok⟩ := bind_ok.mp ok
    obtain ⟨_,held,ok⟩ := bind_ok.mp ok
    obtain ⟨rfl,rfl⟩ := Prod.mk.inj (Except.ok.inj ok)
    obtain ⟨member,_,named⟩ := operationRow_some recorded
    exact ⟨not_not.mp (refuseIf_ok.mp passed),given,rfl,member,named,
      not_not.mp (refuseIf_ok.mp running),not_not.mp (refuseIf_ok.mp held)⟩

private theorem setRecoveryCheckpoint_served {id operationId manifestDigest : String}
    {fenceEpoch : Option Int} {reply : OperationRow}
    (done : setRecoveryCheckpoint floatText s stamp id operationId fenceEpoch manifestDigest =
      .ok (reply,s')) :
    Served floatText (.setRecoveryCheckpoint id operationId fenceEpoch manifestDigest) s s' := by
  unfold setRecoveryCheckpoint at done
  obtain ⟨_,_,done⟩ := bind_ok.mp done
  obtain ⟨_,_,done⟩ := bind_ok.mp done
  obtain ⟨_,_,done⟩ := bind_ok.mp done
  obtain ⟨session,required,done⟩ := bind_ok.mp done
  obtain ⟨⟨epoch,o⟩,held,done⟩ := bind_ok.mp done
  obtain ⟨⟨r,logged⟩,appended,done⟩ := bind_ok.mp done
  obtain ⟨_,_,done⟩ := bind_ok.mp done
  obtain ⟨_,rfl⟩ := Prod.mk.inj (Except.ok.inj done)
  obtain ⟨found,rfl⟩ := requireSession_ok required
  obtain ⟨active,rfl,rfl,member,rfl,running,mine⟩ := heldOperation_ok held
  obtain ⟨entry,here,others,sound⟩ := logged_update appended rfl o.operationId
    (fun r => { r with recoveryCheckpointDigest := manifestDigest }) fun _ => rfl
  refine ⟨.inr ?_,others,sound⟩
  dsimp only [Request.sessionId] at here ⊢
  rw [here]
  exact .recovered found active member running mine entry

private theorem pauseAdvance_served {id operationId reason : String} {fenceEpoch : Option Int}
    {reply : OperationRow}
    (done : pauseAdvance floatText s stamp id operationId fenceEpoch reason = .ok (reply,s')) :
    Served floatText (.pauseAdvance id operationId fenceEpoch reason) s s' := by
  unfold pauseAdvance at done
  obtain ⟨_,_,done⟩ := bind_ok.mp done
  obtain ⟨_,_,done⟩ := bind_ok.mp done
  obtain ⟨session,required,done⟩ := bind_ok.mp done
  obtain ⟨⟨epoch,o⟩,held,done⟩ := bind_ok.mp done
  dsimp only at done
  split at done
  · obtain ⟨_,rfl⟩ := Prod.mk.inj (Except.ok.inj done)
    exact Served.idle floatText _ _
  · obtain ⟨_,_,done⟩ := bind_ok.mp done
    obtain ⟨⟨r,logged⟩,appended,done⟩ := bind_ok.mp done
    obtain ⟨_,_,done⟩ := bind_ok.mp done
    obtain ⟨_,rfl⟩ := Prod.mk.inj (Except.ok.inj done)
    obtain ⟨found,rfl⟩ := requireSession_ok required
    obtain ⟨active,rfl,rfl,member,rfl,running,mine⟩ := heldOperation_ok held
    obtain ⟨entry,here,others,sound⟩ := logged_update appended rfl o.operationId
      (fun r => { r with paused := true }) fun _ => rfl
    refine ⟨.inr ?_,others,sound⟩
    dsimp only [Request.sessionId] at here ⊢
    rw [here]
    exact .paused found active member running mine entry

private theorem publishCheckpoint_served {o reply : OperationRow} {row : SessionRow} {epoch : Int}
    {digest : String} {cursor covered : Int}
    (found : (s.view o.sessionId).session = some row) (active : row.state = .active)
    (member : o ∈ (s.view o.sessionId).operations) (running : o.status = .started)
    (held : o.fenceEpoch = row.fenceEpoch) (forward : row.committedStepCursor < cursor)
    (lower : row.committedJournalSeq ≤ covered) (upper : covered ≤ (s.view o.sessionId).latest)
    (fresh : ∀ c ∈ (s.view o.sessionId).checkpoints, c.manifestDigest ≠ digest)
    (current : epoch = row.fenceEpoch)
    (done : publishCheckpoint floatText s stamp o epoch digest cursor covered = .ok (reply,s')) :
    Served floatText (.commitAdvance o.sessionId o.operationId (some row.fenceEpoch) digest
      (some cursor) (some covered)) s s' := by
  unfold publishCheckpoint at done
  obtain ⟨⟨r,first⟩,published,done⟩ := bind_ok.mp done
  obtain ⟨⟨r',second⟩,appended,done⟩ := bind_ok.mp done
  obtain ⟨inserted,checkpoint,done⟩ := bind_ok.mp done
  obtain ⟨_,_,done⟩ := bind_ok.mp done
  obtain ⟨_,rfl⟩ := Prod.mk.inj (Except.ok.inj done)
  subst current
  obtain ⟨entry,here,others,_,sound⟩ := appendEvent_spec published rfl
  obtain ⟨entry',here',others',_,sound'⟩ := appendEvent_spec appended rfl
  obtain ⟨mine,apart,same⟩ := view_insertCheckpoint checkpoint
  obtain ⟨updated,aside⟩ := view_updateOperation (s := inserted) o.sessionId o.operationId
    (fun o => { o with
      status := .committed
      paused := false
      outputManifestDigest := digest
      outputStepCursor := cursor
      outputJournalSeq := covered
      resolvedAt := some r.timestamp }) fun _ => rfl
  obtain ⟨headed,beside⟩ := view_updateSession (s := inserted.updateOperation o.sessionId
    o.operationId (fun o => { o with
      status := .committed
      paused := false
      outputManifestDigest := digest
      outputStepCursor := cursor
      outputJournalSeq := covered
      resolvedAt := some r.timestamp })) o.sessionId
    (fun r => { r with
      committedManifestDigest := digest
      committedStepCursor := cursor
      committedJournalSeq := covered }) fun _ => rfl
  refine ⟨.inr ?_,?_,?_⟩
  · dsimp only [Request.sessionId] at mine here here' entry' ⊢
    rw [here] at here' entry'
    rw [headed,updated,mine,here']
    dsimp only [View.update,View.log]
    rw [found]
    exact .committed found active member running held forward lower upper fresh entry entry'
  · intro other different
    have first := (others' other different).trans (others other different)
    exact (beside other different).trans
      ((aside other different).trans ((apart other different).trans first))
  · intro before
    have kept := sound' (sound before)
    rwa [← same] at kept

private theorem of_count {n : Option Int} {raised : Raised} {u : PUnit}
    (passed : refuseIf (!isCount n) raised = .ok u) : n = some (n.getD 0) := by
  have counted : isCount n = true := by simpa using refuseIf_ok.mp passed
  cases n with
  | some n => rfl
  | none => cases counted

private theorem commitAdvance_served {id operationId digest : String} {fenceEpoch : Option Int}
    {outputStepCursor coveredJournalSeq : Option Int} {reply : OperationRow}
    (done : commitAdvance floatText s stamp id operationId fenceEpoch digest outputStepCursor
      coveredJournalSeq = .ok (reply,s')) :
    Served floatText (.commitAdvance id operationId fenceEpoch digest outputStepCursor
      coveredJournalSeq) s s' := by
  unfold commitAdvance at done
  obtain ⟨_,_,done⟩ := bind_ok.mp done
  obtain ⟨_,_,done⟩ := bind_ok.mp done
  obtain ⟨_,_,done⟩ := bind_ok.mp done
  obtain ⟨_,cursorGiven,done⟩ := bind_ok.mp done
  obtain ⟨_,coveredGiven,done⟩ := bind_ok.mp done
  obtain ⟨session,required,done⟩ := bind_ok.mp done
  obtain ⟨found,mine⟩ := requireSession_ok required
  split at done
  · cases done
  rename_i existing recorded
  obtain ⟨member,here,named⟩ := operationRow_some recorded
  split at done
  · split at done
    · obtain ⟨_,rfl⟩ := Prod.mk.inj (Except.ok.inj done)
      exact Served.idle floatText _ _
    · cases done
  · cases done
  · rename_i running
    obtain ⟨_,passed,done⟩ := bind_ok.mp done
    obtain ⟨epoch,fence,done⟩ := bind_ok.mp done
    obtain ⟨_,held,done⟩ := bind_ok.mp done
    obtain ⟨_,forward,done⟩ := bind_ok.mp done
    obtain ⟨_,lower,done⟩ := bind_ok.mp done
    obtain ⟨_,upper,done⟩ := bind_ok.mp done
    obtain ⟨_,fresh,done⟩ := bind_ok.mp done
    obtain ⟨given,current⟩ := checkFence_ok fence
    have held := not_not.mp (refuseIf_ok.mp held)
    rw [← here] at found member
    rw [given,of_count cursorGiven,of_count coveredGiven,← here,← named]
    refine publishCheckpoint_served found (not_not.mp (refuseIf_ok.mp passed)) member running
      (held.trans current) (not_le.mp (refuseIf_ok.mp forward)) (not_lt.mp (refuseIf_ok.mp lower))
      ?_ ?_ current done
    · rw [here]
      exact not_lt.mp (refuseIf_ok.mp upper)
    · intro c inside same
      obtain ⟨listed,owned⟩ := List.mem_filter.mp inside
      apply refuseIf_ok.mp fresh
      refine List.any_eq_true.mpr ⟨c,listed,?_⟩
      rw [here] at owned
      exact decide_eq_true ⟨of_decide_eq_true owned,same⟩

private theorem abortAdvance_served {id operationId reason : String} {fenceEpoch : Option Int}
    {reply : OperationRow}
    (done : abortAdvance floatText s stamp id operationId fenceEpoch reason = .ok (reply,s')) :
    Served floatText (.abortAdvance id operationId fenceEpoch reason) s s' := by
  unfold abortAdvance at done
  obtain ⟨_,_,done⟩ := bind_ok.mp done
  obtain ⟨_,_,done⟩ := bind_ok.mp done
  obtain ⟨session,required,done⟩ := bind_ok.mp done
  obtain ⟨found,mine⟩ := requireSession_ok required
  split at done
  · cases done
  rename_i existing recorded
  obtain ⟨member,_,named⟩ := operationRow_some recorded
  split at done
  · obtain ⟨_,rfl⟩ := Prod.mk.inj (Except.ok.inj done)
    exact Served.idle floatText _ _
  · cases done
  · rename_i running
    obtain ⟨epoch,fence,done⟩ := bind_ok.mp done
    obtain ⟨⟨r,logged⟩,appended,done⟩ := bind_ok.mp done
    obtain ⟨_,_,done⟩ := bind_ok.mp done
    obtain ⟨_,rfl⟩ := Prod.mk.inj (Except.ok.inj done)
    obtain ⟨given,current⟩ := checkFence_ok fence
    subst given current named
    obtain ⟨entry,here,others,sound⟩ := logged_update appended rfl existing.operationId
      (fun o => { o with status := .aborted, paused := false, resolvedAt := some r.timestamp })
      fun _ => rfl
    refine ⟨.inr ?_,others,sound⟩
    dsimp only [Request.sessionId] at here ⊢
    rw [here]
    exact .aborted found member running entry

private theorem completeSession_served {id : String} {fenceEpoch : Option Int} {reply : SessionRow}
    (done : completeSession floatText s stamp id fenceEpoch = .ok (reply,s')) :
    Served floatText (.completeSession id fenceEpoch) s s' := by
  unfold completeSession at done
  obtain ⟨_,_,done⟩ := bind_ok.mp done
  obtain ⟨session,required,done⟩ := bind_ok.mp done
  obtain ⟨found,mine⟩ := requireSession_ok required
  split at done
  · obtain ⟨_,rfl⟩ := Prod.mk.inj (Except.ok.inj done)
    exact Served.idle floatText _ _
  · rename_i incomplete
    obtain ⟨epoch,fence,done⟩ := bind_ok.mp done
    split at done
    · cases done
    rename_i idle
    obtain ⟨⟨r,logged⟩,appended,done⟩ := bind_ok.mp done
    obtain ⟨_,_,done⟩ := bind_ok.mp done
    obtain ⟨_,rfl⟩ := Prod.mk.inj (Except.ok.inj done)
    obtain ⟨given,current⟩ := checkFence_ok fence
    subst given current
    have active : session.state = .active := by
      cases state : session.state with
      | active => rfl
      | completed => exact absurd state incomplete
    obtain ⟨entry,here,others,sound⟩ := logged_updateSession appended rfl
      (fun r => { r with state := .completed }) fun _ => rfl
    refine ⟨.inr ?_,others,sound⟩
    dsimp only [Request.sessionId] at here ⊢
    rw [here,found]
    exact .completed found active (startedOperation_none idle) entry

private theorem map_ok {α β : Type} {x : Except Raised α} {f : α → β} {b : β}
    (done : x.map f = .ok b) : ∃ a, x = .ok a ∧ f a = b := by
  cases x with
  | error raised => cases done
  | ok a => exact ⟨a,rfl,Except.ok.inj done⟩

theorem serve_served {c : Call} {reply : Reply} (done : serve floatText s c = .ok (reply,s')) :
    Served floatText c.request s s' := by
  obtain ⟨request,timestamp,now⟩ := c
  unfold serve at done
  cases request with
  | createSession =>
    obtain ⟨⟨row,written⟩,ran,same⟩ := map_ok done
    obtain ⟨_,rfl⟩ := Prod.mk.inj same
    exact createSession_served ran
  | acquireFence =>
    obtain ⟨⟨row,written⟩,ran,same⟩ := map_ok done
    obtain ⟨_,rfl⟩ := Prod.mk.inj same
    exact acquireFence_served ran
  | claimAdvance =>
    obtain ⟨⟨row,written⟩,ran,same⟩ := map_ok done
    obtain ⟨_,rfl⟩ := Prod.mk.inj same
    exact claimAdvance_served ran
  | setRecoveryCheckpoint =>
    obtain ⟨⟨row,written⟩,ran,same⟩ := map_ok done
    obtain ⟨_,rfl⟩ := Prod.mk.inj same
    exact setRecoveryCheckpoint_served ran
  | pauseAdvance =>
    obtain ⟨⟨row,written⟩,ran,same⟩ := map_ok done
    obtain ⟨_,rfl⟩ := Prod.mk.inj same
    exact pauseAdvance_served ran
  | commitAdvance =>
    obtain ⟨⟨row,written⟩,ran,same⟩ := map_ok done
    obtain ⟨_,rfl⟩ := Prod.mk.inj same
    exact commitAdvance_served ran
  | abortAdvance =>
    obtain ⟨⟨row,written⟩,ran,same⟩ := map_ok done
    obtain ⟨_,rfl⟩ := Prod.mk.inj same
    exact abortAdvance_served ran
  | completeSession =>
    obtain ⟨⟨row,written⟩,ran,same⟩ := map_ok done
    obtain ⟨_,rfl⟩ := Prod.mk.inj same
    exact completeSession_served ran

def Request.Checked : Request → Prop
  | .claimAdvance id operationId inputManifestDigest _ =>
    isTrainingSessionId id ∧ isTrainingSessionId operationId ∧
      isTrainingCheckpointDigest inputManifestDigest
  | .commitAdvance _ _ _ outputManifestDigest outputStepCursor coveredJournalSeq =>
    isTrainingCheckpointDigest outputManifestDigest ∧ isCount outputStepCursor ∧
      isCount coveredJournalSeq
  | _ => True

private theorem of_unrefused {b : Bool} {raised : Raised} {u : PUnit}
    (passed : refuseIf (!b) raised = .ok u) : b = true := by simpa using refuseIf_ok.mp passed

theorem serve_checked {c : Call} {answer : Reply × Ledger}
    (done : serve floatText s c = .ok answer) : c.request.Checked := by
  obtain ⟨request,timestamp,now⟩ := c
  unfold serve at done
  cases request with
  | claimAdvance =>
    obtain ⟨_,ran,_⟩ := map_ok done
    unfold claimAdvance at ran
    obtain ⟨_,id,ran⟩ := bind_ok.mp ran
    obtain ⟨_,operationId,ran⟩ := bind_ok.mp ran
    obtain ⟨_,digest,_⟩ := bind_ok.mp ran
    exact ⟨of_unrefused id,of_unrefused operationId,of_unrefused digest⟩
  | commitAdvance =>
    obtain ⟨_,ran,_⟩ := map_ok done
    unfold commitAdvance at ran
    obtain ⟨_,_,ran⟩ := bind_ok.mp ran
    obtain ⟨_,_,ran⟩ := bind_ok.mp ran
    obtain ⟨_,digest,ran⟩ := bind_ok.mp ran
    obtain ⟨_,cursor,ran⟩ := bind_ok.mp ran
    obtain ⟨_,covered,_⟩ := bind_ok.mp ran
    exact ⟨of_unrefused digest,of_unrefused cursor,of_unrefused covered⟩
  | createSession => trivial
  | acquireFence => trivial
  | setRecoveryCheckpoint => trivial
  | pauseAdvance => trivial
  | abortAdvance => trivial
  | completeSession => trivial

/-- What a step does to one session. -/
inductive Change (floatText : ℚ → Json.FloatText) (id : String) (v : View) : Action → View → Prop
  | same {a : Action} : Change floatText id v a v
  | longer {a : Action} {latest : Nat} (more : v.latest ≤ latest) :
      Change floatText id v a { v with latest := latest }
  | move {c : Call} {v' : View} (mine : c.request.sessionId = id) (checked : c.request.Checked)
      (moved : Move floatText id v c.request v') : Change floatText id v (.call c) v'

private theorem telemetry_change {e : Entry} {journal : Store} (id : String)
    (coalescible : e.durable = some false) (done : s.journal.append e = (.ok r,journal)) :
    Change floatText id (s.view id) (.telemetry e) (({ s with journal := journal } : Ledger).view id) := by
  obtain ⟨stream,seq,written⟩ := Journal.append_ok (congrArg Prod.fst done)
  obtain ⟨_,kept,_⟩ := append_recorded (congrArg Prod.fst done)
  have passing : r.durable = false := Option.some.inj (kept.symm.trans coalescible)
  rw [done] at written
  dsimp only at written
  rw [← stream] at written
  subst written
  have latest := Journal.latestSeq_bumpSeq s.journal r.streamId (trainingSessionStream id)
  have same : ({ s with journal := { s.journal.bumpSeq r.streamId with
      journal := s.journal.journal ++ [r] } } : Ledger).view id =
        { s.view id with latest :=
            (s.journal.bumpSeq r.streamId).latestSeq (trainingSessionStream id) } := by
    refine congrArg (View.mk _ _ _ · _) ?_
    refine (congrArg _ records_append).trans ?_
    rw [List.filter_append]
    refine (congrArg _ ?_).trans (List.append_nil _)
    split
    · exact List.filter_cons_of_neg (by simp [passing])
    · rfl
  rw [same]
  apply Change.longer
  rw [latest]
  split
  · rename_i mine
    rw [← mine]
    exact Nat.le_succ _
  · exact Nat.le_refl _

theorem prune_view (stream : PyStr) (upTo : Int) (id : String) :
    ({ s with journal := (s.journal.pruneCoalescible stream upTo).2 } : Ledger).view id =
      s.view id := by
  unfold Journal.Store.pruneCoalescible
  split
  · rfl
  split
  swap
  · rfl
  dsimp only
  have kept (m : Nat) : ((s.journal.journal.filter fun r => !(decide (r.streamId = stream) &&
      decide (r.seq ≤ m) && !r.durable)).filter
        fun r => decide (r.streamId = trainingSessionStream id)).filter (·.durable) =
      (s.journal.journal.filter fun r => decide (r.streamId = trainingSessionStream id)).filter
        (·.durable) := by
    rw [List.filter_filter,List.filter_filter,List.filter_filter]
    congr 1
    funext r
    cases r.durable <;> simp
  split
  · refine congrArg₂ (View.mk _ _ _) (kept _) ?_
    exact Journal.latestSeq_setMark _ _ _ _
  · exact congrArg (View.mk _ _ _ · _) (kept _)

theorem step_changes {a : Action} (taken : step floatText s a = some s') :
    (∀ id, Change floatText id (s.view id) a (s'.view id)) ∧
      (Sound s.journal → Sound s'.journal) := by
  cases a with
  | call c =>
    obtain rfl := Option.some.inj taken
    unfold transact
    cases served : serve floatText s c with
    | error raised => exact ⟨fun _ => .same,fun sound => sound⟩
    | ok answer =>
      obtain ⟨reply,written⟩ := answer
      obtain ⟨view,others,sound⟩ := serve_served served
      refine ⟨?_,sound⟩
      intro id
      by_cases mine : c.request.sessionId = id
      · subst mine
        obtain same | moved := view
        · rw [same]
          exact .same
        · exact .move rfl (serve_checked served) moved
      · rw [others id (Ne.symm mine)]
        exact .same
  | telemetry e =>
    unfold step at taken
    dsimp only at taken
    split at taken
    · rename_i coalescible
      split at taken
      · rename_i record journal appended
        obtain rfl := Option.some.inj taken
        obtain ⟨_,_,_,_,storable⟩ := append_recorded (congrArg Prod.fst appended)
        refine ⟨fun id => telemetry_change id coalescible appended,?_⟩
        intro sound
        have kept := append_sound sound storable
        rw [appended] at kept
        exact kept
      · obtain rfl := Option.some.inj taken
        exact ⟨fun _ => .same,fun sound => sound⟩
    · cases taken
  | prune stream upTo =>
    unfold step at taken
    dsimp only at taken
    have view (id : String) : ({ s with journal := (s.journal.pruneCoalescible stream upTo).2 } :
        Ledger).view id = s.view id := prune_view _ _ id
    have kept (sound : Sound s.journal) :
        Sound (s.journal.answer (.pruneCoalescible stream upTo)).2 :=
      Journal.answer_sound sound rfl
    unfold Journal.Store.answer at kept
    split at taken
    · rename_i removed journal pruned
      obtain rfl := Option.some.inj taken
      simp only [pruned] at view kept
      refine ⟨?_,kept⟩
      intro id
      rw [view id]
      exact .same
    · obtain rfl := Option.some.inj taken
      exact ⟨fun _ => .same,fun sound => sound⟩

end Dinkster.Training
