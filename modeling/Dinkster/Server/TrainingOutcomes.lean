import Dinkster.Server.TrainingLineage

/-! What a session's callers can rely on: a settled operation stays as it is and answers for its
replays, only the current fence changes an operation or the head, and no operation is handed out as
started twice without a pause or a new fence between. -/
namespace Dinkster.Training
open Journal (JournalRecord Stamp Sound)
open Fallible (bind_ok refuseIf refuseIf_ok)
open Transition

variable {floatText : ℚ → Json.FloatText} {s s' t : Ledger} {id operationId : String} {v v' : View}
  {q : Request} {a : Action} {o : OperationRow} {row : SessionRow}

private theorem update_other {p : OperationRow} {f : OperationRow → OperationRow}
    (member : p ∈ v.operations) (other : p.operationId ≠ operationId) :
    p ∈ (v.update operationId f).operations :=
  View.mem_update.mpr ⟨p,member,if_neg other⟩

private theorem Lineage.settled_ne {p : OperationRow} (lineage : Lineage v)
    (member : o ∈ v.operations) (settled : o.status ≠ .started) (running : p ∈ v.operations)
    (started : p.status = .started) : o.operationId ≠ p.operationId := by
  intro same
  rw [lineage.unique member running same] at settled
  exact settled started

theorem change_settled (lineage : Lineage v) (changed : Change floatText id v a v')
    (member : o ∈ v.operations) (settled : o.status ≠ .started) : o ∈ v'.operations := by
  cases changed with
  | same => exact member
  | longer more => exact member
  | @move c v' mine checked moved =>
    generalize c.request = q at moved
    cases moved with
    | created fresh logged => exact member
    | fenced found active logged => exact member
    | started found active fresh idle logged => exact List.mem_append_left _ member
    | continued found active inside running held paused logged =>
      exact update_other (v := v.log _) member (lineage.settled_ne member settled inside running)
    | takenOver found active inside running older logged =>
      exact update_other (v := v.log _) member (lineage.settled_ne member settled inside running)
    | recovered found active inside running held logged =>
      exact update_other (v := v.log _) member (lineage.settled_ne member settled inside running)
    | paused found active inside running held logged =>
      exact update_other (v := v.log _) member (lineage.settled_ne member settled inside running)
    | committed found active inside running held forward lower upper fresh published logged =>
      exact update_other (v := (v.log _).log _) member
        (lineage.settled_ne member settled inside running)
    | aborted found inside running logged =>
      exact update_other (v := v.log _) member (lineage.settled_ne member settled inside running)
    | completed found active idle logged => exact member

theorem Lineage.operationRow (lineage : Lineage (s.view id)) (member : o ∈ (s.view id).operations)
    (named : o.operationId = operationId) : s.operationRow id operationId = some o := by
  rw [operationRow_view]
  cases found : (s.view id).operations.find? (·.operationId = operationId) with
  | none => exact absurd named (by simpa using List.find?_eq_none.mp found o member)
  | some p =>
    have same : p.operationId = operationId := by simpa using List.find?_some found
    rw [lineage.unique (List.mem_of_find?_eq_some found) member (same.trans named.symm)]

theorem settled_forever (lineage : Lineage (s.view id))
    (found : s.operationRow id operationId = some o) (settled : o.status ≠ .started)
    (reached : Reachable (step floatText) s t) : t.operationRow id operationId = some o := by
  obtain ⟨member,_,named⟩ := operationRow_some found
  have kept : Lineage (t.view id) ∧ o ∈ (t.view id).operations := by
    apply reached.invariant fun t => Lineage (t.view id) ∧ o ∈ (t.view id).operations
    · exact ⟨lineage,member⟩
    · intro t a u before _ taken
      have changed := (step_changes taken).1 id
      exact ⟨change_lineage before.1 changed,change_settled before.1 changed before.2 settled⟩
  exact kept.1.operationRow kept.2 named

/-- The arguments that an operation was claimed and committed with passed their checks. -/
structure Admitted (id : String) (o : OperationRow) : Prop where
  sessionId : isTrainingSessionId id
  operationId : isTrainingSessionId o.operationId
  input : isTrainingCheckpointDigest o.inputManifestDigest
  output : o.status = .committed → isTrainingCheckpointDigest o.outputManifestDigest ∧
    isCount (some o.outputStepCursor) ∧ isCount (some o.outputJournalSeq)

private theorem admitted_update {f : OperationRow → OperationRow}
    (admitted : ∀ o ∈ v.operations, Admitted id o)
    (keeps : ∀ o, Admitted id o → Admitted id (f o)) :
    ∀ o ∈ (v.update operationId f).operations, Admitted id o := by
  intro p inside
  obtain ⟨o,member,rfl⟩ := View.mem_update.mp inside
  split
  · exact keeps o (admitted o member)
  · exact admitted o member

theorem change_admitted (admitted : ∀ o ∈ v.operations, Admitted id o)
    (changed : Change floatText id v a v') : ∀ o ∈ v'.operations, Admitted id o := by
  cases changed with
  | same => exact admitted
  | longer more => exact admitted
  | @move c v' mine checked moved =>
    generalize c.request = q at moved checked
    cases moved with
    | created fresh logged => exact admitted
    | fenced found active logged => exact admitted
    | started found active fresh idle logged =>
      obtain ⟨sessionId,operationId,input⟩ := checked
      intro o inside
      obtain inside | last := List.mem_append.mp inside
      · exact admitted o inside
      · rw [List.mem_singleton.mp last]
        exact ⟨sessionId,operationId,input,nofun⟩
    | continued found active inside running held paused logged =>
      exact admitted_update (v := v.log _) admitted fun o kept => ⟨kept.1,kept.2,kept.3,kept.4⟩
    | takenOver found active inside running older logged =>
      exact admitted_update (v := v.log _) admitted fun o kept => ⟨kept.1,kept.2,kept.3,kept.4⟩
    | recovered found active inside running held logged =>
      exact admitted_update (v := v.log _) admitted fun o kept => ⟨kept.1,kept.2,kept.3,kept.4⟩
    | paused found active inside running held logged =>
      exact admitted_update (v := v.log _) admitted fun o kept => ⟨kept.1,kept.2,kept.3,kept.4⟩
    | committed found active inside running held forward lower upper fresh published logged =>
      exact admitted_update (v := (v.log _).log _) admitted fun o kept =>
        ⟨kept.1,kept.2,kept.3,fun _ => checked⟩
    | aborted found inside running logged =>
      exact admitted_update (v := v.log _) admitted fun o kept => ⟨kept.1,kept.2,kept.3,nofun⟩
    | completed found active idle logged => exact admitted

theorem reachable_admitted (reached : Reachable (step floatText) {} s) (id : String) :
    ∀ o ∈ (s.view id).operations, Admitted id o := by
  apply reached.invariant fun s => ∀ o ∈ (s.view id).operations, Admitted id o
  · exact List.forall_mem_nil _
  · intro t a u admitted _ taken
    exact change_admitted admitted ((step_changes taken).1 id)

/-- A settled operation answers for the replays of its claim and of its commit, under any fence and
at any time, and nothing is written. -/
structure Replays (floatText : ℚ → Json.FloatText) (s : Ledger) (id : String) (o : OperationRow) :
    Prop where
  claim : o.status = .committed → ∀ fenceEpoch timestamp now,
    transact floatText s
        ⟨.claimAdvance id o.operationId o.inputManifestDigest fenceEpoch,timestamp,now⟩ =
      (.ok (.operation o),s)
  commit : o.status = .committed → ∀ fenceEpoch timestamp now,
    transact floatText s ⟨.commitAdvance id o.operationId fenceEpoch o.outputManifestDigest
        (some o.outputStepCursor) (some o.outputJournalSeq),timestamp,now⟩ =
      (.ok (.operation o),s)
  abortedClaim : o.status = .aborted → ∀ fenceEpoch timestamp now,
    transact floatText s
        ⟨.claimAdvance id o.operationId o.inputManifestDigest fenceEpoch,timestamp,now⟩ =
      (.error (.trainingLineageConflict ("operation " ++ quoted o.operationId ++
        " was aborted; claim a new operation id")),s)
  abortedCommit : o.status = .aborted → ∀ fenceEpoch timestamp now digest cursor covered,
    isTrainingCheckpointDigest digest → isCount cursor → isCount covered →
    transact floatText s
        ⟨.commitAdvance id o.operationId fenceEpoch digest cursor covered,timestamp,now⟩ =
      (.error (.trainingLineageConflict ("operation " ++ quoted o.operationId ++
        " was aborted")),s)

theorem unrefused {b : Bool} (holds : b = true) (raised : Raised) :
    refuseIf ((!b) = true) raised = .ok ⟨⟩ := refuseIf_ok.mpr (by simp [holds])

private theorem bind_error {α β : Type} {x : Except Raised α} {k : α → Except Raised β}
    {raised : Raised} {a : α} (first : x = .ok a) (rest : k a = .error raised) :
    (x >>= k) = .error raised := by
  rw [first]
  exact rest

theorem settled_replays (lineage : Lineage (s.view id))
    (admitted : ∀ o ∈ (s.view id).operations, Admitted id o)
    (found : s.operationRow id operationId = some o) : Replays floatText s id o := by
  obtain ⟨member,mine,named⟩ := operationRow_some found
  obtain ⟨sessionId,operation,input,output⟩ := admitted o member
  subst named
  obtain ⟨row,session⟩ : ∃ row, s.requireSession id = .ok row := by
    unfold Ledger.requireSession
    cases here : s.sessionRow id with
    | some row => exact ⟨row,rfl⟩
    | none =>
      rw [(lineage.unborn here).2] at member
      cases member
  have same : refuseIf (o.inputManifestDigest ≠ o.inputManifestDigest)
      (Raised.trainingLineageConflict ("operation " ++ quoted o.operationId ++
        " was claimed with a different input checkpoint")) = .ok ⟨⟩ :=
    refuseIf_ok.mpr (not_not.mpr rfl)
  constructor
  · intro committed fenceEpoch timestamp now
    have claimed (stamp : Stamp) : claimAdvance floatText s stamp id o.operationId
        o.inputManifestDigest fenceEpoch = .ok (o,s) := by
      refine bind_ok.mpr ⟨⟨⟩,unrefused sessionId _,?_⟩
      refine bind_ok.mpr ⟨⟨⟩,unrefused operation _,?_⟩
      refine bind_ok.mpr ⟨⟨⟩,unrefused input _,?_⟩
      refine bind_ok.mpr ⟨row,session,?_⟩
      rw [found]
      refine bind_ok.mpr ⟨⟨⟩,same,?_⟩
      exact if_pos committed
    unfold transact serve
    dsimp only
    rw [claimed]
    rfl
  · intro committed fenceEpoch timestamp now
    obtain ⟨digest,cursor,covered⟩ := output committed
    have answered (stamp : Stamp) : commitAdvance floatText s stamp id o.operationId fenceEpoch
        o.outputManifestDigest (some o.outputStepCursor) (some o.outputJournalSeq) =
          .ok (o,s) := by
      refine bind_ok.mpr ⟨⟨⟩,unrefused sessionId _,?_⟩
      refine bind_ok.mpr ⟨⟨⟩,unrefused operation _,?_⟩
      refine bind_ok.mpr ⟨⟨⟩,unrefused digest _,?_⟩
      refine bind_ok.mpr ⟨⟨⟩,unrefused cursor _,?_⟩
      refine bind_ok.mpr ⟨⟨⟩,unrefused covered _,?_⟩
      refine bind_ok.mpr ⟨row,session,?_⟩
      rw [found]
      dsimp only
      rw [committed]
      exact if_pos ⟨rfl,rfl,rfl⟩
    unfold transact serve
    dsimp only
    rw [answered]
    rfl
  · intro aborted fenceEpoch timestamp now
    have refused (stamp : Stamp) : claimAdvance floatText s stamp id o.operationId
        o.inputManifestDigest fenceEpoch = .error (.trainingLineageConflict ("operation " ++ quoted o.operationId ++
          " was aborted; claim a new operation id")) := by
      refine bind_error (unrefused sessionId _) ?_
      refine bind_error (unrefused operation _) ?_
      refine bind_error (unrefused input _) ?_
      refine bind_error session ?_
      rw [found]
      refine bind_error same ?_
      rw [if_neg (by simp [aborted])]
      unfold refuseIf
      rw [if_pos aborted]
      rfl
    unfold transact serve
    dsimp only
    rw [refused]
    rfl
  · intro aborted fenceEpoch timestamp now digest cursor covered valid counted counted'
    have refused (stamp : Stamp) : commitAdvance floatText s stamp id o.operationId fenceEpoch
        digest cursor covered = .error (.trainingLineageConflict ("operation " ++ quoted o.operationId ++
          " was aborted")) := by
      refine bind_error (unrefused sessionId _) ?_
      refine bind_error (unrefused operation _) ?_
      refine bind_error (unrefused valid _) ?_
      refine bind_error (unrefused counted _) ?_
      refine bind_error (unrefused counted' _) ?_
      refine bind_error session ?_
      rw [found]
      dsimp only
      rw [aborted]
    unfold transact serve
    dsimp only
    rw [refused]
    rfl

def Request.fenceEpoch : Request → Option Int
  | .createSession _ _ _ _ _ _ => none
  | .acquireFence _ => none
  | .claimAdvance _ _ _ fenceEpoch => fenceEpoch
  | .setRecoveryCheckpoint _ _ fenceEpoch _ => fenceEpoch
  | .pauseAdvance _ _ fenceEpoch _ => fenceEpoch
  | .commitAdvance _ _ fenceEpoch _ _ _ => fenceEpoch
  | .abortAdvance _ _ fenceEpoch _ => fenceEpoch
  | .completeSession _ fenceEpoch => fenceEpoch

/-- The committed head. -/
def SessionRow.head (row : SessionRow) : String × Int × Int :=
  (row.committedManifestDigest,row.committedStepCursor,row.committedJournalSeq)

/-- The action carries the current fence epoch of the session. -/
def Action.Fenced (id : String) (row : SessionRow) (a : Action) : Prop :=
  ∃ c, a = .call c ∧ c.request.sessionId = id ∧ c.request.fenceEpoch = some row.fenceEpoch

theorem change_fenced (changed : Change floatText id v a v') (found : v.session = some row) :
    (v'.operations = v.operations ∧ v'.session.map SessionRow.head = some row.head) ∨
      a.Fenced id row := by
  cases changed with
  | same => exact .inl ⟨rfl,congrArg _ found⟩
  | longer more => exact .inl ⟨rfl,congrArg _ found⟩
  | @move c v' mine checked moved =>
    by_cases fenced : c.request.fenceEpoch = some row.fenceEpoch
    · exact .inr ⟨c,rfl,mine,fenced⟩
    left
    generalize c.request = q at moved fenced
    cases moved with
    | created fresh logged =>
      rw [found] at fresh
      cases fresh
    | fenced found' active logged =>
      obtain rfl := Option.some.inj (found.symm.trans found')
      exact ⟨rfl,rfl⟩
    | started found' active fresh idle logged =>
      exact absurd (congrArg (Option.map SessionRow.fenceEpoch) (found'.symm.trans found)) fenced
    | continued found' active inside running held paused logged =>
      exact absurd (congrArg (Option.map SessionRow.fenceEpoch) (found'.symm.trans found)) fenced
    | takenOver found' active inside running older logged =>
      exact absurd (congrArg (Option.map SessionRow.fenceEpoch) (found'.symm.trans found)) fenced
    | recovered found' active inside running held logged =>
      exact absurd (congrArg (Option.map SessionRow.fenceEpoch) (found'.symm.trans found)) fenced
    | paused found' active inside running held logged =>
      exact absurd (congrArg (Option.map SessionRow.fenceEpoch) (found'.symm.trans found)) fenced
    | committed found' active inside running held forward lower upper fresh published logged =>
      exact absurd (congrArg (Option.map SessionRow.fenceEpoch) (found'.symm.trans found)) fenced
    | aborted found' inside running logged =>
      exact absurd (congrArg (Option.map SessionRow.fenceEpoch) (found'.symm.trans found)) fenced
    | completed found' active idle logged =>
      exact absurd (congrArg (Option.map SessionRow.fenceEpoch) (found'.symm.trans found)) fenced

theorem change_unborn (changed : Change floatText id v a v') (missing : v.session = none) :
    v'.operations = v.operations := by
  cases changed with
  | same => rfl
  | longer more => rfl
  | @move c v' mine checked moved =>
    generalize c.request = q at moved
    cases moved with
    | created fresh logged => rfl
    | fenced found active logged => rfl
    | started found active fresh idle logged => simp [missing] at found
    | continued found active inside running held paused logged => simp [missing] at found
    | takenOver found active inside running older logged => simp [missing] at found
    | recovered found active inside running held logged => simp [missing] at found
    | paused found active inside running held logged => simp [missing] at found
    | committed found active inside running held forward lower upper fresh published logged =>
      simp [missing] at found
    | aborted found inside running logged => simp [missing] at found
    | completed found active idle logged => rfl

theorem step_fenced (taken : step floatText s a = some s')
    (changes : (s'.view id).operations ≠ (s.view id).operations ∨
      ∃ row, s.sessionRow id = some row ∧
        (s'.sessionRow id).map SessionRow.head ≠ some row.head) :
    ∃ row, s.sessionRow id = some row ∧ a.Fenced id row := by
  have changed := (step_changes taken).1 id
  cases found : s.sessionRow id with
  | none =>
    obtain operations | ⟨row,recorded,_⟩ := changes
    · exact absurd (change_unborn changed found) operations
    · rw [found] at recorded
      cases recorded
  | some row =>
    obtain ⟨operations,head⟩ | fenced := change_fenced changed found
    · obtain operations' | ⟨row',recorded,head'⟩ := changes
      · exact absurd operations operations'
      · obtain rfl := Option.some.inj (found.symm.trans recorded)
        exact absurd head head'
    · exact ⟨row,rfl,fenced⟩

private theorem operationRow_update {f : OperationRow → OperationRow}
    (keeps : ∀ o, (f o).sessionId = o.sessionId ∧ (f o).operationId = o.operationId) :
    (s.updateOperation id operationId f).operationRow id operationId =
      (s.operationRow id operationId).map f := by
  unfold Ledger.updateOperation Ledger.operationRow
  rw [List.find?_map]
  have same : ((fun row : OperationRow => decide (row.sessionId = id ∧
      row.operationId = operationId)) ∘ fun row =>
        if row.sessionId = id ∧ row.operationId = operationId then f row else row) =
      fun row => decide (row.sessionId = id ∧ row.operationId = operationId) := by
    funext row
    simp only [Function.comp_apply]
    split
    · rw [(keeps row).1,(keeps row).2]
    · rfl
  rw [same]
  cases found : s.operations.find? fun row =>
      decide (row.sessionId = id ∧ row.operationId = operationId) with
  | none => rfl
  | some row =>
    have both : row.sessionId = id ∧ row.operationId = operationId :=
      of_decide_eq_true (List.find?_some (p := fun row : OperationRow =>
        decide (row.sessionId = id ∧ row.operationId = operationId)) found)
    simp only [Option.map_some,if_pos both]

private theorem reread {written : Ledger}
    (read : written.rereadOperation id operationId = .ok o) :
    written.operationRow id operationId = some o := by
  unfold Ledger.rereadOperation at read
  split at read
  · rename_i found
    rw [found,Except.ok.inj read]
  · cases read

/-- An answered claim of a started operation: the operation runs under the current fence, and it was
not running under it before. -/
structure Handed (s s' : Ledger) (id operationId : String) (o : OperationRow) (row : SessionRow) :
    Prop where
  session : s.sessionRow id = some row
  kept : s'.sessionRow id = some row
  recorded : s'.operationRow id operationId = some o
  held : o.fenceEpoch = row.fenceEpoch
  running : o.paused = false
  before : ∀ e, s.operationRow id operationId = some e → e.status = .started ∧
    (e.fenceEpoch = row.fenceEpoch → e.paused = true)

variable {stamp : Stamp} {fenceEpoch : Option Int} {digest : String}

private theorem handed_update {e : TrainingJournalEvent} {r : JournalRecord} {logged : Ledger}
    {existing : OperationRow} {f : OperationRow → OperationRow}
    (session : s.sessionRow id = some row) (found : s.operationRow id operationId = some existing)
    (appended : appendEvent floatText s e = .ok (r,logged))
    (durable : isDurableTrainingEvent e.name = true)
    (read : (logged.updateOperation id operationId f).rereadOperation id operationId = .ok o)
    (keeps : ∀ o, (f o).sessionId = o.sessionId ∧ (f o).operationId = o.operationId)
    (held : (f existing).fenceEpoch = row.fenceEpoch) (running : (f existing).paused = false)
    (started : existing.status = .started)
    (stopped : existing.fenceEpoch = row.fenceEpoch → existing.paused = true) :
    Handed s (logged.updateOperation id operationId f) id operationId o row := by
  obtain ⟨_,_,_,kept,_⟩ := appendEvent_spec appended durable
  have recorded := reread read
  have same : (logged.updateOperation id operationId f).operationRow id operationId =
      some (f existing) := by
    rw [operationRow_update keeps,kept]
    exact congrArg (Option.map f) found
  obtain rfl := Option.some.inj (recorded.symm.trans same)
  refine ⟨session,?_,recorded,held,running,?_⟩
  · rw [kept]
    exact session
  · intro e here
    obtain rfl := Option.some.inj (found.symm.trans here)
    exact ⟨started,stopped⟩

theorem claim_handed (done : claimAdvance floatText s stamp id operationId digest fenceEpoch =
    .ok (o,s')) (started : o.status = .started) : ∃ row, Handed s s' id operationId o row := by
  unfold claimAdvance at done
  obtain ⟨_,_,done⟩ := bind_ok.mp done
  obtain ⟨_,_,done⟩ := bind_ok.mp done
  obtain ⟨_,_,done⟩ := bind_ok.mp done
  obtain ⟨session,required,done⟩ := bind_ok.mp done
  obtain ⟨found,owned⟩ := requireSession_ok required
  refine ⟨session,?_⟩
  split at done
  · rename_i existing recorded
    obtain ⟨_,mine,named⟩ := operationRow_some recorded
    unfold reclaimAdvance at done
    obtain ⟨_,_,done⟩ := bind_ok.mp done
    split at done
    · rename_i committed
      obtain ⟨same,_⟩ := Prod.mk.inj (Except.ok.inj done)
      rw [← same,committed] at started
      cases started
    · rename_i uncommitted
      obtain ⟨_,unaborted,done⟩ := bind_ok.mp done
      obtain ⟨_,_,done⟩ := bind_ok.mp done
      obtain ⟨epoch,fence,done⟩ := bind_ok.mp done
      obtain ⟨_,current⟩ := checkFence_ok fence
      have running : existing.status = .started := by
        cases status : existing.status with
        | started => rfl
        | committed => exact absurd status uncommitted
        | aborted => exact absurd status (refuseIf_ok.mp unaborted)
      subst mine named current
      split at done
      · rename_i held
        obtain ⟨_,resting,done⟩ := bind_ok.mp done
        obtain ⟨⟨r,logged⟩,appended,done⟩ := bind_ok.mp done
        obtain ⟨reply,read,done⟩ := bind_ok.mp done
        obtain ⟨rfl,rfl⟩ := Prod.mk.inj (Except.ok.inj done)
        have paused : existing.paused = true := by simpa using refuseIf_ok.mp resting
        exact handed_update found recorded appended rfl read (fun _ => ⟨rfl,rfl⟩) held rfl running
          fun _ => paused
      · rename_i older
        obtain ⟨⟨r,logged⟩,appended,done⟩ := bind_ok.mp done
        obtain ⟨reply,read,done⟩ := bind_ok.mp done
        obtain ⟨rfl,rfl⟩ := Prod.mk.inj (Except.ok.inj done)
        exact handed_update found recorded appended rfl read (fun _ => ⟨rfl,rfl⟩) rfl rfl running
          fun held => absurd held older
  · rename_i missing
    unfold startAdvance at done
    obtain ⟨_,_,done⟩ := bind_ok.mp done
    obtain ⟨epoch,fence,done⟩ := bind_ok.mp done
    obtain ⟨_,current⟩ := checkFence_ok fence
    subst owned current
    split at done
    · cases done
    obtain ⟨_,_,done⟩ := bind_ok.mp done
    obtain ⟨⟨r,logged⟩,appended,done⟩ := bind_ok.mp done
    obtain ⟨inserted,operation,done⟩ := bind_ok.mp done
    obtain ⟨reply,read,done⟩ := bind_ok.mp done
    obtain ⟨rfl,rfl⟩ := Prod.mk.inj (Except.ok.inj done)
    obtain ⟨_,_,_,kept,_⟩ := appendEvent_spec appended rfl
    have recorded := reread read
    unfold Ledger.insertOperation at operation
    split at operation
    · cases operation
    obtain rfl := Except.ok.inj operation
    have last : ({ logged with operations := logged.operations ++ [⟨session.sessionId,operationId,
        digest,.started,session.fenceEpoch,"","",0,0,r.timestamp,none,false⟩] } :
          Ledger).operationRow session.sessionId operationId =
            some ⟨session.sessionId,operationId,digest,.started,session.fenceEpoch,"","",0,0,
              r.timestamp,none,false⟩ := by
      rw [kept]
      unfold Ledger.operationRow at missing ⊢
      rw [List.find?_append,missing]
      simp
    obtain rfl := Option.some.inj (recorded.symm.trans last)
    refine ⟨found,?_,recorded,rfl,rfl,?_⟩
    · rw [kept]
      exact found
    · intro e here
      rw [missing] at here
      cases here

def Occupied (epoch : Int) (operationId : String) (v : View) : Prop :=
  ∃ row, v.session = some row ∧ epoch ≤ row.fenceEpoch ∧
    ∃ o ∈ v.operations, o.operationId = operationId ∧
      (row.fenceEpoch = epoch → o.status = .started → o.fenceEpoch = epoch ∧ o.paused = false)

/-- A successful pause of the operation. -/
def Action.Pauses (floatText : ℚ → Json.FloatText) (id operationId : String) (s : Ledger)
    (a : Action) : Prop :=
  ∃ c fenceEpoch reason reply, a = .call c ∧
    c.request = .pauseAdvance id operationId fenceEpoch reason ∧
      (transact floatText s c).1 = .ok reply

variable {epoch : Int}

private theorem occupied_session {row' : SessionRow} (occupied : Occupied epoch operationId v)
    (found : v.session = some row) (same : row'.fenceEpoch = row.fenceEpoch) :
    Occupied epoch operationId { v with session := some row' } := by
  obtain ⟨row₀,found₀,older,o,member,named,runs⟩ := occupied
  obtain rfl := Option.some.inj (found.symm.trans found₀)
  rw [← same] at older runs
  exact ⟨row',rfl,older,o,member,named,runs⟩

private theorem occupied_update {touched : String} {f : OperationRow → OperationRow}
    (occupied : Occupied epoch operationId v) (keeps : ∀ o, (f o).operationId = o.operationId)
    (runs : ∀ row, v.session = some row → row.fenceEpoch = epoch → touched = operationId →
      ∀ o, (o.status = .started → o.fenceEpoch = epoch ∧ o.paused = false) →
        (f o).status = .started → (f o).fenceEpoch = epoch ∧ (f o).paused = false) :
    Occupied epoch operationId (v.update touched f) := by
  obtain ⟨row,found,older,o,member,named,before⟩ := occupied
  refine ⟨row,found,older,_,View.mem_update.mpr ⟨o,member,rfl⟩,?_,?_⟩
  · split
    · exact (keeps o).trans named
    · exact named
  · intro current started
    split at started
    · rename_i here
      rw [if_pos here]
      exact runs row found current (here.symm.trans named) o (before current) started
    · rename_i other
      rw [if_neg other]
      exact before current started

theorem move_occupied (occupied : Occupied epoch operationId v) (moved : Move floatText id v q v')
    (unpaused : ∀ fenceEpoch reason, q ≠ .pauseAdvance id operationId fenceEpoch reason) :
    Occupied epoch operationId v' := by
  cases moved with
  | created fresh logged =>
    obtain ⟨row,found,_⟩ := occupied
    rw [found] at fresh
    cases fresh
  | @fenced stamp r row found active logged =>
    obtain ⟨row₀,found₀,older,o,member,named,_⟩ := occupied
    obtain rfl := Option.some.inj (found.symm.trans found₀)
    refine ⟨_,rfl,older.trans (by dsimp only; omega),o,member,named,?_⟩
    intro current
    dsimp only at current
    omega
  | started found active fresh idle logged =>
    obtain ⟨row₀,found₀,older,o,member,rest⟩ := occupied
    exact ⟨row₀,found₀,older,o,List.mem_append_left _ member,rest⟩
  | continued found active inside running held paused logged =>
    refine occupied_update (v := v.log _) occupied (fun _ => by rfl) ?_
    intro _ _ _ _ o before started
    exact ⟨(before started).1,rfl⟩
  | takenOver found active inside running older logged =>
    refine occupied_update (v := v.log _) occupied (fun _ => by rfl) ?_
    intro row₀ found₀ current _ o _ _
    obtain rfl := Option.some.inj (found.symm.trans found₀)
    exact ⟨current,rfl⟩
  | recovered found active inside running held logged =>
    refine occupied_update (v := v.log _) occupied (fun _ => by rfl) ?_
    intro _ _ _ _ o before started
    exact before started
  | paused found active inside running held logged =>
    refine occupied_update (v := v.log _) occupied (fun _ => by rfl) ?_
    intro _ _ _ here
    subst here
    exact absurd rfl (unpaused _ _)
  | committed found active inside running held forward lower upper fresh published logged =>
    refine occupied_session (occupied_update (v := (v.log _).log _) occupied (fun _ => by rfl) ?_)
      found rfl
    exact fun _ _ _ _ _ _ => nofun
  | aborted found inside running logged =>
    refine occupied_update (v := v.log _) occupied (fun _ => by rfl) ?_
    exact fun _ _ _ _ _ _ => nofun
  | completed found active idle logged => exact occupied_session (v := v.log _) occupied found rfl

theorem step_occupied (occupied : Occupied epoch operationId (s.view id))
    (unpaused : ¬ a.Pauses floatText id operationId s) (taken : step floatText s a = some s') :
    Occupied epoch operationId (s'.view id) := by
  have changed := (step_changes taken).1 id
  generalize before : s.view id = v at occupied changed
  generalize after : s'.view id = v' at changed ⊢
  cases changed with
  | same => exact occupied
  | longer more => exact occupied
  | @move c v' mine checked moved =>
    have written : (transact floatText s c).2 = s' := Option.some.inj taken
    cases served : serve floatText s c with
    | error raised =>
      unfold transact at written
      rw [served] at written
      dsimp only at written
      subst written
      rw [← after,before]
      exact occupied
    | ok answer =>
      apply move_occupied occupied moved
      intro fenceEpoch reason asked
      refine unpaused ⟨c,fenceEpoch,reason,answer.1,rfl,asked,?_⟩
      unfold transact
      rw [served]

theorem claims_apart {o' : OperationRow} {row row' : SessionRow} {s₁ t₁ : Ledger}
    (first : Handed s s₁ id operationId o row)
    (between : Reach (step floatText) (fun u a => ¬ a.Pauses floatText id operationId u) s₁ t)
    (second : Handed t t₁ id operationId o' row') (lineage : Lineage (t.view id)) :
    row.fenceEpoch < row'.fenceEpoch := by
  obtain ⟨member,_,named⟩ := operationRow_some first.recorded
  have occupied : Occupied row.fenceEpoch operationId (t.view id) := by
    apply between.invariant fun u => Occupied row.fenceEpoch operationId (u.view id)
    · exact ⟨row,first.kept,le_refl _,o,member,named,fun _ _ => ⟨first.held,first.running⟩⟩
    · intro u a u' before unpaused taken
      exact step_occupied before unpaused taken
  obtain ⟨row₀,found,older,e,inside,named',runs⟩ := occupied
  obtain rfl := Option.some.inj (found.symm.trans second.session)
  obtain ⟨started,stopped⟩ := second.before e (lineage.operationRow inside named')
  apply lt_of_le_of_ne older
  intro current
  obtain ⟨held,running⟩ := runs current.symm started
  rw [stopped (held.trans current)] at running
  cases running

end Dinkster.Training
