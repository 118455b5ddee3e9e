import Dinkster.Server.TrainingOutcomes
import Mathlib

/-! Safety of the training ledger over every sequence of requests, and a run in which an operation is
claimed and aborted. -/
namespace Dinkster.Training
open Journal (JournalRecord Stamp Sound)
open Fallible (bind_ok refuseIf refuseIf_ok)
open Transition

variable {floatText : ℚ → Json.FloatText} {s s' : Ledger} {id operationId : String}

/-- The tables of a session agree: one started operation at most and none once completed, and one
chain of checkpoints that ends in the committed head. -/
structure SafeSession (s : Ledger) (id : String) : Prop where
  single : (s.operations.filter fun o => o.sessionId = id ∧ o.status = .started).length ≤ 1
  finished : ∀ row, s.sessionRow id = some row → row.state = .completed →
    ∀ o ∈ s.operations, o.sessionId = id → o.status ≠ .started
  chain : (s.checkpoints.filter (·.sessionId = id)).IsChain Follows
  rooted : ∀ c, (s.checkpoints.filter (·.sessionId = id)).head? = some c → c.parentDigest = ""
  covered : ∀ c ∈ s.checkpoints, c.sessionId = id →
    c.journalSeq ≤ s.journal.latestSeq (trainingSessionStream id)
  head : ∀ row, s.sessionRow id = some row →
    ∃ c, (s.checkpoints.filter (·.sessionId = id)).getLast? = some c ∧ HeadOf row c

theorem lineage_safe (lineage : Lineage (s.view id)) : SafeSession s id where
  single := by
    have alone : (s.operations.filter fun o => o.sessionId = id ∧ o.status = .started).Pairwise
        fun _ _ => False := by
      have same : (s.operations.filter fun o => o.sessionId = id ∧ o.status = .started) =
          (s.view id).operations.filter (·.status = .started) := by
        unfold Ledger.view
        rw [List.filter_filter]
        congr 1
        funext o
        rw [Bool.decide_and,Bool.and_comm]
      rw [same,List.pairwise_filter]
      refine lineage.single.imp ?_
      intro o p alone started started'
      exact alone (of_decide_eq_true started) (of_decide_eq_true started')
    generalize (s.operations.filter fun o => o.sessionId = id ∧ o.status = .started) = rows at alone
    match rows,alone with
    | [],_ => exact Nat.zero_le 1
    | [_],_ => exact le_refl 1
    | _ :: p :: _,alone => exact ((List.pairwise_cons.mp alone).1 p List.mem_cons_self).elim
  finished := by
    intro row found completed o inside mine
    exact lineage.finished row found completed o
      (List.mem_filter.mpr ⟨inside,decide_eq_true mine⟩)
  chain := lineage.chain
  rooted := lineage.rooted
  covered := by
    intro c inside mine
    exact lineage.covered c (List.mem_filter.mpr ⟨inside,decide_eq_true mine⟩)
  head := lineage.head

private theorem transact_claim {c : Call} {o : OperationRow} {digest : String}
    {fenceEpoch : Option Int} (asked : c.request = .claimAdvance id operationId digest fenceEpoch)
    (done : transact floatText s c = (.ok (.operation o),s')) :
    claimAdvance floatText s c.stamp id operationId digest fenceEpoch = .ok (o,s') := by
  unfold transact serve at done
  rw [asked] at done
  dsimp only at done
  cases claimed : claimAdvance floatText s c.stamp id operationId digest fenceEpoch with
  | error raised =>
    rw [claimed] at done
    cases (Prod.mk.inj done).1
  | ok answer =>
    rw [claimed] at done
    obtain ⟨first,rfl⟩ := Prod.mk.inj done
    obtain rfl := Reply.operation.inj (Except.ok.inj first)
    rfl

/-- For every run of requests, telemetry and pruning, and every session. -/
theorem ledger_safe (reached : Reachable (step floatText) {} s) (id : String) :
    SafeSession s id ∧
    (∀ operationId o, s.operationRow id operationId = some o → o.status ≠ .started →
      (∀ t, Reachable (step floatText) s t → t.operationRow id operationId = some o) ∧
        Replays floatText s id o) ∧
    (∀ a s', step floatText s a = some s' →
      ((∃ operationId, s'.operationRow id operationId ≠ s.operationRow id operationId) ∨
        ∃ row, s.sessionRow id = some row ∧
          (s'.sessionRow id).map SessionRow.head ≠ some row.head) →
      ∃ row, s.sessionRow id = some row ∧ a.Fenced id row) ∧
    ∀ operationId digest digest' fenceEpoch fenceEpoch' c c' o o' s₁ t t₁,
      c.request = .claimAdvance id operationId digest fenceEpoch →
      transact floatText s c = (.ok (.operation o),s₁) → o.status = .started →
      Reach (step floatText) (fun u a => ¬ a.Pauses floatText id operationId u) s₁ t →
      c'.request = .claimAdvance id operationId digest' fenceEpoch' →
      transact floatText t c' = (.ok (.operation o'),t₁) → o'.status = .started →
      ∃ row row', s₁.sessionRow id = some row ∧ t.sessionRow id = some row' ∧
        row.fenceEpoch < row'.fenceEpoch := by
  have lineage := reachable_lineage reached id
  refine ⟨lineage_safe lineage,?_,?_,?_⟩
  · intro operationId o found settled
    exact ⟨fun t later => settled_forever lineage found settled later,
      settled_replays lineage (reachable_admitted reached id) found⟩
  · intro a s' taken changes
    apply step_fenced taken
    apply changes.imp_left
    rintro ⟨operationId,changed⟩ same
    rw [operationRow_view,operationRow_view,same] at changed
    exact changed rfl
  · intro operationId digest digest' fenceEpoch fenceEpoch' c c' o o' s₁ t t₁ asked first started
      between asked' second started'
    obtain ⟨row,handed⟩ := claim_handed (transact_claim asked first) started
    obtain ⟨row',handed'⟩ := claim_handed (transact_claim asked' second) started'
    have taken : step floatText s (.call c) = some s₁ := by
      unfold step
      dsimp only
      rw [first]
    have later : Reachable (step floatText) {} t := (Reach.step reached trivial taken).trans
      (between.mono fun _ _ _ => trivial)
    exact ⟨row,row',handed.kept,handed'.session,
      claims_apart handed between handed' (reachable_lineage later id)⟩

private theorem canonical_small {members : Json.Object} {maxBytes : Nat} {description : String}
    (clean : Journal.requireMembersClean description members = .ok ())
    (small : (Json.text .compact (.obj members)).length ≤ maxBytes) :
    Journal.canonicalJsonPayload (.obj members) maxBytes description = .ok (.obj members) := by
  refine bind_ok.mpr ⟨(),clean,?_⟩
  unfold Json.dumps
  rw [String.length_ofList,if_neg (not_lt.mpr small)]

theorem appendEvent_accepts {e : TrainingJournalEvent} {t : ℚ} (sound : Sound s.journal)
    (checked : e.postInit = .ok t) (past : 0 ≤ t)
    (stream : Journal.blank (trainingSessionStream e.sessionId) = false)
    (name : Journal.blank (pyStr e.name.value) = false)
    (clean : Journal.requireMembersClean "payload" (e.toWire floatText t) = .ok ())
    (small : (Json.text .compact (.obj (e.toWire floatText t))).length ≤
      Journal.maxJournalPayloadBytes)
    (storable : Journal.encodable (trainingSessionStream e.sessionId) = true)
    (named : Journal.encodable (pyStr e.name.value) = true) :
    ∃ r j, appendEvent floatText s e = .ok (r,{ s with journal := j }) ∧ Sound j := by
  generalize made : Journal.Entry.mk (trainingSessionStream e.sessionId) (pyStr e.name.value)
      (.obj (e.toWire floatText t)) (some (isDurableTrainingEvent e.name)) (some (.finite t))
        t = entry
  have passed : entry.check = .ok (t,isDurableTrainingEvent e.name,.obj (e.toWire floatText t)) := by
    subst made
    unfold Journal.Entry.check
    simp only [stream,name,canonical_small clean small,Option.getD_some,not_lt.mpr past,if_false,
      Bool.false_eq_true]
  have free (row : JournalRecord) (inside : row ∈ s.journal.journal)
      (mine : row.streamId = entry.streamId) :
      row.seq ≠ (s.journal.bumpSeq entry.streamId).latestSeq entry.streamId := by
    have bounded := (sound.counted row inside).2
    rw [mine] at bounded
    rw [Journal.latestSeq_bumpSeq,if_pos rfl]
    omega
  have bound : Journal.encodable entry.streamId = true := by rw [← made]; exact storable
  have fits : Journal.encodable entry.name = true := by rw [← made]; exact named
  have appended : ∃ r, s.journal.append entry = (.ok r,(s.journal.append entry).2) := by
    unfold Journal.Store.append
    rw [passed]
    simp only [bound,if_true]
    rw [Journal.insertRow_ok.mpr ⟨fits,free,rfl⟩]
    exact ⟨_,rfl⟩
  obtain ⟨r,appended⟩ := appended
  have storing : entry.unstorable = false := by
    unfold Journal.Entry.unstorable
    simp [fits]
  have kept : Sound (s.journal.answer (.append entry)).2 := Journal.answer_sound sound storing
  refine ⟨r,_,?_,kept⟩
  refine bind_ok.mpr ⟨t,checked,?_⟩
  rw [made,appended]
  rfl

theorem zero_numeric : ∀ c ∈ ['.','0'], Json.isNumberChar c := by
  simp [Json.isNumberChar,Char.isDigit]

theorem zero_marked : ∃ c ∈ ['0','.','0'], c.isDigit = false ∧ c ≠ '-' :=
  ⟨'.',by simp,by simp [Char.isDigit]⟩

def zeroText : ℚ → Json.FloatText := fun _ =>
  ⟨'0',['.','0'],by simp [Char.isDigit],zero_numeric,zero_marked⟩

def soleSession : String := "00000000000000000000000000000001"

def soleOperation : String := "00000000000000000000000000000002"

def soleDigest : String := "blake3:0000000000000000000000000000000000000000000000000000000000000000"

def soleRow (t : ℚ) (n : Nat) : SessionRow :=
  ⟨soleSession,"s","p",t,1,soleDigest,soleDigest,soleDigest,0,n,.active⟩

def soleClaimed (t : ℚ) : OperationRow :=
  ⟨soleSession,soleOperation,soleDigest,.started,1,"","",0,0,t,none,false⟩

def soleAborted (t u : ℚ) : OperationRow :=
  { soleClaimed t with
    status := .aborted
    resolvedAt := some u }

/-- One session is created, and its operation is claimed and aborted. -/
def abortedRun : List Action :=
  [.call ⟨.createSession soleSession "s" "p" soleDigest soleDigest soleDigest,none,0⟩,
    .call ⟨.claimAdvance soleSession soleOperation soleDigest (some 1),none,0⟩,
    .call ⟨.abortAdvance soleSession soleOperation (some 1) "",none,0⟩]

set_option maxRecDepth 4096

private theorem sole_valid : isTrainingSessionId soleSession = true ∧
    isTrainingSessionId soleOperation = true ∧ isTrainingCheckpointDigest soleDigest = true := by
  decide +kernel

private theorem sole_stream : Journal.blank (trainingSessionStream soleSession) = false ∧
    Journal.encodable (trainingSessionStream soleSession) = true := by
  decide +kernel

private theorem transact_created {scope principalId config snapshot initial : String} {now : ℚ}
    {row : SessionRow}
    (done : createSession floatText s (.finite now) id scope principalId config snapshot initial =
      .ok (row,s')) : transact floatText s
        ⟨.createSession id scope principalId config snapshot initial,none,now⟩ =
      (.ok (.session row),s') := by
  unfold transact serve
  dsimp only [Call.stamp,Option.getD_none]
  rw [done]
  rfl

private theorem transact_claimed {digest : String} {fenceEpoch : Option Int} {now : ℚ}
    {o : OperationRow}
    (done : claimAdvance floatText s (.finite now) id operationId digest fenceEpoch = .ok (o,s')) :
    transact floatText s ⟨.claimAdvance id operationId digest fenceEpoch,none,now⟩ =
      (.ok (.operation o),s') := by
  unfold transact serve
  dsimp only [Call.stamp,Option.getD_none]
  rw [done]
  rfl

private theorem transact_aborted {reason : String} {fenceEpoch : Option Int} {now : ℚ}
    {o : OperationRow}
    (done : abortAdvance floatText s (.finite now) id operationId fenceEpoch reason = .ok (o,s')) :
    transact floatText s ⟨.abortAdvance id operationId fenceEpoch reason,none,now⟩ =
      (.ok (.operation o),s') := by
  unfold transact serve
  dsimp only [Call.stamp,Option.getD_none]
  rw [done]
  rfl

private theorem sole_recorded (name : TrainingEventName) (operationId : String) (data : Json.Object)
    (sound : Sound s.journal) (event : isOpaqueRef operationId = true ∧
      ¬ (name ∈ advanceScopedEvents ∧ operationId = "") ∧ name ≠ .phaseChanged)
    (names : Journal.blank (pyStr name.value) = false ∧ Journal.encodable (pyStr name.value) = true)
    (clean : Journal.requireMembersClean "TrainingJournalEvent.data" data = .ok ())
    (small : (Json.text .compact (.obj data)).length ≤ maxTrainingEventDataBytes)
    (wired : Journal.requireMembersClean "payload"
      ((eventOf soleSession name (.finite 0) operationId 1 data).toWire zeroText 0) = .ok ())
    (fits : (Json.text .compact (.obj ((eventOf soleSession name (.finite 0) operationId 1
      data).toWire zeroText 0))).length ≤ Journal.maxJournalPayloadBytes) :
    ∃ r j, appendEvent zeroText s (eventOf soleSession name (.finite 0) operationId 1 data) =
      .ok (r,{ s with journal := j }) ∧ Sound j := by
  obtain ⟨session,_,_⟩ := sole_valid
  obtain ⟨spaced,encoded⟩ := sole_stream
  refine appendEvent_accepts sound ?_ (le_refl 0) spaced names.1 wired fits encoded names.2
  refine bind_ok.mpr ⟨⟨⟩,unrefused session _,?_⟩
  refine bind_ok.mpr ⟨0,rfl,?_⟩
  refine bind_ok.mpr ⟨⟨⟩,unrefused event.1 _,?_⟩
  refine bind_ok.mpr ⟨⟨⟩,refuseIf_ok.mpr event.2.1,?_⟩
  refine bind_ok.mpr ⟨⟨⟩,unrefused rfl _,?_⟩
  refine bind_ok.mpr ⟨⟨⟩,refuseIf_ok.mpr fun both => event.2.2 both.1,?_⟩
  refine bind_ok.mpr ⟨⟨⟩,refuseIf_ok.mpr (lt_irrefl 1),?_⟩
  refine bind_ok.mpr ⟨⟨⟩,refuseIf_ok.mpr (lt_irrefl 1),?_⟩
  dsimp only [eventOf]
  rw [canonical_small clean small]

private theorem sole_created : ∃ t n j,
    transact zeroText {}
        ⟨.createSession soleSession "s" "p" soleDigest soleDigest soleDigest,none,0⟩ =
      (.ok (.session (soleRow t n)),{
        journal := j
        sessions := [soleRow t n]
        checkpoints := [⟨soleSession,soleDigest,"",0,n,"",t⟩] }) ∧ Sound j := by
  obtain ⟨session,_,digest⟩ := sole_valid
  obtain ⟨r,j,recorded,sound⟩ := sole_recorded (s := {}) .sessionCreated ""
    [("scope",.str "s"),("principalId",.str "p"),("configDigest",.str soleDigest),
      ("sessionExtensionSnapshotDigest",.str soleDigest),("initialManifestDigest",.str soleDigest)]
    Sound.empty (by decide +kernel) (by decide +kernel) rfl (by decide +kernel) rfl
    (by decide +kernel)
  refine ⟨r.timestamp,r.seq,j,transact_created ?_,sound⟩
  have missing : ({} : Ledger).sessionRow soleSession = none := rfl
  refine bind_ok.mpr ⟨⟨⟩,unrefused session _,?_⟩
  refine bind_ok.mpr ⟨⟨⟩,refuseIf_ok.mpr (by decide +kernel),?_⟩
  refine bind_ok.mpr ⟨⟨⟩,refuseIf_ok.mpr (by decide +kernel),?_⟩
  refine bind_ok.mpr ⟨⟨⟩,unrefused digest _,?_⟩
  refine bind_ok.mpr ⟨⟨⟩,unrefused digest _,?_⟩
  refine bind_ok.mpr ⟨⟨⟩,unrefused digest _,?_⟩
  rw [missing]
  dsimp only
  refine bind_ok.mpr ⟨_,recorded,?_⟩
  dsimp only
  refine bind_ok.mpr ⟨_,rfl,?_⟩
  refine bind_ok.mpr ⟨_,rfl,?_⟩
  rfl

private theorem sole_claimed {row : SessionRow} (sound : Sound s.journal)
    (found : s.requireSession soleSession = .ok row) (mine : row.sessionId = soleSession)
    (active : row.state = .active) (epoch : row.fenceEpoch = 1)
    (head : row.committedManifestDigest = soleDigest) (empty : s.operations = []) :
    ∃ t j, transact zeroText s
        ⟨.claimAdvance soleSession soleOperation soleDigest (some 1),none,0⟩ =
      (.ok (.operation (soleClaimed t)),{ s with journal := j, operations := [soleClaimed t] }) ∧
        Sound j := by
  obtain ⟨session,operation,digest⟩ := sole_valid
  obtain ⟨r,j,recorded,kept⟩ := sole_recorded (s := s) .advanceStarted soleOperation
    [("inputManifestDigest",.str soleDigest)] sound
    (by decide +kernel) (by decide +kernel) rfl (by decide +kernel) rfl (by decide +kernel)
  refine ⟨r.timestamp,j,transact_claimed ?_,kept⟩
  refine bind_ok.mpr ⟨⟨⟩,unrefused session _,?_⟩
  refine bind_ok.mpr ⟨⟨⟩,unrefused operation _,?_⟩
  refine bind_ok.mpr ⟨⟨⟩,unrefused digest _,?_⟩
  refine bind_ok.mpr ⟨row,found,?_⟩
  have missing : s.operationRow soleSession soleOperation = none := by
    unfold Ledger.operationRow
    rw [empty]
    rfl
  have idle : s.startedOperation soleSession = none := by
    unfold Ledger.startedOperation
    rw [empty]
    rfl
  have current : checkFence row (some 1) = .ok 1 := by
    unfold checkFence
    rw [epoch]
    rfl
  rw [missing]
  unfold startAdvance
  dsimp only
  rw [mine,idle,head]
  refine bind_ok.mpr ⟨⟨⟩,refuseIf_ok.mpr (not_not.mpr active),?_⟩
  refine bind_ok.mpr ⟨1,current,?_⟩
  refine bind_ok.mpr ⟨⟨⟩,refuseIf_ok.mpr (not_not.mpr rfl),?_⟩
  refine bind_ok.mpr ⟨_,recorded,?_⟩
  have inserted : Ledger.insertOperation { s with journal := j } (soleClaimed r.timestamp) =
      .ok { s with journal := j, operations := [soleClaimed r.timestamp] } := by
    unfold Ledger.insertOperation
    rw [empty]
    rfl
  refine bind_ok.mpr ⟨_,inserted,?_⟩
  refine bind_ok.mpr ⟨soleClaimed r.timestamp,?_,rfl⟩
  unfold Ledger.rereadOperation Ledger.operationRow
  simp [soleClaimed]

private theorem sole_aborted {row : SessionRow} {t : ℚ} (sound : Sound s.journal)
    (found : s.requireSession soleSession = .ok row) (epoch : row.fenceEpoch = 1)
    (sole : s.operations = [soleClaimed t]) :
    ∃ u j, transact zeroText s
        ⟨.abortAdvance soleSession soleOperation (some 1) "",none,0⟩ =
      (.ok (.operation (soleAborted t u)),
        { s with journal := j, operations := [soleAborted t u] }) := by
  obtain ⟨session,operation,digest⟩ := sole_valid
  obtain ⟨r,j,recorded,kept⟩ := sole_recorded (s := s) .advanceAborted soleOperation [] sound
    (by decide +kernel) (by decide +kernel) rfl (by decide +kernel) rfl (by decide +kernel)
  refine ⟨r.timestamp,j,transact_aborted ?_⟩
  refine bind_ok.mpr ⟨⟨⟩,unrefused session _,?_⟩
  refine bind_ok.mpr ⟨⟨⟩,unrefused operation _,?_⟩
  refine bind_ok.mpr ⟨row,found,?_⟩
  have recordedRow : s.operationRow soleSession soleOperation = some (soleClaimed t) := by
    unfold Ledger.operationRow
    rw [sole]
    simp [soleClaimed]
  have current : checkFence row (some 1) = .ok 1 := by
    unfold checkFence
    rw [epoch]
    rfl
  rw [recordedRow]
  dsimp only
  rw [show (soleClaimed t).status = .started from rfl]
  dsimp only
  refine bind_ok.mpr ⟨1,current,?_⟩
  refine bind_ok.mpr ⟨_,recorded,?_⟩
  have updated : Ledger.updateOperation { s with journal := j } soleSession soleOperation (fun o =>
      { o with status := .aborted, paused := false, resolvedAt := some r.timestamp }) =
      { s with journal := j, operations := [soleAborted t r.timestamp] } := by
    unfold Ledger.updateOperation
    rw [sole]
    simp [soleClaimed,soleAborted]
  dsimp only
  rw [updated]
  refine bind_ok.mpr ⟨_,?_,rfl⟩
  unfold Ledger.rereadOperation Ledger.operationRow
  simp [soleAborted,soleClaimed]

private theorem offer_call {c : Call} {answer : Except Raised Reply} {rest : List Action}
    (done : transact floatText s c = (answer,s')) :
    offer (step floatText) s (.call c :: rest) = offer (step floatText) s' rest := by
  unfold offer
  rw [List.foldl_cons]
  unfold step
  dsimp only
  rw [done]
  rfl

private theorem abortedRun_aborts : ∃ o,
    (offer (step zeroText) {} abortedRun).operationRow soleSession soleOperation = some o ∧
      o.status = .aborted ∧ o.operationId = soleOperation := by
  obtain ⟨t,n,j,created,sound⟩ := sole_created
  generalize second : ({
    journal := j
    sessions := [soleRow t n]
    checkpoints := [⟨soleSession,soleDigest,"",0,n,"",t⟩] } : Ledger) = s at created
  have found : s.requireSession soleSession = .ok (soleRow t n) := by
    rw [← second]
    simp [Ledger.requireSession,Ledger.sessionRow,soleRow]
  rw [← show s.journal = j by rw [← second]] at sound
  obtain ⟨t',j',claimed,sound'⟩ := sole_claimed sound found rfl rfl rfl rfl (by rw [← second])
  obtain ⟨u,j'',aborted⟩ := sole_aborted (s := { s with
    journal := j'
    operations := [soleClaimed t'] }) sound' found rfl rfl
  refine ⟨soleAborted t' u,?_,rfl,rfl⟩
  unfold abortedRun
  rw [offer_call created,offer_call claimed,offer_call aborted]
  unfold Ledger.operationRow
  simp [soleAborted,soleClaimed]

theorem abortedRun_safe : SafeSession (offer (step zeroText) {} abortedRun) soleSession :=
  (ledger_safe (reachable_offer abortedRun) soleSession).1

/-- The replay of the aborted claim raises. -/
theorem abortedRun_claim_refused : ¬ ∀ s, Reachable (step zeroText) {} s → ∀ o,
    s.operationRow soleSession soleOperation = some o → o.status ≠ .started →
      ∀ fenceEpoch timestamp now, (transact zeroText s ⟨.claimAdvance soleSession soleOperation
        o.inputManifestDigest fenceEpoch,timestamp,now⟩).1 = .ok (.operation o) := by
  intro claim
  have reached : Reachable (step zeroText) {} (offer (step zeroText) {} abortedRun) :=
    reachable_offer abortedRun
  obtain ⟨o,found,aborted,named⟩ := abortedRun_aborts
  have replays : Replays zeroText _ soleSession o :=
    settled_replays (reachable_lineage reached soleSession) (reachable_admitted reached soleSession)
      found
  have returned := claim _ reached o found (by simp [aborted]) (some 1) none 0
  have refused := congrArg Prod.fst (replays.abortedClaim aborted (some 1) none 0)
  rw [named] at refused
  rw [refused] at returned
  cases returned

end Dinkster.Training
