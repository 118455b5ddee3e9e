import Dinkster.Lib.Transition
import Dinkster.Server.TrainingMoves

/-! The lineage of a session: one started operation at most, on the committed head, and one chain of
committed checkpoints up to that head. Every move keeps it. -/
namespace Dinkster.Training
open Journal (JournalRecord Stamp Sound)
open Fallible (bind_ok refuseIf refuseIf_ok)
open Transition

variable {floatText : ℚ → Json.FloatText} {s s' t : Ledger} {id : String} {v v' : View}
  {q : Request} {a : Action}

/-- `child` continues the lineage after `parent`. -/
structure Follows (parent child : CheckpointRow) : Prop where
  linked : child.parentDigest = parent.manifestDigest
  cursor : parent.stepCursor < child.stepCursor
  covered : parent.journalSeq ≤ child.journalSeq

structure HeadOf (row : SessionRow) (head : CheckpointRow) : Prop where
  digest : row.committedManifestDigest = head.manifestDigest
  cursor : row.committedStepCursor = head.stepCursor
  covered : row.committedJournalSeq = head.journalSeq

structure Lineage (v : View) : Prop where
  unborn : v.session = none → v.checkpoints = [] ∧ v.operations = []
  distinct : v.operations.Pairwise fun o p => o.operationId ≠ p.operationId
  single : v.operations.Pairwise fun o p => o.status = .started → p.status ≠ .started
  based : ∀ row, v.session = some row → ∀ o ∈ v.operations, o.status = .started →
    o.inputManifestDigest = row.committedManifestDigest
  finished : ∀ row, v.session = some row → row.state = .completed →
    ∀ o ∈ v.operations, o.status ≠ .started
  chain : v.checkpoints.IsChain Follows
  fresh : v.checkpoints.Pairwise fun c d => c.manifestDigest ≠ d.manifestDigest
  rooted : ∀ c, v.checkpoints.head? = some c → c.parentDigest = ""
  covered : ∀ c ∈ v.checkpoints, c.journalSeq ≤ v.latest
  head : ∀ row, v.session = some row → ∃ c, v.checkpoints.getLast? = some c ∧ HeadOf row c

/-- What an update of a started operation leaves alone. -/
structure Settles (f : OperationRow → OperationRow) : Prop where
  operationId : ∀ o, (f o).operationId = o.operationId
  input : ∀ o, (f o).inputManifestDigest = o.inputManifestDigest
  status : ∀ o, (f o).status = .started → o.status = .started

theorem View.mem_update {operationId : String} {f : OperationRow → OperationRow} {p : OperationRow} :
    p ∈ (v.update operationId f).operations ↔
      ∃ o ∈ v.operations, (if o.operationId = operationId then f o else o) = p :=
  List.mem_map

private theorem pairwise_update {operationId : String} {f : OperationRow → OperationRow}
    {R : OperationRow → OperationRow → Prop} (rows : v.operations.Pairwise R)
    (keeps : ∀ o p, R o p → R (if o.operationId = operationId then f o else o)
      (if p.operationId = operationId then f p else p)) :
    (v.update operationId f).operations.Pairwise R :=
  List.pairwise_map.mpr (rows.imp fun {o p} related => keeps o p related)

private theorem lineage_update {operationId : String} {f : OperationRow → OperationRow}
    (lineage : Lineage v) (settles : Settles f) : Lineage (v.update operationId f) := by
  have named (o : OperationRow) :
      (if o.operationId = operationId then f o else o).operationId = o.operationId := by
    split
    · exact settles.operationId o
    · rfl
  have running (o : OperationRow)
      (started : (if o.operationId = operationId then f o else o).status = .started) :
      o.status = .started := by
    split at started
    · exact settles.status o started
    · exact started
  constructor
  · intro missing
    obtain ⟨none,empty⟩ := lineage.unborn missing
    exact ⟨none,by simp [View.update,empty]⟩
  · apply pairwise_update lineage.distinct
    intro o p apart same
    rw [named,named] at same
    exact apart same
  · apply pairwise_update lineage.single
    intro o p alone started started'
    exact alone (running o started) (running p started')
  · intro row found p inside started
    obtain ⟨o,member,rfl⟩ := View.mem_update.mp inside
    refine Eq.trans ?_ (lineage.based row found o member (running o started))
    split
    · exact settles.input o
    · rfl
  · intro row found completed p inside started
    obtain ⟨o,member,rfl⟩ := View.mem_update.mp inside
    exact lineage.finished row found completed o member (running o started)
  · exact lineage.chain
  · exact lineage.fresh
  · exact lineage.rooted
  · exact lineage.covered
  · exact lineage.head

theorem lineage_log {r : JournalRecord} (lineage : Lineage v) : Lineage (v.log r) :=
  { lineage with
    covered := fun c inside => (lineage.covered c inside).trans (by simp [View.log]) }

theorem lineage_session {row row' : SessionRow} (lineage : Lineage v) (found : v.session = some row)
    (digest : row'.committedManifestDigest = row.committedManifestDigest)
    (cursor : row'.committedStepCursor = row.committedStepCursor)
    (covered : row'.committedJournalSeq = row.committedJournalSeq)
    (finished : row'.state = .completed → ∀ o ∈ v.operations, o.status ≠ .started) :
    Lineage { v with session := some row' } where
  unborn := nofun
  distinct := lineage.distinct
  single := lineage.single
  based := by
    rintro _ ⟨⟩ o member started
    rw [digest]
    exact lineage.based row found o member started
  finished := by
    rintro _ ⟨⟩ completed
    exact finished completed
  chain := lineage.chain
  fresh := lineage.fresh
  rooted := lineage.rooted
  covered := lineage.covered
  head := by
    rintro _ ⟨⟩
    obtain ⟨c,last,head⟩ := lineage.head row found
    exact ⟨c,last,digest.trans head.digest,cursor.trans head.cursor,covered.trans head.covered⟩

theorem Lineage.unique {o p : OperationRow} (lineage : Lineage v) (left : o ∈ v.operations)
    (right : p ∈ v.operations) (same : o.operationId = p.operationId) : o = p := by
  by_contra different
  have : Std.Symm fun o p : OperationRow => o.operationId ≠ p.operationId :=
    ⟨fun _ _ apart => apart.symm⟩
  exact lineage.distinct.forall left right different same

theorem Lineage.alone {o p : OperationRow} (lineage : Lineage v) (left : o ∈ v.operations)
    (right : p ∈ v.operations) (started : o.status = .started) (started' : p.status = .started) :
    o = p := by
  by_contra different
  have : Std.Symm fun o p : OperationRow => o.status = .started → p.status ≠ .started :=
    ⟨fun _ _ alone other started => alone started other⟩
  exact lineage.single.forall left right different started started'

private theorem lineage_started {row : SessionRow} {o : OperationRow} (lineage : Lineage v)
    (found : v.session = some row) (active : row.state = .active)
    (fresh : ∀ p ∈ v.operations, p.operationId ≠ o.operationId)
    (idle : ∀ p ∈ v.operations, p.status ≠ .started)
    (based : o.inputManifestDigest = row.committedManifestDigest) :
    Lineage { v with operations := v.operations ++ [o] } where
  unborn := by
    intro missing
    rw [found] at missing
    cases missing
  distinct := List.pairwise_append.mpr ⟨lineage.distinct,List.pairwise_singleton _ _,by
    intro p inside q last
    rw [List.mem_singleton.mp last]
    exact fresh p inside⟩
  single := List.pairwise_append.mpr ⟨lineage.single,List.pairwise_singleton _ _,by
    intro p inside _ _ started
    exact absurd started (idle p inside)⟩
  based := by
    intro row' found' p inside started
    obtain rfl := Option.some.inj (found.symm.trans found')
    obtain inside | last := List.mem_append.mp inside
    · exact absurd started (idle p inside)
    · rw [List.mem_singleton.mp last]
      exact based
  finished := by
    intro row' found' completed
    obtain rfl := Option.some.inj (found.symm.trans found')
    rw [active] at completed
    cases completed
  chain := lineage.chain
  fresh := lineage.fresh
  rooted := lineage.rooted
  covered := lineage.covered
  head := lineage.head

private theorem lineage_committed {row : SessionRow} {c : CheckpointRow} (lineage : Lineage v)
    (found : v.session = some row) (idle : ∀ p ∈ v.operations, p.status ≠ .started)
    (parent : c.parentDigest = row.committedManifestDigest)
    (forward : row.committedStepCursor < c.stepCursor)
    (lower : row.committedJournalSeq ≤ c.journalSeq) (upper : c.journalSeq ≤ v.latest)
    (fresh : ∀ d ∈ v.checkpoints, d.manifestDigest ≠ c.manifestDigest) :
    Lineage { v with
      session := some { row with
        committedManifestDigest := c.manifestDigest
        committedStepCursor := c.stepCursor
        committedJournalSeq := c.journalSeq }
      checkpoints := v.checkpoints ++ [c] } := by
  obtain ⟨last,listed,head⟩ := lineage.head row found
  constructor
  · exact nofun
  · exact lineage.distinct
  · exact lineage.single
  · intro _ _ p inside started
    exact absurd started (idle p inside)
  · intro _ _ _ p inside
    exact idle p inside
  · refine List.isChain_append.mpr ⟨lineage.chain,List.isChain_singleton _,?_⟩
    intro d final e first
    rw [listed] at final
    obtain rfl := Option.some.inj final
    obtain rfl := Option.some.inj first
    exact ⟨parent.trans head.digest,head.cursor ▸ forward,head.covered ▸ lower⟩
  · refine List.pairwise_append.mpr ⟨lineage.fresh,List.pairwise_singleton _ _,?_⟩
    intro d inside e final
    rw [List.mem_singleton.mp final]
    exact fresh d inside
  · intro e first
    have nonempty : v.checkpoints ≠ [] := by
      rintro empty
      rw [empty] at listed
      cases listed
    rw [List.head?_append_of_ne_nil _ nonempty] at first
    exact lineage.rooted e first
  · intro e inside
    obtain inside | final := List.mem_append.mp inside
    · exact lineage.covered e inside
    · rw [List.mem_singleton.mp final]
      exact upper
  · rintro _ ⟨⟩
    exact ⟨c,List.getLast?_concat,rfl,rfl,rfl⟩

private theorem settle_idle {o : OperationRow} {f : OperationRow → OperationRow}
    (lineage : Lineage v) (member : o ∈ v.operations) (running : o.status = .started)
    (settled : ∀ p, (f p).status ≠ .started) :
    ∀ p ∈ (v.update o.operationId f).operations, p.status ≠ .started := by
  intro p inside started
  obtain ⟨original,listed,rfl⟩ := View.mem_update.mp inside
  split at started
  · exact settled original started
  · rename_i other
    exact other (congrArg _ (lineage.alone listed member started running))

theorem move_lineage (lineage : Lineage v) (moved : Move floatText id v q v') : Lineage v' := by
  cases moved with
  | @created stamp r scope principalId config snapshot initial fresh logged =>
    obtain ⟨none,empty⟩ := lineage.unborn fresh
    constructor
    · intro absent
      cases absent
    · exact lineage.distinct
    · exact lineage.single
    · intro _ _ o inside
      dsimp only [View.log] at inside
      rw [empty] at inside
      cases inside
    · intro _ _ _ o inside
      dsimp only [View.log] at inside
      rw [empty] at inside
      cases inside
    · simp [none]
    · simp [none]
    · intro c first
      simp only [none,List.nil_append,List.head?_cons,Option.some.injEq] at first
      rw [← first]
    · intro c inside
      simp only [none,List.nil_append,List.mem_singleton] at inside
      rw [inside]
      simp [View.log,logged.seq]
    · rintro _ ⟨⟩
      exact ⟨_,List.getLast?_concat,rfl,rfl,rfl⟩
  | @fenced stamp r row found active logged =>
    refine lineage_session (lineage_log lineage) found ?_ ?_ ?_ ?_
    · rfl
    · rfl
    · rfl
    intro completed
    exact absurd (active.symm.trans completed) (by decide)
  | @started stamp r row operationId found active fresh idle logged =>
    exact lineage_started (lineage_log lineage) found active fresh idle rfl
  | continued found active member running held paused logged =>
    exact lineage_update (lineage_log lineage) ⟨fun _ => rfl,fun _ => rfl,fun _ same => same⟩
  | takenOver found active member running older logged =>
    exact lineage_update (lineage_log lineage) ⟨fun _ => rfl,fun _ => rfl,fun _ same => same⟩
  | recovered found active member running held logged =>
    exact lineage_update (lineage_log lineage) ⟨fun _ => rfl,fun _ => rfl,fun _ same => same⟩
  | paused found active member running held logged =>
    exact lineage_update (lineage_log lineage) ⟨fun _ => rfl,fun _ => rfl,fun _ same => same⟩
  | @committed stamp r r' row o digest cursor covered found active member running held forward
      lower upper fresh published logged =>
    have logged := lineage_log (r := r') (lineage_log (r := r) lineage)
    have updated : Lineage (((v.log r).log r').update o.operationId fun o => { o with
        status := .committed
        paused := false
        outputManifestDigest := digest
        outputStepCursor := cursor
        outputJournalSeq := covered
        resolvedAt := some r.timestamp }) :=
      lineage_update logged ⟨fun _ => rfl,fun _ => rfl,fun _ same => absurd same (by simp)⟩
    refine lineage_committed (c := ⟨id,digest,o.inputManifestDigest,cursor,covered,o.operationId,
      r.timestamp⟩) updated found ?_ (lineage.based row found o member running) forward lower ?_ fresh
    · exact settle_idle logged member running fun _ same => absurd same (by simp)
    · show covered ≤ ((v.latest + 1 + 1 : Nat) : Int)
      omega
  | aborted found member running logged =>
    exact lineage_update (lineage_log lineage) ⟨fun _ => rfl,fun _ => rfl,fun _ same => absurd same (by simp)⟩
  | completed found active idle logged =>
    exact lineage_session (lineage_log lineage) found rfl rfl rfl fun _ => idle

theorem change_lineage (lineage : Lineage v) (changed : Change floatText id v a v') :
    Lineage v' := by
  cases changed with
  | same => exact lineage
  | @longer a latest more =>
    exact { lineage with
      covered := fun c inside => (lineage.covered c inside).trans (Int.ofNat_le.mpr more) }
  | move mine checked moved => exact move_lineage lineage moved

theorem lineage_initial : Lineage (({} : Ledger).view id) where
  unborn := fun _ => ⟨rfl,rfl⟩
  distinct := .nil
  single := .nil
  based _ found := by cases found
  finished _ found := by cases found
  chain := .nil
  fresh := .nil
  rooted _ found := by cases found
  covered := List.forall_mem_nil _
  head _ found := by cases found

theorem reachable_lineage (reached : Reachable (step floatText) {} s) (id : String) :
    Lineage (s.view id) := by
  apply reached.invariant fun s => Lineage (s.view id)
  · exact lineage_initial
  · intro t a u lineage _ taken
    exact change_lineage lineage ((step_changes taken).1 id)

end Dinkster.Training
