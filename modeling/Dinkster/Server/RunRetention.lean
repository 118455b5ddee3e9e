import Dinkster.Lib.Fallible
import Dinkster.Server.ExecutionJournal

/-! What one batch leaves behind: rows, streams and notes after each statement. A batch without
late items keeps every stream indexed and every ended run marked, a late item breaks it. -/
namespace Dinkster.ExecutionJournal
open Journal (PyStr Store Entry Raised encodable)

def HasCounter (s : Store) (stream : PyStr) : Prop := ∃ row, s.streams.get? stream = some row

/-- Something is left of the stream. -/
def Holds (s : Store) (stream : PyStr) : Prop :=
  (∃ record ∈ s.journal, record.streamId = stream) ∨ HasCounter s stream

theorem stream_injective {runId other : PyStr}
    (same : executionRunStream runId = executionRunStream other) : runId = other :=
  List.append_cancel_left same

theorem encodable_stream {runId : PyStr} (text : encodable runId = true) :
    encodable (executionRunStream runId) = true := by
  have fixed : encodable executionRunStreamPrefix = true := by decide +kernel
  unfold encodable at fixed text ⊢
  unfold executionRunStream
  rw [List.all_append,fixed,text]
  rfl

/-- The tables after statements that write at most records of one stream; `touched` tells
whether one of them did. -/
structure Recorded (stream : PyStr) (touched : Prop) (t u : Tables) : Prop where
  index : u.index = t.index
  notes : u.notes = t.notes
  holds : ∀ other, Holds u.store other → Holds t.store other ∨ (other = stream ∧ touched)
  counters : ∀ other, HasCounter t.store other → HasCounter u.store other
  counted : touched → encodable stream = true → HasCounter u.store stream

theorem Recorded.trans {stream : PyStr} {first second : Prop} {t u v : Tables}
    (before : Recorded stream first t u) (after : Recorded stream second u v) :
    Recorded stream (first ∨ second) t v where
  index := after.index.trans before.index
  notes := after.notes.trans before.notes
  holds := by
    intro other held
    rcases after.holds other held with earlier | ⟨same,wrote⟩
    · rcases before.holds other earlier with old | ⟨same,wrote⟩
      · exact .inl old
      · exact .inr ⟨same,.inl wrote⟩
    · exact .inr ⟨same,.inr wrote⟩
  counters := fun other has => after.counters other (before.counters other has)
  counted := by
    intro wrote text
    rcases wrote with wrote | wrote
    · exact after.counters stream (before.counted wrote text)
    · exact after.counted wrote text

theorem Recorded.congr {stream : PyStr} {first second : Prop} {t u : Tables}
    (recorded : Recorded stream first t u) (same : first ↔ second) :
    Recorded stream second t u := by
  rwa [← propext same]

private theorem hasCounter_set {s : Store} {stream other : PyStr} (row : Journal.StreamRow) :
    HasCounter { s with streams := s.streams.set stream row } other ↔
      other = stream ∨ HasCounter s other := by
  unfold HasCounter
  dsimp only
  rw [Dict.get?_set]
  split <;> simp_all

private theorem holds_insert {s : Store} {record : Journal.JournalRecord} {other : PyStr} :
    Holds { s with journal := s.journal ++ [record] } other ↔
      Holds s other ∨ other = record.streamId := by
  unfold Holds HasCounter
  dsimp only
  constructor
  · rintro (⟨found,inside,mine⟩ | counter)
    · rcases List.mem_append.mp inside with old | new
      · exact .inl (.inl ⟨found,old,mine⟩)
      · rw [List.mem_singleton.mp new] at mine
        exact .inr mine.symm
    · exact .inl (.inr counter)
  · rintro ((⟨found,old,mine⟩ | counter) | mine)
    · exact .inl ⟨found,List.mem_append_left _ old,mine⟩
    · exact .inr counter
    · exact .inl ⟨record,by simp,mine.symm⟩

private theorem holds_bumpSeq {s : Store} {stream other : PyStr} :
    Holds (s.bumpSeq stream) other ↔ other = stream ∨ Holds s other := by
  unfold Store.bumpSeq Holds
  rw [hasCounter_set]
  exact or_left_comm

private theorem insertRow_ok {s u : Store} {record : Journal.JournalRecord}
    (done : s.insertRow record = .ok u) : u = { s with journal := s.journal ++ [record] } := by
  unfold Store.insertRow at done
  split at done
  · split at done
    · cases done
    · exact (Except.ok.inj done).symm
  · cases done

private theorem append_store (s : Store) (e : Entry) :
    (∀ other, Holds (s.append e).2 other →
      Holds s other ∨ (other = e.streamId ∧ ∃ checked, e.check = .ok checked)) ∧
    (∀ other, HasCounter s other → HasCounter (s.append e).2 other) ∧
    ((∃ checked, e.check = .ok checked) → encodable e.streamId = true →
      HasCounter (s.append e).2 e.streamId) := by
  unfold Store.append
  cases checked : e.check with
  | error raised => simp +contextual
  | ok parts =>
    obtain ⟨writtenAt,durable,payload⟩ := parts
    by_cases text : encodable e.streamId = true
    · have bumped (other : PyStr) : HasCounter (s.bumpSeq e.streamId) other ↔
          other = e.streamId ∨ HasCounter s other := hasCounter_set _
      simp only [text,if_true]
      split
      · refine ⟨fun other held => ?_,fun other has => (bumped other).mpr (.inr has),
          fun _ _ => (bumped _).mpr (.inl rfl)⟩
        rcases holds_bumpSeq.mp held with mine | old
        · exact .inr ⟨mine,_,rfl⟩
        · exact .inl old
      · rename_i written inserted
        obtain rfl := insertRow_ok inserted
        refine ⟨fun other held => ?_,fun other has => (bumped other).mpr (.inr has),
          fun _ _ => (bumped _).mpr (.inl rfl)⟩
        rcases holds_insert.mp held with earlier | mine
        · rcases holds_bumpSeq.mp earlier with mine | old
          · exact .inr ⟨mine,_,rfl⟩
          · exact .inl old
        · exact .inr ⟨mine,_,rfl⟩
    · simp +contextual [text]

theorem append_recorded {t u : Tables} {e : Entry} (done : t.append e = .ok u) :
    Recorded e.streamId (∃ checked, e.check = .ok checked) t u := by
  have stored := append_store t.store e
  have same : u = { t with store := (t.store.append e).2 } := by
    unfold Tables.append at done
    split at done
    · rename_i appended
      rw [appended]
      exact (Except.ok.inj done).symm
    · rename_i appended
      rw [appended]
      split at done
      · exact (Except.ok.inj done).symm
      · cases done
  rw [same]
  exact ⟨rfl,rfl,stored.1,stored.2.1,stored.2.2⟩

theorem appends_recorded {stream : PyStr} {entry : Json.Value → Entry}
    (streams : ∀ keeper, (entry keeper).streamId = stream) {keepers : List Json.Value}
    {t v : Tables} (done : keepers.foldlM (fun t keeper => t.append (entry keeper)) t = .ok v) :
    Recorded stream (∃ keeper ∈ keepers, ∃ checked, (entry keeper).check = .ok checked) t v := by
  induction keepers generalizing t with
  | nil =>
    obtain rfl : t = v := Except.ok.inj done
    exact ⟨rfl,rfl,fun _ => .inl,fun _ => id,by simp⟩
  | cons keeper keepers ih =>
    rw [List.foldlM_cons] at done
    obtain ⟨u,first,rest⟩ := Fallible.bind_ok.mp done
    have start := append_recorded first
    rw [streams keeper] at start
    exact (start.trans (ih rest)).congr (by simp)

theorem prune_recorded {t u : Tables} {stream : PyStr} (done : t.prune stream = .ok u) :
    Recorded stream False t u := by
  unfold Tables.prune Store.pruneCoalescible at done
  split at done
  · rename_i pruned
    obtain rfl := Except.ok.inj done
    split at pruned
    · cases pruned
    · split at pruned
      · obtain ⟨_,rfl⟩ := Prod.mk.inj pruned
        have journal (other : PyStr) (stays : Journal.JournalRecord → Bool)
            (held : ∃ record ∈ t.store.journal.filter stays, record.streamId = other) :
            ∃ record ∈ t.store.journal, record.streamId = other := by
          obtain ⟨record,inside,mine⟩ := held
          exact ⟨record,(List.mem_filter.mp inside).1,mine⟩
        refine ⟨rfl,rfl,?_,?_,by simp⟩
        · intro other held
          left
          split at held
          · rename_i below
            rcases held with record | counter
            · exact .inl (journal other _ record)
            · rcases (hasCounter_set _).mp counter with rfl | old
              · -- a mark above zero needs a counted append
                right
                unfold HasCounter
                cases found : t.store.streams.get? other with
                | some row => exact ⟨row,rfl⟩
                | none => simp [Store.latestSeq,Store.coalescedBelow,found] at below
              · exact .inr old
          · rcases held with record | counter
            · exact .inl (journal other _ record)
            · exact .inr counter
        · intro other has
          split
          · exact (hasCounter_set _).mpr (.inr has)
          · exact has
      · cases pruned
  · cases done

private theorem deleteStream_store {s u : Store} {stream : PyStr} {n : Nat}
    (done : s.deleteStream stream = (.ok n,u)) :
    (∀ other, Holds u other → other ≠ stream ∧ Holds s other) ∧
      ∀ other, other ≠ stream → HasCounter s other → HasCounter u other := by
  unfold Store.deleteStream at done
  split at done
  · obtain ⟨_,rfl⟩ := Prod.mk.inj done
    constructor
    · rintro other (⟨record,inside,mine⟩ | ⟨row,found⟩)
      · have parts := List.mem_filter.mp inside
        exact ⟨mine ▸ of_decide_eq_true parts.2,.inl ⟨record,parts.1,mine⟩⟩
      · rw [Dict.get?_erase] at found
        split at found
        · cases found
        · exact ⟨‹_›,.inr ⟨row,found⟩⟩
    · rintro other differs ⟨row,found⟩
      exact ⟨row,by rw [Dict.get?_erase,if_neg differs]; exact found⟩
  · cases (Prod.mk.inj done).1

structure Dropped (gone : List PyStr) (t u : Tables) : Prop where
  index : ∀ runId, u.index.get? runId = if runId ∈ gone then none else t.index.get? runId
  notes : u.notes = t.notes ++ gone.map .expired
  holds : ∀ stream, Holds u.store stream →
    Holds t.store stream ∧ ∀ runId ∈ gone, stream ≠ executionRunStream runId
  counters : ∀ stream, (∀ runId ∈ gone, stream ≠ executionRunStream runId) →
    HasCounter t.store stream → HasCounter u.store stream

theorem dropRuns {gone : List PyStr} {t u : Tables} (done : gone.foldlM Tables.dropRun t = .ok u) :
    Dropped gone t u := by
  induction gone generalizing t with
  | nil =>
    obtain rfl : t = u := Except.ok.inj done
    exact ⟨by simp,by simp,by simp,by simp⟩
  | cons runId gone ih =>
    rw [List.foldlM_cons] at done
    obtain ⟨middle,first,rest⟩ := Fallible.bind_ok.mp done
    have later := ih rest
    unfold Tables.dropRun at first
    split at first
    · rename_i removed store deleted
      obtain rfl := Except.ok.inj first
      have streams := deleteStream_store deleted
      constructor
      · intro other
        rw [later.index,Dict.get?_erase]
        by_cases same : other = runId <;> simp [same]
      · rw [later.notes]
        simp
      · intro stream held
        obtain ⟨earlier,others⟩ := later.holds stream held
        obtain ⟨differs,before⟩ := streams.1 stream earlier
        exact ⟨before,by simpa using ⟨differs,others⟩⟩
      · intro stream others has
        have apart : stream ≠ executionRunStream runId ∧
            ∀ other ∈ gone, stream ≠ executionRunStream other := by simpa using others
        exact later.counters stream apart.2 (streams.2 stream apart.1 has)
    · cases first

theorem mem_finishedRuns {t : Tables} {runId : PyStr} {time : ℚ} :
    (runId,time) ∈ t.finishedRuns ↔
      ∃ row, t.index.get? runId = some row ∧ row.finished = some time := by
  unfold Tables.finishedRuns
  rw [List.mem_mergeSort,List.mem_filterMap]
  simp only [Option.map_eq_some_iff,Prod.mk.injEq]
  constructor
  · rintro ⟨⟨other,row⟩,inside,_,finished,rfl,rfl⟩
    exact ⟨row,(Dict.get?_eq_some_iff ..).mpr inside,finished⟩
  · rintro ⟨row,found,finished⟩
    exact ⟨(runId,row),(Dict.get?_eq_some_iff ..).mp found,time,finished,rfl,rfl⟩

theorem finished_of_expired {t : Tables} {r : Retention} {now : ℚ} {runId : PyStr}
    (picked : runId ∈ t.expiredRuns r now) :
    ∃ row time, t.index.get? runId = some row ∧ row.finished = some time := by
  unfold Tables.expiredRuns at picked
  rw [List.mem_dedup,List.mem_append,List.mem_map,List.mem_map] at picked
  have listed : ∃ run ∈ t.finishedRuns, run.1 = runId := by
    rcases picked with ⟨run,inside,same⟩ | ⟨run,inside,same⟩
    · exact ⟨run,(List.mem_filter.mp inside).1,same⟩
    · exact ⟨run,List.mem_of_mem_drop inside,same⟩
  obtain ⟨⟨_,time⟩,inside,rfl⟩ := listed
  obtain ⟨row,found,finished⟩ := mem_finishedRuns.mp inside
  exact ⟨row,time,found,finished⟩

theorem expired_of_finished {t : Tables} {r : Retention} {now time : ℚ} {runId : PyStr}
    {row : RunRow} (found : t.index.get? runId = some row) (finished : row.finished = some time)
    (old : time < r.cutoff now) : runId ∈ t.expiredRuns r now := by
  unfold Tables.expiredRuns
  rw [List.mem_dedup,List.mem_append,List.mem_map]
  left
  exact ⟨(runId,time),List.mem_filter.mpr ⟨mem_finishedRuns.mpr ⟨row,found,finished⟩,by simpa⟩,rfl⟩

theorem register_ok {t u : Tables} {a : Append} (done : t.register a = .ok u) :
    encodable a.runId = true ∧ u.store = t.store ∧
      (((∃ row, t.index.get? a.runId = some row) ∧ u = t) ∨
        (t.index.get? a.runId = none ∧
          u.index = t.index.set a.runId ⟨a.scope,a.timestamp,none⟩ ∧
          u.notes = t.notes ++ [.started a.runId])) := by
  unfold Tables.register at done
  split at done
  · rename_i text
    have text := (Bool.and_eq_true_iff.mp text).1
    split at done
    · rename_i row found
      obtain rfl := Except.ok.inj done
      exact ⟨text,rfl,.inl ⟨⟨row,found⟩,rfl⟩⟩
    · rename_i missing
      obtain rfl := Except.ok.inj done
      exact ⟨text,rfl,.inr ⟨missing,rfl,rfl⟩⟩
  · cases done

theorem get?_markFinished (t : Tables) (runId other : PyStr) (timestamp : ℚ) :
    (t.markFinished runId timestamp).index.get? other =
      if other = runId then
        (t.index.get? other).map fun row => { row with finished := some timestamp }
      else t.index.get? other := by
  unfold Tables.markFinished
  dsimp only
  by_cases same : other = runId
  · subst same
    rw [if_pos rfl]
    cases found : t.index.get? other with
    | none => simpa using found
    | some row => simp
  · rw [if_neg same]
    split
    · exact Dict.get?_set_ne _ _ same
    · rfl

theorem land_append {r : Retention} {b c : Landing} {a : Append}
    (done : b.land r (.append a) = .ok c) :
    (a.runId ∈ b.registered ∧ c.registered = b.registered ∧
      Recorded (executionRunStream a.runId) (∃ checked, a.entry.check = .ok checked)
        b.tables c.tables) ∨
    (a.runId ∉ b.registered ∧ c.registered = a.runId :: b.registered ∧
      ∃ t, b.tables.register a = .ok t ∧
        Recorded (executionRunStream a.runId) (∃ checked, a.entry.check = .ok checked)
          t c.tables) := by
  unfold Landing.land Landing.append at done
  dsimp only at done
  split at done
  · rename_i known
    obtain ⟨u,appended,last⟩ := Fallible.bind_ok.mp done
    obtain rfl := Except.ok.inj last
    exact .inl ⟨known,rfl,append_recorded appended⟩
  · rename_i fresh
    obtain ⟨t,inserted,last⟩ := Fallible.bind_ok.mp done
    obtain ⟨u,appended,last⟩ := Fallible.bind_ok.mp last
    obtain rfl := Except.ok.inj last
    exact .inr ⟨fresh,rfl,t,inserted,append_recorded appended⟩

theorem land_finalize {r : Retention} {b c : Landing} {f : Finalize}
    (done : b.land r (.finalize f) = .ok c) : c.registered = b.registered ∧
      ∃ t, Recorded (executionRunStream f.runId)
          (∃ keeper ∈ f.keepers, ∃ checked, (f.entry keeper).check = .ok checked) b.tables t ∧
        Dropped ((t.markFinished f.runId f.timestamp).expiredRuns r f.timestamp)
          (t.markFinished f.runId f.timestamp) c.tables := by
  unfold Landing.land Landing.finalize at done
  obtain ⟨kept,appended,last⟩ := Fallible.bind_ok.mp done
  obtain ⟨pruned,cut,last⟩ := Fallible.bind_ok.mp last
  obtain ⟨expired,dropped,last⟩ := Fallible.bind_ok.mp last
  obtain rfl := Except.ok.inj last
  have streams (keeper : Json.Value) :
    (f.entry keeper).streamId = executionRunStream f.runId := rfl
  have keepers := appends_recorded streams appended
  exact ⟨rfl,pruned,(keepers.trans (prune_recorded cut)).congr (by simp),dropRuns dropped⟩

end Dinkster.ExecutionJournal
