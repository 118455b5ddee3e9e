import Dinkster.Server.RunRetention

/-! Every interleaving of events, flushes and restarts. Only ended runs expire; and while no
batch commits with an event of a run that retention has dropped, every ended run is marked
finished and no stream is without its row. -/
namespace Dinkster.ExecutionJournal
open Journal (PyStr Store Entry Raised encodable)
open Transition

def lastNote (notes : List Note) (runId : PyStr) : Option Note :=
  (notes.filter fun note => note.runId = runId).getLast?

/-- Whatever expired had ended and was not started again since. -/
def EndedFirst (notes : List Note) : Prop :=
  ∀ before runId after, notes = before ++ .expired runId :: after →
    lastNote before runId = some (.ended runId)

theorem lastNote_concat (notes : List Note) (note : Note) (runId : PyStr) :
    lastNote (notes ++ [note]) runId =
      if note.runId = runId then some note else lastNote notes runId := by
  unfold lastNote
  rw [List.filter_append]
  by_cases same : note.runId = runId <;> simp [same]

theorem ended_of_lastNote {notes : List Note} {runId : PyStr}
    (last : lastNote notes runId = some (.ended runId)) : .ended runId ∈ notes :=
  (List.mem_filter.mp (List.mem_of_getLast? last)).1

theorem EndedFirst.concat {notes : List Note} {note : Note} (ordered : EndedFirst notes)
    (ended : ∀ runId, note = .expired runId → lastNote notes runId = some (.ended runId)) :
    EndedFirst (notes ++ [note]) := by
  intro before runId after split
  rcases List.eq_nil_or_concat after with rfl | ⟨shorter,last,rfl⟩
  · obtain ⟨rfl,single⟩ := List.append_inj' split rfl
    exact ended runId (List.head_eq_of_cons_eq single)
  · have whole : notes ++ [note] = (before ++ .expired runId :: shorter) ++ [last] := by
      simpa using split
    exact ordered before runId shorter (List.append_inj' whole rfl).1

theorem EndedFirst.ended {notes : List Note} {runId : PyStr} (ordered : EndedFirst notes)
    (expired : .expired runId ∈ notes) : .ended runId ∈ notes := by
  obtain ⟨before,after,rfl⟩ := List.append_of_mem expired
  have last := ended_of_lastNote (ordered before runId after rfl)
  exact List.mem_append_left _ last

structure Traced (t : Tables) : Prop where
  ordered : EndedFirst t.notes
  finished : ∀ runId row, t.index.get? runId = some row → row.finished ≠ none →
    lastNote t.notes runId = some (.ended runId)
  text : ∀ runId row, t.index.get? runId = some row → encodable runId = true

theorem Traced.recorded {stream : PyStr} {touched : Prop} {t u : Tables} (traced : Traced t)
    (recorded : Recorded stream touched t u) : Traced u := by
  obtain ⟨ordered,finished,text⟩ := traced
  refine ⟨?_,?_,?_⟩
  · rwa [recorded.notes]
  · rwa [recorded.notes,recorded.index]
  · rwa [recorded.index]

theorem Traced.register {t u : Tables} {a : Append} (traced : Traced t)
    (done : t.register a = .ok u) : Traced u := by
  obtain ⟨text,_,⟨_,rfl⟩ | ⟨missing,index,notes⟩⟩ := register_ok done
  · exact traced
  · refine ⟨?_,?_,?_⟩
    · rw [notes]
      apply traced.ordered.concat
      intro runId different
      cases different
    · intro runId row found ended
      rw [index,Dict.get?_set] at found
      rw [notes,lastNote_concat]
      split at found
      · obtain rfl := Option.some.inj found
        exact absurd rfl ended
      · rename_i other
        rw [if_neg (fun same => other same.symm)]
        exact traced.finished runId row found ended
    · intro runId row found
      rw [index,Dict.get?_set] at found
      split at found
      · rename_i same
        exact same ▸ text
      · exact traced.text runId row found

theorem Traced.markFinished {t : Tables} (traced : Traced t) (runId : PyStr) (timestamp : ℚ) :
    Traced (t.markFinished runId timestamp) := by
  have notes : (t.markFinished runId timestamp).notes = t.notes ++ [.ended runId] := rfl
  refine ⟨?_,?_,?_⟩
  · rw [notes]
    apply traced.ordered.concat
    intro other different
    cases different
  · intro other row found ended
    rw [get?_markFinished] at found
    rw [notes,lastNote_concat]
    split at found
    · rename_i same
      rw [same]
      exact if_pos rfl
    · rename_i differs
      rw [if_neg (fun same => differs same.symm)]
      exact traced.finished other row found ended
  · intro other row found
    rw [get?_markFinished] at found
    split at found
    · obtain ⟨before,there,_⟩ := Option.map_eq_some_iff.mp found
      exact traced.text other before there
    · exact traced.text other row found

private theorem expired_notes {gone : List PyStr} (distinct : gone.Nodup) (notes : List Note)
    (ordered : EndedFirst notes)
    (ended : ∀ runId ∈ gone, lastNote notes runId = some (.ended runId)) :
    EndedFirst (notes ++ gone.map .expired) ∧ ∀ runId ∉ gone,
      lastNote (notes ++ gone.map .expired) runId = lastNote notes runId := by
  induction gone generalizing notes with
  | nil => simpa using ordered
  | cons first gone ih =>
    obtain ⟨fresh,distinct⟩ := List.nodup_cons.mp distinct
    have step : EndedFirst (notes ++ [.expired first]) := by
      apply ordered.concat
      intro runId same
      obtain rfl := Note.expired.inj same
      exact ended first List.mem_cons_self
    have unchanged (runId : PyStr) (other : runId ≠ first) :
        lastNote (notes ++ [.expired first]) runId = lastNote notes runId := by
      rw [lastNote_concat]
      exact if_neg other.symm
    have rest := ih distinct (notes ++ [.expired first]) step (by
      intro runId inside
      have other : runId ≠ first := fun same => fresh (same ▸ inside)
      rw [unchanged runId other]
      exact ended runId (List.mem_cons_of_mem _ inside))
    rw [List.append_assoc] at rest
    constructor
    · exact rest.1
    · intro runId outside
      obtain ⟨other,outside⟩ := not_or.mp (mt List.mem_cons.mpr outside)
      exact (rest.2 runId outside).trans (unchanged runId other)

theorem Traced.expired {t u : Tables} {r : Retention} {now : ℚ} (traced : Traced t)
    (dropped : Dropped (t.expiredRuns r now) t u) : Traced u := by
  have ended : ∀ runId ∈ t.expiredRuns r now, lastNote t.notes runId = some (.ended runId) := by
    intro runId picked
    obtain ⟨row,time,found,finished⟩ := finished_of_expired picked
    exact traced.finished runId row found (by simp [finished])
  have notes := expired_notes (List.nodup_dedup _) t.notes traced.ordered ended
  refine ⟨?_,?_,?_⟩
  · rw [dropped.notes]
    exact notes.1
  · intro runId row found finished
    rw [dropped.index] at found
    split at found
    · cases found
    · rename_i stays
      rw [dropped.notes]
      exact (notes.2 runId stays).trans (traced.finished runId row found finished)
  · intro runId row found
    rw [dropped.index] at found
    split at found
    · cases found
    · exact traced.text runId row found

theorem Traced.land {r : Retention} {b c : Landing} {item : Item} (traced : Traced b.tables)
    (done : b.land r item = .ok c) : Traced c.tables := by
  cases item with
  | append a =>
    rcases land_append done with ⟨_,_,recorded⟩ | ⟨_,_,t,inserted,recorded⟩
    · exact traced.recorded recorded
    · exact (traced.register inserted).recorded recorded
  | finalize f =>
    obtain ⟨_,t,recorded,dropped⟩ := land_finalize done
    exact ((traced.recorded recorded).markFinished _ _).expired dropped

theorem Traced.write {r : Retention} {t : Tables} {batch : List Item} {b : Landing}
    (traced : Traced t) (done : write r t batch = .ok b) : Traced b.tables := by
  have each : ∀ item ∈ batch, ∀ b c : Landing, Traced b.tables → b.land r item = .ok c →
      Traced c.tables := fun _ _ _ _ before landed => before.land landed
  exact Fallible.foldlM_keeps each traced done

private theorem ended_notes (left : List PyStr) (notes : List Note) (ordered : EndedFirst notes) :
    EndedFirst (notes ++ left.map .ended) ∧ ∀ runId,
      lastNote (notes ++ left.map .ended) runId =
        if runId ∈ left then some (.ended runId) else lastNote notes runId := by
  induction left generalizing notes with
  | nil => simpa using ordered
  | cons first left ih =>
    have step : EndedFirst (notes ++ [.ended first]) := by
      apply ordered.concat
      intro runId different
      cases different
    have rest := ih (notes ++ [.ended first]) step
    rw [List.append_assoc] at rest
    constructor
    · exact rest.1
    · intro runId
      refine (rest.2 runId).trans ?_
      rw [lastNote_concat]
      by_cases same : first = runId
      · subst same
        simp [Note.runId]
      · simp [Note.runId,same,Ne.symm same]

def Tables.abandoned (t : Tables) : List PyStr :=
  (t.index.entries.filter fun (_,row) => row.finished.isNone).map (·.1)

theorem abandon_notes (t : Tables) : t.abandon.notes = t.notes ++ t.abandoned.map .ended := by
  unfold Tables.abandon Tables.abandoned
  rw [List.map_map]
  rfl

theorem mem_abandoned {t : Tables} {runId : PyStr} : runId ∈ t.abandoned ↔
    ∃ row, t.index.get? runId = some row ∧ row.finished = none := by
  simp [Tables.abandoned,Dict.get?_eq_some_iff]

theorem abandon_row {t : Tables} {runId : PyStr} {row : RunRow}
    (found : t.abandon.index.get? runId = some row) :
    row.finished ≠ none ∧ ∃ before, t.index.get? runId = some before ∧
      (before.finished = none ∨ before.finished = row.finished) := by
  unfold Tables.abandon at found
  dsimp only at found
  rw [Dict.get?_mapWithKey] at found
  obtain ⟨before,there,rfl⟩ := Option.map_eq_some_iff.mp found
  refine ⟨by simp,before,there,?_⟩
  cases before.finished <;> simp

theorem Traced.abandon {t : Tables} (traced : Traced t) : Traced t.abandon := by
  have notes := ended_notes t.abandoned t.notes traced.ordered
  rw [← abandon_notes] at notes
  refine ⟨notes.1,?_,?_⟩
  · intro runId row found ended
    obtain ⟨_,before,there,unfinished | same⟩ := abandon_row found
    · rw [notes.2,if_pos (mem_abandoned.mpr ⟨before,there,unfinished⟩)]
    · rw [notes.2]
      split
      · rfl
      · exact traced.finished runId before there (same ▸ ended)
  · intro runId row found
    obtain ⟨_,before,there,_⟩ := abandon_row found
    exact traced.text runId before there

/-- In the middle of a batch: `rest` is what has not landed yet. -/
structure Underway (b : Landing) (rest : List Item) : Prop where
  marked : ∀ runId row, .ended runId ∈ b.tables.notes → b.tables.index.get? runId = some row →
    row.finished = none → ∃ f, .finalize f ∈ rest ∧ f.runId = runId
  known : ∀ runId, .ended runId ∈ b.tables.notes →
    (∃ row, b.tables.index.get? runId = some row) ∨ .expired runId ∈ b.tables.notes
  indexed : ∀ runId, Holds b.tables.store (executionRunStream runId) →
    ∃ row, b.tables.index.get? runId = some row
  registered : ∀ runId ∈ b.registered,
    (∃ row, b.tables.index.get? runId = some row) ∨ .expired runId ∈ b.tables.notes

def Paired (batch : List Item) : Prop :=
  ∀ before f rest, batch = before ++ .finalize f :: rest →
    ∃ a, .append a ∈ before ∧ a.runId = f.runId

variable {r : Retention} {b c : Landing} {item : Item} {rest : List Item}

theorem Underway.recorded {runId : PyStr} {touched : Prop} {t : Tables}
    (underway : Underway b rest) (recorded : Recorded (executionRunStream runId) touched b.tables t)
    (row : touched → ∃ row, b.tables.index.get? runId = some row) :
    Underway ⟨b.registered,t⟩ rest := by
  obtain ⟨marked,known,indexed,registered⟩ := underway
  refine ⟨?_,?_,?_,?_⟩
  · rwa [recorded.notes,recorded.index]
  · rwa [recorded.notes,recorded.index]
  · intro other held
    dsimp only at held ⊢
    rw [recorded.index]
    rcases recorded.holds _ held with old | ⟨same,wrote⟩
    · exact indexed other old
    · exact stream_injective same ▸ row wrote
  · rwa [recorded.notes,recorded.index]

theorem Underway.expired {now : ℚ} {t : Tables} (underway : Underway b rest)
    (dropped : Dropped (b.tables.expiredRuns r now) b.tables t) :
    Underway ⟨b.registered,t⟩ rest := by
  have noted (runId : PyStr) (before : (∃ row, b.tables.index.get? runId = some row) ∨
      .expired runId ∈ b.tables.notes) :
      (∃ row, t.index.get? runId = some row) ∨ .expired runId ∈ t.notes := by
    rw [dropped.index,dropped.notes]
    by_cases picked : runId ∈ b.tables.expiredRuns r now
    · right
      exact List.mem_append_right _ (List.mem_map.mpr ⟨runId,picked,rfl⟩)
    · rw [if_neg picked]
      exact before.imp_right (List.mem_append_left _)
  have ended (runId : PyStr) (noted : .ended runId ∈ t.notes) :
      .ended runId ∈ b.tables.notes := by
    rw [dropped.notes] at noted
    simpa using noted
  refine ⟨?_,?_,?_,?_⟩
  · intro runId row mark found
    dsimp only at mark found
    rw [dropped.index] at found
    split at found
    · cases found
    · exact underway.marked runId row (ended runId mark) found
  · exact fun runId mark => noted runId (underway.known runId (ended runId mark))
  · intro runId held
    obtain ⟨before,others⟩ := dropped.holds _ held
    dsimp only
    rw [dropped.index,if_neg (fun picked => others runId picked rfl)]
    exact underway.indexed runId before
  · exact fun runId inside => noted runId (underway.registered runId inside)

theorem Underway.register {a : Append} {t : Tables} (underway : Underway b rest)
    (done : b.tables.register a = .ok t)
    (allowed : ¬ (b.tables.Gone a.runId ∧
      ∀ f, .finalize f ∈ rest → f.runId ≠ a.runId)) :
    Underway ⟨a.runId :: b.registered,t⟩ rest ∧ ∃ row, t.index.get? a.runId = some row := by
  obtain ⟨_,store,⟨row,rfl⟩ | ⟨missing,index,notes⟩⟩ := register_ok done
  · obtain ⟨marked,known,indexed,registered⟩ := underway
    refine ⟨⟨marked,known,indexed,?_⟩,row⟩
    intro runId inside
    rcases List.mem_cons.mp inside with rfl | inside
    · exact .inl row
    · exact registered runId inside
  · have found : t.index.get? a.runId = some ⟨a.scope,a.timestamp,none⟩ := by simp [index]
    have rows (runId : PyStr) (before : ∃ row, b.tables.index.get? runId = some row) :
        ∃ row, t.index.get? runId = some row := by
      rw [index,Dict.get?_set]
      split
      · exact ⟨_,rfl⟩
      · exact before
    have noted (runId : PyStr) (before : (∃ row, b.tables.index.get? runId = some row) ∨
        .expired runId ∈ b.tables.notes) :
        (∃ row, t.index.get? runId = some row) ∨ .expired runId ∈ t.notes := by
      rw [notes]
      exact before.imp (rows runId) (List.mem_append_left _)
    have ended (runId : PyStr) (noted : .ended runId ∈ t.notes) :
        .ended runId ∈ b.tables.notes := by
      rw [notes] at noted
      simpa using noted
    refine ⟨⟨?_,?_,?_,?_⟩,_,found⟩
    · intro runId row mark there unfinished
      dsimp only at mark there
      rw [index,Dict.get?_set] at there
      split at there
      · rename_i same
        subst same
        have gone : b.tables.Gone a.runId := by
          rcases underway.known a.runId (ended a.runId mark) with ⟨row,there⟩ | expired
          · rw [missing] at there
            cases there
          · exact ⟨expired,missing⟩
        by_contra unmarked
        apply allowed
        exact ⟨gone,fun f inside same => unmarked ⟨f,inside,same⟩⟩
      · exact underway.marked runId row (ended runId mark) there unfinished
    · exact fun runId mark => noted runId (underway.known runId (ended runId mark))
    · intro runId held
      dsimp only at held
      rw [store] at held
      exact rows runId (underway.indexed runId held)
    · intro runId inside
      rcases List.mem_cons.mp inside with rfl | inside
      · exact .inl ⟨_,found⟩
      · exact noted runId (underway.registered runId inside)

theorem Underway.markFinished {f : Finalize} (underway : Underway b (.finalize f :: rest))
    (known : (∃ row, b.tables.index.get? f.runId = some row) ∨
      .expired f.runId ∈ b.tables.notes) :
    Underway ⟨b.registered,b.tables.markFinished f.runId f.timestamp⟩ rest := by
  have notes : (b.tables.markFinished f.runId f.timestamp).notes =
    b.tables.notes ++ [.ended f.runId] := rfl
  have rows (runId : PyStr) (before : ∃ row, b.tables.index.get? runId = some row) :
      ∃ row, (b.tables.markFinished f.runId f.timestamp).index.get? runId = some row := by
    obtain ⟨row,found⟩ := before
    rw [get?_markFinished,found]
    split <;> simp
  have noted (runId : PyStr) (before : (∃ row, b.tables.index.get? runId = some row) ∨
      .expired runId ∈ b.tables.notes) :
      (∃ row, (b.tables.markFinished f.runId f.timestamp).index.get? runId = some row) ∨
        .expired runId ∈ (b.tables.markFinished f.runId f.timestamp).notes := by
    rw [notes]
    exact before.imp (rows runId) (List.mem_append_left _)
  refine ⟨?_,?_,?_,?_⟩
  · intro runId row mark found unfinished
    dsimp only at mark found
    rw [get?_markFinished] at found
    split at found
    · obtain ⟨before,_,rfl⟩ := Option.map_eq_some_iff.mp found
      cases unfinished
    · rename_i other
      rw [notes] at mark
      have before : .ended runId ∈ b.tables.notes := by simpa [other] using mark
      obtain ⟨g,inside,same⟩ := underway.marked runId row before found unfinished
      rcases List.mem_cons.mp inside with first | inside
      · obtain rfl := Item.finalize.inj first
        exact absurd same.symm other
      · exact ⟨g,inside,same⟩
  · intro runId mark
    dsimp only at mark
    rw [notes] at mark
    rcases List.mem_append.mp mark with before | last
    · exact noted runId (underway.known runId before)
    · obtain rfl := Note.ended.inj (List.mem_singleton.mp last)
      exact noted f.runId known
  · exact fun runId held => rows runId (underway.indexed runId held)
  · exact fun runId inside => noted runId (underway.registered runId inside)

theorem Underway.land (underway : Underway b (item :: rest)) (punctual : ¬ b.Late item rest)
    (paired : ∀ f, item = .finalize f → f.runId ∈ b.registered)
    (done : b.land r item = .ok c) : Underway c rest := by
  obtain ⟨registered,tables⟩ := c
  cases item with
  | append a =>
    have skipped : Underway b rest := by
      refine ⟨?_,underway.known,underway.indexed,underway.registered⟩
      intro runId row mark found unfinished
      obtain ⟨f,inside,same⟩ := underway.marked runId row mark found unfinished
      rcases List.mem_cons.mp inside with different | inside
      · cases different
      · exact ⟨f,inside,same⟩
    rcases land_append done with ⟨known,same,recorded⟩ | ⟨fresh,same,t,inserted,recorded⟩
    · obtain rfl : registered = b.registered := same
      refine skipped.recorded recorded fun wrote => ?_
      by_contra missing
      apply punctual
      have gone := (underway.registered a.runId known).resolve_left missing
      exact ⟨⟨gone,Option.eq_none_iff_forall_not_mem.mpr fun row found => missing ⟨row,found⟩⟩,
        .inr wrote,.inl known⟩
    · obtain rfl : registered = a.runId :: b.registered := same
      have inserted := skipped.register inserted (by
        rintro ⟨gone,last⟩
        exact punctual ⟨gone,.inl fresh,.inr last⟩)
      exact inserted.1.recorded recorded fun _ => inserted.2
  | finalize f =>
    obtain ⟨same,t,recorded,dropped⟩ := land_finalize done
    obtain rfl : registered = b.registered := same
    have inside := paired f rfl
    have known := underway.registered f.runId inside
    have kept : Underway ⟨b.registered,t⟩ (.finalize f :: rest) := by
      refine underway.recorded recorded fun wrote => ?_
      by_contra missing
      apply punctual
      have gone := known.resolve_left missing
      exact ⟨⟨gone,Option.eq_none_iff_forall_not_mem.mpr fun row found => missing ⟨row,found⟩⟩,
        wrote,.inl inside⟩
    have ended := kept.markFinished (f := f) (by
      rw [recorded.index,recorded.notes]
      exact known)
    exact ended.expired dropped

end Dinkster.ExecutionJournal
