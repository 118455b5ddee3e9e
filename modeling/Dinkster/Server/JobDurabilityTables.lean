import Dinkster.Server.JobDurability

/-! What the transactions of a stretch do to the two tables, whichever of them fail, and what the
sweep of the next start does. -/
namespace Dinkster.JobQueue

structure Written (calls : List StoreCall) (s t : HistoryStore) : Prop where
  accepted : ∀ r row, t.accepted.get? r = some row → (∃ before, s.accepted.get? r = some before) ∨
    ∃ job, .jobAccepted job ∈ calls ∧ job.runId = r
  left : ∀ r row, s.accepted.get? r = some row → (∃ after, t.accepted.get? r = some after) ∨
    (∃ record, t.history.get? r = some record) ∧ ∃ job, .jobTerminal job ∈ calls ∧ job.runId = r
  recorded : ∀ r record, s.history.get? r = some record → t.history.get? r = some record
  moved : ∀ r record, t.history.get? r = some record → s.history.get? r = some record ∨
    ∃ job, .jobTerminal job ∈ calls ∧ job.runId = r ∧ recordFromJob job = some record
  apart : ∀ r, (∀ job, .jobAccepted job ∈ calls → job.runId ≠ r) →
    (s.accepted.get? r = none ∨ s.history.get? r = none) →
      t.accepted.get? r = none ∨ t.history.get? r = none

variable {s t u : HistoryStore} {c : StoreCall} {calls rest : List StoreCall}

theorem Written.refl (calls : List StoreCall) (s : HistoryStore) : Written calls s s where
  accepted := fun _ row found => .inl ⟨row,found⟩
  left := fun _ row found => .inl ⟨row,found⟩
  recorded := fun _ _ found => found
  moved := fun _ _ found => .inl found
  apart := fun _ _ apart => apart

theorem Written.mono (written : Written calls s t) (sub : calls ⊆ rest) : Written rest s t where
  accepted := fun r row found => (written.accepted r row found).imp_right
    fun ⟨job,called,run⟩ => ⟨job,sub called,run⟩
  left := fun r row found => (written.left r row found).imp_right
    fun ⟨kept,job,called,run⟩ => ⟨kept,job,sub called,run⟩
  recorded := written.recorded
  moved := fun r record found => (written.moved r record found).imp_right
    fun ⟨job,called,run⟩ => ⟨job,sub called,run⟩
  apart := fun r other => written.apart r fun job called => other job (sub called)

theorem Written.trans (first : Written calls s t) (second : Written calls t u) :
    Written calls s u where
  accepted := by
    intro r row found
    obtain ⟨between,here⟩ | called := second.accepted r row found
    · exact first.accepted r between here
    · exact .inr called
  left := by
    intro r row found
    obtain ⟨between,here⟩ | ⟨⟨record,kept⟩,called⟩ := first.left r row found
    · exact second.left r between here
    · exact .inr ⟨⟨record,second.recorded r record kept⟩,called⟩
  recorded := fun r record found => second.recorded r record (first.recorded r record found)
  moved := by
    intro r record found
    obtain here | called := second.moved r record found
    · exact first.moved r record here
    · exact .inr called
  apart := fun r other apart => second.apart r other (first.apart r other apart)

private theorem put_history (s : HistoryStore) (r a : RunRef) (record : HistoryRecord) :
    (s.put r record).history.get? a =
      if a = r then (s.history.get? r).or (some record) else s.history.get? a := by
  unfold HistoryStore.put
  cases found : s.history.get? r with
  | some row =>
    dsimp only
    split
    · rename_i same
      rw [same,found]
      rfl
    · rfl
  | none => exact Dict.get?_set _ _ _ _

private theorem put_accepted (s : HistoryStore) (r : RunRef) (record : HistoryRecord) :
    (s.put r record).accepted = s.accepted := by
  unfold HistoryStore.put
  split <;> rfl

private theorem written_terminal {job : Job} {record : HistoryRecord}
    (made : recordFromJob job = some record) : Written [.jobTerminal job] s
      { s.put job.runId record with accepted := (s.put job.runId record).accepted.erase job.runId } := by
  constructor
  · intro r row found
    rw [put_accepted,Dict.get?_erase] at found
    split at found
    · cases found
    · exact .inl ⟨row,found⟩
  · intro r row found
    by_cases same : r = job.runId
    · right
      refine ⟨?_,job,List.mem_singleton_self _,same.symm⟩
      dsimp only
      rw [put_history,if_pos same]
      cases s.history.get? job.runId with
      | some kept => exact ⟨kept,rfl⟩
      | none => exact ⟨record,rfl⟩
    · left
      refine ⟨row,?_⟩
      dsimp only
      rw [put_accepted,Dict.get?_erase,if_neg same]
      exact found
  · intro r kept found
    dsimp only
    rw [put_history]
    split
    · rename_i same
      rw [← same,found]
      rfl
    · exact found
  · intro r kept found
    dsimp only at found
    rw [put_history] at found
    split at found
    · rename_i same
      cases here : s.history.get? job.runId with
      | some row =>
        rw [here] at found
        left
        rw [same,here]
        exact found
      | none =>
        rw [here] at found
        obtain rfl := Option.some.inj found
        exact .inr ⟨job,List.mem_singleton_self _,same.symm,made⟩
    · exact .inl found
  · intro r _ apart
    by_cases same : r = job.runId
    · left
      rw [Dict.get?_erase,if_pos same]
    · dsimp only
      rw [put_accepted,put_history,Dict.get?_erase,if_neg same,if_neg same]
      exact apart

private theorem written_accepted {job : Job} {row : AcceptedRow} :
    Written [.jobAccepted job] s { s with accepted := s.accepted.set job.runId row } := by
  constructor
  · intro r found here
    dsimp only at here
    rw [Dict.get?_set] at here
    split at here
    · rename_i same
      exact .inr ⟨job,List.mem_singleton_self _,same.symm⟩
    · exact .inl ⟨found,here⟩
  · intro r found here
    left
    dsimp only
    rw [Dict.get?_set]
    split
    · exact ⟨row,rfl⟩
    · exact ⟨found,here⟩
  · exact fun _ _ found => found
  · exact fun _ _ found => .inl found
  · intro r other apart
    have different := other job (List.mem_singleton_self _)
    dsimp only
    rw [Dict.get?_set,if_neg different.symm]
    exact apart

private theorem written_started {job : Job} {row row' : AcceptedRow}
    (found : s.accepted.get? job.runId = some row) :
    Written [.jobStarted job] s { s with accepted := s.accepted.set job.runId row' } := by
  constructor
  · intro r after here
    dsimp only at here
    rw [Dict.get?_set] at here
    split at here
    · rename_i same
      rw [same]
      exact .inl ⟨row,found⟩
    · exact .inl ⟨after,here⟩
  · intro r before here
    left
    dsimp only
    rw [Dict.get?_set]
    split
    · exact ⟨row',rfl⟩
    · exact ⟨before,here⟩
  · exact fun _ _ found => found
  · exact fun _ _ found => .inl found
  · intro r _ apart
    dsimp only
    rw [Dict.get?_set]
    split
    · rename_i same
      rw [same,found] at apart
      rw [same]
      exact .inr (apart.resolve_left nofun)
    · exact apart

theorem call_written (done : s.call c = some t) : Written [c] s t := by
  unfold HistoryStore.call at done
  cases c with
  | jobAccepted job =>
    dsimp only at done
    split at done
    · cases done
    · obtain rfl := Option.some.inj done
      exact written_accepted
  | jobStarted job =>
    dsimp only at done
    split at done
    · rename_i row found
      obtain rfl := Option.some.inj done
      exact written_started found
    · obtain rfl := Option.some.inj done
      exact .refl _ _
  | jobTerminal job =>
    dsimp only at done
    split at done
    · rename_i record made
      obtain rfl := Option.some.inj done
      exact written_terminal made
    · cases done

theorem attempt_written (fault : Bool) : Written [c] s (s.attempt fault c).1 := by
  unfold HistoryStore.attempt
  split
  · exact .refl _ _
  · split
    · rename_i t done
      exact call_written done
    · exact .refl _ _

theorem attemptAll_written (faults : List Bool) (calls : List StoreCall) :
    Written calls s (s.attemptAll faults calls) := by
  induction calls generalizing s faults with
  | nil => exact .refl _ _
  | cons c rest ih =>
    unfold HistoryStore.attemptAll
    have first : Written (c :: rest) s (s.attempt (faults.headD false) c).1 :=
      (attempt_written _).mono (List.cons_subset_cons c (List.nil_subset _))
    exact first.trans ((ih faults.tail).mono (List.subset_cons_self c rest))

private theorem recovered_history (entries : List (RunRef × AcceptedRow)) (r : RunRef) :
    let after := (entries.foldl (fun s e => s.put e.1 (interruptedRecord e.2)) s).history.get? r
    (∀ record, s.history.get? r = some record → after = some record) ∧
      (∀ record, after = some record → s.history.get? r = some record ∨
        ∃ row, (r,row) ∈ entries ∧ record = interruptedRecord row) ∧
      ((∃ row, (r,row) ∈ entries) → ∃ record, after = some record) := by
  induction entries generalizing s with
  | nil => exact ⟨fun _ found => found,fun _ found => .inl found,fun ⟨_,inside⟩ => nomatch inside⟩
  | cons e rest ih =>
    obtain ⟨kept,made,covered⟩ := ih (s := s.put e.1 (interruptedRecord e.2))
    have first := put_history s e.1 r (interruptedRecord e.2)
    rw [List.foldl_cons]
    refine ⟨?_,?_,?_⟩
    · intro record found
      apply kept
      rw [first]
      split
      · rename_i same
        rw [← same,found]
        rfl
      · exact found
    · intro record found
      obtain before | ⟨row,inside,same⟩ := made record found
      · rw [first] at before
        split at before
        · rename_i same
          cases here : s.history.get? e.1 with
          | some row =>
            rw [here] at before
            left
            rw [same,here]
            exact before
          | none =>
            rw [here] at before
            obtain rfl := Option.some.inj before
            exact .inr ⟨e.2,same ▸ List.mem_cons_self,rfl⟩
        · exact .inl before
      · exact .inr ⟨row,List.mem_cons_of_mem _ inside,same⟩
    · rintro ⟨row,inside⟩
      obtain here | later := List.mem_cons.mp inside
      · subst here
        have put : ∃ record, (s.put r (interruptedRecord row)).history.get? r = some record := by
          rw [put_history,if_pos rfl]
          cases s.history.get? r with
          | some kept => exact ⟨kept,rfl⟩
          | none => exact ⟨_,rfl⟩
        obtain ⟨record,found⟩ := put
        exact ⟨record,kept record found⟩
      · exact covered ⟨row,later⟩

theorem recoverInterrupted_spec (s : HistoryStore) (r : RunRef) :
    s.recoverInterrupted.accepted.get? r = none ∧
      (∀ record, s.history.get? r = some record →
        s.recoverInterrupted.history.get? r = some record) ∧
      (∀ record, s.recoverInterrupted.history.get? r = some record →
        s.history.get? r = some record ∨
          ∃ row, s.accepted.get? r = some row ∧ record = interruptedRecord row) ∧
      ((∃ row, s.accepted.get? r = some row) →
        ∃ record, s.recoverInterrupted.history.get? r = some record) := by
  obtain ⟨kept,made,covered⟩ := recovered_history (s := s) s.accepted.entries r
  refine ⟨Dict.get?_empty r,kept,?_,?_⟩
  · intro record found
    obtain before | ⟨row,inside,same⟩ := made record found
    · exact .inl before
    · exact .inr ⟨row,(Dict.get?_eq_some_iff _ _ _).mpr inside,same⟩
  · rintro ⟨row,found⟩
    exact covered ⟨row,(Dict.get?_eq_some_iff _ _ _).mp found⟩

end Dinkster.JobQueue
