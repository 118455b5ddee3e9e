import Dinkster.Server.JobDurabilityQueue
import Dinkster.Server.JobDurabilityTables

/-! Durability of acknowledged work across stretches, failed writes, crashes and recoveries. -/
namespace Dinkster.JobQueue
open Transition

variable {q next : Queue} {s s' t : Server} {a : Server.Action} {r : RunRef}

namespace Queue

theorem calls_storing (a : Action) (stored : Bool) : q.calls (a.storing stored) = q.calls a := by
  cases a <;> rfl

theorem calls_accepted {a : Action} {made : Job} (inside : .jobAccepted made ∈ q.calls a) :
    ∃ key priority fingerprint admitted stored,
      a = .submit key priority fingerprint admitted stored ∧ q.calls a = [.jobAccepted made] := by
  cases a with
  | submit key priority fingerprint admitted stored =>
    refine ⟨key,priority,fingerprint,admitted,stored,rfl,?_⟩
    unfold calls submitCalls at inside ⊢
    dsimp only at inside ⊢
    split at inside
    · cases inside
    split at inside
    · cases inside
    rename_i opened free
    rw [if_neg opened,if_neg free,List.mem_singleton.mp inside]
  | cancel key =>
    unfold calls cancelCalls at inside
    dsimp only at inside
    split at inside
    · cases inside
    · split at inside
      · cases List.mem_singleton.mp inside
      · cases inside
  | clear client => exact absurd inside (cancelAllCalls_terminal _ made)
  | dispatch =>
    unfold calls at inside
    dsimp only at inside
    split at inside
    · cases inside
    · exact absurd inside (dispatchCalls_started _ made)
  | runStep r outcome =>
    unfold calls stepCalls at inside
    dsimp only at inside
    split at inside
    · cases inside
    split at inside
    · cases inside
    split at inside
    · split at inside
      · cases inside
      · cases List.mem_singleton.mp inside
    · split at inside
      · cases inside
      · cases List.mem_singleton.mp inside
    · cases List.mem_singleton.mp inside
    · cases inside
  | close => exact absurd inside (cancelAllCalls_terminal _ made)
  | start => cases inside
  | pause => cases inside
  | resume => cases inside
  | beginMaintenance => cases inside
  | endMaintenance => cases inside
  | setMaxRunning n => cases inside
  | dropDispatcher => cases inside

theorem submit_unstored (key : JobKey) (priority : Int) (fingerprint : String) (admitted : Bool) :
    q.submit key priority fingerprint admitted false = q := by
  unfold submit
  split
  · rfl
  dsimp only
  split
  · rfl
  exact if_pos rfl

theorem submit_stored {key : JobKey} {priority : Int} {fingerprint : String} {admitted : Bool}
    {c : StoreCall} (offered : q.submitCalls key priority fingerprint admitted = [c]) :
    (q.submit key priority fingerprint admitted true).nextRun = q.nextRun + 1 := by
  unfold submitCalls at offered
  unfold submit
  split at offered
  · cases offered
  split at offered
  · cases offered
  rename_i opened free
  rw [if_neg opened]
  dsimp only
  rw [if_neg free]
  cases q.job? key <;> rfl

end Queue

def Server.counter (s : Server) : RunRef :=
  match s.queue with
  | some q => q.nextRun
  | none => s.minted

structure Stretch (s : Server) (q next : Queue) (calls : List StoreCall) (t : HistoryStore) :
    Prop where
  effect : q.Effect next calls
  written : Written calls s.store t
  accepted : ∀ r row, t.accepted.get? r = some row →
    (∃ before, s.store.accepted.get? r = some before) ∨ (r = q.nextRun ∧ r < next.nextRun)

private theorem attempt_failed {store : HistoryStore} {fault : Bool} {c : StoreCall}
    (failed : (store.attempt fault c).2 = false) : (store.attempt fault c).1 = store := by
  unfold HistoryStore.attempt at failed ⊢
  split at failed
  · rename_i faulty
    rw [if_pos faulty]
  · rename_i faultless
    rw [if_neg faultless]
    split at failed
    · cases failed
    · rfl

private theorem attempt_accepted {store : HistoryStore} {fault : Bool} {job : Job}
    (done : (store.attempt fault (.jobAccepted job)).2 = true) :
    ∃ row, (store.attempt fault (.jobAccepted job)).1.accepted.get? job.runId = some row := by
  unfold HistoryStore.attempt at done ⊢
  split at done
  · cases done
  rename_i faultless
  rw [if_neg faultless]
  unfold HistoryStore.call at done ⊢
  cases here : store.accepted.get? job.runId with
  | some row =>
    simp only [here] at done
    cases done
  | none =>
    simp only [here]
    exact ⟨_,Dict.get?_set_self _ _ _⟩

theorem stretch_spec (tracked : q.Tracked) {a : Queue.Action} {faults : List Bool}
    (taken : q.step (a.storing (s.stored q a faults)) = some next) (done : Nat) :
    Stretch s q next (q.calls a) (s.store.attemptAll faults ((q.calls a).take done)) ∧
      ∀ r job, next.heap.get? r = some job → q.heap.get? r = none →
        ∃ row, (s.store.attemptAll faults (q.calls a)).accepted.get? r = some row := by
  have effect := Queue.step_effect tracked taken
  rw [Queue.calls_storing] at effect
  have written : Written (q.calls a) s.store (s.store.attemptAll faults ((q.calls a).take done)) :=
    (attemptAll_written faults _).mono (List.take_subset done _)
  -- the one stretch that adds a row, or an object
  have submission {made : Job} (inside : .jobAccepted made ∈ q.calls a) :
      q.calls a = [.jobAccepted made] ∧
        ((s.stored q a faults = false ∧ next = q ∧
            (s.store.attempt (faults.headD false) (.jobAccepted made)).1 = s.store) ∨
          (s.stored q a faults = true ∧ next.nextRun = q.nextRun + 1)) := by
    obtain ⟨key,priority,fingerprint,admitted,ignored,rfl,offered⟩ := Queue.calls_accepted inside
    refine ⟨offered,?_⟩
    have outcome : s.stored q (.submit key priority fingerprint admitted ignored) faults =
        (s.store.attempt (faults.headD false) (.jobAccepted made)).2 := by
      unfold Server.stored
      rw [offered]
      rfl
    cases stored : s.stored q (.submit key priority fingerprint admitted ignored) faults with
    | false =>
      rw [stored] at taken outcome
      have same : q.submit key priority fingerprint admitted false = next :=
        Option.some.inj taken
      rw [Queue.submit_unstored] at same
      exact .inl ⟨rfl,same.symm,attempt_failed outcome.symm⟩
    | true =>
      rw [stored] at taken
      have same : q.submit key priority fingerprint admitted true = next := Option.some.inj taken
      rw [← same]
      exact .inr ⟨rfl,Queue.submit_stored offered⟩
  refine ⟨⟨effect,written,?_⟩,?_⟩
  · intro r row found
    obtain before | ⟨made,inside,run⟩ := written.accepted r row found
    · exact .inl before
    · obtain ⟨offered,unstored | stored⟩ := submission inside
      · left
        obtain ⟨_,_,same⟩ := unstored
        rw [offered] at found
        cases done with
        | zero => exact ⟨row,found⟩
        | succ n =>
          rw [List.take_succ_cons,List.take_nil] at found
          unfold HistoryStore.attemptAll HistoryStore.attemptAll at found
          rw [same] at found
          exact ⟨row,found⟩
      · right
        have fresh : made.runId = q.nextRun := effect.writes _ inside
        rw [← run,fresh,stored.2]
        exact ⟨rfl,Nat.lt_succ_self _⟩
  · intro r job found missing
    obtain ⟨before,here,_⟩ | ⟨made,inside,run⟩ := effect.heap r job found
    · rw [missing] at here
      cases here
    · obtain ⟨offered,unstored | stored⟩ := submission inside
      · obtain ⟨_,same,_⟩ := unstored
        rw [same,missing] at found
        cases found
      · have went : (s.store.attempt (faults.headD false) (.jobAccepted made)).2 = true := by
          rw [← stored.1]
          unfold Server.stored
          rw [offered]
          rfl
        rw [offered,← run]
        exact attempt_accepted went

namespace Server

/-- The run is over for good: no later row of it in either table. -/
structure Settled (s : Server) (r : RunRef) : Prop where
  known : r < s.counter
  absent : s.store.accepted.get? r = none
  ended : ∀ q job, s.queue = some q → q.heap.get? r = some job → job.state.terminal = true

structure Forgotten (s : Server) (r : RunRef) : Prop where
  known : r < s.counter
  absent : ∀ q, s.queue = some q → q.heap.get? r = none

structure Durable (s : Server) : Prop where
  tracked : ∀ q, s.queue = some q → q.Tracked
  accepted : ∀ r row, s.store.accepted.get? r = some row → r < s.counter
  history : ∀ r record, s.store.history.get? r = some record → r < s.counter
  apart : ∀ r, s.store.accepted.get? r = none ∨ s.store.history.get? r = none
  covered : ∀ q r job, s.queue = some q → q.heap.get? r = some job →
    job.state.terminal = false → ∃ row, s.store.accepted.get? r = some row
  swept : ∀ r record, s.store.history.get? r = some record → record.state = .interrupted →
    s.Forgotten r

theorem Durable.settled {record : HistoryRecord} (durable : s.Durable)
    (found : s.store.history.get? r = some record) : s.Settled r where
  known := durable.history r record found
  absent := (durable.apart r).resolve_right (by simp [found])
  ended := by
    intro q job running object
    by_contra live
    obtain ⟨row,accepted⟩ := durable.covered q r job running object (by simpa using live)
    have missing := (durable.apart r).resolve_right (by simp [found])
    rw [missing] at accepted
    cases accepted

end Server

section Steps

variable {calls : List StoreCall} {store : HistoryStore}

private theorem recorded_terminal {job : Job} {record : HistoryRecord}
    (made : recordFromJob job = some record) : record.state ≠ .interrupted := by
  unfold recordFromJob at made
  split at made
  · rw [← Option.some.inj made]
    nofun
  · rw [← Option.some.inj made]
    nofun
  · rw [← Option.some.inj made]
    nofun
  · cases made
  · cases made

theorem Stretch.unknown (stretch : Stretch s q next calls store) (known : r < q.nextRun)
    (absent : q.heap.get? r = none) : next.heap.get? r = none := by
  cases found : next.heap.get? r with
  | none => rfl
  | some job =>
    obtain ⟨before,here,_⟩ | ⟨made,inside,run⟩ := stretch.effect.heap r job found
    · rw [absent] at here
      cases here
    · have fresh : made.runId = q.nextRun := stretch.effect.writes _ inside
      rw [← run,fresh] at known
      exact absurd known (lt_irrefl _)

theorem Stretch.ended (stretch : Stretch s q next calls store) {job : Job} (known : r < q.nextRun)
    (ended : ∀ job, q.heap.get? r = some job → job.state.terminal = true)
    (found : next.heap.get? r = some job) : job.state.terminal = true := by
  obtain ⟨before,here,live⟩ | ⟨made,inside,run⟩ := stretch.effect.heap r job found
  · by_contra running
    have unfinished := live (by simpa using running)
    rw [ended before here] at unfinished
    cases unfinished
  · have fresh : made.runId = q.nextRun := stretch.effect.writes _ inside
    rw [← run,fresh] at known
    exact absurd known (lt_irrefl _)

theorem Stretch.tables (stretch : Stretch s q next calls store) (durable : s.Durable)
    (running : s.queue = some q) (after : Server) (stored : after.store = store)
    (counter : after.counter = next.nextRun)
    (queue : ∀ p, after.queue = some p → p = next) :
    (∀ r row, after.store.accepted.get? r = some row → r < after.counter) ∧
      (∀ r record, after.store.history.get? r = some record → r < after.counter) ∧
      (∀ r, after.store.accepted.get? r = none ∨ after.store.history.get? r = none) ∧
      ∀ r record, after.store.history.get? r = some record → record.state = .interrupted →
        after.Forgotten r := by
  have count : s.counter = q.nextRun := by
    unfold Server.counter
    rw [running]
  have grown := stretch.effect.next
  rw [stored,counter]
  refine ⟨?_,?_,?_,?_⟩
  · intro r row found
    obtain ⟨before,here⟩ | ⟨_,bound⟩ := stretch.accepted r row found
    · exact (count ▸ durable.accepted r before here).trans_le grown
    · exact bound
  · intro r record found
    obtain before | ⟨job,inside,run,_⟩ := stretch.written.moved r record found
    · exact (count ▸ durable.history r record before).trans_le grown
    · obtain ⟨⟨old,object,_⟩,_⟩ := stretch.effect.writes _ inside
      rw [run] at object
      exact ((durable.tracked q running).identity r old object).2.trans_le grown
  · intro r
    by_cases offered : ∃ job, .jobAccepted job ∈ calls ∧ job.runId = r
    · right
      obtain ⟨job,inside,run⟩ := offered
      have fresh : job.runId = q.nextRun := stretch.effect.writes _ inside
      rw [run] at fresh
      cases found : store.history.get? r with
      | none => rfl
      | some record =>
        obtain before | ⟨old,called,named,_⟩ := stretch.written.moved r record found
        · have known := durable.history r record before
          rw [count,fresh] at known
          exact absurd known (lt_irrefl _)
        · obtain ⟨⟨was,object,_⟩,_⟩ := stretch.effect.writes _ called
          rw [named] at object
          have known := ((durable.tracked q running).identity r was object).2
          rw [fresh] at known
          exact absurd known (lt_irrefl _)
    · apply stretch.written.apart r _ (durable.apart r)
      exact fun job inside run => offered ⟨job,inside,run⟩
  · intro r record found interrupted
    obtain before | ⟨job,_,_,made⟩ := stretch.written.moved r record found
    · obtain ⟨known,absent⟩ := durable.swept r record before interrupted
      rw [count] at known
      refine ⟨counter ▸ known.trans_le grown,?_⟩
      intro p alive
      rw [queue p alive]
      exact stretch.unknown known (absent q running)
    · exact absurd interrupted (recorded_terminal made)

theorem Stretch.unaccepted (stretch : Stretch s q next calls store) (known : r < q.nextRun)
    (absent : s.store.accepted.get? r = none) : store.accepted.get? r = none := by
  cases found : store.accepted.get? r with
  | none => rfl
  | some row =>
    obtain ⟨before,here⟩ | ⟨fresh,_⟩ := stretch.accepted r row found
    · rw [absent] at here
      cases here
    · rw [fresh] at known
      exact absurd known (lt_irrefl _)

theorem Stretch.unmoved (stretch : Stretch s q next calls store) {record : HistoryRecord}
    (ended : ∀ job, q.heap.get? r = some job → job.state.terminal = true)
    (found : store.history.get? r = some record) : s.store.history.get? r = some record := by
  obtain before | ⟨job,inside,run,_⟩ := stretch.written.moved r record found
  · exact before
  · obtain ⟨⟨old,object,live⟩,_⟩ := stretch.effect.writes _ inside
    rw [run] at object
    rw [ended old object] at live
    cases live

theorem Stretch.recorded (stretch : Stretch s q next calls store)
    (recorded : (∃ row, s.store.accepted.get? r = some row) ∨
      ∃ record, s.store.history.get? r = some record) :
    (∃ row, store.accepted.get? r = some row) ∨ ∃ record, store.history.get? r = some record := by
  obtain ⟨row,accepted⟩ | ⟨record,found⟩ := recorded
  · obtain kept | ⟨moved,_⟩ := stretch.written.left r row accepted
    · exact .inl kept
    · exact .inr moved
  · exact .inr ⟨record,stretch.written.recorded r record found⟩

end Steps

namespace Server

/-- What an accepted action has done. -/
inductive Taken (s : Server) : Action → Server → Prop
  | restart {maxRunning historyLimit : Nat} {maxRunning_pos : 1 ≤ maxRunning}
      {historyLimit_pos : 1 ≤ historyLimit} (down : s.queue = none) :
      Taken s (.restart maxRunning historyLimit maxRunning_pos historyLimit_pos) { s with
        store := s.store.recoverInterrupted
        queue := some { maxRunning, historyLimit, maxRunning_pos, historyLimit_pos
                        nextRun := s.minted } }
  | serve {q next : Queue} {a : Queue.Action} {faults : List Bool} (running : s.queue = some q)
      (stretch : Stretch s q next (q.calls a) (s.store.attemptAll faults (q.calls a)))
      (fresh : ∀ r job, next.heap.get? r = some job → q.heap.get? r = none →
        ∃ row, (s.store.attemptAll faults (q.calls a)).accepted.get? r = some row) :
      Taken s (.serve a faults)
        { s with queue := some next, store := s.store.attemptAll faults (q.calls a) }
  | crash {q next : Queue} {a : Queue.Action} {faults : List Bool} {done : Nat}
      (running : s.queue = some q) (stretch : Stretch s q next (q.calls a)
        (s.store.attemptAll faults ((q.calls a).take done))) :
      Taken s (.crash a faults done) {
        store := s.store.attemptAll faults ((q.calls a).take done)
        queue := none
        minted := next.nextRun }
  | delete {chosen : RunRef → Bool} :
      Taken s (.delete chosen) { s with store := s.store.delete chosen }

theorem step_taken (durable : s.Durable) (taken : s.step a = some s') : Taken s a s' := by
  cases a with
  | restart maxRunning historyLimit maxRunning_pos historyLimit_pos =>
    unfold step at taken
    dsimp only at taken
    split at taken
    · cases taken
    · rename_i down
      obtain rfl := Option.some.inj taken
      exact .restart down
  | serve a faults =>
    obtain ⟨q,running,taken⟩ := Option.bind_eq_some_iff.mp taken
    obtain ⟨next,moved,taken⟩ := Option.bind_eq_some_iff.mp taken
    obtain rfl := Option.some.inj taken
    obtain ⟨stretch,fresh⟩ := stretch_spec (durable.tracked q running) moved (q.calls a).length
    rw [List.take_length] at stretch
    exact .serve running stretch fresh
  | crash a faults done =>
    obtain ⟨q,running,taken⟩ := Option.bind_eq_some_iff.mp taken
    obtain ⟨next,moved,taken⟩ := Option.bind_eq_some_iff.mp taken
    obtain rfl := Option.some.inj taken
    exact .crash running (stretch_spec (durable.tracked q running) moved done).1
  | delete chosen =>
    obtain rfl := Option.some.inj taken
    exact .delete

private theorem deleted_history {chosen : RunRef → Bool} {record : HistoryRecord}
    (found : (s.store.delete chosen).history.get? r = some record) :
    s.store.history.get? r = some record := by
  unfold HistoryStore.delete at found
  dsimp only at found
  rw [Dict.get?_filterKeys] at found
  split at found
  · exact found
  · cases found

theorem step_durable (durable : s.Durable) (taken : s.step a = some s') : s'.Durable := by
  cases step_taken durable taken with
  | restart down =>
    have count : s.counter = s.minted := by
      unfold counter
      rw [down]
    have swept (r : RunRef) := recoverInterrupted_spec s.store r
    have known (r : RunRef) (record : HistoryRecord)
        (found : s.store.recoverInterrupted.history.get? r = some record) : r < s.minted := by
      obtain before | ⟨row,left,_⟩ := (swept r).2.2.1 record found
      · exact count ▸ durable.history r record before
      · exact count ▸ durable.accepted r row left
    constructor
    · rintro _ ⟨⟩
      refine ⟨?_,List.forall_mem_nil _,.nil,?_,?_⟩
      · intro r job found
        cases found
      · intro r job found
        cases found
      · intro r job task found
        cases found
    · intro r row found
      rw [(swept r).1] at found
      cases found
    · exact known
    · exact fun r => .inl (swept r).1
    · rintro _ r job ⟨⟩ object
      cases object
    · intro r record found _
      refine ⟨known r record found,?_⟩
      rintro _ ⟨⟩
      rfl
  | @serve q next a faults running stretch fresh =>
    have same : ∀ p, some next = some p → p = next := fun p alive => (Option.some.inj alive).symm
    obtain ⟨accepted,history,apart,swept⟩ := stretch.tables durable running { s with
      queue := some next
      store := s.store.attemptAll faults (q.calls a) } rfl rfl same
    refine ⟨?_,accepted,history,apart,?_,swept⟩
    · rintro _ ⟨⟩
      exact stretch.effect.tracked
    · rintro _ r job ⟨⟩ object live
      cases here : q.heap.get? r with
      | none => exact fresh r job object here
      | some before =>
        obtain ⟨before',here',unfinished⟩ | ⟨made,inside,run⟩ := stretch.effect.heap r job object
        · obtain ⟨row,was⟩ := durable.covered q r before' running here' (unfinished live)
          obtain kept | ⟨_,done,called,named⟩ := stretch.written.left r row was
          · exact kept
          · have ended := (stretch.effect.writes _ called).2
            rw [named] at ended
            rw [ended job object] at live
            cases live
        · have fresh' : made.runId = q.nextRun := stretch.effect.writes _ inside
          have known := ((durable.tracked q running).identity r before here).2
          rw [← run,fresh'] at known
          exact absurd known (lt_irrefl _)
  | @crash q next a faults done running stretch =>
    obtain ⟨accepted,history,apart,swept⟩ := stretch.tables durable running {
      store := s.store.attemptAll faults ((q.calls a).take done)
      queue := none
      minted := next.nextRun } rfl rfl fun _ alive => by cases alive
    refine ⟨?_,accepted,history,apart,?_,swept⟩
    · intro _ alive
      cases alive
    · intro _ _ _ alive
      cases alive
  | @delete chosen =>
    refine ⟨durable.tracked,durable.accepted,?_,?_,durable.covered,?_⟩
    · exact fun r record found => durable.history r record (deleted_history found)
    · intro r
      apply (durable.apart r).imp_right
      intro missing
      cases found : (s.store.delete chosen).history.get? r with
      | none => rfl
      | some record =>
        rw [deleted_history found] at missing
        cases missing
    · intro r record found interrupted
      obtain ⟨known,absent⟩ := durable.swept r record (deleted_history found) interrupted
      exact ⟨known,absent⟩

theorem step_settled (durable : s.Durable) (settled : s.Settled r) (taken : s.step a = some s') :
    s'.Settled r ∧ ∀ record, s'.store.history.get? r = some record →
      s.store.history.get? r = some record := by
  obtain ⟨known,absent,ended⟩ := settled
  cases step_taken durable taken with
  | restart down =>
    obtain ⟨empty,_,made,_⟩ := recoverInterrupted_spec s.store r
    have count : s.counter = s.minted := by
      unfold counter
      rw [down]
    refine ⟨⟨count ▸ known,empty,?_⟩,?_⟩
    · rintro _ job ⟨⟩ object
      cases object
    · intro record found
      obtain before | ⟨row,left,_⟩ := made record found
      · exact before
      · rw [absent] at left
        cases left
  | @serve q next a faults running stretch fresh =>
    have count : s.counter = q.nextRun := by
      unfold counter
      rw [running]
    rw [count] at known
    have grown : r < next.nextRun := known.trans_le stretch.effect.next
    refine ⟨⟨grown,?_,?_⟩,?_⟩
    · exact stretch.unaccepted known absent
    · rintro _ job ⟨⟩ object
      exact stretch.ended known (fun job here => ended q job running here) object
    · exact fun record found => stretch.unmoved (fun job here => ended q job running here) found
  | @crash q next a faults done running stretch =>
    have count : s.counter = q.nextRun := by
      unfold counter
      rw [running]
    rw [count] at known
    have grown : r < next.nextRun := known.trans_le stretch.effect.next
    refine ⟨⟨grown,?_,?_⟩,?_⟩
    · exact stretch.unaccepted known absent
    · intro _ _ alive
      cases alive
    · exact fun record found => stretch.unmoved (fun job here => ended q job running here) found
  | delete => exact ⟨⟨known,absent,ended⟩,fun record found => deleted_history found⟩

theorem step_forgotten (durable : s.Durable) (forgotten : s.Forgotten r)
    (taken : s.step a = some s') : s'.Forgotten r := by
  obtain ⟨known,absent⟩ := forgotten
  cases step_taken durable taken with
  | restart down =>
    have count : s.counter = s.minted := by
      unfold counter
      rw [down]
    refine ⟨count ▸ known,?_⟩
    rintro _ ⟨⟩
    rfl
  | @serve q next a faults running stretch fresh =>
    have count : s.counter = q.nextRun := by
      unfold counter
      rw [running]
    rw [count] at known
    have grown : r < next.nextRun := known.trans_le stretch.effect.next
    refine ⟨grown,?_⟩
    rintro _ ⟨⟩
    exact stretch.unknown known (absent q running)
  | @crash q next a faults done running stretch =>
    have count : s.counter = q.nextRun := by
      unfold counter
      rw [running]
    rw [count] at known
    have grown : r < next.nextRun := known.trans_le stretch.effect.next
    refine ⟨grown,?_⟩
    intro _ alive
    cases alive
  | delete => exact ⟨known,absent⟩

/-- A client deletes the history row of the run. -/
def Action.Deletes (r : RunRef) (s : Server) : Action → Prop
  | .delete chosen => chosen r = true ∧ ∃ record, s.store.history.get? r = some record
  | _ => False

/-- The run is in one of the tables. -/
def Recorded (s : Server) (r : RunRef) : Prop :=
  (∃ row, s.store.accepted.get? r = some row) ∨ ∃ record, s.store.history.get? r = some record

theorem step_recorded (durable : s.Durable) (recorded : s.Recorded r)
    (kept : ¬ a.Deletes r s) (taken : s.step a = some s') : s'.Recorded r := by
  cases step_taken durable taken with
  | restart down =>
    obtain ⟨_,stays,_,covered⟩ := recoverInterrupted_spec s.store r
    obtain accepted | ⟨record,found⟩ := recorded
    · exact .inr (covered accepted)
    · exact .inr ⟨record,stays record found⟩
  | serve running stretch fresh => exact stretch.recorded recorded
  | crash running stretch => exact stretch.recorded recorded
  | @delete chosen =>
    apply recorded.imp_right
    rintro ⟨record,found⟩
    have spared : chosen r = false := by
      by_contra hit
      exact kept ⟨by simpa using hit,record,found⟩
    refine ⟨record,?_⟩
    unfold HistoryStore.delete
    dsimp only
    rw [Dict.get?_filterKeys,spared]
    exact found

/-- The run that a served submission answers with. -/
def Answers (s : Server) (key : JobKey) (priority : Int) (fingerprint : String)
    (admitted ignored : Bool) (faults : List Bool) : Option RunRef := do
  let q ← s.queue
  q.submitted key fingerprint admitted
    (s.stored q (.submit key priority fingerprint admitted ignored) faults)

variable {key : JobKey} {priority : Int} {fingerprint : String} {admitted ignored : Bool}
  {faults : List Bool}

private theorem submit_ways (q : Queue) (key : JobKey) (priority : Int) (fingerprint : String)
    (admitted : Bool) : (q.submitCalls key priority fingerprint admitted = [] ∧
      (∀ stored, q.submit key priority fingerprint admitted stored = q) ∧
      ∀ stored r, q.submitted key fingerprint admitted stored = some r →
        ∃ job, q.job? key = some job ∧ job.runId = r ∧ job.state.terminal = false) ∨
    ∃ job, q.submitCalls key priority fingerprint admitted = [.jobAccepted job] ∧
      job.runId = q.nextRun ∧ ∀ stored, q.submitted key fingerprint admitted stored =
        if stored then some q.nextRun else none := by
  unfold Queue.submitCalls Queue.submit Queue.submitted
  by_cases shut : q.closed = true ∨ admitted = false
  · left
    refine ⟨if_pos shut,fun _ => if_pos shut,?_⟩
    intro stored r answered
    rw [if_pos shut] at answered
    cases answered
  simp only [if_neg shut]
  cases found : q.job? key with
  | none => exact .inr ⟨_,rfl,rfl,fun _ => rfl⟩
  | some job =>
    cases live : job.state.terminal with
    | true =>
      refine .inr ⟨⟨key,priority,q.nextRun,fingerprint,.queued,none⟩,?_,rfl,?_⟩
      · simp [live]
      · intro stored
        simp [Option.filter_some,live]
    | false =>
      left
      refine ⟨by simp [live],fun _ => by simp [live],?_⟩
      intro stored r answered
      simp only [Option.filter_some,live,Bool.not_false,if_true] at answered
      split at answered
      · exact ⟨job,rfl,Option.some.inj answered,live⟩
      · cases answered

private theorem stored_submission {q : Queue} {job : Job}
    (called : q.submitCalls key priority fingerprint admitted = [.jobAccepted job]) :
    s.stored q (.submit key priority fingerprint admitted ignored) faults =
      (s.store.attempt (faults.headD false) (.jobAccepted job)).2 := by
  unfold stored Queue.calls
  dsimp only
  rw [called]
  rfl

private theorem served_submission
    (taken : s.step (.serve (.submit key priority fingerprint admitted ignored) faults) = some s') :
    ∃ q, s.queue = some q ∧ s' = { s with
      queue := some (q.submit key priority fingerprint admitted
        (s.stored q (.submit key priority fingerprint admitted ignored) faults))
      store := s.store.attemptAll faults (q.submitCalls key priority fingerprint admitted) } := by
  obtain ⟨q,running,taken⟩ := Option.bind_eq_some_iff.mp taken
  obtain ⟨next,moved,taken⟩ := Option.bind_eq_some_iff.mp taken
  obtain rfl := Option.some.inj taken
  obtain rfl := Option.some.inj moved
  exact ⟨q,running,rfl⟩

theorem refused_unchanged
    (taken : s.step (.serve (.submit key priority fingerprint admitted ignored) faults) = some s')
    (refused : s.Answers key priority fingerprint admitted ignored faults = none) : s' = s := by
  obtain ⟨q,running,rfl⟩ := served_submission taken
  unfold Answers at refused
  rw [running] at refused
  dsimp only [Option.bind_eq_bind,Option.bind_some] at refused
  obtain ⟨uncalled,same,_⟩ | ⟨job,called,_,answers⟩ :=
    submit_ways q key priority fingerprint admitted
  · rw [uncalled,same,← running]
    rfl
  · rw [answers] at refused
    have failed : s.stored q (.submit key priority fingerprint admitted ignored) faults = false := by
      by_contra went
      rw [if_pos (by simpa using went)] at refused
      cases refused
    rw [failed,Queue.submit_unstored,called,← running]
    unfold HistoryStore.attemptAll HistoryStore.attemptAll
    rw [attempt_failed ((stored_submission called).symm.trans failed)]

theorem acknowledged_recorded (durable : s.Durable)
    (taken : s.step (.serve (.submit key priority fingerprint admitted ignored) faults) = some s')
    (answered : s.Answers key priority fingerprint admitted ignored faults = some r) :
    s'.Recorded r := by
  obtain ⟨q,running,rfl⟩ := served_submission taken
  unfold Answers at answered
  rw [running] at answered
  dsimp only [Option.bind_eq_bind,Option.bind_some] at answered
  obtain ⟨uncalled,_,existing⟩ | ⟨job,called,run,answers⟩ :=
    submit_ways q key priority fingerprint admitted
  · obtain ⟨job,found,named,live⟩ := existing _ r answered
    obtain ⟨a,_,object⟩ := Option.bind_eq_some_iff.mp found
    have identity := ((durable.tracked q running).identity a job object).1
    rw [named] at identity
    subst identity
    rw [uncalled]
    exact .inl (durable.covered q r job running object live)
  · rw [answers] at answered
    split at answered
    · rename_i went
      obtain rfl := Option.some.inj answered
      left
      rw [called,← run]
      exact attempt_accepted ((stored_submission called).symm.trans went)
    · cases answered

end Server

theorem reachable_durable (durable : s.Durable) (reached : Reachable Server.step s t) :
    t.Durable :=
  reached.invariant Server.Durable durable fun _ _ _ before _ taken =>
    Server.step_durable before taken

theorem started_durable : Server.Durable {} where
  tracked := by
    intro q running
    cases running
  accepted := by
    intro r row found
    cases found
  history := by
    intro r record found
    cases found
  apart := fun _ => .inl rfl
  covered := by
    intro q r job running
    cases running
  swept := by
    intro r record found
    cases found

/-- Whatever was submitted, dispatched, cancelled, deleted or lost on the way. -/
theorem job_durability (reached : Reachable Server.step {} s) :
    (∀ key priority fingerprint admitted ignored faults s' r,
      s.step (.serve (.submit key priority fingerprint admitted ignored) faults) = some s' →
      s.Answers key priority fingerprint admitted ignored faults = some r →
      ∀ t, Reach Server.step (fun u a => ¬ a.Deletes r u) s' t → t.Recorded r) ∧
    (∀ r, ¬ ((∃ row, s.store.accepted.get? r = some row) ∧
      ∃ record, s.store.history.get? r = some record)) ∧
    (∀ r record, s.store.history.get? r = some record →
      (∀ t, Reachable Server.step s t → t.store.accepted.get? r = none ∧
        ∀ later, t.store.history.get? r = some later → later = record) ∧
      ∀ t, Reach Server.step (fun u a => ¬ a.Deletes r u) s t →
        t.store.history.get? r = some record) ∧
    (∀ r record, s.store.history.get? r = some record → record.state = .interrupted →
      ∀ t, Reachable Server.step s t → ∀ q, t.queue = some q →
        q.heap.get? r = none ∧ r ∉ q.pending ∧ ∀ outcome, q.step (.runStep r outcome) = none) ∧
    ∀ key priority fingerprint admitted ignored faults s',
      s.step (.serve (.submit key priority fingerprint admitted ignored) faults) = some s' →
      s.Answers key priority fingerprint admitted ignored faults = none → s' = s := by
  have durable := reachable_durable started_durable reached
  have keeps (u : Server) (before : u.Durable) (r : RunRef) (recorded : u.Recorded r) (t : Server)
      (later : Reach Server.step (fun u a => ¬ a.Deletes r u) u t) : t.Recorded r := by
    have both : t.Durable ∧ t.Recorded r := by
      apply later.invariant fun t => t.Durable ∧ t.Recorded r
      · exact ⟨before,recorded⟩
      · intro u a u' held kept taken
        exact ⟨Server.step_durable held.1 taken,Server.step_recorded held.1 held.2 kept taken⟩
    exact both.2
  have past (r : RunRef) (record : HistoryRecord)
      (found : s.store.history.get? r = some record) (t : Server)
      (later : Reachable Server.step s t) : t.store.accepted.get? r = none ∧
        ∀ after, t.store.history.get? r = some after → after = record := by
    have held : t.Durable ∧ t.Settled r ∧
        ∀ after, t.store.history.get? r = some after → after = record := by
      apply later.invariant fun t => t.Durable ∧ t.Settled r ∧
        ∀ after, t.store.history.get? r = some after → after = record
      · refine ⟨durable,durable.settled found,?_⟩
        intro after here
        exact Option.some.inj (here.symm.trans found)
      · intro u a u' before _ taken
        obtain ⟨settled,old⟩ := Server.step_settled before.1 before.2.1 taken
        exact ⟨Server.step_durable before.1 taken,settled,
          fun after here => before.2.2 after (old after here)⟩
    exact ⟨held.2.1.absent,held.2.2⟩
  refine ⟨?_,?_,?_,?_,?_⟩
  · intro key priority fingerprint admitted ignored faults s' r taken answered t later
    exact keeps s' (Server.step_durable durable taken) r
      (Server.acknowledged_recorded durable taken answered) t later
  · rintro r ⟨⟨row,accepted⟩,record,found⟩
    rw [(durable.settled found).absent] at accepted
    cases accepted
  · intro r record found
    refine ⟨fun t later => past r record found t later,?_⟩
    intro t later
    obtain ⟨absent,same⟩ := past r record found t (later.mono fun _ _ _ => trivial)
    obtain ⟨row,accepted⟩ | ⟨after,here⟩ := keeps s durable r (.inr ⟨record,found⟩) t later
    · rw [absent] at accepted
      cases accepted
    · rw [← same after here]
      exact here
  · intro r record found interrupted t later q alive
    have held : t.Durable ∧ t.Forgotten r := by
      apply later.invariant fun t => t.Durable ∧ t.Forgotten r
      · exact ⟨durable,durable.swept r record found interrupted⟩
      · intro u a u' before _ taken
        exact ⟨Server.step_durable before.1 taken,
          Server.step_forgotten before.1 before.2 taken⟩
    have absent := held.2.absent q alive
    refine ⟨absent,?_,?_⟩
    · intro inside
      obtain ⟨job,object,_⟩ := (held.1.tracked q alive).pending r inside
      rw [absent] at object
      cases object
    · intro outcome
      unfold Queue.step Queue.runStep
      dsimp only
      rw [absent]
      rfl
  · intro key priority fingerprint admitted ignored faults s' taken refused
    exact Server.refused_unchanged taken refused

/-- A job is submitted, and the server dies and starts again. -/
def lostRun : List Server.Action :=
  [.restart 1 1 (le_refl 1) (le_refl 1),.serve sampleSubmit [],.crash .pause [] 0,
    .restart 1 1 (le_refl 1) (le_refl 1)]

theorem lostRun_interrupted : ∃ s, Transition.run Server.step {} lostRun = some s ∧
    s.store.history.get? 0 = some (interruptedRecord ⟨sampleKey,0,"content",.queued⟩) ∧
    ∀ t, Reachable Server.step s t → ∀ q, t.queue = some q → q.heap.get? 0 = none := by
  refine ⟨_,rfl,rfl,?_⟩
  intro t later q alive
  have ran : Transition.run Server.step {} lostRun = some _ := rfl
  exact ((job_durability (reachable_of_run ran)).2.2.2.1 0 _ rfl rfl t later q alive).1

end Dinkster.JobQueue
