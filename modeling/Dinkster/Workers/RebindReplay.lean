import Dinkster.Workers.Rebind

/-! What a rebind replays: at most one event of an invocation, and every result and release that
is not acknowledged. An event is newer than the last one that the client has seen unless events
with blobs, which are not retained, came after it. -/
namespace Dinkster.Workers.Resume
open Json Fallible Transition

def Stage.rank : Stage → Nat
  | .reserve => 0
  | .controls | .control _ _ => 1
  | .event => 2
  | .result => 3
  | .release => 4
  | .done => 5

variable {key : InvocationKey} {record : Record} {last rank : Nat}

/-- From a rank on the record is written up to a stage, and no piece in between is left out. -/
structure Wrote (key : InvocationKey) (record : Record) (last rank : Nat) (item : Item)
    (stage : Stage) : Prop where
  later : rank ≤ stage.rank
  event : ∀ k f, item = .event k f → k = key ∧ rank ≤ 2 ∧ 2 < stage.rank ∧
    record.latestEvent = some f ∧ last < record.eventSeq
  result : rank ≤ 3 → 3 < stage.rank → ∀ f, record.result = some f → item = .result key f
  release : rank ≤ 4 → 4 < stage.rank → ∀ f, record.release = some f → item = .release key f

structure Passed (record : Record) (rank : Nat) : Prop where
  result : rank ≤ 3 → record.result = none
  release : rank ≤ 4 → record.release = none

def Emits (key : InvocationKey) (record : Record) (last rank : Nat) : Emitted → Prop
  | .write item stage => Wrote key record last rank item stage
  | .passed => Passed record rank
  | .raised => True

theorem emits_earlier {early : Nat} {out : Emitted} (emits : Emits key record last rank out)
    (before : early ≤ rank) (result : early ≤ 3 → ¬ rank ≤ 3 → record.result = none)
    (release : early ≤ 4 → ¬ rank ≤ 4 → record.release = none) :
    Emits key record last early out := by
  cases out with
  | raised => trivial
  | passed =>
    refine ⟨fun low => ?_,fun low => ?_⟩
    · by_cases still : rank ≤ 3
      · exact emits.result still
      · exact result low still
    · by_cases still : rank ≤ 4
      · exact emits.release still
      · exact release low still
  | write item stage =>
    refine ⟨before.trans emits.later,?_,fun low high f retained => ?_,
      fun low high f retained => ?_⟩
    · intro k f same
      obtain ⟨named,low,rest⟩ := emits.event k f same
      exact ⟨named,before.trans low,rest⟩
    · by_cases still : rank ≤ 3
      · exact emits.result still high f retained
      · rw [result low still] at retained
        cases retained
    · by_cases still : rank ≤ 4
      · exact emits.release still high f retained
      · rw [release low still] at retained
        cases retained

theorem emitRelease_emits (key : InvocationKey) (record : Record) (last : Nat) :
    Emits key record last 4 (emitRelease key record) := by
  unfold emitRelease
  cases retained : record.release with
  | none => exact ⟨fun low => absurd low (by decide),fun _ => retained⟩
  | some frame =>
    refine ⟨by decide,nofun,fun low => absurd low (by decide),fun _ _ f same => ?_⟩
    rw [Option.some.inj (retained.symm.trans same)]

theorem emitResult_emits (key : InvocationKey) (record : Record) (last : Nat) :
    Emits key record last 3 (emitResult key record) := by
  unfold emitResult
  cases retained : record.result with
  | none =>
    exact emits_earlier (emitRelease_emits key record last) (by decide) (fun _ _ => retained)
      fun _ high => absurd (Nat.le_refl 4) high
  | some frame =>
    refine ⟨by decide,nofun,fun _ _ f same => ?_,fun _ high => absurd high (by decide)⟩
    rw [Option.some.inj (retained.symm.trans same)]

theorem emitEvent_emits (key : InvocationKey) (record : Record) (last : Nat) :
    Emits key record last 2 (emitEvent key record last) := by
  have rest : Emits key record last 2 (emitResult key record) :=
    emits_earlier (emitResult_emits key record last) (by decide)
      (fun _ high => absurd (Nat.le_refl 3) high) fun _ high => absurd (by decide) high
  unfold emitEvent
  cases retained : record.latestEvent with
  | none => exact rest
  | some frame =>
    dsimp only
    split
    · rename_i newer
      refine ⟨by decide,?_,fun _ high => absurd high (by decide),
        fun _ high => absurd high (by decide)⟩
      intro k f same
      obtain ⟨rfl,rfl⟩ := Item.event.inj same
      exact ⟨rfl,Nat.le_refl 2,by decide,retained,newer⟩
    · exact rest

theorem emitControl_emits (key : InvocationKey) (record : Record) (last size position : Nat) :
    Emits key record last 1 (emitControl key record last size position) := by
  unfold emitControl
  split
  · trivial
  · split
    · exact ⟨Nat.le_refl 1,nofun,fun _ high => absurd high (by simp [Stage.rank]),
        fun _ high => absurd high (by simp [Stage.rank])⟩
    · exact emits_earlier (emitEvent_emits key record last) (by decide)
        (fun _ high => absurd (by decide) high) fun _ high => absurd (by decide) high

theorem emit_emits (key : InvocationKey) (record : Record) (last : Nat) (stage : Stage) :
    Emits key record last stage.rank (emit key record last stage) := by
  cases stage with
  | reserve =>
    unfold emit emitReserve
    dsimp only
    split
    · exact ⟨by decide,nofun,fun _ high => absurd high (by decide),
        fun _ high => absurd high (by decide)⟩
    · exact emits_earlier (emitControl_emits key record last _ 0) (by decide)
        (fun _ high => absurd (by decide) high) fun _ high => absurd (by decide) high
  | controls => exact emitControl_emits key record last _ 0
  | control size position => exact emitControl_emits key record last size position
  | event => exact emitEvent_emits key record last
  | result => exact emitResult_emits key record last
  | release => exact emitRelease_emits key record last
  | done => exact ⟨fun low => absurd low (by decide),fun low => absurd low (by decide)⟩

variable {c c' : Conversation} {r r' : Replay} {item : Item}

def Clear (c : Conversation) (keys : List InvocationKey) : Prop :=
  ∀ key ∈ keys, ∀ record, c.records.get? key = some record → Passed record 0

def Left (c : Conversation) (r : Replay) : Prop :=
  ∀ t, r.turn = some t → ∀ record, t.record c = some record → Passed record t.stage.rank

/-- The next write is the memory report, goes on in the record at hand, or begins another one. -/
inductive Advance (c : Conversation) (r : Replay) (item : Item) (r' : Replay) : Prop
  | report (frame : Frame) (wrote : item = .memoryReport frame) (plan : r'.plan = r.plan)
      (todo : r'.todo = r.todo) (turn : r'.turn = r.turn)
  | within {t : Turn} {record : Record} {stage : Stage} (hand : r.turn = some t)
      (found : t.record c = some record)
      (wrote : Wrote t.key record (r.last t.key) t.stage.rank item stage) (plan : r'.plan = r.plan)
      (todo : r'.todo = r.todo) (turn : r'.turn = some { t with stage := stage })
  | reached {skipped : List InvocationKey} {key : InvocationKey} {record : Record} {stage : Stage}
      (left : Left c r) (split : r.todo = skipped ++ key :: r'.todo) (clear : Clear c skipped)
      (found : c.records.get? key = some record)
      (wrote : Wrote key record (r.last key) 0 item stage) (plan : r'.plan = r.plan)
      (turn : r'.turn = some ⟨key,none,stage⟩)

theorem reach_write (keys : List InvocationKey) (wrote : r.reach c keys = .write item r') :
    ∃ skipped key rest record stage, keys = skipped ++ key :: rest ∧ Clear c skipped ∧
      c.records.get? key = some record ∧ Wrote key record (r.last key) 0 item stage ∧
      r' = { r with todo := rest, turn := some ⟨key,none,stage⟩ } := by
  induction keys with
  | nil => cases wrote
  | cons key rest ih =>
    have skip (clear : ∀ record, c.records.get? key = some record → Passed record 0)
        (later : r.reach c rest = .write item r') :
        ∃ skipped k rest' record stage, key :: rest = skipped ++ k :: rest' ∧ Clear c skipped ∧
          c.records.get? k = some record ∧ Wrote k record (r.last k) 0 item stage ∧
          r' = { r with todo := rest', turn := some ⟨k,none,stage⟩ } := by
      obtain ⟨skipped,k,rest',record,stage,split,others,found,spec,same⟩ := ih later
      refine ⟨key :: skipped,k,rest',record,stage,by rw [split]; rfl,?_,found,spec,same⟩
      intro other inside
      obtain rfl | inside := List.mem_cons.mp inside
      · exact clear
      · exact others other inside
    unfold Replay.reach at wrote
    cases found : c.records.get? key with
    | none =>
      rw [found] at wrote
      refine skip (fun record held => ?_) wrote
      rw [found] at held
      cases held
    | some record =>
      rw [found] at wrote
      dsimp only at wrote
      have emits := emit_emits key record (r.last key) .reserve
      cases out : emit key record (r.last key) .reserve with
      | write item' stage =>
        rw [out] at wrote emits
        obtain ⟨rfl,rfl⟩ := Outcome.write.inj wrote
        exact ⟨[],key,rest,record,stage,rfl,fun _ inside => absurd inside List.not_mem_nil,
          found,emits,rfl⟩
      | passed =>
        rw [out] at wrote emits
        refine skip (fun record' held => ?_) wrote
        obtain rfl := Option.some.inj (found.symm.trans held)
        exact emits
      | raised =>
        rw [out] at wrote
        cases wrote

theorem reach_done (keys : List InvocationKey) (done : r.reach c keys = .done) :
    Clear c keys := by
  induction keys with
  | nil => exact fun _ inside => absurd inside List.not_mem_nil
  | cons key rest ih =>
    have skip (clear : ∀ record, c.records.get? key = some record → Passed record 0)
        (later : r.reach c rest = .done) : Clear c (key :: rest) := by
      intro other inside
      obtain rfl | inside := List.mem_cons.mp inside
      · exact clear
      · exact ih later other inside
    unfold Replay.reach at done
    cases found : c.records.get? key with
    | none =>
      rw [found] at done
      refine skip (fun record held => ?_) done
      rw [found] at held
      cases held
    | some record =>
      rw [found] at done
      dsimp only at done
      have emits := emit_emits key record (r.last key) .reserve
      cases out : emit key record (r.last key) .reserve with
      | write item' stage =>
        rw [out] at done
        cases done
      | passed =>
        rw [out] at done emits
        refine skip (fun record' held => ?_) done
        obtain rfl := Option.some.inj (found.symm.trans held)
        exact emits
      | raised =>
        rw [out] at done
        cases done

theorem proceed_cases (c : Conversation) (r : Replay) :
    (∀ item r', r.proceed c = .write item r' → Advance c r item r') ∧
      (r.proceed c = .done → Left c r ∧ Clear c r.todo) := by
  have begins (left : Left c r) : (∀ item r', r.reach c r.todo = .write item r' →
      Advance c r item r') ∧ (r.reach c r.todo = .done → Left c r ∧ Clear c r.todo) := by
    refine ⟨fun item r' wrote => ?_,fun done => ⟨left,reach_done r.todo done⟩⟩
    obtain ⟨skipped,key,rest,record,stage,todo,clear,found,spec,rfl⟩ := reach_write r.todo wrote
    exact .reached left todo clear found spec rfl rfl
  unfold Replay.proceed
  cases turn : r.turn with
  | none =>
    apply begins
    intro t held
    rw [turn] at held
    cases held
  | some t =>
    dsimp only
    cases hand : t.record c with
    | none =>
      apply begins
      intro t' held record found
      obtain rfl := Option.some.inj (turn.symm.trans held)
      rw [hand] at found
      cases found
    | some record =>
      dsimp only
      have emits := emit_emits t.key record (r.last t.key) t.stage
      cases out : emit t.key record (r.last t.key) t.stage with
      | write item' stage =>
        rw [out] at emits
        have spec : Wrote t.key record (r.last t.key) t.stage.rank item' stage := emits
        constructor
        · intro item r' wrote
          dsimp only at wrote
          obtain ⟨rfl,rfl⟩ := Outcome.write.inj wrote
          exact .within turn hand spec rfl rfl rfl
        · intro done
          cases done
      | passed =>
        rw [out] at emits
        apply begins
        intro t' held record' found
        obtain rfl := Option.some.inj (turn.symm.trans held)
        obtain rfl := Option.some.inj (hand.symm.trans found)
        exact emits
      | raised =>
        constructor
        · intro item r' wrote
          cases wrote
        · intro done
          cases done

private theorem advance_of_reported (advance : Advance c { r with reported := true } item r') :
    Advance c r item r' := by
  cases advance with
  | report frame wrote plan todo turn => exact .report frame wrote plan todo turn
  | within hand found wrote plan todo turn => exact .within hand found wrote plan todo turn
  | reached left split clear found wrote plan turn =>
    exact .reached left split clear found wrote plan turn

theorem next_write (wrote : r.next c = .write item r') : Advance c r item r' := by
  unfold Replay.next at wrote
  split at wrote
  · exact (proceed_cases c r).1 item r' wrote
  · split at wrote
    · rename_i frame _
      obtain ⟨rfl,rfl⟩ := Outcome.write.inj wrote
      exact .report frame rfl rfl rfl rfl
    · exact advance_of_reported ((proceed_cases c _).1 item r' wrote)

theorem next_done (done : r.next c = .done) : Left c r ∧ Clear c r.todo := by
  unfold Replay.next at done
  split at done
  · exact (proceed_cases c r).2 done
  · split at done
    · cases done
    · exact (proceed_cases c { r with reported := true }).2 done

end Dinkster.Workers.Resume
