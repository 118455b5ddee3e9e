import Dinkster.Workers.Resume

/-! The stream of a conversation: who holds the send lock, what is written to and what is pumped. -/
namespace Dinkster.Workers.Resume
open Json Fallible

namespace Conversation

/-- A stream that frames are written to or read from under the epoch of the owner. -/
def Feeds (c : Conversation) (stream : Stream) : Prop :=
  c.physicalWriter = some stream ∨ c.pumpTask = some (stream,c.ownerEpoch)

/-- A closed conversation has no stream, and a pump reads from the stream that is written to. -/
structure Shaped (c : Conversation) : Prop where
  ended : c.closed = true → c.sendLock = none ∧ c.physicalWriter = none ∧ c.pumpTask = none
  attaching : ∀ stream resumed, c.sendLock = some (.attaching stream resumed) →
    c.physicalWriter = some stream ∧ c.pumpTask = none
  pumped : ∀ stream epoch, c.pumpTask = some (stream,epoch) →
    ∀ writer, c.physicalWriter = some writer → writer = stream

structure SameStream (c c' : Conversation) : Prop where
  closed : c'.closed = c.closed
  sendLock : c'.sendLock = c.sendLock
  physicalWriter : c'.physicalWriter = c.physicalWriter
  pumpTask : c'.pumpTask = c.pumpTask

variable {c c' : Conversation} {py : Builtins}

theorem Shaped.same (shaped : c.Shaped) (same : SameStream c c') : c'.Shaped := by
  refine ⟨?_,?_,?_⟩
  · rw [same.closed,same.sendLock,same.physicalWriter,same.pumpTask]
    exact shaped.ended
  · rw [same.sendLock,same.physicalWriter,same.pumpTask]
    exact shaped.attaching
  · rw [same.physicalWriter,same.pumpTask]
    exact shaped.pumped

theorem Shaped.single (shaped : c.Shaped) {stream stream' : Stream} (feeds : c.Feeds stream)
    (feeds' : c.Feeds stream') : stream = stream' := by
  rcases feeds with writes | reads <;> rcases feeds' with writes' | reads'
  · exact Option.some.inj (writes.symm.trans writes')
  · exact shaped.pumped _ _ reads' _ writes
  · exact (shaped.pumped _ _ reads _ writes').symm
  · exact (Prod.mk.inj (Option.some.inj (reads.symm.trans reads'))).1

theorem new_shaped (engine label worker : String) (grace now : ℚ) :
    (new engine label worker grace now).Shaped := by
  refine ⟨?_,?_,?_⟩
  · intro closed
    cases closed
  · intro stream resumed held
    cases held
  · intro stream epoch pumps
    cases pumps

theorem Shaped.quieter (shaped : c.Shaped) (closed : c'.closed = c.closed)
    (lock : c'.sendLock = none) (writer : c'.physicalWriter = c.physicalWriter ∨
      c'.physicalWriter = none) (pump : c'.pumpTask = c.pumpTask ∨ c'.pumpTask = none) :
    c'.Shaped := by
  refine ⟨?_,?_,?_⟩
  · intro ended
    obtain ⟨_,noWriter,noPump⟩ := shaped.ended (closed ▸ ended)
    refine ⟨lock,?_,?_⟩
    · rcases writer with same | none
      · rw [same,noWriter]
      · exact none
    · rcases pump with same | none
      · rw [same,noPump]
      · exact none
  · intro stream resumed held
    rw [lock] at held
    cases held
  · intro stream epoch pumps writing writes
    rcases pump with same | none
    · rcases writer with same' | none
      · exact shaped.pumped stream epoch (same ▸ pumps) writing (same' ▸ writes)
      · rw [none] at writes
        cases writes
    · rw [none] at pumps
      cases pumps

structure Turn (c c' : Conversation) : Prop where
  shaped : c'.Shaped
  closed : c.closed = true → c'.closed = true
  attaching : ∀ stream resumed, c.sendLock = some (.attaching stream resumed) →
    c'.sendLock = some (.attaching stream resumed)

theorem Turn.same (shaped : c.Shaped) (same : SameStream c c') : Turn c c' :=
  ⟨shaped.same same,fun closed => same.closed.trans closed,
    fun _ _ held => same.sendLock.trans held⟩

theorem Turn.unlocked (shaped : c.Shaped)
    (other : ∀ stream resumed, c.sendLock ≠ some (.attaching stream resumed))
    (closed : c'.closed = c.closed) (lock : c'.sendLock = none)
    (writer : c'.physicalWriter = c.physicalWriter ∨ c'.physicalWriter = none)
    (pump : c'.pumpTask = c.pumpTask) : Turn c c' :=
  ⟨shaped.quieter closed lock writer (.inl pump),fun ended => closed.trans ended,
    fun stream resumed held => absurd held (other stream resumed)⟩

theorem close_turn (shaped : c.Shaped) (free : c.sendLock = none) : Turn c c.close := by
  unfold close
  split
  · exact .same shaped ⟨rfl,rfl,rfl,rfl⟩
  · refine ⟨⟨fun _ => ⟨free,rfl,rfl⟩,?_,?_⟩,fun _ => rfl,?_⟩
    · intro stream resumed held
      rw [free] at held
      cases held
    · intro stream epoch pumps
      cases pumps
    · intro stream resumed held
      rw [free] at held
      cases held

theorem close_closed (c : Conversation) : c.close.closed = true := by
  unfold close
  split
  · rename_i closed
    exact closed
  · rfl

theorem detach_turn (shaped : c.Shaped) (free : c.sendLock = none) (epoch : Nat) :
    Turn c (c.detach epoch).1 := by
  unfold detach
  split
  · exact .same shaped ⟨rfl,rfl,rfl,rfl⟩
  · have other (stream : Stream) (resumed : Bool) :
        c.sendLock ≠ some (.attaching stream resumed) := by
      rw [free]
      nofun
    split <;> exact .unlocked shaped other rfl free (.inr rfl) rfl

theorem Turn.write (shaped : c.Shaped) (free : c.sendLock = none) (open' : ¬ c.closed = true)
    {holder : Holder} (other : ∀ stream resumed, holder ≠ .attaching stream resumed) :
    Turn c { c with sendLock := some holder } := by
  refine ⟨⟨fun ended => absurd ended open',?_,shaped.pumped⟩,id,?_⟩
  · intro stream resumed held
    exact absurd (Option.some.inj held) (other stream resumed)
  · intro stream resumed held
    rw [free] at held
    cases held

theorem sendLocked_turn (shaped : c.Shaped) (free : c.sendLock = none) (frame : Frame) :
    Turn c (c.sendLocked frame) := by
  unfold sendLocked
  split
  · exact .same shaped ⟨rfl,rfl,rfl,rfl⟩
  · split
    · rename_i ready
      have opened : ¬ c.closed = true := by
        intro closed
        simp [closed] at ready
      exact .write shaped free opened fun _ _ => nofun
    · exact .same shaped ⟨rfl,rfl,rfl,rfl⟩

theorem rebindLocked_turn (shaped : c.Shaped) (free : c.sendLock = none) (epoch : Nat) :
    Turn c (c.rebindLocked epoch) := by
  unfold rebindLocked
  split
  · exact .same shaped ⟨rfl,rfl,rfl,rfl⟩
  · split
    · rename_i ready
      have opened : ¬ c.closed = true := by
        intro closed
        simp [closed] at ready
      exact .write shaped free opened fun _ _ => nofun
    · exact .same shaped ⟨rfl,rfl,rfl,rfl⟩

theorem pump_ends (shaped : c.Shaped) : Turn c { c with pumpTask := none } := by
  refine ⟨⟨?_,?_,?_⟩,id,fun _ _ held => held⟩
  · intro closed
    obtain ⟨lock,writer,_⟩ := shaped.ended closed
    exact ⟨lock,writer,rfl⟩
  · intro stream resumed held
    exact ⟨(shaped.attaching stream resumed held).1,rfl⟩
  · intro stream epoch pumps
    cases pumps

theorem pump_turn (shaped : c.Shaped) (now : ℚ) (epoch : Nat) (frame : Frame) :
    Turn c (c.pump now epoch frame) := by
  have seen : ({ c with lastActivity := now } : Conversation).Shaped :=
    shaped.same ⟨rfl,rfl,rfl,rfl⟩
  have ended : Turn c { c with lastActivity := now, pumpTask := none } := by
    have turn := pump_ends seen
    exact ⟨turn.shaped,turn.closed,turn.attaching⟩
  unfold pump
  dsimp only
  split
  · exact ended
  split
  · split
    · rename_i c' done
      obtain ⟨_,_,done⟩ := bind_ok.mp done
      obtain ⟨_,_,done⟩ := bind_ok.mp done
      obtain ⟨_,_,done⟩ := bind_ok.mp done
      cases done
      exact .same shaped ⟨rfl,rfl,rfl,rfl⟩
    · exact ended
  · exact .same shaped ⟨rfl,rfl,rfl,rfl⟩

theorem takeOver_shaped (open' : ¬ c.closed = true) (now : ℚ) (stream : Stream) (resumed : Bool) :
    (c.takeOver now stream resumed).Shaped := by
  refine ⟨fun closed => absurd closed open',?_,?_⟩
  · intro stream' resumed' held
    cases held
    exact ⟨rfl,rfl⟩
  · intro stream' epoch pumps
    cases pumps

theorem unlock_shaped (shaped : c.Shaped) : ({ c with sendLock := none } : Conversation).Shaped :=
  shaped.quieter rfl rfl (.inl rfl) (.inl rfl)

theorem attached_shaped (shaped : c.Shaped) {stream : Stream} {resumed : Bool}
    (held : c.sendLock = some (.attaching stream resumed)) :
    (c.attached stream resumed).1.Shaped := by
  unfold attached
  split
  · exact unlock_shaped shaped
  · refine ⟨?_,?_,?_⟩
    · intro closed
      have free := (shaped.ended closed).1
      rw [held] at free
      cases free
    · intro stream' resumed' taken
      cases taken
    · intro stream' epoch pumps writer writes
      obtain ⟨rfl,_⟩ := Prod.mk.inj (Option.some.inj pumps)
      exact Option.some.inj (writes.symm.trans (shaped.attaching _ _ held).1)

theorem attached_closed (c : Conversation) (stream : Stream) (resumed : Bool) :
    (c.attached stream resumed).1.closed = c.closed := by
  unfold attached
  split <;> rfl

theorem startHost_shaped (shaped : c.Shaped) : c.startHost.Shaped :=
  shaped.same ⟨rfl,rfl,rfl,rfl⟩

theorem sendEvent_stream (record : Record) (frame : Frame) :
    SameStream c (c.sendEvent record frame).1 := by
  unfold sendEvent
  dsimp only
  split
  · exact ⟨rfl,rfl,rfl,rfl⟩
  · split
    · exact ⟨rfl,rfl,rfl,rfl⟩
    · split <;> exact ⟨rfl,rfl,rfl,rfl⟩

theorem sendControl_stream (record : Record) (frame : Frame) :
    SameStream c (c.sendControl record frame).1 := by
  unfold sendControl
  dsimp only
  split
  · split <;> exact ⟨rfl,rfl,rfl,rfl⟩
  · exact ⟨rfl,rfl,rfl,rfl⟩

theorem sendResult_stream (record : Record) (frame : Frame) :
    SameStream c (c.sendResult record frame).1 := by
  unfold sendResult
  split
  · exact ⟨rfl,rfl,rfl,rfl⟩
  · split <;> exact ⟨rfl,rfl,rfl,rfl⟩

theorem send_stream (frame : Frame) : SameStream c (c.send py frame).1 := by
  have same : SameStream c c := ⟨rfl,rfl,rfl,rfl⟩
  unfold send
  split
  · exact same
  split
  · exact ⟨rfl,rfl,rfl,rfl⟩
  split
  · exact ⟨rfl,rfl,rfl,rfl⟩
  split
  · exact same
  · dsimp only
    split
    · exact sendEvent_stream _ _
    split
    · exact ⟨rfl,rfl,rfl,rfl⟩
    split
    · exact ⟨rfl,rfl,rfl,rfl⟩
    split
    · exact sendControl_stream _ _
    split
    · exact sendResult_stream _ _
    · exact same

theorem dropRecord_stream (key : InvocationKey) : SameStream c (c.dropRecord key) := by
  unfold dropRecord
  dsimp only
  split <;> exact ⟨rfl,rfl,rfl,rfl⟩

theorem grantReceived_stream (invocationId : Json.Value) :
    SameStream c (c.grantReceived py invocationId) := by
  unfold grantReceived
  split <;> exact ⟨rfl,rfl,rfl,rfl⟩

theorem finishCancelled_stream (invocationId : Json.Value) :
    SameStream c (c.finishCancelled py invocationId) := by
  unfold finishCancelled
  split
  · exact ⟨rfl,rfl,rfl,rfl⟩
  · exact dropRecord_stream _

theorem acknowledgeResult_stream {header : Object}
    (done : c.acknowledgeResult header = .ok c') : SameStream c c' := by
  obtain ⟨key,_,done⟩ := bind_ok.mp done
  cases found : c.records.get? key with
  | none => rw [found] at done; cases done
  | some record =>
    rw [found] at done
    obtain ⟨_,_,done⟩ := bind_ok.mp done
    obtain ⟨_,_,done⟩ := bind_ok.mp done
    cases done
    exact dropRecord_stream key

theorem read_stream {returned : Option (Option Frame)} (taken : c.read = some (returned,c')) :
    SameStream c c' := by
  unfold read at taken
  split at taken
  · cases taken
  · cases taken
    exact ⟨rfl,rfl,rfl,rfl⟩
  · cases taken
    exact ⟨rfl,rfl,rfl,rfl⟩

end Conversation

def outside (c : Conversation) : Move → Bool
  | .attach _ _ _ | .attached | .startHost => false
  | .writeLost =>
    match c.sendLock with
    | some (.attaching _ _) => false
    | _ => true
  | _ => true

open Conversation in
theorem outside_turn {py : Builtins} {c c' : Conversation} {m : Move} (shaped : c.Shaped)
    (other : outside c m) (taken : step py c m = some c') : Turn c c' := by
  have unlocked (lock : ¬ c.sendLock.isSome = true) : c.sendLock = none := by
    simpa using lock
  cases m with
  | attach | attached | startHost => cases other
  | detach epoch =>
    dsimp only [step] at taken
    split at taken
    · cases taken
    · rename_i lock
      cases taken
      exact detach_turn shaped (unlocked lock) epoch
  | expire =>
    dsimp only [step] at taken
    split at taken
    · cases taken
    split at taken
    · cases taken
    rename_i lock
    split at taken
    · cases taken
      exact close_turn shaped (unlocked lock)
    · cases taken
      exact .same shaped ⟨rfl,rfl,rfl,rfl⟩
  | close =>
    dsimp only [step] at taken
    split at taken
    · cases taken
    · rename_i lock
      cases taken
      exact close_turn shaped (unlocked lock)
  | sendLocked frame =>
    dsimp only [step] at taken
    split at taken
    · cases taken
    · rename_i lock
      cases taken
      exact sendLocked_turn shaped (unlocked lock) frame
  | rebind epoch =>
    dsimp only [step] at taken
    split at taken
    · cases taken
    · rename_i lock
      cases taken
      exact rebindLocked_turn shaped (unlocked lock) epoch
  | written =>
    dsimp only [step] at taken
    split at taken
    · rename_i lock
      cases taken
      exact .unlocked shaped (fun _ _ held => by rw [lock] at held; cases held) rfl rfl (.inl rfl) rfl
    · rename_i lock
      cases taken
      exact .unlocked shaped (fun _ _ held => by rw [lock] at held; cases held) rfl rfl (.inl rfl) rfl
    · cases taken
  | writeLost =>
    dsimp only [step] at taken
    split at taken
    · cases taken
      refine .unlocked shaped (fun stream resumed held => ?_) rfl rfl (.inl rfl) rfl
      unfold outside at other
      rw [held] at other
      cases other
    · cases taken
  | received now frame =>
    obtain ⟨task,_,rfl⟩ := Option.map_eq_some_iff.mp taken
    exact pump_turn shaped now task.2 frame
  | hungUp =>
    dsimp only [step] at taken
    split at taken
    · cases taken
      exact pump_ends shaped
    · cases taken
  | ended =>
    dsimp only [step] at taken
    split at taken
    · cases taken
      exact .same shaped ⟨rfl,rfl,rfl,rfl⟩
    · cases taken
  | read =>
    obtain ⟨⟨_,c'⟩,first,rfl⟩ := Option.map_eq_some_iff.mp taken
    exact .same shaped (read_stream first)
  | send frame =>
    cases taken
    exact .same shaped (send_stream frame)
  | granted invocationId =>
    cases taken
    exact .same shaped (grantReceived_stream invocationId)
  | acknowledged header =>
    cases taken
    cases done : c.acknowledgeResult header with
    | error e => exact .same shaped ⟨rfl,rfl,rfl,rfl⟩
    | ok c' => exact .same shaped (acknowledgeResult_stream done)
  | finished invocationId =>
    cases taken
    exact .same shaped (finishCancelled_stream invocationId)

end Dinkster.Workers.Resume
