import Dinkster.Workers.ResumeLedger

/-! A rebind write by write. The replay holds the send lock and reads a record again after each
write, so the moves of the host and the pump fall between any two of its frames; a record that is
dropped meanwhile is still the one at hand. -/
namespace Dinkster.Workers.Resume
open Json Fallible Transition

/-- What a rebind writes, with the part of the record it is. -/
inductive Item
  | response (frame : Frame)
  | memoryReport (frame : Frame)
  | reserve (key : InvocationKey) (frame : Frame)
  | control (key : InvocationKey) (frame : Frame)
  | event (key : InvocationKey) (frame : Frame)
  | result (key : InvocationKey) (frame : Frame)
  | release (key : InvocationKey) (frame : Frame)

/-- Where the replay of one record goes on. The controls are iterated by their number when the
iteration began and a position. -/
inductive Stage
  | reserve
  | controls
  | control (size position : Nat)
  | event
  | result
  | release
  | done

/-- What comes next of one record; a control that is added ends the iteration with an error. -/
inductive Emitted
  | write (item : Item) (stage : Stage)
  | passed
  | raised

section Emit

variable (key : InvocationKey) (record : Record) (last : Nat)

def emitRelease : Emitted :=
  match record.release with
  | some frame => .write (.release key frame) .done
  | none => .passed

def emitResult : Emitted :=
  match record.result with
  | some frame => .write (.result key frame) .release
  | none => emitRelease key record

def emitEvent : Emitted :=
  match record.latestEvent with
  | some frame =>
    if last < record.eventSeq then .write (.event key frame) .result else emitResult key record
  | none => emitResult key record

def emitControl (size position : Nat) : Emitted :=
  if record.controls.entries.length ≠ size then .raised
  else
    match record.controls.entries[position]? with
    | some control => .write (.control key control.2) (.control size (position + 1))
    | none => emitEvent key record last

def emitReserve : Emitted :=
  match record.reserve with
  | some frame => .write (.reserve key frame) .controls
  | none => emitControl key record last record.controls.entries.length 0

def emit : Stage → Emitted
  | .reserve => emitReserve key record last
  | .controls => emitControl key record last record.controls.entries.length 0
  | .control size position => emitControl key record last size position
  | .event => emitEvent key record last
  | .result => emitResult key record
  | .release => emitRelease key record
  | .done => .passed

end Emit

/-- The record at hand; `gone` is the record once it is no longer held. -/
structure Turn where
  key : InvocationKey
  gone : Option Record
  stage : Stage

def Turn.record (t : Turn) (c : Conversation) : Option Record := t.gone.or (c.records.get? t.key)

/-- `known` are the invocations that were held when the rebind was planned. -/
structure Plan where
  epoch : Nat
  response : Object
  known : List InvocationKey
  requested : List InvocationKey
  lastEventSequences : Dict InvocationKey Nat

structure Replay where
  plan : Plan
  todo : List InvocationKey
  turn : Option Turn
  reported : Bool

/-- `last_event_sequences.get(key, 0)` -/
def Replay.last (r : Replay) (key : InvocationKey) : Nat :=
  (r.plan.lastEventSequences.get? key).getD 0

inductive Outcome
  | write (item : Item) (r : Replay)
  | done
  | raised

def Replay.reach (c : Conversation) (r : Replay) : List InvocationKey → Outcome
  | [] => .done
  | key :: rest =>
    match c.records.get? key with
    | none => reach c r rest
    | some record =>
      match emit key record (r.last key) .reserve with
      | .write item stage => .write item { r with todo := rest, turn := some ⟨key,none,stage⟩ }
      | .passed => reach c r rest
      | .raised => .raised

/-- `complete_rebind` from one write to the next, after the memory report. -/
def Replay.proceed (c : Conversation) (r : Replay) : Outcome :=
  match r.turn with
  | none => r.reach c r.todo
  | some t =>
    match t.record c with
    | none => r.reach c r.todo
    | some record =>
      match emit t.key record (r.last t.key) t.stage with
      | .write item stage => .write item { r with turn := some { t with stage := stage } }
      | .passed => r.reach c r.todo
      | .raised => .raised

def Replay.next (c : Conversation) (r : Replay) : Outcome :=
  if r.reported then r.proceed c
  else
    match c.latestMemoryReport with
    | some frame => .write (.memoryReport frame) { r with reported := true }
    | none => Replay.proceed c { r with reported := true }

/-- The record at hand is kept when a move drops it. -/
def Replay.follow (before after : Conversation) (r : Replay) : Replay :=
  { r with turn := r.turn.map fun t =>
      if t.gone.isNone && (after.records.get? t.key).isNone then
        { t with gone := before.records.get? t.key }
      else t }

/-- A conversation whose host handles rebinds: `plan` waits for the lock and `replay` holds it.
`written` is what the rebind has written, `sent` what senders go on to write meanwhile. -/
structure Session where
  conversation : Conversation
  plan : Option Plan
  replay : Option Replay
  written : List Item
  sent : List Frame

def Session.new (engineInstanceId label workerInstance : String) (grace now : ℚ) : Session :=
  ⟨.new engineInstanceId label workerInstance grace now,none,none,[],[]⟩

def lastEventSequences (header : Object) : Dict InvocationKey Nat :=
  match header.get? "invocations" with
  | some (.arr raw) =>
    match Conversation.readEntries [] raw with
    | .ok entries => .ofList (entries.map fun e => (e.key,e.lastEventSeq))
    | .error _ => .empty
  | _ => .empty

/-- `plan_rebind` with the last event sequences that the host reads from the same header. -/
def planOf (c : Conversation) (header : Object) (rebind : Conversation.Rebind) : Plan :=
  ⟨c.ownerEpoch,rebind.response,c.records.keys,rebind.requested,lastEventSequences header⟩

inductive Deed
  | move (m : Move)
  | plan (header : Object)
  | begin
  | written
  | lost

def Move.ofReplay (underWay : Bool) : Move → Bool
  | .rebind _ => true
  | .written | .writeLost => underWay
  | _ => false

def Move.outgoing (py : Builtins) (c : Conversation) : Move → Option Frame
  | .send frame =>
    match (c.send py frame).2 with
    | .write f => some f
    | _ => none
  | _ => none

namespace Session

/-- The rebind takes the lock and writes its response, unless the conversation is closed, has no
stream or has another owner by now. -/
def start (s : Session) (p : Plan) : Session :=
  let c := s.conversation.rebindLocked p.epoch
  match c.sendLock with
  | some _ => ⟨c,none,some ⟨p,p.requested,none,false⟩,[.response ⟨p.response,[]⟩],[]⟩
  | none => { s with plan := none }

def step (py : Builtins) (s : Session) : Deed → Option Session
  | .move m =>
    if m.ofReplay s.replay.isSome then none
    else (Resume.step py s.conversation m).map fun c => { s with
      conversation := c
      replay := s.replay.map (Replay.follow s.conversation c)
      sent := s.sent ++ (m.outgoing py s.conversation).toList }
  | .plan header =>
    if s.plan.isSome || s.replay.isSome then none
    else
      match s.conversation.planRebind header with
      | .error _ => some s
      | .ok rebind => some { s with plan := some (planOf s.conversation header rebind) }
  | .begin =>
    match s.plan with
    | none => none
    | some p => if s.conversation.sendLock.isSome then none else some (s.start p)
  | .written =>
    match s.replay with
    | none => none
    | some r =>
      match r.next s.conversation with
      | .write item r => some { s with replay := some r, written := s.written ++ [item] }
      | .done => (Resume.step py s.conversation .written).map fun c =>
          { s with conversation := c, replay := none }
      | .raised => (Resume.step py s.conversation .writeLost).map fun c =>
          { s with conversation := c, replay := none }
  | .lost =>
    match s.replay with
    | none => none
    | some _ => (Resume.step py s.conversation .writeLost).map fun c =>
        { s with conversation := c, replay := none }

end Session

end Dinkster.Workers.Resume
