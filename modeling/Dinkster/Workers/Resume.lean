import Dinkster.Lib.Dict
import Dinkster.Lib.Fallible
import Dinkster.Lib.JsonObject
import Dinkster.Workers.Relay
import Mathlib

/-! A conversation between the daemon and one engine that outlives its physical streams. The send
lock is held across writes, and everything between two awaits is one move. -/
namespace Dinkster.Workers.Resume
open Json Fallible

inductive Raised
  | boundary (message : String)
  | connection (message : String)
  | runtime (message : String)
  deriving DecidableEq

structure Frame where
  header : Object
  blobs : List (List UInt8)

/-- `header.get("type") == kind` -/
def Frame.isA (frame : Frame) (kind : String) : Bool :=
  match frame.header.get? "type" with
  | some (.str s) => s == kind
  | _ => false

/-- `{**header, field: v}` -/
def withField (header : Object) (field : String) (v : Json.Value) : Object :=
  if (header.get? field).isSome then header.map fun e => if e.1 = field then (field,v) else e
  else header ++ [(field,v)]

def withFields (header : Object) (fields : Object) : Object :=
  fields.foldl (fun h e => withField h e.1 e.2) header

mutual

/-- `allow_nan=False` -/
def finite : Json.Value → Bool
  | .float t => t.finite
  | .arr items => finiteItems items
  | .obj members => finiteMembers members
  | _ => true

def finiteItems : List Json.Value → Bool
  | [] => true
  | v :: vs => finite v && finiteItems vs

def finiteMembers : List (String × Json.Value) → Bool
  | [] => true
  | e :: es => finite e.2 && finiteMembers es

end

/-- `_retained_frame_bytes`; the text is ASCII, so its length is its size. -/
def retainedFrameBytes (frame : Frame) : Except Raised Nat :=
  let sizes := frame.blobs.map List.length
  let whole := withField frame.header "blobs" (.arr (sizes.map fun n => .int n))
  if finite (.obj whole) then .ok ((text .compact (.obj whole)).length + sizes.sum)
  else .error (.boundary "frame header is not strict JSON")

structure InvocationKey where
  jobRef : String
  attemptId : Int
  invocationId : String
  job_named : jobRef ≠ ""
  attempt_positive : 1 ≤ attemptId
  invocation_named : invocationId ≠ ""

instance : DecidableEq InvocationKey := fun a b =>
  decidable_of_iff (a.jobRef = b.jobRef ∧ a.attemptId = b.attemptId ∧
    a.invocationId = b.invocationId) ⟨by cases a; cases b; simp,by rintro rfl; simp⟩

def identityText (header : Object) (field : String) : Except Raised {s : String // s ≠ ""} :=
  let error := .boundary ("invocation identity " ++ field ++ " must be a non-empty string")
  match header.get? field with
  | some (.str s) => if named : s ≠ "" then .ok ⟨s,named⟩ else .error error
  | _ => .error error

def identityAttempt (header : Object) : Except Raised {n : Int // 1 ≤ n} :=
  let error := .boundary "invocation identity attemptId must be a positive integer"
  match header.get? "attemptId" with
  | some (.int n) => if positive : 1 ≤ n then .ok ⟨n,positive⟩ else .error error
  | _ => .error error

def InvocationKey.fromHeader (header : Object) : Except Raised InvocationKey := do
  let jobRef ← identityText header "jobRef"
  let attemptId ← identityAttempt header
  let invocationId ← identityText header "invocationId"
  return ⟨jobRef,attemptId,invocationId,jobRef.2,attemptId.2,invocationId.2⟩

def InvocationKey.toWire (key : InvocationKey) : Object :=
  [("jobRef",.str key.jobRef),("attemptId",.int key.attemptId),
    ("invocationId",.str key.invocationId)]

inductive RecordState
  | running
  | completed
  deriving DecidableEq

def RecordState.text : RecordState → String
  | .running => "running"
  | .completed => "completed"

/-- `_Record` -/
structure Record where
  key : InvocationKey
  state : RecordState
  eventSeq : Nat
  latestEvent : Option Frame
  controls : Dict String Frame
  reserve : Option Frame
  result : Option Frame
  release : Option Frame
  resultBytes : Nat
  eventBytes : Nat
  hadReservation : Bool

def Record.fresh (key : InvocationKey) : Record :=
  { key := key
    state := .running
    eventSeq := 0
    latestEvent := none
    controls := .empty
    reserve := none
    result := none
    release := none
    resultBytes := 0
    eventBytes := 0
    hadReservation := false }

def maxResumableInvocations : Nat := 1024
def maxRetainedResultBytes : Int := 512 * 1024 * 1024
def maxRetainedEventBytes : Int := 64 * 1024 * 1024

abbrev Stream := Nat

/-- Who holds the send lock across a write. -/
inductive Holder
  | attaching (stream : Stream) (resumed : Bool)
  | sending (stream : Stream) (frame : Frame)
  | rebinding (stream : Stream)

/-- `ResumableConversation`; a pump is its stream and epoch, a running expiry its epoch. In the
queue `none` ends the reading; `ending` lasts from the closing until it is put. -/
structure Conversation where
  engineInstanceId : String
  label : String
  workerInstance : String
  grace : ℚ
  lastActivity : ℚ
  ownerEpoch : Nat
  incoming : List (Option (Nat × Frame))
  physicalWriter : Option Stream
  pumpTask : Option (Stream × Nat)
  expiryTask : Option Nat
  sendLock : Option Holder
  hello : Option Frame
  latestMemoryReport : Option Frame
  records : Dict InvocationKey Record
  keysByInvocation : Dict String InvocationKey
  retainedResultBytes : Int
  retainedEventBytes : Int
  rebindReady : Bool
  hostStarted : Bool
  closed : Bool
  ending : Bool

namespace Conversation

def new (engineInstanceId label workerInstance : String) (grace now : ℚ) : Conversation :=
  { engineInstanceId := engineInstanceId
    label := label
    workerInstance := workerInstance
    grace := grace
    lastActivity := now
    ownerEpoch := 0
    incoming := []
    physicalWriter := none
    pumpTask := none
    expiryTask := none
    sendLock := none
    hello := none
    latestMemoryReport := none
    records := .empty
    keysByInvocation := .empty
    retainedResultBytes := 0
    retainedEventBytes := 0
    rebindReady := false
    hostStarted := false
    closed := false
    ending := false }

def connected (c : Conversation) : Bool := c.physicalWriter.isSome && !c.closed

def hasRecords (c : Conversation) : Bool := !c.records.entries.isEmpty

def startHost (c : Conversation) : Conversation :=
  { c with hostStarted := true, rebindReady := true }

def closedError : Raised := .runtime "resumable conversation is closed"

/-- The part of `attach` from the lock to its first write; the old pump is cancelled. -/
def takeOver (c : Conversation) (now : ℚ) (stream : Stream) (resumed : Bool) : Conversation :=
  { c with
    lastActivity := now
    ownerEpoch := c.ownerEpoch + 1
    expiryTask := none
    physicalWriter := some stream
    pumpTask := none
    sendLock := some (.attaching stream resumed)
    rebindReady := !resumed }

/-- `attach` after `resumeAccepted` is written; a resumed stream is also sent the hello. -/
def attached (c : Conversation) (stream : Stream) (resumed : Bool) :
    Conversation × Except Raised Unit :=
  if resumed && c.hello.isNone then
    ({ c with sendLock := none },.error (.runtime "resumable conversation has no cached hello"))
  else ({ c with pumpTask := some (stream,c.ownerEpoch), sendLock := none },.ok ())

/-- `detach` under the lock, and whether it goes on to close the conversation. -/
def detach (c : Conversation) (epoch : Nat) : Conversation × Bool :=
  if epoch ≠ c.ownerEpoch ∨ c.closed then (c,false)
  else if !c.hasRecords ∨ c.grace = 0 then
    ({ c with physicalWriter := none, rebindReady := false },true)
  else
    ({ c with
      physicalWriter := none
      rebindReady := false
      expiryTask := c.expiryTask.or (some epoch) },false)

def close (c : Conversation) : Conversation :=
  if c.closed then c
  else { c with
    closed := true
    ending := true
    expiryTask := none
    pumpTask := none
    physicalWriter := none }

def register (c : Conversation) (header : Object) : Except Raised Conversation := do
  let key ← InvocationKey.fromHeader header
  refuseIf (key ∈ c.records.keys ∨ key.invocationId ∈ c.keysByInvocation.keys)
    (.boundary "duplicate resumable invocation identity")
  refuseIf (maxResumableInvocations ≤ c.records.entries.length)
    (.boundary "resumable invocation capacity exhausted")
  return { c with
    records := c.records.set key (.fresh key)
    keysByInvocation := c.keysByInvocation.set key.invocationId key }

/-- One frame that `_pump` reads. It ends when the frame is not its own any more or is refused;
registering an invocation and queueing its frame is one move. -/
def pump (c : Conversation) (now : ℚ) (epoch : Nat) (frame : Frame) : Conversation :=
  let c := { c with lastActivity := now }
  let ended := { c with pumpTask := none }
  if epoch ≠ c.ownerEpoch ∨ c.closed then ended
  else if frame.isA "invoke" then
    match c.register frame.header with
    | .ok c => { c with incoming := c.incoming ++ [some (epoch,frame)] }
    | .error _ => ended
  else { c with incoming := c.incoming ++ [some (epoch,frame)] }

/-- One round of `read`: what it returns, if it does, and the queue afterwards. -/
def read (c : Conversation) : Option (Option (Option Frame) × Conversation) :=
  match c.incoming with
  | [] => none
  | none :: rest => some (some none,{ c with incoming := rest })
  | some (epoch,frame) :: rest =>
    some (if epoch = c.ownerEpoch then some (some frame) else none,{ c with incoming := rest })

def keyForInvocation (c : Conversation) (invocationId : String) : Option InvocationKey :=
  c.keysByInvocation.get? invocationId

def recordForFrame (c : Conversation) (py : Builtins) (header : Object) : Option Record :=
  let rawId := (header.get? "invocationId").getD ((header.get? "requestId").getD .null)
  (c.keyForInvocation (py.str rawId)).bind c.records.get?

def setRecord (c : Conversation) (record : Record) : Conversation :=
  { c with records := c.records.set record.key record }

def dropRecord (c : Conversation) (key : InvocationKey) : Conversation :=
  let c' := { c with
    records := c.records.erase key
    keysByInvocation := c.keysByInvocation.erase key.invocationId }
  match c.records.get? key with
  | none => c'
  | some record => { c' with
    retainedResultBytes := c.retainedResultBytes - record.resultBytes
    retainedEventBytes := c.retainedEventBytes - record.eventBytes }

def grantReceived (c : Conversation) (py : Builtins) (invocationId : Json.Value) : Conversation :=
  match c.recordForFrame py [("requestId",invocationId)] with
  | none => c
  | some record => c.setRecord { record with reserve := none }

def acknowledgeResult (c : Conversation) (header : Object) : Except Raised Conversation := do
  let key ← InvocationKey.fromHeader header
  match c.records.get? key with
  | none => .error (.boundary "result acknowledgement names no resumable invocation")
  | some record =>
    refuseIf record.result.isNone (.boundary "result acknowledgement precedes the result")
    refuseIf (record.hadReservation ∧ record.release.isNone)
      (.boundary "result acknowledgement precedes memory release")
    return c.dropRecord key

def finishCancelled (c : Conversation) (py : Builtins) (invocationId : Json.Value) : Conversation :=
  match c.keyForInvocation (py.str invocationId) with
  | none => c
  | some key => c.dropRecord key

/-- What `send` goes on with: the frame to write, a refusal, or a closing with its refusal. -/
inductive Outgoing
  | write (frame : Frame)
  | raised (error : Raised)
  | closing (error : Raised)

def sendEvent (c : Conversation) (record : Record) (frame : Frame) : Conversation × Outgoing :=
  let record := { record with eventSeq := record.eventSeq + 1 }
  let body := withField (withFields frame.header record.key.toWire) "eventSeq" (.int record.eventSeq)
  let frame := { frame with header := body }
  if !frame.blobs.isEmpty then (c.setRecord record,.write frame)
  else
    match retainedFrameBytes frame with
    | .error e => (c.setRecord record,.raised e)
    | .ok retained =>
      if c.retainedEventBytes - record.eventBytes + retained ≤ maxRetainedEventBytes then
        ({ c.setRecord { record with latestEvent := some frame, eventBytes := retained } with
          retainedEventBytes := c.retainedEventBytes + (retained - record.eventBytes) },
          .write frame)
      else
        ({ c.setRecord { record with latestEvent := none, eventBytes := 0 } with
          retainedEventBytes := c.retainedEventBytes - record.eventBytes },.write frame)

def sendControl (c : Conversation) (record : Record) (frame : Frame) : Conversation × Outgoing :=
  let malformed := .raised (.boundary "run control request identity is malformed")
  match frame.header.get? "requestId" with
  | some (.str requestId) =>
    if requestId = "" then (c,malformed)
    else (c.setRecord { record with controls := record.controls.set requestId frame },.write frame)
  | _ => (c,malformed)

def sendResult (c : Conversation) (record : Record) (frame : Frame) : Conversation × Outgoing :=
  match retainedFrameBytes frame with
  | .error e => (c,.raised e)
  | .ok retained =>
    if maxRetainedResultBytes < c.retainedResultBytes - record.resultBytes + retained then
      (c,.closing (.boundary "resumable result retention capacity exhausted"))
    else
      ({ c.setRecord { record with
          state := .completed
          result := some frame
          resultBytes := retained } with
        retainedResultBytes := c.retainedResultBytes + (retained - record.resultBytes) },
        .write frame)

/-- `send` until it waits for the lock. -/
def send (c : Conversation) (py : Builtins) (frame : Frame) : Conversation × Outgoing :=
  if c.closed then (c,.raised (.connection "resumable conversation is closed"))
  else if frame.isA "hello" then ({ c with hello := some frame },.write frame)
  else if frame.isA "memoryReport" then ({ c with latestMemoryReport := some frame },.write frame)
  else
    match c.recordForFrame py frame.header with
    | none => (c,.write frame)
    | some record =>
      let keyed := { frame with header := withFields frame.header record.key.toWire }
      if frame.isA "invocationEvent" then c.sendEvent record frame
      else if frame.isA "memoryReserve" then
        (c.setRecord { record with hadReservation := true, reserve := some keyed },.write keyed)
      else if frame.isA "memoryRelease" then
        (c.setRecord { record with release := some keyed },.write keyed)
      else if frame.isA "runControl" then c.sendControl record keyed
      else if frame.isA "result" then c.sendResult record keyed
      else (c,.write frame)

def sendLocked (c : Conversation) (frame : Frame) : Conversation :=
  match c.physicalWriter with
  | none => c
  | some writer =>
    if !c.closed && (c.rebindReady || frame.isA "hello") then
      { c with sendLock := some (.sending writer frame) }
    else c

/-- One entry of a rebind: the identity, the last event seen and whether it is cancelled. -/
structure RebindEntry where
  key : InvocationKey
  lastEventSeq : Nat
  cancelled : Bool

def rebindFields : List String :=
  ["jobRef","attemptId","invocationId","lastEventSeq","cancelled"]

def RebindEntry.fromWire (seen : List InvocationKey) : Json.Value → Except Raised RebindEntry
  | .obj entry => do
    refuseIf (¬ (entry.map (·.1)).toFinset = rebindFields.toFinset)
      (.boundary "rebind invocation entry has invalid fields")
    let key ← InvocationKey.fromHeader entry
    refuseIf (key ∈ seen) (.boundary "rebind invocation identities must be unique")
    match Object.get? entry "lastEventSeq", Object.get? entry "cancelled" with
    | some (.int seq), some (.bool cancelled) =>
      refuseIf (seq < 0) (.boundary "rebind invocation state is malformed")
      return ⟨key,seq.toNat,cancelled⟩
    | _, _ => .error (.boundary "rebind invocation state is malformed")
  | _ => .error (.boundary "rebind invocation entry must be an object")

def readEntries : List InvocationKey → List Json.Value → Except Raised (List RebindEntry)
  | _, [] => .ok []
  | seen, raw :: rest => do
    let entry ← RebindEntry.fromWire seen raw
    let entries ← readEntries (seen ++ [entry.key]) rest
    return entry :: entries

def rebindStatus (c : Conversation) (entry : RebindEntry) : String :=
  match c.records.get? entry.key with
  | none => if entry.cancelled then "cancelled" else "missing"
  | some record => if entry.cancelled then "cancelled" else record.state.text

structure Rebind where
  response : Object
  requested : List InvocationKey
  cancellations : List InvocationKey

def planRebind (c : Conversation) (header : Object) : Except Raised Rebind := do
  let stale := .boundary "rebind owner epoch is stale"
  match header.get? "ownerEpoch" with
  | some (.int n) => refuseIf (n ≠ c.ownerEpoch) stale
  | _ => .error stale
  let unbounded := .boundary "rebind invocations must be a bounded list"
  match header.get? "invocations" with
  | some (.arr raw) =>
    refuseIf (maxResumableInvocations < raw.length) unbounded
    let entries ← readEntries [] raw
    refuseIf (¬ c.records.keys ⊆ entries.map (·.key))
      (.boundary "rebind omitted daemon invocation state")
    let held := entries.filter fun e => e.key ∈ c.records.keys
    return {
      response := [("type",.str "rebindResult"),("ownerEpoch",.int c.ownerEpoch),
        ("invocations",.arr (entries.map fun e =>
          .obj (withField e.key.toWire "status" (.str (c.rebindStatus e)))))]
      requested := held.map (·.key)
      cancellations := (held.filter (·.cancelled)).map (·.key) }
  | _ => .error unbounded

def rebindLocked (c : Conversation) (responseEpoch : Nat) : Conversation :=
  match c.physicalWriter with
  | none => c
  | some writer =>
    if !c.closed && responseEpoch = c.ownerEpoch then
      { c with sendLock := some (.rebinding writer) }
    else c

end Conversation

/-- What happens to a conversation between two awaits. Those from `attach` to `sendLocked` and
`rebind` need the lock; `granted`, `acknowledged` and `finished` come from the host. -/
inductive Move
  | attach (now : ℚ) (stream : Stream) (resumed : Bool)
  | attached
  | startHost
  | detach (epoch : Nat)
  | expire
  | close
  | sendLocked (frame : Frame)
  | rebind (responseEpoch : Nat)
  | written
  | writeLost
  | received (now : ℚ) (frame : Frame)
  | hungUp
  | ended
  | read
  | send (frame : Frame)
  | granted (invocationId : Json.Value)
  | acknowledged (header : Object)
  | finished (invocationId : Json.Value)

/-- An exception raised to the host leaves what was done before it; a write holds the lock, and
`written` and `writeLost` end it. -/
def step (py : Builtins) (c : Conversation) : Move → Option Conversation
  | .attach now stream resumed =>
    if c.sendLock.isSome || c.closed then none else some (c.takeOver now stream resumed)
  | .attached =>
    match c.sendLock with
    | some (.attaching stream resumed) => some (c.attached stream resumed).1
    | _ => none
  | .startHost => if c.closed then none else some c.startHost
  | .detach epoch => if c.sendLock.isSome then none else some (c.detach epoch).1
  | .expire =>
    match c.expiryTask with
    | none => none
    | some epoch =>
      if c.sendLock.isSome then none
      else if epoch = c.ownerEpoch ∧ c.physicalWriter.isNone then some c.close
      else some c
  | .close => if c.sendLock.isSome then none else some c.close
  | .sendLocked frame => if c.sendLock.isSome then none else some (c.sendLocked frame)
  | .rebind responseEpoch => if c.sendLock.isSome then none else some (c.rebindLocked responseEpoch)
  | .written =>
    match c.sendLock with
    | some (.sending _ _) => some { c with sendLock := none }
    | some (.rebinding _) => some { c with sendLock := none, rebindReady := true }
    | _ => none
  | .writeLost => if c.sendLock.isSome then some { c with sendLock := none } else none
  | .received now frame => c.pumpTask.map fun task => c.pump now task.2 frame
  | .hungUp => if c.pumpTask.isSome then some { c with pumpTask := none } else none
  | .ended =>
    if c.ending then some { c with ending := false, incoming := c.incoming ++ [none] } else none
  | .read => c.read.map (·.2)
  | .send frame => some (c.send py frame).1
  | .granted invocationId => some (c.grantReceived py invocationId)
  | .acknowledged header => some ((c.acknowledgeResult header).toOption.getD c)
  | .finished invocationId => some (c.finishCancelled py invocationId)

end Dinkster.Workers.Resume
