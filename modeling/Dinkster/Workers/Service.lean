import Dinkster.Lib.Transition
import Dinkster.Workers.ServiceStreams

/-! The remote service: one engine owns the loaded pack, and its conversation may outlive its
streams. Connections are admitted one at a time under the admission lock; whatever a connection
awaits while it holds the lock is a phase of its own. -/
namespace Dinkster.Workers.Lease
open Json Fallible Resume

def protocolVersion : Int := 12

structure ClientHello where
  engineInstanceId : String
  label : String
  resumable : Bool
  resumeWorkerInstance : Option String
  payloadTransports : List String
  deriving DecidableEq

def malformed (what : String) : Raised := .boundary ("clientHello " ++ what)

def engineText (engine : Object) (field : String) : Except Raised String :=
  match engine.get? field with
  | some (.str s) =>
    if s = "" then .error (malformed ("engine " ++ field ++ " must be a non-empty string"))
    else .ok s
  | _ => .error (malformed ("engine " ++ field ++ " must be a non-empty string"))

def readResumable (engine : Object) : Except Raised Bool :=
  match (engine.get? "resumable").getD (.bool false) with
  | .bool b => .ok b
  | _ => .error (malformed "engine resumable must be a boolean")

def readResumeWorker (engine : Object) : Except Raised (Option String) :=
  match (engine.get? "resumeWorkerInstance").getD .null with
  | .null => .ok none
  | .str s =>
    if s = "" then .error (malformed "engine resumeWorkerInstance must be a non-empty string")
    else .ok (some s)
  | _ => .error (malformed "engine resumeWorkerInstance must be a non-empty string")

def readTransports (header : Object) : Except Raised (List String) :=
  match header.get? "payloadTransports" with
  | some (.arr items) =>
    match asStrings items with
    | none => .error (malformed "payloadTransports must be a list of strings")
    | some names =>
      if names.Nodup then .ok names else .error (malformed "payloadTransports must be unique")
  | _ => .error (malformed "payloadTransports must be a list of strings")

def ClientHello.fromHeader (header : Object) : Except Raised ClientHello :=
  match header.get? "engine" with
  | some (.obj engine) => do
    let engineInstanceId ← engineText engine "instanceId"
    let label ← engineText engine "label"
    let resumable ← readResumable engine
    let resumeWorkerInstance ← readResumeWorker engine
    let payloadTransports ← readTransports header
    return { engineInstanceId, label, resumable, resumeWorkerInstance, payloadTransports }
  | _ => .error (malformed "engine identity is malformed")

/-- Why a connection is answered with an error. -/
inductive Refusal
  | raised (error : Raised)
  | protocol (client : String)
  | identity
  | transports
  | busy (label : String) (idle ttl : ℚ)
  deriving DecidableEq

def Raised.message : Raised → String
  | .boundary message | .connection message | .runtime message => message

/-- `{t:.0f}` -/
def seconds (t : ℚ) : String :=
  let down := ⌊t⌋
  let even := if t - down < 1 / 2 then down else if 1 / 2 < t - down then down + 1
    else if down % 2 = 0 then down else down + 1
  toString even

def Refusal.message : Refusal → String
  | .raised error => Raised.message error
  | .protocol client =>
    "protocol mismatch: service speaks " ++ toString protocolVersion ++ ", client spoke " ++ client
  | .identity => "resume refused: daemon process identity does not match"
  | .transports => "resume refused: payload transport offer changed"
  | .busy label idle ttl =>
    "service is busy: leased to engine " ++ label ++ " (idle " ++ seconds idle ++ "s" ++
      if 0 < ttl then ", lease ttl " ++ seconds ttl ++ "s)" else ")"

/-- Where `on_connect` is. From `forgetting` to `aborting` it holds the admission lock. -/
inductive Phase
  | arrived (hello : ClientHello)
  | forgetting (hello : ClientHello) (c : Nat)
  | forgotten (hello : ClientHello) (c : Nat)
  | detaching (hello : ClientHello) (c epoch : Nat)
  | closing (hello : ClientHello) (c : Nat)
  | evicted (hello : ClientHello) (c : Nat)
  | attaching (c : Nat) (fresh resumed : Bool)
  | writing (c : Nat) (fresh resumed : Bool)
  | aborting (c : Nat) (fresh : Bool) (error : Raised)
  | abortClosing (c : Nat) (error : Raised)
  | refused (refusal : Refusal)
  | attached (c : Nat)
  | answered (refusal : Refusal)
  | hungUp
  | raised (error : Raised)
  deriving DecidableEq

/-- What the watchdog awaits while it holds the admission lock. -/
inductive Watch
  | detaching (c epoch : Nat)
  | closing (c : Nat)
  deriving DecidableEq

inductive Admission
  | connection (stream : Stream)
  | watchdog (watch : Watch)
  deriving DecidableEq

structure Config where
  leaseTtl : ℚ
  resumeGrace : ℚ
  processToken : String

/-- `conversations` has every conversation since the start, under its number. -/
structure Service where
  now : ℚ
  conversations : List Conversation
  active : Option Nat
  activeTransports : Option (List String)
  admission : Option Admission
  connections : Dict Stream Phase

namespace Service

def initial : Service := ⟨0,[],none,none,none,.empty⟩

def set (s : Service) (c : Nat) (conversation : Conversation) : Service :=
  { s with conversations := s.conversations.set c conversation }

def move (s : Service) (stream : Stream) (phase : Phase) : Service :=
  { s with connections := s.connections.set stream phase }

def leave (s : Service) (stream : Stream) (phase : Phase) : Service :=
  { s with connections := s.connections.set stream phase, admission := none }

def hold (s : Service) (stream : Stream) (phase : Phase) : Service :=
  { s with
    connections := s.connections.set stream phase
    admission := some (.connection stream) }

variable (cfg : Config)

def expired (s : Service) (conversation : Conversation) : Bool :=
  conversation.connected && cfg.leaseTtl < s.now - conversation.lastActivity

/-- The first check of `attach`, made before it waits for the send lock. -/
def startAttach (s : Service) (stream : Stream) (c : Nat) (fresh : Bool)
    (conversation : Conversation) : Service :=
  if conversation.closed then s.hold stream (.aborting c fresh Conversation.closedError)
  else s.hold stream (.attaching c fresh conversation.hostStarted)

def remembered (s : Service) : Option (Nat × Conversation) :=
  s.active.bind fun c => s.conversations[c]?.map fun conversation => (c,conversation)

def compare (s : Service) (stream : Stream) (hello : ClientHello) : Service :=
  match s.remembered with
  | some (c,conversation) =>
    if conversation.engineInstanceId = hello.engineInstanceId then
      if hello.resumeWorkerInstance ≠ some conversation.workerInstance then
        s.leave stream (.refused .identity)
      else if s.activeTransports ≠ some hello.payloadTransports then
        s.leave stream (.refused .transports)
      else s.startAttach stream c false conversation
    else
      s.leave stream (.refused
        (.busy conversation.label (s.now - conversation.lastActivity) cfg.leaseTtl))
  | none =>
    let conversation := Conversation.new hello.engineInstanceId hello.label cfg.processToken
      (if hello.resumable then cfg.resumeGrace else 0) s.now
    startAttach { s with
      conversations := s.conversations ++ [conversation]
      active := some s.conversations.length
      activeTransports := some hello.payloadTransports }
      stream s.conversations.length true conversation

def enter (s : Service) (stream : Stream) (hello : ClientHello) : Service :=
  match s.remembered with
  | some (c,conversation) =>
    if !conversation.connected && !conversation.hasRecords then
      s.hold stream (.forgetting hello c)
    else if 0 < cfg.leaseTtl ∧ s.expired cfg conversation then
      s.hold stream (.detaching hello c conversation.ownerEpoch)
    else s.compare cfg stream hello
  | none => s.compare cfg stream hello

def greet (py : Builtins) : Option Frame → Phase
  | none => .hungUp
  | some frame =>
    if !frame.isA "clientHello" then .hungUp
    else
      match frame.header.get? "protocol" with
      | some (.int n) =>
        if n ≠ protocolVersion then .refused (.protocol (py.str (.int n)))
        else
          match ClientHello.fromHeader frame.header with
          | .ok hello => .arrived hello
          | .error error => .refused (.raised error)
      | other => .refused (.protocol (py.str (other.getD .null)))

/-- `on_connect` answers boundary and connection errors only. -/
def failed : Raised → Phase
  | .runtime message => .raised (.runtime message)
  | error => .refused (.raised error)

def forget (s : Service) (c : Nat) : Service :=
  if s.active = some c then { s with active := none, activeTransports := none } else s

/-- One await of a connection that holds the admission lock; `outcome` is how its write ends. -/
def proceed (s : Service) (stream : Stream) (outcome : Option String) : Phase → Option Service
  | .forgetting hello c =>
    s.conversations[c]?.bind fun conversation =>
      if conversation.sendLock.isSome then none
      else some ((s.set c conversation.close).hold stream (.forgotten hello c))
  | .forgotten hello _ =>
    some (compare cfg { s with active := none, activeTransports := none } stream hello)
  | .detaching hello c epoch =>
    s.conversations[c]?.bind fun conversation =>
      if conversation.sendLock.isSome then none
      else
        let detached := conversation.detach epoch
        some ((s.set c detached.1).hold stream
          (if detached.2 then .closing hello c else .evicted hello c))
  | .closing hello c =>
    s.conversations[c]?.bind fun conversation =>
      if conversation.sendLock.isSome then none
      else some ((s.set c conversation.close).hold stream (.evicted hello c))
  | .evicted hello _ => some (s.compare cfg stream hello)
  | .attaching c fresh resumed =>
    s.conversations[c]?.bind fun conversation =>
      if conversation.sendLock.isSome then none
      else if conversation.closed then
        some (s.hold stream (.aborting c fresh Conversation.closedError))
      else some ((s.set c (conversation.takeOver s.now stream resumed)).hold stream
        (.writing c fresh resumed))
  | .writing c fresh resumed =>
    s.conversations[c]?.bind fun conversation =>
      match outcome with
      | some message => some ((s.set c { conversation with sendLock := none }).hold stream
          (.aborting c fresh (.connection message)))
      | none =>
        match conversation.attached stream resumed with
        | (conversation,.error error) =>
          some ((s.set c conversation).hold stream (.aborting c fresh error))
        | (conversation,.ok ()) =>
          some ((s.set c (if fresh then conversation.startHost else conversation)).leave stream
            (.attached c))
  | .aborting c fresh error =>
    s.conversations[c]?.bind fun conversation =>
      if conversation.sendLock.isSome then none
      else if fresh then
        some (((s.set c conversation.close).forget c).leave stream (failed error))
      else
        let detached := conversation.detach conversation.ownerEpoch
        if detached.2 then some ((s.set c detached.1).hold stream (.abortClosing c error))
        else some ((s.set c detached.1).leave stream (failed error))
  | .abortClosing c error =>
    s.conversations[c]?.bind fun conversation =>
      if conversation.sendLock.isSome then none
      else some ((s.set c conversation.close).leave stream (failed error))
  | _ => none

def watch (s : Service) : Service :=
  match s.remembered with
  | some (c,conversation) =>
    if s.expired cfg conversation then
      { s with admission := some (.watchdog (.detaching c conversation.ownerEpoch)) }
    else s
  | none => s

def watchOn (s : Service) : Watch → Option Service
  | .detaching c epoch =>
    s.conversations[c]?.bind fun conversation =>
      if conversation.sendLock.isSome then none
      else
        let detached := conversation.detach epoch
        some { s.set c detached.1 with
          admission := if detached.2 then some (.watchdog (.closing c)) else none }
  | .closing c =>
    s.conversations[c]?.bind fun conversation =>
      if conversation.sendLock.isSome then none
      else some { s.set c conversation.close with admission := none }

end Service

/-- `serve` is a move of the pump, the expiry or the host of a conversation; `retire` is the end of
`serve_resumable`, after it has closed the conversation. -/
inductive Event
  | tick (elapsed : ℚ)
  | arrive (stream : Stream) (frame : Option Frame)
  | enter (stream : Stream)
  | proceed (stream : Stream) (outcome : Option String)
  | answer (stream : Stream)
  | watch
  | watchOn
  | serve (c : Nat) (m : Move)
  | retire (c : Nat)

def step (cfg : Config) (py : Builtins) (s : Service) : Event → Option Service
  | .tick elapsed => if 0 ≤ elapsed then some { s with now := s.now + elapsed } else none
  | .arrive stream frame =>
    if stream ∈ s.connections.keys then none else some (s.move stream (Service.greet py frame))
  | .enter stream =>
    match s.connections.get? stream, s.admission with
    | some (.arrived hello), none => some (s.enter cfg stream hello)
    | _, _ => none
  | .proceed stream outcome => (s.connections.get? stream).bind (s.proceed cfg stream outcome)
  | .answer stream =>
    match s.connections.get? stream with
    | some (.refused refusal) => some (s.move stream (.answered refusal))
    | _ => none
  | .watch => if 0 < cfg.leaseTtl ∧ s.admission = none then some (s.watch cfg) else none
  | .watchOn =>
    match s.admission with
    | some (.watchdog w) => s.watchOn w
    | _ => none
  | .serve c m =>
    s.conversations[c]?.bind fun conversation =>
      if outside conversation m then (Resume.step py conversation m).map (s.set c) else none
  | .retire c =>
    s.conversations[c]?.bind fun conversation =>
      if conversation.closed ∧ conversation.hostStarted ∧ s.admission = none then
        some (s.forget c)
      else none

end Dinkster.Workers.Lease
