import Dinkster.Lib.Dict
import Dinkster.Lib.Json
import Dinkster.Lib.Transition
import Mathlib

/-! The durable journal: per-stream appends whose sequence number is assigned at append
time, telemetry retention and replay pages. One SQLite file holds the two tables. The
callable of a transaction is a program over the write handle: what a call raises comes
back as a reply, so the callable may catch it. -/
namespace Dinkster.Journal

/-- A Python string: code points, lone surrogates included. -/
abbrev PyStr := List (Fin 0x110000)

def isSpace (c : Fin 0x110000) : Bool :=
  (9 ≤ c.val && c.val ≤ 13) || (28 ≤ c.val && c.val ≤ 32) || c.val == 0x85 || c.val == 0xA0 ||
    c.val == 0x1680 || (0x2000 ≤ c.val && c.val ≤ 0x200A) || c.val == 0x2028 || c.val == 0x2029 ||
    c.val == 0x202F || c.val == 0x205F || c.val == 0x3000

/-- `not s.strip()` -/
def blank (s : PyStr) : Bool := s.all isSpace

def encodable (s : PyStr) : Bool := s.all fun c => !(0xD800 ≤ c.val && c.val ≤ 0xDFFF)

/-- `UnicodeEncodeError` is a `ValueError` in Python. -/
inductive Raised
  | valueError (message : String)
  | unicodeEncodeError
  | integrityError
  | other (what : String)
  deriving DecidableEq

def maxJournalPayloadBytes : Nat := 256 * 1024

mutual

def requireRpcClean (path : String) : Json.Value → Except String Unit
  | .null => .ok ()
  | .bool _ => .ok ()
  | .str _ => .ok ()
  | .int n =>
    if -(2 ^ 63) ≤ n ∧ n < 2 ^ 63 then .ok ()
    else .error (path ++ " integer is outside the signed 64-bit range")
  | .float t => if t.finite then .ok () else .error (path ++ " float must be finite")
  | .arr items => requireItemsClean path 0 items
  | .obj members => requireMembersClean path members

def requireItemsClean (path : String) (index : Nat) : List Json.Value → Except String Unit
  | [] => .ok ()
  | item :: items => do
    requireRpcClean (path ++ "[" ++ toString index ++ "]") item
    requireItemsClean path (index + 1) items

def requireMembersClean (path : String) : List (String × Json.Value) → Except String Unit
  | [] => .ok ()
  | (key,item) :: members => do
    requireRpcClean (path ++ "." ++ key) item
    requireMembersClean path members

end

/-- The order of the members does not matter here: it changes neither what is refused
nor the length of the canonical text, and payloads are read back as mappings. -/
def canonicalJsonPayload (payload : Json.Value) (maxBytes : Nat) (description : String) :
    Except String Json.Value :=
  match payload with
  | .obj members => do
    requireMembersClean description members
    if maxBytes < (Json.dumps .compact payload).length then
      .error (description ++ " exceeds " ++ toString maxBytes ++
        " canonical-JSON bytes; reference artifacts instead of inlining them")
    else .ok payload
  | _ => .error (description ++ " must be a string-keyed mapping")

structure JournalRecord where
  streamId : PyStr
  seq : Nat
  timestamp : ℚ
  name : PyStr
  durable : Bool
  payload : Json.Value

structure JournalPage where
  records : List JournalRecord
  latestSeq : Nat
  coalescedBelow : Nat

structure StreamRow where
  lastSeq : Nat := 0
  coalescedBelow : Nat := 0

structure Store where
  journal : List JournalRecord := []
  streams : Dict PyStr StreamRow := .empty

namespace Store

variable (s : Store)

def latestSeq (stream : PyStr) : Nat := ((s.streams.get? stream).map (·.lastSeq)).getD 0

def coalescedBelow (stream : PyStr) : Nat :=
  ((s.streams.get? stream).map (·.coalescedBelow)).getD 0

def records (stream : PyStr) : List JournalRecord := s.journal.filter (·.streamId = stream)

def bumpSeq (stream : PyStr) : Store :=
  let row := (s.streams.get? stream).getD {}
  { s with streams := s.streams.set stream { row with lastSeq := row.lastSeq + 1 } }

def insertRow (r : JournalRecord) : Except Raised Store :=
  if encodable r.name then
    if s.journal.any fun row => row.streamId = r.streamId ∧ row.seq = r.seq then
      .error .integrityError
    else .ok { s with journal := s.journal ++ [r] }
  else .error .unicodeEncodeError

def setMark (stream : PyStr) (watermark : Nat) : Store :=
  let row := (s.streams.get? stream).getD {}
  { s with streams := s.streams.set stream { row with coalescedBelow := watermark } }

end Store

/-- A timestamp as it comes in: `written_at` has to be a finite `float`. -/
inductive Stamp
  | finite (t : ℚ)
  | nonfinite
  | notFloat

/-- The arguments of an append, with the clock's reading for the default timestamp. A
missing `durable` stands for a value that is not a `bool`. -/
structure Entry where
  streamId : PyStr
  name : PyStr
  payload : Json.Value
  durable : Option Bool
  timestamp : Option Stamp
  now : ℚ

def Entry.check (e : Entry) : Except Raised (ℚ × Bool × Json.Value) :=
  if blank e.streamId then .error (.valueError "stream_id must be a non-empty string")
  else if blank e.name then .error (.valueError "name must be a non-empty string")
  else match e.durable with
    | none => .error (.valueError "durable must be a bool: it decides what retention may prune")
    | some durable =>
      match canonicalJsonPayload e.payload maxJournalPayloadBytes "payload" with
      | .error message => .error (.valueError message)
      | .ok payload =>
        match e.timestamp.getD (.finite e.now) with
        | .finite t =>
          if t < 0 then .error (.valueError "timestamp must be a finite non-negative float")
          else .ok (t,durable,payload)
        | _ => .error (.valueError "timestamp must be a finite non-negative float")

inductive Call
  | append (entry : Entry)
  | latestSeq (stream : PyStr)
  | read (stream : PyStr) (after limit : Int)
  | pruneCoalescible (stream : PyStr) (upTo : Int)
  | deleteStream (stream : PyStr)

inductive Reply
  | record (r : JournalRecord)
  | seq (n : Nat)
  | page (p : JournalPage)
  | removed (n : Nat)

namespace Store

variable (s : Store)

/-- `JournalTransaction.append`: the counter moves before the row is written. -/
def append (e : Entry) : Except Raised JournalRecord × Store :=
  match e.check with
  | .error raised => (.error raised,s)
  | .ok (writtenAt,durable,payload) =>
    if encodable e.streamId then
      let s := s.bumpSeq e.streamId
      let r := ⟨e.streamId,s.latestSeq e.streamId,writtenAt,e.name,durable,payload⟩
      match s.insertRow r with
      | .error raised => (.error raised,s)
      | .ok written => (.ok r,written)
    else (.error .unicodeEncodeError,s)

/-- Records with a sequence number above `after`, oldest first. -/
def read (stream : PyStr) (after limit : Int) : Except Raised JournalPage :=
  if after < 0 then .error (.valueError "after must be non-negative")
  else if encodable stream then
    let rows := (s.records stream).filter fun r => after.toNat < r.seq
    .ok ⟨(rows.mergeSort fun a b => decide (a.seq ≤ b.seq)).take (max 1 limit).toNat,
      s.latestSeq stream,s.coalescedBelow stream⟩
  else .error .unicodeEncodeError

def pruneCoalescible (stream : PyStr) (upTo : Int) : Except Raised Nat × Store :=
  if upTo < 0 then (.error (.valueError "up_to must be non-negative"),s)
  else if encodable stream then
    let watermark := min upTo.toNat (s.latestSeq stream)
    let pruned (r : JournalRecord) : Bool :=
      r.streamId = stream && r.seq ≤ watermark && !r.durable
    let rest := { s with journal := s.journal.filter fun r => !pruned r }
    (.ok (s.journal.countP pruned),
      if s.coalescedBelow stream < watermark then rest.setMark stream watermark else rest)
  else (.error .unicodeEncodeError,s)

def deleteStream (stream : PyStr) : Except Raised Nat × Store :=
  if encodable stream then
    (.ok (s.records stream).length,
      { journal := s.journal.filter fun r => decide (r.streamId ≠ stream)
        streams := s.streams.erase stream })
  else (.error .unicodeEncodeError,s)

def answer : Call → Except Raised Reply × Store
  | .append e => ((s.append e).1.map .record,(s.append e).2)
  | .latestSeq stream =>
    (if encodable stream then .ok (.seq (s.latestSeq stream)) else .error .unicodeEncodeError,s)
  | .read stream after limit => ((s.read stream after limit).map .page,s)
  | .pruneCoalescible stream upTo =>
    ((s.pruneCoalescible stream upTo).1.map .removed,(s.pruneCoalescible stream upTo).2)
  | .deleteStream stream =>
    ((s.deleteStream stream).1.map .removed,(s.deleteStream stream).2)

end Store

/-- A callable passed to `transact`. Statements on its own tables, which leave the
journal's alone, only decide which callable of this kind it is. -/
inductive Callable (α : Type)
  | returns (a : α)
  | raises (raised : Raised)
  | calls (call : Call) (next : Except Raised Reply → Callable α)

namespace Callable

variable {α : Type}

def run : Callable α → Store → Except Raised α × Store
  | returns a, s => (.ok a,s)
  | raises raised, s => (.error raised,s)
  | calls call next, s => (next (s.answer call).1).run (s.answer call).2

def trace : Callable α → Store → List Call
  | returns _, _ => []
  | raises _, _ => []
  | calls call next, s => call :: (next (s.answer call).1).trace (s.answer call).2

def only (call : Call) : Callable Reply :=
  calls call fun
    | .ok reply => returns reply
    | .error raised => raises raised

end Callable

/-- `BEGIN IMMEDIATE`, then commit or roll back. -/
def transact {α : Type} (s : Store) (fn : Callable α) : Except Raised α × Store :=
  match fn.run s with
  | (.ok a,written) => (.ok a,written)
  | (.error raised,_) => (.error raised,s)

/-- `JournalStore.append`, `prune_coalescible` and `delete_stream` are transactions of one
call; reading changes nothing. -/
def step (s : Store) (fn : Callable Reply) : Option Store := some (transact s fn).2

end Dinkster.Journal
