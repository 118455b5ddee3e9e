import Dinkster.Lib.Dict
import Dinkster.Lib.Transition

/-! Blob transport between the value stores of two peers: one end queries, streams the missing
blobs in chunks, and the other lands them. Both ends of one connection are in the state; a step is
what one end does between two awaits. Bytes, digests and the hash are parameters. -/
namespace Dinkster.Workers.Blobs

universe u
variable {α δ : Type u} [DecidableEq δ]

/-- `_CHUNK_BYTES` -/
def chunkBytes : Nat := 8 * 1048576

/-- What a caller asks to be held by the peer; a file is read while it is streamed. -/
inductive Payload (α : Type u)
  | bytes (data : List α)
  | file

/-- A `blobData` frame. `payload`, `transfer` and `index` are not on the wire: they name what is
streamed, the stream and the place of the chunk in it. -/
structure Chunk (α δ : Type u) where
  digest : δ
  size : Nat
  last : Bool
  bytes : List α
  payload : Payload α
  transfer : Nat
  index : Nat

inductive Frame (α δ : Type u)
  | blobQuery (requestId : Nat) (digests : List δ)
  | blobQueryResult (requestId : Nat) (missing : List δ)
  | blobData (chunk : Chunk α δ)

def nextChunk (data : List α) (offset : Nat) : List α × Bool :=
  let chunk := (data.drop offset).take chunkBytes
  (chunk,decide (data.length ≤ offset + chunk.length))

theorem nextChunk_progress {data : List α} {offset : Nat} (more : (nextChunk data offset).2 = false) :
    data.length - (offset + (nextChunk data offset).1.length) < data.length - offset := by
  simp only [nextChunk,decide_eq_false_iff_not,List.length_take,List.length_drop] at more ⊢
  have positive : 0 < chunkBytes := by decide
  omega

/-- The whole loop from an offset on. -/
def chunksFrom (data : List α) (offset : Nat) : List (List α × Bool) :=
  if _more : (nextChunk data offset).2 = false then
    nextChunk data offset :: chunksFrom data (offset + (nextChunk data offset).1.length)
  else [nextChunk data offset]
termination_by data.length - offset
decreasing_by exact nextChunk_progress _more

structure Outgoing (α δ : Type u) where
  digest : δ
  payload : Payload α
  size : Nat
  offset : Nat
  transfer : Nat
  index : Nat

/-- Where the one `ensure_peer_holds` that has the lock stands. -/
inductive Sending (α δ : Type u)
  | idle
  | persisting (unique : Dict δ (Payload α))
  | asking (unique : Dict δ (Payload α)) (requestId : Nat) (reply : Option (List δ))
  | streaming (unique : Dict δ (Payload α)) (current : Option (Outgoing α δ)) (rest : List δ)

/-- `_Incoming`; the temporary file is the chunks written to it. -/
structure Incoming (α δ : Type u) where
  expected : Nat
  received : Nat
  parts : List (Chunk α δ)

def Incoming.data (state : Incoming α δ) : List α := state.parts.flatMap (·.bytes)

/-- Where the read loop is suspended inside a handler. -/
inductive Reading (α δ : Type u)
  | ready
  | probing (requestId : Nat) (digests : List δ)
  | landing (digest : δ) (state : Incoming α δ)

structure BlobTransfer (α δ : Type u) where
  store : Dict δ (List α)
  closed : Bool := false
  requestIndex : Nat := 0
  transfers : Nat := 0
  sending : Sending α δ := .idle
  incoming : Dict δ (Incoming α δ) := .empty
  reading : Reading α δ := .ready

namespace BlobTransfer

variable (hash : List α → δ) (e : BlobTransfer α δ)

/-- `store.put` -/
def put (store : Dict δ (List α)) (data : List α) : Dict δ (List α) := store.set (hash data) data

/-- `store.adopt_file`; `none` when the bytes do not hash to the digest. -/
def adopt (store : Dict δ (List α)) (digest : δ) (data : List α) : Option (Dict δ (List α)) :=
  if hash data = digest then some (store.set digest data) else none

/-- `persist`; `contents` is what the files hold, `false` when a file was refused. -/
def persist (contents : δ → List α) (store : Dict δ (List α)) :
    List (δ × Payload α) → Dict δ (List α) × Bool
  | [] => (store,true)
  | (digest,payload) :: rest =>
    if digest ∈ store.keys then persist contents store rest
    else
      match payload with
      | .bytes data => persist contents (put hash store data) rest
      | .file =>
        match adopt hash store digest (contents digest) with
        | some store => persist contents store rest
        | none => (store,false)

/-- `close`: waiting queries fail and partial blobs are discarded. -/
def close : BlobTransfer α δ := { e with closed := true, sending := .idle, incoming := .empty }

def firsts (pending : List (δ × Payload α)) : Dict δ (Payload α) :=
  pending.foldl (fun unique p => if p.1 ∈ unique.keys then unique else unique.set p.1 p.2) .empty

/-- The frame of the next round of the loop, and what is left of the stream; `read` is what a
file answers. -/
def emit (out : Outgoing α δ) (read : List α) : Option (Chunk α δ) :=
  match out.payload with
  | .bytes data =>
    let next := nextChunk data out.offset
    some ⟨out.digest,out.size,next.2,next.1,out.payload,out.transfer,out.index⟩
  | .file =>
    if out.size ≤ out.offset then
      some ⟨out.digest,out.size,true,[],out.payload,out.transfer,out.index⟩
    -- a source that ended early, or no answer of `read`
    else if read = [] ∨ chunkBytes < read.length ∨ out.size < out.offset + read.length then none
    else some ⟨out.digest,out.size,decide (out.size ≤ out.offset + read.length),read,out.payload,
      out.transfer,out.index⟩

def resolveQuery (requestId : Nat) (missing : List δ) : BlobTransfer α δ :=
  match e.sending with
  | .asking unique expected none =>
    if requestId = expected then { e with sending := .asking unique expected (some missing) } else e
  | _ => e

/-- `accept_chunk` up to the landing; a malformed stream ends the conversation. -/
def acceptChunk (chunk : Chunk α δ) : BlobTransfer α δ :=
  let state := (e.incoming.get? chunk.digest).getD ⟨chunk.size,0,[]⟩
  if state.expected ≠ chunk.size then e.close
  else
    let state : Incoming α δ :=
      ⟨state.expected,state.received + chunk.bytes.length,state.parts ++ [chunk]⟩
    if state.expected < state.received then e.close
    else if !chunk.last then { e with incoming := e.incoming.set chunk.digest state }
    else if state.received ≠ state.expected then e.close
    else { e with
      incoming := e.incoming.erase chunk.digest
      reading := .landing chunk.digest state }

def accept : Frame α δ → BlobTransfer α δ
  | .blobQuery requestId digests => { e with
      incoming := digests.foldl Dict.erase e.incoming
      reading := .probing requestId digests }
  | .blobQueryResult requestId missing => e.resolveQuery requestId missing
  | .blobData chunk => e.acceptChunk chunk

def land (digest : δ) (state : Incoming α δ) : BlobTransfer α δ :=
  match adopt hash e.store digest state.data with
  | some store => { e with store, reading := .ready }
  | none => { e.close with reading := .ready }

end BlobTransfer

/-- `wire b` travels to end `b`; `sent b` is every chunk ever put on it. -/
structure Connection (α δ : Type u) where
  ends : Bool → BlobTransfer α δ
  wire : Bool → List (Frame α δ)
  sent : Bool → List (Chunk α δ)

inductive Event (α δ : Type u)
  | ensure (b : Bool) (pending : List (δ × Payload α))
  /-- `persist` ends and the query is sent. -/
  | persisted (b : Bool) (contents : δ → List α)
  /-- The reply is checked and the streams begin. -/
  | replied (b : Bool)
  /-- The next missing blob; `size` is what `fstat` says of a file. -/
  | next (b : Bool) (size : Nat)
  | send (b : Bool) (read : List α)
  /-- `ensure_peer_holds` returns, raises or is cancelled at an await. -/
  | leave (b : Bool)
  | read (b : Bool)
  | answer (b : Bool)
  | landed (b : Bool)
  | close (b : Bool)
  /-- Another user of the store puts a blob, or an orphaned `persist` does. -/
  | store (b : Bool) (data : List α)
  | evict (b : Bool) (digest : δ)

namespace Connection

variable (hash : List α → δ) (c : Connection α δ)

def put (b : Bool) (e : BlobTransfer α δ) : Connection α δ :=
  { c with ends := Function.update c.ends b e }

def post (b : Bool) (frame : Frame α δ) : Connection α δ :=
  { c with wire := Function.update c.wire (!b) (c.wire (!b) ++ [frame]) }

def record (b : Bool) (chunk : Chunk α δ) : Connection α δ :=
  { c with sent := Function.update c.sent (!b) (c.sent (!b) ++ [chunk]) }

/-- The chunks of one stream towards `b`. -/
def stream (b : Bool) (transfer : Nat) : List (Chunk α δ) :=
  (c.sent b).filter (·.transfer = transfer)

def ensure (b : Bool) (pending : List (δ × Payload α)) : Option (Connection α δ) :=
  let e := c.ends b
  match e.sending with
  | .idle =>
    if e.closed ∨ pending = [] then none
    else some (c.put b { e with sending := .persisting (BlobTransfer.firsts pending) })
  | _ => none

def persisted (b : Bool) (contents : δ → List α) : Option (Connection α δ) :=
  let e := c.ends b
  match e.sending with
  | .persisting unique =>
    let result := BlobTransfer.persist hash contents e.store unique.entries
    if !result.2 then some (c.put b { e with store := result.1, sending := .idle })
    else some ((c.put b { e with
      store := result.1
      requestIndex := e.requestIndex + 1
      sending := .asking unique e.requestIndex none }).post b
        (.blobQuery e.requestIndex unique.keys))
  | _ => none

def replied (b : Bool) : Option (Connection α δ) :=
  let e := c.ends b
  match e.sending with
  | .asking unique _ (some missing) =>
    -- "peer reported digests it was never offered as missing"
    if missing.any fun digest => decide (digest ∉ unique.keys) then
      some (c.put b { e with sending := .idle })
    else some (c.put b { e with sending := .streaming unique none missing })
  | _ => none

def next (b : Bool) (size : Nat) : Option (Connection α δ) :=
  let e := c.ends b
  match e.sending with
  | .streaming unique none (digest :: rest) => (unique.get? digest).map fun payload =>
    let size := match payload with
      | .bytes data => data.length
      | .file => size
    c.put b { e with
      transfers := e.transfers + 1
      sending := .streaming unique (some ⟨digest,payload,size,0,e.transfers,0⟩) rest }
  | _ => none

def send (b : Bool) (read : List α) : Option (Connection α δ) :=
  let e := c.ends b
  match e.sending with
  | .streaming unique (some out) rest => (BlobTransfer.emit out read).map fun chunk =>
    let left := if chunk.last then none
      else some { out with offset := out.offset + chunk.bytes.length, index := out.index + 1 }
    ((c.put b { e with sending := .streaming unique left rest }).post b (.blobData chunk)).record b
      chunk
  | _ => none

def read (b : Bool) : Option (Connection α δ) :=
  let e := c.ends b
  match e.closed,e.reading,c.wire b with
  | false,.ready,frame :: rest =>
    some { c.put b (e.accept frame) with wire := Function.update c.wire b rest }
  | _,_,_ => none

def answer (b : Bool) : Option (Connection α δ) :=
  let e := c.ends b
  match e.reading with
  | .probing requestId digests =>
    let missing := digests.filter fun digest => decide (digest ∉ e.store.keys)
    if e.closed then some (c.put b { e with reading := .ready })
    else some ((c.put b { e with reading := .ready }).post b (.blobQueryResult requestId missing))
  | _ => none

def landed (b : Bool) : Option (Connection α δ) :=
  match (c.ends b).reading with
  | .landing digest state => some (c.put b ((c.ends b).land hash digest state))
  | _ => none

def step (c : Connection α δ) : Event α δ → Option (Connection α δ)
  | .ensure b pending => c.ensure b pending
  | .persisted b contents => c.persisted hash b contents
  | .replied b => c.replied b
  | .next b size => c.next b size
  | .send b read => c.send b read
  | .leave b => some (c.put b { c.ends b with sending := .idle })
  | .read b => c.read b
  | .answer b => c.answer b
  | .landed b => c.landed hash b
  | .close b => some (c.put b (c.ends b).close)
  | .store b data => some (c.put b { c.ends b with store := BlobTransfer.put hash (c.ends b).store data })
  | .evict b digest => some (c.put b { c.ends b with store := (c.ends b).store.erase digest })

/-- A new connection between two stores. -/
def opened (stores : Bool → Dict δ (List α)) : Connection α δ :=
  ⟨fun b => { store := stores b },fun _ => [],fun _ => []⟩

end Connection

end Dinkster.Workers.Blobs
