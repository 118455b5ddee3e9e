import Dinkster.Workers.Blobs
import Mathlib

/-! What a receiver has of a blob is always the beginning of one stream. The frames in flight are
replayed against the receiver's buffers: each chunk meets exactly the earlier chunks of its own
stream, and a blob about to be streamed meets an empty buffer. -/
namespace Dinkster.Workers.Blobs

universe u
variable {α δ : Type u}

theorem chunksFrom_flatMap (data : List α) (offset : Nat) :
    (chunksFrom data offset).flatMap (·.1) = data.drop offset := by
  induction offset using chunksFrom.induct data with
  | case1 offset more ih =>
    rw [chunksFrom,dif_pos more,List.flatMap_cons,ih]
    simp only [nextChunk,List.length_take,List.length_drop]
    rw [← List.drop_drop]
    by_cases short : chunkBytes ≤ data.length - offset
    · rw [Nat.min_eq_left short,List.take_append_drop]
    · rw [Nat.min_eq_right (by omega),← List.length_drop,List.drop_length,List.append_nil]
      exact List.take_of_length_le (by rw [List.length_drop]; omega)
  | case2 offset last =>
    rw [chunksFrom,dif_neg last,List.flatMap_singleton]
    simp only [nextChunk,decide_eq_false_iff_not,Decidable.not_not,List.length_take,
      List.length_drop] at last ⊢
    exact List.take_of_length_le (by rw [List.length_drop]; omega)

theorem chunksFrom_marks (data : List α) (offset : Nat) :
    ∃ n, (chunksFrom data offset).map (·.2) = List.replicate n false ++ [true] := by
  induction offset using chunksFrom.induct data with
  | case1 offset more ih =>
    obtain ⟨n,marks⟩ := ih
    refine ⟨n + 1,?_⟩
    rw [chunksFrom,dif_pos more,List.map_cons,marks,more]
    rfl
  | case2 offset last =>
    refine ⟨0,?_⟩
    rw [chunksFrom,dif_neg last]
    simpa using last

def Chunk.mark (chunk : Chunk α δ) : List α × Bool := (chunk.bytes,chunk.last)

def streamOf (sent : List (Chunk α δ)) (transfer : Nat) : List (Chunk α δ) :=
  sent.filter (·.transfer = transfer)

theorem streamOf_append (sent : List (Chunk α δ)) (chunk : Chunk α δ) (t : Nat) :
    streamOf (sent ++ [chunk]) t =
      streamOf sent t ++ if chunk.transfer = t then [chunk] else [] := by
  rw [streamOf,List.filter_append,streamOf]
  by_cases same : chunk.transfer = t <;> simp [same]

/-- The chunks of one stream so far: only the final one is marked, and with the mark they are
the whole blob. -/
structure Exact (stream : List (Chunk α δ)) : Prop where
  final : ∀ (i : Nat) chunk, stream[i]? = some chunk → chunk.last = true → i + 1 = stream.length
  begins : ∀ chunk ∈ stream, ∀ data, chunk.payload = .bytes data →
    stream.map Chunk.mark <+: chunksFrom data 0
  whole : ∀ chunk ∈ stream, chunk.last = true → (stream.flatMap (·.bytes)).length = chunk.size ∧
    ∀ data, chunk.payload = .bytes data → stream.map Chunk.mark = chunksFrom data 0

theorem Exact.nil : Exact ([] : List (Chunk α δ)) := ⟨nofun,nofun,nofun⟩

variable [DecidableEq δ]

def buffered (incoming : Dict δ (Incoming α δ)) (digest : δ) : List (Chunk α δ) :=
  ((incoming.get? digest).map (·.parts)).getD []

def deliver (digest : δ) (buffer : List (Chunk α δ)) : Frame α δ → List (Chunk α δ)
  | .blobQuery _ digests => if digest ∈ digests then [] else buffer
  | .blobQueryResult .. => buffer
  | .blobData chunk =>
    if chunk.digest = digest then if chunk.last then [] else buffer ++ [chunk] else buffer

def replay (digest : δ) (buffer : List (Chunk α δ)) (frames : List (Frame α δ)) :
    List (Chunk α δ) :=
  frames.foldl (deliver digest) buffer

/-- A chunk that arrives finds the earlier chunks of its stream. -/
def Meets (sent : List (Chunk α δ)) (digest : δ) (buffer : List (Chunk α δ)) : Frame α δ → Prop
  | .blobData chunk => chunk.digest = digest →
    buffer = (streamOf sent chunk.transfer).take chunk.index ∧
      (streamOf sent chunk.transfer)[chunk.index]? = some chunk
  | _ => True

def Clean (sent : List (Chunk α δ)) (digest : δ) : List (Chunk α δ) → List (Frame α δ) → Prop
  | _,[] => True
  | buffer,frame :: rest =>
    Meets sent digest buffer frame ∧ Clean sent digest (deliver digest buffer frame) rest

variable {sent : List (Chunk α δ)} {digest : δ} {buffer : List (Chunk α δ)}
  {frames : List (Frame α δ)}

theorem clean_append (frame : Frame α δ) : Clean sent digest buffer (frames ++ [frame]) ↔
    Clean sent digest buffer frames ∧ Meets sent digest (replay digest buffer frames) frame := by
  induction frames generalizing buffer with
  | nil => simp [Clean,replay]
  | cons first rest ih =>
    rw [List.cons_append,Clean,Clean,ih,and_assoc]
    rfl

theorem replay_append (frame : Frame α δ) : replay digest buffer (frames ++ [frame]) =
    deliver digest (replay digest buffer frames) frame := by
  rw [replay,List.foldl_append]
  rfl

omit [DecidableEq δ] in
theorem Meets.grow {frame : Frame α δ} (meets : Meets sent digest buffer frame)
    (chunk : Chunk α δ) : Meets (sent ++ [chunk]) digest buffer frame := by
  cases frame with
  | blobData found =>
    intro same
    obtain ⟨before,place⟩ := meets same
    have inside : found.index < (streamOf sent found.transfer).length :=
      (List.getElem?_eq_some_iff.mp place).1
    rw [streamOf_append]
    constructor
    · rw [List.take_append_of_le_length (Nat.le_of_lt inside)]
      exact before
    · rw [List.getElem?_append_left inside]
      exact place
  | _ => trivial

theorem Clean.grow (clean : Clean sent digest buffer frames) (chunk : Chunk α δ) :
    Clean (sent ++ [chunk]) digest buffer frames := by
  induction frames generalizing buffer with
  | nil => trivial
  | cons frame rest ih => exact ⟨clean.1.grow chunk,ih clean.2⟩

/-- What the sender's stage says of the buffers once everything in flight has arrived. -/
def Settled (empty : δ → Prop) (reached : δ → List (Chunk α δ) → Prop)
    (sent : List (Chunk α δ)) : Sending α δ → Prop
  | .idle | .persisting _ => True
  | .asking unique _ _ => ∀ digest ∈ unique.keys, empty digest
  | .streaming _ none rest => ∀ digest ∈ rest, empty digest
  | .streaming _ (some out) rest => reached out.digest (streamOf sent out.transfer) ∧
      ∀ digest ∈ rest, digest ≠ out.digest → empty digest

structure Current (transfers : Nat) (sent : List (Chunk α δ)) (out : Outgoing α δ) : Prop where
  known : out.transfer < transfers
  place : out.index = (streamOf sent out.transfer).length
  same : ∀ chunk ∈ streamOf sent out.transfer, chunk.last = false ∧ chunk.payload = out.payload
  length : ((streamOf sent out.transfer).flatMap (·.bytes)).length = out.offset
  bound : out.offset ≤ out.size
  bytes : ∀ data, out.payload = .bytes data → out.size = data.length ∧
    chunksFrom data 0 =
      (streamOf sent out.transfer).map Chunk.mark ++ chunksFrom data out.offset

/-- From the sender `e` to the receiver `r`. -/
structure Flow (e r : BlobTransfer α δ) (wire : List (Frame α δ)) (sent : List (Chunk α δ)) :
    Prop where
  known : ∀ chunk ∈ sent, chunk.transfer < e.transfers
  exact : ∀ t, Exact (streamOf sent t)
  current : ∀ unique out rest, e.sending = .streaming unique (some out) rest →
    Current e.transfers sent out
  clean : r.closed = false → ∀ digest, Clean sent digest (buffered r.incoming digest) wire
  settled : r.closed = false → Settled
    (fun digest => replay digest (buffered r.incoming digest) wire = [])
    (fun digest stream => replay digest (buffered r.incoming digest) wire = stream) sent e.sending
  held : ∀ digest state, r.incoming.get? digest = some state →
    state.parts ≠ [] ∧ ∃ t, state.parts <+: streamOf sent t
  landing : ∀ digest state, r.reading = .landing digest state →
    ∃ t, state.parts = streamOf sent t ∧ ∃ chunk ∈ state.parts, chunk.last = true

variable {e e' r r' : BlobTransfer α δ} {wire : List (Frame α δ)}

theorem Flow.receiver (flow : Flow e r wire sent) (closed : r'.closed = r.closed)
    (incoming : r'.incoming = r.incoming)
    (reading : ∀ digest state, r'.reading = .landing digest state → r.reading = r'.reading) :
    Flow e r' wire sent := by
  refine ⟨flow.known,flow.exact,flow.current,?_,?_,?_,fun digest state landing => ?_⟩
  · rw [closed,incoming]
    exact flow.clean
  · rw [closed,incoming]
    exact flow.settled
  · rw [incoming]
    exact flow.held
  · exact flow.landing digest state ((reading digest state landing).trans landing)

theorem Flow.shut (flow : Flow e r wire sent) (r' : BlobTransfer α δ) (closed : r'.closed = true)
    (incoming : r'.incoming = .empty)
    (reading : ∀ digest state, r'.reading = .landing digest state → r.reading = r'.reading)
    (wire' : List (Frame α δ)) : Flow e r' wire' sent := by
  refine ⟨flow.known,flow.exact,flow.current,?_,?_,?_,fun digest state landing => ?_⟩
  · rw [closed]
    nofun
  · rw [closed]
    nofun
  · rw [incoming]
    nofun
  · exact flow.landing digest state ((reading digest state landing).trans landing)

theorem Flow.taken {frame : Frame α δ} (flow : Flow e r (frame :: wire) sent)
    (was : r.closed = false)
    (moved : ∀ digest, buffered r'.incoming digest = deliver digest (buffered r.incoming digest) frame)
    (held : ∀ digest state, r'.incoming.get? digest = some state →
      state.parts ≠ [] ∧ ∃ t, state.parts <+: streamOf sent t)
    (landing : ∀ digest state, r'.reading = .landing digest state →
      ∃ t, state.parts = streamOf sent t ∧ ∃ chunk ∈ state.parts, chunk.last = true) :
    Flow e r' wire sent := by
  refine ⟨flow.known,flow.exact,flow.current,fun _ digest => ?_,fun _ => ?_,held,landing⟩
  · rw [moved digest]
    exact (flow.clean was digest).2
  · simp only [moved]
    exact flow.settled was

theorem buffered_erase (incoming : Dict δ (Incoming α δ)) (d digest : δ) :
    buffered (incoming.erase d) digest = if digest = d then [] else buffered incoming digest := by
  rw [buffered,Dict.get?_erase]
  split <;> rfl

theorem buffered_set (incoming : Dict δ (Incoming α δ)) (d digest : δ) (state : Incoming α δ) :
    buffered (incoming.set d state) digest =
      if digest = d then state.parts else buffered incoming digest := by
  rw [buffered,Dict.get?_set]
  split <;> rfl

theorem get?_discard (digests : List δ) (incoming : Dict δ (Incoming α δ)) (digest : δ) :
    (digests.foldl Dict.erase incoming).get? digest =
      if digest ∈ digests then none else incoming.get? digest := by
  induction digests generalizing incoming with
  | nil => simp
  | cons d rest ih =>
    rw [List.foldl_cons,ih,Dict.get?_erase]
    by_cases same : digest = d <;> simp [same]

theorem Flow.accept {frame : Frame α δ} (flow : Flow e r (frame :: wire) sent)
    (was : r.closed = false) (ready : r.reading = .ready) : Flow e (r.accept frame) wire sent := by
  have calm : ∀ digest state, r.reading ≠ .landing digest state := by
    rw [ready]
    nofun
  cases frame with
  | blobQuery requestId digests =>
    refine flow.taken was (fun digest => ?_) (fun digest state found => ?_) nofun
    · show buffered (digests.foldl Dict.erase r.incoming) digest = _
      rw [buffered,get?_discard]
      split
      · rename_i named
        exact (if_pos named).symm
      · rename_i unnamed
        exact (if_neg unnamed).symm
    · have kept : (digests.foldl Dict.erase r.incoming).get? digest = some state := found
      rw [get?_discard] at kept
      split at kept
      · cases kept
      · exact flow.held digest state kept
  | blobQueryResult requestId missing =>
    have same : (r.resolveQuery requestId missing).closed = r.closed ∧
        (r.resolveQuery requestId missing).incoming = r.incoming ∧
        (r.resolveQuery requestId missing).reading = r.reading := by
      unfold BlobTransfer.resolveQuery
      split
      · split <;> exact ⟨rfl,rfl,rfl⟩
      · exact ⟨rfl,rfl,rfl⟩
    refine flow.taken was (fun digest => ?_) ?_ ?_
    · exact congrArg (buffered · digest) same.2.1
    · rw [show (r.accept (.blobQueryResult requestId missing)).incoming = r.incoming from same.2.1]
      exact flow.held
    · intro digest state landing
      exact absurd (same.2.2.symm.trans landing) (calm digest state)
  | blobData chunk =>
    obtain ⟨before,place⟩ := (flow.clean was chunk.digest).1 rfl
    obtain ⟨inside,_⟩ := List.getElem?_eq_some_iff.mp place
    have parts : ((r.incoming.get? chunk.digest).getD ⟨chunk.size,0,[]⟩).parts =
        buffered r.incoming chunk.digest := by
      rw [buffered]
      cases r.incoming.get? chunk.digest <;> rfl
    have grown : ((r.incoming.get? chunk.digest).getD ⟨chunk.size,0,[]⟩).parts ++ [chunk] =
        (streamOf sent chunk.transfer).take (chunk.index + 1) := by
      rw [parts,before,List.take_add_one,place]
      rfl
    have closes : Flow e r.close wire sent := by
      refine flow.shut _ rfl rfl (fun digest state landing => ?_) wire
      exact absurd landing (calm digest state)
    show Flow e (r.acceptChunk chunk) wire sent
    unfold BlobTransfer.acceptChunk
    simp only
    split
    · exact closes
    split
    · exact closes
    split
    · rename_i more
      have unmarked : chunk.last = false := by simpa using more
      refine flow.taken was (fun digest => ?_) (fun digest state found => ?_)
        fun digest state landing => absurd landing (calm digest state)
      · rw [buffered_set,deliver,parts]
        by_cases same : digest = chunk.digest
        · simp [same,unmarked]
        · simp [same,Ne.symm same]
      · have kept := found
        rw [Dict.get?_set] at kept
        split at kept
        · obtain rfl := Option.some.inj kept
          refine ⟨by simp,chunk.transfer,?_⟩
          rw [grown]
          exact List.take_prefix _ _
        · exact flow.held digest state kept
    · rename_i marked
      have last : chunk.last = true := by simpa using marked
      split
      · exact closes
      · refine flow.taken was (fun digest => ?_) (fun digest state found => ?_) ?_
        · rw [buffered_erase,deliver]
          by_cases same : digest = chunk.digest
          · simp [same,last]
          · simp [same,Ne.symm same]
        · have kept := found
          rw [Dict.get?_erase] at kept
          split at kept
          · cases kept
          · exact flow.held digest state kept
        · intro digest state landing
          obtain ⟨_,rfl⟩ := Reading.landing.inj landing
          have whole := (flow.exact chunk.transfer).final chunk.index chunk place last
          refine ⟨chunk.transfer,?_,chunk,by simp,last⟩
          rw [grown,whole,List.take_length]

theorem Flow.sender (flow : Flow e r wire sent) (transfers : e'.transfers = e.transfers)
    (sending : e'.sending = e.sending) : Flow e' r wire sent := by
  refine ⟨?_,flow.exact,?_,flow.clean,?_,flow.held,flow.landing⟩
  · rw [transfers]
    exact flow.known
  · rw [transfers,sending]
    exact flow.current
  · rw [sending]
    exact flow.settled

theorem Flow.stage (flow : Flow e r wire sent) (transfers : e'.transfers = e.transfers)
    (outside : ∀ unique out rest, e'.sending ≠ .streaming unique (some out) rest)
    (settled : r.closed = false → Settled
      (fun digest => replay digest (buffered r.incoming digest) wire = [])
      (fun digest stream => replay digest (buffered r.incoming digest) wire = stream) sent
      e'.sending) : Flow e' r wire sent := by
  refine ⟨?_,flow.exact,fun unique out rest same => absurd same (outside unique out rest),
    flow.clean,settled,flow.held,flow.landing⟩
  rw [transfers]
  exact flow.known

theorem Flow.asked (flow : Flow e r wire sent) {unique : Dict δ (Payload α)} {requestId : Nat}
    (transfers : e'.transfers = e.transfers) (asking : e'.sending = .asking unique requestId none) :
    Flow e' r (wire ++ [.blobQuery requestId unique.keys]) sent := by
  refine ⟨?_,flow.exact,?_,fun opened digest => ?_,fun opened => ?_,flow.held,flow.landing⟩
  · rw [transfers]
    exact flow.known
  · rw [asking]
    nofun
  · exact (clean_append _).mpr ⟨flow.clean opened digest,trivial⟩
  · rw [asking]
    intro digest named
    rw [replay_append,deliver,if_pos named]

theorem Flow.answered (flow : Flow e r wire sent) (requestId : Nat) (missing : List δ) :
    Flow e r (wire ++ [.blobQueryResult requestId missing]) sent := by
  refine ⟨flow.known,flow.exact,flow.current,fun opened digest => ?_,fun opened => ?_,flow.held,
    flow.landing⟩
  · exact (clean_append _).mpr ⟨flow.clean opened digest,trivial⟩
  · simp only [replay_append,deliver]
    exact flow.settled opened

omit [DecidableEq δ] in
theorem streamOf_fresh {transfers : Nat} (known : ∀ chunk ∈ sent, chunk.transfer < transfers) :
    streamOf sent transfers = [] := by
  refine List.filter_eq_nil_iff.mpr fun chunk inside same => ?_
  exact absurd (of_decide_eq_true same) (Nat.ne_of_lt (known chunk inside))

theorem Flow.begins (flow : Flow e r wire sent) {unique : Dict δ (Payload α)} {rest : List δ}
    {payload : Payload α} {size : Nat} (was : e.sending = .streaming unique none (digest :: rest))
    (sized : ∀ data, payload = .bytes data → size = data.length)
    (transfers : e'.transfers = e.transfers + 1)
    (now : e'.sending = .streaming unique (some ⟨digest,payload,size,0,e.transfers,0⟩) rest) :
    Flow e' r wire sent := by
  have fresh := streamOf_fresh flow.known
  refine ⟨fun chunk inside => ?_,flow.exact,fun unique' out rest' same => ?_,flow.clean,
    fun opened => ?_,flow.held,flow.landing⟩
  · have before := flow.known chunk inside
    omega
  · obtain ⟨_,current,_⟩ := Sending.streaming.inj (now.symm.trans same)
    obtain rfl := Option.some.inj current
    refine ⟨by simp [transfers],?_,?_,?_,Nat.zero_le _,fun data bytes => ⟨sized data bytes,?_⟩⟩
    · rw [fresh]
      rfl
    · rw [fresh]
      nofun
    · rw [fresh]
      rfl
    · rw [fresh]
      rfl
  · have empty := flow.settled opened
    rw [was] at empty
    rw [now]
    refine ⟨?_,fun d inside _ => empty d (List.mem_cons_of_mem _ inside)⟩
    rw [fresh]
    exact empty digest List.mem_cons_self

omit [DecidableEq δ] in
theorem emit_spec {transfers : Nat} {out : Outgoing α δ} {read : List α} {chunk : Chunk α δ}
    (current : Current transfers sent out) (emitted : BlobTransfer.emit out read = some chunk) :
    (chunk.digest = out.digest ∧ chunk.size = out.size ∧ chunk.payload = out.payload ∧
      chunk.transfer = out.transfer ∧ chunk.index = out.index) ∧
    out.offset + chunk.bytes.length ≤ out.size ∧
    (chunk.last = true → out.offset + chunk.bytes.length = out.size) ∧
    ∀ data, out.payload = .bytes data → chunk.mark = nextChunk data out.offset := by
  have bound := current.bound
  unfold BlobTransfer.emit at emitted
  split at emitted
  · rename_i data bytes
    obtain ⟨size,_⟩ := current.bytes data bytes
    obtain rfl := Option.some.inj emitted
    refine ⟨⟨rfl,rfl,bytes.symm ▸ rfl,rfl,rfl⟩,?_,fun last => ?_,fun data' same => ?_⟩
    · simp only [nextChunk,List.length_take,List.length_drop]
      omega
    · simp only [nextChunk,decide_eq_true_eq,List.length_take,List.length_drop] at last ⊢
      omega
    · obtain rfl := Payload.bytes.inj (bytes.symm.trans same)
      rfl
  · rename_i file
    split at emitted
    · obtain rfl := Option.some.inj emitted
      refine ⟨⟨rfl,rfl,file.symm ▸ rfl,rfl,rfl⟩,by simpa using bound,fun _ => ?_,fun data same => ?_⟩
      · simp only [List.length_nil]
        omega
      · cases file.symm.trans same
    · split at emitted
      · cases emitted
      · rename_i fits
        obtain rfl := Option.some.inj emitted
        simp only [not_or,Nat.not_lt] at fits
        refine ⟨⟨rfl,rfl,file.symm ▸ rfl,rfl,rfl⟩,fits.2.2,fun last => ?_,fun data same => ?_⟩
        · exact Nat.le_antisymm fits.2.2 (of_decide_eq_true last)
        · cases file.symm.trans same

omit [DecidableEq δ] in
theorem Current.extend {transfers : Nat} {out : Outgoing α δ} {read : List α} {chunk : Chunk α δ}
    (current : Current transfers sent out) (emitted : BlobTransfer.emit out read = some chunk) :
    Exact (streamOf sent out.transfer ++ [chunk]) ∧ (chunk.last = false →
      Current transfers (sent ++ [chunk]) { out with
        offset := out.offset + chunk.bytes.length, index := out.index + 1 }) := by
  obtain ⟨⟨digest,size,payload,transfer,index⟩,bound,whole,bytes⟩ := emit_spec current emitted
  have length : ((streamOf sent out.transfer ++ [chunk]).flatMap (·.bytes)).length =
      out.offset + chunk.bytes.length := by
    rw [List.flatMap_append,List.length_append,current.length,List.flatMap_singleton]
  have payloads (found : Chunk α δ) (inside : found ∈ streamOf sent out.transfer ++ [chunk]) :
      found.payload = out.payload := by
    rcases List.mem_append.mp inside with old | new
    · exact (current.same found old).2
    · rw [List.mem_singleton.mp new]
      exact payload
  -- with the mark nothing is left of the loop, without it the rest of the loop
  have loop (data : List α) (is_bytes : out.payload = .bytes data) : chunksFrom data 0 =
      (streamOf sent out.transfer ++ [chunk]).map Chunk.mark ++
        if chunk.last then [] else chunksFrom data (out.offset + chunk.bytes.length) := by
    have marked := bytes data is_bytes
    rw [(current.bytes data is_bytes).2,chunksFrom,List.map_append,List.map_singleton,marked,
      show chunk.last = (nextChunk data out.offset).2 from congrArg Prod.snd marked,
      show chunk.bytes = (nextChunk data out.offset).1 from congrArg Prod.fst marked]
    cases more : (nextChunk data out.offset).2 <;> simp
  constructor
  · refine ⟨fun i found place last => ?_,fun found inside data same => ?_,
      fun found inside last => ?_⟩
    · rw [List.getElem?_append] at place
      split at place
      · have unmarked := (current.same found (List.mem_of_getElem? place)).1
        rw [last] at unmarked
        cases unmarked
      · have only := (List.getElem?_eq_some_iff.mp place).1
        rw [List.length_append,List.length_singleton] at *
        omega
    · rw [loop data ((payloads found inside).symm.trans same)]
      exact List.prefix_append _ _
    · have latest : found = chunk := by
        rcases List.mem_append.mp inside with old | new
        · have unmarked := (current.same found old).1
          rw [last] at unmarked
          cases unmarked
        · exact List.mem_singleton.mp new
      subst latest
      refine ⟨by rw [length,whole last,size],fun data same => ?_⟩
      rw [loop data (payload.symm.trans same),last]
      simp
  · intro more
    have grown : streamOf (sent ++ [chunk]) out.transfer = streamOf sent out.transfer ++ [chunk] := by
      rw [streamOf_append,if_pos transfer]
    refine ⟨current.known,?_,?_,?_,bound,fun data same => ⟨(current.bytes data same).1,?_⟩⟩
    · show out.index + 1 = _
      rw [grown,List.length_append,current.place,List.length_singleton]
    · intro found inside
      rw [show streamOf _ _ = streamOf sent out.transfer ++ [chunk] from grown] at inside
      refine ⟨?_,payloads found inside⟩
      rcases List.mem_append.mp inside with old | new
      · exact (current.same found old).1
      · rw [List.mem_singleton.mp new]
        exact more
    · rw [show streamOf _ _ = streamOf sent out.transfer ++ [chunk] from grown]
      exact length
    · rw [show streamOf _ _ = streamOf sent out.transfer ++ [chunk] from grown,
        loop data same,more]
      rfl

theorem Flow.sends (flow : Flow e r wire sent) {unique : Dict δ (Payload α)} {rest : List δ}
    {out : Outgoing α δ} {read : List α} {chunk : Chunk α δ}
    (was : e.sending = .streaming unique (some out) rest)
    (emitted : BlobTransfer.emit out read = some chunk) (transfers : e'.transfers = e.transfers)
    (now : e'.sending = .streaming unique (if chunk.last then none else some { out with
      offset := out.offset + chunk.bytes.length, index := out.index + 1 }) rest) :
    Flow e' r (wire ++ [.blobData chunk]) (sent ++ [chunk]) := by
  have current := flow.current unique out rest was
  obtain ⟨⟨digest,_,_,transfer,index⟩,_⟩ := emit_spec current emitted
  obtain ⟨exact_now,current_now⟩ := current.extend emitted
  have grown : streamOf (sent ++ [chunk]) out.transfer = streamOf sent out.transfer ++ [chunk] := by
    rw [streamOf_append,if_pos transfer]
  have apart {t : Nat} (other : t ≠ out.transfer) : streamOf (sent ++ [chunk]) t = streamOf sent t := by
    rw [streamOf_append,if_neg fun same => other (same.symm.trans transfer),List.append_nil]
  refine ⟨?_,fun t => ?_,?_,fun opened d => ?_,fun opened => ?_,?_,?_⟩
  · rw [transfers]
    intro found inside
    rcases List.mem_append.mp inside with old | new
    · exact flow.known found old
    · rw [List.mem_singleton.mp new,transfer]
      exact current.known
  · by_cases mine : t = out.transfer
    · rw [mine,grown]
      exact exact_now
    · rw [apart mine]
      exact flow.exact t
  · intro unique' out' rest' same
    rw [now] at same
    obtain ⟨_,stage,_⟩ := Sending.streaming.inj same
    split at stage
    · cases stage
    · rename_i unmarked
      obtain rfl := Option.some.inj stage
      rw [transfers]
      exact current_now (by simpa using unmarked)
  · refine (clean_append _).mpr ⟨(flow.clean opened d).grow chunk,fun mine => ?_⟩
    have reached := flow.settled opened
    rw [was] at reached
    rw [transfer,grown,index,current.place,← mine,digest]
    refine ⟨reached.1.trans ?_,?_⟩
    · rw [List.take_left]
    · simp
  · have before := flow.settled opened
    rw [was] at before
    obtain ⟨reached,empty⟩ := before
    rw [now]
    cases last : chunk.last with
    | true =>
      intro d inside
      rw [replay_append,deliver,last,digest]
      by_cases mine : out.digest = d
      · rw [if_pos mine]
        rfl
      · rw [if_neg mine]
        exact empty d inside (Ne.symm mine)
    | false =>
      constructor
      · show replay out.digest _ _ = _
        rw [replay_append,deliver,last,if_pos digest,reached]
        exact grown.symm
      · intro d inside other
        have mine : ¬ chunk.digest = d := fun same => other (same.symm.trans digest)
        rw [replay_append,deliver,if_neg mine]
        exact empty d inside other
  · intro d state found
    obtain ⟨some_parts,t,begins⟩ := flow.held d state found
    refine ⟨some_parts,t,begins.trans ?_⟩
    rw [streamOf_append]
    exact List.prefix_append _ _
  · intro d state landing
    obtain ⟨t,whole,marked,inside,last⟩ := flow.landing d state landing
    refine ⟨t,?_,marked,inside,last⟩
    by_cases mine : t = out.transfer
    · subst mine
      rw [whole] at inside
      rw [(current.same marked inside).1] at last
      cases last
    · rw [apart mine]
      exact whole

end Dinkster.Workers.Blobs
