import Dinkster.Server.Journal
import Mathlib

/-! What the journal keeps over whole histories: numbers only grow while a stream
exists, durable rows stay, every hole lies below the reported mark, and a reader that
pages by its last number misses nothing that is still there. -/
namespace Dinkster.Journal
open Transition

structure Sound (s : Store) : Prop where
  ordered : s.journal.Pairwise fun a b => a.streamId = b.streamId → a.seq < b.seq
  counted : ∀ r ∈ s.journal, 1 ≤ r.seq ∧ r.seq ≤ s.latestSeq r.streamId
  marked : ∀ stream, s.coalescedBelow stream ≤ s.latestSeq stream
  complete : ∀ stream n, 1 ≤ n → n ≤ s.latestSeq stream →
    (∃ r ∈ s.journal, r.streamId = stream ∧ r.seq = n) ∨ n ≤ s.coalescedBelow stream

/-- What a stream goes through while it exists. -/
structure Grows (stream : PyStr) (s t : Store) : Prop where
  latest : s.latestSeq stream ≤ t.latestSeq stream
  mark : s.coalescedBelow stream ≤ t.coalescedBelow stream
  fresh : ∀ r ∈ t.journal, r.streamId = stream → r ∈ s.journal ∨ s.latestSeq stream < r.seq
  durable : ∀ r ∈ s.journal, r.streamId = stream → r.durable = true → r ∈ t.journal

theorem Sound.empty : Sound {} :=
  ⟨.nil,by simp,fun _ => Nat.le_refl _,fun _ n pos le => absurd le (Nat.not_le.mpr pos)⟩

theorem Grows.refl (stream : PyStr) (s : Store) : Grows stream s s :=
  ⟨Nat.le_refl _,Nat.le_refl _,fun _ inside _ => .inl inside,fun _ inside _ _ => inside⟩

theorem Grows.trans {stream : PyStr} {s t u : Store} (first : Grows stream s t)
    (rest : Grows stream t u) : Grows stream s u := by
  refine ⟨first.latest.trans rest.latest,first.mark.trans rest.mark,?_,?_⟩
  · intro r inside mine
    rcases rest.fresh r inside mine with old | later
    · exact first.fresh r old mine
    · exact .inr (Nat.lt_of_le_of_lt first.latest later)
  · intro r inside mine lasting
    exact rest.durable r (first.durable r inside mine lasting) mine lasting

section Statements

variable (s : Store) (stream other : PyStr)

@[simp] theorem journal_bumpSeq : (s.bumpSeq stream).journal = s.journal := rfl

@[simp] theorem journal_setMark (w : Nat) : (s.setMark stream w).journal = s.journal := rfl

theorem latestSeq_bumpSeq : (s.bumpSeq stream).latestSeq other =
    if other = stream then s.latestSeq stream + 1 else s.latestSeq other := by
  unfold Store.bumpSeq Store.latestSeq
  rw [Dict.get?_set]
  by_cases same : other = stream
  · cases s.streams.get? stream <;> simp [same]
  · simp [same]

theorem coalescedBelow_bumpSeq :
    (s.bumpSeq stream).coalescedBelow other = s.coalescedBelow other := by
  unfold Store.bumpSeq Store.coalescedBelow
  rw [Dict.get?_set]
  by_cases same : other = stream
  · cases row : s.streams.get? stream <;> simp [same,row]
  · simp [same]

theorem latestSeq_setMark (w : Nat) :
    (s.setMark stream w).latestSeq other = s.latestSeq other := by
  unfold Store.setMark Store.latestSeq
  rw [Dict.get?_set]
  by_cases same : other = stream
  · cases row : s.streams.get? stream <;> simp [same,row]
  · simp [same]

theorem coalescedBelow_setMark (w : Nat) : (s.setMark stream w).coalescedBelow other =
    if other = stream then w else s.coalescedBelow other := by
  unfold Store.setMark Store.coalescedBelow
  rw [Dict.get?_set]
  by_cases same : other = stream
  · cases s.streams.get? stream <;> simp [same]
  · simp [same]

end Statements

def Entry.unstorable (e : Entry) : Bool :=
  e.check.toOption.isSome && encodable e.streamId && !encodable e.name

def Call.unstorable : Call → Bool
  | .append e => e.unstorable
  | _ => false

theorem insertRow_ok {s t : Store} {r : JournalRecord} : s.insertRow r = .ok t ↔
    encodable r.name = true ∧ (∀ row ∈ s.journal, row.streamId = r.streamId → row.seq ≠ r.seq) ∧
      t = { s with journal := s.journal ++ [r] } := by
  unfold Store.insertRow
  by_cases name : encodable r.name = true
  · rw [if_pos name]
    by_cases taken : (s.journal.any fun row => row.streamId = r.streamId ∧ row.seq = r.seq) = true
    · rw [if_pos taken]
      obtain ⟨row,inside,same⟩ := List.any_eq_true.mp taken
      obtain ⟨mine,number⟩ := of_decide_eq_true same
      constructor
      · intro impossible
        cases impossible
      · rintro ⟨_,free,_⟩
        exact absurd number (free row inside mine)
    · rw [if_neg taken]
      have free (row : JournalRecord) (inside : row ∈ s.journal)
          (mine : row.streamId = r.streamId) : row.seq ≠ r.seq := fun number =>
        taken (List.any_eq_true.mpr ⟨row,inside,decide_eq_true ⟨mine,number⟩⟩)
      constructor
      · intro written
        exact ⟨name,free,(Except.ok.inj written).symm⟩
      · rintro ⟨_,_,rfl⟩
        rfl
  · rw [if_neg name]
    constructor
    · intro impossible
      cases impossible
    · rintro ⟨stored,_⟩
      exact absurd stored name

theorem append_ok {s : Store} {e : Entry} {r : JournalRecord} (done : (s.append e).1 = .ok r) :
    r.streamId = e.streamId ∧ r.seq = s.latestSeq e.streamId + 1 ∧
      (s.append e).2 = { s.bumpSeq e.streamId with journal := s.journal ++ [r] } := by
  unfold Store.append at done ⊢
  cases checked : e.check with
  | error raised => rw [checked] at done; cases done
  | ok args =>
    rw [checked] at done
    by_cases bound : encodable e.streamId = true
    · simp only [bound,if_true] at done ⊢
      split at done
      · cases done
      · rename_i written inserted
        obtain ⟨_,_,rfl⟩ := insertRow_ok.mp inserted
        obtain rfl := Except.ok.inj done
        refine ⟨rfl,?_,?_⟩
        · exact (latestSeq_bumpSeq s e.streamId e.streamId).trans (if_pos rfl)
        · rfl
    · simp only [bound] at done
      cases done

theorem append_error {s : Store} {e : Entry} {raised : Raised} (sound : Sound s)
    (storable : e.unstorable = false) (failed : (s.append e).1 = .error raised) :
    (s.append e).2 = s := by
  unfold Store.append at failed ⊢
  cases checked : e.check with
  | error _ => rfl
  | ok args =>
    by_cases bound : encodable e.streamId = true
    · have name : encodable e.name = true := by
        simpa [Entry.unstorable,checked,bound,Except.toOption] using storable
      rw [checked] at failed
      simp only [bound,if_true] at failed
      split at failed
      · rename_i refused inserted
        -- the counter has moved past every row of the stream
        have free (row : JournalRecord) (inside : row ∈ s.journal)
            (mine : row.streamId = e.streamId) :
            row.seq ≠ (s.bumpSeq e.streamId).latestSeq e.streamId := by
          have bounded := (sound.counted row inside).2
          rw [mine] at bounded
          rw [latestSeq_bumpSeq,if_pos rfl]
          omega
        rw [insertRow_ok.mpr ⟨name,free,rfl⟩] at inserted
        cases inserted
      · cases failed
    · simp only [bound]
      rfl

private theorem sound_append {s : Store} {r : JournalRecord} (sound : Sound s)
    (number : r.seq = s.latestSeq r.streamId + 1) :
    Sound { s.bumpSeq r.streamId with journal := s.journal ++ [r] } := by
  have latest (stream : PyStr) : ({ s.bumpSeq r.streamId with journal := s.journal ++ [r] } :
      Store).latestSeq stream = if stream = r.streamId then s.latestSeq r.streamId + 1
        else s.latestSeq stream := latestSeq_bumpSeq s r.streamId stream
  have mark (stream : PyStr) : ({ s.bumpSeq r.streamId with journal := s.journal ++ [r] } :
      Store).coalescedBelow stream = s.coalescedBelow stream :=
    coalescedBelow_bumpSeq s r.streamId stream
  refine ⟨?_,?_,?_,?_⟩
  · refine List.pairwise_append.mpr ⟨sound.ordered,List.pairwise_singleton _ _,?_⟩
    intro a inside b last same
    obtain rfl := List.mem_singleton.mp last
    have bounded := (sound.counted a inside).2
    rw [same] at bounded
    omega
  · intro row inside
    rw [latest]
    rcases List.mem_append.mp inside with old | new
    · have bounded := sound.counted row old
      split
      · rename_i same
        rw [same] at bounded
        omega
      · exact bounded
    · obtain rfl := List.mem_singleton.mp new
      rw [if_pos rfl]
      omega
  · intro stream
    rw [latest,mark]
    have below := sound.marked stream
    split
    · rename_i same
      rw [same] at below ⊢
      omega
    · exact below
  · intro stream n pos le
    rw [latest] at le
    rw [mark]
    by_cases old : n ≤ s.latestSeq stream
    · rcases sound.complete stream n pos old with ⟨row,inside,facts⟩ | hole
      · exact .inl ⟨row,List.mem_append_left _ inside,facts⟩
      · exact .inr hole
    · split at le
      · rename_i same
        rw [same] at old
        refine .inl ⟨r,List.mem_append_right _ (List.mem_singleton_self r),same.symm,?_⟩
        omega
      · exact absurd le old

private theorem grows_append {s : Store} {r : JournalRecord} (stream : PyStr)
    (number : r.seq = s.latestSeq r.streamId + 1) :
    Grows stream s { s.bumpSeq r.streamId with journal := s.journal ++ [r] } := by
  refine ⟨?_,?_,?_,?_⟩
  · refine le_of_le_of_eq ?_ (latestSeq_bumpSeq s r.streamId stream).symm
    split
    · rename_i same
      rw [same]
      omega
    · exact Nat.le_refl _
  · exact Nat.le_of_eq (coalescedBelow_bumpSeq s r.streamId stream).symm
  · intro row inside mine
    rcases List.mem_append.mp inside with old | new
    · exact .inl old
    · obtain rfl := List.mem_singleton.mp new
      rw [mine] at number
      exact .inr (by omega)
  · exact fun row inside _ _ => List.mem_append_left _ inside

private theorem prune_spec (s : Store) (stream : PyStr) (upTo : Int) (sound : Sound s) :
    Sound (s.pruneCoalescible stream upTo).2 ∧
      ∀ other, Grows other s (s.pruneCoalescible stream upTo).2 := by
  unfold Store.pruneCoalescible
  split
  · exact ⟨sound,fun other => Grows.refl other s⟩
  split
  swap
  · exact ⟨sound,fun other => Grows.refl other s⟩
  extract_lets watermark pruned rest
  have below : watermark ≤ s.latestSeq stream := Nat.min_le_right _ _
  have kept (r : JournalRecord) (inside : r ∈ s.journal) (gone : r ∉ rest.journal) :
      r.streamId = stream ∧ r.seq ≤ watermark ∧ r.durable = false := by
    have dropped : pruned r = true := by
      by_contra stays
      exact gone (List.mem_filter.mpr ⟨inside,by simp [stays]⟩)
    simpa [pruned,and_assoc] using dropped
  have smaller (r : JournalRecord) (inside : r ∈ rest.journal) : r ∈ s.journal :=
    List.mem_of_mem_filter inside
  -- the marked store differs from the pruned rows in the marks alone
  suffices facts : ∀ t : Store, t.journal = rest.journal →
      (∀ other, t.latestSeq other = s.latestSeq other) →
      (∀ other, t.coalescedBelow other =
        if other = stream then max (s.coalescedBelow stream) watermark
        else s.coalescedBelow other) →
      Sound t ∧ ∀ other, Grows other s t by
    split
    · rename_i advances
      refine facts _ rfl (fun other => latestSeq_setMark _ _ _ _) fun other => ?_
      have mark := coalescedBelow_setMark rest stream other watermark
      rw [mark]
      split
      · exact (Nat.max_eq_right (Nat.le_of_lt advances)).symm
      · rfl
    · rename_i stays
      refine facts _ rfl (fun _ => rfl) fun other => ?_
      split
      · rename_i same
        rw [same]
        exact (Nat.max_eq_left (Nat.not_lt.mp stays)).symm
      · rfl
  intro t rows latest mark
  refine ⟨⟨?_,?_,?_,?_⟩,fun other => ⟨?_,?_,?_,?_⟩⟩
  · rw [rows]
    exact sound.ordered.sublist List.filter_sublist
  · intro r inside
    rw [rows] at inside
    rw [latest]
    exact sound.counted r (smaller r inside)
  · intro other
    rw [latest,mark]
    split
    · rename_i same
      rw [same]
      exact Nat.max_le.mpr ⟨sound.marked stream,below⟩
    · exact sound.marked other
  · intro other n pos le
    rw [latest] at le
    rw [mark,rows]
    rcases sound.complete other n pos le with ⟨r,inside,mine,number⟩ | hole
    · by_cases stays : r ∈ rest.journal
      · exact .inl ⟨r,stays,mine,number⟩
      · obtain ⟨theirs,low,_⟩ := kept r inside stays
        rw [if_pos (mine.symm.trans theirs)]
        exact .inr (by omega)
    · refine .inr ?_
      split
      · rename_i same
        rw [same] at hole
        omega
      · exact hole
  · exact Nat.le_of_eq (latest other).symm
  · rw [mark]
    split
    · rename_i same
      rw [same]
      exact Nat.le_max_left _ _
    · exact Nat.le_refl _
  · intro r inside _
    rw [rows] at inside
    exact .inl (smaller r inside)
  · intro r inside _ lasting
    rw [rows]
    by_contra gone
    have dropped := (kept r inside gone).2.2
    rw [lasting] at dropped
    cases dropped

private theorem delete_spec (s : Store) (stream : PyStr) (sound : Sound s) :
    Sound (s.deleteStream stream).2 ∧
      ∀ other, other ≠ stream → Grows other s (s.deleteStream stream).2 := by
  unfold Store.deleteStream
  split
  swap
  · exact ⟨sound,fun other _ => Grows.refl other s⟩
  dsimp only
  generalize erased : ({ journal := s.journal.filter fun r => decide (r.streamId ≠ stream)
                         streams := s.streams.erase stream } : Store) = t
  have rows (r : JournalRecord) : r ∈ t.journal ↔ r ∈ s.journal ∧ r.streamId ≠ stream := by
    rw [← erased,List.mem_filter,decide_eq_true_iff]
  have latest (other : PyStr) : t.latestSeq other =
      if other = stream then 0 else s.latestSeq other := by
    rw [← erased]
    unfold Store.latestSeq
    rw [Dict.get?_erase]
    split <;> rfl
  have mark (other : PyStr) : t.coalescedBelow other =
      if other = stream then 0 else s.coalescedBelow other := by
    rw [← erased]
    unfold Store.coalescedBelow
    rw [Dict.get?_erase]
    split <;> rfl
  refine ⟨⟨?_,?_,?_,?_⟩,fun other differs => ⟨?_,?_,?_,?_⟩⟩
  · rw [← erased]
    exact sound.ordered.sublist List.filter_sublist
  · intro r inside
    obtain ⟨old,differs⟩ := (rows r).mp inside
    rw [latest,if_neg differs]
    exact sound.counted r old
  · intro other
    rw [latest,mark]
    split
    · exact Nat.le_refl _
    · exact sound.marked other
  · intro other n pos le
    rw [latest] at le
    split at le
    · omega
    · rename_i differs
      rw [mark,if_neg differs]
      rcases sound.complete other n pos le with ⟨r,inside,mine,number⟩ | hole
      · exact .inl ⟨r,(rows r).mpr ⟨inside,mine ▸ differs⟩,mine,number⟩
      · exact .inr hole
  · rw [latest,if_neg differs]
  · rw [mark,if_neg differs]
  · exact fun r inside _ => .inl ((rows r).mp inside).1
  · exact fun r inside mine _ => (rows r).mpr ⟨inside,mine ▸ differs⟩

theorem answer_sound {s : Store} {call : Call} (sound : Sound s)
    (storable : call.unstorable = false) : Sound (s.answer call).2 := by
  cases call with
  | append e =>
    cases outcome : (s.append e).1 with
    | error raised =>
      have same : (s.answer (.append e)).2 = s := append_error sound storable outcome
      rw [same]
      exact sound
    | ok r =>
      obtain ⟨mine,number,written⟩ := append_ok outcome
      show Sound (s.append e).2
      rw [written,← mine]
      exact sound_append sound (mine ▸ number)
  | latestSeq stream => exact sound
  | read stream after limit => exact sound
  | pruneCoalescible stream upTo => exact (prune_spec s stream upTo sound).1
  | deleteStream stream => exact (delete_spec s stream sound).1

theorem answer_grows {s : Store} {call : Call} {stream : PyStr} (sound : Sound s)
    (storable : call.unstorable = false) (keeps : call ≠ .deleteStream stream) :
    Grows stream s (s.answer call).2 := by
  cases call with
  | append e =>
    cases outcome : (s.append e).1 with
    | error raised =>
      have same : (s.answer (.append e)).2 = s := append_error sound storable outcome
      rw [same]
      exact Grows.refl stream s
    | ok r =>
      obtain ⟨mine,number,written⟩ := append_ok outcome
      show Grows stream s (s.append e).2
      rw [written,← mine]
      exact grows_append stream (mine ▸ number)
  | latestSeq _ => exact Grows.refl stream s
  | read _ after limit => exact Grows.refl stream s
  | pruneCoalescible other upTo => exact (prune_spec s other upTo sound).2 stream
  | deleteStream other =>
    exact (delete_spec s other sound).2 stream fun same => keeps (same ▸ rfl)

theorem run_sound {α : Type} {fn : Callable α} {s : Store} (sound : Sound s)
    (storable : ∀ call ∈ fn.trace s, call.unstorable = false) : Sound (fn.run s).2 := by
  induction fn generalizing s with
  | returns a => exact sound
  | raises raised => exact sound
  | calls call next ih =>
    have first := answer_sound sound (storable call List.mem_cons_self)
    exact ih _ first fun later inside => storable later (List.mem_cons_of_mem _ inside)

theorem run_grows {α : Type} {fn : Callable α} {s : Store} {stream : PyStr} (sound : Sound s)
    (storable : ∀ call ∈ fn.trace s, call.unstorable = false)
    (keeps : Call.deleteStream stream ∉ fn.trace s) : Grows stream s (fn.run s).2 := by
  induction fn generalizing s with
  | returns a => exact Grows.refl stream s
  | raises raised => exact Grows.refl stream s
  | calls call next ih =>
    have storableFirst := storable call List.mem_cons_self
    have kept : call ≠ .deleteStream stream := fun same => keeps (same ▸ List.mem_cons_self)
    refine (answer_grows sound storableFirst kept).trans ?_
    refine ih _ (answer_sound sound storableFirst) ?_ ?_
    · exact fun later inside => storable later (List.mem_cons_of_mem _ inside)
    · exact fun inside => keeps (List.mem_cons_of_mem _ inside)

theorem transact_rolls_back {α : Type} {s : Store} {fn : Callable α} {raised : Raised}
    (failed : (transact s fn).1 = .error raised) : (transact s fn).2 = s := by
  unfold transact at failed ⊢
  split at failed
  · cases failed
  · rfl

theorem transact_cases {α : Type} (s : Store) (fn : Callable α) :
    (∃ a, (fn.run s).1 = .ok a ∧ (transact s fn).2 = (fn.run s).2) ∨ (transact s fn).2 = s := by
  unfold transact
  split
  · rename_i a written ran
    exact .inl ⟨a,by rw [ran],by rw [ran]⟩
  · exact .inr rfl

/-- A transaction that commits has not caught the failure of an append whose row could
not be written. -/
def Storable (s : Store) (fn : Callable Reply) : Prop :=
  ∀ reply, (fn.run s).1 = .ok reply → ∀ call ∈ fn.trace s, call.unstorable = false

def Keeps (stream : PyStr) (s : Store) (fn : Callable Reply) : Prop :=
  ∀ reply, (fn.run s).1 = .ok reply → Call.deleteStream stream ∉ fn.trace s

theorem step_sound {s t : Store} {fn : Callable Reply} (sound : Sound s) (ok : Storable s fn)
    (taken : step s fn = some t) : Sound t := by
  obtain rfl := Option.some.inj taken
  rcases transact_cases s fn with ⟨reply,committed,written⟩ | unchanged
  · rw [written]
    exact run_sound sound (ok reply committed)
  · rw [unchanged]
    exact sound

theorem step_grows {s t : Store} {fn : Callable Reply} {stream : PyStr} (sound : Sound s)
    (ok : Storable s fn) (keeps : Keeps stream s fn) (taken : step s fn = some t) :
    Grows stream s t := by
  obtain rfl := Option.some.inj taken
  rcases transact_cases s fn with ⟨reply,committed,written⟩ | unchanged
  · rw [written]
    exact run_grows sound (ok reply committed) (keeps reply committed)
  · rw [unchanged]
    exact Grows.refl stream s

abbrev Reached := Reach step Storable

/-- Histories that do not delete the stream. -/
abbrev Lives (stream : PyStr) := Reach step fun s fn => Storable s fn ∧ Keeps stream s fn

theorem reached_sound {s t : Store} (sound : Sound s) (reached : Reached s t) : Sound t :=
  reached.invariant Sound sound fun _ _ _ before ok taken => step_sound before ok taken

theorem lives_grows {s t : Store} {stream : PyStr} (sound : Sound s) (lives : Lives stream s t) :
    Sound t ∧ Grows stream s t := by
  refine lives.invariant (fun u => Sound u ∧ Grows stream s u) ⟨sound,Grows.refl stream s⟩ ?_
  rintro u fn v ⟨before,grown⟩ ⟨ok,keeps⟩ taken
  exact ⟨step_sound before ok taken,grown.trans (step_grows before ok keeps taken)⟩

private theorem later_sorted {s : Store} (sound : Sound s) (stream : PyStr) (after : Nat) :
    ((s.records stream).filter fun r => after < r.seq).Pairwise fun a b => a.seq < b.seq := by
  unfold Store.records
  rw [List.filter_filter]
  refine List.pairwise_filter.mpr (sound.ordered.imp ?_)
  intro a b below left right
  simp only [Bool.and_eq_true,decide_eq_true_eq] at left right
  exact below (left.2.trans right.2.symm)

theorem read_ok {s : Store} {stream : PyStr} {after limit : Int} {page : JournalPage}
    (sound : Sound s) (got : s.read stream after limit = .ok page) :
    0 ≤ after ∧ ∃ n, 1 ≤ n ∧
      page.records = ((s.records stream).filter fun r => after.toNat < r.seq).take n := by
  unfold Store.read at got
  split at got
  · cases got
  rename_i nonnegative
  split at got
  swap
  · cases got
  obtain rfl := Except.ok.inj got
  refine ⟨Int.not_lt.mp nonnegative,(max 1 limit).toNat,by omega,?_⟩
  have sorted := later_sorted sound stream after.toNat
  have weak : ((s.records stream).filter fun r => after.toNat < r.seq).Pairwise
      fun a b => decide (a.seq ≤ b.seq) = true :=
    sorted.imp fun below => decide_eq_true (Nat.le_of_lt below)
  rw [List.mergeSort_of_pairwise weak]

/-- The cursor for the next page: the last number returned. -/
def JournalPage.next (page : JournalPage) (after : Int) : Int :=
  match page.records.getLast? with
  | some r => r.seq
  | none => after

/-- A reader of one stream that asks for page after page, with any limits, while other
transactions go on: where it started, where it is, and what it has been given. -/
inductive Reading (stream : PyStr) (s : Store) (start : Int) :
    Store → Int → List JournalRecord → Prop
  | started : Reading stream s start s start []
  | waited {t u : Store} {cursor : Int} {given : List JournalRecord}
      (before : Reading stream s start t cursor given) (lives : Lives stream t u) :
      Reading stream s start u cursor given
  | paged {t : Store} {cursor limit : Int} {given : List JournalRecord} {page : JournalPage}
      (before : Reading stream s start t cursor given)
      (got : t.read stream cursor limit = .ok page) :
      Reading stream s start t (page.next cursor) (given ++ page.records)

/-- What has been given: in order, after the start, and all of it up to the cursor. -/
structure Delivered (stream : PyStr) (start : Int) (t : Store) (cursor : Int)
    (given : List JournalRecord) : Prop where
  ascending : given.Pairwise fun a b => a.seq < b.seq
  between : ∀ r ∈ given, r.streamId = stream ∧ start < r.seq ∧ (r.seq : Int) ≤ cursor
  all : ∀ r ∈ t.journal, r.streamId = stream → start < r.seq → (r.seq : Int) ≤ cursor → r ∈ given
  from_start : start ≤ cursor
  behind : cursor ≤ max start (t.latestSeq stream)

private theorem delivered_waited {stream : PyStr} {start cursor : Int} {t u : Store}
    {given : List JournalRecord} (before : Delivered stream start t cursor given)
    (grown : Grows stream t u) : Delivered stream start u cursor given := by
  refine ⟨before.ascending,before.between,?_,before.from_start,?_⟩
  · intro r inside mine above below
    rcases grown.fresh r inside mine with old | later
    · exact before.all r old mine above below
    · have behind := before.behind
      omega
  · have behind := before.behind
    have latest := grown.latest
    omega

private theorem delivered_paged {stream : PyStr} {start cursor limit : Int} {t : Store}
    {given : List JournalRecord} {page : JournalPage} (sound : Sound t)
    (before : Delivered stream start t cursor given)
    (got : t.read stream cursor limit = .ok page) :
    Delivered stream start t (page.next cursor) (given ++ page.records) := by
  obtain ⟨nonnegative,n,pos,taken⟩ := read_ok sound got
  have sorted := later_sorted sound stream cursor.toNat
  have mem_later (r : JournalRecord) :
      r ∈ (t.records stream).filter (fun r => cursor.toNat < r.seq) ↔
        r ∈ t.journal ∧ r.streamId = stream ∧ cursor < r.seq := by
    simp only [Store.records,List.mem_filter,decide_eq_true_eq,and_assoc]
    have number : cursor.toNat < r.seq ↔ cursor < r.seq := by omega
    rw [number]
  generalize later : (t.records stream).filter (fun r => cursor.toNat < r.seq) = rows
    at taken sorted mem_later
  cases last : page.records.getLast? with
  | none =>
    have nothing : page.records = [] := List.getLast?_eq_none_iff.mp last
    have same : page.next cursor = cursor := by rw [JournalPage.next,last]
    rw [nothing,List.append_nil,same]
    exact before
  | some r =>
    have next : page.next cursor = r.seq := by rw [JournalPage.next,last]
    have inside : r ∈ page.records := List.mem_of_getLast? last
    have new (row : JournalRecord) (here : row ∈ page.records) :
        row ∈ t.journal ∧ row.streamId = stream ∧ cursor < row.seq :=
      (mem_later row).mp (List.mem_of_mem_take (taken ▸ here))
    have ascending : page.records.Pairwise fun a b => a.seq < b.seq :=
      taken ▸ sorted.sublist (List.take_sublist n rows)
    obtain ⟨front,split⟩ := List.getLast?_eq_some_iff.mp last
    have top (row : JournalRecord) (here : row ∈ page.records) : row.seq ≤ r.seq := by
      rw [split] at here ascending
      rcases List.mem_append.mp here with earlier | final
      · exact Nat.le_of_lt ((List.pairwise_append.mp ascending).2.2 row earlier r
          (List.mem_singleton_self r))
      · rw [List.mem_singleton.mp final]
    have counted := (sound.counted r (new r inside).1).2
    rw [(new r inside).2.1] at counted
    have above := (new r inside).2.2
    have from_start := before.from_start
    rw [next]
    refine ⟨List.pairwise_append.mpr ⟨before.ascending,ascending,?_⟩,?_,?_,by omega,by omega⟩
    · intro a earlier b here
      have low := (before.between a earlier).2.2
      have high := (new b here).2.2
      omega
    · intro row member
      rcases List.mem_append.mp member with earlier | here
      · obtain ⟨mine,after,below⟩ := before.between row earlier
        exact ⟨mine,after,by omega⟩
      · obtain ⟨_,mine,after⟩ := new row here
        have below := top row here
        exact ⟨mine,by omega,by omega⟩
    · intro row held mine after below
      by_cases old : (row.seq : Int) ≤ cursor
      · exact List.mem_append_left _ (before.all row held mine after old)
      · refine List.mem_append_right _ ?_
        have kept : row ∈ rows := (mem_later row).mpr ⟨held,mine,by omega⟩
        rw [← List.take_append_drop n rows,← taken] at kept sorted
        rcases List.mem_append.mp kept with here | dropped
        · exact here
        · have beyond := (List.pairwise_append.mp sorted).2.2 r inside row dropped
          omega

theorem reading_delivered {stream : PyStr} {s t : Store} {start cursor : Int}
    {given : List JournalRecord} (sound : Sound s)
    (reading : Reading stream s start t cursor given) :
    Sound t ∧ Delivered stream start t cursor given := by
  induction reading with
  | started =>
    refine ⟨sound,.nil,?_,?_,le_refl _,le_max_left _ _⟩
    · intro r inside
      cases inside
    · intro r _ _ above below
      omega
  | waited before lives ih =>
    obtain ⟨kept,grown⟩ := lives_grows ih.1 lives
    exact ⟨kept,delivered_waited ih.2 grown⟩
  | paged before got ih => exact ⟨ih.1,delivered_paged ih.1 ih.2 got⟩

theorem reading_finished {stream : PyStr} {s t : Store} {start cursor limit : Int}
    {given : List JournalRecord} {page : JournalPage} (sound : Sound s)
    (reading : Reading stream s start t cursor given)
    (got : t.read stream cursor limit = .ok page) (nothing : page.records = [])
    {r : JournalRecord} (held : r ∈ t.journal) (mine : r.streamId = stream)
    (above : start < r.seq) : r ∈ given := by
  obtain ⟨sound,delivered⟩ := reading_delivered sound reading
  refine delivered.all r held mine above ?_
  by_contra beyond
  obtain ⟨nonnegative,n,pos,taken⟩ := read_ok sound got
  rw [nothing] at taken
  have waiting : r ∈ (t.records stream).filter fun r => cursor.toNat < r.seq := by
    simp only [Store.records,List.mem_filter,decide_eq_true_eq]
    exact ⟨⟨held,mine⟩,by omega⟩
  rcases List.take_eq_nil_iff.mp taken.symm with zero | empty
  · omega
  · rw [empty] at waiting
    cases waiting

/-- Every history from the empty journal whose committed transactions have not caught the
failure of a row that could not be written. -/
theorem journal_histories {s : Store} (reached : Reached {} s) :
    Sound s ∧
      (∀ stream t, Lives stream s t → Grows stream s t) ∧
      (∀ stream start t cursor given, Reading stream s start t cursor given →
        Delivered stream start t cursor given ∧
          ∀ limit page, t.read stream cursor limit = .ok page → page.records = [] →
            ∀ r ∈ t.journal, r.streamId = stream → start < r.seq → r ∈ given) ∧
      ∀ (fn : Callable Reply) raised, (transact s fn).1 = .error raised →
        (transact s fn).2 = s := by
  have sound := reached_sound Sound.empty reached
  refine ⟨sound,fun stream t lives => (lives_grows sound lives).2,?_,
    fun fn raised failed => transact_rolls_back failed⟩
  intro stream start t cursor given reading
  refine ⟨(reading_delivered sound reading).2,?_⟩
  intro limit page got nothing r held mine above
  exact reading_finished sound reading got nothing held mine above

local instance codeSpace : NeZero 0x110000 := ⟨by decide⟩

def oneAppend : Callable Reply :=
  .only (.append ⟨[97],[98],.obj [],some true,some (.finite 0),0⟩)

theorem journal_histories_oneAppend :
    (transact {} oneAppend).2.latestSeq [97] = 1 ∧ Sound (transact {} oneAppend).2 := by
  have storable : Storable {} oneAppend := by
    intro reply _ call inside
    obtain rfl := List.mem_singleton.mp inside
    rfl
  exact ⟨rfl,(journal_histories (.step .refl storable rfl)).1⟩

def caughtAppend : Callable Reply :=
  .calls (.append ⟨[97],[0xD800],.obj [],some true,some (.finite 0),0⟩) fun _ => .returns (.seq 0)

theorem caughtAppend_burns_number : ¬ ∀ s, Reachable step {} s → ∀ stream n, 1 ≤ n →
    n ≤ s.latestSeq stream →
      (∃ r ∈ s.journal, r.streamId = stream ∧ r.seq = n) ∨ n ≤ s.coalescedBelow stream := by
  intro claim
  have burned : (transact {} caughtAppend).2.latestSeq [97] = 1 := rfl
  have rows : (transact {} caughtAppend).2.journal = [] := rfl
  have mark : (transact {} caughtAppend).2.coalescedBelow [97] = 0 := rfl
  have reached : Reachable step {} (transact {} caughtAppend).2 := .step .refl trivial rfl
  rcases claim _ reached [97] 1 (le_refl _) burned.ge with ⟨r,inside,_⟩ | low
  · rw [rows] at inside
    cases inside
  · rw [mark] at low
    omega

end Dinkster.Journal
