import Dinkster.Server.RunRetentionSafety

/-! Whole batches and whole runs. A batch commits into well-kept tables exactly where none of its
items is late, so a run whose batches are on time keeps them. -/
namespace Dinkster.ExecutionJournal
open Journal (PyStr Store Entry Raised encodable)
open Transition

variable {r : Retention} {t u : Tables} {b c : Landing} {batch before rest : List Item}
  {item : Item} {runId : PyStr} {p q : Pipeline}

theorem write_concat (done : write r t (before ++ [item]) = .ok c) :
    ∃ b, write r t before = .ok b ∧ b.land r item = .ok c := by
  unfold write at done
  rw [List.foldlM_append] at done
  obtain ⟨b,first,last⟩ := Fallible.bind_ok.mp done
  rw [List.foldlM_cons] at last
  obtain ⟨next,landed,final⟩ := Fallible.bind_ok.mp last
  obtain rfl : next = c := Except.ok.inj final
  exact ⟨b,first,landed⟩

theorem write_append (done : write r t (before ++ rest) = .ok c) :
    ∃ b, write r t before = .ok b ∧ rest.foldlM (Landing.land r) b = .ok c := by
  unfold write at done
  rw [List.foldlM_append] at done
  exact Fallible.bind_ok.mp done

theorem registered_of_write (done : write r t batch = .ok b) :
    (∀ a, .append a ∈ batch → a.runId ∈ b.registered) ∧
      ∀ runId ∈ b.registered, encodable runId = true := by
  induction batch using List.reverseRecOn generalizing b with
  | nil =>
    obtain rfl := Except.ok.inj done
    simp
  | append_singleton before item ih =>
    obtain ⟨b,first,landed⟩ := write_concat done
    obtain ⟨known,text⟩ := ih first
    cases item with
    | append a =>
      rcases land_append landed with ⟨inside,same,_⟩ | ⟨_,same,_,inserted,_⟩
      · rw [same]
        refine ⟨fun other listed => ?_,text⟩
        rcases List.mem_append.mp listed with old | new
        · exact known other old
        · obtain rfl := Item.append.inj (List.mem_singleton.mp new)
          exact inside
      · rw [same]
        constructor
        · intro other listed
          rcases List.mem_append.mp listed with old | new
          · exact List.mem_cons_of_mem _ (known other old)
          · obtain rfl := Item.append.inj (List.mem_singleton.mp new)
            exact List.mem_cons_self
        · exact List.forall_mem_cons.mpr ⟨(register_ok inserted).1,text⟩
    | finalize f =>
      rw [(land_finalize landed).1]
      refine ⟨fun other listed => ?_,text⟩
      rcases List.mem_append.mp listed with old | new
      · exact known other old
      · cases List.mem_singleton.mp new

theorem Paired.registered (paired : Paired batch) (split : batch = before ++ item :: rest)
    (done : write r t before = .ok b) :
    ∀ f, item = .finalize f → f.runId ∈ b.registered := by
  rintro f rfl
  obtain ⟨a,inside,same⟩ := paired before f rest split
  exact same ▸ (registered_of_write done).1 a inside

/-- The tables between two batches. -/
abbrev Settled (t : Tables) : Prop := Underway ⟨[],t⟩ []

theorem Underway.settled (underway : Underway b []) : Settled b.tables :=
  ⟨underway.marked,underway.known,underway.indexed,by simp⟩

theorem Settled.underway (settled : Settled t) (batch : List Item) :
    Underway ⟨[],t⟩ batch := by
  refine ⟨?_,settled.known,settled.indexed,by simp⟩
  intro runId row mark found unfinished
  obtain ⟨f,inside,_⟩ := settled.marked runId row mark found unfinished
  cases inside

theorem Settled.write (settled : Settled t) (paired : Paired batch)
    (punctual : Punctual r t batch) (done : write r t batch = .ok b) : Settled b.tables := by
  have reached (landed : List Item) : ∀ rest b, batch = landed ++ rest →
      ExecutionJournal.write r t landed = .ok b → Underway b rest := by
    induction landed using List.reverseRecOn with
    | nil =>
      intro rest b whole done
      obtain rfl := Except.ok.inj done
      exact settled.underway rest
    | append_singleton landed item ih =>
      intro rest c whole done
      obtain ⟨b,first,last⟩ := write_concat done
      have split : batch = landed ++ item :: rest := by simp [whole]
      exact (ih (item :: rest) b split first).land (punctual landed item rest b split first)
        (paired.registered split first) last
  exact (reached batch [] b (by simp) done).settled

/-- Whatever expired had ended; the row of a run that ended, expired or not, is marked finished;
every stream has its row; and the stream of a run that ended expires once the cutoff of any
retention passes the time of its mark. -/
structure Retained (t : Tables) : Prop where
  ordered : EndedFirst t.notes
  marked : ∀ runId row, .ended runId ∈ t.notes → t.index.get? runId = some row →
    row.finished ≠ none
  indexed : ∀ runId, Holds t.store (executionRunStream runId) →
    ∃ row, t.index.get? runId = some row
  eligible : ∀ runId, .ended runId ∈ t.notes → Holds t.store (executionRunStream runId) →
    ∃ row time, t.index.get? runId = some row ∧ row.finished = some time ∧
      ∀ r now, time < Retention.cutoff r now → ∃ u, t.expire r now = .ok u ∧
        u.index.get? runId = none ∧ ¬ Holds u.store (executionRunStream runId)

private theorem dropRuns_total {gone : List PyStr} (text : ∀ runId ∈ gone, encodable runId = true)
    (t : Tables) : ∃ u, gone.foldlM Tables.dropRun t = .ok u := by
  induction gone generalizing t with
  | nil => exact ⟨t,rfl⟩
  | cons runId gone ih =>
    obtain ⟨first,others⟩ := List.forall_mem_cons.mp text
    have dropped : ∃ next, t.dropRun runId = .ok next := by
      simp [Tables.dropRun,Store.deleteStream,encodable_stream first]
    obtain ⟨next,dropped⟩ := dropped
    obtain ⟨u,rest⟩ := ih others next
    exact ⟨u,by rw [List.foldlM_cons,dropped]; exact rest⟩

theorem Traced.expire_total (traced : Traced t) (r : Retention) (now : ℚ) :
    ∃ u, t.expire r now = .ok u := by
  apply dropRuns_total
  intro runId picked
  obtain ⟨row,_,found,_⟩ := finished_of_expired picked
  exact traced.text runId row found

theorem Settled.retained (settled : Settled t) (traced : Traced t) : Retained t := by
  have marked : ∀ runId row, .ended runId ∈ t.notes → t.index.get? runId = some row →
      row.finished ≠ none := by
    intro runId row ended found unfinished
    obtain ⟨f,inside,_⟩ := settled.marked runId row ended found unfinished
    cases inside
  refine ⟨traced.ordered,marked,settled.indexed,?_⟩
  intro runId ended held
  obtain ⟨row,found⟩ := settled.indexed runId held
  obtain ⟨time,finished⟩ := Option.ne_none_iff_exists'.mp (marked runId row ended found)
  refine ⟨row,time,found,finished,?_⟩
  intro r now old
  obtain ⟨u,expired⟩ := traced.expire_total r now
  have dropped := dropRuns expired
  have picked := expired_of_finished found finished old
  refine ⟨u,expired,?_,?_⟩
  · rw [dropped.index,if_pos picked]
  · intro left
    exact (dropped.holds _ left).2 runId picked rfl

def Spoilt (b : Landing) (runId : PyStr) (rest : List Item) : Prop :=
  ((∃ row, b.tables.index.get? runId = some row ∧ row.finished = none) ∧
    .ended runId ∈ b.tables.notes ∧ ∀ f, .finalize f ∈ rest → f.runId ≠ runId) ∨
  (runId ∈ b.registered ∧ b.tables.index.get? runId = none ∧
    HasCounter b.tables.store (executionRunStream runId))

private theorem Dropped.spares {now : ℚ} (dropped : Dropped (t.expiredRuns r now) t u)
    (unpicked : ∀ row, t.index.get? runId = some row → row.finished = none) :
    u.index.get? runId = t.index.get? runId ∧
      (HasCounter t.store (executionRunStream runId) →
        HasCounter u.store (executionRunStream runId)) := by
  have stays : runId ∉ t.expiredRuns r now := by
    intro picked
    obtain ⟨row,time,found,finished⟩ := finished_of_expired picked
    rw [unpicked row found] at finished
    cases finished
  constructor
  · rw [dropped.index,if_neg stays]
  · apply dropped.counters
    intro other picked same
    exact stays (stream_injective same ▸ picked)

private theorem finalize_spares {f : Finalize} (done : b.land r (.finalize f) = .ok c)
    (apart : f.runId ≠ runId ∨ b.tables.index.get? runId = none)
    (unpicked : ∀ row, b.tables.index.get? runId = some row → row.finished = none) :
    c.tables.index.get? runId = b.tables.index.get? runId ∧
      (∀ note ∈ b.tables.notes, note ∈ c.tables.notes) ∧
      (HasCounter b.tables.store (executionRunStream runId) ∨
          (f.runId = runId ∧ encodable runId = true ∧
            ∃ keeper ∈ f.keepers, ∃ checked, (f.entry keeper).check = .ok checked) →
        HasCounter c.tables.store (executionRunStream runId)) := by
  obtain ⟨_,t,recorded,dropped⟩ := land_finalize done
  have marked : (t.markFinished f.runId f.timestamp).index.get? runId =
      b.tables.index.get? runId := by
    rw [get?_markFinished,recorded.index]
    split
    · rename_i same
      rcases apart with differs | missing
      · exact absurd same.symm differs
      · simp [missing]
    · rfl
  have spared := dropped.spares (by rwa [marked])
  refine ⟨spared.1.trans marked,?_,?_⟩
  · intro note inside
    rw [dropped.notes]
    exact List.mem_append_left _ (List.mem_append_left _ (recorded.notes ▸ inside))
  · intro counted
    apply spared.2
    rcases counted with has | ⟨rfl,text,wrote⟩
    · exact recorded.counters _ has
    · exact recorded.counted wrote (encodable_stream text)

theorem Spoilt.land (spoilt : Spoilt b runId (item :: rest)) (done : b.land r item = .ok c) :
    Spoilt c runId rest := by
  rcases spoilt with ⟨⟨row,found,unfinished⟩,ended,last⟩ | ⟨known,missing,counter⟩
  · left
    have later : ∀ f, .finalize f ∈ rest → f.runId ≠ runId := fun f inside =>
      last f (List.mem_cons_of_mem _ inside)
    cases item with
    | append a =>
      rcases land_append done with ⟨_,_,recorded⟩ | ⟨_,_,t,inserted,recorded⟩
      · rw [recorded.index,recorded.notes]
        exact ⟨⟨row,found,unfinished⟩,ended,later⟩
      · rw [recorded.index,recorded.notes]
        obtain ⟨_,_,⟨_,rfl⟩ | ⟨absent,index,notes⟩⟩ := register_ok inserted
        · exact ⟨⟨row,found,unfinished⟩,ended,later⟩
        · have other : runId ≠ a.runId := by
            rintro rfl
            rw [found] at absent
            cases absent
          rw [index,notes,Dict.get?_set_ne _ _ other]
          exact ⟨⟨row,found,unfinished⟩,List.mem_append_left _ ended,later⟩
    | finalize f =>
      have spared := finalize_spares done (.inl (last f List.mem_cons_self)) (by
        intro other there
        rw [found] at there
        obtain rfl := Option.some.inj there
        exact unfinished)
      rw [spared.1]
      exact ⟨⟨row,found,unfinished⟩,spared.2.1 _ ended,later⟩
  · right
    cases item with
    | append a =>
      rcases land_append done with ⟨_,same,recorded⟩ | ⟨fresh,same,t,inserted,recorded⟩
      · rw [recorded.index,same]
        exact ⟨known,missing,recorded.counters _ counter⟩
      · rw [recorded.index,same]
        obtain ⟨_,store,⟨_,rfl⟩ | ⟨_,index,_⟩⟩ := register_ok inserted
        · exact ⟨List.mem_cons_of_mem _ known,missing,recorded.counters _ counter⟩
        · have other : runId ≠ a.runId := fun same => fresh (same ▸ known)
          rw [index,Dict.get?_set_ne _ _ other]
          exact ⟨List.mem_cons_of_mem _ known,missing,recorded.counters _ (store ▸ counter)⟩
    | finalize f =>
      have spared := finalize_spares done (.inr missing) (by simp [missing])
      rw [spared.1,(land_finalize done).1]
      exact ⟨known,missing,spared.2.2 (.inl counter)⟩

theorem spoilt_of_late (traced : Traced b.tables) (late : b.Late item rest)
    (text : ∀ runId ∈ b.registered, encodable runId = true)
    (paired : ∀ f, item = .finalize f → f.runId ∈ b.registered)
    (done : b.land r item = .ok c) : Spoilt c item.runId rest := by
  obtain ⟨⟨expired,missing⟩,touches,last⟩ := late
  cases item with
  | append a =>
    change .expired a.runId ∈ b.tables.notes at expired
    change b.tables.index.get? a.runId = none at missing
    rcases land_append done with ⟨known,same,recorded⟩ | ⟨fresh,same,t,inserted,recorded⟩
    · right
      have wrote := touches.resolve_left (not_not.mpr known)
      refine ⟨same ▸ known,recorded.index ▸ missing,?_⟩
      exact recorded.counted wrote (encodable_stream (text a.runId known))
    · left
      have unmarked := last.resolve_left fresh
      obtain ⟨_,_,⟨⟨row,there⟩,_⟩ | ⟨_,index,notes⟩⟩ := register_ok inserted
      · rw [missing] at there
        cases there
      · rw [recorded.index,recorded.notes,index,notes]
        exact ⟨⟨_,Dict.get?_set_self ..,rfl⟩,
          List.mem_append_left _ (traced.ordered.ended expired),unmarked⟩
  | finalize f =>
    right
    have known := paired f rfl
    have spared := finalize_spares done (.inr missing) (by simp [missing])
    refine ⟨(land_finalize done).1 ▸ known,spared.1.trans missing,?_⟩
    exact spared.2.2 (.inr ⟨rfl,text f.runId known,touches⟩)

theorem not_retained_of_late (traced : Traced t) (paired : Paired batch)
    (late : ¬ Punctual r t batch) (done : write r t batch = .ok c) : ¬ Retained c.tables := by
  unfold Punctual at late
  push Not at late
  obtain ⟨before,item,rest,b,rfl,first,late⟩ := late
  obtain ⟨b',again,last⟩ := write_append done
  obtain rfl : b = b' := Except.ok.inj (first.symm.trans again)
  rw [List.foldlM_cons] at last
  obtain ⟨next,landed,final⟩ := Fallible.bind_ok.mp last
  have spoilt := spoilt_of_late (traced.write first) late (registered_of_write first).2
    (paired.registered rfl first) landed
  have persists : ∀ (rest : List Item) (b : Landing), Spoilt b item.runId rest →
      rest.foldlM (Landing.land r) b = .ok c → Spoilt c item.runId [] := by
    intro rest
    induction rest with
    | nil =>
      intro b spoilt done
      obtain rfl := Except.ok.inj done
      exact spoilt
    | cons item rest ih =>
      intro b spoilt done
      rw [List.foldlM_cons] at done
      obtain ⟨next,landed,final⟩ := Fallible.bind_ok.mp done
      exact ih next (spoilt.land landed) final
  intro retained
  rcases persists rest next spoilt final with ⟨⟨row,found,unfinished⟩,ended,_⟩ | ⟨_,missing,counter⟩
  · exact retained.marked _ row ended found unfinished
  · obtain ⟨row,found⟩ := retained.indexed _ (.inr counter)
    rw [missing] at found
    cases found

theorem Paired.concat (paired : Paired batch)
    (event : ∀ f, item = .finalize f → ∃ a, .append a ∈ batch ∧ a.runId = f.runId) :
    Paired (batch ++ [item]) := by
  intro before f rest split
  rcases List.eq_nil_or_concat rest with rfl | ⟨shorter,last,rfl⟩
  · obtain ⟨rfl,single⟩ := List.append_inj' split rfl
    exact event f (List.head_eq_of_cons_eq single)
  · have whole : batch ++ [item] = (before ++ .finalize f :: shorter) ++ [last] := by
      simpa using split
    exact paired before f shorter (List.append_inj' whole rfl).1

structure Fed (p : Pipeline) : Prop where
  pending : Paired p.pending
  flushing : ∀ batch, p.flushing = some batch → Paired batch
  traced : Traced p.tables

theorem Fed.observe (fed : Fed p) (w : Wire) (scope : PyStr) (now later : ℚ) :
    Fed (p.observe w scope now later) ∧ (p.observe w scope now later).tables = p.tables := by
  unfold Pipeline.observe
  split
  · exact ⟨fed,rfl⟩
  · split
    · exact ⟨fed,rfl⟩
    · split
      · exact ⟨fed,rfl⟩
      · rename_i runId _ kept _
        unfold Pipeline.buffer
        dsimp only
        split
        · exact ⟨⟨fed.pending,fed.flushing,fed.traced⟩,rfl⟩
        · have event (a : Append) : Paired (p.pending ++ [.append a]) := by
            apply fed.pending.concat
            intro f different
            cases different
          split
          · refine ⟨⟨?_,fed.flushing,fed.traced⟩,rfl⟩
            apply (event _).concat
            intro f same
            obtain rfl := Item.finalize.inj same
            exact ⟨_,List.mem_append_right _ (List.mem_singleton.mpr rfl),rfl⟩
          · exact ⟨⟨event _,fed.flushing,fed.traced⟩,rfl⟩

theorem step_tables {a : Action} (fed : Fed p) (taken : step p a = some q) : Fed q ∧
    (q.tables = p.tables ∨
      (a = .write false ∧ ∃ batch b, p.flushing = some batch ∧
        write p.retention p.tables batch = .ok b ∧ q.tables = b.tables) ∨
      ∃ r now, p.tables.bootstrap r now = .ok q.tables) := by
  cases a with
  | observe w scope now later =>
    obtain rfl := Option.some.inj taken
    have kept := fed.observe w scope now later
    exact ⟨kept.1,.inl kept.2⟩
  | close =>
    obtain rfl := Option.some.inj taken
    exact ⟨⟨fed.pending,fed.flushing,fed.traced⟩,.inl rfl⟩
  | take =>
    simp only [step] at taken
    split at taken
    · obtain rfl := Option.some.inj taken
      refine ⟨⟨?_,?_,fed.traced⟩,.inl rfl⟩
      · intro before f rest impossible
        simp at impossible
      · intro batch same
        obtain rfl := Option.some.inj same
        exact fed.pending
    · cases taken
  | write fails =>
    obtain ⟨batch,flushing,rfl⟩ := Option.map_eq_some_iff.mp taken
    have paired := fed.flushing batch flushing
    unfold Pipeline.commit
    split
    · rename_i b done
      exact ⟨⟨fed.pending,by simp,fed.traced.write done⟩,
        .inr (.inl ⟨rfl,batch,b,flushing,done,rfl⟩)⟩
    · exact ⟨⟨fed.pending,by simp,fed.traced⟩,.inl rfl⟩
  | restart keepRuns keepDays now =>
    simp only [step] at taken
    cases opened : restart p.tables keepRuns keepDays now with
    | error raised =>
      rw [opened] at taken
      cases taken
    | ok next =>
      rw [opened] at taken
      obtain rfl := Option.some.inj taken
      unfold restart at opened
      obtain ⟨r,_,opened⟩ := Fallible.bind_ok.mp opened
      obtain ⟨u,booted,last⟩ := Fallible.bind_ok.mp opened
      obtain rfl := Except.ok.inj last
      refine ⟨⟨?_,by simp,fed.traced.abandon.expired (dropRuns booted)⟩,
        .inr (.inr ⟨r,now,booted⟩)⟩
      intro before f rest impossible
      simp at impossible

theorem Settled.abandon (settled : Settled t) : Settled t.abandon := by
  have rows (runId : PyStr) (before : ∃ row, t.index.get? runId = some row) :
      ∃ row, t.abandon.index.get? runId = some row := by
    obtain ⟨row,found⟩ := before
    unfold Tables.abandon
    dsimp only
    rw [Dict.get?_mapWithKey,found]
    exact ⟨_,rfl⟩
  refine ⟨?_,?_,?_,by simp⟩
  · intro runId row _ found unfinished
    exact absurd unfinished (abandon_row found).1
  · intro runId ended
    dsimp only at ended ⊢
    rw [abandon_notes] at ended ⊢
    rcases List.mem_append.mp ended with old | new
    · exact (settled.known runId old).imp (rows runId) (List.mem_append_left _)
    · obtain ⟨other,left,same⟩ := List.mem_map.mp new
      obtain rfl := Note.ended.inj same
      obtain ⟨row,found,_⟩ := mem_abandoned.mp left
      exact .inl (rows other ⟨row,found⟩)
  · exact fun runId held => rows runId (settled.indexed runId held)

theorem Settled.bootstrap {now : ℚ} (settled : Settled t)
    (done : t.bootstrap r now = .ok u) : Settled u :=
  settled.abandon.expired (dropRuns done)

/-- A journal that has just opened a fresh file. -/
def fresh (r : Retention) : Pipeline := { retention := r }

theorem fresh_fed (r : Retention) : Fed (fresh r) := by
  refine ⟨?_,by simp [fresh],⟨?_,by simp [fresh],by simp [fresh]⟩⟩
  · intro before f rest impossible
    simp [fresh] at impossible
  · intro before runId after impossible
    simp [fresh] at impossible

theorem fresh_settled (r : Retention) : Settled (fresh r).tables := by
  refine ⟨by simp [fresh],by simp [fresh],?_,by simp⟩
  rintro runId (⟨record,inside,_⟩ | ⟨row,found⟩)
  · cases inside
  · cases found

theorem fed_of_reach {ok : Pipeline → Action → Prop} (reached : Reach step ok (fresh r) p) :
    Fed p :=
  reached.invariant Fed (fresh_fed r) fun _ _ _ fed _ taken => (step_tables fed taken).1

theorem settled_of_reach (reached : Reach step OnTime (fresh r) p) :
    Fed p ∧ Settled p.tables := by
  refine reached.invariant (fun p => Fed p ∧ Settled p.tables) ⟨fresh_fed r,fresh_settled r⟩ ?_
  rintro p a q ⟨fed,settled⟩ onTime taken
  obtain ⟨after,same | ⟨rfl,batch,b,flushing,done,same⟩ | ⟨r,now,booted⟩⟩ := step_tables fed taken
  · exact ⟨after,same ▸ settled⟩
  · rw [same]
    exact ⟨after,settled.write (fed.flushing batch flushing) (onTime batch b flushing done) done⟩
  · exact ⟨after,settled.bootstrap booted⟩

/-- In every run only ended runs expire. As long as no batch commits with a late item, the tables
are kept as claimed; and the next batch keeps them so exactly when none of its items is late. -/
theorem retention_kept (r : Retention) :
    (∀ p, Reachable step (fresh r) p → EndedFirst p.tables.notes) ∧
    (∀ p, Reach step OnTime (fresh r) p → Retained p.tables) ∧
    (∀ p batch b, Reach step OnTime (fresh r) p → p.flushing = some batch →
      write p.retention p.tables batch = .ok b →
        (Retained b.tables ↔ Punctual p.retention p.tables batch)) := by
  refine ⟨?_,?_,?_⟩
  · intro p reached
    exact (fed_of_reach reached).traced.ordered
  · intro p reached
    obtain ⟨fed,settled⟩ := settled_of_reach reached
    exact settled.retained fed.traced
  · intro p batch b reached flushing done
    obtain ⟨fed,settled⟩ := settled_of_reach reached
    have paired := fed.flushing batch flushing
    constructor
    · intro retained
      by_contra late
      exact not_retained_of_late fed.traced paired late done retained
    · intro punctual
      exact (settled.write paired punctual done).retained (fed.traced.write done)

def lateRun : PyStr := codes "r"

def completed : Wire :=
  { jobRef := some (some lateRun), type := some "job_state", state := some "completed" }

def logged : Wire :=
  { jobRef := some (some lateRun), type := some "node_event", event := some "log" }

def lateEvent : List Action :=
  [.observe completed (codes "local") 1 1,.take,.write false,
    .observe logged (codes "local") 2 2,.take,.write false]

/-- The ended run is left with an unfinished row. -/
theorem late_event_unfinished : ∃ p, run step (fresh { keepRuns := 0 }) lateEvent = some p ∧
    .ended lateRun ∈ p.tables.notes ∧ .expired lateRun ∈ p.tables.notes ∧
    (∃ row, p.tables.index.get? lateRun = some row ∧ row.finished = none) ∧
    ¬ Retained p.tables := by
  have seen : ((run step (fresh { keepRuns := 0 }) lateEvent).map fun p =>
      (decide (.ended lateRun ∈ p.tables.notes),decide (.expired lateRun ∈ p.tables.notes),
        (p.tables.index.get? lateRun).map (·.finished))) = some (true,true,some none) := by
    decide +kernel
  obtain ⟨p,ran,facts⟩ := Option.map_eq_some_iff.mp seen
  simp only [Prod.mk.injEq,decide_eq_true_eq,Option.map_eq_some_iff] at facts
  obtain ⟨ended,expired,row,found,unfinished⟩ := facts
  refine ⟨p,ran,ended,expired,⟨row,found,unfinished⟩,?_⟩
  intro retained
  exact retained.marked lateRun row ended found unfinished

end Dinkster.ExecutionJournal
