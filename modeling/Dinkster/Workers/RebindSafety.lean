import Dinkster.Workers.RebindReplay

/-! Rebinds over any history of a conversation: what is retained is counted, and what a rebind
replays and redelivers. -/
namespace Dinkster.Workers.Resume
open Json Fallible Transition

/-- A piece of a record that a rebind writes at one rank and that only senders put there. -/
structure Redelivered (bound : Nat) (piece : Record → Option Frame)
    (item : InvocationKey → Frame → Item) : Prop where
  wrote : ∀ {key record last rank it stage}, Wrote key record last rank it stage →
    rank ≤ bound → bound < stage.rank → ∀ f, piece record = some f → it = item key f
  passed : ∀ {record rank}, Passed record rank → rank ≤ bound → piece record = none
  source : ∀ {writes : Frame → Prop} {c c' : Conversation}, Booked writes c c' →
    ∀ key record' f, c'.records.get? key = some record' → piece record' = some f →
      (∃ record, c.records.get? key = some record ∧ piece record = some f) ∨ writes f

private theorem booked_source {piece : Record → Option Frame} {writes : Frame → Prop}
    {c c' : Conversation} (booked : Booked writes c c')
    (fresh : ∀ key, piece (.fresh key) = none)
    (revised : ∀ record record', Revised writes c' record record' → ∀ f, piece record' = some f →
      piece record = some f ∨ writes f) (key : InvocationKey) (record' : Record) (f : Frame)
    (found : c'.records.get? key = some record') (retained : piece record' = some f) :
    (∃ record, c.records.get? key = some record ∧ piece record = some f) ∨ writes f := by
  cases booked with
  | kept records results events => exact .inl ⟨record',records ▸ found,retained⟩
  | registered new records results events =>
    rw [records,Dict.get?_set] at found
    split at found
    · obtain rfl := Option.some.inj found
      rw [fresh] at retained
      cases retained
    · exact .inl ⟨record',found,retained⟩
  | dropped held records results events =>
    rw [records,Dict.get?_erase] at found
    split at found
    · cases found
    · exact .inl ⟨record',found,retained⟩
  | revised held records results events how =>
    rw [records,Dict.get?_set] at found
    split at found
    · rename_i same
      obtain rfl := Option.some.inj found
      refine (revised _ _ how f retained).imp_left fun before => ⟨_,?_,before⟩
      rw [same]
      exact held
    · exact .inl ⟨record',found,retained⟩

theorem result_redelivered : Redelivered 3 (·.result) .result where
  wrote := fun spec low high f retained => spec.result low high f retained
  passed := fun spec low => spec.result low
  source := by
    intro writes c c' booked
    apply booked_source booked (fun _ => rfl)
    intro record record' how f retained
    cases how.result with
    | same frame bytes => exact .inl (frame ▸ retained)
    | gone frame bytes =>
      rw [frame] at retained
      cases retained
    | made frame bytes made =>
      obtain rfl := Option.some.inj (frame.symm.trans retained)
      exact .inr made.1

theorem release_redelivered : Redelivered 4 (·.release) .release where
  wrote := fun spec low high f retained => spec.release low high f retained
  passed := fun spec low => spec.release low
  source := by
    intro writes c c' booked
    apply booked_source booked (fun _ => rfl)
    intro record record' how f retained
    obtain same | ⟨g,made,written⟩ := how.release
    · exact .inl (same ▸ retained)
    · obtain rfl := Option.some.inj (made.symm.trans retained)
      exact .inr written

/-- What is retained of the invocation was written by the rebind, or is still written by its
sender, who waits for the lock. -/
def Kept (s : Session) (piece : Record → Option Frame) (item : InvocationKey → Frame → Item)
    (key : InvocationKey) : Prop :=
  ∀ record f, s.conversation.records.get? key = some record → piece record = some f →
    item key f ∈ s.written ∨ f ∈ s.sent

def Redelivers (s : Session) (r : Replay) (bound : Nat) (piece : Record → Option Frame)
    (item : InvocationKey → Frame → Item) : Prop :=
  ∀ key ∈ r.plan.requested, key ∉ r.todo →
    (∀ t, r.turn = some t → t.key = key → t.gone.isSome = true ∨ bound < t.stage.rank) →
      Kept s piece item key

variable {s s' : Session} {r r' : Replay} {c : Conversation} {bound : Nat} {it : Item}
  {piece : Record → Option Frame} {item : InvocationKey → Frame → Item}

theorem follow_turn (before after : Conversation) (r : Replay) {t' : Turn}
    (turn : (r.follow before after).turn = some t') :
    ∃ t, r.turn = some t ∧ t'.key = t.key ∧ t'.stage = t.stage ∧ (t' = t ∨
      (t.gone = none ∧ t'.gone = before.records.get? t.key ∧ after.records.get? t.key = none)) := by
  obtain ⟨t,hand,same⟩ := Option.map_eq_some_iff.mp turn
  refine ⟨t,hand,?_⟩
  split at same
  · rename_i dropped
    rw [Bool.and_eq_true,Option.isNone_iff_eq_none,Option.isNone_iff_eq_none] at dropped
    subst same
    exact ⟨rfl,rfl,.inr ⟨dropped.1,rfl,dropped.2⟩⟩
  · subst same
    exact ⟨rfl,rfl,.inl rfl⟩

theorem follow_held {before after : Conversation} {t : Turn} {record : Record}
    (turn : r.turn = some t) (found : after.records.get? t.key = some record) :
    (r.follow before after).turn = some t := by
  simp [Replay.follow,turn,found]

theorem redelivers_move (piecewise : Redelivered bound piece item)
    (redelivers : Redelivers s r bound piece item) {writes : Frame → Prop}
    (booked : Booked writes s.conversation s'.conversation)
    (written : s'.written = s.written) (sent : ∀ f, f ∈ s.sent ∨ writes f → f ∈ s'.sent) :
    Redelivers s' (r.follow s.conversation s'.conversation) bound piece item := by
  intro key requested reached ahead record f found retained
  have before : (∀ t, r.turn = some t → t.key = key →
      t.gone.isSome = true ∨ bound < t.stage.rank) := by
    intro t turn named
    subst named
    exact ahead t (follow_held turn found) rfl
  obtain ⟨old,held,same⟩ | made := piecewise.source booked key record f found retained
  · rw [written]
    exact (redelivers key requested reached before old f held same).imp_right fun inside =>
      sent f (.inl inside)
  · exact .inr (sent f (.inr made))

theorem redelivers_advance (piecewise : Redelivered bound piece item)
    (redelivers : Redelivers s r bound piece item) (advance : Advance s.conversation r it r')
    (conversation : s'.conversation = s.conversation) (written : s'.written = s.written ++ [it])
    (sent : s'.sent = s.sent) : Redelivers s' r' bound piece item := by
  have grown {key : InvocationKey} (kept : Kept s piece item key) : Kept s' piece item key := by
    intro record f found retained
    rw [conversation] at found
    rw [written,sent]
    exact (kept record f found retained).imp_left (List.mem_append_left _)
  have now {key : InvocationKey} {record : Record} {last rank : Nat} {stage : Stage}
      (wrote : Wrote key record last rank it stage) (low : rank ≤ bound)
      (high : bound < stage.rank) (found : s.conversation.records.get? key = some record) :
      Kept s' piece item key := by
    intro other f held retained
    rw [conversation,found] at held
    obtain rfl := Option.some.inj held
    rw [written,piecewise.wrote wrote low high f retained]
    exact .inl (List.mem_append_right _ List.mem_cons_self)
  cases advance with
  | report frame wrote plan todo turn =>
    intro key requested reached ahead
    rw [plan] at requested
    rw [todo] at reached
    rw [turn] at ahead
    exact grown (redelivers key requested reached ahead)
  | @within t record stage hand found wrote plan todo turn =>
    intro key requested reached ahead
    rw [plan] at requested
    rw [todo] at reached
    have after := ahead _ turn
    by_cases here : t.key = key
    · cases gone : t.gone with
      | some old =>
        apply grown
        apply redelivers key requested reached
        intro t' turn' _
        obtain rfl := Option.some.inj (hand.symm.trans turn')
        exact .inl (by rw [gone]; rfl)
      | none =>
        have high : bound < stage.rank := (after here).resolve_left (by simp [gone])
        by_cases low : t.stage.rank ≤ bound
        · rw [Turn.record,gone] at found
          subst here
          exact now wrote low high found
        · apply grown
          apply redelivers key requested reached
          intro t' turn' _
          obtain rfl := Option.some.inj (hand.symm.trans turn')
          exact .inr (Nat.not_le.mp low)
    · apply grown
      apply redelivers key requested reached
      intro t' turn' named
      obtain rfl := Option.some.inj (hand.symm.trans turn')
      exact absurd named here
  | @reached skipped begun record stage left split clear found wrote plan turn =>
    intro key requested reached ahead
    rw [plan] at requested
    by_cases here : begun = key
    · subst here
      have high : bound < stage.rank := (ahead _ turn rfl).resolve_left (by simp)
      exact now wrote (Nat.zero_le _) high found
    · by_cases passed : key ∈ skipped
      · intro other f held retained
        rw [conversation] at held
        rw [piecewise.passed (clear key passed other held) (Nat.zero_le _)] at retained
        cases retained
      · have unreached : key ∉ r.todo := by
          rw [split,List.mem_append,List.mem_cons]
          rintro (inside | same | later)
          · exact passed inside
          · exact here same.symm
          · exact reached later
        intro other f held retained
        by_cases ready : ∀ t, r.turn = some t → t.key = key →
            t.gone.isSome = true ∨ bound < t.stage.rank
        · exact grown (redelivers key requested unreached ready) other f held retained
        · push Not at ready
          obtain ⟨t,hand,rfl,present,low⟩ := ready
          have gone : t.gone = none := by simpa using present
          have mine : t.record s.conversation = some other := by
            rw [Turn.record,gone,← conversation,held]
            rfl
          rw [piecewise.passed (left t hand other mine) low] at retained
          cases retained

theorem redelivers_done (piecewise : Redelivered bound piece item)
    (redelivers : Redelivers s r bound piece item) (done : r.next s.conversation = .done)
    {key : InvocationKey} (requested : key ∈ r.plan.requested) : Kept s piece item key := by
  obtain ⟨left,clear⟩ := next_done done
  intro record f found retained
  by_cases waiting : key ∈ r.todo
  · rw [piecewise.passed (clear key waiting record found) (Nat.zero_le _)] at retained
    cases retained
  · by_cases ready : ∀ t, r.turn = some t → t.key = key →
        t.gone.isSome = true ∨ bound < t.stage.rank
    · exact redelivers key requested waiting ready record f found retained
    · push Not at ready
      obtain ⟨t,hand,rfl,present,low⟩ := ready
      have gone : t.gone = none := by simpa using present
      have mine : t.record s.conversation = some record := by
        rw [Turn.record,gone,found]
        rfl
      rw [piecewise.passed (left t hand record mine) low] at retained
      cases retained

namespace Conversation

theorem fromWire_fresh {seen : List InvocationKey} {raw : Json.Value} {entry : RebindEntry}
    (read : RebindEntry.fromWire seen raw = .ok entry) : entry.key ∉ seen := by
  unfold RebindEntry.fromWire at read
  split at read
  · obtain ⟨_,_,read⟩ := bind_ok.mp read
    obtain ⟨key,_,read⟩ := bind_ok.mp read
    obtain ⟨_,fresh,read⟩ := bind_ok.mp read
    split at read
    · obtain ⟨_,_,read⟩ := bind_ok.mp read
      obtain rfl := Except.ok.inj read
      exact refuseIf_ok.mp fresh
    · cases read
  · cases read

theorem readEntries_distinct (seen : List InvocationKey) (raw : List Json.Value)
    {entries : List RebindEntry} (read : readEntries seen raw = .ok entries) :
    (entries.map (·.key)).Nodup ∧ ∀ e ∈ entries, e.key ∉ seen := by
  induction raw generalizing seen entries with
  | nil =>
    obtain rfl := Except.ok.inj read
    exact ⟨List.nodup_nil,fun _ inside => absurd inside List.not_mem_nil⟩
  | cons first rest ih =>
    unfold readEntries at read
    obtain ⟨entry,one,read⟩ := bind_ok.mp read
    obtain ⟨others,more,read⟩ := bind_ok.mp read
    obtain rfl := Except.ok.inj read
    obtain ⟨distinct,unseen⟩ := ih (seen ++ [entry.key]) more
    constructor
    · rw [List.map_cons,List.nodup_cons]
      refine ⟨?_,distinct⟩
      intro again
      obtain ⟨e,inside,same⟩ := List.mem_map.mp again
      exact unseen e inside (by rw [same]; exact List.mem_append_right _ List.mem_cons_self)
    · intro e inside
      obtain rfl | later := List.mem_cons.mp inside
      · exact fromWire_fresh one
      · exact fun old => unseen e later (List.mem_append_left _ old)

theorem planRebind_ok {c : Conversation} {header : Object} {rebind : Rebind}
    (planned : c.planRebind header = .ok rebind) :
    rebind.requested.Nodup ∧ ∀ key ∈ c.records.keys, key ∈ rebind.requested := by
  unfold planRebind at planned
  dsimp only at planned
  split at planned
  · obtain ⟨_,_,planned⟩ := bind_ok.mp planned
    split at planned
    · rename_i raw _
      obtain ⟨_,_,planned⟩ := bind_ok.mp planned
      obtain ⟨entries,read,planned⟩ := bind_ok.mp planned
      obtain ⟨_,whole,planned⟩ := bind_ok.mp planned
      obtain rfl := Except.ok.inj planned
      have covered := not_not.mp (refuseIf_ok.mp whole)
      constructor
      · exact (readEntries_distinct [] raw read).1.sublist (List.filter_sublist.map _)
      · intro key held
        obtain ⟨e,inside,rfl⟩ := List.mem_map.mp (covered held)
        exact List.mem_map_of_mem (List.mem_filter.mpr ⟨inside,by simpa using held⟩)
    · cases planned
  · obtain ⟨_,stale,_⟩ := bind_ok.mp planned
    cases stale

end Conversation

/-- The invocations whose event a rebind has written. -/
def eventKeys (items : List Item) : List InvocationKey :=
  items.filterMap fun it =>
    match it with
    | .event key _ => some key
    | _ => none

theorem mem_eventKeys_single {it : Item} {key : InvocationKey} (inside : key ∈ eventKeys [it]) :
    ∃ f, it = .event key f := by
  cases it with
  | event k f =>
    obtain rfl := List.mem_singleton.mp inside
    exact ⟨f,rfl⟩
  | _ => cases inside

theorem eventKeys_single_nodup (it : Item) : (eventKeys [it]).Nodup := by
  cases it with
  | event k f => exact List.nodup_singleton k
  | _ => exact List.nodup_nil

/-- A replay under way: each invocation is still to come, at hand or redelivered, and an event is
written once at most. -/
structure Under (s : Session) (r : Replay) : Prop where
  known : ∀ key ∈ r.plan.known, key ∈ r.plan.requested
  todo : r.todo.Nodup
  apart : ∀ t, r.turn = some t → t.key ∉ r.todo
  distinct : (eventKeys s.written).Nodup
  behind : ∀ key ∈ eventKeys s.written, key ∉ r.todo ∧
    ∀ t, r.turn = some t → t.key = key → 2 < t.stage.rank
  results : Redelivers s r 3 (·.result) .result
  releases : Redelivers s r 4 (·.release) .release
  hand : ∀ t record, r.turn = some t → t.gone = some record → Sequenced record

structure Sound (s : Session) : Prop where
  accounted : Accounted s.conversation
  planned : ∀ p, s.plan = some p → p.requested.Nodup ∧ ∀ key ∈ p.known, key ∈ p.requested
  under : ∀ r, s.replay = some r → Under s r

variable {py : Builtins}

theorem under_start (p : Plan) (c : Conversation) (known : ∀ key ∈ p.known,
    key ∈ p.requested) (distinct : p.requested.Nodup) (frame : Frame) :
    Under ⟨c,none,some ⟨p,p.requested,none,false⟩,[.response frame],[]⟩
      ⟨p,p.requested,none,false⟩ where
  known := known
  todo := distinct
  apart := by
    intro t turn
    cases turn
  distinct := List.nodup_nil
  behind := fun _ inside => absurd inside List.not_mem_nil
  results := fun _ requested reached => absurd requested reached
  releases := fun _ requested reached => absurd requested reached
  hand := by
    intro t record turn
    cases turn

theorem under_unplanned (under : Under s r) : Under { s with plan := none } r :=
  ⟨under.known,under.todo,under.apart,under.distinct,under.behind,under.results,under.releases,
    under.hand⟩

theorem under_move (sound : Accounted s.conversation) (under : Under s r) {writes : Frame → Prop}
    (booked : Booked writes s.conversation s'.conversation)
    (written : s'.written = s.written) (sent : ∀ f, f ∈ s.sent ∨ writes f → f ∈ s'.sent) :
    Under s' (r.follow s.conversation s'.conversation) where
  known := under.known
  todo := under.todo
  apart := by
    intro t' turn
    obtain ⟨t,hand,same,_⟩ := follow_turn _ _ r turn
    rw [same]
    exact under.apart t hand
  distinct := by
    rw [written]
    exact under.distinct
  behind := by
    intro key inside
    rw [written] at inside
    obtain ⟨reached,past⟩ := under.behind key inside
    refine ⟨reached,?_⟩
    intro t' turn named
    obtain ⟨t,hand,same,stage,_⟩ := follow_turn _ _ r turn
    rw [stage]
    exact past t hand (same.symm.trans named)
  results := redelivers_move result_redelivered under.results booked written sent
  releases := redelivers_move release_redelivered under.releases booked written sent
  hand := by
    intro t' record turn gone
    obtain ⟨t,hand,_,_,rfl | ⟨_,kept,_⟩⟩ := follow_turn _ _ r turn
    · exact under.hand t' record hand gone
    · exact sound.sequenced _ record (kept.symm.trans gone)

theorem under_advance (under : Under s r) (advance : Advance s.conversation r it r')
    (conversation : s'.conversation = s.conversation) (written : s'.written = s.written ++ [it])
    (sent : s'.sent = s.sent) : Under s' r' := by
  have results := redelivers_advance result_redelivered under.results advance conversation
    written sent
  have releases := redelivers_advance release_redelivered under.releases advance conversation
    written sent
  have keys : eventKeys s'.written = eventKeys s.written ++ eventKeys [it] := by
    rw [written,eventKeys,List.filterMap_append]
    rfl
  have quiet (none_written : eventKeys [it] = []) : eventKeys s'.written = eventKeys s.written := by
    rw [keys,none_written,List.append_nil]
  cases advance with
  | report frame wrote plan todo turn =>
    have same := quiet (by rw [wrote]; rfl)
    refine ⟨?_,?_,?_,?_,?_,results,releases,?_⟩
    · rw [plan]
      exact under.known
    · rw [todo]
      exact under.todo
    · rw [todo,turn]
      exact under.apart
    · rw [same]
      exact under.distinct
    · rw [same,todo,turn]
      exact under.behind
    · rw [turn]
      exact under.hand
  | @within t record stage hand found wrote plan todo turn =>
    have new : ∀ k ∈ eventKeys [it], k = t.key ∧ t.stage.rank ≤ 2 ∧ 2 < stage.rank := by
      intro k inside
      obtain ⟨f,rfl⟩ := mem_eventKeys_single inside
      obtain ⟨named,low,high,_⟩ := wrote.event k f rfl
      exact ⟨named,low,high⟩
    refine ⟨plan ▸ under.known,todo ▸ under.todo,?_,?_,?_,results,releases,?_⟩
    · intro t' turn'
      obtain rfl := Option.some.inj (turn.symm.trans turn')
      rw [todo]
      exact under.apart t hand
    · rw [keys]
      refine List.nodup_append.mpr ⟨under.distinct,eventKeys_single_nodup it,?_⟩
      intro a old b single
      rintro rfl
      obtain ⟨named,low,_⟩ := new a single
      have past := (under.behind a old).2 t hand named.symm
      omega
    · intro key inside
      rw [keys] at inside
      rw [todo]
      obtain old | single := List.mem_append.mp inside
      · obtain ⟨reached,past⟩ := under.behind key old
        refine ⟨reached,?_⟩
        intro t' turn' named
        obtain rfl := Option.some.inj (turn.symm.trans turn')
        exact (past t hand named).trans_le wrote.later
      · obtain ⟨rfl,_,high⟩ := new key single
        refine ⟨under.apart t hand,?_⟩
        intro t' turn' _
        obtain rfl := Option.some.inj (turn.symm.trans turn')
        exact high
    · intro t' record' turn' gone
      obtain rfl := Option.some.inj (turn.symm.trans turn')
      exact under.hand t record' hand gone
  | @reached skipped begun record stage left split clear found wrote plan turn =>
    have new : ∀ k ∈ eventKeys [it], k = begun ∧ 2 < stage.rank := by
      intro k inside
      obtain ⟨f,rfl⟩ := mem_eventKeys_single inside
      obtain ⟨named,_,high,_⟩ := wrote.event k f rfl
      exact ⟨named,high⟩
    have parts := under.todo
    rw [split] at parts
    have rest := (List.nodup_append.mp parts).2.1
    have waiting : begun ∈ r.todo := by
      rw [split]
      exact List.mem_append_right _ List.mem_cons_self
    have shorter : ∀ k ∈ r'.todo, k ∈ r.todo := by
      intro k inside
      rw [split]
      exact List.mem_append_right _ (List.mem_cons_of_mem _ inside)
    refine ⟨plan ▸ under.known,(List.nodup_cons.mp rest).2,?_,?_,?_,results,releases,?_⟩
    · intro t' turn'
      obtain rfl := Option.some.inj (turn.symm.trans turn')
      exact (List.nodup_cons.mp rest).1
    · rw [keys]
      refine List.nodup_append.mpr ⟨under.distinct,eventKeys_single_nodup it,?_⟩
      intro a old b single
      rintro rfl
      obtain ⟨rfl,_⟩ := new a single
      exact (under.behind a old).1 waiting
    · intro key inside
      rw [keys] at inside
      obtain old | single := List.mem_append.mp inside
      · have reached := (under.behind key old).1
        refine ⟨fun again => reached (shorter key again),?_⟩
        intro t' turn' named
        obtain rfl := Option.some.inj (turn.symm.trans turn')
        exact absurd (named ▸ waiting) reached
      · obtain ⟨rfl,high⟩ := new key single
        refine ⟨(List.nodup_cons.mp rest).1,?_⟩
        intro t' turn' _
        obtain rfl := Option.some.inj (turn.symm.trans turn')
        exact high
    · intro t' record' turn' gone
      obtain rfl := Option.some.inj (turn.symm.trans turn')
      cases gone

theorem new_sound (engine label worker : String) (grace now : ℚ) :
    Sound (Session.new engine label worker grace now) := by
  refine ⟨new_accounted engine label worker grace now,?_,?_⟩
  · intro p held
    cases held
  · intro r held
    cases held

/-- What a deed does to a session with a replay. -/
inductive Progress (py : Builtins) (s : Session) : Deed → Session → Prop
  | moved {m : Move} {c : Conversation} (taken : Resume.step py s.conversation m = some c) :
    Progress py s (.move m) { s with
      conversation := c
      replay := s.replay.map (Replay.follow s.conversation c)
      sent := s.sent ++ (m.outgoing py s.conversation).toList }
  | planned {header : Object} {rebind : Conversation.Rebind} (free : s.replay = none)
      (accepted : s.conversation.planRebind header = .ok rebind) :
      Progress py s (.plan header)
        { s with plan := some (planOf s.conversation header rebind) }
  | refused {header : Object} : Progress py s (.plan header) s
  | began {p : Plan} (held : s.plan = some p) (free : s.conversation.sendLock = none) :
      Progress py s .begin (s.start p)
  | wrote {r r' : Replay} {it : Item} (held : s.replay = some r)
      (next : r.next s.conversation = .write it r') :
      Progress py s .written { s with replay := some r', written := s.written ++ [it] }
  | ended {a : Deed} {m : Move} {c : Conversation}
      (taken : Resume.step py s.conversation m = some c) :
      Progress py s a { s with conversation := c, replay := none }

theorem step_progress {a : Deed} (taken : s.step py a = some s') : Progress py s a s' := by
  unfold Session.step at taken
  cases a with
  | move m =>
    dsimp only at taken
    split at taken
    · cases taken
    · obtain ⟨c,moved,rfl⟩ := Option.map_eq_some_iff.mp taken
      exact .moved moved
  | plan header =>
    dsimp only at taken
    split at taken
    · cases taken
    · rename_i busy
      simp only [Bool.or_eq_true,not_or,Bool.not_eq_true,Option.isSome_eq_false_iff,
        Option.isNone_iff_eq_none] at busy
      split at taken
      · cases taken
        exact .refused
      · rename_i rebind accepted
        cases taken
        exact .planned busy.2 accepted
  | begin =>
    dsimp only at taken
    split at taken
    · cases taken
    · rename_i p held
      split at taken
      · cases taken
      · rename_i free
        cases taken
        exact .began held (Option.not_isSome_iff_eq_none.mp free)
  | written =>
    dsimp only at taken
    split at taken
    · cases taken
    · rename_i r held
      split at taken
      · rename_i it r' next
        cases taken
        exact .wrote held next
      · obtain ⟨c,moved,rfl⟩ := Option.map_eq_some_iff.mp taken
        exact .ended moved
      · obtain ⟨c,moved,rfl⟩ := Option.map_eq_some_iff.mp taken
        exact .ended moved
  | lost =>
    dsimp only at taken
    split at taken
    · cases taken
    · obtain ⟨c,moved,rfl⟩ := Option.map_eq_some_iff.mp taken
      exact .ended moved

theorem start_cases (s : Session) (p : Plan) :
    s.start p = ⟨s.conversation.rebindLocked p.epoch,none,some ⟨p,p.requested,none,false⟩,
        [.response ⟨p.response,[]⟩],[]⟩ ∨
      s.start p = { s with plan := none } := by
  unfold Session.start
  dsimp only
  split
  · exact .inl rfl
  · exact .inr rfl

theorem sends_outgoing {m : Move} {c : Conversation} {f : Frame} (writes : m.sends py c f) :
    m.outgoing py c = some f := by
  cases m with
  | send frame =>
    unfold Move.sends at writes
    dsimp only at writes
    unfold Move.outgoing
    dsimp only
    rw [writes]
  | _ => cases writes

theorem progress_sound {a : Deed} (sound : Sound s) (progress : Progress py s a s') :
    Sound s' := by
  obtain ⟨accounted,planned,under⟩ := sound
  cases progress with
  | @moved m c taken =>
    have booked := step_booked accounted.keyed taken
    refine ⟨step_accounted accounted taken,planned,?_⟩
    intro r' held
    obtain ⟨r,before,rfl⟩ := Option.map_eq_some_iff.mp held
    refine under_move accounted (under r before) booked rfl ?_
    rintro f (inside | writes)
    · exact List.mem_append_left _ inside
    · rw [sends_outgoing writes]
      exact List.mem_append_right _ List.mem_cons_self
  | planned free accepted =>
    refine ⟨accounted,?_,?_⟩
    · intro p held
      obtain rfl := Option.some.inj held
      exact Conversation.planRebind_ok accepted
    · intro r held
      rw [free] at held
      cases held
  | refused => exact ⟨accounted,planned,under⟩
  | @began p held free =>
    obtain ⟨distinct,known⟩ := planned p held
    obtain begun | past := start_cases s p
    · rw [begun]
      have same := s.conversation.rebindLocked_same p.epoch
      refine ⟨?_,fun q there => absurd there (Option.some_ne_none q).symm,?_⟩
      · have booked : Booked (fun _ => False) s.conversation _ :=
          .kept same.records same.results same.events
        exact booked_accounted booked accounted
      · intro r there
        obtain rfl := Option.some.inj there
        exact under_start p _ known distinct _
    · rw [past]
      exact ⟨accounted,fun q there => absurd there (Option.some_ne_none q).symm,
        fun r there => under_unplanned (under r there)⟩
  | wrote held next =>
    refine ⟨accounted,planned,?_⟩
    intro r there
    obtain rfl := Option.some.inj there
    exact under_advance (under _ held) (next_write next) rfl rfl rfl
  | ended taken =>
    refine ⟨step_accounted accounted taken,planned,?_⟩
    intro r there
    cases there

theorem reachable_sound {engine label worker : String} {grace now : ℚ}
    (reached : Reachable (Session.step py) (.new engine label worker grace now) s) : Sound s :=
  reached.invariant Sound (new_sound engine label worker grace now)
    fun _ _ _ sound _ taken => progress_sound sound (step_progress taken)

def Record.Outrun (record : Record) (last : Nat) : Prop :=
  ∃ f, ∃ n : Nat, record.latestEvent = some f ∧ f.header.get? "eventSeq" = some (.int n) ∧
    n ≤ last ∧ last < record.eventSeq

def Ahead (c : Conversation) (r : Replay) (key : InvocationKey) (record : Record) : Prop :=
  (key ∈ r.todo ∧ c.records.get? key = some record) ∨
    ∃ t, r.turn = some t ∧ t.key = key ∧ t.stage.rank ≤ 2 ∧ t.record c = some record

/-- A replay goes on only while no record ahead of it is outrun. -/
def Timely (s : Session) : Deed → Prop
  | .written => ∀ r, s.replay = some r → ∀ key record, Ahead s.conversation r key record →
      ¬ record.Outrun (r.last key)
  | _ => True

/-- Every replayed event is newer than the last one that the client has seen. -/
def Newer (s : Session) : Prop :=
  ∀ r, s.replay = some r → ∀ key f, Item.event key f ∈ s.written →
    ∃ n : Nat, f.header.get? "eventSeq" = some (.int n) ∧ r.last key < n

theorem advance_event {key : InvocationKey} {f : Frame}
    (advance : Advance c r (.event key f) r') :
    ∃ record, Ahead c r key record ∧ record.latestEvent = some f ∧
      r.last key < record.eventSeq := by
  cases advance with
  | report frame wrote plan todo turn => cases wrote
  | within hand found wrote plan todo turn =>
    obtain ⟨rfl,low,_,retained,newer⟩ := wrote.event key f rfl
    exact ⟨_,.inr ⟨_,hand,rfl,low,found⟩,retained,newer⟩
  | reached left split clear found wrote plan turn =>
    obtain ⟨rfl,_,_,retained,newer⟩ := wrote.event key f rfl
    refine ⟨_,.inl ⟨?_,found⟩,retained,newer⟩
    rw [split]
    exact List.mem_append_right _ List.mem_cons_self

theorem advance_plan (advance : Advance c r it r') : r'.plan = r.plan := by
  cases advance with
  | report frame wrote plan todo turn => exact plan
  | within hand found wrote plan todo turn => exact plan
  | reached left split clear found wrote plan turn => exact plan

theorem ahead_sequenced (sound : Sound s) (held : s.replay = some r) {key : InvocationKey}
    {record : Record} (ahead : Ahead s.conversation r key record) : Sequenced record := by
  obtain ⟨_,found⟩ | ⟨t,hand,_,_,found⟩ := ahead
  · exact sound.accounted.sequenced key record found
  · unfold Turn.record at found
    cases gone : t.gone with
    | none =>
      rw [gone] at found
      exact sound.accounted.sequenced _ record found
    | some old =>
      rw [gone] at found
      obtain rfl := Option.some.inj found
      exact (sound.under r held).hand t old hand gone

theorem progress_newer {a : Deed} (sound : Sound s) (newer : Newer s) (timely : Timely s a)
    (progress : Progress py s a s') : Newer s' := by
  cases progress with
  | moved taken =>
    intro r' held key f inside
    obtain ⟨r,before,rfl⟩ := Option.map_eq_some_iff.mp held
    exact newer r before key f inside
  | planned free accepted => exact newer
  | refused => exact newer
  | @began p held free =>
    obtain begun | past := start_cases s p
    · rw [begun]
      intro r there key f inside
      obtain same := List.mem_singleton.mp inside
      cases same
    · rw [past]
      exact newer
  | @wrote r r' it held next =>
    intro r'' there key f inside
    obtain rfl := Option.some.inj there
    have advance := next_write next
    have last : r'.last key = r.last key := by
      unfold Replay.last
      rw [advance_plan advance]
    rw [last]
    obtain old | new := List.mem_append.mp inside
    · exact newer r held key f old
    · obtain rfl := List.mem_singleton.mp new
      obtain ⟨record,ahead,retained,later⟩ := advance_event advance
      obtain ⟨n,numbered,_⟩ := ahead_sequenced sound held ahead f retained
      refine ⟨n,numbered,?_⟩
      by_contra seen
      exact timely r held key record ahead
        ⟨f,n,retained,numbered,Nat.not_lt.mp seen,later⟩
  | ended taken =>
    intro r there
    cases there

/-- After any history the counters are the sizes of what is retained, within their caps. A rebind
under way has written one event of an invocation at most; when it ends, whatever it knew of that
has a result or a release unacknowledged has it redelivered; and if no record was outrun when the
replay came to it, every event is newer than the last one seen. -/
theorem rebind_kept {engine label worker : String} {grace now : ℚ}
    (reached : Reachable (Session.step py) (.new engine label worker grace now) s) :
    s.conversation.retainedResultBytes =
      (s.conversation.records.total fun record => sizeOfRetained record.result : Nat) ∧
    s.conversation.retainedEventBytes =
      (s.conversation.records.total fun record => sizeOfRetained record.latestEvent : Nat) ∧
    s.conversation.retainedResultBytes ≤ maxRetainedResultBytes ∧
    s.conversation.retainedEventBytes ≤ maxRetainedEventBytes ∧
    (∀ r, s.replay = some r → (eventKeys s.written).Nodup ∧
      (r.next s.conversation = .done → ∀ key ∈ r.plan.known,
        Kept s (·.result) .result key ∧ Kept s (·.release) .release key)) ∧
    (Reach (Session.step py) Timely (.new engine label worker grace now) s → Newer s) := by
  have sound := reachable_sound reached
  obtain ⟨accounted,_,under⟩ := sound
  refine ⟨?_,?_,accounted.resultCap,accounted.eventCap,?_,?_⟩
  · rw [accounted.results,Dict.total_congr _ accounted.resultSize]
  · rw [accounted.events,Dict.total_congr _ accounted.eventSize]
  · intro r held
    have replay := under r held
    refine ⟨replay.distinct,fun done key inside => ⟨?_,?_⟩⟩
    · exact redelivers_done result_redelivered replay.results done (replay.known key inside)
    · exact redelivers_done release_redelivered replay.releases done (replay.known key inside)
  · intro timely
    have fresh : Newer (.new engine label worker grace now) := by
      intro r there
      cases there
    have both := timely.invariant (fun s => Sound s ∧ Newer s)
      ⟨new_sound engine label worker grace now,fresh⟩
      fun _ _ _ ⟨sound,newer⟩ allowed taken =>
        ⟨progress_sound sound (step_progress taken),
          progress_newer sound newer allowed (step_progress taken)⟩
    exact both.2

def Session.repeats (s : Session) : Bool :=
  match s.replay with
  | none => false
  | some r => s.written.any fun it =>
    match it with
    | .event key f =>
      match f.header.get? "eventSeq" with
      | some (.int n) => decide (n ≤ (r.last key : Int))
      | _ => false
    | _ => false

theorem repeats_not_newer (repeats : s.repeats = true) : ¬ Newer s := by
  intro newer
  unfold Session.repeats at repeats
  split at repeats
  · cases repeats
  · rename_i r held
    obtain ⟨it,inside,seen⟩ := List.any_eq_true.mp repeats
    split at seen
    · rename_i key f
      obtain ⟨n,numbered,later⟩ := newer r held key f inside
      rw [numbered] at seen
      have below : (n : Int) ≤ (r.last key : Int) := of_decide_eq_true seen
      omega
    · cases seen

def sampleEvent (blobs : List (List UInt8)) : Frame :=
  ⟨[("type",.str "invocationEvent"),("invocationId",.str "i")],blobs⟩

def sampleRebind : Object :=
  [("ownerEpoch",.int 2),("invocations",.arr [.obj (Traffic.sampleKey.toWire ++
    [("lastEventSeq",.int 1),("cancelled",.bool false)])])]

def sampleSession : Session := .new "engine" "label" "worker" 120 0

/-- Of two events the client sees the first; the second has a blob and is lost with the stream. -/
def outrunDeeds : List Deed :=
  [.move (.attach 0 1 false),.move .attached,.move .startHost,
    .move (.send ⟨[("type",.str "hello")],[]⟩),.move (.received 0 Traffic.sampleInvoke),
    .move (.send (sampleEvent [])),.move (.send (sampleEvent [[0]])),.move (.attach 1 2 true),
    .move .attached,.plan sampleRebind,.begin,.written]

private theorem outrun_repeats :
    (run (Session.step plainBuiltins) sampleSession outrunDeeds).map Session.repeats =
      some true := by decide +kernel

/-- The rebind replays the event that the client has seen. -/
theorem seen_event_replayed :
    ∃ s, Reachable (Session.step plainBuiltins) sampleSession s ∧ ¬ Newer s := by
  obtain ⟨s,ran,repeats⟩ := Option.map_eq_some_iff.mp outrun_repeats
  exact ⟨s,reachable_of_run ran,repeats_not_newer repeats⟩

/-- In the same run the counters are right. -/
theorem outrun_counted :
    ∃ s, run (Session.step plainBuiltins) sampleSession outrunDeeds = some s ∧
      s.conversation.retainedEventBytes =
        (s.conversation.records.total fun record => sizeOfRetained record.latestEvent : Nat) := by
  obtain ⟨s,ran,_⟩ := Option.map_eq_some_iff.mp outrun_repeats
  exact ⟨s,ran,(rebind_kept (reachable_of_run ran)).2.1⟩

end Dinkster.Workers.Resume
