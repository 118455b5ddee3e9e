import Dinkster.Caches.MemorySafety
import Mathlib

/-! Runs of the memory cache from the moment a call holds the lock: how long an eviction loop can
go on, what a put that fails leaves behind, and what a shed reports. -/
namespace Dinkster.Caches
namespace MemoryLRUCache
open Transition

variable {Obj : Type} {c c' start : MemoryLRUCache Obj} {a : Admission Obj} {call : Nat}
  {event : Event Obj}

theorem stretch_keeps {d : MemoryLRUCache Obj} (stretch : Stretch call c d) {i : Nat} {r : Result}
    (unanswered : c.results.get? call = none) (answered : c.results.get? i = some r) :
    d.results.get? i = some r := by
  rcases stretch.ending with ⟨r',_,_,results⟩ | ⟨_,_,results⟩
  · have other : i ≠ call := by
      rintro rfl
      exact nomatch unanswered.symm.trans answered
    rw [results,Dict.get?_set_ne _ _ other]
    exact answered
  · rw [results]
    exact answered

theorem step_answered (sound : c.Sound) (taken : c.step event = some c') {i : Nat} {r : Result}
    (answered : c.results.get? i = some r) : c'.results.get? i = some r := by
  cases step_change taken with
  | quiet _ _ _ _ _ _ _ results =>
    rcases results i with same | ⟨w,waits⟩
    · exact same.trans answered
    · exact nomatch (sound.numbered.waits i w waits).2.symm.trans answered
  | invalidated => exact answered
  | entered j w free waits =>
    exact stretch_keeps (enter_stretch _ j w) (sound.numbered.waits j w waits).2 answered
  | answered j stage outcome d held taken =>
    exact stretch_keeps (answer_stretch sound.tidy held taken)
      (sound.numbered.holds j stage held).2.2 answered
  | left j held =>
    exact stretch_keeps (stretch_finish c j (r := .returned) nofun)
      (sound.numbered.holds j _ held).2.2 answered

theorem run_sound {events : List (Event Obj)} (sound : c.Sound) (ran : run step c events = some c') :
    c'.Sound := reachable_sound sound (reachable_of_run ran)

theorem run_answered {events : List (Event Obj)} (sound : c.Sound)
    (ran : run step c events = some c') {i : Nat} {r : Result}
    (answered : c.results.get? i = some r) : c'.results.get? i = some r := by
  induction events generalizing c with
  | nil =>
    obtain rfl := Option.some.inj ran
    exact answered
  | cons event events ih =>
    obtain ⟨mid,taken,rest⟩ := Option.bind_eq_some_iff.mp ran
    exact ih (step_sound sound taken) rest (step_answered sound taken answered)

def Event.isAnswer : Event Obj → Bool
  | .answer _ => true
  | _ => false

def ahead (c : MemoryLRUCache Obj) : Nat :=
  match c.holder with
  | some (_,.evicting _ _ _ victim _) => (c.entries.erase victim).entries.length
  | _ => 0

def Evicts (c : MemoryLRUCache Obj) (i : Nat) : Prop :=
  ∃ a previous loop victim spilled, c.holder = some (i,.evicting a previous loop victim spilled)

private theorem erase_absent_evict {victim : String} {spilled : Entry Obj}
    (chosen : ∀ e, c.entries.get? victim = some e → e = spilled) :
    Within (c.evict victim spilled).entries (c.entries.erase victim) := by
  unfold evict
  cases found : c.entries.get? victim with
  | none =>
    dsimp only
    rw [Dict.erase_absent found]
    exact .refl _
  | some e =>
    dsimp only
    rw [if_pos (congrArg Entry.object (chosen e found))]
    exact .refl _

theorem step_ahead (sound : c.Sound) (evicts : c.Evicts call) (taken : c.step event = some c') :
    (∃ r, c'.results.get? call = some r) ∨
      c'.Evicts call ∧ c'.ahead + (if event.isAnswer then 1 else 0) ≤ c.ahead := by
  obtain ⟨a,previous,loop,victim,spilled,held⟩ := evicts
  have counted : c.ahead = (c.entries.erase victim).entries.length := by
    unfold ahead
    rw [held]
  have kept {d : MemoryLRUCache Obj} (holder : d.holder = c.holder)
      (within : Within d.entries c.entries) (silent : ∀ o, event ≠ .answer o) :
      d.Evicts call ∧ d.ahead + (if event.isAnswer then 1 else 0) ≤ c.ahead := by
    have quiet : event.isAnswer = false := by
      cases event with
      | answer o => exact absurd rfl (silent o)
      | _ => rfl
    refine ⟨⟨a,previous,loop,victim,spilled,holder.trans held⟩,?_⟩
    rw [quiet,counted]
    unfold ahead
    rw [holder,held]
    exact (within.erase victim).length
  cases step_change taken with
  | quiet entries holder _ _ _ _ unanswered _ _ =>
    exact .inr (kept holder (fun k e held => entries k ▸ held) unanswered)
  | invalidated left clean within unanswered => exact .inr (kept rfl within unanswered)
  | entered i w free waits => exact nomatch free.symm.trans held
  | left i held' => exact nomatch (Option.some.inj (held.symm.trans held'))
  | answered i stage outcome d held' taken =>
    obtain ⟨rfl,rfl⟩ := Prod.mk.inj (Option.some.inj (held.symm.trans held'))
    have midway := sound.tidy
    unfold Tidy at midway
    rw [held] at midway
    cases answer_cases taken with
    | rejected => exact .inl ⟨_,Dict.get?_set_self _ _ _⟩
    | evicted =>
      have smaller := (erase_absent_evict midway.chosen).length
      obtain ⟨t,clean,lost,evicted,losses⟩ := evict_spec c victim spilled
      rw [evicted] at smaller ⊢
      obtain ⟨t',clean',more,losses',⟨done,_⟩ | ⟨loop',k,e,waits,found,_⟩⟩ := evictOn_spec
        { c with entries := t, clean := clean, departed := c.departed ++ lost } call a previous
        fun last => losses.within.footprint.trans (midway.ready last)
      · rw [done]
        exact .inl ⟨_,Dict.get?_set_self _ _ _⟩
      · rw [waits]
        refine .inr ⟨⟨_,_,_,_,_,rfl⟩,?_⟩
        have next : t'.entries.length = (t'.erase k).entries.length + 1 :=
          (Dict.entries_perm_erase found).length_eq
        have shorter := losses'.within.length
        rw [counted]
        change (t'.erase k).entries.length + 1 ≤ _
        exact next ▸ shorter.trans smaller

theorem run_ahead {events : List (Event Obj)} (sound : c.Sound) (evicts : c.Evicts call)
    (ran : run step c events = some c') (goes : c'.Evicts call) :
    c'.ahead + events.countP (·.isAnswer) ≤ c.ahead := by
  induction events generalizing c with
  | nil =>
    obtain rfl := Option.some.inj ran
    exact le_rfl
  | cons event events ih =>
    obtain ⟨mid,taken,rest⟩ := Option.bind_eq_some_iff.mp ran
    have sound' := step_sound sound taken
    rcases step_ahead sound evicts taken with ⟨r,answered⟩ | ⟨on,fewer⟩
    · obtain ⟨_,_,_,_,_,held⟩ := goes
      have ended := run_answered sound' rest answered
      exact nomatch ((run_sound sound' rest).numbered.holds _ _ held).2.2.symm.trans ended
    · have later := ih sound' on rest
      rw [List.countP_cons]
      omega

/-- From `c` on the call holds the lock, up to the step that ends it. -/
def Holds (call : Nat) (c c' : MemoryLRUCache Obj) : Prop :=
  ∃ entered, step c (.enter call) = some entered ∧
    Reach step (fun t _ => t.holder.map (·.1) = some call) entered c'

def Invalidated (lost : List (Departure Obj)) : Prop :=
  ∃ before after, .invalidated before after ∈ lost

def Gone (lost : List (Departure Obj)) (k : String) (e : Entry Obj) : Prop :=
  .evicted k e ∈ lost ∨
    ∃ before after, .invalidated before after ∈ lost ∧ before.get? k = some e ∧ after.get? k = none

variable {lost more : List (Departure Obj)} {k : String} {e : Entry Obj}

theorem Gone.append (gone : Gone lost k e) (more : List (Departure Obj)) : Gone (lost ++ more) k e := by
  rcases gone with spilled | ⟨before,after,taken,was,none⟩
  · exact .inl (List.mem_append_left _ spilled)
  · exact .inr ⟨before,after,List.mem_append_left _ taken,was,none⟩

/-- What a put leaves of an entry that the cache held before it: the entry itself, unless it was
spilled or invalidated; and of the entry it replaced nothing either when its own was spilled
already or any invalidation has run. -/
def Spared (a : Admission Obj) (t : Dict String (Entry Obj)) (lost : List (Departure Obj))
    (k : String) (e : Entry Obj) : Prop :=
  t.get? k = some e ∨ Gone lost k e ∨ k = a.key ∧ (.evicted k a.entry ∈ lost ∨ Invalidated lost)

/-- Between two evictions of a put: what was there under other keys, what it replaced, and its own
entry. -/
structure Displacing (before : Dict String (Entry Obj)) (a : Admission Obj)
    (previous : Option (Entry Obj)) (lost : List (Departure Obj)) (c : MemoryLRUCache Obj) :
    Prop where
  others : ∀ k e, before.get? k = some e → k ≠ a.key → c.entries.get? k = some e ∨ Gone lost k e
  replaced : ∀ e, before.get? a.key = some e → previous = some e ∨ Gone lost a.key e
  own : c.entries.get? a.key = some a.entry ∨ .evicted a.key a.entry ∈ lost ∨ Invalidated lost
  timely : Invalidated lost ∨ a.generation = c.generation

def PutView (before : Dict String (Entry Obj)) (a : Admission Obj) (call : Nat)
    (lost : List (Departure Obj)) (c : MemoryLRUCache Obj) : Prop :=
  match c.holder with
  | some (_,.admitting b) => b = a ∧
      ∀ k e, before.get? k = some e → c.entries.get? k = some e ∨ Gone lost k e
  | some (_,.evicting b previous _ _ _) => b = a ∧ Displacing before a previous lost c
  | some _ => False
  | none => c.results.get? call = some .failed →
      ∀ k e, before.get? k = some e → Spared a c.entries lost k e

variable {before t : Dict String (Entry Obj)} {previous : Option (Entry Obj)}

theorem Invalidated.append (ran : Invalidated lost) (more : List (Departure Obj)) :
    Invalidated (lost ++ more) := by
  obtain ⟨before,after,inside⟩ := ran
  exact ⟨before,after,List.mem_append_left _ inside⟩

theorem Losses.kept (losses : Losses c.entries t more)
    (held : c.entries.get? k = some e ∨ Gone lost k e) :
    t.get? k = some e ∨ Gone (lost ++ more) k e := by
  rcases held with kept | gone
  · exact (losses.gone k e kept).imp_right fun spilled => .inl (List.mem_append_right _ spilled)
  · exact .inr (gone.append more)

theorem Displacing.lose (displacing : Displacing before a previous lost c) (clean : Finset String)
    (losses : Losses c.entries t more) : Displacing before a previous (lost ++ more)
      { c with entries := t, clean := clean, departed := c.departed ++ more } := by
  obtain ⟨others,replaced,own,timely⟩ := displacing
  refine ⟨fun k e was other => losses.kept (others k e was other),fun e was => ?_,?_,?_⟩
  · exact (replaced e was).imp_right (·.append more)
  · rcases own with here | spilled | ran
    · exact (losses.gone _ _ here).imp_right fun spilled => .inl (List.mem_append_right _ spilled)
    · exact .inr (.inl (List.mem_append_left _ spilled))
    · exact .inr (.inr (ran.append more))
  · exact timely.imp_left (·.append more)

theorem evictOn_view {loop : Excess} (call : Nat) (displacing : Displacing before a previous lost c)
    (ready : loop = .count → c.footprint "ram" ≤ c.maxBytes) :
    ∃ more, (c.evictOn call a previous loop).departed = c.departed ++ more ∧
      PutView before a call (lost ++ more) (c.evictOn call a previous loop) := by
  obtain ⟨t,clean,more,losses,⟨done,_⟩ | ⟨loop',k,e,waits,_,_⟩⟩ :=
    evictOn_spec c call a previous ready
  · rw [done]
    refine ⟨more,rfl,fun failed => ?_⟩
    exact nomatch failed.symm.trans (Dict.get?_set_self _ _ _)
  · rw [waits]
    refine ⟨more,rfl,rfl,?_⟩
    obtain ⟨others,replaced,own,timely⟩ := displacing.lose clean losses
    exact ⟨others,replaced,own,timely⟩

theorem admit_view (lost : List (Departure Obj)) (timely : a.generation = c.generation)
    (kept : ∀ k e, before.get? k = some e → c.entries.get? k = some e ∨ Gone lost k e)
    (persisted : Bool) :
    ∃ more, (c.admitEntry call a persisted).departed = c.departed ++ more ∧
      PutView before a call (lost ++ more) (c.admitEntry call a persisted) := by
  unfold admitEntry
  extract_lets previous clean admitted
  have displacing : Displacing before a previous lost admitted := by
    refine ⟨fun k e was other => ?_,fun e was => kept a.key e was,?_,.inr timely⟩
    · refine (kept k e was).imp_left fun held => ?_
      change ((c.entries.erase a.key).set a.key a.entry).get? k = some e
      rw [Dict.get?_set_ne _ _ other,Dict.get?_erase,if_neg other]
      exact held
    · exact .inl (Dict.get?_set_self _ _ _)
  exact evictOn_view call displacing nofun

theorem reject_view (displacing : Displacing before a previous lost c)
    (was : before.get? k = some e) : Spared a (c.reject a previous).entries lost k e := by
  obtain ⟨others,replaced,own,timely⟩ := displacing
  unfold reject
  by_cases here : k = a.key
  · subst here
    cases found : c.entries.get? a.key with
    | none =>
      rw [found] at own
      exact .inr (.inr ⟨rfl,own.resolve_left nofun⟩)
    | some e' =>
      dsimp only
      split
      · rcases replaced e was with rfl | gone
        · dsimp only
          split
          · exact .inl (Dict.get?_set_self _ _ _)
          · rename_i late
            exact .inr (.inr ⟨rfl,.inr (timely.resolve_right late)⟩)
        · exact .inr (.inl gone)
      · rename_i foreign
        rcases own with mine | gone
        · exact absurd (congrArg Entry.object (Option.some.inj (found.symm.trans mine))) foreign
        · exact .inr (.inr ⟨rfl,gone⟩)
  · have kept := others k e was here
    have away : (c.entries.erase a.key).get? k = c.entries.get? k := by
      rw [Dict.get?_erase,if_neg here]
    have removed : (c.remove a.key).entries.get? k = some e ∨ Gone lost k e := by
      change (c.entries.erase a.key).get? k = some e ∨ _
      rw [away]
      exact kept
    have result (t : Dict String (Entry Obj)) (same : t.get? k = some e ∨ Gone lost k e) :
        Spared a t lost k e := same.imp_right .inl
    refine result _ ?_
    split
    · split
      · split
        · split
          · change ((c.entries.erase a.key).set a.key _).get? k = some e ∨ _
            rw [Dict.get?_set_ne _ _ here,away]
            exact kept
          · exact removed
        · exact removed
      · exact kept
    · exact kept

theorem step_put (sound : c.Sound) (view : PutView before a call lost c)
    (mine : c.holder.map (·.1) = some call) (taken : c.step event = some c') :
    ∃ more, c'.departed = c.departed ++ more ∧ PutView before a call (lost ++ more) c' := by
  obtain ⟨⟨i,stage⟩,held,rfl⟩ := Option.map_eq_some_iff.mp mine
  unfold PutView at view
  rw [held] at view
  cases step_change taken with
  | quiet entries holder _ _ generation departed _ _ _ =>
    refine ⟨[],by rw [departed,List.append_nil],?_⟩
    unfold PutView
    rw [holder,held,List.append_nil]
    cases stage with
    | admitting b =>
      obtain ⟨rfl,kept⟩ := view
      exact ⟨rfl,fun k e was => (entries k).symm ▸ kept k e was⟩
    | evicting b previous loop victim spilled =>
      obtain ⟨rfl,others,replaced,own,timely⟩ := view
      exact ⟨rfl,fun k e was other => (entries k).symm ▸ others k e was other,replaced,
        (entries _).symm ▸ own,generation.symm ▸ timely⟩
    | shedding => exact view
    | holding => exact view
  | invalidated left clean within _ =>
    have ran : Invalidated (lost ++ [.invalidated c.entries left]) :=
      ⟨_,_,List.mem_append_right _ List.mem_cons_self⟩
    have survive (k : String) (e : Entry Obj) (kept : c.entries.get? k = some e ∨ Gone lost k e) :
        left.get? k = some e ∨ Gone (lost ++ [.invalidated c.entries left]) k e := by
      rcases kept with kept | gone
      · cases now : left.get? k with
        | none =>
          exact .inr (.inr ⟨_,_,List.mem_append_right _ List.mem_cons_self,kept,now⟩)
        | some e' => exact .inl ((within k e' now).symm.trans kept)
      · exact .inr (gone.append _)
    refine ⟨_,rfl,?_⟩
    unfold PutView
    dsimp only
    rw [held]
    cases stage with
    | admitting b => exact ⟨view.1,fun k e was => survive k e (view.2 k e was)⟩
    | evicting b previous loop victim spilled =>
      obtain ⟨rfl,others,replaced,own,timely⟩ := view
      exact ⟨rfl,fun k e was other => survive k e (others k e was other),
        fun e was => (replaced e was).imp_right (·.append _),.inr (.inr ran),.inl ran⟩
    | shedding => exact view
    | holding => exact view
  | entered j w free waits => exact nomatch free.symm.trans held
  | left j held' =>
    obtain ⟨rfl,rfl⟩ := Prod.mk.inj (Option.some.inj (held.symm.trans held'))
    exact view.elim
  | answered j stage' outcome d held' taken =>
    obtain ⟨rfl,rfl⟩ := Prod.mk.inj (Option.some.inj (held.symm.trans held'))
    have midway := sound.tidy
    unfold Tidy at midway
    rw [held] at midway
    cases answer_cases taken with
    | unwritten b =>
      refine ⟨[],(List.append_nil _).symm,fun _ k e was => ?_⟩
      rw [List.append_nil]
      exact (view.2 k e was).imp_right .inl
    | outdated b late =>
      refine ⟨[],(List.append_nil _).symm,fun failed => ?_⟩
      exact nomatch failed.symm.trans (Dict.get?_set_self _ _ _)
    | admitted b wrote timely =>
      obtain ⟨rfl,kept⟩ := view
      exact admit_view lost timely kept wrote
    | rejected b previous loop victim spilled =>
      obtain ⟨rfl,displacing⟩ := view
      obtain ⟨t,clean,rejected⟩ := reject_spec c b previous
      refine ⟨[],?_,fun _ k e was => ?_⟩
      · rw [rejected]
        exact (List.append_nil _).symm
      · rw [List.append_nil]
        exact reject_view displacing was
    | evicted b previous loop victim spilled =>
      obtain ⟨rfl,displacing⟩ := view
      obtain ⟨t,clean,spill,evicted,losses⟩ := evict_spec c victim spilled
      rw [evicted]
      obtain ⟨more,departed,later⟩ := evictOn_view i (displacing.lose clean losses)
        fun last => losses.within.footprint.trans (midway.ready last)
      refine ⟨spill ++ more,?_,?_⟩
      · rw [departed,List.append_assoc]
      · rw [← List.append_assoc]
        exact later
    | stopped => exact view.elim
    | shed => exact view.elim

theorem enter_cases (taken : c.step (.enter call) = some c') :
    ∃ w, c.holder = none ∧ c.waiting.get? call = some w ∧
      c' = enter { c with waiting := c.waiting.erase call } call w := by
  unfold step at taken
  dsimp only at taken
  split at taken
  · rename_i w free waits
    exact ⟨w,free,waits,(Option.some.inj taken).symm⟩
  · cases taken

theorem enter_put (taken : c.step (.enter call) = some c')
    (asked : c.waiting.get? call = some (.admission a)) :
    ∃ lost, c'.departed = c.departed ++ lost ∧ PutView c.entries a call lost c' := by
  obtain ⟨w,_,waits,rfl⟩ := enter_cases taken
  obtain rfl := Option.some.inj (asked.symm.trans waits)
  unfold enter
  dsimp only
  split
  · refine ⟨[],(List.append_nil _).symm,fun failed => ?_⟩
    cases failed.symm.trans (Dict.get?_set_self _ _ _)
  · rename_i timely
    split
    · exact ⟨[],(List.append_nil _).symm,rfl,fun _ _ held => .inl held⟩
    · exact admit_view (c := { c with waiting := c.waiting.erase call }) []
        (Decidable.not_not.mp timely) (fun _ _ held => .inl held) _

theorem holds_sound (sound : c.Sound) (holds : Holds call c c') : c'.Sound := by
  obtain ⟨entered,taken,rest⟩ := holds
  exact rest.invariant Sound (step_sound sound taken) fun _ _ _ before _ later =>
    step_sound before later

theorem holds_view (View : List (Departure Obj) → MemoryLRUCache Obj → Prop) (sound : c.Sound)
    (enters : ∀ d, c.step (.enter call) = some d → ∃ lost, d.departed = c.departed ++ lost ∧ View lost d)
    (keeps : ∀ lost event d d', d.Sound → View lost d → d.holder.map (·.1) = some call →
      d.step event = some d' → ∃ more, d'.departed = d.departed ++ more ∧ View (lost ++ more) d')
    (holds : Holds call c c') : ∃ lost, c'.departed = c.departed ++ lost ∧ View lost c' := by
  obtain ⟨entered,taken,rest⟩ := holds
  have both := rest.invariant
    (fun d => d.Sound ∧ ∃ lost, d.departed = c.departed ++ lost ∧ View lost d)
    ⟨step_sound sound taken,enters entered taken⟩ fun d event d' before mine later => by
      obtain ⟨sound',lost,departed,view⟩ := before
      obtain ⟨more,departed',view'⟩ := keeps lost event d d' sound' view mine later
      refine ⟨step_sound sound' later,lost ++ more,?_,view'⟩
      rw [departed',departed,List.append_assoc]
  exact both.2

theorem stretch_mine {d : MemoryLRUCache Obj} (stretch : Stretch call c d) :
    d.holder = none ∨ d.holder.map (·.1) = some call := by
  rcases stretch.ending with ⟨_,_,free,_⟩ | ⟨stage,held,_⟩
  · exact .inl free
  · exact .inr (by rw [held,Option.map_some])

theorem step_mine (sound : c.Sound) (mine : c.holder.map (·.1) = some call)
    (taken : c.step event = some c') : c'.holder = none ∨ c'.holder.map (·.1) = some call := by
  obtain ⟨⟨i,stage⟩,held,rfl⟩ := Option.map_eq_some_iff.mp mine
  cases step_change taken with
  | quiet _ holder => exact .inr (by rw [holder,mine])
  | invalidated => exact .inr mine
  | entered j w free waits => exact nomatch free.symm.trans held
  | left j held' => exact .inl rfl
  | answered j stage' outcome d held' taken =>
    obtain ⟨rfl,rfl⟩ := Prod.mk.inj (Option.some.inj (held.symm.trans held'))
    exact stretch_mine (answer_stretch sound.tidy held taken)

theorem holds_mine (sound : c.Sound) (holds : Holds call c c') :
    c'.holder = none ∨ c'.holder.map (·.1) = some call := by
  obtain ⟨entered,taken,rest⟩ := holds
  obtain ⟨w,_,_,rfl⟩ := enter_cases taken
  have both := rest.invariant
    (fun d => d.Sound ∧ (d.holder = none ∨ d.holder.map (·.1) = some call))
    ⟨step_sound sound taken,stretch_mine (enter_stretch _ call w)⟩ fun d event d' before mine later =>
      ⟨step_sound before.1 later,step_mine before.1 mine later⟩
  exact both.2

theorem holds_ended (sound : c.Sound) (holds : Holds call c c') {r : Result}
    (ended : c'.results.get? call = some r) : c'.holder = none := by
  rcases holds_mine sound holds with free | mine
  · exact free
  · obtain ⟨⟨_,stage⟩,held,rfl⟩ := Option.map_eq_some_iff.mp mine
    exact nomatch ((holds_sound sound holds).numbered.holds _ _ held).2.2.symm.trans ended

theorem put_failed (sound : c.Sound) (asked : c.waiting.get? call = some (.admission a))
    (holds : Holds call c c') (failed : c'.results.get? call = some .failed) :
    ∃ lost, c'.departed = c.departed ++ lost ∧
      ∀ k e, c.entries.get? k = some e → Spared a c'.entries lost k e := by
  obtain ⟨lost,departed,view⟩ := holds_view (PutView c.entries a call) sound
    (fun d taken => enter_put taken asked)
    (fun lost event d d' sound' view mine taken => step_put sound' view mine taken) holds
  refine ⟨lost,departed,?_⟩
  unfold PutView at view
  rw [holds_ended sound holds failed] at view
  exact view failed

def invalidatedBytes (device : String) (lost : List (Departure Obj)) : Nat :=
  (lost.map fun d => match d with
    | .invalidated before after => footprintOf before device - footprintOf after device
    | .evicted _ _ => 0).sum

theorem invalidatedBytes_append (device : String) (lost more : List (Departure Obj)) :
    invalidatedBytes device (lost ++ more) =
      invalidatedBytes device lost + invalidatedBytes device more := by
  rw [invalidatedBytes,List.map_append,List.sum_append]
  rfl

theorem Losses.uninvalidated (losses : Losses before t more) (device : String) :
    invalidatedBytes device more = 0 := by
  refine List.sum_eq_zero fun n counted => ?_
  obtain ⟨d,inside,rfl⟩ := List.mem_map.mp counted
  obtain ⟨k,e,rfl,_⟩ := losses.spilled d inside
  rfl

/-- Where a shed stands: what it freed, what is left and what invalidations took make up the
footprint it started from. -/
def ShedView (base : Nat) (pressure : PressureSignal) (call : Nat) (lost : List (Departure Obj))
    (c : MemoryLRUCache Obj) : Prop :=
  match c.holder with
  | some (_,.shedding p freed _ _ _) => p = pressure ∧
      freed + c.footprint pressure.device + invalidatedBytes pressure.device lost = base
  | some _ => False
  | none => ∀ n, c.results.get? call = some (.freed n) →
      n + c.footprint pressure.device + invalidatedBytes pressure.device lost = base

variable {base freed : Nat} {pressure : PressureSignal}

theorem shedOn_view (c : MemoryLRUCache Obj) (call : Nat) (lost : List (Departure Obj))
    (keys : List String) (balance : freed + c.footprint pressure.device +
      invalidatedBytes pressure.device lost = base) :
    ∃ more, (shedOn call pressure c freed keys).departed = c.departed ++ more ∧
      ShedView base pressure call (lost ++ more) (shedOn call pressure c freed keys) := by
  obtain ⟨t,clean,more,sum,losses,counted,outcome⟩ := shedOn_spec c call pressure freed keys
  have settled : sum + footprintOf t pressure.device +
      invalidatedBytes pressure.device (lost ++ more) = base := by
    rw [invalidatedBytes_append,losses.uninvalidated]
    omega
  rcases outcome with done | ⟨k,e,rest,waits⟩
  · rw [done]
    refine ⟨more,rfl,fun n reported => ?_⟩
    have same := reported.symm.trans (Dict.get?_set_self _ _ _)
    obtain rfl := Result.freed.inj (Option.some.inj same)
    exact settled
  · rw [waits]
    exact ⟨more,rfl,rfl,settled⟩

theorem step_shed (view : ShedView base pressure call lost c)
    (mine : c.holder.map (·.1) = some call) (taken : c.step event = some c') :
    ∃ more, c'.departed = c.departed ++ more ∧ ShedView base pressure call (lost ++ more) c' := by
  obtain ⟨⟨i,stage⟩,held,rfl⟩ := Option.map_eq_some_iff.mp mine
  unfold ShedView at view
  rw [held] at view
  cases stage with
  | admitting | evicting | holding => exact view.elim
  | shedding p freed victim spilled rest =>
    obtain ⟨rfl,balance⟩ := view
    cases step_change taken with
    | quiet entries holder _ _ _ departed _ _ _ =>
      refine ⟨[],by rw [departed,List.append_nil],?_⟩
      unfold ShedView
      rw [holder,held,List.append_nil]
      refine ⟨rfl,?_⟩
      have same : c'.footprint p.device = c.footprint p.device :=
        le_antisymm (Within.footprint fun k e held => entries k ▸ held)
          (Within.footprint fun k e held => (entries k).symm ▸ held)
      rw [same]
      exact balance
    | invalidated left clean within _ =>
      refine ⟨_,rfl,?_⟩
      unfold ShedView
      dsimp only
      rw [held]
      refine ⟨rfl,?_⟩
      have smaller : footprintOf left p.device ≤ c.footprint p.device := within.footprint
      have taken : invalidatedBytes p.device [.invalidated c.entries left] =
          c.footprint p.device - footprintOf left p.device := Nat.add_zero _
      rw [invalidatedBytes_append,taken]
      change freed + footprintOf left p.device + _ = base
      omega
    | entered j w free waits => exact nomatch free.symm.trans held
    | left j held' => exact nomatch (Prod.mk.inj (Option.some.inj (held.symm.trans held'))).2
    | answered j stage' outcome d held' taken =>
      obtain ⟨rfl,rfl⟩ := Prod.mk.inj (Option.some.inj (held.symm.trans held'))
      cases answer_cases taken with
      | stopped =>
        refine ⟨[],(List.append_nil _).symm,fun n reported => ?_⟩
        exact nomatch reported.symm.trans (Dict.get?_set_self _ _ _)
      | shed =>
        obtain ⟨t,clean,spill,evicted,losses⟩ := evict_spec c victim spilled
        have smaller : footprintOf t p.device ≤ c.footprint p.device := losses.within.footprint
        rw [evicted]
        have balance' : freed + (c.footprint p.device - footprintOf t p.device) +
            footprintOf t p.device + invalidatedBytes p.device (lost ++ spill) = base := by
          rw [invalidatedBytes_append,losses.uninvalidated]
          omega
        obtain ⟨more,departed,later⟩ := shedOn_view
          { c with entries := t, clean := clean, departed := c.departed ++ spill } i (lost ++ spill)
          rest balance'
        refine ⟨spill ++ more,?_,?_⟩
        · rw [← List.append_assoc]
          exact departed
        · rw [← List.append_assoc]
          exact later

theorem shed_reported (sound : c.Sound) (asked : c.waiting.get? call = some (.shed pressure))
    (holds : Holds call c c') {n : Nat} (reported : c'.results.get? call = some (.freed n)) :
    ∃ lost, c'.departed = c.departed ++ lost ∧
      n + c'.footprint pressure.device + invalidatedBytes pressure.device lost =
        c.footprint pressure.device := by
  obtain ⟨lost,departed,view⟩ := holds_view
    (ShedView (c.footprint pressure.device) pressure call) sound
    (fun d taken => by
      obtain ⟨w,_,waits,rfl⟩ := enter_cases taken
      obtain rfl := Option.some.inj (asked.symm.trans waits)
      have start : 0 + c.footprint pressure.device +
          invalidatedBytes pressure.device ([] : List (Departure Obj)) =
          c.footprint pressure.device := by
        rw [invalidatedBytes,List.map_nil,List.sum_nil]
        omega
      exact shedOn_view { c with waiting := c.waiting.erase call } call [] c.entries.keys start)
    (fun lost event d d' _ view mine taken => step_shed view mine taken) holds
  refine ⟨lost,departed,?_⟩
  unfold ShedView at view
  rw [holds_ended sound holds reported] at view
  exact view n reported

theorem stretch_limits {d : MemoryLRUCache Obj} (stretch : Stretch call c d) :
    d.maxEntries = c.maxEntries ∧ d.maxBytes = c.maxBytes := ⟨stretch.maxEntries,stretch.maxBytes⟩

theorem step_limits (sound : c.Sound) (taken : c.step event = some c') :
    c'.maxEntries = c.maxEntries ∧ c'.maxBytes = c.maxBytes := by
  cases step_change taken with
  | quiet _ _ maxEntries maxBytes => exact ⟨maxEntries,maxBytes⟩
  | invalidated => exact ⟨rfl,rfl⟩
  | entered i w free waits =>
    have limits := stretch_limits (enter_stretch { c with waiting := c.waiting.erase i } i w)
    exact limits
  | answered i stage outcome d held taken => exact stretch_limits (answer_stretch sound.tidy held taken)
  | left i held => exact ⟨rfl,rfl⟩

/-- What holds of the cache at every moment, and of every call that takes the lock from then on. -/
structure Accounted (maxEntries maxBytes : Nat) (c : MemoryLRUCache Obj) : Prop where
  bounded : (∀ i, ¬ c.Evicts i) →
    c.footprint "ram" ≤ maxBytes ∧ c.entries.entries.length ≤ maxEntries
  counted : ∀ device, c.footprint device = Peaks.total (charges device (values c.entries))
  summed : ∀ device, Unshared c.entries device →
    c.footprint device = c.entries.total fun e => entryCost e device
  victims : ∀ i, c.results.get? i ≠ some .exhausted
  rounds : ∀ i events c', c.Evicts i → run step c events = some c' → c'.Evicts i →
    events.countP (·.isAnswer) ≤ c.entries.entries.length
  abandoned : ∀ i c', c.step (.abandon i) = some c' → c'.entries = c.entries
  failed : ∀ i a c', c.waiting.get? i = some (.admission a) → Holds i c c' →
    c'.results.get? i = some .failed → ∃ lost, c'.departed = c.departed ++ lost ∧
      ∀ k e, c.entries.get? k = some e → Spared a c'.entries lost k e
  shed : ∀ i pressure c' n, c.waiting.get? i = some (.shed pressure) → Holds i c c' →
    c'.results.get? i = some (.freed n) → ∃ lost, c'.departed = c.departed ++ lost ∧
      n + c'.footprint pressure.device + invalidatedBytes pressure.device lost =
        c.footprint pressure.device

theorem ahead_le (evicts : c.Evicts call) : c.ahead ≤ c.entries.entries.length := by
  obtain ⟨_,_,_,_,_,held⟩ := evicts
  unfold ahead
  rw [held]
  exact within_erase.length

/-- In every state that calls, answers, reads and invalidations can lead to, in any order. -/
theorem memory_accounted {maxEntries maxBytes : Nat} (roomy : 1 ≤ maxEntries) (persists : Bool)
    (reached : Reachable step (new maxEntries maxBytes roomy persists) c) :
    Accounted maxEntries maxBytes c := by
  have start : (new maxEntries maxBytes roomy persists : MemoryLRUCache Obj).Sound :=
    new_sound roomy persists
  obtain ⟨sound,entries,bytes⟩ := reached.invariant
    (fun d => d.Sound ∧ d.maxEntries = maxEntries ∧ d.maxBytes = maxBytes) ⟨start,rfl,rfl⟩
    fun d event d' before _ taken => by
      obtain ⟨sound,entries,bytes⟩ := before
      obtain ⟨entries',bytes'⟩ := step_limits sound taken
      exact ⟨step_sound sound taken,entries'.trans entries,bytes'.trans bytes⟩
  refine ⟨fun settled => ?_,fun device => valuesCost_eq _,fun device => footprintOf_eq_total,
    fun i answered => (sound.numbered.answered i _ answered).2 rfl,
    fun i events c' evicts ran goes => ?_,fun i c' taken => ?_,
    fun i a c' asked holds failed => put_failed sound asked holds failed,
    fun i pressure c' n asked holds reported => shed_reported sound asked holds reported⟩
  · have tidy := sound.tidy
    unfold Tidy at tidy
    split at tidy
    · rename_i i a previous loop victim spilled held
      exact absurd ⟨a,previous,loop,victim,spilled,held⟩ (settled i)
    · exact ⟨bytes ▸ tidy.1,entries ▸ tidy.2⟩
  · have spent := run_ahead sound evicts ran goes
    have most := ahead_le evicts
    omega
  · unfold step at taken
    dsimp only at taken
    split at taken
    · obtain rfl := Option.some.inj taken
      rfl
    · cases taken

/-! Two entries of ten bytes fill the cache; a third needs both places, the first victim is
written and the second cannot be. -/

def costing (payload bytes : Nat) : Dict String (Value Unit) :=
  Dict.ofList [("out",.leaf ⟨"core/any","f",Dict.ofList [("cost",.dict [("ram",.int bytes)])],
    payload⟩ (.object ()))]

def filling (other : Nat) : List (Event Unit) :=
  [.put "a" (costing 0 10),.enter 0,.answer (some false),
    .put "b" (costing other 10),.enter 1,.answer (some false),.put "c" (costing 2 20)]

def filled : MemoryLRUCache Unit := offer step (new 8 20 (by decide) true) (filling 1)

def halfSpilled : MemoryLRUCache Unit :=
  offer step filled [.enter 2,.answer (some false),.answer (some true),.answer none]

def aliased : MemoryLRUCache Unit := offer step (new 8 20 (by decide) true) (filling 0)

theorem filled_reached : Reachable step (new 8 20 (by decide) true) filled :=
  reachable_offer _

theorem halfSpilled_held : Holds 2 filled halfSpilled := by
  refine ⟨offer step filled [.enter 2],rfl,?_⟩
  refine .step (t := offer step filled [.enter 2,.answer (some false),.answer (some true)])
    (a := .answer none) ?_ rfl rfl
  refine .step (t := offer step filled [.enter 2,.answer (some false)])
    (a := .answer (some true)) ?_ rfl rfl
  exact .step (t := offer step filled [.enter 2]) (a := .answer (some false)) .refl rfl rfl

theorem memory_accounted_filled :
    (filled.footprint "ram" ≤ 20 ∧ filled.entries.entries.length ≤ 8) ∧
      ∃ lost, halfSpilled.departed = filled.departed ++ lost ∧
        ∀ k e, filled.entries.get? k = some e →
          Spared ⟨"c",⟨2,costing 2 20⟩,0,false⟩ halfSpilled.entries lost k e := by
  have accounted := memory_accounted (by decide) true filled_reached
  refine ⟨accounted.bounded fun i evicts => ?_,accounted.failed 2 _ _ rfl halfSpilled_held rfl⟩
  obtain ⟨_,_,_,_,_,held⟩ := evicts
  cases held

/-- The put fails and the first victim stays away, although nothing was invalidated; and where the
two entries share their payload, the footprint is not the sum of what they cost. -/
theorem halfSpilled_loses_entry :
    (Holds 2 filled halfSpilled ∧ halfSpilled.results.get? 2 = some .failed ∧
      halfSpilled.generation = filled.generation ∧
      filled.entries.keys = ["a","b"] ∧ halfSpilled.entries.keys = ["b"]) ∧
    ∃ c : MemoryLRUCache Unit, Reachable step (new 8 20 (by decide) true) c ∧
      c.footprint "ram" = 10 ∧ (c.entries.total fun e => entryCost e "ram") = 20 := by
  refine ⟨⟨halfSpilled_held,rfl,rfl,rfl,rfl⟩,aliased,reachable_offer _,rfl,?_⟩
  decide

end MemoryLRUCache
end Dinkster.Caches
