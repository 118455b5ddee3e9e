import Dinkster.Caches.MemoryAccounting
import Mathlib

/-! Safety of the memory cache over whole runs: its bounds outside a put's mutation section, the
length of its eviction loops, what a failing put leaves behind and what a shed reports. -/
namespace Dinkster.Caches
namespace MemoryLRUCache

variable {Obj : Type} {c c' : MemoryLRUCache Obj} {a : Admission Obj} {call : Nat}
  {previous : Option (Entry Obj)} {t : Dict String (Entry Obj)} {k : String} {e : Entry Obj}

structure Stretch (call : Nat) (c c' : MemoryLRUCache Obj) : Prop where
  maxEntries : c'.maxEntries = c.maxEntries
  maxBytes : c'.maxBytes = c.maxBytes
  generation : c'.generation = c.generation
  waiting : c'.waiting = c.waiting
  calls : c'.calls = c.calls
  ending : (∃ r, r ≠ .exhausted ∧ c'.holder = none ∧ c'.results = c.results.set call r) ∨
    ∃ stage, c'.holder = some (call,stage) ∧ c'.results = c.results

theorem stretch_finish (c : MemoryLRUCache Obj) (call : Nat) {r : Result} (sane : r ≠ .exhausted) :
    Stretch call c (c.finish call r) := ⟨rfl,rfl,rfl,rfl,rfl,.inl ⟨r,sane,rfl,rfl⟩⟩

theorem Stretch.after {mid : MemoryLRUCache Obj} (rest : Stretch call mid c')
    (maxEntries : mid.maxEntries = c.maxEntries) (maxBytes : mid.maxBytes = c.maxBytes)
    (generation : mid.generation = c.generation) (waiting : mid.waiting = c.waiting)
    (calls : mid.calls = c.calls) (results : mid.results = c.results) : Stretch call c c' := by
  obtain ⟨entries',bytes',generation',waiting',calls',ending⟩ := rest
  rw [results] at ending
  exact ⟨entries'.trans maxEntries,bytes'.trans maxBytes,generation'.trans generation,
    waiting'.trans waiting,calls'.trans calls,ending⟩

theorem reject_spec (c : MemoryLRUCache Obj) (a : Admission Obj) (previous : Option (Entry Obj)) :
    ∃ t clean, c.reject a previous = { c with entries := t, clean := clean } := by
  unfold reject
  split
  · split
    · split
      · split
        · exact ⟨_,_,rfl⟩
        · exact ⟨_,_,rfl⟩
      · exact ⟨_,_,rfl⟩
    · exact ⟨_,_,rfl⟩
  · exact ⟨_,_,rfl⟩

theorem evictOn_stretch (c : MemoryLRUCache Obj) (call : Nat) (a : Admission Obj)
    (previous : Option (Entry Obj)) {loop : Excess}
    (ready : loop = .count → c.footprint "ram" ≤ c.maxBytes) :
    Stretch call c (c.evictOn call a previous loop) := by
  obtain ⟨t,clean,new,_,⟨done,_⟩ | ⟨loop',k,e,waits,_⟩⟩ := evictOn_spec c call a previous ready
  · rw [done]
    exact ⟨rfl,rfl,rfl,rfl,rfl,.inl ⟨.returned,nofun,rfl,rfl⟩⟩
  · rw [waits]
    exact ⟨rfl,rfl,rfl,rfl,rfl,.inr ⟨_,rfl,rfl⟩⟩

theorem admit_stretch (c : MemoryLRUCache Obj) (call : Nat) (a : Admission Obj) (persisted : Bool) :
    Stretch call c (c.admitEntry call a persisted) := by
  unfold admitEntry
  extract_lets previous clean admitted
  have rest : Stretch call admitted (admitted.evictOn call a previous .bytes) :=
    evictOn_stretch admitted call a previous nofun
  exact rest.after rfl rfl rfl rfl rfl rfl

theorem shedOn_stretch (c : MemoryLRUCache Obj) (call : Nat) (pressure : PressureSignal)
    (freed : Nat) (keys : List String) : Stretch call c (shedOn call pressure c freed keys) := by
  obtain ⟨t,clean,new,sum,_,_,done | ⟨k,e,rest,waits⟩⟩ := shedOn_spec c call pressure freed keys
  · rw [done]
    exact ⟨rfl,rfl,rfl,rfl,rfl,.inl ⟨.freed sum,nofun,rfl,rfl⟩⟩
  · rw [waits]
    exact ⟨rfl,rfl,rfl,rfl,rfl,.inr ⟨_,rfl,rfl⟩⟩

theorem enter_stretch (c : MemoryLRUCache Obj) (call : Nat) (w : Waiting Obj) :
    Stretch call c (c.enter call w) := by
  cases w with
  | admission a =>
    unfold enter
    dsimp only
    split
    · exact stretch_finish _ _ (by simp)
    · split
      · exact ⟨rfl,rfl,rfl,rfl,rfl,.inr ⟨_,rfl,rfl⟩⟩
      · exact admit_stretch _ _ _ _
  | shed pressure => exact shedOn_stretch _ _ _ _ _
  | hold => exact ⟨rfl,rfl,rfl,rfl,rfl,.inr ⟨_,rfl,rfl⟩⟩

/-- The ways a stretch after the handler's answer can go. -/
inductive Answered (c : MemoryLRUCache Obj) (i : Nat) : Stage Obj → MemoryLRUCache Obj → Prop
  | unwritten (b : Admission Obj) : Answered c i (.admitting b) (c.finish i .failed)
  | outdated (b : Admission Obj) (late : b.generation ≠ c.generation) :
    Answered c i (.admitting b) (c.finish i .returned)
  | admitted (b : Admission Obj) (wrote : Bool) (timely : b.generation = c.generation) :
    Answered c i (.admitting b) (c.admitEntry i b wrote)
  | rejected (b : Admission Obj) (replaced : Option (Entry Obj)) (loop : Excess) (victim : String)
    (spilled : Entry Obj) : Answered c i (.evicting b replaced loop victim spilled)
      ((c.reject b replaced).finish i .failed)
  | evicted (b : Admission Obj) (replaced : Option (Entry Obj)) (loop : Excess) (victim : String)
    (spilled : Entry Obj) : Answered c i (.evicting b replaced loop victim spilled)
      ((c.evict victim spilled).evictOn i b replaced loop)
  | stopped (pressure : PressureSignal) (freed : Nat) (victim : String) (spilled : Entry Obj)
    (rest : List String) :
    Answered c i (.shedding pressure freed victim spilled rest) (c.finish i .failed)
  | shed (pressure : PressureSignal) (freed : Nat) (victim : String) (spilled : Entry Obj)
    (rest : List String) : Answered c i (.shedding pressure freed victim spilled rest)
      (shedOn i pressure (c.evict victim spilled) (freed + (c.footprint pressure.device -
        (c.evict victim spilled).footprint pressure.device)) rest)

theorem answer_cases {stage : Stage Obj} {outcome : Option Bool}
    (answered : c.answer call stage outcome = some c') : Answered c call stage c' := by
  cases stage with
  | admitting a =>
    cases outcome with
    | none =>
      obtain rfl := Option.some.inj answered
      exact .unwritten a
    | some wrote =>
      unfold answer at answered
      dsimp only at answered
      split at answered
      · rename_i late
        obtain rfl := Option.some.inj answered
        exact .outdated a late
      · rename_i current
        obtain rfl := Option.some.inj answered
        exact .admitted a wrote (Decidable.not_not.mp current)
  | evicting a previous loop victim spilled =>
    cases outcome <;> obtain rfl := Option.some.inj answered
    · exact .rejected a previous loop victim spilled
    · exact .evicted a previous loop victim spilled
  | shedding pressure freed victim spilled rest =>
    cases outcome <;> obtain rfl := Option.some.inj answered
    · exact .stopped pressure freed victim spilled rest
    · exact .shed pressure freed victim spilled rest
  | holding => cases answered

def restored (t : Dict String (Entry Obj)) (a : Admission Obj) :
    Option (Entry Obj) → Dict String (Entry Obj)
  | none => t.erase a.key
  | some p => (t.erase a.key).set a.key p

structure Midway (c : MemoryLRUCache Obj) (a : Admission Obj) (previous : Option (Entry Obj))
    (loop : Excess) (victim : String) (spilled : Entry Obj) : Prop where
  current : ∀ e, c.entries.get? a.key = some e → e = a.entry
  chosen : ∀ e, c.entries.get? victim = some e → e = spilled
  back : Bounded c (restored c.entries a previous)
  ready : loop = .count → c.footprint "ram" ≤ c.maxBytes

def Tidy (c : MemoryLRUCache Obj) : Prop :=
  match c.holder with
  | some (_,.evicting a previous loop victim spilled) => Midway c a previous loop victim spilled
  | _ => Bounded c c.entries

structure Numbered (c : MemoryLRUCache Obj) : Prop where
  waits : ∀ i w, c.waiting.get? i = some w → i < c.calls ∧ c.results.get? i = none
  holds : ∀ i s, c.holder = some (i,s) →
    i < c.calls ∧ c.waiting.get? i = none ∧ c.results.get? i = none
  answered : ∀ i r, c.results.get? i = some r → i < c.calls ∧ r ≠ .exhausted

theorem Stretch.numbered (stretch : Stretch call c c') (numbered : c.Numbered)
    (fresh : call < c.calls ∧ c.waiting.get? call = none ∧ c.results.get? call = none) :
    c'.Numbered := by
  obtain ⟨_,_,_,waiting,calls,ending⟩ := stretch
  obtain ⟨known,unasked,unanswered⟩ := fresh
  rcases ending with ⟨r,sane,idle,results⟩ | ⟨stage,held,results⟩
  · refine ⟨fun i w waits => ?_,fun i s holds => ?_,fun i r' answered => ?_⟩
    · rw [waiting] at waits
      obtain ⟨early,silent⟩ := numbered.waits i w waits
      have apart : i ≠ call := by
        rintro rfl
        exact nomatch unasked.symm.trans waits
      rw [calls,results,Dict.get?_set_ne _ _ apart]
      exact ⟨early,silent⟩
    · exact nomatch idle.symm.trans holds
    · rw [results,Dict.get?_set] at answered
      rw [calls]
      split at answered
      · rename_i here
        exact ⟨here ▸ known,Option.some.inj answered ▸ sane⟩
      · exact numbered.answered i r' answered
  · refine ⟨fun i w waits => ?_,fun i s holds => ?_,fun i r' answered => ?_⟩
    · rw [calls,results]
      exact numbered.waits i w (waiting ▸ waits)
    · obtain ⟨rfl,_⟩ := Prod.mk.inj (Option.some.inj (held.symm.trans holds))
      rw [calls,waiting,results]
      exact ⟨known,unasked,unanswered⟩
    · rw [calls]
      exact numbered.answered i r' (results ▸ answered)

theorem Numbered.ask (numbered : c.Numbered) (w : Waiting Obj) : (c.ask w).Numbered := by
  refine ⟨fun i w' waits => ?_,fun i s holds => ?_,fun i r answered => ?_⟩
  · change (c.waiting.set c.calls w).get? i = some w' at waits
    rw [Dict.get?_set] at waits
    split at waits
    · rename_i here
      refine ⟨here ▸ Nat.lt_succ_self _,Option.eq_none_iff_forall_ne_some.mpr fun r answered => ?_⟩
      exact absurd (numbered.answered i r answered).1 (here ▸ Nat.lt_irrefl _)
    · obtain ⟨early,silent⟩ := numbered.waits i w' waits
      exact ⟨early.trans (Nat.lt_succ_self _),silent⟩
  · obtain ⟨early,unasked,silent⟩ := numbered.holds i s holds
    refine ⟨early.trans (Nat.lt_succ_self _),?_,silent⟩
    exact (Dict.get?_set_ne _ _ early.ne).trans unasked
  · obtain ⟨early,sane⟩ := numbered.answered i r answered
    exact ⟨early.trans (Nat.lt_succ_self _),sane⟩

theorem waits_of_erased {i : Nat} {w : Waiting Obj}
    (waits : (c.waiting.erase call).get? i = some w) : c.waiting.get? i = some w ∧ i ≠ call := by
  rw [Dict.get?_erase] at waits
  split at waits
  · cases waits
  · rename_i other
    exact ⟨waits,other⟩

theorem Numbered.entering (numbered : c.Numbered) (free : c.holder = none) {w : Waiting Obj}
    (waits : c.waiting.get? call = some w) :
    ({ c with waiting := c.waiting.erase call } : MemoryLRUCache Obj).Numbered ∧
      call < c.calls ∧ (c.waiting.erase call).get? call = none ∧
        c.results.get? call = none := by
  obtain ⟨known,silent⟩ := numbered.waits call w waits
  refine ⟨⟨fun i w' waits' => numbered.waits i w' (waits_of_erased waits').1,fun i s holds => ?_,
    numbered.answered⟩,known,?_,silent⟩
  · exact nomatch free.symm.trans holds
  · rw [Dict.get?_erase,if_pos rfl]

theorem Numbered.abandon (numbered : c.Numbered) {w : Waiting Obj}
    (waits : c.waiting.get? call = some w) :
    ({ c with waiting := c.waiting.erase call, results := c.results.set call .failed } :
      MemoryLRUCache Obj).Numbered := by
  obtain ⟨known,silent⟩ := numbered.waits call w waits
  refine ⟨fun i w' waits' => ?_,fun i s holds => ?_,fun i r answered => ?_⟩
  · obtain ⟨waits',other⟩ := waits_of_erased waits'
    obtain ⟨early,quiet⟩ := numbered.waits i w' waits'
    exact ⟨early,(Dict.get?_set_ne _ _ other).trans quiet⟩
  · obtain ⟨early,unasked,quiet⟩ := numbered.holds i s holds
    have other : i ≠ call := by
      rintro rfl
      exact nomatch unasked.symm.trans waits
    refine ⟨early,?_,(Dict.get?_set_ne _ _ other).trans quiet⟩
    rw [Dict.get?_erase,if_neg other]
    exact unasked
  · rw [Dict.get?_set] at answered
    split at answered
    · rename_i here
      exact ⟨here ▸ known,by rw [← Option.some.inj answered]; nofun⟩
    · exact numbered.answered i r answered

theorem Within.restored {small large : Dict String (Entry Obj)} (within : Within small large)
    (a : Admission Obj) (previous : Option (Entry Obj)) :
    Within (restored small a previous) (restored large a previous) := by
  cases previous with
  | none => exact within.erase a.key
  | some p =>
    intro k e held
    unfold MemoryLRUCache.restored at held ⊢
    rw [Dict.get?_set] at held ⊢
    split at held
    · rename_i here
      rw [if_pos here]
      exact held
    · rename_i other
      rw [if_neg other]
      exact within.erase a.key k e held

theorem restored_within (t : Dict String (Entry Obj)) (a : Admission Obj) :
    Within (restored ((t.erase a.key).set a.key a.entry) a (t.get? a.key)) t := by
  have cleared : ((t.erase a.key).set a.key a.entry).erase a.key = t.erase a.key := by
    rw [Dict.erase_set]
    exact Dict.erase_absent (by rw [Dict.get?_erase,if_pos rfl])
  cases found : t.get? a.key with
  | none =>
    unfold restored
    rw [cleared]
    exact within_erase
  | some p =>
    unfold restored
    rw [cleared]
    exact within_erase.insert found

theorem reject_within (current : ∀ e, c.entries.get? a.key = some e → e = a.entry)
    (previous : Option (Entry Obj)) :
    Within (c.reject a previous).entries (restored c.entries a previous) := by
  have smaller (p : Option (Entry Obj)) : Within (c.entries.erase a.key) (restored c.entries a p) := by
    intro k e held
    rw [Dict.get?_erase] at held
    split at held
    · cases held
    · rename_i other
      cases p with
      | none =>
        unfold restored
        rw [Dict.get?_erase,if_neg other]
        exact held
      | some p =>
        unfold restored
        rw [Dict.get?_set_ne _ _ other,Dict.get?_erase,if_neg other]
        exact held
  unfold reject
  cases found : c.entries.get? a.key with
  | none =>
    have same := smaller previous
    rw [Dict.erase_absent found] at same
    exact same
  | some e =>
    dsimp only
    rw [if_pos (congrArg Entry.object (current e found))]
    cases previous with
    | none => exact smaller none
    | some p =>
      dsimp only
      split
      · exact Within.refl _
      · exact smaller (some p)

theorem evictOn_tidy {loop : Excess} (current : ∀ e, c.entries.get? a.key = some e → e = a.entry)
    (back : Bounded c (restored c.entries a previous))
    (ready : loop = .count → c.footprint "ram" ≤ c.maxBytes) :
    (c.evictOn call a previous loop).Tidy := by
  obtain ⟨t,clean,new,losses,⟨done,bounded⟩ | ⟨loop',k,e,waits,found,ready'⟩⟩ :=
    evictOn_spec c call a previous ready
  · rw [done]
    exact bounded
  · rw [waits]
    refine ⟨fun e' held => current e' (losses.within _ _ held),fun e' held => ?_,
      back.within (losses.within.restored a previous),ready'⟩
    exact Option.some.inj (held.symm.trans found)

theorem admit_tidy (bounded : Bounded c c.entries) (a : Admission Obj) (persisted : Bool) :
    (c.admitEntry call a persisted).Tidy := by
  unfold admitEntry
  extract_lets previous clean admitted
  refine evictOn_tidy (fun e held => ?_) (bounded.within (restored_within c.entries a)) nofun
  exact Option.some.inj (held.symm.trans (Dict.get?_set_self _ _ _))

theorem shedOn_tidy (bounded : Bounded c c.entries) (pressure : PressureSignal) (freed : Nat)
    (keys : List String) : (shedOn call pressure c freed keys).Tidy := by
  obtain ⟨t,clean,new,sum,losses,_,done | ⟨k,e,rest,waits⟩⟩ :=
    shedOn_spec c call pressure freed keys
  · rw [done]
    exact bounded.within losses.within
  · rw [waits]
    exact bounded.within losses.within

theorem enter_tidy (bounded : Bounded c c.entries) (w : Waiting Obj) : (c.enter call w).Tidy := by
  cases w with
  | admission a =>
    unfold enter
    dsimp only
    split
    · exact bounded
    · split
      · exact bounded
      · exact admit_tidy bounded a _
  | shed pressure => exact shedOn_tidy bounded pressure 0 _
  | hold => exact bounded

theorem answer_tidy {stage : Stage Obj} {outcome : Option Bool} (tidy : c.Tidy)
    (held : c.holder = some (call,stage)) (answered : c.answer call stage outcome = some c') :
    c'.Tidy := by
  unfold Tidy at tidy
  rw [held] at tidy
  cases answer_cases answered with
  | unwritten a => exact tidy
  | outdated a late => exact tidy
  | admitted a wrote current => exact admit_tidy tidy a wrote
  | rejected a previous loop victim spilled =>
    obtain ⟨t,clean,rejected⟩ := reject_spec c a previous
    have smaller := reject_within tidy.current previous
    rw [rejected] at smaller ⊢
    exact tidy.back.within smaller
  | evicted a previous loop victim spilled =>
    obtain ⟨t,clean,new,evicted,losses⟩ := evict_spec c victim spilled
    rw [evicted]
    refine evictOn_tidy (fun e held => tidy.current e (losses.within _ _ held))
      (tidy.back.within (losses.within.restored a previous)) fun last => ?_
    exact losses.within.footprint.trans (tidy.ready last)
  | stopped pressure freed victim spilled rest => exact tidy
  | shed pressure freed victim spilled rest =>
    obtain ⟨t,clean,new,evicted,losses⟩ := evict_spec c victim spilled
    rw [evicted]
    refine shedOn_tidy ?_ pressure _ rest
    exact Bounded.within (c := c) tidy losses.within

theorem Tidy.shrink (tidy : c.Tidy) (within : Within c'.entries c.entries)
    (holder : c'.holder = c.holder) (maxEntries : c'.maxEntries = c.maxEntries)
    (maxBytes : c'.maxBytes = c.maxBytes) : c'.Tidy := by
  have narrower {t t' : Dict String (Entry Obj)} (bounded : Bounded c t) (sub : Within t' t) :
      Bounded c' t' := by
    obtain ⟨light,few⟩ := bounded.within sub
    exact ⟨maxBytes ▸ light,maxEntries ▸ few⟩
  unfold Tidy at tidy ⊢
  rw [holder]
  split at tidy
  · obtain ⟨current,chosen,back,ready⟩ := tidy
    refine ⟨fun e held => current e (within _ _ held),fun e held => chosen e (within _ _ held),
      narrower back (within.restored _ _),fun last => ?_⟩
    rw [maxBytes]
    exact within.footprint.trans (ready last)
  · exact narrower tidy within

theorem answer_stretch {stage : Stage Obj} {outcome : Option Bool} (tidy : c.Tidy)
    (held : c.holder = some (call,stage)) (answered : c.answer call stage outcome = some c') :
    Stretch call c c' := by
  unfold Tidy at tidy
  rw [held] at tidy
  cases answer_cases answered with
  | unwritten a => exact stretch_finish c call nofun
  | outdated a late => exact stretch_finish c call nofun
  | admitted a wrote current => exact admit_stretch c call a wrote
  | rejected a previous loop victim spilled =>
    obtain ⟨t,clean,rejected⟩ := reject_spec c a previous
    rw [rejected]
    exact ⟨rfl,rfl,rfl,rfl,rfl,.inl ⟨.failed,nofun,rfl,rfl⟩⟩
  | evicted a previous loop victim spilled =>
    obtain ⟨t,clean,new,evicted,losses⟩ := evict_spec c victim spilled
    rw [evicted]
    have rest := evictOn_stretch
      { c with entries := t, clean := clean, departed := c.departed ++ new } call a previous
      fun last => losses.within.footprint.trans (tidy.ready last)
    exact rest.after rfl rfl rfl rfl rfl rfl
  | stopped pressure freed victim spilled rest => exact stretch_finish c call nofun
  | shed pressure freed victim spilled rest =>
    obtain ⟨t,clean,new,evicted,_⟩ := evict_spec c victim spilled
    rw [evicted]
    exact (shedOn_stretch _ call pressure _ rest).after rfl rfl rfl rfl rfl rfl

theorem removed_spec (keys : List String) (c : MemoryLRUCache Obj) :
    ∃ t clean, keys.foldl remove c = { c with entries := t, clean := clean } ∧
      Within t c.entries := by
  induction keys generalizing c with
  | nil => exact ⟨_,_,rfl,.refl _⟩
  | cons key keys ih =>
    obtain ⟨t,clean,removed,within⟩ := ih (c.remove key)
    exact ⟨t,clean,removed,within.trans within_erase⟩

/-- What one event does to the entries: nothing but reordering, an invalidation, or a stretch of a
call that enters the section or goes on in it. -/
inductive Change (c : MemoryLRUCache Obj) : Event Obj → MemoryLRUCache Obj → Prop
  | quiet {event : Event Obj} {d : MemoryLRUCache Obj}
    (entries : ∀ k, d.entries.get? k = c.entries.get? k)
    (holder : d.holder = c.holder) (maxEntries : d.maxEntries = c.maxEntries)
    (maxBytes : d.maxBytes = c.maxBytes) (generation : d.generation = c.generation)
    (departed : d.departed = c.departed) (unanswered : ∀ o, event ≠ .answer o)
    (results : ∀ i, d.results.get? i = c.results.get? i ∨ ∃ w, c.waiting.get? i = some w)
    (numbered : c.Numbered → d.Numbered) : Change c event d
  | invalidated {event : Event Obj} (left : Dict String (Entry Obj)) (clean : Finset String)
    (within : Within left c.entries) (unanswered : ∀ o, event ≠ .answer o) :
    Change c event { c with
      entries := left, clean, generation := c.generation + 1
      departed := c.departed ++ [.invalidated c.entries left] }
  | entered (i : Nat) (w : Waiting Obj) (free : c.holder = none)
    (waits : c.waiting.get? i = some w) :
    Change c (.enter i) (enter { c with waiting := c.waiting.erase i } i w)
  | answered (i : Nat) (stage : Stage Obj) (outcome : Option Bool) (d : MemoryLRUCache Obj)
    (held : c.holder = some (i,stage)) (taken : c.answer i stage outcome = some d) :
    Change c (.answer outcome) d
  | left (i : Nat) (held : c.holder = some (i,.holding)) :
    Change c .leave (c.finish i .returned)

theorem step_change {event : Event Obj} (taken : c.step event = some c') : Change c event c' := by
  cases event with
  | put | promote | shed | hold =>
    obtain rfl := Option.some.inj taken
    exact .quiet (fun _ => rfl) rfl rfl rfl rfl rfl (by nofun) (fun _ => .inl rfl) (·.ask _)
  | enter call =>
    unfold step at taken
    dsimp only at taken
    split at taken
    · rename_i w free waits
      obtain rfl := Option.some.inj taken
      exact .entered call w free waits
    · cases taken
  | abandon call =>
    unfold step at taken
    dsimp only at taken
    split at taken
    · rename_i w waits
      obtain rfl := Option.some.inj taken
      refine .quiet (fun _ => rfl) rfl rfl rfl rfl rfl (by nofun) (fun i => ?_) (·.abandon waits)
      by_cases here : i = call
      · exact .inr ⟨w,here ▸ waits⟩
      · exact .inl (Dict.get?_set_ne _ _ here)
    · cases taken
  | answer outcome =>
    unfold step at taken
    dsimp only at taken
    split at taken
    · rename_i call stage held
      exact .answered call stage outcome c' held taken
    · cases taken
  | leave =>
    unfold step at taken
    dsimp only at taken
    split at taken
    · rename_i call held
      obtain rfl := Option.some.inj taken
      exact .left call held
    · cases taken
  | get key =>
    obtain rfl := Option.some.inj taken
    unfold get
    split
    · exact .quiet (fun _ => rfl) rfl rfl rfl rfl rfl (by nofun) (fun _ => .inl rfl)
        fun n => ⟨n.waits,n.holds,n.answered⟩
    · rename_i e found
      exact .quiet (get?_touched found) rfl rfl rfl rfl rfl (by nofun) (fun _ => .inl rfl)
        fun n => ⟨n.waits,n.holds,n.answered⟩
  | clear =>
    obtain rfl := Option.some.inj taken
    exact .invalidated _ _ within_empty nofun
  | dropReferencing resourceId =>
    obtain rfl := Option.some.inj taken
    unfold dropReferencing
    extract_lets keys left
    obtain ⟨t,clean,removed,within⟩ := removed_spec keys { c with generation := c.generation + 1 }
    rw [show left = { c with generation := c.generation + 1, entries := t, clean := clean } from removed]
    exact .invalidated t clean within nofun

structure Sound (c : MemoryLRUCache Obj) : Prop where
  numbered : c.Numbered
  tidy : c.Tidy

theorem step_sound {event : Event Obj} (sound : c.Sound) (taken : c.step event = some c') :
    c'.Sound := by
  obtain ⟨numbered,tidy⟩ := sound
  cases step_change taken with
  | quiet entries holder maxEntries maxBytes generation departed unanswered results kept =>
    exact ⟨kept numbered,tidy.shrink (fun k e held => entries k ▸ held) holder maxEntries maxBytes⟩
  | invalidated left clean within unanswered =>
    exact ⟨⟨numbered.waits,numbered.holds,numbered.answered⟩,tidy.shrink within rfl rfl rfl⟩
  | entered i w free waits =>
    obtain ⟨later,fresh⟩ := numbered.entering free waits
    refine ⟨(enter_stretch _ i w).numbered later fresh,enter_tidy ?_ w⟩
    unfold Tidy at tidy
    rw [free] at tidy
    exact tidy
  | answered i stage outcome d held taken =>
    exact ⟨(answer_stretch tidy held taken).numbered numbered (numbered.holds i stage held),
      answer_tidy tidy held taken⟩
  | left i held =>
    refine ⟨(stretch_finish c i (r := .returned) nofun).numbered numbered (numbered.holds i _ held),?_⟩
    unfold Tidy at tidy
    rw [held] at tidy
    exact tidy

theorem new_sound {maxEntries maxBytes : Nat} (roomy : 1 ≤ maxEntries) (persists : Bool) :
    (new maxEntries maxBytes roomy persists : MemoryLRUCache Obj).Sound := by
  refine ⟨⟨?_,?_,?_⟩,Nat.zero_le _,Nat.zero_le _⟩
  · intro i w found
    cases found
  · intro i s held
    cases held
  · intro i r found
    cases found

theorem reachable_sound {start : MemoryLRUCache Obj} (sound : start.Sound)
    (reached : Transition.Reachable step start c) : c.Sound :=
  reached.invariant Sound sound fun _ _ _ before _ taken => step_sound before taken

end MemoryLRUCache
end Dinkster.Caches
