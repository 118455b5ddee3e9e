import Dinkster.Assets.WriterSafety
import Mathlib

/-! Runs of any number of savers: what stands in the tree, what was returned and what a raised
save leaves. -/
namespace Dinkster.Writer
open Publication (Shelf Change Call Landing Proper Sound Before)

variable {host : Host} {documented : host.Documented} {files : Files} {i j : Nat}
  {w after : World} {s s' : Saver} {move : Move} {effects : List Effect}

theorem Stage.Holds.beside {stage : Stage} (beside : Beside i w after) (other : j ≠ i)
    (holds : stage.Holds host w.shelf j) : stage.Holds host after.shelf j := by
  have called {d : Draft} {P : Call Path UInt8 → Prop}
      (held : ∃ c, w.shelf.calls[d.call]? = some c ∧ c.owner = j ∧ P c) :
      ∃ c, after.shelf.calls[d.call]? = some c ∧ c.owner = j ∧ P c := by
    obtain ⟨c,found,owned,rest⟩ := held
    exact ⟨c,(beside.calls d.call c (owned ▸ other)).mpr found,owned,rest⟩
  have linked {d : Draft} {name : String} (held : d.Linked host w.shelf j name) :
      d.Linked host after.shelf j name := by
    obtain ⟨l,inside,rest⟩ := held
    exact ⟨l,beside.landings j other ▸ inside,rest⟩
  cases stage with
  | entering | naming => trivial
  | opening d => exact ⟨holds.1,called holds.2⟩
  | copying d | copied d | exact d | scanning d | landing d => exact called holds
  | closing d landed => exact ⟨called holds.1,fun l inside => linked (holds.2 l inside)⟩
  | recording d name => exact linked holds

theorem Saver.Holds.beside (beside : Beside i w after) (other : j ≠ i)
    (holds : s.Holds host w j) : s.Holds host after j where
  accepted := holds.accepted
  write wr stage here := by
    obtain ⟨final,exact_only,held⟩ := holds.write wr stage here
    exact ⟨final,exact_only,held.beside beside other⟩
  tidy n c called owned open_ := by
    have found := (beside.calls n c (owned ▸ other)).mp called
    exact (holds.tidy n c found owned open_).imp_right (beside.abandoned n)
  listed := by
    rw [paths,beside.landings j other]
    exact holds.listed
  described p inside := by
    rw [beside.landings j other]
    exact holds.described p inside

structure Safe (documented : host.Documented) (files : Files) (w : World) : Prop where
  sound : WellKept documented files w
  savers : ∀ i s, w.savers i = some s → s.Holds host w i
  started : ∀ (n : Nat) c, w.shelf.calls[n]? = some c → w.savers c.owner ≠ none

theorem become_other {s : Saver} (other : j ≠ i) : (w.become i s).savers j = w.savers j := by
  simp [World.become,other]

theorem become_self : (w.become i s).savers i = some s := by
  simp [World.become]

theorem effects_savers (effects : List Effect) (w : World) :
    (effects.foldl (World.apply i) w).savers = w.savers := by
  induction effects generalizing w with
  | nil => rfl
  | cons e rest ih =>
    rw [List.foldl_cons,ih]
    cases e <;> rfl

theorem act_safe (before : Before (names documented) files.tree) (safe : Safe documented files w)
    (found : w.savers i = some s)
    (taken : s.next host w move = some (effects,s')) :
    Safe documented files ((effects.foldl (World.apply i) w).become i s') := by
  have kept := Saver.next_keeps before safe.sound (safe.savers i s found) taken
  refine ⟨kept.sound,fun j t held => ?_,fun n c called => ?_⟩
  · by_cases same : j = i
    · subst same
      rw [become_self] at held
      exact Option.some.inj held ▸ ⟨kept.holds.accepted,kept.holds.write,kept.holds.tidy,
        kept.holds.listed,kept.holds.described⟩
    · rw [become_other same,effects_savers] at held
      have holds := (safe.savers j t held).beside kept.beside same
      exact ⟨holds.accepted,holds.write,holds.tidy,holds.listed,holds.described⟩
  · by_cases same : c.owner = i
    · rw [same,become_self]
      nofun
    · rw [become_other same,effects_savers]
      exact safe.started n c ((kept.beside.calls n c same).mp called)

theorem kill_safe (safe : Safe documented files w) (found : w.savers i = some s) :
    Safe documented files (w.kill i s) := by
  have beside : Beside i w (w.kill i s) :=
    ⟨fun _ _ _ => .rfl,fun _ _ => rfl,fun n old => List.mem_append_left _ old⟩
  refine ⟨safe.sound,fun j t held => ?_,fun n c called => ?_⟩
  · by_cases same : j = i
    · subst same
      obtain rfl : { s with point := .killed } = t := by simpa [World.kill,World.become] using held
      have holds := safe.savers j s found
      refine ⟨nofun,fun _ _ => nofun,fun n c called owned open_ => .inr ?_,?_,holds.described⟩
      · refine List.mem_append_right _ (List.mem_filter.mpr ⟨?_,?_⟩)
        · exact List.mem_range.mpr (List.getElem?_eq_some_iff.mp called).1
        · have there : w.shelf.calls[n]? = some c := called
          simp [there,owned,Option.isSome_iff_ne_none.mpr open_]
      · have listed := (List.sublist_append_left _ _).trans holds.listed
        simpa [Point.pending,World.kill,World.become] using listed
    · have held' : w.savers j = some t := by simpa [World.kill,World.become,same] using held
      exact (safe.savers j t held').beside beside same
  · by_cases same : c.owner = i
    · simp [World.kill,World.become,same]
    · have started := safe.started n c called
      simpa [World.kill,World.become,same] using started

theorem start_safe (safe : Safe documented files w) (save : Save) (free : w.savers i = none) :
    Safe documented files (w.become i { save }) := by
  refine ⟨safe.sound,fun j t held => ?_,fun n c called => ?_⟩
  · by_cases same : j = i
    · subst same
      rw [become_self] at held
      obtain rfl := Option.some.inj held
      refine ⟨nofun,fun _ _ => nofun,fun n c called owned => ?_,List.nil_sublist _,nofun⟩
      exact absurd (owned ▸ free) (safe.started n c called)
    · rw [become_other same] at held
      have holds := safe.savers j t held
      exact ⟨holds.accepted,holds.write,holds.tidy,holds.listed,holds.described⟩
  · by_cases same : c.owner = i
    · exact absurd (same ▸ free) (safe.started n c called)
    · rw [become_other same]
      exact safe.started n c called

theorem step_safe (before : Before (names documented) files.tree) (safe : Safe documented files w)
    {event : Event} (taken : step host w event = some after) : Safe documented files after := by
  cases event with
  | start i save =>
    simp only [step] at taken
    split at taken
    · cases taken
    · cases taken
      exact start_safe safe save ‹_›
  | act i move =>
    simp only [step] at taken
    obtain ⟨s,found,moved⟩ := Option.bind_eq_some_iff.mp taken
    obtain ⟨⟨effects,s'⟩,next,rfl⟩ := Option.map_eq_some_iff.mp moved
    exact act_safe before safe found next
  | kill i =>
    simp only [step] at taken
    obtain ⟨s,found,killed⟩ := Option.bind_eq_some_iff.mp taken
    split at killed
    · cases killed
    · cases killed
      exact kill_safe safe found
  | grant grants =>
    cases taken
    refine ⟨safe.sound,fun i s found => ?_,safe.started⟩
    have holds := safe.savers i s found
    exact ⟨holds.accepted,holds.write,holds.tidy,holds.listed,holds.described⟩

def Bare (effects : List Effect) : Prop :=
  effects = [] ∨ (∃ n, effects = [.abandon n]) ∨ ∃ change, effects = [.tree change] ∧
    match change with
    | .link _ _ | .touch _ | .append _ _ => False
    | _ => True

theorem Write.next_effects {wr : Write} {stage : Stage} {following : Next}
    (taken : wr.next host w stage move = some (effects,following)) :
    Bare effects ∨
      (∃ d name c line, stage = .recording d name c ∧ effects = Write.record host d line) ∨
      ∃ d name, effects = [.tree (.link d.call (place host d.folder name))] ∧
        (stage = .exact d ∨ ∃ c, stage = .landing d c ∧ name = numbered wr.stem c wr.suffix) := by
  have tried {d : Draft} {name : String} {counter : Int} {taken' : Stage}
      (linked : wr.tryLink host w d name counter taken' = (effects,following)) :
      effects = [] ∨ effects = [.tree (.link d.call (place host d.folder name))] := by
    unfold Write.tryLink at linked
    split at linked
    · split at linked
      · cases linked
        exact .inr rfl
      · cases linked
        exact .inl rfl
    · cases linked
      exact .inl rfl
  have still : Bare [] := .inl rfl
  have one {change} (other : match (change : Change Path UInt8) with
      | .link _ _ | .touch _ | .append _ _ => False
      | _ => True) : Bare [.tree change] := .inr (.inr ⟨change,rfl,other⟩)
  cases stage with
  | exact d =>
    cases move <;> simp only [Write.next,Option.some.injEq,reduceCtorEq] at taken
    · rcases tried taken with rfl | rfl
      · exact .inl still
      · exact .inr (.inr ⟨d,_,rfl,.inl rfl⟩)
    · cases taken
      exact .inl still
  | landing d counter =>
    cases move <;> simp only [Write.next,Option.some.injEq,reduceCtorEq] at taken
    · rcases tried taken with rfl | rfl
      · exact .inl still
      · exact .inr (.inr ⟨d,_,rfl,.inr ⟨counter,rfl,rfl⟩⟩)
    · cases taken
      exact .inl still
  | copying d =>
    cases move <;> simp only [Write.next,Option.some.injEq,reduceCtorEq] at taken
    · cases taken
      exact .inl still
    · split at taken
      · cases taken
        exact .inl still
      · split at taken
        · cases taken
          exact .inl still
        · cases taken
          exact .inl (one trivial)
  | opening d =>
    cases move <;> simp only [Write.next,Option.some.injEq,reduceCtorEq] at taken
    · split at taken
      · cases taken
        exact .inl (one trivial)
      · cases taken
        exact .inl still
    · cases taken
      exact .inl still
  | copied d =>
    cases move <;> simp only [Write.next,Option.some.injEq,reduceCtorEq] at taken
    · split at taken
      · cases taken
        exact .inl (one trivial)
      · cases taken
        exact .inl still
    · cases taken
      exact .inl still
  | closing d landed =>
    cases move <;> simp only [Write.next,Option.some.injEq,reduceCtorEq] at taken
    · cases taken
      exact .inl (one trivial)
    · cases taken
      exact .inl (.inr (.inl ⟨d.call,rfl⟩))
  | recording d name counter =>
    cases move <;> simp only [Write.next,Option.some.injEq,reduceCtorEq] at taken
    · cases taken
      exact .inl still
    · cases taken
      exact .inl still
    · cases taken
      exact .inr (.inl ⟨d,name,counter,_,rfl,rfl⟩)
  | entering =>
    cases move <;> simp only [Write.next,Option.some.injEq,reduceCtorEq] at taken
    · cases taken
      exact .inl (one trivial)
    · cases taken
      exact .inl still
  | naming root folder =>
    cases move <;> simp only [Write.next,Option.some.injEq,reduceCtorEq] at taken
    cases taken
    exact .inl (one trivial)
  | scanning d =>
    cases move <;> simp only [Write.next,Option.some.injEq,reduceCtorEq] at taken <;> cases taken <;>
      exact .inl still

theorem Write.next_landed {wr : Write} {stage : Stage} {following : Next}
    (taken : wr.next host w stage move = some (effects,following)) :
    (effects.foldl (World.apply i) w).shelf.landed = w.shelf.landed ∨
      ∃ d name l, (effects.foldl (World.apply i) w).shelf.landed = w.shelf.landed ++ [l] ∧
        l.path = place host d.folder name ∧
        (stage = .exact d ∨ ∃ c, stage = .landing d c ∧ name = numbered wr.stem c wr.suffix) := by
  rcases Write.next_effects taken with few | ⟨d,name,c,line,_,rfl⟩ | ⟨d,name,rfl,stood⟩
  · rcases few with rfl | ⟨n,rfl⟩ | ⟨change,rfl,other⟩
    · exact .inl rfl
    · exact .inl rfl
    · cases change <;> first | exact .inl rfl | exact other.elim
  · exact .inl rfl
  · exact .inr ⟨d,name,_,rfl,rfl,stood⟩

theorem Saver.next_quiet (taken : s.next host w move = some (effects,s'))
    (stopped : ∀ wr stage, s.point ≠ .writing wr stage) : Quiet host effects := by
  cases here : s.point with
  | writing wr stage => exact absurd here (stopped wr stage)
  | called =>
    cases move <;> simp only [Saver.next,here,Option.some.injEq,Prod.mk.injEq,reduceCtorEq] at taken
    · split at taken
      · cases taken
        exact .inl rfl
      · cases taken
        exact .inr (.inl ⟨_,rfl⟩)
    · exact .inl taken.1.symm
  | opening =>
    cases move <;> simp only [Saver.next,here,Option.some.injEq,Prod.mk.injEq,reduceCtorEq] at taken
    · split at taken
      · cases taken
        exact .inl rfl
      · cases taken
        exact .inr (.inr (.inl ⟨_,rfl⟩))
    · exact .inl taken.1.symm
  | waiting =>
    cases move <;> simp only [Saver.next,here,Option.some.injEq,Prod.mk.injEq,reduceCtorEq] at taken
    · split at taken <;> cases taken
      exact .inr (.inr (.inr ⟨_,.inl rfl⟩))
    · exact .inl taken.1.symm
  | counting =>
    cases move <;> simp only [Saver.next,here,reduceCtorEq] at taken
    split at taken <;> cases taken
    exact .inl rfl
  | exporting counter =>
    cases move <;> simp only [Saver.next,here,Option.some.injEq,Prod.mk.injEq,reduceCtorEq] at taken
    · split at taken
      · cases taken
      · exact (export_group_quiet (Option.some.inj taken)).1.imp id .inl
    · exact .inl taken.1.symm
  | encoding counter =>
    cases move <;> simp only [Saver.next,here,Option.some.injEq,Prod.mk.injEq,reduceCtorEq] at taken
    · split at taken <;> cases taken
      exact .inl rfl
    · exact .inl taken.1.symm
  | selecting =>
    cases move <;> simp only [Saver.next,here,Option.some.injEq,Prod.mk.injEq,reduceCtorEq] at taken <;>
      exact .inl taken.1.symm
  | releasing failed =>
    cases move <;> simp only [Saver.next,here,Option.some.injEq,Prod.mk.injEq,reduceCtorEq] at taken
    exact .inr (.inr (.inr ⟨_,.inr taken.1.symm⟩))
  | returned | raised | killed => cases move <;> simp [Saver.next,here] at taken

theorem Saver.next_landed (taken : s.next host w move = some (effects,s'))
    (stopped : ∀ wr stage, s.point ≠ .writing wr stage) :
    (effects.foldl (World.apply i) w).shelf.landed = w.shelf.landed := by
  rcases Saver.next_quiet taken stopped with rfl | ⟨_,rfl⟩ | ⟨_,rfl⟩ | ⟨_,rfl | rfl⟩ <;> rfl

theorem Saver.next_landings (taken : s.next host w move = some (effects,s'))
    (stopped : ∀ wr stage, s.point ≠ .writing wr stage) (i : Nat) :
    (effects.foldl (World.apply i) w).shelf.landings i = w.shelf.landings i := by
  rw [Shelf.landings,Shelf.landings,Saver.next_landed taken stopped]

def Point.early : Point → Bool
  | .called | .opening | .waiting | .counting => true
  | _ => false

structure Write.Told (wr : Write) (stem suffix : String) (counter : Int) (stage : Stage) : Prop where
  stem : wr.stem = stem
  suffix : wr.suffix = suffix
  numbered : wr.counter = some counter
  inexact : wr.preferExactName = false
  strict : wr.strictCounter = true
  stage : match stage with
    | .scanning _ | .exact _ => False
    | .landing _ c => c = counter
    | _ => True

structure Saver.Announces (w : World) (i : Nat) (s : Saver) (target : SaveTarget)
    (suffix : String) : Prop where
  untold : s.announced = none → w.shelf.landings i = [] ∧ (∀ c, s.point ≠ .encoding c) ∧
    ∀ wr stage, s.point ≠ .writing wr stage
  late : s.announced ≠ none → s.point.early = false
  told : ∀ stem c, s.announced = some (stem,c) → stem = target.stem ∧
    (∀ l ∈ w.shelf.landings i, l.path.getLast? = some (numbered stem c suffix)) ∧
    (∀ c', s.point = .encoding c' → c' = c) ∧
    ∀ wr stage, s.point = .writing wr stage → wr.Told stem suffix c stage

theorem Write.Told.next {wr : Write} {stem suffix : String} {counter : Int} {stage next : Stage}
    (told : wr.Told stem suffix counter stage)
    (taken : wr.next host w stage move = some (effects,.stage next)) :
    wr.Told stem suffix counter next := by
  refine ⟨told.stem,told.suffix,told.numbered,told.inexact,told.strict,?_⟩
  have held := told.stage
  cases stage with
  | scanning d => exact held.elim
  | exact d => exact held.elim
  | copied d =>
    cases move <;> simp only [Write.next,told.inexact,Write.number,told.numbered,Option.some.injEq,
      Prod.mk.injEq,Next.stage.injEq,reduceCtorEq,if_false,Bool.false_eq_true] at taken <;>
      obtain ⟨_,rfl⟩ := taken <;> trivial
  | landing d c =>
    cases move <;> simp only [Write.next,Write.tryLink,told.strict,if_true,Option.some.injEq,
      Prod.mk.injEq,Next.stage.injEq,reduceCtorEq] at taken
    · split at taken
      · split at taken <;> cases taken <;> trivial
      · cases taken
        trivial
    · obtain ⟨_,rfl⟩ := taken
      trivial
  | entering =>
    cases move <;> simp only [Write.next,Option.some.injEq,Prod.mk.injEq,reduceCtorEq] at taken
    · obtain ⟨_,followed⟩ := taken
      split at followed <;> cases followed
      trivial
    · simp at taken
  | closing d landed =>
    cases move <;> simp only [Write.next,Option.some.injEq,Prod.mk.injEq,reduceCtorEq] at taken
    · obtain ⟨_,followed⟩ := taken
      split at followed <;> cases followed
      trivial
    · simp at taken
  | opening d =>
    cases move <;> simp only [Write.next,Option.some.injEq,reduceCtorEq] at taken
    · split at taken <;> cases taken <;> trivial
    · cases taken
      trivial
  | copying d =>
    cases move <;> simp only [Write.next,Option.some.injEq,reduceCtorEq] at taken
    · cases taken
      trivial
    · split at taken
      · cases taken
        trivial
      · split at taken <;> cases taken <;> trivial
  | naming | recording =>
    cases move <;> simp only [Write.next,Option.some.injEq,reduceCtorEq] at taken <;> cases taken <;>
      trivial

section Announced

variable {target : SaveTarget} {suffix mediaType : String} {limit : Int}

theorem Saver.Announces.early (announces : s.Announces w i target suffix)
    (early : s.point.early = true) : s.announced = none ∧ w.shelf.landings i = [] := by
  have untold : s.announced = none := by
    by_contra told
    rw [announces.late told] at early
    cases early
  exact ⟨untold,(announces.untold untold).1⟩

theorem announces_untold (untold : s'.announced = none) (none_ : after.shelf.landings i = [])
    (encoding : ∀ c, s'.point ≠ .encoding c) (stopped : ∀ wr stage, s'.point ≠ .writing wr stage) :
    s'.Announces after i target suffix where
  untold _ := ⟨none_,encoding,stopped⟩
  late told := absurd untold told
  told stem c told := by simp [untold] at told

theorem Saver.Announces.leaving (announces : s.Announces w i target suffix)
    (same : after.shelf.landings i = w.shelf.landings i) (told : s'.announced = s.announced)
    (late : s'.point.early = false) (encoding : ∀ c, s'.point ≠ .encoding c)
    (stopped : ∀ wr stage, s'.point ≠ .writing wr stage) : s'.Announces after i target suffix where
  untold none_ := ⟨same ▸ (announces.untold (told ▸ none_)).1,encoding,stopped⟩
  late _ := late
  told stem c here := by
    obtain ⟨first,named,_⟩ := announces.told stem c (told ▸ here)
    exact ⟨first,same ▸ named,fun c' at_ => absurd at_ (encoding c'),
      fun wr stage at_ => absurd at_ (stopped wr stage)⟩

theorem announces_writing (announces : s.Announces w i target suffix) {wr : Write} {stage : Stage}
    {following : Next} (save : s.save = .encoded target suffix mediaType limit)
    (here : s.point = .writing wr stage)
    (taken : wr.next host w stage move = some (effects,following)) :
    (s.follow wr following).Announces (effects.foldl (World.apply i) w) i target suffix := by
  obtain ⟨⟨stem,c⟩,told⟩ : ∃ entry, s.announced = some entry := by
    cases told : s.announced with
    | none => exact absurd here ((announces.untold told).2.2 wr stage)
    | some entry => exact ⟨entry,rfl⟩
  obtain ⟨first,named,_,writes⟩ := announces.told stem c told
  have tells := writes wr stage here
  have names : ∀ l ∈ (effects.foldl (World.apply i) w).shelf.landings i,
      l.path.getLast? = some (numbered stem c suffix) := by
    intro l inside
    rcases Write.next_landed (i := i) taken with same | ⟨d,name,l',same,path,stood⟩
    · rw [Shelf.landings,same] at inside
      exact named l inside
    · rw [Shelf.landings,same,List.filter_append,List.mem_append] at inside
      rcases inside with old | new
      · exact named l old
      · obtain ⟨this,_⟩ := List.mem_filter.mp new
        obtain rfl := List.mem_singleton.mp this
        rw [path,last_of_place]
        have held := tells.stage
        rcases stood with rfl | ⟨c',rfl,rfl⟩
        · exact held.elim
        · obtain rfl : c' = c := held
          rw [tells.stem,tells.suffix]
  have announced : (s.follow wr following).announced = some (stem,c) := by
    cases following with
    | stage _ | raised => exact told
    | returned p counter => simp [Saver.follow,Saver.published,save,told]
  refine ⟨fun none_ => by simp [announced] at none_,fun _ => ?_,fun stem' c' here' => ?_⟩
  · cases following with
    | stage _ | raised => rfl
    | returned p counter => simp [Saver.follow,Saver.published,save,Point.early]
  · rw [announced] at here'
    cases here'
    refine ⟨first,names,fun c' at_ => ?_,fun wr' stage' at_ => ?_⟩
    · cases following with
      | stage _ | raised => cases at_
      | returned p counter => simp [Saver.follow,Saver.published,save] at at_
    · cases following with
      | stage next =>
        cases at_
        exact tells.next taken
      | raised => cases at_
      | returned p counter => simp [Saver.follow,Saver.published,save] at at_

theorem announces_next (announces : s.Announces w i target suffix)
    (save : s.save = .encoded target suffix mediaType limit)
    (taken : s.next host w move = some (effects,s')) :
    s'.Announces (effects.foldl (World.apply i) w) i target suffix := by
  cases here : s.point with
  | writing wr stage =>
    simp only [Saver.next,here] at taken
    obtain ⟨⟨effects',following⟩,made,same⟩ := Option.map_eq_some_iff.mp taken
    obtain ⟨rfl,rfl⟩ := Prod.mk.inj same
    exact announces_writing announces save here made
  | returned | raised | killed => cases move <;> simp [Saver.next,here] at taken
  | encoding counter =>
    have same := Saver.next_landings taken (by simp [here]) i
    cases move <;> simp only [Saver.next,here,save,Option.some.injEq,Prod.mk.injEq,reduceCtorEq]
      at taken
    · obtain ⟨rfl,rfl⟩ := taken
      refine ⟨fun none_ => ?_,fun _ => rfl,fun stem c told => ?_⟩
      · exact absurd here ((announces.untold none_).2.1 counter)
      · obtain ⟨rfl,named,counted,_⟩ := announces.told stem c told
        obtain rfl := counted counter here
        refine ⟨rfl,named,by simp,fun wr stage at_ => ?_⟩
        cases at_
        exact ⟨rfl,rfl,rfl,rfl,rfl,trivial⟩
    · obtain ⟨rfl,rfl⟩ := taken
      exact announces.leaving same rfl rfl (by simp) (by simp)
  | selecting =>
    have same := Saver.next_landings taken (by simp [here]) i
    cases move <;> simp only [Saver.next,Saver.select,here,save,Option.some.injEq,Prod.mk.injEq,
      reduceCtorEq] at taken <;>
      obtain ⟨rfl,rfl⟩ := taken <;> exact announces.leaving same rfl rfl (by simp) (by simp)
  | releasing failed =>
    have same := Saver.next_landings taken (by simp [here]) i
    cases move <;> simp only [Saver.next,here,Option.some.injEq,Prod.mk.injEq,reduceCtorEq] at taken
    obtain ⟨rfl,rfl⟩ := taken
    cases failed <;> exact announces.leaving same rfl rfl (by simp) (by simp)
  | exporting counter =>
    have same := Saver.next_landings taken (by simp [here]) i
    cases move <;> simp only [Saver.next,here,Option.some.injEq,Prod.mk.injEq,reduceCtorEq] at taken
    · split at taken
      · cases taken
      · unfold Saver.export_group at taken
        dsimp only at taken
        split at taken
        · split at taken <;> cases taken <;>
            exact announces.leaving same rfl rfl (by simp) (by simp)
        · cases taken
          exact announces.leaving same rfl rfl (by simp) (by simp)
    · obtain ⟨rfl,rfl⟩ := taken
      exact announces.leaving same rfl rfl (by simp) (by simp)
  | counting =>
    obtain ⟨untold,none_⟩ := announces.early (by rw [here]; rfl)
    have still := (Saver.next_landings taken (by simp [here]) i).trans none_
    cases move <;> simp only [Saver.next,here,reduceCtorEq] at taken
    split at taken
    · cases taken
    · rename_i t passed
      obtain ⟨rfl,rfl⟩ := Prod.mk.inj (Option.some.inj taken)
      obtain rfl : target = t := by
        rw [save] at passed
        obtain ⟨_,_,same⟩ := Fallible.map_ok.mp passed
        exact same
      simp only [Saver.count,save]
      refine ⟨by simp,fun _ => rfl,fun stem c told => ?_⟩
      cases told
      exact ⟨rfl,by simp [none_],fun c' at_ => by cases at_; rfl,by simp⟩
  | waiting =>
    obtain ⟨untold,none_⟩ := announces.early (by rw [here]; rfl)
    have still := (Saver.next_landings taken (by simp [here]) i).trans none_
    cases move <;> simp only [Saver.next,Saver.claimed,save,here,Option.some.injEq,Prod.mk.injEq,
      reduceCtorEq] at taken
    · split at taken <;> cases taken
      exact announces_untold untold still (by simp) (by simp)
    · obtain ⟨rfl,rfl⟩ := taken
      exact announces_untold untold still (by simp) (by simp)
  | opening =>
    obtain ⟨untold,none_⟩ := announces.early (by rw [here]; rfl)
    have still := (Saver.next_landings taken (by simp [here]) i).trans none_
    cases move <;> simp only [Saver.next,here,Option.some.injEq,Prod.mk.injEq,reduceCtorEq] at taken
    · split at taken <;> cases taken <;>
        exact announces_untold untold still (by simp) (by simp)
    · obtain ⟨rfl,rfl⟩ := taken
      exact announces_untold untold still (by simp) (by simp)
  | called =>
    obtain ⟨untold,none_⟩ := announces.early (by rw [here]; rfl)
    have still := (Saver.next_landings taken (by simp [here]) i).trans none_
    cases move <;> simp only [Saver.next,here,Option.some.injEq,Prod.mk.injEq,reduceCtorEq] at taken
    · split at taken
      · cases taken
        exact announces_untold untold still (by simp) (by simp)
      · obtain ⟨rfl,rfl⟩ := Prod.mk.inj (Option.some.inj taken)
        cases (writableFolder host w _ none).2 with
        | none => exact announces_untold untold still (by simp) (by simp)
        | some entered => exact announces_untold untold still (by simp) (by simp)
    · obtain ⟨rfl,rfl⟩ := taken
      exact announces_untold untold still (by simp) (by simp)

end Announced

theorem Saver.next_touches (taken : s.next host w move = some (effects,s')) {p : Path}
    (touched : .tree (.touch p) ∈ effects) : p.getLast? = some lockName ∨
      ∃ wr d name c, s.point = .writing wr (.recording d name c) := by
  by_cases writing : ∃ wr stage, s.point = .writing wr stage
  · obtain ⟨wr,stage,here⟩ := writing
    simp only [Saver.next,here] at taken
    obtain ⟨⟨effects',following⟩,made,same⟩ := Option.map_eq_some_iff.mp taken
    obtain ⟨rfl,rfl⟩ := Prod.mk.inj same
    rcases Write.next_effects made with few | ⟨d,name,c,line,rfl,rfl⟩ | ⟨d,name,rfl,_⟩
    · rcases few with rfl | ⟨n,rfl⟩ | ⟨change,rfl,other⟩
      · cases touched
      · simp at touched
      · simp only [List.mem_singleton,Effect.tree.injEq] at touched
        subst touched
        exact other.elim
    · exact .inr ⟨wr,d,name,c,here⟩
    · simp at touched
  · have stopped : ∀ wr stage, s.point ≠ .writing wr stage := fun wr stage here =>
      writing ⟨wr,stage,here⟩
    rcases Saver.next_quiet taken stopped with rfl | ⟨_,rfl⟩ | ⟨folder,rfl⟩ | ⟨_,rfl | rfl⟩
    · cases touched
    · simp at touched
    · simp only [List.mem_singleton,Effect.tree.injEq,Change.touch.injEq] at touched
      subst touched
      exact .inl last_of_place
    · simp at touched
    · simp at touched

theorem effects_service (effects : List Effect) (w : World) {p q : Path}
    (found : (effects.foldl (World.apply i) w).shelf.tree.nodes p = some (.file (.service q))) :
    w.shelf.tree.nodes p = some (.file (.service q)) ∨ .tree (.touch p) ∈ effects := by
  induction effects generalizing w with
  | nil => exact .inl found
  | cons e rest ih =>
    rcases ih (w.apply i e) found with there | later
    · cases e with
      | tree change =>
        rcases Shelf.perform_service there with before | rfl
        · exact .inl before
        · exact .inr List.mem_cons_self
      | acquire path | release path | abandon call => exact .inl there
    · exact .inr (List.mem_cons_of_mem _ later)

/-- What every reachable world keeps. -/
structure Settled (documented : host.Documented) (files : Files) (w : World) : Prop where
  safe : Safe documented files w
  told : ∀ i s target suffix mediaType limit, w.savers i = some s →
    s.save = .encoded target suffix mediaType limit → s.Announces w i target suffix
  sidecar : ∀ p q, w.shelf.tree.nodes p = some (.file (.service q)) →
    p.getLast? = some lockName ∨ w.shelf.landed ≠ []

theorem Saver.next_save (taken : s.next host w move = some (effects,s')) : s'.save = s.save := by
  cases here : s.point with
  | writing wr stage =>
    simp only [Saver.next,here] at taken
    obtain ⟨⟨_,following⟩,_,same⟩ := Option.map_eq_some_iff.mp taken
    obtain ⟨_,rfl⟩ := Prod.mk.inj same
    cases following with
    | stage _ | raised => rfl
    | returned p counter => exact (published_same host s p counter).1
  | called =>
    cases move <;> simp only [Saver.next,here,Option.some.injEq,Prod.mk.injEq,reduceCtorEq] at taken
    · split at taken
      · cases taken
        rfl
      · obtain ⟨_,rfl⟩ := Prod.mk.inj (Option.some.inj taken)
        cases (writableFolder host w _ none).2 <;> rfl
    · exact taken.2 ▸ rfl
  | opening =>
    cases move <;> simp only [Saver.next,here,Option.some.injEq,Prod.mk.injEq,reduceCtorEq] at taken
    · split at taken <;> cases taken <;> rfl
    · exact taken.2 ▸ rfl
  | waiting =>
    cases move <;> simp only [Saver.next,here,Option.some.injEq,Prod.mk.injEq,reduceCtorEq] at taken
    · split at taken <;> cases taken
      exact claimed_same.1
    · exact taken.2 ▸ rfl
  | counting =>
    cases move <;> simp only [Saver.next,here,reduceCtorEq] at taken
    split at taken <;> cases taken
    exact count_same.1
  | exporting counter =>
    cases move <;> simp only [Saver.next,here,Option.some.injEq,Prod.mk.injEq,reduceCtorEq] at taken
    · split at taken
      · cases taken
      · exact (export_group_quiet (Option.some.inj taken)).2.1
    · exact taken.2 ▸ rfl
  | encoding counter =>
    cases move <;> simp only [Saver.next,here,Option.some.injEq,Prod.mk.injEq,reduceCtorEq] at taken
    · split at taken <;> cases taken
      rfl
    · exact taken.2 ▸ rfl
  | selecting =>
    cases move <;> simp only [Saver.next,here,Option.some.injEq,Prod.mk.injEq,reduceCtorEq] at taken
    · exact taken.2 ▸ select_same.1
    · exact taken.2 ▸ rfl
    · exact taken.2 ▸ select_same.1
  | releasing failed =>
    cases move <;> simp only [Saver.next,here,Option.some.injEq,Prod.mk.injEq,reduceCtorEq] at taken
    exact taken.2 ▸ rfl
  | returned | raised | killed => cases move <;> simp [Saver.next,here] at taken

theorem Saver.Announces.same {target : SaveTarget} {suffix : String}
    (announces : s.Announces w i target suffix)
    (landings : after.shelf.landings i = w.shelf.landings i) :
    s.Announces after i target suffix :=
  ⟨fun untold => landings ▸ announces.untold untold,announces.late,
    fun stem c told => landings ▸ announces.told stem c told⟩

theorem act_settled (before : Before (names documented) files.tree)
    (settled : Settled documented files w) (found : w.savers i = some s)
    (taken : s.next host w move = some (effects,s')) :
    Settled documented files ((effects.foldl (World.apply i) w).become i s') := by
  have kept := Saver.next_keeps before settled.safe.sound (settled.safe.savers i s found) taken
  refine ⟨act_safe before settled.safe found taken,?_,fun p q there => ?_⟩
  · intro j t target suffix mediaType limit held save
    by_cases same : j = i
    · subst same
      rw [become_self] at held
      obtain rfl := Option.some.inj held
      rw [Saver.next_save taken] at save
      have announces := announces_next (settled.told j s target suffix mediaType limit found save)
        save taken
      exact announces.same rfl
    · rw [become_other same,effects_savers] at held
      exact (settled.told j t target suffix mediaType limit held save).same
        (kept.beside.landings j same)
  · have landed : w.shelf.landed ≠ [] →
        (effects.foldl (World.apply i) w).shelf.landed ≠ [] := by
      intro some_
      obtain ⟨l,inside⟩ := List.exists_mem_of_ne_nil _ some_
      have own : l ∈ w.shelf.landings l.owner := Shelf.mem_landings.mpr ⟨inside,rfl⟩
      have stays : l ∈ (effects.foldl (World.apply i) w).shelf.landings l.owner := by
        by_cases same : l.owner = i
        · rw [same] at own ⊢
          exact landings_grow effects w own
        · rwa [kept.beside.landings _ same]
      exact List.ne_nil_of_mem (Shelf.mem_landings.mp stays).1
    rcases effects_service effects w there with old | touched
    · exact (settled.sidecar p q old).imp_right landed
    · rcases Saver.next_touches taken touched with lock | ⟨wr,d,name,c,here⟩
      · exact .inl lock
      · obtain ⟨_,_,linked⟩ := (settled.safe.savers i s found).write wr _ here
        obtain ⟨l,inside,_⟩ := linked
        exact .inr (landed (List.ne_nil_of_mem (Shelf.mem_landings.mp inside).1))

theorem step_settled (before : Before (names documented) files.tree)
    (settled : Settled documented files w) {event : Event}
    (taken : step host w event = some after) : Settled documented files after := by
  have safe := step_safe before settled.safe taken
  cases event with
  | start i save =>
    simp only [step] at taken
    split at taken
    · cases taken
    · rename_i free
      cases taken
      refine ⟨safe,fun j t target suffix mediaType limit held save' => ?_,settled.sidecar⟩
      by_cases same : j = i
      · subst same
        rw [become_self] at held
        obtain rfl := Option.some.inj held
        refine announces_untold rfl (List.eq_nil_iff_forall_not_mem.mpr fun l inside => ?_) nofun
          fun _ _ => nofun
        -- a link has a call, and its owner has started
        obtain ⟨there,owned⟩ := Shelf.mem_landings.mp inside
        obtain ⟨c,called,owner,_⟩ := (settled.safe.sound.landings l there).called
        exact settled.safe.started _ c called (by rw [owner,owned]; exact free)
      · rw [become_other same] at held
        exact (settled.told j t target suffix mediaType limit held save').same rfl
  | act i move =>
    simp only [step] at taken
    obtain ⟨s,found,moved⟩ := Option.bind_eq_some_iff.mp taken
    obtain ⟨⟨effects,s'⟩,next,rfl⟩ := Option.map_eq_some_iff.mp moved
    exact act_settled before settled found next
  | kill i =>
    simp only [step] at taken
    obtain ⟨s,found,killed⟩ := Option.bind_eq_some_iff.mp taken
    split at killed
    · cases killed
    · cases killed
      refine ⟨safe,fun j t target suffix mediaType limit held save => ?_,settled.sidecar⟩
      by_cases same : j = i
      · subst same
        obtain rfl : { s with point := .killed } = t := by
          simpa [World.kill,World.become] using held
        exact (settled.told j s target suffix mediaType limit found save).leaving rfl rfl rfl nofun
          fun _ _ => nofun
      · have held' : w.savers j = some t := by simpa [World.kill,World.become,same] using held
        exact (settled.told j t target suffix mediaType limit held' save).same rfl
  | grant grants =>
    cases taken
    exact ⟨safe,fun j t target suffix mediaType limit held save =>
      (settled.told j t target suffix mediaType limit held save).same rfl,settled.sidecar⟩

/-- Python says what `uuid4` and folding case do, and no file has a name that `uuid4` will draw. -/
structure Fair (host : Host) (files : Files) : Prop where
  documented : host.Documented
  clear : ∀ {p n}, p.getLast? = some (tempName host n) → ∀ k, files.nodes p ≠ some (some k)

def World.returned (w : World) (i : Nat) (s : Saver) : Prop :=
  w.savers i = some s ∧ s.point = .returned

/-- The file of a link, whole: it has the bytes of the moment of the link, and no save that still
copies writes to it. -/
def Complete (w : World) (p : Path) (l : Landing Path UInt8) : Prop :=
  l ∈ w.shelf.landed ∧ l.path = p ∧ w.shelf.tree.nodes p = some (.file (.temp l.call)) ∧
    w.shelf.tree.data (.temp l.call) = l.bytes ∧
    ∀ j s wr d, w.savers j = some s → s.point = .writing wr (.copying d) → d.call ≠ l.call

theorem complete (safe : Safe documented files w) {l : Landing Path UInt8}
    (inside : l ∈ w.shelf.landed) : Complete w l.path l := by
  have stands := safe.sound.landings l inside
  refine ⟨inside,rfl,stands.there,stands.bytes,fun j s wr d held here same => ?_⟩
  obtain ⟨_,_,c,called,_,unlinked,_⟩ := (safe.savers j s held).write wr _ here
  obtain ⟨c',called',_,linked⟩ := stands.called
  rw [same,called'] at called
  cases called
  simp [unlinked] at linked

end Dinkster.Writer
