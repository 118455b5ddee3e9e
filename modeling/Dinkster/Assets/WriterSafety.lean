import Dinkster.Assets.WriterNames
import Mathlib

/-! What a saver holds between its calls, and that every call keeps the tree sound. -/
namespace Dinkster.Writer
open Publication (Shelf Change Call Landing Proper Sound Before)

variable {host : Host}

section
variable (host) (shelf : Shelf Path UInt8) (i : Nat)

def Draft.Holding (d : Draft) : Prop :=
  ∃ c, shelf.calls[d.call]? = some c ∧ c.owner = i ∧ c.linked = false ∧
    c.temp = some (d.tempPath host) ∧ c.bytes = d.copied

def Draft.Owned (d : Draft) : Prop :=
  ∃ c, shelf.calls[d.call]? = some c ∧ c.owner = i ∧ ∀ p ∈ c.temp, p = d.tempPath host

def Draft.Linked (d : Draft) (name : String) : Prop :=
  ∃ l ∈ shelf.landings i, l.path = place host d.folder name ∧ l.bytes = d.copied

def Stage.Holds : Stage → Prop
  | .entering | .naming _ _ => True
  | .opening d => d.copied = [] ∧ ∃ c, shelf.calls[d.call]? = some c ∧ c.owner = i ∧
      c.temp = none ∧ c.bytes = [] ∧ c.linked = false
  | .copying d | .copied d | .exact d | .scanning d | .landing d _ => d.Holding host shelf i
  | .closing d landed => d.Owned host shelf i ∧ ∀ l ∈ landed, d.Linked host shelf i l.1
  | .recording d name _ => d.Linked host shelf i name

def Describes (p : Published) (l : Landing Path UInt8) : Prop :=
  l.path = p.place ∧ p.place.getLast? = some p.ref.name ∧
    p.ref.digest = "blake3:" ++ host.blake3 l.bytes ∧ p.ref.size = l.bytes.length

def Next.Holds : Next → Prop
  | .stage s => s.Holds host shelf i
  | .raised => True
  | .returned p _ => ∃ l ∈ shelf.landings i, Describes host p l

end

def Stage.call? : Stage → Option Nat
  | .opening d | .copying d | .copied d | .exact d | .scanning d | .landing d _ | .closing d _ =>
    some d.call
  | _ => none

def Next.call? : Next → Option Nat
  | .stage s => s.call?
  | _ => none

/-- The link whose reference is not returned yet. -/
def Stage.pending (host : Host) : Stage → List Path
  | .closing d (some (name,_)) | .recording d name _ => [place host d.folder name]
  | _ => []

def Next.pending (host : Host) : Next → List Path
  | .stage s => s.pending host
  | .raised => []
  | .returned p _ => [p.place]

def Tidy (calls : List (Call Path UInt8)) (abandoned : List Nat) (i : Nat)
    (except : Option Nat) : Prop :=
  ∀ (n : Nat) c, calls[n]? = some c → c.owner = i → c.temp ≠ none → except = some n ∨ n ∈ abandoned

def paths (shelf : Shelf Path UInt8) (i : Nat) : List Path := (shelf.landings i).map (·.path)

structure Beside (i : Nat) (w after : World) : Prop where
  calls : ∀ (n : Nat) c, c.owner ≠ i →
    (after.shelf.calls[n]? = some c ↔ w.shelf.calls[n]? = some c)
  landings : ∀ j, j ≠ i → after.shelf.landings j = w.shelf.landings j
  abandoned : ∀ n ∈ w.abandoned, n ∈ after.abandoned

variable {documented : host.Documented} {files : Files} {i : Nat} {w after : World}

abbrev WellKept (documented : host.Documented) (files : Files) (w : World) : Prop :=
  Sound (names documented) files.tree w.shelf

theorem beside_refl : Beside i w w := ⟨fun _ _ _ => .rfl,fun _ _ => rfl,fun _ => id⟩

theorem Beside.trans {last : World} (first : Beside i w after) (then_ : Beside i after last) :
    Beside i w last where
  calls n c other := (then_.calls n c other).trans (first.calls n c other)
  landings j ne := (then_.landings j ne).trans (first.landings j ne)
  abandoned n old := then_.abandoned n (first.abandoned n old)

theorem beside_tree {change : Change Path UInt8}
    (proper : Proper (names documented) w.shelf i change) :
    Beside i w (w.apply i (.tree change)) where
  calls _ _ other := Shelf.perform_calls proper other
  landings _ ne := Shelf.perform_landings change ne
  abandoned _ := id

namespace Tidy

variable {calls : List (Call Path UInt8)} {abandoned : List Nat} {n : Nat}

theorem modify (tidy : Tidy calls abandoned i (some n)) (f : Call Path UInt8 → Call Path UInt8) :
    Tidy (calls.modify n f) abandoned i (some n) := by
  intro m c called owned open_
  by_cases here : n = m
  · exact .inl (congrArg some here)
  · rw [List.getElem?_modify_ne f calls here] at called
    exact tidy m c called owned open_

theorem close (tidy : Tidy calls abandoned i (some n)) :
    Tidy (calls.modify n fun c => { c with temp := none }) abandoned i none := by
  intro m c called owned open_
  by_cases here : n = m
  · subst here
    rw [List.getElem?_modify_eq] at called
    obtain ⟨b,_,rfl⟩ := Option.map_eq_some_iff.mp called
    exact absurd rfl open_
  · rw [List.getElem?_modify_ne _ calls here] at called
    exact .inr ((tidy m c called owned open_).resolve_left fun same =>
      here (Option.some.inj same))

theorem call (tidy : Tidy calls abandoned i none) (except : Option Nat) :
    Tidy (calls ++ [{ owner := i }]) abandoned i except := by
  intro m c called owned open_
  rcases lt_or_ge m calls.length with earlier | later
  · rw [List.getElem?_append_left earlier] at called
    exact .inr ((tidy m c called owned open_).resolve_left nofun)
  · rw [List.getElem?_append_right later,List.getElem?_singleton] at called
    split at called
    · cases called
      exact absurd rfl open_
    · cases called

theorem abandon (tidy : Tidy calls abandoned i (some n)) :
    Tidy calls (abandoned ++ [n]) i none := by
  intro m c called owned open_
  rcases tidy m c called owned open_ with same | old
  · exact .inr (by simp [Option.some.inj same])
  · exact .inr (List.mem_append_left _ old)

end Tidy

/-- What one call of a write keeps. -/
structure Kept (documented : host.Documented) (files : Files) (i : Nat) (w after : World)
    (stage : Stage) (following : Next) : Prop where
  sound : WellKept documented files after
  beside : Beside i w after
  holds : following.Holds host after.shelf i
  tidy : Tidy after.shelf.calls after.abandoned i following.call?
  listed : ∀ places, (places ++ stage.pending host).Sublist (paths w.shelf i) →
    (places ++ following.pending host).Sublist (paths after.shelf i)

variable {stage : Stage} {following : Next}

theorem listed_same {places rest : List Path} {pending pending' : List Path}
    (fewer : pending' = pending ∨ pending' = []) (listed : (places ++ pending).Sublist rest) :
    (places ++ pending').Sublist rest := by
  rcases fewer with rfl | rfl
  · exact listed
  · rw [List.append_nil]
    exact (List.sublist_append_left _ _).trans listed

theorem kept_beside (sound : WellKept documented files after) (beside : Beside i w after)
    (calls : after.shelf.calls = w.shelf.calls) (landed : after.shelf.landed = w.shelf.landed)
    (holds : following.Holds host after.shelf i)
    (tidy : Tidy w.shelf.calls after.abandoned i following.call?)
    (fewer : following.pending host = stage.pending host ∨ following.pending host = []) :
    Kept documented files i w after stage following where
  sound := sound
  beside := beside
  holds := holds
  tidy := calls ▸ tidy
  listed places listed := by
    have same : paths after.shelf i = paths w.shelf i := by simp [paths,Shelf.landings,landed]
    rw [same]
    exact listed_same fewer listed

theorem kept_still (sound : WellKept documented files w)
    (holds : following.Holds host w.shelf i)
    (tidy : Tidy w.shelf.calls w.abandoned i following.call?)
    (fewer : following.pending host = stage.pending host ∨ following.pending host = []) :
    Kept documented files i w w stage following :=
  kept_beside sound beside_refl rfl rfl holds tidy fewer

theorem Draft.Holding.owned {shelf : Shelf Path UInt8} {d : Draft}
    (holding : d.Holding host shelf i) : d.Owned host shelf i := by
  obtain ⟨c,called,owned,_,open_,_⟩ := holding
  refine ⟨c,called,owned,fun p inside => ?_⟩
  rw [open_] at inside
  exact (Option.some.inj inside).symm

theorem kept_tree (before : Before (names documented) files.tree)
    (sound : WellKept documented files w) {change : Change Path UInt8}
    (proper : Proper (names documented) w.shelf i change)
    (holds : following.Holds host (w.shelf.perform i change) i)
    (tidy : Tidy (w.shelf.perform i change).calls w.abandoned i following.call?)
    (listed : ∀ places, (places ++ stage.pending host).Sublist (paths w.shelf i) →
      (places ++ following.pending host).Sublist (paths (w.shelf.perform i change) i)) :
    Kept documented files i w (w.apply i (.tree change)) stage following where
  sound := sound.perform before change proper
  beside := beside_tree proper
  holds := holds
  tidy := tidy
  listed := listed

theorem holds_tree (shelf : Shelf Path UInt8) (tree : Publication.Tree Path UInt8)
    (following : Next) : following.Holds host { shelf with tree := tree } i ↔
      following.Holds host shelf i := by
  cases following with
  | stage s => cases s <;> exact Iff.rfl
  | raised => exact Iff.rfl
  | returned p counter => exact Iff.rfl

theorem kept_folders (before : Before (names documented) files.tree)
    (sound : WellKept documented files w) (made : List Path)
    (holds : following.Holds host w.shelf i)
    (tidy : Tidy w.shelf.calls w.abandoned i following.call?)
    (fewer : following.pending host = stage.pending host ∨ following.pending host = []) :
    Kept documented files i w (w.apply i (.tree (.folders made))) stage following := by
  have proper : Proper (names documented) w.shelf i (.folders made) := trivial
  exact kept_beside (sound.perform before _ proper) (beside_tree proper) rfl rfl
    ((holds_tree w.shelf _ following).mpr holds) tidy fewer

theorem tempPath_named (d : Draft) :
    (names documented).temp (d.tempPath host) d.call := last_of_place

theorem service_place {folder : Path} {name : String} (service : ServiceName name) :
    (names documented).service (place host folder name) := ⟨name,last_of_place,service⟩

theorem final_place {folder : Path} {name : String} (final : FinalName name) :
    (names documented).final (place host folder name) := ⟨name,last_of_place,final⟩

variable {d : Draft} {wr : Write}

theorem kept_naming (before : Before (names documented) files.tree)
    (sound : WellKept documented files w) (root folder : Path)
    (tidy : Tidy w.shelf.calls w.abandoned i none) :
    Kept documented files i w (w.apply i (.tree .call)) (.naming root folder)
      (.stage (.opening ⟨root,folder,w.shelf.calls.length,[]⟩)) := by
  refine kept_tree before sound trivial ⟨rfl,{ owner := i },?_,rfl,rfl,rfl,rfl⟩ (tidy.call _)
    fun places listed => listed
  simp [Shelf.perform]

theorem kept_create (before : Before (names documented) files.tree)
    (sound : WellKept documented files w) (holds : (Stage.opening d).Holds host w.shelf i)
    (tidy : Tidy w.shelf.calls w.abandoned i (some d.call))
    (free : w.shelf.tree.nodes (d.tempPath host) = none) :
    Kept documented files i w (w.apply i (.tree (.create d.call (d.tempPath host))))
      (.opening d) (.stage (.copying d)) := by
  obtain ⟨blank,c,called,owned,closed,empty,unlinked⟩ := holds
  refine kept_tree before sound ⟨tempPath_named d,free,c,called,owned,closed,empty,unlinked⟩ ?_
    (tidy.modify _) fun places listed => listed
  refine ⟨{ c with temp := some (d.tempPath host) },?_,owned,unlinked,rfl,empty.trans blank.symm⟩
  simp [Shelf.perform,called]

theorem kept_extend (before : Before (names documented) files.tree)
    (sound : WellKept documented files w) (holding : d.Holding host w.shelf i)
    (tidy : Tidy w.shelf.calls w.abandoned i (some d.call)) (chunk : List UInt8) :
    Kept documented files i w (w.apply i (.tree (.extend d.call chunk))) (.copying d)
      (.stage (.copying { d with copied := d.copied ++ chunk })) := by
  obtain ⟨c,called,owned,unlinked,open_,bytes⟩ := holding
  refine kept_tree before sound ⟨c,called,owned,unlinked⟩ ?_ (tidy.modify _)
    fun places listed => listed
  refine ⟨{ c with bytes := c.bytes ++ chunk },?_,owned,unlinked,open_,by simp [bytes]⟩
  simp [Shelf.perform,called]

theorem kept_link (before : Before (names documented) files.tree)
    (sound : WellKept documented files w) (holding : d.Holding host w.shelf i)
    (tidy : Tidy w.shelf.calls w.abandoned i (some d.call)) {name : String}
    (final : FinalName name) (free : w.shelf.tree.nodes (place host d.folder name) = none)
    (counter : Int) (none_pending : stage.pending host = []) :
    Kept documented files i w (w.apply i (.tree (.link d.call (place host d.folder name)))) stage
      (.stage (.closing d (some (name,counter)))) := by
  obtain ⟨c,called,owned,unlinked,open_,bytes⟩ := holding
  have held : w.shelf.tree.data (.temp d.call) = d.copied :=
    ((sound.temps d.call c _ called open_).2.2).trans bytes
  refine kept_tree before sound ⟨final_place final,free,c,called,owned,by simp [open_],unlinked⟩ ?_
    (tidy.modify _) fun places listed => ?_
  · refine ⟨⟨{ c with linked := true },by simp [Shelf.perform,called],owned,fun p inside => ?_⟩,
      fun l inside => ?_⟩
    · have here : some (d.tempPath host) = some p := open_.symm.trans inside
      exact (Option.some.inj here).symm
    · cases inside
      refine ⟨⟨i,place host d.folder name,d.call,w.shelf.tree.data (.temp d.call)⟩,?_,rfl,held⟩
      simp [Shelf.mem_landings,Shelf.perform]
  · rw [none_pending,List.append_nil] at listed
    have grown : paths (w.shelf.perform i (.link d.call (place host d.folder name))) i =
        paths w.shelf i ++ [place host d.folder name] := by
      simp [paths,Shelf.landings,Shelf.perform]
    rw [grown]
    exact listed.append (List.Sublist.refl _)

theorem kept_tryLink (before : Before (names documented) files.tree)
    (sound : WellKept documented files w) (holding : d.Holding host w.shelf i)
    (tidy : Tidy w.shelf.calls w.abandoned i (some d.call)) {name : String}
    (final : FinalName name) (counter : Int) {taken : Stage} (none_pending : stage.pending host = [])
    (retry : taken.Holds host w.shelf i) (same_call : taken.call? = some d.call)
    (retry_pending : taken.pending host = []) {effects : List Effect}
    (tried : wr.tryLink host w d name counter taken = (effects,following)) :
    Kept documented files i w (effects.foldl (World.apply i) w) stage following := by
  have dropped : Kept documented files i w w stage (.stage (.closing d none)) :=
    kept_still sound ⟨holding.owned,nofun⟩ tidy (.inr rfl)
  unfold Write.tryLink at tried
  split at tried
  · split at tried
    · obtain ⟨rfl,rfl⟩ := Prod.mk.inj tried
      exact kept_link before sound holding tidy final ‹_› counter none_pending
    · obtain ⟨rfl,rfl⟩ := Prod.mk.inj tried
      split
      · exact dropped
      · refine kept_still sound retry ?_ (.inr retry_pending)
        rw [Next.call?,same_call]
        exact tidy
  · obtain ⟨rfl,rfl⟩ := Prod.mk.inj tried
    exact dropped

theorem kept_remove (before : Before (names documented) files.tree)
    (sound : WellKept documented files w) {landed : Option (String × Int)}
    (holds : (Stage.closing d landed).Holds host w.shelf i)
    (tidy : Tidy w.shelf.calls w.abandoned i (some d.call))
    (closed : following = .raised ∨ ∃ name counter, landed = some (name,counter) ∧
      following = .stage (.recording d name counter)) :
    Kept documented files i w (w.apply i (.tree (.remove d.call (d.tempPath host))))
      (.closing d landed) following := by
  obtain ⟨⟨c,called,owned,only⟩,linked⟩ := holds
  have proper : Proper (names documented) w.shelf i (.remove d.call (d.tempPath host)) :=
    ⟨tempPath_named d,c,called,owned,only⟩
  rcases closed with rfl | ⟨name,counter,rfl,rfl⟩
  · exact kept_tree before sound proper trivial tidy.close fun places listed =>
      listed_same (.inr rfl) listed
  · exact kept_tree before sound proper (linked _ rfl) tidy.close fun places listed => listed

theorem kept_record (before : Before (names documented) files.tree)
    (sound : WellKept documented files w) (line : List UInt8)
    (holds : following.Holds host w.shelf i)
    (tidy : Tidy w.shelf.calls w.abandoned i following.call?)
    (fewer : following.pending host = stage.pending host ∨ following.pending host = []) :
    Kept documented files i w ((Write.record host d line).foldl (World.apply i) w) stage
      following := by
  let locked := w.apply i (.tree (.touch (place host d.root sidecarLockName)))
  let touched := locked.apply i (.tree (.touch (place host d.root sidecarName)))
  have lock : Proper (names documented) w.shelf i (.touch (place host d.root sidecarLockName)) :=
    service_place (.inr (.inr rfl))
  have touch : Proper (names documented) locked.shelf i (.touch (place host d.root sidecarName)) :=
    service_place (.inr (.inl rfl))
  have append : Proper (names documented) touched.shelf i
      (.append (place host d.root sidecarName) line) := service_place (.inr (.inl rfl))
  have kept : WellKept documented files (touched.apply i (.tree (.append _ line))) :=
    ((sound.perform before _ lock).perform before _ touch).perform before _ append
  exact kept_beside kept (((beside_tree lock).trans (beside_tree touch)).trans
    (beside_tree append)) rfl rfl ((holds_tree w.shelf _ following).mpr holds) tidy fewer

theorem number_holds (wr : Write) (holding : d.Holding host w.shelf i) :
    (wr.number d).Holds host w.shelf i ∧ (wr.number d).call? = some d.call ∧
      (wr.number d).pending host = [] := by
  unfold Write.number
  cases wr.counter with
  | none => exact ⟨holding,rfl,rfl⟩
  | some counter => exact ⟨holding,rfl,rfl⟩

theorem returned_holds {name : String} (linked : d.Linked host w.shelf i name) :
    (Next.returned ⟨d.ref host wr name,place host d.folder name⟩ (counter + 1)).Holds host
      w.shelf i := by
  obtain ⟨l,inside,path,bytes⟩ := linked
  refine ⟨l,inside,path,last_of_place,?_,?_⟩
  · rw [bytes]
    rfl
  · rw [bytes]
    rfl

theorem Write.next_keeps (before : Before (names documented) files.tree)
    (sound : WellKept documented files w)
    (exact_final : wr.preferExactName = true → FinalName (wr.stem ++ wr.suffix))
    (exact_only : ∀ d, stage = .exact d → wr.preferExactName = true)
    (holds : stage.Holds host w.shelf i) (tidy : Tidy w.shelf.calls w.abandoned i stage.call?)
    {move : Move} {effects : List Effect} (taken : wr.next host w stage move =
      some (effects,following)) :
    Kept documented files i w (effects.foldl (World.apply i) w) stage following := by
  have failed {d : Draft} {stage : Stage} (owned : d.Owned host w.shelf i)
      (tidy : Tidy w.shelf.calls w.abandoned i (some d.call)) :
      Kept documented files i w w stage (.stage (.closing d none)) :=
    kept_still sound ⟨owned,nofun⟩ tidy (.inr rfl)
  cases stage with
  | entering =>
    cases move <;> simp only [Write.next,Option.some.injEq,Prod.mk.injEq,reduceCtorEq] at taken
    · obtain ⟨rfl,rfl⟩ := taken
      cases (writableFolder host w wr.target wr.expectedRoot).2 with
      | none => exact kept_folders before sound _ trivial tidy (.inr rfl)
      | some entered => exact kept_folders before sound _ trivial tidy (.inr rfl)
    · obtain ⟨rfl,rfl⟩ := taken
      exact kept_still sound trivial tidy (.inr rfl)
  | naming root folder =>
    cases move <;> simp only [Write.next,Option.some.injEq,Prod.mk.injEq,reduceCtorEq] at taken
    obtain ⟨rfl,rfl⟩ := taken
    exact kept_naming before sound root folder tidy
  | opening d =>
    have owned : d.Owned host w.shelf i := by
      obtain ⟨_,c,called,owned,closed,_⟩ := holds
      exact ⟨c,called,owned,by simp [closed]⟩
    cases move <;> simp only [Write.next,Option.some.injEq,Prod.mk.injEq,reduceCtorEq] at taken
    · split at taken
      · obtain ⟨rfl,rfl⟩ := Prod.mk.inj (Option.some.inj taken)
        exact kept_create before sound holds tidy ‹_›
      · obtain ⟨rfl,rfl⟩ := Prod.mk.inj (Option.some.inj taken)
        exact failed owned tidy
    · obtain ⟨rfl,rfl⟩ := taken
      exact failed owned tidy
  | copying d =>
    have holding : d.Holding host w.shelf i := holds
    cases move <;> simp only [Write.next,Option.some.injEq,Prod.mk.injEq,reduceCtorEq] at taken
    · obtain ⟨rfl,rfl⟩ := taken
      exact failed holding.owned tidy
    · split at taken
      · obtain ⟨rfl,rfl⟩ := Prod.mk.inj (Option.some.inj taken)
        exact kept_still sound holding tidy (.inr rfl)
      · split at taken
        · obtain ⟨rfl,rfl⟩ := Prod.mk.inj (Option.some.inj taken)
          exact failed holding.owned tidy
        · obtain ⟨rfl,rfl⟩ := Prod.mk.inj (Option.some.inj taken)
          exact kept_extend before sound holding tidy _
  | copied d =>
    have holding : d.Holding host w.shelf i := holds
    cases move <;> simp only [Write.next,Option.some.injEq,Prod.mk.injEq,reduceCtorEq] at taken
    · split at taken
      · obtain ⟨rfl,rfl⟩ := Prod.mk.inj (Option.some.inj taken)
        split
        · exact kept_folders before sound _ holding tidy (.inr rfl)
        · exact kept_folders before sound _ ⟨holding.owned,nofun⟩ tidy (.inr rfl)
      · obtain ⟨rfl,rfl⟩ := Prod.mk.inj (Option.some.inj taken)
        obtain ⟨numbers,call,none_pending⟩ := number_holds wr holding
        refine kept_still sound numbers ?_ (.inr none_pending)
        rw [Next.call?,call]
        exact tidy
    · obtain ⟨rfl,rfl⟩ := taken
      exact failed holding.owned tidy
  | exact d =>
    have holding : d.Holding host w.shelf i := holds
    cases move <;> simp only [Write.next,Option.some.injEq,Prod.mk.injEq,reduceCtorEq] at taken
    · obtain ⟨numbers,call,none_pending⟩ := number_holds wr holding
      exact kept_tryLink before sound holding tidy (exact_final (exact_only d rfl)) 0 rfl numbers
        call none_pending taken
    · obtain ⟨rfl,rfl⟩ := taken
      exact failed holding.owned tidy
  | scanning d =>
    have holding : d.Holding host w.shelf i := holds
    cases move <;> simp only [Write.next,Option.some.injEq,Prod.mk.injEq,reduceCtorEq] at taken
    · obtain ⟨rfl,rfl⟩ := taken
      exact failed holding.owned tidy
    · obtain ⟨rfl,rfl⟩ := taken
      exact kept_still sound holding tidy (.inr rfl)
  | landing d counter =>
    have holding : d.Holding host w.shelf i := holds
    cases move <;> simp only [Write.next,Option.some.injEq,Prod.mk.injEq,reduceCtorEq] at taken
    · have retry : (Stage.landing d (counter + 1)).Holds host w.shelf i := holding
      exact kept_tryLink before sound holding tidy (numbered_final _ _ _) counter rfl retry rfl rfl
        taken
    · obtain ⟨rfl,rfl⟩ := taken
      exact failed holding.owned tidy
  | closing d landed =>
    cases move <;> simp only [Write.next,Option.some.injEq,Prod.mk.injEq,reduceCtorEq] at taken
    · obtain ⟨rfl,rfl⟩ := taken
      refine kept_remove before sound holds tidy ?_
      cases landed with
      | none => exact .inl rfl
      | some entry => exact .inr ⟨entry.1,entry.2,rfl,rfl⟩
    · obtain ⟨rfl,rfl⟩ := taken
      refine kept_beside sound ⟨fun _ _ _ => .rfl,fun _ _ => rfl,fun n old => ?_⟩ rfl rfl trivial
        tidy.abandon (.inr rfl)
      exact List.mem_append_left _ old
  | recording d name counter =>
    cases move <;> simp only [Write.next,Option.some.injEq,Prod.mk.injEq,reduceCtorEq] at taken
    · obtain ⟨rfl,rfl⟩ := taken
      exact kept_still sound (returned_holds holds) tidy (.inl rfl)
    · obtain ⟨rfl,rfl⟩ := taken
      exact kept_still sound trivial tidy (.inr rfl)
    · obtain ⟨rfl,rfl⟩ := taken
      exact kept_record before sound _ (returned_holds holds) tidy (.inl rfl)

theorem Write.next_exact (exact_only : ∀ d, stage = .exact d → wr.preferExactName = true)
    {move : Move} {effects : List Effect} {next : Stage}
    (taken : wr.next host w stage move = some (effects,.stage next)) :
    ∀ d, next = .exact d → wr.preferExactName = true := by
  rintro d rfl
  cases stage with
  | exact d' => exact exact_only d' rfl
  | copied d' =>
    cases move <;> simp only [Write.next,Option.some.injEq,Prod.mk.injEq,reduceCtorEq] at taken
    · split at taken
      · assumption
      · unfold Write.number at taken
        split at taken <;> simp at taken
    · simp at taken
  | landing d' counter =>
    cases move <;> simp only [Write.next,Option.some.injEq,Prod.mk.injEq,reduceCtorEq] at taken
    · unfold Write.tryLink at taken
      split at taken
      · split at taken
        · simp at taken
        · split at taken <;> simp at taken
      · simp at taken
    · simp at taken
  | entering =>
    cases move <;> simp only [Write.next,Option.some.injEq,Prod.mk.injEq,reduceCtorEq] at taken
    · obtain ⟨_,wrong⟩ := taken
      split at wrong <;> cases wrong
    · simp at taken
  | opening d' =>
    cases move <;> simp only [Write.next,Option.some.injEq,Prod.mk.injEq,reduceCtorEq] at taken
    · split at taken <;> simp at taken
    · simp at taken
  | copying d' =>
    cases move <;> simp only [Write.next,Option.some.injEq,Prod.mk.injEq,reduceCtorEq] at taken
    · simp at taken
    · split at taken
      · simp at taken
      · split at taken <;> simp at taken
  | closing d' landed =>
    cases move <;> simp only [Write.next,Option.some.injEq,Prod.mk.injEq,reduceCtorEq] at taken
    · obtain ⟨_,wrong⟩ := taken
      split at wrong <;> cases wrong
    · simp at taken
  | _ =>
    cases move <;> simp [Write.next] at taken

def Write.Final (wr : Write) : Prop := wr.preferExactName = true → FinalName (wr.stem ++ wr.suffix)

def Point.call? : Point → Option Nat
  | .writing _ stage => stage.call?
  | _ => none

def Point.pending (host : Host) : Point → List Path
  | .writing _ stage => stage.pending host
  | _ => []

def Point.refused : Point → Bool
  | .called | .raised | .killed => true
  | _ => false

structure Saver.Holds (host : Host) (w : World) (i : Nat) (s : Saver) : Prop where
  accepted : s.point.refused = false → ∃ t, s.save.validated host = .ok t
  write : ∀ wr stage, s.point = .writing wr stage →
    wr.Final ∧ (∀ d, stage = .exact d → wr.preferExactName = true) ∧ stage.Holds host w.shelf i
  tidy : Tidy w.shelf.calls w.abandoned i s.point.call?
  listed : (s.publications.map (·.place) ++ s.point.pending host).Sublist (paths w.shelf i)
  described : ∀ p ∈ s.publications, ∃ l ∈ w.shelf.landings i, Describes host p l

theorem landings_grow (effects : List Effect) (w : World) {l : Landing Path UInt8}
    (inside : l ∈ w.shelf.landings i) :
    l ∈ (effects.foldl (World.apply i) w).shelf.landings i := by
  induction effects generalizing w with
  | nil => exact inside
  | cons e rest ih =>
    refine ih (w.apply i e) ?_
    cases e with
    | tree change =>
      rw [Shelf.mem_landings] at inside ⊢
      cases change <;> simp [World.apply,Shelf.perform,inside]
    | acquire path => exact inside
    | release path => exact inside
    | abandon call => exact inside

variable {s s' : Saver}

theorem Saver.Holds.idle (holds : s.Holds host w i) (idle : s.point.call? = none)
    (calls : after.shelf.calls = w.shelf.calls) (landed : after.shelf.landed = w.shelf.landed)
    (abandoned : after.abandoned = w.abandoned) (same : s'.publications = s.publications)
    (accepted : s'.point.refused = false → ∃ t, s'.save.validated host = .ok t)
    (begun : ∀ wr stage, s'.point = .writing wr stage → stage = .entering ∧ wr.Final) :
    s'.Holds host after i := by
  have fresh : s'.point.call? = none ∧ s'.point.pending host = [] := by
    cases here : s'.point with
    | writing wr stage =>
      obtain ⟨rfl,_⟩ := begun wr stage here
      exact ⟨rfl,rfl⟩
    | _ => exact ⟨rfl,rfl⟩
  have made : after.shelf.landings i = w.shelf.landings i := by simp [Shelf.landings,landed]
  refine ⟨accepted,fun wr stage here => ?_,?_,?_,fun p inside => ?_⟩
  · obtain ⟨rfl,final⟩ := begun wr stage here
    exact ⟨final,by simp,trivial⟩
  · rw [fresh.1,calls,abandoned]
    exact idle ▸ holds.tidy
  · rw [fresh.2,List.append_nil,same,paths,made]
    exact (List.sublist_append_left _ _).trans holds.listed
  · rw [made]
    exact holds.described p (same ▸ inside)

theorem accepted_named {t base : SaveTarget} {m : String} {limit : Int} {announce : Bool}
    (documented : host.Documented)
    (passed : (Save.named t m limit announce).validated host = .ok base) : FinalName t.stem := by
  obtain ⟨_,valid,_⟩ := Fallible.bind_ok.mp passed
  exact portable_final documented
    (validatedNamedTarget_ok valid _ (List.getLast_mem t.named))

theorem accepted_group {t target : SaveTarget} {names : List (List String)}
    {types : List (List String × String)} {limit : Int}
    (passed : (Save.group t names types limit).validated host = .ok target) :
    ∀ name ∈ names, name ≠ [] ∧ ∀ segment ∈ name, portable host segment := by
  obtain ⟨_,_,group⟩ := Fallible.bind_ok.mp passed
  obtain ⟨_,valid,_⟩ := Fallible.map_ok.mp group
  exact validatedGroup_ok valid

theorem member_final (documented : host.Documented) {t : SaveTarget}
    {types : List (List String × String)} {limit : Int} {name : List String} {wr : Write}
    (valid : name ≠ [] ∧ ∀ segment ∈ name, portable host segment)
    (made : s.member t types limit name = .ok wr) : wr.Final := by
  obtain ⟨target,make,rfl⟩ := Fallible.map_ok.mp made
  obtain ⟨_,segments⟩ := make_ok make
  intro _
  have last : target.segments.getLast? = some (name.getLast valid.1) := by
    rw [segments,List.getLast?_append,List.getLast?_eq_some_getLast valid.1]
    rfl
  have stem : target.stem = name.getLast valid.1 :=
    Option.some.inj ((List.getLast?_eq_some_getLast target.named).symm.trans last)
  simp only [stem,String.append_empty]
  exact portable_final documented (valid.2 _ (List.getLast_mem valid.1))

theorem claimed_begun (documented : host.Documented)
    (accepted : ∃ t, s.save.validated host = .ok t) {wr : Write} {stage : Stage}
    (here : s.claimed.point = .writing wr stage) : stage = .entering ∧ wr.Final := by
  unfold Saver.claimed at here
  split at here
  · cases here
    exact ⟨rfl,nofun⟩
  · rename_i t m limit announce saved
    split at here
    · cases here
    · rename_i base made
      cases here
      obtain ⟨_,passed⟩ := accepted
      refine ⟨rfl,fun _ => ?_⟩
      rw [saved] at passed
      simp only [named_stem made]
      exact accepted_named documented passed
  all_goals cases here

theorem select_begun (documented : host.Documented)
    (accepted : ∃ t, s.save.validated host = .ok t) {more : Bool} {wr : Write} {stage : Stage}
    (here : (s.select more).point = .writing wr stage) : stage = .entering ∧ wr.Final := by
  unfold Saver.select at here
  split at here
  · rename_i t names types limit saved
    split at here
    · cases here
    · rename_i name found
      split at here
      · cases here
      · rename_i made
        cases here
        obtain ⟨_,passed⟩ := accepted
        rw [saved] at passed
        exact ⟨rfl,member_final documented
          (accepted_group passed name (List.mem_of_getElem? found)) made⟩
  · split at here
    · cases here
      exact ⟨rfl,nofun⟩
    · cases here
  · cases here

theorem claimed_same : s.claimed.save = s.save ∧ s.claimed.publications = s.publications := by
  unfold Saver.claimed
  split
  · exact ⟨rfl,rfl⟩
  · split <;> exact ⟨rfl,rfl⟩
  all_goals exact ⟨rfl,rfl⟩

theorem count_same {target : SaveTarget} {seen : List String} :
    (s.count host target seen).save = s.save ∧
      (s.count host target seen).publications = s.publications ∧
      ∀ wr stage, (s.count host target seen).point ≠ .writing wr stage := by
  unfold Saver.count
  dsimp only
  split <;> exact ⟨rfl,rfl,by simp⟩

theorem select_same {more : Bool} :
    (s.select more).save = s.save ∧ (s.select more).publications = s.publications := by
  unfold Saver.select
  split
  · split
    · exact ⟨rfl,rfl⟩
    · split <;> exact ⟨rfl,rfl⟩
  · split <;> exact ⟨rfl,rfl⟩
  · exact ⟨rfl,rfl⟩

structure SaveKept (documented : host.Documented) (files : Files) (i : Nat) (w after : World)
    (s' : Saver) : Prop where
  sound : WellKept documented files after
  beside : Beside i w after
  holds : s'.Holds host after i

/-- What calls between two writes do: folders, the lock file, the claim. -/
def Quiet (host : Host) (effects : List Effect) : Prop :=
  effects = [] ∨ (∃ made, effects = [.tree (.folders made)]) ∨
    (∃ folder, effects = [.tree (.touch (place host folder lockName))]) ∨
    ∃ path, effects = [.acquire path] ∨ effects = [.release path]

theorem save_kept_idle (before : Before (names documented) files.tree)
    (sound : WellKept documented files w) (holds : s.Holds host w i)
    (idle : s.point.call? = none) {effects : List Effect}
    (quiet : Quiet host effects)
    (same : s'.publications = s.publications)
    (accepted : s'.point.refused = false → ∃ t, s'.save.validated host = .ok t)
    (begun : ∀ wr stage, s'.point = .writing wr stage → stage = .entering ∧ wr.Final) :
    SaveKept documented files i w (effects.foldl (World.apply i) w) s' := by
  rcases quiet with rfl | ⟨made,rfl⟩ | ⟨folder,rfl⟩ | ⟨path,rfl | rfl⟩
  · exact ⟨sound,beside_refl,holds.idle idle rfl rfl rfl same accepted begun⟩
  · have proper : Proper (names documented) w.shelf i (.folders made) := trivial
    exact ⟨sound.perform before _ proper,beside_tree proper,
      holds.idle idle rfl rfl rfl same accepted begun⟩
  · have proper : Proper (names documented) w.shelf i (.touch (place host folder lockName)) :=
      service_place (.inl rfl)
    exact ⟨sound.perform before _ proper,beside_tree proper,
      holds.idle idle rfl rfl rfl same accepted begun⟩
  · exact ⟨sound,⟨fun _ _ _ => .rfl,fun _ _ => rfl,fun _ => id⟩,
      holds.idle idle rfl rfl rfl same accepted begun⟩
  · exact ⟨sound,⟨fun _ _ _ => .rfl,fun _ _ => rfl,fun _ => id⟩,
      holds.idle idle rfl rfl rfl same accepted begun⟩

theorem published_same (host : Host) (s : Saver) (p : Published) (counter : Int) :
    (s.published p counter).save = s.save ∧
      (s.published p counter).publications = s.publications ++ [p] ∧
      (s.published p counter).point.call? = none ∧
      (s.published p counter).point.pending host = [] ∧
      ∀ wr stage, (s.published p counter).point ≠ .writing wr stage := by
  unfold Saver.published
  dsimp only
  split <;> exact ⟨rfl,rfl,rfl,rfl,by simp⟩

theorem save_kept_writing (before : Before (names documented) files.tree)
    (sound : WellKept documented files w) (holds : s.Holds host w i) {wr : Write} {stage : Stage}
    (here : s.point = .writing wr stage) {move : Move} {effects : List Effect}
    (taken : wr.next host w stage move = some (effects,following)) :
    SaveKept documented files i w (effects.foldl (World.apply i) w) (s.follow wr following) := by
  obtain ⟨final,exact_only,held⟩ := holds.write wr stage here
  have tidy := holds.tidy
  have listed := holds.listed
  rw [here] at tidy listed
  have kept := Write.next_keeps before sound final exact_only held tidy taken
  have accepted : ∃ t, s.save.validated host = .ok t := holds.accepted (by rw [here]; rfl)
  have described {p} (inside : p ∈ s.publications) :
      ∃ l ∈ (effects.foldl (World.apply i) w).shelf.landings i, Describes host p l := by
    obtain ⟨l,made,describes⟩ := holds.described p inside
    exact ⟨l,landings_grow effects w made,describes⟩
  refine ⟨kept.sound,kept.beside,?_⟩
  have listed' := kept.listed _ listed
  cases following with
  | stage next =>
    refine ⟨fun _ => accepted,fun wr' stage' here' => ?_,kept.tidy,listed',
      fun p inside => described inside⟩
    cases here'
    exact ⟨final,Write.next_exact exact_only taken,kept.holds⟩
  | raised =>
    exact ⟨fun _ => accepted,fun _ _ => nofun,kept.tidy,listed',fun p inside => described inside⟩
  | returned p counter =>
    obtain ⟨save,publications,call,pending,idle⟩ := published_same host s p counter
    rw [Saver.follow]
    refine ⟨fun _ => save ▸ accepted,fun wr' stage' here' => absurd here' (idle wr' stage'),?_,?_,
      fun q inside => ?_⟩
    · rw [call]
      exact kept.tidy
    · rw [publications,pending,List.append_nil,List.map_append]
      exact listed'
    · rw [publications,List.mem_append,List.mem_singleton] at inside
      rcases inside with old | rfl
      · exact described old
      · exact kept.holds

theorem export_group_quiet {target : SaveTarget} {counter : Int} {effects : List Effect}
    (taken : s.export_group host w target counter = (effects,s')) :
    (effects = [] ∨ ∃ made, effects = [.tree (.folders made)]) ∧ s'.save = s.save ∧
      s'.publications = s.publications ∧ ∀ wr stage, s'.point ≠ .writing wr stage := by
  unfold Saver.export_group at taken
  dsimp only at taken
  split at taken
  · split at taken
    · cases taken
      exact ⟨.inl rfl,rfl,rfl,by simp⟩
    · cases taken
      exact ⟨.inr ⟨_,rfl⟩,rfl,rfl,by simp⟩
  · cases taken
    exact ⟨.inl rfl,rfl,rfl,by simp⟩

section Calls

variable (before : Before (names documented) files.tree) (sound : WellKept documented files w)
  (holds : s.Holds host w i)
include before sound holds

attribute [local simp] Saver.next

theorem save_kept_moved (idle : s.point.call? = none) {effects : List Effect}
    (quiet : Quiet host effects) (p : Point)
    (stopped : ∀ wr stage, p ≠ .writing wr stage)
    (accepted : p.refused = false → ∃ t, s.save.validated host = .ok t) :
    SaveKept documented files i w (effects.foldl (World.apply i) w) { s with point := p } :=
  save_kept_idle before sound holds idle quiet rfl accepted fun wr stage begun =>
    absurd begun (stopped wr stage)

variable {move : Move} {effects : List Effect}

theorem called_keeps (here : s.point = .called)
    (taken : s.next host w move = some (effects,s')) :
    SaveKept documented files i w (effects.foldl (World.apply i) w) s' := by
  have idle : s.point.call? = none := by rw [here]; rfl
  have refused := save_kept_moved before sound holds idle (.inl rfl) .raised (by simp) nofun
  cases move <;> simp only [Saver.next,here,Option.some.injEq,Prod.mk.injEq,reduceCtorEq] at taken
  · cases passed : s.save.validated host with
    | error e =>
      simp only [passed,Option.some.injEq,Prod.mk.injEq] at taken
      obtain ⟨rfl,rfl⟩ := taken
      exact refused
    | ok target =>
      simp only [passed,Option.some.injEq,Prod.mk.injEq] at taken
      obtain ⟨rfl,rfl⟩ := taken
      have quiet {s' : Saver} (same : s'.publications = s.publications)
          (stopped : ∀ wr stage, s'.point ≠ .writing wr stage)
          (accepted : s'.point.refused = false → ∃ t, s'.save.validated host = .ok t) :=
        save_kept_idle before sound holds idle
          (.inr (.inl ⟨(writableFolder host w target none).1,rfl⟩)) same accepted
          fun wr stage begun => absurd begun (stopped wr stage)
      cases (writableFolder host w target none).2 with
      | none => exact quiet rfl (by simp) nofun
      | some entered => exact quiet rfl (by simp) fun _ => ⟨target,passed⟩
  · obtain ⟨rfl,rfl⟩ := taken
    exact refused

theorem opening_keeps (here : s.point = .opening)
    (taken : s.next host w move = some (effects,s')) :
    SaveKept documented files i w (effects.foldl (World.apply i) w) s' := by
  have idle : s.point.call? = none := by rw [here]; rfl
  have accepted := holds.accepted (by rw [here]; rfl)
  have refused := save_kept_moved before sound holds idle (.inl rfl) .raised (by simp) nofun
  cases move <;> simp only [Saver.next,here,Option.some.injEq,Prod.mk.injEq,reduceCtorEq] at taken
  · split at taken
    · obtain ⟨rfl,rfl⟩ := Prod.mk.inj (Option.some.inj taken)
      exact refused
    · obtain ⟨rfl,rfl⟩ := Prod.mk.inj (Option.some.inj taken)
      exact save_kept_moved before sound holds idle (.inr (.inr (.inl ⟨s.folder,rfl⟩))) .waiting
        (by simp) fun _ => accepted
  · obtain ⟨rfl,rfl⟩ := taken
    exact refused

theorem waiting_keeps (here : s.point = .waiting)
    (taken : s.next host w move = some (effects,s')) :
    SaveKept documented files i w (effects.foldl (World.apply i) w) s' := by
  have idle : s.point.call? = none := by rw [here]; rfl
  have accepted := holds.accepted (by rw [here]; rfl)
  cases move <;> simp only [Saver.next,here,Option.some.injEq,Prod.mk.injEq,reduceCtorEq] at taken
  · split at taken
    · cases taken
    · obtain ⟨rfl,rfl⟩ := Prod.mk.inj (Option.some.inj taken)
      exact save_kept_idle before sound holds idle (.inr (.inr (.inr ⟨_,.inl rfl⟩)))
        claimed_same.2 (fun _ => by rwa [claimed_same.1])
        fun wr stage => claimed_begun documented accepted
  · obtain ⟨rfl,rfl⟩ := taken
    exact save_kept_moved before sound holds idle (.inl rfl) .raised (by simp) nofun

theorem counting_keeps (here : s.point = .counting)
    (taken : s.next host w move = some (effects,s')) :
    SaveKept documented files i w (effects.foldl (World.apply i) w) s' := by
  have idle : s.point.call? = none := by rw [here]; rfl
  have accepted := holds.accepted (by rw [here]; rfl)
  cases move <;> simp only [Saver.next,here,reduceCtorEq] at taken
  split at taken
  · cases taken
  · obtain ⟨rfl,rfl⟩ := Prod.mk.inj (Option.some.inj taken)
    obtain ⟨save,publications,stopped⟩ := count_same
    exact save_kept_idle before sound holds idle (.inl rfl) publications
      (fun _ => save ▸ accepted) fun wr stage begun => absurd begun (stopped wr stage)

theorem exporting_keeps {counter : Int} (here : s.point = .exporting counter)
    (taken : s.next host w move = some (effects,s')) :
    SaveKept documented files i w (effects.foldl (World.apply i) w) s' := by
  have idle : s.point.call? = none := by rw [here]; rfl
  have accepted := holds.accepted (by rw [here]; rfl)
  cases move <;> simp only [Saver.next,here,Option.some.injEq,Prod.mk.injEq,reduceCtorEq] at taken
  · split at taken
    · cases taken
    · obtain ⟨few,save,publications,stopped⟩ := export_group_quiet (Option.some.inj taken)
      exact save_kept_idle before sound holds idle (few.imp id .inl) publications
        (fun _ => save ▸ accepted) fun wr stage begun => absurd begun (stopped wr stage)
  · obtain ⟨rfl,rfl⟩ := taken
    exact save_kept_moved before sound holds idle (.inl rfl) (.releasing true) (by simp)
      fun _ => accepted

theorem encoding_keeps {counter : Int} (here : s.point = .encoding counter)
    (taken : s.next host w move = some (effects,s')) :
    SaveKept documented files i w (effects.foldl (World.apply i) w) s' := by
  have idle : s.point.call? = none := by rw [here]; rfl
  have accepted := holds.accepted (by rw [here]; rfl)
  cases move <;> simp only [Saver.next,here,Option.some.injEq,Prod.mk.injEq,reduceCtorEq] at taken
  · split at taken
    · obtain ⟨rfl,rfl⟩ := Prod.mk.inj (Option.some.inj taken)
      refine save_kept_idle before sound holds idle (.inl rfl) rfl (fun _ => accepted) ?_
      intro wr stage begun
      cases begun
      exact ⟨rfl,nofun⟩
    · cases taken
  · obtain ⟨rfl,rfl⟩ := taken
    exact save_kept_moved before sound holds idle (.inl rfl) (.releasing true) (by simp)
      fun _ => accepted

theorem selecting_keeps (here : s.point = .selecting)
    (taken : s.next host w move = some (effects,s')) :
    SaveKept documented files i w (effects.foldl (World.apply i) w) s' := by
  have idle : s.point.call? = none := by rw [here]; rfl
  have accepted := holds.accepted (by rw [here]; rfl)
  have selected (more : Bool) : SaveKept documented files i w w (s.select more) :=
    save_kept_idle before sound holds idle (.inl rfl) select_same.2
      (fun _ => by rwa [select_same.1]) fun wr stage => select_begun documented accepted
  cases move <;> simp only [Saver.next,here,Option.some.injEq,Prod.mk.injEq,reduceCtorEq] at taken
  · obtain ⟨rfl,rfl⟩ := taken
    exact selected true
  · obtain ⟨rfl,rfl⟩ := taken
    exact save_kept_moved before sound holds idle (.inl rfl) (.releasing true) (by simp)
      fun _ => accepted
  · obtain ⟨rfl,rfl⟩ := taken
    exact selected false

theorem releasing_keeps {failed : Bool} (here : s.point = .releasing failed)
    (taken : s.next host w move = some (effects,s')) :
    SaveKept documented files i w (effects.foldl (World.apply i) w) s' := by
  have idle : s.point.call? = none := by rw [here]; rfl
  have accepted := holds.accepted (by rw [here]; rfl)
  cases move <;> simp only [Saver.next,here,Option.some.injEq,Prod.mk.injEq,reduceCtorEq] at taken
  obtain ⟨rfl,rfl⟩ := taken
  refine save_kept_moved before sound holds idle (.inr (.inr (.inr ⟨_,.inr rfl⟩)))
    (if failed then .raised else .returned) ?_ fun _ => accepted
  cases failed <;> simp

theorem Saver.next_keeps (taken : s.next host w move = some (effects,s')) :
    SaveKept documented files i w (effects.foldl (World.apply i) w) s' := by
  cases here : s.point with
  | called => exact called_keeps before sound holds here taken
  | opening => exact opening_keeps before sound holds here taken
  | waiting => exact waiting_keeps before sound holds here taken
  | counting => exact counting_keeps before sound holds here taken
  | exporting counter => exact exporting_keeps before sound holds here taken
  | encoding counter => exact encoding_keeps before sound holds here taken
  | selecting => exact selecting_keeps before sound holds here taken
  | releasing failed => exact releasing_keeps before sound holds here taken
  | writing wr stage =>
    simp only [Saver.next,here] at taken
    obtain ⟨⟨effects',following⟩,made,same⟩ := Option.map_eq_some_iff.mp taken
    obtain ⟨rfl,rfl⟩ := Prod.mk.inj same
    exact save_kept_writing before sound holds here made
  | returned | raised | killed => cases move <;> simp [Saver.next,here] at taken

end Calls

end Dinkster.Writer
