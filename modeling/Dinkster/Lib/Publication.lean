import Mathlib.Data.List.Nodup
import Mathlib.Data.List.Infix
import Mathlib.Logic.Function.Basic

/-! Publication of complete files by several owners in one tree: an owner fills a temporary that
only it names, links it under a free final name and removes the temporary. Files are inodes, so a
link shares its bytes with the temporary. -/
namespace Publication

universe u v
variable {κ : Type u} {β : Type v}

/-- A file that was there before, a service file made at its path, or the temporary of a call. -/
inductive Inode (κ : Type u)
  | old (number : Nat)
  | service (path : κ)
  | temp (call : Nat)
  deriving DecidableEq

inductive Node (κ : Type u)
  | directory
  | file (inode : Inode κ)
  deriving DecidableEq

structure Tree (κ : Type u) (β : Type v) where
  nodes : κ → Option (Node κ)
  data : Inode κ → List β

/-- One temporary name that was asked for, and what became of it. -/
structure Call (κ : Type u) (β : Type v) where
  owner : Nat
  temp : Option κ := none
  bytes : List β := []
  linked : Bool := false

structure Landing (κ : Type u) (β : Type v) where
  owner : Nat
  path : κ
  call : Nat
  bytes : List β

structure Shelf (κ : Type u) (β : Type v) where
  tree : Tree κ β
  calls : List (Call κ β) := []
  landed : List (Landing κ β) := []

inductive Change (κ : Type u) (β : Type v)
  | still
  | folders (paths : List κ)
  | touch (path : κ)
  | append (path : κ) (bytes : List β)
  | call
  | create (call : Nat) (path : κ)
  | extend (call : Nat) (bytes : List β)
  | link (call : Nat) (path : κ)
  | remove (call : Nat) (path : κ)

variable [DecidableEq κ]

namespace Tree

def makeFolders (t : Tree κ β) (paths : List κ) : Tree κ β :=
  { t with nodes := fun p => if p ∈ paths ∧ t.nodes p = none then some .directory else t.nodes p }

def touch (t : Tree κ β) (path : κ) : Tree κ β :=
  if t.nodes path = none then
    ⟨Function.update t.nodes path (some (.file (.service path))),
      Function.update t.data (.service path) []⟩
  else t

def append (t : Tree κ β) (path : κ) (bytes : List β) : Tree κ β :=
  match t.nodes path with
  | some (.file inode) => { t with data := Function.update t.data inode (t.data inode ++ bytes) }
  | _ => t

def create (t : Tree κ β) (call : Nat) (path : κ) : Tree κ β :=
  ⟨Function.update t.nodes path (some (.file (.temp call))),Function.update t.data (.temp call) []⟩

def extend (t : Tree κ β) (call : Nat) (bytes : List β) : Tree κ β :=
  { t with data := Function.update t.data (.temp call) (t.data (.temp call) ++ bytes) }

def link (t : Tree κ β) (call : Nat) (path : κ) : Tree κ β :=
  { t with nodes := Function.update t.nodes path (some (.file (.temp call))) }

/-- `unlink(missing_ok=True)`; a folder stays. -/
def remove (t : Tree κ β) (path : κ) : Tree κ β :=
  match t.nodes path with
  | some (.file _) => { t with nodes := Function.update t.nodes path none }
  | _ => t

end Tree

namespace Shelf

def perform (s : Shelf κ β) (owner : Nat) : Change κ β → Shelf κ β
  | .still => s
  | .folders paths => { s with tree := s.tree.makeFolders paths }
  | .touch path => { s with tree := s.tree.touch path }
  | .append path bytes => { s with tree := s.tree.append path bytes }
  | .call => { s with calls := s.calls ++ [{ owner := owner }] }
  | .create n path => { s with
      tree := s.tree.create n path
      calls := s.calls.modify n fun c => { c with temp := some path } }
  | .extend n bytes => { s with
      tree := s.tree.extend n bytes
      calls := s.calls.modify n fun c => { c with bytes := c.bytes ++ bytes } }
  | .link n path => { s with
      tree := s.tree.link n path
      calls := s.calls.modify n fun c => { c with linked := true }
      landed := s.landed ++ [⟨owner,path,n,s.tree.data (.temp n)⟩] }
  | .remove n path => { s with
      tree := s.tree.remove path
      calls := s.calls.modify n fun c => { c with temp := none } }

attribute [local simp] perform

end Shelf

structure Names (κ : Type u) where
  temp : κ → Nat → Prop
  service : κ → Prop
  final : κ → Prop
  temp_call : ∀ {p n m}, temp p n → temp p m → n = m
  final_temp : ∀ {p n}, final p → ¬ temp p n
  service_temp : ∀ {p n}, service p → ¬ temp p n
  final_service : ∀ {p}, final p → ¬ service p

/-- The tree before any call: its files are old ones, and none has a temporary's name. -/
structure Before (names : Names κ) (start : Tree κ β) : Prop where
  old : ∀ {p inode}, start.nodes p = some (.file inode) → ∃ k, inode = .old k
  clear : ∀ {p n}, names.temp p n → ∀ inode, start.nodes p ≠ some (.file inode)

def Proper (names : Names κ) (s : Shelf κ β) (owner : Nat) : Change κ β → Prop
  | .still | .folders _ | .call => True
  | .touch path | .append path _ => names.service path
  | .create n path => names.temp path n ∧ s.tree.nodes path = none ∧
      ∃ c, s.calls[n]? = some c ∧ c.owner = owner ∧ c.temp = none ∧ c.bytes = [] ∧ c.linked = false
  | .extend n _ => ∃ c, s.calls[n]? = some c ∧ c.owner = owner ∧ c.linked = false
  | .link n path => names.final path ∧ s.tree.nodes path = none ∧
      ∃ c, s.calls[n]? = some c ∧ c.owner = owner ∧ c.temp ≠ none ∧ c.linked = false
  | .remove n path => names.temp path n ∧
      ∃ c, s.calls[n]? = some c ∧ c.owner = owner ∧ ∀ p ∈ c.temp, p = path

/-- What may stand behind a path that names a file. -/
def Accounted (names : Names κ) (start : Tree κ β) (s : Shelf κ β) (p : κ) : Inode κ → Prop
  | .old k => start.nodes p = some (.file (.old k))
  | .service q => q = p ∧ names.service p
  | .temp n => (∃ c, s.calls[n]? = some c ∧ c.temp = some p) ∨
      ∃ l ∈ s.landed, l.call = n ∧ l.path = p

structure Landing.Stands (names : Names κ) (start : Tree κ β) (s : Shelf κ β)
    (l : Landing κ β) : Prop where
  named : names.final l.path
  new : start.nodes l.path = none
  there : s.tree.nodes l.path = some (.file (.temp l.call))
  bytes : s.tree.data (.temp l.call) = l.bytes
  called : ∃ c, s.calls[l.call]? = some c ∧ c.owner = l.owner ∧ c.linked = true

structure Sound (names : Names κ) (start : Tree κ β) (s : Shelf κ β) : Prop where
  kept : ∀ p node, start.nodes p = some node → s.tree.nodes p = some node
  entry : ∀ p inode, s.tree.nodes p = some (.file inode) → Accounted names start s p inode
  temps : ∀ (n : Nat) c p, s.calls[n]? = some c → c.temp = some p →
    names.temp p n ∧ s.tree.nodes p = some (.file (.temp n)) ∧
      s.tree.data (.temp n) = c.bytes
  landings : ∀ l ∈ s.landed, l.Stands names start s
  distinct : (s.landed.map (·.path)).Nodup
  /-- Old files only grow, and only through a service file's name. -/
  old : ∀ k, start.data (.old k) <+: s.tree.data (.old k) ∧
    ((∀ p, names.service p → start.nodes p ≠ some (.file (.old k))) →
      s.tree.data (.old k) = start.data (.old k))

namespace Tree

variable (t : Tree κ β)

theorem makeFolders_kept {paths : List κ} {p : κ} {node : Node κ} (found : t.nodes p = some node) :
    (t.makeFolders paths).nodes p = some node := by
  simp [makeFolders,found]

theorem makeFolders_file (paths : List κ) (p : κ) (inode : Inode κ) :
    (t.makeFolders paths).nodes p = some (.file inode) ↔ t.nodes p = some (.file inode) := by
  simp only [makeFolders]
  split <;> simp_all

theorem touch_kept {q p : κ} {node : Node κ} (found : t.nodes p = some node) :
    (t.touch q).nodes p = some node := by
  unfold touch
  split
  · rename_i free
    have other : p ≠ q := fun same => by simp [← same,found] at free
    simp [other,found]
  · exact found

theorem touch_file {q p : κ} {inode : Inode κ}
    (found : (t.touch q).nodes p = some (.file inode)) :
    t.nodes p = some (.file inode) ∨ p = q ∧ inode = .service p := by
  unfold touch at found
  split at found
  · by_cases same : p = q
    · subst same
      simp at found
      exact .inr ⟨rfl,found.symm⟩
    · simp [same] at found
      exact .inl found
  · exact .inl found

theorem touch_data {q : κ} {inode : Inode κ} (other : ∀ p, inode ≠ .service p) :
    (t.touch q).data inode = t.data inode := by
  unfold touch
  split
  · simp [other q]
  · rfl

@[simp] theorem append_nodes (q : κ) (bytes : List β) : (t.append q bytes).nodes = t.nodes := by
  unfold append
  split <;> rfl

theorem append_data {q : κ} {bytes : List β} {inode : Inode κ}
    (other : t.nodes q ≠ some (.file inode)) : (t.append q bytes).data inode = t.data inode := by
  unfold append
  split
  · rename_i other' found
    have ne : inode ≠ other' := fun same => other (same ▸ found)
    simp [ne]
  · rfl

theorem append_prefix (q : κ) (bytes : List β) (inode : Inode κ) :
    t.data inode <+: (t.append q bytes).data inode := by
  by_cases here : t.nodes q = some (.file inode)
  · simp [append,here]
  · rw [append_data t here]

theorem remove_data (q : κ) : (t.remove q).data = t.data := by
  unfold remove
  split <;> rfl

theorem remove_other {q p : κ} (other : p ≠ q) : (t.remove q).nodes p = t.nodes p := by
  unfold remove
  split
  · simp [other]
  · rfl

theorem remove_file (q : κ) (inode : Inode κ) : (t.remove q).nodes q ≠ some (.file inode) := by
  intro found
  unfold remove at found
  split at found
  · simp at found
  · rename_i none
    exact none inode found

end Tree

variable {names : Names κ} {start : Tree κ β} {s : Shelf κ β} {owner : Nat}

namespace Sound

omit [DecidableEq κ]

theorem under_service (sound : Sound names start s) {p : κ} {n : Nat} (named : names.service p) :
    s.tree.nodes p ≠ some (.file (.temp n)) := by
  intro found
  rcases sound.entry p _ found with ⟨c,called,open_⟩ | ⟨l,inside,_,rfl⟩
  · exact names.service_temp named (sound.temps n c p called open_).1
  · exact names.final_service (sound.landings l inside).named named

theorem beside (sound : Sound names start s) {tree : Tree κ β}
    (kept : ∀ p node, s.tree.nodes p = some node → tree.nodes p = some node)
    (entry : ∀ p inode, tree.nodes p = some (.file inode) →
      s.tree.nodes p = some (.file inode) ∨ inode = .service p ∧ names.service p)
    (temps : ∀ n, tree.data (.temp n) = s.tree.data (.temp n))
    (old : ∀ k, s.tree.data (.old k) <+: tree.data (.old k) ∧
      ((∀ p, names.service p → start.nodes p ≠ some (.file (.old k))) →
        tree.data (.old k) = s.tree.data (.old k))) :
    Sound names start { s with tree := tree } where
  kept p node found := kept p node (sound.kept p node found)
  entry p inode found := by
    rcases entry p inode found with before | ⟨rfl,named⟩
    · have held := sound.entry p inode before
      cases inode with
      | old k => exact held
      | service q => exact held
      | temp n => exact held
    · exact ⟨rfl,named⟩
  temps n c p called open_ := by
    obtain ⟨named,there,bytes⟩ := sound.temps n c p called open_
    exact ⟨named,kept p _ there,(temps n).trans bytes⟩
  landings l inside := by
    have stands := sound.landings l inside
    exact ⟨stands.named,stands.new,kept _ _ stands.there,(temps _).trans stands.bytes,
      stands.called⟩
  distinct := sound.distinct
  old k := by
    obtain ⟨grown,same⟩ := sound.old k
    obtain ⟨grows,stays⟩ := old k
    exact ⟨grown.trans grows,fun clear => (stays clear).trans (same clear)⟩

theorem call (sound : Sound names start s) :
    Sound names start { s with calls := s.calls ++ [{ owner := owner }] } where
  kept := sound.kept
  entry p inode found := by
    have held := sound.entry p inode found
    cases inode with
    | old k => exact held
    | service q => exact held
    | temp n =>
      rcases held with ⟨c,called,open_⟩ | landed
      · exact .inl ⟨c,List.getElem?_append_left (List.getElem?_eq_some_iff.mp called).1 ▸ called,
          open_⟩
      · exact .inr landed
  temps n c p called open_ := by
    rcases lt_or_ge n s.calls.length with earlier | later
    · rw [List.getElem?_append_left earlier] at called
      exact sound.temps n c p called open_
    · rw [List.getElem?_append_right later,List.getElem?_singleton] at called
      split at called
      · cases called
        cases open_
      · cases called
  landings l inside := by
    have stands := sound.landings l inside
    obtain ⟨c,called,rest⟩ := stands.called
    have earlier := (List.getElem?_eq_some_iff.mp called).1
    exact ⟨stands.named,stands.new,stands.there,stands.bytes,c,
      (List.getElem?_append_left earlier).trans called,rest⟩
  distinct := sound.distinct
  old := sound.old

private theorem modified {calls : List (Call κ β)} {n m : Nat} {f : Call κ β → Call κ β}
    {c : Call κ β} (called : (calls.modify n f)[m]? = some c) :
    ∃ before, calls[m]? = some before ∧ c = if n = m then f before else before := by
  rw [List.getElem?_modify] at called
  obtain ⟨before,found,rfl⟩ := Option.map_eq_some_iff.mp called
  refine ⟨before,found,?_⟩
  split <;> rfl

private theorem modify_called {calls : List (Call κ β)} {m : Nat} {c : Call κ β} {o : Nat}
    (n : Nat) {f : Call κ β → Call κ β}
    (same : ∀ b, (f b).owner = b.owner ∧ (b.linked = true → (f b).linked = true))
    (called : calls[m]? = some c) (facts : c.owner = o ∧ c.linked = true) :
    ∃ c', (calls.modify n f)[m]? = some c' ∧ c'.owner = o ∧ c'.linked = true := by
  by_cases here : n = m
  · subst here
    refine ⟨f c,by simp [called],?_,(same c).2 facts.2⟩
    exact (same c).1.trans facts.1
  · exact ⟨c,by rw [List.getElem?_modify_ne f calls here,called],facts⟩

variable [DecidableEq κ]

theorem create (sound : Sound names start s) {n : Nat} {path : κ}
    (proper : Proper names s owner (.create n path)) :
    Sound names start (s.perform owner (.create n path)) := by
  obtain ⟨named,free,call,called,owned,closed,blank,unlinked⟩ := proper
  have unlanded : ∀ l ∈ s.landed, l.call ≠ n := by
    rintro l inside rfl
    obtain ⟨c,called',_,linked⟩ := (sound.landings l inside).called
    rw [called] at called'
    cases called'
    simp [unlinked] at linked
  have elsewhere {p : κ} {node : Node κ} (found : s.tree.nodes p = some node) : p ≠ path := by
    rintro rfl
    simp [free] at found
  refine ⟨fun p node found => ?_,fun p inode found => ?_,fun m c p called' open_ => ?_,
    fun l inside => ?_,sound.distinct,fun k => ?_⟩
  · have before := sound.kept p node found
    simpa [Shelf.perform,Tree.create,elsewhere before] using before
  · by_cases here : p = path
    · subst here
      simp only [Shelf.perform,Tree.create,Function.update_self,Option.some.injEq,
        Node.file.injEq] at found
      subst found
      exact .inl ⟨{ call with temp := some p },by simp [Shelf.perform,called],rfl⟩
    · simp only [Shelf.perform,Tree.create,Function.update_of_ne here] at found
      have held := sound.entry p inode found
      cases inode with
      | old k => exact held
      | service q => exact held
      | temp m =>
        rcases held with ⟨c,called',open_⟩ | landed
        · have other : n ≠ m := by
            rintro rfl
            rw [called] at called'
            cases called'
            simp [closed] at open_
          refine .inl ⟨c,?_,open_⟩
          exact (List.getElem?_modify_ne _ _ other).trans called'
        · exact .inr landed
  · obtain ⟨before,called'',rfl⟩ := modified called'
    by_cases same : n = m
    · subst same
      rw [called] at called''
      cases called''
      simp only [if_true,Option.some.injEq] at open_
      subst open_
      exact ⟨named,by simp [Shelf.perform,Tree.create],by simp [Shelf.perform,Tree.create,blank]⟩
    · rw [if_neg same] at open_ ⊢
      obtain ⟨named',there,bytes⟩ := sound.temps m before p called'' open_
      refine ⟨named',?_,?_⟩
      · simpa [Shelf.perform,Tree.create,elsewhere there] using there
      · simpa [Shelf.perform,Tree.create,Ne.symm same] using bytes
  · have stands := sound.landings l inside
    obtain ⟨c,called',facts⟩ := stands.called
    refine ⟨stands.named,stands.new,?_,?_,modify_called n (fun _ => ⟨rfl,id⟩) called' facts⟩
    · simpa [Shelf.perform,Tree.create,elsewhere stands.there] using stands.there
    · simpa [Shelf.perform,Tree.create,unlanded l inside] using stands.bytes
  · simpa [Shelf.perform,Tree.create] using sound.old k

theorem extend (sound : Sound names start s) {n : Nat} {bytes : List β}
    (proper : Proper names s owner (.extend n bytes)) :
    Sound names start (s.perform owner (.extend n bytes)) := by
  obtain ⟨call,called,owned,unlinked⟩ := proper
  refine ⟨sound.kept,fun p inode found => ?_,fun m c p called' open_ => ?_,
    fun l inside => ?_,sound.distinct,fun k => ?_⟩
  · have held := sound.entry p inode found
    cases inode with
    | old k => exact held
    | service q => exact held
    | temp m =>
      rcases held with ⟨c,called',open_⟩ | landed
      · by_cases same : n = m
        · subst same
          exact .inl ⟨{ c with bytes := c.bytes ++ bytes },by simp [Shelf.perform,called'],open_⟩
        · exact .inl ⟨c,(List.getElem?_modify_ne _ _ same).trans called',open_⟩
      · exact .inr landed
  · obtain ⟨before,called'',rfl⟩ := modified called'
    by_cases same : n = m
    · subst same
      simp only [if_true] at open_ ⊢
      obtain ⟨named,there,held⟩ := sound.temps n before p called'' open_
      exact ⟨named,there,by simp [Shelf.perform,Tree.extend,held]⟩
    · rw [if_neg same] at open_ ⊢
      obtain ⟨named,there,held⟩ := sound.temps m before p called'' open_
      exact ⟨named,there,by simpa [Shelf.perform,Tree.extend,Ne.symm same] using held⟩
  · have stands := sound.landings l inside
    obtain ⟨c,called',facts⟩ := stands.called
    have other : l.call ≠ n := by
      rintro rfl
      rw [called] at called'
      cases called'
      simp [unlinked] at facts
    refine ⟨stands.named,stands.new,stands.there,?_,
      modify_called n (fun _ => ⟨rfl,id⟩) called' facts⟩
    simpa [Shelf.perform,Tree.extend,other] using stands.bytes
  · simpa [Shelf.perform,Tree.extend] using sound.old k

theorem link (sound : Sound names start s) {n : Nat} {path : κ}
    (proper : Proper names s owner (.link n path)) :
    Sound names start (s.perform owner (.link n path)) := by
  obtain ⟨named,free,call,called,owned,open_,unlinked⟩ := proper
  have elsewhere {p : κ} {node : Node κ} (found : s.tree.nodes p = some node) : p ≠ path := by
    rintro rfl
    simp [free] at found
  have new : start.nodes path = none := by
    cases before : start.nodes path with
    | none => rfl
    | some node => exact absurd rfl (elsewhere (sound.kept path node before))
  refine ⟨fun p node found => ?_,fun p inode found => ?_,fun m c p called' open' => ?_,
    fun l inside => ?_,?_,fun k => by simpa [Shelf.perform,Tree.link] using sound.old k⟩
  · have before := sound.kept p node found
    simpa [Shelf.perform,Tree.link,elsewhere before] using before
  · by_cases here : p = path
    · subst here
      simp only [Shelf.perform,Tree.link,Function.update_self,Option.some.injEq,
        Node.file.injEq] at found
      subst found
      exact .inr ⟨⟨owner,p,n,s.tree.data (.temp n)⟩,by simp [Shelf.perform],rfl,rfl⟩
    · simp only [Shelf.perform,Tree.link,Function.update_of_ne here] at found
      have held := sound.entry p inode found
      cases inode with
      | old k => exact held
      | service q => exact held
      | temp m =>
        rcases held with ⟨c,called',open'⟩ | ⟨l,inside,facts⟩
        · by_cases same : n = m
          · subst same
            exact .inl ⟨{ c with linked := true },by simp [Shelf.perform,called'],open'⟩
          · exact .inl ⟨c,(List.getElem?_modify_ne _ _ same).trans called',open'⟩
        · exact .inr ⟨l,List.mem_append_left _ inside,facts⟩
  · obtain ⟨before,called'',rfl⟩ := modified called'
    have open'' : before.temp = some p := by split at open' <;> exact open'
    obtain ⟨named',there,held⟩ := sound.temps m before p called'' open''
    refine ⟨named',?_,?_⟩
    · simpa [Shelf.perform,Tree.link,elsewhere there] using there
    · split <;> exact held
  · rcases List.mem_append.mp inside with earlier | this
    · have stands := sound.landings l earlier
      obtain ⟨c,called',facts⟩ := stands.called
      refine ⟨stands.named,stands.new,?_,stands.bytes,
        modify_called n (fun _ => ⟨rfl,fun _ => rfl⟩) called' facts⟩
      simpa [Shelf.perform,Tree.link,elsewhere stands.there] using stands.there
    · obtain rfl := List.mem_singleton.mp this
      refine ⟨named,new,by simp [Shelf.perform,Tree.link],rfl,{ call with linked := true },?_,
        owned,rfl⟩
      simp [Shelf.perform,called]
  · rw [Shelf.perform,List.map_append,List.map_singleton,List.nodup_append]
    refine ⟨sound.distinct,List.nodup_singleton _,?_⟩
    rintro p inside _ this rfl
    obtain rfl := List.mem_singleton.mp this
    obtain ⟨l,earlier,same⟩ := List.mem_map.mp inside
    exact elsewhere (sound.landings l earlier).there same

theorem remove (sound : Sound names start s) (before : Before names start) {n : Nat} {path : κ}
    (proper : Proper names s owner (.remove n path)) :
    Sound names start (s.perform owner (.remove n path)) := by
  obtain ⟨named,call,called,owned,only⟩ := proper
  refine ⟨fun p node found => ?_,fun p inode found => ?_,fun m c p called' open_ => ?_,
    fun l inside => ?_,sound.distinct,fun k => ?_⟩
  · have there := sound.kept p node found
    by_cases here : p = path
    · subst here
      cases node with
      | directory => simp [Shelf.perform,Tree.remove,there]
      | file inode => exact absurd found (before.clear named inode)
    · exact (Tree.remove_other _ here).trans there
  · have other : p ≠ path := fun same => Tree.remove_file s.tree path inode (same ▸ found)
    have there : s.tree.nodes p = some (.file inode) :=
      (Tree.remove_other s.tree other).symm.trans found
    have held := sound.entry p inode there
    cases inode with
    | old k => exact held
    | service q => exact held
    | temp m =>
      rcases held with ⟨c,called',open_⟩ | landed
      · have ne : n ≠ m := by
          rintro rfl
          rw [called] at called'
          cases called'
          exact other (only p open_)
        exact .inl ⟨c,(List.getElem?_modify_ne _ _ ne).trans called',open_⟩
      · exact .inr landed
  · obtain ⟨earlier,called'',rfl⟩ := modified called'
    by_cases same : n = m
    · simp [same] at open_
    · rw [if_neg same] at open_ ⊢
      obtain ⟨named',there,bytes⟩ := sound.temps m earlier p called'' open_
      have other : p ≠ path := by
        rintro rfl
        exact same (names.temp_call named named')
      refine ⟨named',(Tree.remove_other _ other).trans there,?_⟩
      rw [Shelf.perform,Tree.remove_data]
      exact bytes
  · have stands := sound.landings l inside
    obtain ⟨c,called',facts⟩ := stands.called
    have other : l.path ≠ path := by
      rintro rfl
      exact names.final_temp stands.named named
    refine ⟨stands.named,stands.new,(Tree.remove_other _ other).trans stands.there,?_,
      modify_called n (fun _ => ⟨rfl,id⟩) called' facts⟩
    rw [Shelf.perform,Tree.remove_data]
    exact stands.bytes
  · rw [Shelf.perform,Tree.remove_data]
    exact sound.old k

theorem append (sound : Sound names start s) {path : κ} (named : names.service path)
    (bytes : List β) : Sound names start { s with tree := s.tree.append path bytes } := by
  refine sound.beside (fun p node found => by simpa using found)
    (fun p inode found => .inl (by simpa using found))
    (fun n => s.tree.append_data (sound.under_service named)) fun k => ?_
  refine ⟨s.tree.append_prefix path bytes _,fun clear => s.tree.append_data fun found => ?_⟩
  exact clear path named (sound.entry path _ found)

theorem perform (sound : Sound names start s) (before : Before names start) (change : Change κ β)
    (proper : Proper names s owner change) : Sound names start (s.perform owner change) := by
  cases change with
  | still => exact sound
  | folders paths =>
    refine sound.beside (fun p node => s.tree.makeFolders_kept)
      (fun p inode found => .inl ((s.tree.makeFolders_file paths p inode).mp found))
      (fun _ => rfl) fun k => ⟨List.prefix_rfl,fun _ => rfl⟩
  | touch path =>
    refine sound.beside (fun p node => s.tree.touch_kept) (fun p inode found => ?_)
      (fun n => s.tree.touch_data (by simp)) fun k => ?_
    · rcases s.tree.touch_file found with there | ⟨rfl,made⟩
      · exact .inl there
      · exact .inr ⟨made,proper⟩
    · rw [s.tree.touch_data (by simp)]
      exact ⟨List.prefix_rfl,fun _ => rfl⟩
  | append path bytes => exact sound.append proper bytes
  | call => exact sound.call
  | create n path => exact sound.create proper
  | extend n bytes => exact sound.extend proper
  | link n path => exact sound.link proper
  | remove n path => exact sound.remove before proper

end Sound

omit [DecidableEq κ] in
private theorem modify_others {calls : List (Call κ β)} {n m : Nat} {f : Call κ β → Call κ β}
    {owner : Nat} {c : Call κ β} (same : ∀ b, (f b).owner = b.owner)
    (owned : ∃ b, calls[n]? = some b ∧ b.owner = owner) (other : c.owner ≠ owner) :
    (calls.modify n f)[m]? = some c ↔ calls[m]? = some c := by
  obtain ⟨b,called,rfl⟩ := owned
  by_cases here : n = m
  · subst here
    simp only [List.getElem?_modify_eq,called,Option.map_eq_map,Option.map_some,Option.some.injEq]
    constructor
    · rintro rfl
      exact absurd (same b) other
    · rintro rfl
      exact absurd rfl other
  · rw [List.getElem?_modify_ne f calls here]

theorem Shelf.perform_calls {change : Change κ β} (proper : Proper names s owner change) {n : Nat}
    {c : Call κ β} (other : c.owner ≠ owner) :
    (s.perform owner change).calls[n]? = some c ↔ s.calls[n]? = some c := by
  cases change with
  | still => rfl
  | folders paths => rfl
  | touch path => rfl
  | append path bytes => rfl
  | call =>
    rcases lt_or_ge n s.calls.length with earlier | later
    · rw [Shelf.perform,List.getElem?_append_left earlier]
    · rw [Shelf.perform,List.getElem?_append_right later,List.getElem?_singleton,
        List.getElem?_eq_none later]
      split
      · constructor
        · intro called
          cases called
          exact absurd rfl other
        · nofun
      · rfl
  | create m path =>
    obtain ⟨_,_,b,called,owned,_⟩ := proper
    exact modify_others (fun _ => rfl) ⟨b,called,owned⟩ other
  | extend m bytes =>
    obtain ⟨b,called,owned,_⟩ := proper
    exact modify_others (fun _ => rfl) ⟨b,called,owned⟩ other
  | link m path =>
    obtain ⟨_,_,b,called,owned,_⟩ := proper
    exact modify_others (fun _ => rfl) ⟨b,called,owned⟩ other
  | remove m path =>
    obtain ⟨_,b,called,owned,_⟩ := proper
    exact modify_others (fun _ => rfl) ⟨b,called,owned⟩ other

theorem Shelf.perform_service {change : Change κ β} {p q : κ}
    (found : (s.perform owner change).tree.nodes p = some (.file (.service q))) :
    s.tree.nodes p = some (.file (.service q)) ∨ change = .touch p := by
  cases change with
  | still => exact .inl found
  | folders paths => exact .inl ((s.tree.makeFolders_file paths p _).mp found)
  | touch path =>
    rcases s.tree.touch_file found with there | ⟨rfl,_⟩
    · exact .inl there
    · exact .inr rfl
  | append path bytes => exact .inl (by simpa [Shelf.perform] using found)
  | call => exact .inl found
  | create n path =>
    by_cases here : p = path
    · simp [Shelf.perform,Tree.create,here] at found
    · exact .inl (by simpa [Shelf.perform,Tree.create,here] using found)
  | extend n bytes => exact .inl found
  | link n path =>
    by_cases here : p = path
    · simp [Shelf.perform,Tree.link,here] at found
    · exact .inl (by simpa [Shelf.perform,Tree.link,here] using found)
  | remove n path =>
    by_cases here : p = path
    · subst here
      exact absurd found (s.tree.remove_file p _)
    · exact .inl ((s.tree.remove_other here).symm.trans found)

def Shelf.landings (s : Shelf κ β) (owner : Nat) : List (Landing κ β) :=
  s.landed.filter (·.owner = owner)

theorem Shelf.perform_landings (change : Change κ β) {other : Nat} (ne : other ≠ owner) :
    (s.perform owner change).landings other = s.landings other := by
  cases change <;> simp [Shelf.perform,Shelf.landings,Ne.symm ne]

omit [DecidableEq κ] in
theorem Shelf.mem_landings {l : Landing κ β} :
    l ∈ s.landings owner ↔ l ∈ s.landed ∧ l.owner = owner := by
  simp [Shelf.landings]

def Tree.of (nodes : κ → Option (Option Nat)) (bytes : Nat → List β) : Tree κ β where
  nodes p := (nodes p).map fun
    | none => .directory
    | some k => .file (.old k)
  data
    | .old k => bytes k
    | _ => []

end Publication
