import Dinkster.Lib.Dict

/-! Passes over cells that are filled one after the other, each by a rule that reads the others,
until a pass changes nothing. Where filling a cell disturbs no cell that has its value, as many
passes as cells end in a solution of the rules. -/
namespace Passes

variable {α β γ : Type*} [DecidableEq α]

section
variable (rule : Dict α β → α × γ → Option β)

def Solves (cells : List (α × γ)) (held : Dict α β) : Prop :=
  ∀ cell ∈ cells, held.get? cell.1 = rule held cell

structure Stable (cells : Dict α γ) (held : Dict α β) : Prop where
  within : ∀ k ∈ held.keys, k ∈ cells.keys
  given : ∀ cell ∈ cells.entries, ∀ value, held.get? cell.1 = some value →
    rule held cell = some value

/-- Filling an empty cell by its rule leaves what the rules give as it is. -/
def Steady (cells : Dict α γ) : Prop :=
  ∀ held, Stable rule cells held → ∀ cell ∈ cells.entries, ∀ value, held.get? cell.1 = none →
    rule held cell = some value → ∀ other ∈ cells.entries, ∀ w, rule held other = some w →
      rule (held.set cell.1 value) other = some w

end

variable {rule : Dict α β → α × γ → Option β} {cells : Dict α γ}

theorem Stable.empty : Stable rule cells (Dict.empty : Dict α β) :=
  ⟨fun _ inside => absurd inside List.not_mem_nil,nofun⟩

theorem Stable.fill {held : Dict α β} (stable : Stable rule cells held)
    (steady : Steady rule cells) {cell : α × γ} (inside : cell ∈ cells.entries) {value : β}
    (given : rule held cell = some value) (free : held.get? cell.1 = none) :
    Stable rule cells (held.set cell.1 value) := by
  constructor
  · intro k found
    rcases (Dict.mem_keys_set held cell.1 k value).mp found with rfl | old
    · exact List.mem_map_of_mem inside
    · exact stable.within k old
  · intro other member w found
    refine steady held stable cell inside value free given other member w ?_
    by_cases same : other.1 = cell.1
    · obtain rfl := List.inj_on_of_nodup_map cells.distinct member inside same
      rw [Dict.get?_set_self] at found
      exact given.trans found
    · rw [Dict.get?_set_ne held value same] at found
      exact stable.given other member w found

theorem Stable.full {held : Dict α β} (stable : Stable rule cells held)
    (many : cells.keys.length ≤ held.keys.length) : Solves rule cells.entries held := by
  have whole : held.keys.Perm cells.keys :=
    (List.subperm_of_subset held.distinct stable.within).perm_of_length_le many
  intro cell inside
  obtain ⟨value,found⟩ := (Dict.mem_keys_iff held cell.1).mp
    (whole.mem_iff.mpr (List.mem_map_of_mem inside))
  exact found.trans (stable.given cell inside value found).symm

private theorem length_keys_set {held : Dict α β} {k : α} (value : β) (free : held.get? k = none) :
    (held.set k value).keys.length = held.keys.length + 1 := by
  have fresh := (Dict.get?_eq_none_iff held k).mp free
  rw [Dict.keys,Dict.entries_set_fresh value fresh,List.map_append,List.length_append,Dict.keys,
    List.length_map,List.length_map]
  rfl

/-- What the cells hold, and whether the pass has changed it. -/
structure State (α β : Type*) where
  held : Dict α β
  changed : Bool

structure Passed (rule : Dict α β → α × γ → Option β) (cells : Dict α γ) (visited : List (α × γ))
    (before after : State α β) : Prop where
  stable : Stable rule cells after.held
  idle : after.changed = false → after = before ∧ Solves rule visited before.held
  fuller : after.changed = true →
    (before.changed = true ∧ before.held.keys.length ≤ after.held.keys.length) ∨
      before.held.keys.length < after.held.keys.length

variable [DecidableEq β]

def visit (rule : Dict α β → α × γ → Option β) (s : State α β) (cell : α × γ) : State α β :=
  match rule s.held cell with
  | none => s
  | some value =>
    if s.held.get? cell.1 = some value then s else ⟨s.held.set cell.1 value,true⟩

def pass (rule : Dict α β → α × γ → Option β) (cells : Dict α γ) (held : Dict α β) : State α β :=
  cells.entries.foldl (visit rule) ⟨held,false⟩

def passes (rule : Dict α β → α × γ → Option β) (cells : Dict α γ) : Nat → Dict α β → Dict α β
  | 0,held => held
  | n + 1,held =>
    let s := pass rule cells held
    if s.changed then passes rule cells n s.held else s.held

theorem Stable.visit {s : State α β} {cell : α × γ} (stable : Stable rule cells s.held)
    (inside : cell ∈ cells.entries) :
    (Passes.visit rule s cell = s ∧ s.held.get? cell.1 = rule s.held cell) ∨
    ∃ value, rule s.held cell = some value ∧ s.held.get? cell.1 = none ∧
      Passes.visit rule s cell = ⟨s.held.set cell.1 value,true⟩ := by
  unfold Passes.visit
  cases given : rule s.held cell with
  | none =>
    refine .inl ⟨rfl,?_⟩
    cases found : s.held.get? cell.1 with
    | none => rfl
    | some value => exact (given.symm.trans (stable.given cell inside value found)).symm
  | some value =>
    simp only
    split
    · rename_i found
      exact .inl ⟨rfl,found⟩
    · rename_i other
      refine .inr ⟨value,rfl,?_,rfl⟩
      cases found : s.held.get? cell.1 with
      | none => rfl
      | some old =>
        have same := given.symm.trans (stable.given cell inside old found)
        exact absurd (found.trans same.symm) other

theorem Stable.pass (steady : Steady rule cells) {visited : List (α × γ)}
    (sub : ∀ cell ∈ visited, cell ∈ cells.entries) {s : State α β}
    (stable : Stable rule cells s.held) :
    Passed rule cells visited s (visited.foldl (Passes.visit rule) s) := by
  induction visited generalizing s with
  | nil => exact ⟨stable,fun _ => ⟨rfl,nofun⟩,fun changed => .inl ⟨changed,Nat.le_refl _⟩⟩
  | cons cell rest ih =>
    have inside := sub cell List.mem_cons_self
    have others := fun c member => sub c (List.mem_cons_of_mem cell member)
    rw [List.foldl_cons]
    rcases stable.visit inside with ⟨same,settled⟩ | ⟨value,given,free,filled⟩
    · rw [same]
      obtain ⟨kept,idle,fuller⟩ := ih others stable
      refine ⟨kept,fun quiet => ?_,fuller⟩
      obtain ⟨unchanged,solved⟩ := idle quiet
      exact ⟨unchanged,List.forall_mem_cons.mpr ⟨settled,solved⟩⟩
    · rw [filled]
      have grown := length_keys_set value free
      obtain ⟨kept,idle,fuller⟩ := ih (s := ⟨s.held.set cell.1 value,true⟩) others
        (stable.fill steady inside given free)
      refine ⟨kept,fun quiet => ?_,fun changed => .inr ?_⟩
      · have flagged := congrArg State.changed (idle quiet).1
        rw [quiet] at flagged
        cases flagged
      · simp only [grown] at fuller
        rcases fuller changed with ⟨-,atLeast⟩ | more <;> omega

theorem passes_solve (steady : Steady rule cells) {n : Nat} {held : Dict α β}
    (stable : Stable rule cells held) (enough : cells.keys.length ≤ held.keys.length + n) :
    Stable rule cells (passes rule cells n held) ∧
      Solves rule cells.entries (passes rule cells n held) := by
  induction n generalizing held with
  | zero => exact ⟨stable,stable.full enough⟩
  | succ n ih =>
    have passed : Passed rule cells cells.entries ⟨held,false⟩ (pass rule cells held) :=
      stable.pass steady fun _ inside => inside
    rw [passes]
    by_cases changed : (pass rule cells held).changed = true
    · rw [if_pos changed]
      rcases passed.fuller changed with ⟨before,-⟩ | more
      · cases before
      · exact ih passed.stable (by simp only at more; omega)
    · rw [if_neg changed]
      obtain ⟨same,solved⟩ := passed.idle (Bool.eq_false_iff.mpr changed)
      rw [same]
      exact ⟨stable,solved⟩

end Passes
