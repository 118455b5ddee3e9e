import Mathlib.Data.List.Basic
import Mathlib.Logic.Relation
import Mathlib.Tactic.Linarith

/-! Directed graphs given by successor lists: a worklist search for a goal, a depth
first search for a cycle, and what the absence of a result says about paths. -/
namespace Digraph
open Relation

variable {α : Type*}

/-- The edges of a successor function. -/
def Edge (next : α → List α) (a b : α) : Prop := b ∈ next a

/-- No node comes back to itself. -/
def Acyclic (r : α → α → Prop) : Prop := ∀ a, ¬ TransGen r a a

theorem Acyclic.mono {r r' : α → α → Prop} (acyclic : Acyclic r) (sub : ∀ a b, r' a b → r a b) :
    Acyclic r' := fun a cycle => acyclic a (TransGen.mono sub a a cycle)

theorem Acyclic.exists_source {r : α → α → Prop} (acyclic : Acyclic r) {l : List α}
    (some : l ≠ []) : ∃ a ∈ l, ∀ b ∈ l, ¬ TransGen r b a := by
  induction l with
  | nil => exact absurd rfl some
  | cons x xs ih =>
    by_cases last : xs = []
    · subst last
      refine ⟨x,List.mem_cons_self,fun b inside => ?_⟩
      rw [List.mem_singleton.mp inside]
      exact acyclic x
    · obtain ⟨a,inside,source⟩ := ih last
      by_cases above : TransGen r x a
      · refine ⟨x,List.mem_cons_self,fun b member path => ?_⟩
        rcases List.mem_cons.mp member with rfl | later
        · exact acyclic b path
        · exact source b later (path.trans above)
      · refine ⟨a,List.mem_cons_of_mem _ inside,fun b member => ?_⟩
        rcases List.mem_cons.mp member with rfl | later
        · exact above
        · exact source b later

theorem Acyclic.induction {r : α → α → Prop} (acyclic : Acyclic r) {l : List α}
    (listed : ∀ a b, r a b → a ∈ l) {P : α → Prop} (step : ∀ a, (∀ b, r a b → P b) → P a) :
    ∀ a, P a := by
  classical
  by_contra fails
  obtain ⟨n,bad⟩ := not_forall.mp fails
  have deeper : ∀ a, ¬ P a → ∃ b, r a b ∧ ¬ P b := by
    intro a bad
    by_contra none
    exact bad (step a fun b edge => by_contra fun worse => none ⟨b,edge,worse⟩)
  have among : ∀ a, ¬ P a → a ∈ l.filter fun a => ¬ P a := by
    intro a bad
    obtain ⟨b,edge,-⟩ := deeper a bad
    exact List.mem_filter.mpr ⟨listed a b edge,decide_eq_true bad⟩
  have reversed : Acyclic fun a b => r b a := fun a cycle => acyclic a (transGen_swap.mp cycle)
  obtain ⟨a,inside,source⟩ := reversed.exists_source (List.ne_nil_of_mem (among n bad))
  obtain ⟨b,edge,worse⟩ := deeper a (of_decide_eq_true (List.mem_filter.mp inside).2)
  exact source b (among b worse) (.single edge)

theorem stays {r : α → α → Prop} (inside : α → Prop) (closed : ∀ a b, inside a → r a b → inside b)
    {a b : α} (start : inside a) (path : ReflTransGen r a b) : inside b := by
  induction path with
  | refl => exact start
  | tail _ step ih => exact closed _ _ ih step

variable [DecidableEq α]

def remaining (next : α → List α) (known visited : List α) : Nat :=
  ((known.filter (· ∉ visited)).map fun u => 1 + (next u).length).sum

theorem remaining_visit (next : α → List α) (known visited : List α) (n : α) :
    remaining next known (n :: visited) ≤ remaining next known visited := by
  induction known with
  | nil => exact Nat.le_refl _
  | cons u known ih =>
    simp only [remaining,List.filter_cons,List.mem_cons] at ih ⊢
    by_cases seen : u ∈ visited
    · simpa [seen] using ih
    · by_cases same : u = n
      · simp only [same] at seen ⊢
        simp only [true_or,not_true,decide_false,seen,not_false_eq_true,decide_true]
        simp only [if_true,List.map_cons,List.sum_cons]
        simp only [Bool.false_eq_true,if_false]
        omega
      · simp only [same,seen,or_self,not_false_eq_true,decide_true,if_true,List.map_cons,
          List.sum_cons]
        omega

theorem remaining_expand (next : α → List α) (known visited : List α) (n : α) (member : n ∈ known)
    (fresh : n ∉ visited) :
    remaining next known (n :: visited) + (1 + (next n).length) ≤ remaining next known visited := by
  induction known with
  | nil => cases member
  | cons u known ih =>
    have smaller := remaining_visit next known visited n
    by_cases same : u = n
    · subst same
      simp only [remaining,List.filter_cons,List.mem_cons,true_or,not_true,decide_false,fresh,
        not_false_eq_true,decide_true,if_true,List.map_cons,List.sum_cons] at smaller ⊢
      simp only [Bool.false_eq_true,if_false]
      omega
    · have inner := ih (by simpa [Ne.symm same] using member)
      simp only [remaining,List.filter_cons,List.mem_cons] at inner ⊢
      by_cases seen : u ∈ visited
      · simpa [seen] using inner
      · simp only [same,seen,or_self,not_false_eq_true,decide_true,if_true,List.map_cons,
          List.sum_cons]
        omega

/-- The nodes of `known` that the pending ones lead to, added to the visited ones. -/
def collect (next : α → List α) (known : List α) (pending visited : List α) : List α :=
  match pending with
  | [] => visited
  | n :: pending =>
    if n ∈ visited then collect next known pending visited
    else if n ∈ known then collect next known ((next n).reverse ++ pending) (n :: visited)
    else collect next known pending visited
termination_by pending.length + remaining next known visited
decreasing_by
  · simp
  · have smaller := remaining_expand next known visited n ‹_› ‹_›
    simp only [List.length_append,List.length_reverse,List.length_cons]
    omega
  · simp

/-- The edges between nodes of `known`. -/
def InnerEdge (next : α → List α) (known : List α) (a b : α) : Prop := b ∈ next a ∧ b ∈ known

private theorem collect_sound (next : α → List α) (known : List α) (P : α → Prop)
    (steps : ∀ a b, P a → InnerEdge next known a b → P b) (pending visited : List α)
    (begins : ∀ a ∈ pending, a ∈ known → P a) (old : ∀ a ∈ visited, P a) :
    ∀ a ∈ collect next known pending visited, P a := by
  induction pending,visited using collect.induct next known with
  | case1 visited =>
    rw [collect]
    exact old
  | case2 visited n pending seen ih =>
    rw [collect,if_pos seen]
    exact ih (fun a inside => begins a (List.mem_cons_of_mem _ inside)) old
  | case3 visited n pending fresh member ih =>
    rw [collect,if_neg fresh,if_pos member]
    have here := begins n List.mem_cons_self member
    refine ih (fun a inside present => ?_) (fun a inside => ?_)
    · rcases List.mem_append.mp inside with found | later
      · exact steps n a here ⟨List.mem_reverse.mp found,present⟩
      · exact begins a (List.mem_cons_of_mem _ later) present
    · rcases List.mem_cons.mp inside with rfl | earlier
      · exact here
      · exact old a earlier
  | case4 visited n pending fresh unknown ih =>
    rw [collect,if_neg fresh,if_neg unknown]
    exact ih (fun a inside => begins a (List.mem_cons_of_mem _ inside)) old

private theorem collect_complete (next : α → List α) (known : List α) (pending visited : List α)
    (closed : ∀ a ∈ visited, ∀ b, InnerEdge next known a b → b ∈ visited ∨ b ∈ pending) :
    (∀ a ∈ visited, a ∈ collect next known pending visited) ∧
      (∀ a ∈ pending, a ∈ known → a ∈ collect next known pending visited) ∧
      ∀ a ∈ collect next known pending visited, ∀ b, InnerEdge next known a b →
        b ∈ collect next known pending visited := by
  induction pending,visited using collect.induct next known with
  | case1 visited =>
    rw [collect]
    refine ⟨fun a inside => inside,fun a inside => absurd inside List.not_mem_nil,
      fun a inside b edge => ?_⟩
    rcases closed a inside b edge with old | pending
    · exact old
    · cases pending
  | case2 visited n pending seen ih =>
    rw [collect,if_pos seen]
    obtain ⟨old,later,steps⟩ := ih fun a inside b edge => by
      rcases closed a inside b edge with before | pending
      · exact .inl before
      · rcases List.mem_cons.mp pending with rfl | rest
        · exact .inl seen
        · exact .inr rest
    refine ⟨old,fun a inside present => ?_,steps⟩
    rcases List.mem_cons.mp inside with rfl | rest
    · exact old _ seen
    · exact later a rest present
  | case3 visited n pending fresh member ih =>
    rw [collect,if_neg fresh,if_pos member]
    obtain ⟨old,later,steps⟩ := ih fun a inside b edge => by
      rw [List.mem_append,List.mem_reverse]
      rcases List.mem_cons.mp inside with rfl | earlier
      · exact .inr (.inl edge.1)
      · rcases closed a earlier b edge with before | pending
        · exact .inl (List.mem_cons_of_mem _ before)
        · rcases List.mem_cons.mp pending with rfl | rest
          · exact .inl List.mem_cons_self
          · exact .inr (.inr rest)
    refine ⟨fun a inside => old a (List.mem_cons_of_mem _ inside),fun a inside present => ?_,steps⟩
    rcases List.mem_cons.mp inside with rfl | rest
    · exact old _ List.mem_cons_self
    · exact later a (List.mem_append_right _ rest) present
  | case4 visited n pending fresh unknown ih =>
    rw [collect,if_neg fresh,if_neg unknown]
    obtain ⟨old,later,steps⟩ := ih fun a inside b edge => by
      rcases closed a inside b edge with before | pending
      · exact .inl before
      · rcases List.mem_cons.mp pending with rfl | rest
        · exact absurd edge.2 unknown
        · exact .inr rest
    refine ⟨old,fun a inside present => ?_,steps⟩
    rcases List.mem_cons.mp inside with rfl | rest
    · exact absurd present unknown
    · exact later a rest present

private theorem collect_nodup (next : α → List α) (known : List α) (pending visited : List α)
    (distinct : visited.Nodup) : (collect next known pending visited).Nodup := by
  induction pending,visited using collect.induct next known with
  | case1 visited =>
    rw [collect]
    exact distinct
  | case2 visited n pending seen ih =>
    rw [collect,if_pos seen]
    exact ih distinct
  | case3 visited n pending fresh member ih =>
    rw [collect,if_neg fresh,if_pos member]
    exact ih (List.nodup_cons.mpr ⟨fresh,distinct⟩)
  | case4 visited n pending fresh unknown ih =>
    rw [collect,if_neg fresh,if_neg unknown]
    exact ih distinct

theorem nodup_collect (next : α → List α) (known seeds : List α) :
    (collect next known seeds []).Nodup := collect_nodup next known seeds [] .nil

theorem mem_collect {next : α → List α} {known seeds : List α} {a : α} :
    a ∈ collect next known seeds [] ↔
      ∃ s ∈ seeds, s ∈ known ∧ ReflTransGen (InnerEdge next known) s a := by
  constructor
  · refine collect_sound next known (fun a => ∃ s ∈ seeds, s ∈ known ∧
      ReflTransGen (InnerEdge next known) s a) ?_ seeds [] ?_ ?_ a
    · rintro a b ⟨s,seed,present,path⟩ edge
      exact ⟨s,seed,present,path.tail edge⟩
    · intro a inside present
      exact ⟨a,inside,present,.refl⟩
    · intro a inside
      cases inside
  · rintro ⟨s,seed,present,path⟩
    obtain ⟨-,begins,steps⟩ := collect_complete next known seeds [] fun a inside => by
      cases inside
    exact stays (· ∈ collect next known seeds []) (fun a b inside edge => steps a inside b edge)
      (begins s seed present) path

section
omit [DecidableEq α]

def Clear (stops : α → Prop) (r : α → α → Prop) (a b : α) : Prop :=
  ∃ c, r a c ∧ ReflTransGen (fun x y => ¬ stops x ∧ r x y) c b

variable {stops : α → Prop} {r : α → α → Prop} {a b : α}

theorem Clear.path (clear : Clear stops r a b) : TransGen r a b := by
  obtain ⟨c,first,rest⟩ := clear
  exact .head' first (ReflTransGen.mono (fun _ _ step => step.2) c b rest)

theorem Clear.head {m : α} (first : r a m) (open' : ¬ stops m) (clear : Clear stops r m b) :
    Clear stops r a b := by
  obtain ⟨c,second,rest⟩ := clear
  exact ⟨m,first,.head ⟨open',second⟩ rest⟩

theorem Clear.tail {m : α} (clear : Clear stops r a m) (open' : ¬ stops m) (last : r m b) :
    Clear stops r a b := by
  obtain ⟨c,first,rest⟩ := clear
  exact ⟨c,first,rest.tail ⟨open',last⟩⟩

theorem first_stop (stops : α → Prop) (path : TransGen r a b) (last : stops b) :
    ∃ c, stops c ∧ Clear stops r a c ∧ ReflTransGen r c b := by
  induction path using TransGen.head_induction_on with
  | single step => exact ⟨b,last,⟨b,step,.refl⟩,.refl⟩
  | head step rest ih =>
    rename_i x m
    by_cases here : stops m
    · exact ⟨m,here,⟨m,step,.refl⟩,rest.to_reflTransGen⟩
    · obtain ⟨c,stop,clear,after⟩ := ih
      exact ⟨c,stop,clear.head step here,after⟩

theorem chain_of_stops (stops : α → Prop) (path : TransGen r a b) (last : stops b) :
    ∃ c, stops c ∧ Clear stops r a c ∧
      ReflTransGen (fun x y => stops y ∧ Clear stops r x y) c b := by
  induction path using TransGen.head_induction_on with
  | single step => exact ⟨b,last,⟨b,step,.refl⟩,.refl⟩
  | head step rest ih =>
    rename_i x m
    obtain ⟨c,stop,clear,chain⟩ := ih
    by_cases here : stops m
    · exact ⟨m,here,⟨m,step,.refl⟩,.head ⟨stop,clear⟩ chain⟩
    · exact ⟨c,stop,clear.head step here,chain⟩

theorem Clear.avoids {e : α} (clear : Clear stops r a b) (stop : stops e) (other : b ≠ e) :
    TransGen (fun x y => r x y ∧ y ≠ e) a b := by
  obtain ⟨c,first,rest⟩ := clear
  have later : c ≠ e ∧ ReflTransGen (fun x y => r x y ∧ y ≠ e) c b := by
    clear first
    induction rest using ReflTransGen.head_induction_on with
    | refl => exact ⟨other,.refl⟩
    | head step rest ih => exact ⟨fun same => step.1 (same ▸ stop),.head ⟨step.2,ih.1⟩ ih.2⟩
  exact .head' ⟨first,later.1⟩ later.2

theorem avoids_of_unreached {e : α} (path : TransGen r a b) (unreached : ¬ ReflTransGen r e b) :
    TransGen (fun x y => r x y ∧ y ≠ e) a b := by
  induction path using TransGen.head_induction_on with
  | single step => exact .single ⟨step,fun same => unreached (same ▸ .refl)⟩
  | head step rest ih =>
    exact .head ⟨step,fun same => unreached (same ▸ rest.to_reflTransGen)⟩ ih

theorem clear_of_avoids {e : α} (stops : α → Prop) (only : ∀ y, stops y → Clear stops r a y → y = e)
    (path : TransGen (fun x y => r x y ∧ y ≠ e) a b) : Clear stops r a b ∧ ¬ stops b := by
  induction path with
  | single step => exact ⟨⟨_,step.1,.refl⟩,fun stop => step.2 (only _ stop ⟨_,step.1,.refl⟩)⟩
  | tail _ step ih =>
    have clear := ih.1.tail ih.2 step.1
    exact ⟨clear,fun stop => step.2 (only _ stop clear)⟩

end

end Digraph
