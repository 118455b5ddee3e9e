import Dinkster.Lib.Digraph
import Mathlib.Data.List.Induction
import Mathlib.Data.List.Lex

/-! Orders in which every node comes after what it needs, and the one of them that always takes
the least node it can. -/
namespace Topological
open Relation

variable {α : Type*} (nodes : List α) (needs : α → List α)

def Ready (done : List α) (n : α) : Prop := n ∈ nodes ∧ n ∉ done ∧ ∀ d ∈ needs n, d ∈ done

def Ordered : List α → List α → Prop
  | _,[] => True
  | done,n :: rest => Ready nodes needs done n ∧ Ordered (done ++ [n]) rest

/-- An order of all the nodes. -/
structure Order (order : List α) : Prop where
  ordered : Ordered nodes needs [] order
  complete : ∀ n ∈ nodes, n ∈ order

variable {nodes needs} {done order : List α}

theorem Ordered.fresh (ordered : Ordered nodes needs done order) :
    order.Nodup ∧ ∀ n ∈ order, n ∈ nodes ∧ n ∉ done := by
  induction order generalizing done with
  | nil => exact ⟨.nil,nofun⟩
  | cons n rest ih =>
    obtain ⟨distinct,later⟩ := ih ordered.2
    refine ⟨List.nodup_cons.mpr ⟨fun again => ?_,distinct⟩,fun m inside => ?_⟩
    · exact (later n again).2 (List.mem_append_right _ List.mem_cons_self)
    · rcases List.mem_cons.mp inside with rfl | inside
      · exact ⟨ordered.1.1,ordered.1.2.1⟩
      · exact ⟨(later m inside).1,fun old => (later m inside).2 (List.mem_append_left _ old)⟩

theorem Order.nodup (o : Order nodes needs order) : order.Nodup := o.ordered.fresh.1

theorem Order.mem_iff (o : Order nodes needs order) {n : α} : n ∈ order ↔ n ∈ nodes :=
  ⟨fun inside => (o.ordered.fresh.2 n inside).1,o.complete n⟩

theorem Ordered.congr {nodes' : List α} {needs' : α → List α}
    (ordered : Ordered nodes needs done order) (same : ∀ n, n ∈ nodes ↔ n ∈ nodes')
    (alike : ∀ n ∈ nodes, ∀ d, d ∈ needs n ↔ d ∈ needs' n) : Ordered nodes' needs' done order := by
  induction order generalizing done with
  | nil => trivial
  | cons n rest ih =>
    obtain ⟨⟨inside,new,met⟩,later⟩ := ordered
    exact ⟨⟨(same n).mp inside,new,fun d needed => met d ((alike n inside d).mpr needed)⟩,ih later⟩

theorem Order.congr {nodes' : List α} {needs' : α → List α} (o : Order nodes needs order)
    (same : ∀ n, n ∈ nodes ↔ n ∈ nodes') (alike : ∀ n ∈ nodes, ∀ d, d ∈ needs n ↔ d ∈ needs' n) :
    Order nodes' needs' order :=
  ⟨o.ordered.congr same alike,fun n inside => o.complete n ((same n).mpr inside)⟩

theorem Ordered.before {front rest : List α} {n : α}
    (ordered : Ordered nodes needs done (front ++ n :: rest)) :
    ∀ d ∈ needs n, d ∈ done ∨ d ∈ front := by
  induction front generalizing done with
  | nil => exact fun d inside => .inl (ordered.1.2.2 d inside)
  | cons m front ih =>
    intro d inside
    rcases ih ordered.2 d inside with old | earlier
    · rcases List.mem_append.mp old with old | here
      · exact .inl old
      · rw [List.mem_singleton.mp here]
        exact .inr List.mem_cons_self
    · exact .inr (List.mem_cons_of_mem _ earlier)

theorem Order.induction (o : Order nodes needs order) {P : α → Prop}
    (step : ∀ n ∈ nodes, (∀ d ∈ needs n, P d) → P n) : ∀ n ∈ nodes, P n := by
  suffices every : ∀ front rest, order = front ++ rest → ∀ n ∈ front, P n by
    intro n inside
    exact every order [] (List.append_nil _).symm n (o.complete n inside)
  intro front
  induction front using List.reverseRecOn with
  | nil => nofun
  | append_singleton front n ih =>
    intro rest split m inside
    rw [List.append_assoc,List.singleton_append] at split
    rcases List.mem_append.mp inside with earlier | here
    · exact ih _ split m earlier
    · obtain rfl := List.mem_singleton.mp here
      have listed : m ∈ order := split ▸ List.mem_append_right _ List.mem_cons_self
      refine step m (o.mem_iff.mp listed) fun d needed => ?_
      rcases (split ▸ o.ordered : Ordered nodes needs [] (front ++ m :: rest)).before d needed
        with none | earlier
      · cases none
      · exact ih _ split d earlier

variable [LinearOrder α]

def Greedy (nodes : List α) (needs : α → List α) : List α → List α → Prop
  | done,[] => ∀ n, ¬ Ready nodes needs done n
  | done,n :: rest => (Ready nodes needs done n ∧ ∀ m, Ready nodes needs done m → n ≤ m) ∧
      Greedy nodes needs (done ++ [n]) rest

theorem Greedy.ordered (greedy : Greedy nodes needs done order) :
    Ordered nodes needs done order := by
  induction order generalizing done with
  | nil => trivial
  | cons n rest ih => exact ⟨greedy.1.1,ih greedy.2⟩

theorem Greedy.unique {other : List α} (greedy : Greedy nodes needs done order)
    (greedy' : Greedy nodes needs done other) : order = other := by
  induction order generalizing done other with
  | nil =>
    cases other with
    | nil => rfl
    | cons m others => exact absurd greedy'.1.1 (greedy m)
  | cons n rest ih =>
    cases other with
    | nil => exact absurd greedy.1.1 (greedy' n)
    | cons m others =>
      obtain rfl : n = m :=
        le_antisymm (greedy.1.2 m greedy'.1.1) (greedy'.1.2 n greedy.1.1)
      rw [ih greedy.2 greedy'.2]

theorem Greedy.exhausted (greedy : Greedy nodes needs done order) :
    ∀ n, ¬ Ready nodes needs (done ++ order) n := by
  induction order generalizing done with
  | nil => simpa [Greedy] using greedy
  | cons n rest ih => simpa using ih greedy.2

theorem Greedy.complete (greedy : Greedy nodes needs [] order)
    (acyclic : Digraph.Acyclic (Digraph.Edge needs)) (inner : ∀ n ∈ nodes, ∀ d ∈ needs n, d ∈ nodes) :
    Order nodes needs order := by
  refine ⟨greedy.ordered,?_⟩
  by_contra missing
  push Not at missing
  obtain ⟨n,inside,absent⟩ := missing
  have reversed : Digraph.Acyclic fun a b => Digraph.Edge needs b a :=
    fun a cycle => acyclic a (transGen_swap.mp cycle)
  obtain ⟨source,left,first⟩ := reversed.exists_source (l := nodes.filter (· ∉ order)) (by
    intro empty
    have kept : n ∈ nodes.filter (· ∉ order) := List.mem_filter.mpr ⟨inside,decide_eq_true absent⟩
    rw [empty] at kept
    cases kept)
  simp only [List.mem_filter,decide_eq_true_eq] at left first
  refine greedy.exhausted source ⟨left.1,left.2,fun d needed => ?_⟩
  by_contra unmet
  exact first d ⟨inner source left.1 d needed,unmet⟩ (.single needed)

theorem Greedy.least {other : List α} (greedy : Greedy nodes needs done order)
    (ordered : Ordered nodes needs done other)
    (complete : ∀ n ∈ nodes, n ∈ done ∨ n ∈ other) : order ≤ other := by
  induction order generalizing done other with
  | nil => exact not_lt.mp (List.not_lt_nil other)
  | cons n rest ih =>
    cases other with
    | nil =>
      rcases complete n greedy.1.1.1 with old | none
      · exact absurd old greedy.1.1.2.1
      · cases none
    | cons m others =>
      rcases (greedy.1.2 m ordered.1).lt_or_eq with less | rfl
      · exact le_of_lt (List.Lex.rel less)
      · refine List.cons_le_cons n (ih greedy.2 ordered.2 fun k inside => ?_)
        rcases complete k inside with old | later
        · exact .inl (List.mem_append_left _ old)
        · rcases List.mem_cons.mp later with rfl | later
          · exact .inl (List.mem_append_right _ List.mem_cons_self)
          · exact .inr later

end Topological
