import Dinkster.Graph.Lowering

/-! What lowering should come to, said of the submitted graph alone: where a link leads once the
selectors with a literal selector input are passed, which nodes the unselected branches used, and
which of them nothing else needs. -/
namespace Dinkster.Lowering
open Relation

section
variable (schemas : Schemas) (graph : Nodes)

def SelectorAt (n : String) (node : AnyNode) (selector : Selector) : Prop :=
  graph.get? n = some node ∧ selectorOf schemas node = some selector

def Fixed (n : String) : Prop :=
  ∃ node selector, SelectorAt schemas graph n node selector ∧
    ∀ link, inputAt node selector.spec.input ≠ some (.link link)

def Branch (side : Bool) (n : String) (v : InputValue) : Prop :=
  ∃ node selector b, SelectorAt schemas graph n node selector ∧
    inputAt node selector.spec.input = some (.literal (.bool b)) ∧
    inputAt node (selector.spec.branches (b == side)) = some v

def Passes (v w : InputValue) : Prop :=
  ∃ n node selector, SelectorAt schemas graph n node selector ∧ v = .link ⟨n,selector.output⟩ ∧
    Branch schemas graph true n w

def Leads : InputValue → InputValue → Prop := ReflTransGen (Passes schemas graph)

/-- `m` reads an output of `n`. -/
def Reads (m n : String) : Prop :=
  n ∈ graph.keys ∧ ∃ node, graph.get? m = some node ∧ n ∈ sources node

def Inactive (n : String) : Prop :=
  ∃ z link, Branch schemas graph false z (.link link) ∧ link.nodeId ∈ graph.keys ∧
    ReflTransGen (Reads graph) link.nodeId n

/-- Used by unselected branches only: no target, and read by such nodes alone. -/
inductive Unneeded (targets : List String) : String → Prop
  | intro (n : String) (inactive : Inactive schemas graph n) (free : n ∉ targets)
      (users : ∀ m node, graph.get? m = some node → ¬ Fixed schemas graph m →
        ∀ e ∈ inputsOf node, ∀ link : Link, link.nodeId = n →
          Leads schemas graph e.2 (.link link) → Unneeded targets m) :
    Unneeded targets n

def Chained (a b : String) : Prop :=
  Fixed schemas graph a ∧ Fixed schemas graph b ∧
    ∃ side link, Branch schemas graph side a (.link link) ∧ link.nodeId = b

def ReadInactive (v : InputValue) : Prop :=
  (∃ z, Branch schemas graph false z v) ∨
    ∃ m node e, Inactive schemas graph m ∧ graph.get? m = some node ∧ e ∈ inputsOf node ∧ e.2 = v

/-- The graphs on which lowering does what the second lowering takes for granted. -/
structure Settled (targets : List String) : Prop where
  usable : ∀ n, Fixed schemas graph n → n ∉ targets ∧ ∃ v, Branch schemas graph true n v
  linked : ∀ n node selector, SelectorAt schemas graph n node selector → ∀ link,
    inputAt node selector.spec.input = some (.link link) →
      ∀ v, Leads schemas graph (.link link) v → ∃ last, v = .link last
  acyclic : Digraph.Acyclic (Chained schemas graph)
  plain : ∀ n node selector, Inactive schemas graph n → Fixed schemas graph n →
    SelectorAt schemas graph n node selector → ∀ e ∈ inputsOf node, ∀ link, e.2 = .link link →
      ∃ b, inputAt node (selector.spec.branches b) = some e.2
  named : ∀ link node selector, ReadInactive schemas graph (.link link) →
    Fixed schemas graph link.nodeId → SelectorAt schemas graph link.nodeId node selector →
      link.outputId = selector.output

end

section
variable {schemas : Schemas} {graph : Nodes}

theorem SelectorAt.unique {n : String} {node node' : AnyNode} {selector selector' : Selector}
    (one : SelectorAt schemas graph n node selector)
    (two : SelectorAt schemas graph n node' selector') : node = node' ∧ selector = selector' := by
  obtain rfl : node = node' := Option.some.inj (one.1.symm.trans two.1)
  exact ⟨rfl,Option.some.inj (one.2.symm.trans two.2)⟩

theorem Branch.fixed {side : Bool} {n : String} {v : InputValue}
    (branch : Branch schemas graph side n v) : Fixed schemas graph n := by
  obtain ⟨node,selector,b,declared,selected,-⟩ := branch
  exact ⟨node,selector,declared,fun link linked => by rw [selected] at linked; cases linked⟩

theorem Branch.read {side : Bool} {n : String} {v : InputValue}
    (branch : Branch schemas graph side n v) :
    ∃ node key, graph.get? n = some node ∧ (key,v) ∈ inputsOf node := by
  obtain ⟨node,selector,b,declared,-,found⟩ := branch
  exact ⟨node,_,declared.1,inputAt_mem found⟩

theorem Branch.unique {side : Bool} {n : String} {v v' : InputValue}
    (one : Branch schemas graph side n v) (two : Branch schemas graph side n v') : v = v' := by
  obtain ⟨node,selector,b,declared,selected,found⟩ := one
  obtain ⟨node',selector',b',declared',selected',found'⟩ := two
  obtain ⟨rfl,rfl⟩ := declared.unique declared'
  have same : some (InputValue.literal (.bool b)) = some (.literal (.bool b')) :=
    selected.symm.trans selected'
  simp only [Option.some.injEq,InputValue.literal.injEq,Json.Value.bool.injEq] at same
  subst same
  exact Option.some.inj (found.symm.trans found')

theorem Passes.unique {v w w' : InputValue} (one : Passes schemas graph v w)
    (two : Passes schemas graph v w') : w = w' := by
  obtain ⟨n,node,selector,-,rfl,branch⟩ := one
  obtain ⟨n',node',selector',-,same,branch'⟩ := two
  obtain rfl : n = n' := by
    simp only [InputValue.link.injEq,Link.mk.injEq] at same
    exact same.1
  exact branch.unique branch'

theorem Leads.unique {v w w' : InputValue} (one : Leads schemas graph v w)
    (two : Leads schemas graph v w') (last : ∀ u, ¬ Passes schemas graph w u)
    (last' : ∀ u, ¬ Passes schemas graph w' u) : w = w' := by
  have stay {a b : InputValue} (path : Leads schemas graph a b)
      (last : ∀ u, ¬ Passes schemas graph a u) : a = b := by
    rcases ReflTransGen.cases_head path with same | ⟨u,step,-⟩
    · exact same
    · exact absurd step (last u)
  rcases ReflTransGen.total_of_right_unique (fun _ _ _ one two => one.unique two) one two with
    path | path
  · exact stay path last
  · exact (stay path last').symm

theorem Passes.linked {v w : InputValue} (step : Passes schemas graph v w) :
    ∃ link, v = .link link ∧ Fixed schemas graph link.nodeId ∧
      Branch schemas graph true link.nodeId w := by
  obtain ⟨n,node,selector,-,rfl,branch⟩ := step
  exact ⟨_,rfl,branch.fixed,branch⟩

theorem Leads.linked {v : InputValue} {last : Link} (path : Leads schemas graph v (.link last)) :
    ∃ first, v = .link first := by
  rcases ReflTransGen.cases_head path with rfl | ⟨u,step,-⟩
  · exact ⟨last,rfl⟩
  · obtain ⟨link,same,-⟩ := step.linked
    exact ⟨link,same⟩

theorem Leads.reads {first last : Link} (path : Leads schemas graph (.link first) (.link last))
    (held : last.nodeId ∈ graph.keys) :
    first.nodeId ∈ graph.keys ∧ ReflTransGen (Reads graph) first.nodeId last.nodeId := by
  generalize start : InputValue.link first = v at path
  induction path using ReflTransGen.head_induction_on generalizing first with
  | refl =>
    obtain rfl := InputValue.link.inj start
    exact ⟨held,.refl⟩
  | head step rest ih =>
    subst start
    obtain ⟨link,same,-,branch⟩ := step.linked
    obtain rfl := InputValue.link.inj same
    obtain ⟨second,rfl⟩ := Leads.linked rest
    obtain ⟨node,key,found,inside⟩ := branch.read
    obtain ⟨known,tail⟩ := ih rfl
    refine ⟨keys_of_get? found,.head ⟨known,node,found,?_⟩ tail⟩
    exact mem_sources.mpr ⟨_,inside,rfl⟩

theorem Leads.chained {first last : Link} (path : Leads schemas graph (.link first) (.link last))
    (fixed : Fixed schemas graph last.nodeId) :
    Fixed schemas graph first.nodeId ∧
      ReflTransGen (Chained schemas graph) first.nodeId last.nodeId := by
  generalize start : InputValue.link first = v at path
  induction path using ReflTransGen.head_induction_on generalizing first with
  | refl =>
    obtain rfl := InputValue.link.inj start
    exact ⟨fixed,.refl⟩
  | head step rest ih =>
    subst start
    obtain ⟨link,same,here,branch⟩ := step.linked
    obtain rfl := InputValue.link.inj same
    obtain ⟨second,rfl⟩ := Leads.linked rest
    obtain ⟨next,tail⟩ := ih rfl
    exact ⟨here,.head ⟨here,next,true,second,branch,rfl⟩ tail⟩

theorem Settled.apart {targets : List String} (settled : Settled schemas graph targets)
    {side : Bool} {n : String} {v : InputValue} (branch : Branch schemas graph side n v)
    {last : Link} (path : Leads schemas graph v (.link last)) : last.nodeId ≠ n := by
  rintro rfl
  obtain ⟨first,rfl⟩ := path.linked
  obtain ⟨fixed,back⟩ := path.chained branch.fixed
  exact settled.acyclic _ (.head' ⟨branch.fixed,fixed,side,first,branch,rfl⟩ back)

end

end Dinkster.Lowering
