import Dinkster.Graph.Inputs
import Dinkster.Lib.Digraph

/-! Selector lowering: a selector whose selector input is a literal gives way to its selected
branch, and what only its other branch used is pruned. A selector whose selector input is a link
stays for the run. -/
namespace Dinkster.Lowering

structure SelectorSpec where
  input : String
  branches : Bool → String
  distinct : branches false ≠ branches true

/-- What lowering reads of a node schema; a selector schema has exactly one output. -/
structure NodeSchema where
  outputs : List String
  selector : Option SelectorSpec
  single : ∀ s ∈ selector, outputs.length = 1
  apart : ∀ s ∈ selector, ∀ b, s.input ≠ s.branches b

abbrev Schemas := String → Option NodeSchema

structure Selector where
  spec : SelectorSpec
  output : String
  apart : ∀ b, spec.input ≠ spec.branches b

def NodeSchema.select (schema : NodeSchema) : Option Selector :=
  match found : schema.selector with
  | none => none
  | some spec =>
    some ⟨spec,schema.outputs.head fun empty => by simpa [empty] using schema.single spec found,
      schema.apart spec found⟩

def selectorOf (schemas : Schemas) : AnyNode → Option Selector
  | .node node => (schemas node.nodeType).bind NodeSchema.select
  | .region _ => none

@[simp] theorem selectorOf_mapInputs (schemas : Schemas) (f : InputValue → InputValue)
    (node : AnyNode) : selectorOf schemas (mapInputs f node) = selectorOf schemas node := by
  cases node <;> rfl

/-- What the nodes that `n` reads are. -/
def next (nodes : Nodes) (n : String) : List String :=
  match nodes.get? n with
  | some node => sources node
  | none => []

/-- `_cone` -/
def cone (nodes : Nodes) (source : Link) : List String :=
  Digraph.collect (next nodes) nodes.keys [source.nodeId] []

def referenced (nodes : Nodes) : List String := nodes.entries.flatMap fun e => sources e.2

def removable (nodes : Nodes) (candidates targets : List String) : List String :=
  nodes.keys.filter fun n => n ∈ candidates ∧ n ∉ targets ∧ n ∉ referenced nodes

theorem removable_shrinks {nodes : Nodes} {candidates targets : List String}
    (some : removable nodes candidates targets ≠ []) :
    (nodes.filterKeys (· ∉ removable nodes candidates targets)).entries.length <
      nodes.entries.length := by
  obtain ⟨n,inside⟩ := List.exists_mem_of_ne_nil _ some
  obtain ⟨e,held,key⟩ := List.mem_map.mp (List.mem_of_mem_filter inside)
  refine List.length_filter_lt_length_iff_exists.mpr ⟨e,held,?_⟩
  rw [key]
  simpa using inside

/-- `_prune` -/
def prune (nodes : Nodes) (candidates targets : List String) : Nodes :=
  if removable nodes candidates targets = [] then nodes
  else prune (nodes.filterKeys (· ∉ removable nodes candidates targets)) candidates targets
termination_by nodes.entries.length
decreasing_by exact removable_shrinks ‹_›

structure LoweringProblem where
  code : String
  message : String
  nodeId : String
  inputId : String
  deriving DecidableEq

structure LoweringResult where
  graph : Nodes
  targets : List String
  problems : List LoweringProblem

structure Worklist where
  nodes : Nodes
  candidates : List String
  runtimeSelectors : List String

def nextSelector (schemas : Schemas) (w : Worklist) : Option (String × AnyNode × Selector) :=
  w.nodes.entries.findSome? fun e =>
    if e.1 ∈ w.runtimeSelectors then none
    else (selectorOf schemas e.2).map fun selector => (e.1,e.2,selector)

def splice (output : Link) (value current : InputValue) : InputValue :=
  match current with
  | .link link => if link = output then value else current
  | _ => current

def inactiveCone (nodes : Nodes) : Option InputValue → List String
  | some (.link source) => cone nodes source
  | _ => []

def spliceOut (nodes : Nodes) (selectorId : String) (selector : Selector) (value : InputValue) :
    Nodes :=
  (nodes.erase selectorId).mapWithKey fun _ => mapInputs (splice ⟨selectorId,selector.output⟩ value)

inductive Outcome
  | next (w : Worklist)
  | done (result : LoweringResult)

section
variable (reprText : String → String) (schemas : Schemas) (graph : Nodes) (targets : List String)

/-- What one round makes of a selector; `reprText` quotes the branch id in the error. -/
def lowerOne (w : Worklist) (selectorId : String) (node : AnyNode) (selector : Selector) :
    Outcome :=
  match inputAt node selector.spec.input with
  | some (.link _) => .next { w with runtimeSelectors := selectorId :: w.runtimeSelectors }
  | selected =>
    if selectorId ∈ targets then
      .done ⟨graph,targets,[⟨"prompt.selector_is_target",
        "a selector node cannot be a submission target",selectorId,""⟩]⟩
    else match selected with
    | some (.literal (.bool b)) =>
      match inputAt node (selector.spec.branches b) with
      | none =>
        .done ⟨graph,targets,[⟨"prompt.missing_branch",
          "selected branch input " ++ reprText (selector.spec.branches b) ++ " is absent",
          selectorId,selector.spec.branches b⟩]⟩
      | some value =>
        let nodes := spliceOut w.nodes selectorId selector value
        let candidates := inactiveCone nodes (inputAt node (selector.spec.branches !b)) ++
          w.candidates
        .next ⟨prune nodes candidates targets,candidates,w.runtimeSelectors⟩
    | _ =>
      .done ⟨graph,targets,[⟨"prompt.bad_selector_value",
        "selector input must be a JSON boolean",selectorId,selector.spec.input⟩]⟩

def round (w : Worklist) : Outcome :=
  match nextSelector schemas w with
  | none => .done ⟨prune w.nodes w.candidates targets,targets,[]⟩
  | some (selectorId,node,selector) =>
    lowerOne reprText graph targets w selectorId node selector

end

theorem prune_stable {nodes : Nodes} {candidates targets : List String}
    (stable : removable nodes candidates targets = []) :
    prune nodes candidates targets = nodes := by
  rw [prune,if_pos stable]

theorem prune_induction {candidates targets : List String} (P : Nodes → Prop)
    (sweep : ∀ nodes, P nodes →
      P (nodes.filterKeys (· ∉ removable nodes candidates targets)))
    (nodes : Nodes) (start : P nodes) : P (prune nodes candidates targets) := by
  induction nodes using prune.induct candidates targets with
  | case1 nodes stable =>
    rw [prune_stable stable]
    exact start
  | case2 nodes unstable ih =>
    rw [prune,if_neg unstable]
    exact ih (sweep nodes start)

theorem removable_prune (nodes : Nodes) (candidates targets : List String) :
    removable (prune nodes candidates targets) candidates targets = [] := by
  induction nodes using prune.induct candidates targets with
  | case1 nodes stable =>
    rw [prune_stable stable]
    exact stable
  | case2 nodes unstable ih =>
    rw [prune,if_neg unstable]
    exact ih

theorem get?_prune {nodes : Nodes} {candidates targets : List String} {n : String} {node : AnyNode}
    (found : (prune nodes candidates targets).get? n = some node) : nodes.get? n = some node := by
  revert found
  refine prune_induction (fun left => left.get? n = some node → nodes.get? n = some node)
    (fun left ih found => ih ?_) nodes id
  rw [Dict.get?_filterKeys] at found
  split at found
  · exact found
  · cases found

theorem get?_spliceOut (nodes : Nodes) (selectorId : String) (selector : Selector)
    (value : InputValue) (n : String) :
    (spliceOut nodes selectorId selector value).get? n =
      if n = selectorId then none
      else (nodes.get? n).map (mapInputs (splice ⟨selectorId,selector.output⟩ value)) := by
  rw [spliceOut,Dict.get?_mapWithKey,Dict.get?_erase]
  split <;> rfl

theorem nextSelector_some {schemas : Schemas} {w : Worklist} {selectorId : String} {node : AnyNode}
    {selector : Selector} (found : nextSelector schemas w = some (selectorId,node,selector)) :
    w.nodes.get? selectorId = some node ∧ selectorOf schemas node = some selector ∧
      selectorId ∉ w.runtimeSelectors := by
  obtain ⟨e,inside,here⟩ := List.exists_of_findSome?_eq_some found
  split at here
  · cases here
  · rename_i fresh
    obtain ⟨s,declared,same⟩ := Option.map_eq_some_iff.mp here
    obtain ⟨rfl,rest⟩ := Prod.mk.inj same
    obtain ⟨rfl,rfl⟩ := Prod.mk.inj rest
    exact ⟨(Dict.get?_eq_some_iff _ _ _).mpr inside,declared,fresh⟩

theorem nextSelector_none {schemas : Schemas} {w : Worklist} (none : nextSelector schemas w = none)
    {n : String} {node : AnyNode} {selector : Selector} (held : w.nodes.get? n = some node)
    (declared : selectorOf schemas node = some selector) : n ∈ w.runtimeSelectors := by
  have here := List.findSome?_eq_none_iff.mp none _ ((Dict.get?_eq_some_iff _ _ _).mp held)
  by_contra fresh
  rw [if_neg fresh,declared] at here
  cases here

/-- The ways in which a round goes on. -/
inductive Goes (targets : List String) (w : Worklist) (n : String) (node : AnyNode)
    (selector : Selector) : Worklist → Prop
  | keep (link : Link) (linked : inputAt node selector.spec.input = some (.link link)) :
    Goes targets w n node selector { w with runtimeSelectors := n :: w.runtimeSelectors }
  | lower (b : Bool) (value : InputValue) (nodes : Nodes) (candidates : List String)
      (free : n ∉ targets)
      (selected : inputAt node selector.spec.input = some (.literal (.bool b)))
      (active : inputAt node (selector.spec.branches b) = some value)
      (spliced : nodes = spliceOut w.nodes n selector value)
      (grown : candidates =
        inactiveCone nodes (inputAt node (selector.spec.branches !b)) ++ w.candidates) :
    Goes targets w n node selector ⟨prune nodes candidates targets,candidates,w.runtimeSelectors⟩

theorem lowerOne_next {reprText : String → String} {graph : Nodes} {targets : List String}
    {w w' : Worklist} {n : String} {node : AnyNode} {selector : Selector}
    (goes : lowerOne reprText graph targets w n node selector = .next w') :
    Goes targets w n node selector w' := by
  unfold lowerOne at goes
  split at goes
  · rename_i link linked
    cases goes
    exact .keep link linked
  · split at goes
    · cases goes
    · rename_i free
      split at goes
      · rename_i b selected
        split at goes
        · cases goes
        · rename_i value active
          cases goes
          exact .lower b value _ _ free selected active rfl rfl
      · cases goes

theorem round_next {reprText : String → String} {schemas : Schemas} {graph : Nodes}
    {targets : List String} {w w' : Worklist}
    (goes : round reprText schemas graph targets w = .next w') :
    ∃ n node selector, w.nodes.get? n = some node ∧ selectorOf schemas node = some selector ∧
      n ∉ w.runtimeSelectors ∧ Goes targets w n node selector w' := by
  unfold round at goes
  split at goes
  · cases goes
  · rename_i n node selector found
    obtain ⟨held,declared,fresh⟩ := nextSelector_some found
    exact ⟨n,node,selector,held,declared,fresh,lowerOne_next goes⟩

def Worklist.unvisited (w : Worklist) : List String := w.nodes.keys.filter (· ∉ w.runtimeSelectors)

theorem Goes.shrinks {targets : List String} {w w' : Worklist} {n : String} {node : AnyNode}
    {selector : Selector} (goes : Goes targets w n node selector w')
    (held : w.nodes.get? n = some node) (fresh : n ∉ w.runtimeSelectors) :
    w'.unvisited.length < w.unvisited.length := by
  have before : n ∈ w.unvisited :=
    List.mem_filter.mpr ⟨keys_of_get? held,decide_eq_true fresh⟩
  have fewer (after : n ∉ w'.unvisited) (inside : ∀ m ∈ w'.unvisited, m ∈ w.unvisited) :
      w'.unvisited.length < w.unvisited.length := by
    have distinct : (n :: w'.unvisited).Nodup :=
      List.nodup_cons.mpr ⟨after,w'.nodes.distinct.filter _⟩
    refine (List.subperm_of_subset distinct ?_).length_le
    intro m member
    rcases List.mem_cons.mp member with rfl | old
    · exact before
    · exact inside m old
  cases goes with
  | keep link linked =>
    refine fewer (fun inside => ?_) (fun m inside => ?_)
    · simpa using (List.mem_filter.mp inside).2
    · obtain ⟨key,unseen⟩ := List.mem_filter.mp inside
      have unseen := of_decide_eq_true unseen
      exact List.mem_filter.mpr ⟨key,decide_eq_true fun seen => unseen (.tail _ seen)⟩
  | lower b value nodes candidates free selected active spliced grown =>
    have old (m : String) (inside : m ∈ (prune nodes candidates targets).keys) :
        m ≠ n ∧ m ∈ w.nodes.keys := by
      obtain ⟨node',found⟩ := (Dict.mem_keys_iff _ _).mp inside
      have found := get?_prune found
      rw [spliced,get?_spliceOut] at found
      split at found
      · cases found
      · rename_i other
        obtain ⟨old,held,-⟩ := Option.map_eq_some_iff.mp found
        exact ⟨other,keys_of_get? held⟩
    refine fewer (fun inside => ?_) (fun m inside => ?_)
    · exact (old n (List.mem_filter.mp inside).1).1 rfl
    · obtain ⟨key,unseen⟩ := List.mem_filter.mp inside
      exact List.mem_filter.mpr ⟨(old m key).2,unseen⟩

section
variable (reprText : String → String) (schemas : Schemas) (graph : Nodes) (targets : List String)

def lowerFrom (w : Worklist) : LoweringResult :=
  match _goes : round reprText schemas graph targets w with
  | .done result => result
  | .next w' => lowerFrom w'
termination_by w.unvisited.length
decreasing_by
  obtain ⟨n,node,selector,held,-,fresh,goes⟩ := round_next _goes
  exact goes.shrinks held fresh

end

section
variable {reprText : String → String} {schemas : Schemas} {graph : Nodes} {targets : List String}

theorem lowerFrom_done {w : Worklist} {result : LoweringResult}
    (done : round reprText schemas graph targets w = .done result) :
    lowerFrom reprText schemas graph targets w = result := by
  rw [lowerFrom]
  split
  · rename_i other
    rw [done] at other
    exact (Outcome.done.inj other).symm
  · rename_i other
    rw [done] at other
    cases other

theorem lowerFrom_next {w w' : Worklist}
    (goes : round reprText schemas graph targets w = .next w') :
    lowerFrom reprText schemas graph targets w = lowerFrom reprText schemas graph targets w' := by
  rw [lowerFrom]
  split
  · rename_i other
    rw [goes] at other
    cases other
  · rename_i other
    rw [goes] at other
    rw [Outcome.next.inj other]

end

end Dinkster.Lowering
