import Dinkster.Graph.Model
import Dinkster.Lib.Dict

/-! The inputs of a document's nodes, plain or region, and the nodes that they read. -/
namespace Dinkster

abbrev Nodes := Dict String AnyNode

def inputsOf : AnyNode → Inputs
  | .node node => node.inputs
  | .region region => region.inputs

def withInputs (inputs : Inputs) : AnyNode → AnyNode
  | .node node => .node { node with inputs }
  | .region region => .region { region with inputs }

def mapInputs (f : InputValue → InputValue) (node : AnyNode) : AnyNode :=
  withInputs ((inputsOf node).map fun e => (e.1,f e.2)) node

/-- `node.inputs.get(key)` -/
def inputAt (node : AnyNode) (key : String) : Option InputValue :=
  ((inputsOf node).find? (·.1 = key)).map (·.2)

def source? : InputValue → Option String
  | .link link => some link.nodeId
  | _ => none

def sources (node : AnyNode) : List String := (inputsOf node).filterMap fun e => source? e.2

@[simp] theorem inputsOf_mapInputs (f : InputValue → InputValue) (node : AnyNode) :
    inputsOf (mapInputs f node) = (inputsOf node).map fun e => (e.1,f e.2) := by
  cases node <;> rfl

theorem mapInputs_mapInputs (f g : InputValue → InputValue) (node : AnyNode) :
    mapInputs g (mapInputs f node) = mapInputs (fun v => g (f v)) node := by
  cases node <;> simp [mapInputs,withInputs,inputsOf,Function.comp_def]

theorem mapInputs_congr {f g : InputValue → InputValue} {node : AnyNode}
    (same : ∀ e ∈ inputsOf node, f e.2 = g e.2) : mapInputs f node = mapInputs g node := by
  have inputs : (inputsOf node).map (fun e => (e.1,f e.2)) =
      (inputsOf node).map fun e => (e.1,g e.2) :=
    List.map_congr_left fun e inside => by rw [same e inside]
  rw [mapInputs,mapInputs,inputs]

@[simp] theorem inputAt_mapInputs (f : InputValue → InputValue) (node : AnyNode) (key : String) :
    inputAt (mapInputs f node) key = (inputAt node key).map f := by
  rw [inputAt,inputAt,inputsOf_mapInputs,List.find?_map,Option.map_map,Option.map_map]
  rfl

theorem mem_sources {node : AnyNode} {n : String} :
    n ∈ sources node ↔ ∃ e ∈ inputsOf node, source? e.2 = some n := by
  simp [sources]

theorem inputAt_mem {node : AnyNode} {key : String} {v : InputValue}
    (found : inputAt node key = some v) : (key,v) ∈ inputsOf node := by
  obtain ⟨e,he,rfl⟩ := Option.map_eq_some_iff.mp found
  have same := List.find?_some he
  simp only [decide_eq_true_eq] at same
  exact same ▸ List.mem_of_find?_eq_some he

theorem keys_of_get? {nodes : Nodes} {n : String} {node : AnyNode}
    (found : nodes.get? n = some node) : n ∈ nodes.keys :=
  (Dict.mem_keys_iff _ _).mpr ⟨node,found⟩

end Dinkster
