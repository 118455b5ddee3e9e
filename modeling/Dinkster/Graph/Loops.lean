import Dinkster.Graph.Inputs
import Dinkster.Lib.Canonical
import Dinkster.Lib.Digraph
import Mathlib.Data.String.Basic

/-! Validation of loop boundaries: each end is paired with the closest start that leads to it, from
the innermost end out, and a start must not lead past its end. Sets of node ids are kept sorted. -/
namespace Dinkster.Loops
open Canonical

structure LoopPair where
  endId : String
  body : List String
  deriving DecidableEq

structure Diagnostic where
  severity : String
  code : String
  message : String
  nodeId : Option String
  deriving DecidableEq

abbrev Verdict := Dict String LoopPair × List Diagnostic

structure View where
  nodeIds : List String
  node? : String → Option AnyNode
  listed : ∀ key, key ∈ nodeIds ↔ ∃ node, node? key = some node

def view (graph : Nodes) : View where
  nodeIds := sortedBy id graph.keys
  node? := graph.get?
  listed := fun key => by rw [mem_sortedBy,Dict.mem_keys_iff]

section
variable (v : View)

def parents (key : String) : List String :=
  match v.node? key with
  | some node => v.nodeIds.filter (· ∈ sources node)
  | none => []

def children (key : String) : List String := v.nodeIds.filter fun child => key ∈ parents v child

/-- `walk`: what the seeds lead to, going on from every node that is no stop. -/
def walk (seeds : List String) (edges : String → List String) (stops : List String) : List String :=
  Digraph.collect (fun key => if key ∈ stops then [] else edges key) v.nodeIds seeds []

def walkTo (seeds : List String) (edges : String → List String) (stops : List String) :
    List String :=
  (walk v seeds edges stops).filter (· ∈ stops)

/-- The targets that nothing reads. -/
def terminal (targets : List String) : List String :=
  targets.filter fun key => key ∈ v.nodeIds ∧ children v key = []

structure Boundaries where
  starts : List String
  ends : List String

variable (b : Boundaries)

def startEdges (key : String) : List String := walkTo v (children v key) (children v) b.starts

def descendants (key : String) : List String :=
  walk v (startEdges v b key) (startEdges v b) []

def endEdges (key : String) : List String := walkTo v (parents v key) (parents v) b.ends

def error (code message nodeId : String) : Verdict :=
  (.empty,[⟨"error","loop." ++ code,message,some nodeId⟩])

def commas (names : List String) : String := ", ".intercalate (sortedBy id names)

def leaves (remaining : List String) : List String :=
  sortedBy id (remaining.filter fun key => ∀ other ∈ endEdges v b key, other ∉ remaining)

def openStarts (available : List String) (endId : String) : List String :=
  walkTo v (parents v endId) (parents v) available

def closest (candidates : List String) : List String :=
  candidates.filter fun candidate =>
    ∀ other ∈ candidates, other = candidate ∨ candidate ∈ descendants v b other

def escapes (targets remaining : List String) (start endId : String) : List String :=
  (walkTo v (children v start) (children v)
    (remaining ++ terminal v targets ++ [endId])).filter (· ≠ endId)

structure Pairing where
  available : List String
  remaining : List String
  matched : List (String × String)

def closeEnd (targets : List String) (p : Pairing) (endId : String) : Except Verdict Pairing :=
  let candidates := openStarts v p.available endId
  if candidates = [] then
    .error (error "unmatchedEnd" ("End Loop " ++ endId ++ " has no available Start Loop") endId)
  else match closest v b candidates with
  | [start] =>
    let available := p.available.filter (· ≠ start)
    let remaining := p.remaining.filter (· ≠ endId)
    let escaped := escapes v targets remaining start endId
    if escaped ≠ [] then
      .error (error "bodyEscape" ("Start Loop " ++ start ++ " reaches " ++ commas escaped ++
        " without End Loop " ++ endId) start)
    else .ok ⟨available,remaining,p.matched ++ [(start,endId)]⟩
  | _ =>
    .error (error "ambiguousNesting" ("End Loop " ++ endId ++
      " can close unrelated Start Loops: " ++ commas candidates) endId)

theorem closeEnd_shrinks {targets : List String} {p q : Pairing} {endId : String}
    (member : endId ∈ p.remaining) (closed : closeEnd v b targets p endId = .ok q) :
    q.remaining.length < p.remaining.length := by
  unfold closeEnd at closed
  simp only at closed
  split at closed
  · cases closed
  · split at closed
    · split at closed
      · cases closed
      · cases closed
        exact List.length_filter_lt_length_iff_exists.mpr ⟨endId,member,by simp⟩
    · cases closed

theorem mem_remaining_of_leaves {remaining : List String} {endId : String} {rest : List String}
    (found : leaves v b remaining = endId :: rest) : endId ∈ remaining := by
  have inside : endId ∈ leaves v b remaining := found ▸ List.mem_cons_self
  exact List.mem_of_mem_filter ((mem_sortedBy _ _ _).mp inside)

/-- `while remaining`; the left answer is what the function returns at once. -/
def closeEnds (targets : List String) (p : Pairing) : Except Verdict Pairing :=
  if p.remaining = [] then .ok p
  else match _found : leaves v b p.remaining with
  | [] => .error (.empty,[])
  | endId :: _ =>
    match _closed : closeEnd v b targets p endId with
    | .error verdict => .error verdict
    | .ok q => closeEnds targets q
termination_by p.remaining.length
decreasing_by exact closeEnd_shrinks v b (mem_remaining_of_leaves v b _found) _closed

def body (start endId : String) : List String :=
  sortedBy id ((walk v (children v start) (children v) [endId]).filter (· ≠ endId))

def accumulated (start endId : String) : Option String :=
  match (v.node? endId).bind (inputAt · "accumulate") with
  | some (.link link) =>
    if link.nodeId ∈ start :: body v start endId then some link.nodeId else none
  | _ => none

end

end Dinkster.Loops
