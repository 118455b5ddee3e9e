import Dinkster.Graph.Loops

/-! What the walks of loop validation say about paths of the graph, and the specification of a
nesting of loops. -/
namespace Dinkster.Loops
open Relation Digraph Canonical

variable {v : View} {b : Boundaries}

/-- `child` reads `parent`. -/
def Feeds (v : View) (parent child : String) : Prop := parent ∈ parents v child

def Within (v : View) (start endId : String) : String → Prop :=
  TransGen (fun x y => Feeds v x y ∧ y ≠ endId) start

theorem mem_parents {a c : String} :
    a ∈ parents v c ↔ a ∈ v.nodeIds ∧ ∃ node, v.node? c = some node ∧ a ∈ sources node := by
  unfold parents
  cases found : v.node? c with
  | none => simp
  | some node => simp

theorem Feeds.listed {a c : String} (feeds : Feeds v a c) : a ∈ v.nodeIds ∧ c ∈ v.nodeIds := by
  obtain ⟨known,node,found,-⟩ := mem_parents.mp feeds
  exact ⟨known,(v.listed c).mpr ⟨node,found⟩⟩

theorem mem_children {a c : String} : c ∈ children v a ↔ Feeds v a c := by
  rw [children,List.mem_filter,decide_eq_true_eq]
  exact ⟨fun here => here.2,fun feeds => ⟨feeds.listed.2,feeds⟩⟩

theorem Within.path {start endId x : String} (within : Within v start endId x) :
    TransGen (Feeds v) start x := TransGen.mono (fun _ _ step => step.1) start x within

theorem mem_walk {r : String → String → Prop} {edges : String → List String} {stops : List String}
    (reads : ∀ x y, y ∈ edges x ↔ r x y) (inside : ∀ x y, r x y → y ∈ v.nodeIds) {a x : String} :
    x ∈ walk v (edges a) edges stops ↔ Clear (· ∈ stops) r a x := by
  rw [walk,mem_collect]
  constructor
  · rintro ⟨s,seed,-,path⟩
    refine ⟨s,(reads a s).mp seed,ReflTransGen.mono (fun m k step => ?_) s x path⟩
    have edge : k ∈ if m ∈ stops then [] else edges m := step.1
    by_cases stop : m ∈ stops
    · rw [if_pos stop] at edge
      cases edge
    · rw [if_neg stop] at edge
      exact ⟨stop,(reads m k).mp edge⟩
  · rintro ⟨s,first,path⟩
    refine ⟨s,(reads a s).mpr first,inside a s first,?_⟩
    refine ReflTransGen.mono (fun m k step => ?_) s x path
    refine ⟨?_,inside m k step.2⟩
    have edge : k ∈ if m ∈ stops then [] else edges m := by
      rw [if_neg step.1]
      exact (reads m k).mpr step.2
    exact edge

theorem mem_walkTo {r : String → String → Prop} {edges : String → List String} {stops : List String}
    (reads : ∀ x y, y ∈ edges x ↔ r x y) (inside : ∀ x y, r x y → y ∈ v.nodeIds) {a x : String} :
    x ∈ walkTo v (edges a) edges stops ↔ x ∈ stops ∧ Clear (· ∈ stops) r a x := by
  rw [walkTo,List.mem_filter,mem_walk reads inside,decide_eq_true_eq,and_comm]

theorem mem_walkTo_children {stops : List String} {a x : String} :
    x ∈ walkTo v (children v a) (children v) stops ↔
      x ∈ stops ∧ Clear (· ∈ stops) (Feeds v) a x :=
  mem_walkTo (r := Feeds v) (fun _ _ => mem_children) fun _ _ feeds => feeds.listed.2

theorem mem_walkTo_parents {stops : List String} {a x : String} :
    x ∈ walkTo v (parents v a) (parents v) stops ↔
      x ∈ stops ∧ Clear (· ∈ stops) (fun c p => Feeds v p c) a x :=
  mem_walkTo (r := fun c p => Feeds v p c) (fun _ _ => Iff.rfl) fun _ _ feeds => feeds.listed.1

theorem mem_body {start endId x : String} : x ∈ body v start endId ↔ Within v start endId x := by
  rw [body,mem_sortedBy,List.mem_filter,decide_eq_true_eq,
    mem_walk (r := Feeds v) (fun _ _ => mem_children) fun _ _ feeds => feeds.listed.2]
  constructor
  · rintro ⟨clear,other⟩
    exact clear.avoids (List.mem_singleton_self endId) other
  · intro within
    obtain ⟨clear,outside⟩ := clear_of_avoids (· ∈ [endId])
      (fun y stop _ => List.mem_singleton.mp stop) within
    exact ⟨clear,fun same => outside (same ▸ List.mem_cons_self)⟩

theorem mem_descendants {start x : String} (known : x ∈ b.starts) :
    x ∈ descendants v b start ↔ TransGen (Feeds v) start x := by
  have reads (x y : String) : y ∈ startEdges v b x ↔
      y ∈ b.starts ∧ Clear (· ∈ b.starts) (Feeds v) x y := mem_walkTo_children
  have inside (x y : String) (step : y ∈ b.starts ∧ Clear (· ∈ b.starts) (Feeds v) x y) :
      y ∈ v.nodeIds := by
    obtain ⟨m,-,last⟩ := TransGen.tail'_iff.mp step.2.path
    exact last.listed.2
  rw [descendants,mem_walk reads inside]
  constructor
  · intro clear
    have steps x y (step : y ∈ b.starts ∧ Clear (· ∈ b.starts) (Feeds v) x y) :
        TransGen (Feeds v) x y := step.2.path
    exact TransGen.closed steps start x clear.path
  · intro path
    obtain ⟨c,stop,clear,chain⟩ := chain_of_stops (· ∈ b.starts) path known
    refine ⟨c,⟨stop,clear⟩,ReflTransGen.mono (fun x y step => ⟨?_,step⟩) c x chain⟩
    exact List.not_mem_nil

end Dinkster.Loops
