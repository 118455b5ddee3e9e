import Dinkster.Lib.Digraph
import Mathlib.Data.List.Perm.Subperm

/-! Depth-first search for a cycle, by recursion: a node is entered, everything it leads to is
visited, then the node is left. The search fails where it comes back to a node that it has entered
and not left, which happens exactly where a cycle can be reached. -/
namespace DepthFirst
open Relation Digraph

variable {α : Type*} [DecidableEq α] (next : α → List α)

/-- The nodes left once `a` is; `none` at a node that is entered and not left. -/
def visit : Nat → List α → List α → α → Option (List α)
  | 0,_,_,_ => none
  | fuel + 1,entered,left,a =>
    if a ∈ entered then none
    else if a ∈ left then some left
    else ((next a).foldlM (visit fuel (a :: entered)) left).map (a :: ·)

def acyclicFrom (fuel : Nat) (roots : List α) : Bool :=
  (roots.foldlM (visit next fuel []) []).isSome

/-- Each node was left after everything it leads to. -/
inductive Settled : List α → Prop
  | nil : Settled []
  | cons {a : α} {left : List α} (settled : Settled left) (fresh : a ∉ left)
    (after : ∀ b ∈ next a, b ∈ left) : Settled (a :: left)

variable {next}

omit [DecidableEq α] in
theorem Settled.closed {left : List α} (settled : Settled next left) {a b : α} (member : a ∈ left)
    (path : ReflTransGen (Edge next) a b) : b ∈ left := by
  induction path with
  | refl => exact member
  | tail _ edge ih =>
    clear member
    induction settled with
    | nil => cases ih
    | cons _ _ after later =>
      rcases List.mem_cons.mp ih with rfl | inside
      · exact List.mem_cons_of_mem _ (after _ edge)
      · exact List.mem_cons_of_mem _ (later inside)

omit [DecidableEq α] in
theorem Settled.acyclic {left : List α} (settled : Settled next left) {a : α} (member : a ∈ left) :
    ¬ TransGen (Edge next) a a := by
  induction settled with
  | nil => cases member
  | cons settled fresh after ih =>
    rcases List.mem_cons.mp member with rfl | inside
    · intro cycle
      obtain ⟨b,edge,back⟩ := TransGen.head'_iff.mp cycle
      exact fresh (settled.closed (after _ edge) back)
    · exact ih inside

private theorem visit_settled {fuel : Nat} {entered left left' : List α} {a : α}
    (settled : Settled next left) (outside : ∀ e ∈ entered, e ∉ left)
    (done : visit next fuel entered left a = some left') :
    Settled next left' ∧ a ∈ left' ∧ left ⊆ left' ∧ ∀ e ∈ entered, e ∉ left' := by
  induction fuel generalizing entered left left' a with
  | zero => cases done
  | succ fuel ih =>
    rw [visit] at done
    split at done
    · cases done
    · rename_i fresh
      split at done
      · rename_i member
        obtain rfl := Option.some.inj done
        exact ⟨settled,member,List.Subset.refl _,outside⟩
      · rename_i unseen
        obtain ⟨last,visited,rfl⟩ := Option.map_eq_some_iff.mp done
        -- the targets are visited one after another, with `a` entered
        have targets : ∀ (targets : List α) (before : List α), Settled next before →
            (∀ e ∈ a :: entered, e ∉ before) →
            targets.foldlM (visit next fuel (a :: entered)) before = some last →
            Settled next last ∧ before ⊆ last ∧ (∀ e ∈ a :: entered, e ∉ last) ∧
              ∀ b ∈ targets, b ∈ last := by
          intro targets
          induction targets with
          | nil =>
            intro before settled outside visited
            obtain rfl := Option.some.inj visited
            exact ⟨settled,List.Subset.refl _,outside,nofun⟩
          | cons b rest step =>
            intro before settled outside visited
            rw [List.foldlM_cons] at visited
            obtain ⟨middle,first,later⟩ := Option.bind_eq_some_iff.mp visited
            obtain ⟨settled',member,grows,outside'⟩ := ih settled outside first
            obtain ⟨settled'',grows',outside'',others⟩ := step middle settled' outside' later
            exact ⟨settled'',List.Subset.trans grows grows',outside'',
              List.forall_mem_cons.mpr ⟨grows' member,others⟩⟩
        obtain ⟨settled',grows,outside',reached⟩ := targets (next a) left settled
          (List.forall_mem_cons.mpr ⟨unseen,outside⟩) visited
        obtain ⟨apart,others⟩ := List.forall_mem_cons.mp outside'
        refine ⟨.cons settled' apart reached,List.mem_cons_self,
          fun b inside => List.mem_cons_of_mem _ (grows inside),fun e inside again => ?_⟩
        rcases List.mem_cons.mp again with rfl | again
        · exact fresh inside
        · exact others e inside again

/-- A cycle can be reached from `a`. -/
def Cyclic (next : α → List α) (a : α) : Prop :=
  ∃ c, ReflTransGen (Edge next) a c ∧ TransGen (Edge next) c c

private theorem visit_none {known : List α} (whole : ∀ a, next a ≠ [] → a ∈ known) {fuel : Nat}
    {entered left : List α} {a : α} (distinct : entered.Nodup) (inside : entered ⊆ known)
    (enough : known.length < fuel + entered.length)
    (path : ∀ e ∈ entered, TransGen (Edge next) e a)
    (failed : visit next fuel entered left a = none) : Cyclic next a := by
  induction fuel generalizing entered left a with
  | zero =>
    have bounded := (List.subperm_of_subset distinct inside).length_le
    omega
  | succ fuel ih =>
    rw [visit] at failed
    split at failed
    · rename_i member
      exact ⟨a,.refl,path a member⟩
    · rename_i fresh
      split at failed
      · cases failed
      · -- one of the targets fails, and it leads to the cycle
        have visited := Option.map_eq_none_iff.mp failed
        have target : ∃ b ∈ next a, ∃ before,
            visit next fuel (a :: entered) before b = none := by
          clear failed
          rename_i unseen
          clear unseen
          revert visited
          generalize next a = targets
          induction targets generalizing left with
          | nil => exact nofun
          | cons b rest step =>
            intro visited
            rw [List.foldlM_cons] at visited
            cases first : visit next fuel (a :: entered) left b with
            | none => exact ⟨b,List.mem_cons_self,left,first⟩
            | some middle =>
              rw [first] at visited
              obtain ⟨b',inside',before,failed⟩ := @step middle visited
              exact ⟨b',List.mem_cons_of_mem _ inside',before,failed⟩
        obtain ⟨b,edge,before,failed⟩ := target
        have known : a ∈ known := whole a (List.ne_nil_of_mem edge)
        obtain ⟨c,onward,cycle⟩ := ih (List.nodup_cons.mpr ⟨fresh,distinct⟩)
          (List.cons_subset.mpr ⟨known,inside⟩) (by rw [List.length_cons]; omega)
          (List.forall_mem_cons.mpr ⟨.single edge,fun e member => (path e member).tail edge⟩) failed
        exact ⟨c,.head edge onward,cycle⟩

theorem acyclicFrom_iff {known roots : List α} (whole : ∀ a, next a ≠ [] → a ∈ known) {fuel : Nat}
    (enough : known.length < fuel) :
    acyclicFrom next fuel roots = true ↔ ∀ a ∈ roots, ¬ Cyclic next a := by
  have general : ∀ left, Settled next left →
      ((roots.foldlM (visit next fuel []) left).isSome ↔ ∀ a ∈ roots, ¬ Cyclic next a) := by
    induction roots with
    | nil => simp
    | cons a rest ih =>
      intro left settled
      rw [List.foldlM_cons,List.forall_mem_cons]
      cases visited : visit next fuel [] left a with
      | none =>
        have cycle := visit_none whole List.nodup_nil (List.nil_subset _) (by simpa using enough)
          (by simp) visited
        simp [cycle]
      | some left' =>
        obtain ⟨settled',member,-,-⟩ := visit_settled settled (by simp) visited
        have free : ¬ Cyclic next a := fun ⟨c,path,cycle⟩ =>
          settled'.acyclic (settled'.closed member path) cycle
        simpa [free] using ih left' settled'
  exact general [] .nil

theorem acyclicFrom_acyclic {roots : List α} (whole : ∀ a, next a ≠ [] → a ∈ roots) {fuel : Nat}
    (enough : roots.length < fuel) :
    acyclicFrom next fuel roots = true ↔ Acyclic (Edge next) := by
  rw [acyclicFrom_iff whole enough]
  constructor
  · intro free a cycle
    obtain ⟨b,edge,-⟩ := TransGen.head'_iff.mp cycle
    exact free a (whole a (List.ne_nil_of_mem edge)) ⟨a,.refl,cycle⟩
  · rintro acyclic a - ⟨c,-,cycle⟩
    exact acyclic c cycle

end DepthFirst
