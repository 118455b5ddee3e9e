import Dinkster.Engine.StrongPlan
import Dinkster.Lib.Transition

/-! The references to produced outputs that a run keeps: every planned consumer counts as a use of
its dependencies until it finishes, or until nothing can ask for it any more. -/
namespace Dinkster.ProducedReferences
open Transition

variable {Out : Type}

structure References (Out : Type) where
  deps : Dict String (List String)
  targets : List String
  produced : Dict String Out
  uses : String → Int

/-- The use counts of `__init__`. -/
def initialUses (deps : Dict String (List String)) (n : String) : Int :=
  deps.total fun ds => if n ∈ ds then 1 else 0

/-- The loop over a retired node's dependencies; `retired` is the stack with its top first. -/
def discount (targets : List String) : List String → (String → Int) → List String →
    (String → Int) × List String
  | [],uses,retired => (uses,retired)
  | dependency :: rest,uses,retired =>
    let uses := Function.update uses dependency (uses dependency - 1)
    if uses dependency = 0 ∧ dependency ∉ targets then
      discount targets rest uses (dependency :: retired)
    else discount targets rest uses retired

private theorem discount_length (targets ds : List String) (uses : String → Int)
    (retired : List String) :
    (discount targets ds uses retired).2.length ≤ ds.length + retired.length := by
  induction ds generalizing uses retired with
  | nil => exact (Nat.zero_add _).ge
  | cons d ds ih =>
    rw [discount]
    split
    · refine (ih _ _).trans ?_
      rw [List.length_cons,List.length_cons]
      omega
    · refine (ih _ _).trans ?_
      rw [List.length_cons]
      omega

def retire (r : References Out) (retired : List String) : References Out :=
  match retired with
  | [] => r
  | current :: retired =>
    let produced :=
      if r.uses current = 0 ∧ current ∉ r.targets then r.produced.erase current else r.produced
    let dependencies := (r.deps.get? current).getD []
    let counted := discount r.targets dependencies r.uses retired
    retire ⟨r.deps.erase current,r.targets,produced,counted.1⟩ counted.2
termination_by r.deps.total List.length + retired.length
decreasing_by
  have pushed := discount_length r.targets ((r.deps.get? current).getD []) r.uses retired
  have popped := r.deps.total_erase List.length current
  rw [List.length_cons]
  cases found : r.deps.get? current with
  | none =>
    simp only [found,Option.map_none,Option.getD_none,List.length_nil] at pushed popped ⊢
    omega
  | some ds =>
    simp only [found,Option.map_some,Option.getD_some] at pushed popped ⊢
    omega

/-- `finished` -/
def References.finished (r : References Out) (nodeId : String) : References Out :=
  retire r [nodeId]

theorem discount_spec (targets : List String) {ds : List String} (distinct : ds.Nodup)
    (uses : String → Int) (retired : List String) :
    (∀ d, (discount targets ds uses retired).1 d = uses d - if d ∈ ds then 1 else 0) ∧
      ∀ d, d ∈ (discount targets ds uses retired).2 ↔
        d ∈ ds ∧ uses d = 1 ∧ d ∉ targets ∨ d ∈ retired := by
  induction ds generalizing uses retired with
  | nil => simp [discount]
  | cons d ds ih =>
    obtain ⟨fresh,distinct⟩ := List.nodup_cons.mp distinct
    have here : ∀ m ∈ ds, Function.update uses d (uses d - 1) m = uses m := fun m inside =>
      Function.update_of_ne (ne_of_mem_of_not_mem inside fresh) _ _
    rw [discount]
    constructor
    · intro m
      have counted : (if Function.update uses d (uses d - 1) d = 0 ∧ d ∉ targets then
          discount targets ds (Function.update uses d (uses d - 1)) (d :: retired)
          else discount targets ds (Function.update uses d (uses d - 1)) retired).1 m =
          Function.update uses d (uses d - 1) m - if m ∈ ds then 1 else 0 := by
        split <;> exact (ih distinct _ _).1 m
      rw [counted]
      by_cases same : m = d
      · subst same
        simp [fresh]
      · simp [same]
    · intro m
      have freed : Function.update uses d (uses d - 1) d = 0 ↔ uses d = 1 := by
        rw [Function.update_self]
        omega
      have inner : m ∈ ds ∧ Function.update uses d (uses d - 1) m = 1 ∧ m ∉ targets ↔
          m ∈ ds ∧ uses m = 1 ∧ m ∉ targets :=
        and_congr_right fun inside => by rw [here m inside]
      split
      · rename_i pushed
        rw [(ih distinct _ _).2 m,inner,List.mem_cons,List.mem_cons]
        rw [freed] at pushed
        by_cases same : m = d
        · subst same
          simp [pushed]
        · simp [same]
      · rename_i kept
        rw [(ih distinct _ _).2 m,inner,List.mem_cons]
        rw [freed] at kept
        by_cases same : m = d
        · subst same
          simp [fresh,kept]
        · simp [same]

/-- The dependency map of a plan, lazy links included: all nodes serve some target. -/
structure Plan where
  deps : Dict String (List String)
  targets : List String
  sets : ∀ n ds, deps.get? n = some ds → ds.Nodup
  inner : ∀ n ds, deps.get? n = some ds → ∀ d ∈ ds, d ∈ deps.keys
  serves : ∀ n ∈ deps.keys, ∃ t ∈ targets, t ∈ deps.keys ∧
    Relation.ReflTransGen (fun c d => ∃ ds, deps.get? c = some ds ∧ d ∈ ds) t n

/-- `c` is a consumer of `d`. -/
def Plan.Uses (plan : Plan) (c d : String) : Prop := ∃ ds, plan.deps.get? c = some ds ∧ d ∈ ds

/-- The references with what the run has done: the outputs that were made and the nodes whose call
of `finished` has returned. -/
structure State (Out : Type) where
  refs : References Out
  made : String → Option Out
  finished : List String

variable (plan : Plan)

def start : State Out :=
  ⟨⟨plan.deps,plan.targets,.empty,initialUses plan.deps⟩,fun _ => none,[]⟩

inductive Action (Out : Type)
  | produce (n : String) (out : Out)
  | finish (n : String)

def step (s : State Out) : Action Out → Option (State Out)
  | .produce n out =>
    if n ∈ plan.deps.keys ∧ n ∉ s.finished then
      some { s with
        refs := { s.refs with produced := s.refs.produced.set n out }
        made := Function.update s.made n (some out) }
    else none
  | .finish n =>
    if n ∈ plan.deps.keys ∧ n ∉ s.finished then
      some { s with refs := s.refs.finished n, finished := n :: s.finished }
    else none

/-- Settled nodes count as no use any more: they are finished, or nothing can ask for them. -/
structure Inv (made : String → Option Out) (finished retired : List String) (r : References Out) :
    Prop where
  targets : r.targets = plan.targets
  source : ∀ n ds, r.deps.get? n = some ds → plan.deps.get? n = some ds
  counts : ∀ d, r.uses d = initialUses r.deps d
  settled : ∀ n ∈ finished, n ∈ retired ∨ r.deps.get? n = none
  stacked : ∀ n ∈ retired, n ∈ finished ∨ n ∉ plan.targets ∧ r.uses n = 0
  unasked : ∀ n ∈ plan.deps.keys, r.deps.get? n = none → n ∉ finished →
    n ∉ plan.targets ∧ r.uses n = 0
  kept : ∀ n out, made n = some out → n ∈ plan.targets ∨ 0 < r.uses n →
    r.produced.get? n = some out
  dropped : ∀ n ∈ finished, n ∉ plan.targets → r.uses n = 0 → n ∉ retired →
    r.produced.get? n = none
  planned : ∀ n, made n = none → r.produced.get? n = none
  listed : ∀ n out, made n = some out → n ∈ plan.deps.keys

variable {plan} {made : String → Option Out} {finished : List String}

theorem initialUses_nonneg (deps : Dict String (List String)) (d : String) :
    0 ≤ initialUses deps d := Int.natCast_nonneg _

theorem initialUses_erase (deps : Dict String (List String)) (n d : String) :
    initialUses (deps.erase n) d =
      initialUses deps d - if d ∈ (deps.get? n).getD [] then 1 else 0 := by
  have counted := deps.total_erase (fun ds => if d ∈ ds then 1 else 0) n
  rw [initialUses,initialUses]
  cases found : deps.get? n with
  | none =>
    rw [found] at counted
    simp only [Option.map_none,Option.getD_none,List.not_mem_nil,if_false] at counted ⊢
    omega
  | some ds =>
    rw [found] at counted
    simp only [Option.map_some,Option.getD_some] at counted ⊢
    by_cases inside : d ∈ ds
    · rw [if_pos inside] at counted ⊢
      omega
    · rw [if_neg inside] at counted ⊢
      omega

theorem initialUses_eq_zero {deps : Dict String (List String)} {d : String} :
    initialUses deps d = 0 ↔ ∀ c ds, deps.get? c = some ds → d ∉ ds := by
  rw [initialUses,Int.natCast_eq_zero,Dict.total,List.sum_eq_zero_iff]
  constructor
  · intro none c ds found inside
    have one := none _ (List.mem_map_of_mem ((Dict.get?_eq_some_iff _ _ _).mp found))
    simp [inside] at one
  · intro none n counted
    obtain ⟨e,listed,rfl⟩ := List.mem_map.mp counted
    exact if_neg (none e.1 e.2 ((Dict.get?_eq_some_iff _ _ _).mpr listed))

theorem Inv.pop {r : References Out} {current : String} {retired : List String}
    (inv : Inv plan made finished (current :: retired) r) :
    let counted := discount r.targets ((r.deps.get? current).getD []) r.uses retired
    Inv plan made finished counted.2 ⟨r.deps.erase current,r.targets,
      if r.uses current = 0 ∧ current ∉ r.targets then r.produced.erase current else r.produced,
      counted.1⟩ := by
  intro counted
  have distinct : ((r.deps.get? current).getD []).Nodup := by
    cases found : r.deps.get? current with
    | none => exact .nil
    | some ds => exact plan.sets current ds (inv.source current ds found)
  obtain ⟨uses,stack⟩ : (∀ d, counted.1 d = r.uses d -
      if d ∈ (r.deps.get? current).getD [] then 1 else 0) ∧ ∀ d, d ∈ counted.2 ↔
        d ∈ (r.deps.get? current).getD [] ∧ r.uses d = 1 ∧ d ∉ r.targets ∨ d ∈ retired :=
    discount_spec r.targets distinct r.uses retired
  have exact_uses : ∀ d, counted.1 d = initialUses (r.deps.erase current) d := fun d => by
    rw [initialUses_erase,← inv.counts d]
    exact uses d
  have fewer : ∀ d, counted.1 d ≤ r.uses d := fun d => by
    have one := uses d
    split at one <;> omega
  have nonneg : ∀ d, 0 ≤ counted.1 d := fun d => exact_uses d ▸ initialUses_nonneg _ d
  have stays : ∀ d, r.uses d = 0 → counted.1 d = 0 := fun d none => by
    have below := fewer d
    have above := nonneg d
    omega
  constructor
  · exact inv.targets
  · intro n ds found
    rw [Dict.get?_erase] at found
    split at found
    · cases found
    · exact inv.source n ds found
  · exact exact_uses
  · intro n done
    rw [Dict.get?_erase]
    by_cases here : n = current
    · exact .inr (if_pos here)
    · rw [if_neg here]
      rcases inv.settled n done with listed | settled
      · exact .inl ((stack n).mpr (.inr ((List.mem_cons.mp listed).resolve_left here)))
      · exact .inr settled
  · intro n listed
    rcases (stack n).mp listed with ⟨inside,one,untargeted⟩ | old
    · have last := uses n
      rw [if_pos inside] at last
      refine .inr ⟨inv.targets ▸ untargeted,?_⟩
      change counted.1 n = 0
      omega
    · rcases inv.stacked n (List.mem_cons_of_mem _ old) with done | ⟨untargeted,none⟩
      · exact .inl done
      · exact .inr ⟨untargeted,stays n none⟩
  · intro n inside settled undone
    rw [Dict.get?_erase] at settled
    by_cases here : n = current
    · subst here
      rcases inv.stacked n List.mem_cons_self with done | ⟨untargeted,none⟩
      · exact absurd done undone
      · exact ⟨untargeted,stays n none⟩
    · rw [if_neg here] at settled
      obtain ⟨untargeted,none⟩ := inv.unasked n inside settled undone
      exact ⟨untargeted,stays n none⟩
  · intro n out product needed
    have before : n ∈ plan.targets ∨ 0 < r.uses n :=
      needed.imp_right fun more => more.trans_le (fewer n)
    have held := inv.kept n out product before
    split
    · rename_i unneeded
      have other : n ≠ current := by
        rintro rfl
        rcases before with target | more
        · exact unneeded.2 (inv.targets ▸ target)
        · omega
      rw [Dict.get?_erase,if_neg other]
      exact held
    · exact held
  · intro n done untargeted none unlisted
    have unlisted : n ∉ counted.2 := unlisted
    rw [stack n,not_or] at unlisted
    obtain ⟨unpushed,old⟩ := unlisted
    have before : r.uses n = 0 := by
      by_contra some
      have last := uses n
      have none : counted.1 n = 0 := none
      split at last
      · rename_i inside
        exact unpushed ⟨inside,by omega,inv.targets ▸ untargeted⟩
      · omega
    by_cases here : n = current
    · subst here
      have unneeded : r.uses n = 0 ∧ n ∉ r.targets := ⟨before,inv.targets ▸ untargeted⟩
      simp only [if_pos unneeded,Dict.get?_erase,if_true]
    · have absent := inv.dropped n done untargeted before
        fun listed => old ((List.mem_cons.mp listed).resolve_left here)
      split
      · rw [Dict.get?_erase,absent,ite_self]
      · exact absent
  · intro n unmade
    have none := inv.planned n unmade
    split
    · rw [Dict.get?_erase,none,ite_self]
    · exact none
  · exact inv.listed

theorem Inv.retire {r : References Out} {retired : List String}
    (inv : Inv plan made finished retired r) :
    Inv plan made finished [] (ProducedReferences.retire r retired) := by
  induction r,retired using ProducedReferences.retire.induct with
  | case1 r =>
    rw [ProducedReferences.retire]
    exact inv
  | case2 r current retired produced dependencies counted ih =>
    rw [ProducedReferences.retire]
    exact ih inv.pop

theorem start_inv : Inv plan (start plan : State Out).made [] [] (start plan : State Out).refs where
  targets := rfl
  source := fun _ _ found => found
  counts := fun _ => rfl
  settled := nofun
  stacked := nofun
  unasked := by
    intro n inside absent
    exact absurd inside ((Dict.get?_eq_none_iff _ _).mp absent)
  kept := nofun
  dropped := nofun
  planned := fun _ _ => rfl
  listed := nofun

theorem Inv.produce {r : References Out} {n : String} (inv : Inv plan made finished [] r)
    (inside : n ∈ plan.deps.keys) (undone : n ∉ finished) (out : Out) : Inv plan (Function.update made n (some out)) finished []
      ⟨r.deps,r.targets,r.produced.set n out,r.uses⟩ := by
  refine { inv with kept := ?_, dropped := ?_, planned := ?_, listed := ?_ }
  · intro m out' product needed
    change (r.produced.set n out).get? m = some out'
    by_cases here : m = n
    · subst here
      rw [Function.update_self] at product
      rw [Dict.get?_set_self,product]
    · rw [Function.update_of_ne here] at product
      rw [Dict.get?_set_ne _ _ here]
      exact inv.kept m out' product needed
  · intro m done untargeted none unlisted
    change (r.produced.set n out).get? m = _
    rw [Dict.get?_set_ne _ _ (ne_of_mem_of_not_mem done undone)]
    exact inv.dropped m done untargeted none unlisted
  · intro m unmade
    change (r.produced.set n out).get? m = _
    have here : m ≠ n := by
      rintro rfl
      rw [Function.update_self] at unmade
      cases unmade
    rw [Function.update_of_ne here] at unmade
    rw [Dict.get?_set_ne _ _ here]
    exact inv.planned m unmade
  · intro m out' product
    by_cases here : m = n
    · exact here ▸ inside
    · rw [Function.update_of_ne here] at product
      exact inv.listed m out' product

theorem step_inv {s t : State Out} {a : Action Out} (inv : Inv plan s.made s.finished [] s.refs)
    (taken : step plan s a = some t) : Inv plan t.made t.finished [] t.refs := by
  cases a with
  | produce n out =>
    obtain ⟨⟨inside,undone⟩,same⟩ := Option.ite_none_right_eq_some.mp taken
    obtain rfl := Option.some.inj same
    exact inv.produce inside undone out
  | finish n =>
    obtain ⟨⟨inside,undone⟩,same⟩ := Option.ite_none_right_eq_some.mp taken
    obtain rfl := Option.some.inj same
    refine Inv.retire { inv with settled := ?_, stacked := ?_, unasked := ?_, dropped := ?_ }
    · intro m done
      rcases List.mem_cons.mp done with rfl | old
      · exact .inl List.mem_cons_self
      · exact (inv.settled m old).imp_left nofun
    · intro m listed
      exact .inl (List.mem_singleton.mp listed ▸ List.mem_cons_self)
    · intro m listed settled unfinished
      exact inv.unasked m listed settled fun old => unfinished (List.mem_cons_of_mem _ old)
    · intro m done untargeted none unlisted
      have other : m ≠ n := fun same => unlisted (List.mem_singleton.mpr same)
      exact inv.dropped m ((List.mem_cons.mp done).resolve_left other) untargeted none nofun

theorem reachable_inv {s : State Out} (reached : Reachable (step plan) (start plan) s) :
    Inv plan s.made s.finished [] s.refs :=
  reached.invariant (fun s => Inv plan s.made s.finished [] s.refs) start_inv
    fun _ _ _ inv _ taken => step_inv inv taken

/-- The nodes that the run can still come to: unfinished targets and what such nodes may read. -/
inductive Awaited (plan : Plan) (finished : List String) : String → Prop
  | target {n : String} (wanted : n ∈ plan.targets) (unfinished : n ∉ finished) :
    Awaited plan finished n
  | needed {c n : String} (consumer : Awaited plan finished c) (uses : plan.Uses c n)
    (unfinished : n ∉ finished) : Awaited plan finished n

theorem Inv.unsettled {r : References Out} (inv : Inv plan made finished [] r) {c : String}
    (awaited : Awaited plan finished c) (listed : c ∈ plan.deps.keys) : r.deps.get? c ≠ none := by
  intro settled
  induction awaited with
  | target wanted unfinished => exact (inv.unasked _ listed settled unfinished).1 wanted
  | @needed c n consumer uses unfinished ih =>
    have none := (inv.unasked n listed settled unfinished).2
    rw [inv.counts,initialUses_eq_zero] at none
    obtain ⟨ds,planned,inside⟩ := uses
    refine ih ((Dict.mem_keys_iff _ _).mpr ⟨ds,planned⟩) ?_
    cases held : r.deps.get? c with
    | none => rfl
    | some left =>
      have same := (inv.source c left held).symm.trans planned
      exact absurd (Option.some.inj same ▸ inside) (none c left held)

theorem Inv.needed {r : References Out} (inv : Inv plan made finished [] r) {c d : String}
    (awaited : Awaited plan finished c) (uses : plan.Uses c d) : 0 < r.uses d := by
  obtain ⟨ds,planned,inside⟩ := uses
  obtain ⟨left,held⟩ := Option.ne_none_iff_exists'.mp
    (inv.unsettled awaited ((Dict.mem_keys_iff _ _).mpr ⟨ds,planned⟩))
  have same := (inv.source c left held).symm.trans planned
  rw [inv.counts]
  refine (initialUses_nonneg _ d).lt_of_ne fun none => ?_
  exact (initialUses_eq_zero.mp none.symm c left held) (Option.some.inj same ▸ inside)

theorem Inv.unused {r : References Out} (inv : Inv plan made finished [] r)
    (done : ∀ n ∈ plan.deps.keys, n ∈ finished) (d : String) : r.uses d = 0 := by
  rw [inv.counts,initialUses_eq_zero]
  intro c ds held
  have planned := (Dict.mem_keys_iff _ _).mpr ⟨ds,inv.source c ds held⟩
  rcases inv.settled c (done c planned) with listed | settled
  · cases listed
  · rw [settled] at held
    cases held

/-- Every node finishes after the nodes that it may read. -/
def InOrder (plan : Plan) (s : State Out) : Action Out → Prop
  | .produce _ _ => True
  | .finish n => ∀ d, plan.Uses n d → d ∈ s.finished

theorem inOrder_closed {s : State Out} (reached : Reach (step plan) (InOrder plan) (start plan) s) :
    ∀ n ∈ s.finished, ∀ d, plan.Uses n d → d ∈ s.finished := by
  refine reached.invariant (fun s => ∀ n ∈ s.finished, ∀ d, plan.Uses n d → d ∈ s.finished)
    (fun n done => absurd done List.not_mem_nil) ?_
  intro s a t closed allowed taken
  cases a with
  | produce n out =>
    obtain ⟨-,same⟩ := Option.ite_none_right_eq_some.mp taken
    obtain rfl := Option.some.inj same
    exact closed
  | finish n =>
    obtain ⟨-,same⟩ := Option.ite_none_right_eq_some.mp taken
    obtain rfl := Option.some.inj same
    intro m done d uses
    rcases List.mem_cons.mp done with rfl | old
    · exact List.mem_cons_of_mem _ (allowed d uses)
    · exact List.mem_cons_of_mem _ (closed m old d uses)

theorem awaited_of_closed (closed : ∀ n ∈ finished, ∀ d, plan.Uses n d → d ∈ finished) {c : String}
    (listed : c ∈ plan.deps.keys) (unfinished : c ∉ finished) : Awaited plan finished c := by
  obtain ⟨t,wanted,-,path⟩ := plan.serves c listed
  induction path with
  | refl => exact .target wanted unfinished
  | @tail b n path last ih =>
    have open' : b ∉ finished := fun done => unfinished (closed b done n last)
    obtain ⟨ds,planned,-⟩ := id last
    exact .needed (ih ((Dict.mem_keys_iff _ _).mpr ⟨ds,planned⟩) open') last unfinished

/-- In every run no count is negative, no output is dropped that a target or a node that can still
run may read, and in the end only the targets' outputs are left. Where every node finishes after
its dependencies, every unfinished consumer finds what it may read. -/
theorem references_kept (plan : Plan) :
    (∀ s : State Out, Reachable (step plan) (start plan) s →
      (∀ d, 0 ≤ s.refs.uses d) ∧
      (∀ d out, s.made d = some out →
        (d ∈ plan.targets ∨ ∃ c, Awaited plan s.finished c ∧ plan.Uses c d) →
          s.refs.produced.get? d = some out) ∧
      ((∀ n ∈ plan.deps.keys, n ∈ s.finished) →
        ∀ d out, s.refs.produced.get? d = some out → d ∈ plan.targets)) ∧
    ∀ s : State Out, Reach (step plan) (InOrder plan) (start plan) s →
      ∀ c ∈ plan.deps.keys, c ∉ s.finished → ∀ d, plan.Uses c d → ∀ out, s.made d = some out →
        s.refs.produced.get? d = some out := by
  constructor
  · intro s reached
    have inv := reachable_inv reached
    refine ⟨fun d => inv.counts d ▸ initialUses_nonneg _ d,fun d out product needed => ?_,
      fun done d out held => ?_⟩
    · refine inv.kept d out product (needed.imp_right ?_)
      rintro ⟨c,awaited,uses⟩
      exact inv.needed awaited uses
    · by_contra untargeted
      cases product : s.made d with
      | none =>
        rw [inv.planned d product] at held
        cases held
      | some out' =>
        rw [inv.dropped d (done d (inv.listed d out' product)) untargeted (inv.unused done d)
          List.not_mem_nil] at held
        cases held
  · intro s reached c listed unfinished d uses out product
    have inv := reachable_inv (reached.mono fun _ _ _ => trivial)
    have awaited := awaited_of_closed (inOrder_closed reached) listed unfinished
    exact inv.kept d out product (.inr (inv.needed awaited uses))

def dependencyDict (graph : Nodes) (targets : List String) : Dict String (List String) :=
  ⟨Plan.dependencyMap graph targets,by
    rw [Plan.dependencyMap,Plan.waits,List.map_map]
    exact (List.map_id _).symm ▸ Digraph.nodup_collect _ _ _⟩

theorem get?_dependencyDict {graph : Nodes} {targets : List String} {n : String}
    {ds : List String} : (dependencyDict graph targets).get? n = some ds ↔
      n ∈ Plan.reachableFrom graph targets ∧
        Plan.within (Plan.reachableFrom graph targets) (Plan.dependencies graph) n = ds := by
  rw [Dict.get?_eq_some_iff]
  constructor
  · intro inside
    obtain ⟨m,reached,same⟩ := List.mem_map.mp inside
    obtain ⟨rfl,rfl⟩ := Prod.mk.inj same
    exact ⟨reached,rfl⟩
  · rintro ⟨reached,rfl⟩
    exact List.mem_map.mpr ⟨n,reached,rfl⟩

theorem mem_dependencyDict {graph : Nodes} {targets : List String} {n : String} :
    n ∈ (dependencyDict graph targets).keys ↔ n ∈ Plan.reachableFrom graph targets := by
  rw [Dict.mem_keys_iff]
  exact ⟨fun ⟨_,found⟩ => (get?_dependencyDict.mp found).1,
    fun reached => ⟨_,get?_dependencyDict.mpr ⟨reached,rfl⟩⟩⟩

def planOf (graph : Nodes) (targets : List String) : Plan where
  deps := dependencyDict graph targets
  targets := targets
  sets := by
    intro n ds found
    obtain ⟨-,rfl⟩ := get?_dependencyDict.mp found
    refine List.Nodup.filter _ ?_
    rw [Plan.dependencies]
    split
    · exact .nil
    · exact List.nodup_dedup _
  inner := by
    intro n ds found d inside
    obtain ⟨reached,rfl⟩ := get?_dependencyDict.mp found
    exact mem_dependencyDict.mpr (Plan.reachable_inner n reached d inside)
  serves := by
    intro n listed
    obtain ⟨t,target,present,path⟩ := Plan.mem_reachableFrom.mp (mem_dependencyDict.mp listed)
    have begins := Plan.mem_reachableFrom.mpr ⟨t,target,present,.refl⟩
    refine ⟨t,target,mem_dependencyDict.mpr begins,?_⟩
    clear listed
    induction path with
    | refl => exact .refl
    | @tail b d before last ih =>
      have here := Plan.mem_reachableFrom.mpr ⟨t,target,present,before⟩
      have next := Plan.mem_reachableFrom.mpr ⟨t,target,present,before.tail last⟩
      exact ih.tail ⟨_,get?_dependencyDict.mpr ⟨here,rfl⟩,
        List.mem_filter.mpr ⟨last,decide_eq_true next⟩⟩

end Dinkster.ProducedReferences
