import Dinkster.Engine.StrongPlan
import Dinkster.Lib.Transition

/-! The scheduler of a graph without deferred links: one task for each planned node, created when
the last of its dependencies has finished. A step of the model runs one task from its last
suspension to its end. -/
namespace Dinkster.StaticDag
open Topological Transition Dinkster.Plan

def needs (deps : Waits) (n : String) : List String := (deps.lookup n).getD []

/-- A plan with its dependency map. -/
structure Schedule where
  order : List String
  deps : Waits
  distinct : (deps.map (·.1)).Nodup
  sets : ∀ e ∈ deps, e.2.Nodup
  inner : ∀ e ∈ deps, ∀ d ∈ e.2, d ∈ deps.map (·.1)
  planned : Order (deps.map (·.1)) (needs deps) order

namespace Schedule

def nodes (sch : Schedule) : List String := sch.deps.map (·.1)

def dependents (sch : Schedule) (n : String) : List String :=
  (sch.deps.filter fun e => n ∈ e.2).map (·.1)

end Schedule

structure State where
  remaining : String → Int
  started : List String
  finished : List String
  failed : List String
  cancelled : List String
  /-- The task group cancels its tasks and creates no more. -/
  aborting : Bool

def State.running (s : State) (n : String) : Bool :=
  s.started.contains n && !s.finished.contains n && !s.failed.contains n &&
    !s.cancelled.contains n

variable (sch : Schedule)

def start : State :=
  let remaining := fun n => ((needs sch.deps n).length : Int)
  ⟨remaining,sch.order.filter (remaining · = 0),[],[],[],false⟩

/-- The loop over the dependents of a finished node; `false` when creating a task raises. -/
def release : List String → State → State × Bool
  | [],s => (s,true)
  | dependent :: rest,s =>
    let s := { s with remaining := Function.update s.remaining dependent (s.remaining dependent - 1) }
    if s.remaining dependent = 0 then
      if s.aborting then (s,false) else release rest { s with started := s.started ++ [dependent] }
    else release rest s

inductive Action
  | finish (n : String)
  | fail (n : String)
  /-- The group is told to stop, by a failed task or by the run's end. -/
  | abort
  | cancel (n : String)

def step (s : State) : Action → Option State
  | .finish n =>
    if s.running n then
      match release (sch.dependents n) s with
      | (s,true) => some { s with finished := n :: s.finished }
      | (s,false) => some { s with failed := n :: s.failed }
    else none
  | .fail n => if s.running n then some { s with failed := n :: s.failed } else none
  | .abort => some { s with aborting := true }
  | .cancel n =>
    if s.running n ∧ s.aborting then some { s with cancelled := n :: s.cancelled } else none

theorem needs_of_mem {deps : Waits} (distinct : (deps.map (·.1)).Nodup) {e : String × List String}
    (inside : e ∈ deps) : needs deps e.1 = e.2 := by
  induction deps with
  | nil => cases inside
  | cons first rest ih =>
    obtain ⟨fresh,distinct⟩ := List.nodup_cons.mp distinct
    rw [needs,List.lookup_cons]
    rcases List.mem_cons.mp inside with rfl | later
    · simp
    · have other : (e.1 == first.1) = false := by
        exact beq_eq_false_iff_ne.mpr fun same => fresh (List.mem_map.mpr ⟨e,later,same⟩)
      rw [other]
      exact ih distinct later

theorem exists_entry {deps : Waits} {n : String} (inside : n ∈ deps.map (·.1)) :
    ∃ e ∈ deps, e.1 = n := List.mem_map.mp inside

namespace Schedule

variable {sch}

theorem mem_dependents {n m : String} :
    m ∈ sch.dependents n ↔ m ∈ sch.nodes ∧ n ∈ needs sch.deps m := by
  rw [dependents,List.mem_map]
  constructor
  · rintro ⟨e,kept,rfl⟩
    obtain ⟨inside,waits⟩ := List.mem_filter.mp kept
    rw [needs_of_mem sch.distinct inside]
    exact ⟨List.mem_map_of_mem inside,of_decide_eq_true waits⟩
  · rintro ⟨inside,waits⟩
    obtain ⟨e,listed,rfl⟩ := exists_entry inside
    rw [needs_of_mem sch.distinct listed] at waits
    exact ⟨e,List.mem_filter.mpr ⟨listed,decide_eq_true waits⟩,rfl⟩

theorem dependents_nodup (n : String) : (sch.dependents n).Nodup :=
  sch.distinct.sublist (List.filter_sublist.map _)

theorem needs_nodup {n : String} (inside : n ∈ sch.nodes) : (needs sch.deps n).Nodup := by
  obtain ⟨e,listed,rfl⟩ := exists_entry inside
  rw [needs_of_mem sch.distinct listed]
  exact sch.sets e listed

theorem needs_nodes {n d : String} (inside : n ∈ sch.nodes) (waits : d ∈ needs sch.deps n) :
    d ∈ sch.nodes := by
  obtain ⟨e,listed,rfl⟩ := exists_entry inside
  rw [needs_of_mem sch.distinct listed] at waits
  exact sch.inner e listed d waits

end Schedule

theorem release_open {ds : List String} (distinct : ds.Nodup) (s : State)
    (going : s.aborting = false) :
    release ds s = ({ s with
      remaining := fun m => if m ∈ ds then s.remaining m - 1 else s.remaining m
      started := s.started ++ ds.filter (s.remaining · = 1) },true) := by
  induction ds generalizing s with
  | nil => simp [release]
  | cons d ds ih =>
    obtain ⟨fresh,distinct⟩ := List.nodup_cons.mp distinct
    have unchanged : ∀ m ∈ ds, Function.update s.remaining d (s.remaining d - 1) m =
        s.remaining m := fun m inside =>
      Function.update_of_ne (ne_of_mem_of_not_mem inside fresh) _ _
    have filtered : ds.filter (fun m => Function.update s.remaining d (s.remaining d - 1) m = 1) =
        ds.filter (s.remaining · = 1) :=
      List.filter_congr fun m inside => by rw [unchanged m inside]
    have counted : (fun m => if m ∈ ds then Function.update s.remaining d (s.remaining d - 1) m - 1
        else Function.update s.remaining d (s.remaining d - 1) m) =
        fun m => if m ∈ d :: ds then s.remaining m - 1 else s.remaining m := by
      funext m
      by_cases here : m = d
      · subst here
        simp [fresh]
      · simp [here]
    have free : (s.remaining d - 1 = 0) ↔ s.remaining d = 1 := by omega
    simp only [release,Function.update_self,free]
    split
    · rename_i one
      rw [if_neg (by simp [going]),ih distinct
        ⟨Function.update s.remaining d (s.remaining d - 1),s.started ++ [d],s.finished,s.failed,
          s.cancelled,s.aborting⟩ going]
      have kept : (d :: ds).filter (s.remaining · = 1) = d :: ds.filter (s.remaining · = 1) := by
        simp [one]
      simp only [filtered,counted,kept,List.append_assoc,List.singleton_append]
    · rename_i more
      rw [ih distinct ⟨Function.update s.remaining d (s.remaining d - 1),s.started,s.finished,
        s.failed,s.cancelled,s.aborting⟩ going]
      have dropped : (d :: ds).filter (s.remaining · = 1) = ds.filter (s.remaining · = 1) := by
        simp [more]
      simp only [filtered,counted,dropped]

theorem release_aborting (ds : List String) (s : State) (stopped : s.aborting = true) :
    ∃ remaining, (release ds s).1 = { s with remaining } := by
  induction ds generalizing s with
  | nil => exact ⟨s.remaining,rfl⟩
  | cons d ds ih =>
    rw [release]
    split
    · exact ⟨_,rfl⟩
    · exact ih ⟨Function.update s.remaining d (s.remaining d - 1),s.started,s.finished,s.failed,
        s.cancelled,s.aborting⟩ stopped

def outstanding (finished : List String) (n : String) : Nat :=
  ((needs sch.deps n).filter (· ∉ finished)).length

structure Inv (s : State) : Prop where
  distinct : s.started.Nodup
  planned : ∀ n ∈ s.started, n ∈ sch.nodes
  after : ∀ n ∈ s.started, ∀ d ∈ needs sch.deps n, d ∈ s.finished
  created : ∀ n ∈ s.finished, n ∈ s.started
  apart : ∀ n ∈ s.finished, n ∉ s.failed ∧ n ∉ s.cancelled
  counts : s.aborting = false → ∀ n ∈ sch.nodes, s.remaining n = outstanding sch s.finished n
  ready : s.aborting = false → ∀ n ∈ sch.nodes, (∀ d ∈ needs sch.deps n, d ∈ s.finished) →
    n ∈ s.started

variable {sch}

theorem outstanding_eq_zero {finished : List String} {n : String} :
    outstanding sch finished n = 0 ↔ ∀ d ∈ needs sch.deps n, d ∈ finished := by
  rw [outstanding,List.length_eq_zero_iff,List.filter_eq_nil_iff]
  simp

theorem outstanding_finish {finished : List String} {n m : String} (inside : m ∈ sch.nodes)
    (fresh : n ∉ finished) :
    (outstanding sch (n :: finished) m : Int) =
      outstanding sch finished m - if n ∈ needs sch.deps m then 1 else 0 := by
  have distinct := (Schedule.needs_nodup inside).filter (p := (· ∉ finished))
  have split : (needs sch.deps m).filter (· ∉ n :: finished) =
      ((needs sch.deps m).filter (· ∉ finished)).erase n := by
    rw [distinct.erase_eq_filter,List.filter_filter]
    exact List.filter_congr fun d _ => by by_cases d = n <;> simp [*]
  rw [outstanding,outstanding,split,List.length_erase]
  by_cases waits : n ∈ needs sch.deps m
  · have kept : n ∈ (needs sch.deps m).filter (· ∉ finished) :=
      List.mem_filter.mpr ⟨waits,decide_eq_true fresh⟩
    have some := List.length_pos_of_mem kept
    rw [if_pos kept,if_pos waits]
    omega
  · rw [if_neg fun kept => waits (List.mem_of_mem_filter kept),if_neg waits]
    omega

theorem running_iff {s : State} {n : String} :
    s.running n = true ↔ n ∈ s.started ∧ n ∉ s.finished ∧ n ∉ s.failed ∧ n ∉ s.cancelled := by
  simp [State.running,and_assoc]

theorem start_inv : Inv sch (start sch) where
  distinct := sch.planned.nodup.filter _
  planned := fun n inside => sch.planned.mem_iff.mp (List.mem_of_mem_filter inside)
  after := by
    intro n inside d waits
    have none := of_decide_eq_true (List.mem_filter.mp inside).2
    rw [Int.natCast_eq_zero,List.length_eq_zero_iff] at none
    rw [none] at waits
    cases waits
  created := nofun
  apart := nofun
  counts := by
    intro _ n _
    simp [start,outstanding]
  ready := by
    intro _ n inside met
    refine List.mem_filter.mpr ⟨sch.planned.mem_iff.mpr inside,decide_eq_true ?_⟩
    have none : outstanding sch [] n = 0 := outstanding_eq_zero.mpr met
    simpa [outstanding] using none

theorem finish_open {s t : State} {n : String} (going : s.aborting = false)
    (taken : step sch s (.finish n) = some t) :
    s.running n = true ∧ t = { s with
      remaining := fun m => if m ∈ sch.dependents n then s.remaining m - 1 else s.remaining m
      started := s.started ++ (sch.dependents n).filter (s.remaining · = 1)
      finished := n :: s.finished } := by
  simp only [step,release_open (Schedule.dependents_nodup n) s going,
    Option.ite_none_right_eq_some] at taken
  exact ⟨taken.1,(Option.some.inj taken.2).symm⟩

theorem freed_iff {s : State} (inv : Inv sch s) (going : s.aborting = false) {n m : String}
    (fresh : n ∉ s.finished) : m ∈ (sch.dependents n).filter (s.remaining · = 1) ↔
      m ∈ sch.nodes ∧ n ∈ needs sch.deps m ∧ ∀ d ∈ needs sch.deps m, d ∈ n :: s.finished := by
  rw [List.mem_filter,Schedule.mem_dependents,decide_eq_true_eq,and_assoc]
  refine and_congr_right fun inside => and_congr_right fun waits => ?_
  have counted := outstanding_finish inside fresh
  rw [if_pos waits,← inv.counts going m inside] at counted
  rw [← outstanding_eq_zero]
  omega

theorem finish_inv {s t : State} {n : String} (inv : Inv sch s) (going : s.aborting = false)
    (taken : step sch s (.finish n) = some t) : Inv sch t := by
  obtain ⟨running,rfl⟩ := finish_open going taken
  obtain ⟨created,fresh,unfailed,uncancelled⟩ := running_iff.mp running
  have freed := fun m => freed_iff (m := m) inv going fresh
  constructor
  · refine List.nodup_append.mpr ⟨inv.distinct,(Schedule.dependents_nodup n).filter _,?_⟩
    rintro m old _ new rfl
    exact fresh (inv.after m old n ((freed m).mp new).2.1)
  · intro m inside
    exact (List.mem_append.mp inside).elim (inv.planned m) fun new => ((freed m).mp new).1
  · intro m inside d waits
    rcases List.mem_append.mp inside with old | new
    · exact List.mem_cons_of_mem _ (inv.after m old d waits)
    · exact ((freed m).mp new).2.2 d waits
  · intro m inside
    refine List.mem_append_left _ ?_
    rcases List.mem_cons.mp inside with rfl | old
    · exact created
    · exact inv.created m old
  · intro m inside
    rcases List.mem_cons.mp inside with rfl | old
    · exact ⟨unfailed,uncancelled⟩
    · exact inv.apart m old
  · intro _ m inside
    rw [outstanding_finish inside fresh,← inv.counts going m inside]
    by_cases waits : n ∈ needs sch.deps m
    · simp [Schedule.mem_dependents,inside,waits]
    · simp [Schedule.mem_dependents,waits]
  · intro _ m inside met
    by_cases waits : n ∈ needs sch.deps m
    · exact List.mem_append_right _ ((freed m).mpr ⟨inside,waits,met⟩)
    · refine List.mem_append_left _ (inv.ready going m inside fun d needed => ?_)
      exact (List.mem_cons.mp (met d needed)).resolve_left fun same => waits (same ▸ needed)

theorem finish_aborting {s t : State} {n : String} (stopped : s.aborting = true)
    (taken : step sch s (.finish n) = some t) : s.running n = true ∧ t.aborting = true ∧
      t.started = s.started ∧ t.cancelled = s.cancelled ∧
      (t.finished = n :: s.finished ∧ t.failed = s.failed ∨
        t.finished = s.finished ∧ t.failed = n :: s.failed) := by
  obtain ⟨remaining,released⟩ := release_aborting (sch.dependents n) s stopped
  rw [step,Option.ite_none_right_eq_some] at taken
  obtain ⟨running,taken⟩ := taken
  refine ⟨running,?_⟩
  split at taken
  all_goals
    rename_i after same
    rw [same] at released
    obtain rfl := Option.some.inj taken
    subst released
  · exact ⟨stopped,rfl,rfl,.inl ⟨rfl,rfl⟩⟩
  · exact ⟨stopped,rfl,rfl,.inr ⟨rfl,rfl⟩⟩

theorem Inv.stopped {s t : State} (inv : Inv sch s) (started : t.started = s.started)
    (grows : ∀ n ∈ s.finished, n ∈ t.finished) (created : ∀ n ∈ t.finished, n ∈ s.started)
    (apart : ∀ n ∈ t.finished, n ∉ t.failed ∧ n ∉ t.cancelled)
    (going : t.aborting = false → s.aborting = false ∧ t.remaining = s.remaining ∧
      t.finished = s.finished) : Inv sch t where
  distinct := started ▸ inv.distinct
  planned := started ▸ inv.planned
  after := by
    rw [started]
    exact fun n inside d waits => grows d (inv.after n inside d waits)
  created := by
    rw [started]
    exact created
  apart := apart
  counts := by
    intro open'
    obtain ⟨before,counts,same⟩ := going open'
    rw [counts,same]
    exact inv.counts before
  ready := by
    intro open'
    obtain ⟨before,-,same⟩ := going open'
    rw [started,same]
    exact inv.ready before

theorem step_inv {s t : State} {a : Action} (inv : Inv sch s) (taken : step sch s a = some t) :
    Inv sch t := by
  cases a with
  | finish n =>
    cases going : s.aborting with
    | false => exact finish_inv inv going taken
    | true =>
      obtain ⟨running,still,started,cancelled,ended⟩ := finish_aborting going taken
      obtain ⟨created,fresh,unfailed,uncancelled⟩ := running_iff.mp running
      rcases ended with ⟨finished,failed⟩ | ⟨finished,failed⟩
      · refine inv.stopped started ?_ ?_ ?_ (by simp [still])
        · exact fun m inside => finished ▸ List.mem_cons_of_mem _ inside
        · rw [finished]
          exact List.forall_mem_cons.mpr ⟨created,inv.created⟩
        · rw [finished,failed,cancelled]
          exact List.forall_mem_cons.mpr ⟨⟨unfailed,uncancelled⟩,inv.apart⟩
      · refine inv.stopped started ?_ ?_ ?_ (by simp [still])
        · exact fun m inside => finished ▸ inside
        · rw [finished]
          exact inv.created
        · rw [finished,failed,cancelled]
          refine fun m inside => ⟨fun here => ?_,(inv.apart m inside).2⟩
          rcases List.mem_cons.mp here with rfl | old
          · exact fresh inside
          · exact (inv.apart m inside).1 old
  | fail n =>
    obtain ⟨running,same⟩ := Option.ite_none_right_eq_some.mp taken
    obtain rfl := Option.some.inj same
    have fresh := (running_iff.mp running).2.1
    refine inv.stopped rfl (fun _ inside => inside) inv.created ?_ fun going => ⟨going,rfl,rfl⟩
    refine fun m inside => ⟨fun here => ?_,(inv.apart m inside).2⟩
    rcases List.mem_cons.mp here with rfl | old
    · exact fresh inside
    · exact (inv.apart m inside).1 old
  | abort =>
    obtain rfl := Option.some.inj taken
    exact inv.stopped rfl (fun _ inside => inside) inv.created inv.apart nofun
  | cancel n =>
    obtain ⟨⟨running,-⟩,same⟩ := Option.ite_none_right_eq_some.mp taken
    obtain rfl := Option.some.inj same
    have fresh := (running_iff.mp running).2.1
    refine inv.stopped rfl (fun _ inside => inside) inv.created ?_ fun going => ⟨going,rfl,rfl⟩
    refine fun m inside => ⟨(inv.apart m inside).1,fun here => ?_⟩
    rcases List.mem_cons.mp here with rfl | old
    · exact fresh inside
    · exact (inv.apart m inside).2 old

theorem reachable_inv {s : State} (reached : Reachable (step sch) (start sch) s) : Inv sch s :=
  reached.invariant (Inv sch) start_inv fun _ _ _ inv _ taken => step_inv inv taken

theorem Inv.unstarted {s : State} (inv : Inv sch s) {d n : String} (unfinished : d ∉ s.finished)
    (path : Relation.TransGen (Digraph.Edge (needs sch.deps)) n d) : n ∉ s.started := by
  induction path using Relation.TransGen.head_induction_on with
  | single waits => exact fun started => unfinished (inv.after _ started _ waits)
  | head waits _ ih => exact fun started => ih (inv.created _ (inv.after _ started _ waits))

def Action.succeeds : Action → Bool
  | .finish _ => true
  | _ => false

theorem succeeding {s : State}
    (reached : Reach (step sch) (fun _ a => a.succeeds = true) (start sch) s) :
    s.aborting = false ∧ s.failed = [] ∧ s.cancelled = [] := by
  have both : (s.aborting = false ∧ s.failed = [] ∧ s.cancelled = []) ∧ Inv sch s := by
    refine reached.invariant (fun s => (s.aborting = false ∧ s.failed = [] ∧ s.cancelled = []) ∧
      Inv sch s) ⟨⟨rfl,rfl,rfl⟩,start_inv⟩ ?_
    rintro s a t ⟨⟨going,failed,cancelled⟩,inv⟩ allowed taken
    cases a with
    | finish n =>
      refine ⟨?_,step_inv inv taken⟩
      obtain ⟨-,rfl⟩ := finish_open going taken
      exact ⟨going,failed,cancelled⟩
    | fail | abort | cancel => cases allowed
  exact both.1

theorem Inv.ended {s : State} (inv : Inv sch s) (going : s.aborting = false) (failed : s.failed = [])
    (cancelled : s.cancelled = []) (idle : ∀ n, s.running n = false) :
    ∀ n ∈ sch.nodes, n ∈ s.finished := by
  refine sch.planned.induction fun n inside met => ?_
  have started := inv.ready going n inside met
  by_contra unfinished
  have running : s.running n = true := by
    rw [running_iff,failed,cancelled]
    exact ⟨started,unfinished,List.not_mem_nil,List.not_mem_nil⟩
  rw [idle n] at running
  cases running

/-- Every node has at most one task, created once all its dependencies are finished, and what
depends on a failed node gets none. Where all tasks succeed, the scheduler ends with every planned
node started exactly once and finished. -/
theorem scheduled (sch : Schedule) :
    (∀ s, Reachable (step sch) (start sch) s → s.started.Nodup ∧
      (∀ n ∈ s.started, n ∈ sch.order ∧ ∀ d ∈ needs sch.deps n, d ∈ s.finished) ∧
      ∀ d ∈ s.failed, ∀ n, Relation.TransGen (Digraph.Edge (needs sch.deps)) n d → n ∉ s.started) ∧
    ∀ s, Reach (step sch) (fun _ a => a.succeeds = true) (start sch) s →
      (∀ n, s.running n = false) →
        s.started.Perm sch.order ∧ ∀ n ∈ sch.order, n ∈ s.finished := by
  constructor
  · intro s reached
    have inv := reachable_inv reached
    refine ⟨inv.distinct,fun n started => ⟨sch.planned.mem_iff.mpr (inv.planned n started),
      inv.after n started⟩,fun d failed n path => inv.unstarted (fun done => ?_) path⟩
    exact (inv.apart d done).1 failed
  · intro s reached idle
    obtain ⟨going,failed,cancelled⟩ := succeeding reached
    have inv := reachable_inv (reached.mono fun _ _ _ => trivial)
    have finished := inv.ended going failed cancelled idle
    refine ⟨(List.perm_ext_iff_of_nodup inv.distinct sch.planned.nodup).mpr fun n => ?_,
      fun n inside => finished n (sch.planned.mem_iff.mp inside)⟩
    rw [sch.planned.mem_iff]
    exact ⟨inv.planned n,fun inside => inv.created n (finished n inside)⟩

def pairSchedule : Schedule where
  order := ["b","a"]
  deps := [("b",[]),("a",["b"])]
  distinct := by decide
  sets := by decide
  inner := by decide
  planned := ⟨⟨⟨by decide,by decide,by decide⟩,⟨by decide,by decide,by decide⟩,trivial⟩,by decide⟩

theorem scheduled_pair : ∃ s, run (step pairSchedule) (start pairSchedule)
    [.finish "b",.finish "a"] = some s ∧ s.started.Nodup ∧ "a" ∈ s.finished := by
  obtain ⟨s,ran⟩ : ∃ s, run (step pairSchedule) (start pairSchedule)
      [.finish "b",.finish "a"] = some s := ⟨_,rfl⟩
  refine ⟨s,ran,((scheduled pairSchedule).1 s (reachable_of_run ran)).1,?_⟩
  obtain rfl := Option.some.inj ran
  exact List.mem_cons_self

theorem needs_waits {needed : List String} {deps : String → List String} {n : String}
    (inside : n ∈ needed) : needs (waits needed deps) n = within needed deps n := by
  rw [needs,waits,List.lookup_graph _ inside,Option.getD_some]

theorem keys_waits (needed : List String) (deps : String → List String) :
    (waits needed deps).map (·.1) = needed := by
  rw [waits,List.map_map]
  exact List.map_id needed

def scheduleOf {needed order : List String} {deps : String → List String} (distinct : needed.Nodup)
    (sets : ∀ n, (deps n).Nodup) (planned : Order needed (within needed deps) order) : Schedule where
  order := order
  deps := waits needed deps
  distinct := (keys_waits needed deps).symm ▸ distinct
  sets := by
    intro e inside
    obtain ⟨n,-,rfl⟩ := List.mem_map.mp inside
    exact (sets n).filter _
  inner := by
    intro e inside d waits
    obtain ⟨n,needed,rfl⟩ := List.mem_map.mp inside
    rw [keys_waits]
    exact reachable_inner n needed d waits
  planned := (keys_waits needed deps).symm ▸
    planned.congr (fun _ => Iff.rfl) fun n inside d => by rw [needs_waits inside]

theorem exists_schedule {graph : Nodes} {targets order : List String}
    (planned : plan graph targets = .ok order) :
    ∃ sch : Schedule, sch.order = order ∧ sch.deps = dependencyMap graph targets := by
  have distinct : (reachableFrom graph targets).Nodup := Digraph.nodup_collect _ _ _
  have greedy := planLoop_roots distinct (dependencies graph)
  rw [plan] at planned
  split at planned
  · rename_i counted
    obtain rfl := Except.ok.inj planned
    obtain ⟨once,listed⟩ := greedy.ordered.fresh
    have complete := List.Subperm.perm_of_length_le
      (List.subperm_of_subset once fun n inside => (listed n inside).1) counted.ge
    refine ⟨scheduleOf distinct (fun n => ?_)
      ⟨greedy.ordered,fun n inside => complete.mem_iff.mpr inside⟩,rfl,rfl⟩
    rw [dependencies]
    split
    · exact .nil
    · exact List.nodup_dedup _
  · cases planned

theorem strongDependencies_nodup (graph : Nodes) (effective : Effective) (n : String) :
    (strongDependencies graph effective n).Nodup := by
  rw [strongDependencies]
  split
  · exact .nil
  · exact List.nodup_dedup _
  · exact List.nodup_dedup _

theorem exists_strong_schedule {graph : Nodes} {targets order : List String} {effective : Effective}
    {deps : Waits} (acyclic : Digraph.Acyclic (Reads graph))
    (planned : strongPlan graph targets effective = some (order,deps)) :
    ∃ sch : Schedule, sch.order = order ∧ sch.deps = deps := by
  rw [strongPlan,Option.ite_none_right_eq_some] at planned
  obtain ⟨-,planned⟩ := planned
  obtain ⟨rfl,rfl⟩ := Prod.mk.inj (Option.some.inj planned)
  have distinct : (strongReachable graph targets effective).Nodup := Digraph.nodup_collect _ _ _
  obtain ⟨order,result,greedy⟩ :=
    strongLoop_greedy _ distinct (strongDependencies graph effective) []
  rw [left_nil,List.nil_append] at result
  rw [result]
  exact ⟨scheduleOf distinct (strongDependencies_nodup graph effective) (greedy.complete
    (acyclic_within (acyclic.mono fun _ _ edge => strongly_reads edge)) reachable_inner),rfl,rfl⟩

end Dinkster.StaticDag
