import Dinkster.Protocol.Lifecycle

/-! What the constructor's checks amount to, one proposition for each state, and
that the reducer's branches keep it. The exception is work reported while
cancelling before anything was dispatched: the guards let it through and the
constructor refuses it. -/
namespace Dinkster.Workgroup
open Canonical WorkGroupState

namespace LifecycleFacts

variable {f : LifecycleFacts}

def Phase (f : LifecycleFacts) : Prop :=
  match f.state with
  | .defined => f.prepared = [] ∧ f.dispatched = [] ∧ f.cancelled = [] ∧ f.released = [] ∧
      f.failures = [] ∧ f.refusals = []
  | .admitting => f.prepared ≠ f.definition.replicas ∧ f.dispatched = [] ∧ f.cancelled = [] ∧
      f.released = [] ∧ f.failures = [] ∧ f.refusals = []
  | .dispatching => f.prepared = f.definition.replicas ∧ f.dispatched = [] ∧ f.cancelled = [] ∧
      f.released = [] ∧ f.failures = [] ∧ f.refusals = []
  | .running => f.prepared = f.definition.replicas ∧ f.dispatched = f.definition.allUnits ∧
      f.completed ≠ f.definition.allUnits ∧ f.cancelled = [] ∧ f.released = [] ∧
      f.failures = [] ∧ f.refusals = []
  | .gathering => f.prepared = f.definition.replicas ∧ f.dispatched = f.definition.allUnits ∧
      f.completed = f.definition.allUnits ∧ f.cancelled = [] ∧ f.released = [] ∧
      f.failures = [] ∧ f.refusals = []
  | .succeeded => f.prepared = f.definition.replicas ∧ f.dispatched = f.definition.allUnits ∧
      f.completed = f.definition.allUnits ∧ f.cancelled = [] ∧ f.failures = [] ∧ f.refusals = []
  | .refused => f.dispatched = [] ∧ f.cancelled = [] ∧ f.released = [] ∧ f.failures = []
  | .failing => f.prepared = f.definition.replicas ∧ f.dispatched = f.definition.allUnits ∧
      (f.released = [] ∨ f.cancelled = f.definition.replicas) ∧ f.refusals = []
  | .failed => f.prepared = f.definition.replicas ∧ f.dispatched = f.definition.allUnits ∧
      f.cancelled = f.definition.replicas ∧ f.released = f.definition.replicas ∧ f.refusals = []
  | .cancelling => f.cancelled ≠ f.definition.replicas ∧ f.released = [] ∧ f.failures = [] ∧
      f.refusals = []
  | .cancelled => f.cancelled = f.definition.replicas ∧ f.failures = [] ∧ f.refusals = []

structure Coherent (f : LifecycleFacts) : Prop where
  prepared : Facts f.definition.replicas f.prepared
  cancelled : Facts f.definition.replicas f.cancelled
  released : Facts f.definition.replicas f.released
  completed : Facts f.definition.allUnits f.completed
  progress : Facts f.definition.allUnits (f.progress.map (·.1))
  progress_valid : ∀ p ∈ f.progress, 1 ≤ p.2.2 ∧ p.2.1 ≤ p.2.2
  failures : Facts f.definition.allUnits (f.failures.map (·.1))
  refusals : Facts f.definition.replicas (f.refusals.map (·.1))
  dispatched : f.dispatched = [] ∨
    f.dispatched = f.definition.allUnits ∧ f.prepared = f.definition.replicas
  completed_dispatched : f.completed ⊆ f.dispatched
  progress_dispatched : f.progress.map (·.1) ⊆ f.dispatched
  phase : f.Phase

theorem postInit_ok_iff : f.postInit = .ok () ↔ ∀ c ∈ f.checks, c.1 = false := by
  unfold postInit
  cases found : f.checks.find? (·.1) with
  | none => simpa using List.find?_eq_none.mp found
  | some bad =>
    have holds := List.find?_some found
    have member := List.mem_of_find?_eq_some found
    simp only [reduceCtorEq,false_iff]
    intro clean
    simp [clean bad member] at holds

theorem notCanonical_iff {kind : IdKind} (all values : List (Id kind)) :
    ¬notCanonical all values ↔ Facts all values := by
  have strict : values.Pairwise (· < ·) ↔ _ := strict_iff (fun v : Id kind => v.value)
  simp only [notCanonical,not_or,not_not,ne_eq]
  constructor
  · rintro ⟨distinct,sorted,inside⟩
    exact ⟨strict.mpr ⟨distinct.map (Id.value_injective kind),sorted⟩,inside⟩
  · intro facts
    exact ⟨facts.nodup,(strict.mp facts.strict).2,facts.inside⟩

theorem notUniquelySorted_iff {kind : IdKind} (all values : List (Id kind)) :
    (¬notUniquelySorted values ∧ values ⊆ all) ↔ Facts all values := by
  rw [← notCanonical_iff]
  simp only [notUniquelySorted,notCanonical,not_or,not_not,and_assoc]

private theorem factChecks_iff : (∀ c ∈ f.factChecks, c.1 = false) ↔
    Facts f.definition.replicas f.prepared ∧ Facts f.definition.replicas f.cancelled ∧
    Facts f.definition.replicas f.released ∧ Facts f.definition.allUnits f.dispatched ∧
    Facts f.definition.allUnits f.completed ∧
    (∀ p ∈ f.progress, 1 ≤ p.2.2 ∧ p.2.1 ≤ p.2.2) ∧
    Facts f.definition.allUnits (f.progress.map (·.1)) ∧
    Facts f.definition.allUnits (f.failures.map (·.1)) ∧
    Facts f.definition.replicas (f.refusals.map (·.1)) ∧
    f.completed ⊆ f.dispatched ∧ f.progress.map (·.1) ⊆ f.dispatched ∧
    (f.dispatched = [] ∨ f.dispatched = f.definition.allUnits) ∧
    (f.dispatched = [] ∨ f.prepared = f.definition.replicas) := by
  simp only [factChecks,List.forall_mem_cons,List.not_mem_nil,false_implies,implies_true,and_true,
    decide_eq_false_iff_not,notCanonical_iff,← notUniquelySorted_iff,List.subset_def,List.mem_map,
    not_exists,not_and,not_or,not_not,not_lt]
  grind

private theorem phaseChecks_iff (completed : f.completed ⊆ f.dispatched)
    (progress : f.progress.map (·.1) ⊆ f.dispatched)
    : (∀ c ∈ f.phaseChecks, c.1 = false) ↔ f.Phase := by
  have none_completed : f.dispatched = [] → f.completed = [] := fun none =>
    List.subset_nil.mp (none ▸ completed)
  have none_progress : f.dispatched = [] → f.progress = [] := fun none =>
    List.map_eq_nil_iff.mp (List.subset_nil.mp (none ▸ progress))
  have replicas := f.definition.replicas_ne_nil
  have units := f.definition.allUnits_ne_nil
  simp only [phaseChecks,List.forall_mem_cons,List.not_mem_nil,false_implies,implies_true,and_true,
    decide_eq_false_iff_not]
  unfold Phase
  cases f.state <;> simp only [reduceCtorEq,false_and,true_and,not_false_eq_true,List.mem_cons,
    List.not_mem_nil,or_false,or_true,not_true_eq_false,and_false,and_true,or_self] <;> grind

theorem postInit_coherent : f.postInit = .ok () ↔ f.Coherent := by
  rw [postInit_ok_iff,checks,List.forall_mem_append,factChecks_iff]
  constructor
  · rintro ⟨⟨prepared,cancelled,released,dispatched,completed,valid,progress,failures,refusals,
      completed_dispatched,progress_dispatched,whole,ready⟩,phase⟩
    exact ⟨prepared,cancelled,released,completed,progress,valid,failures,refusals,by tauto,
      completed_dispatched,progress_dispatched,
      (phaseChecks_iff completed_dispatched progress_dispatched).mp phase⟩
  · intro c
    have sub : Facts f.definition.allUnits f.dispatched := by
      rcases c.dispatched with none | ⟨all,-⟩
      · rw [none]
        exact .nil
      · rw [all]
        exact .whole f.definition.allUnits_sorted
    exact ⟨⟨c.prepared,c.cancelled,c.released,sub,c.completed,c.progress_valid,c.progress,
      c.failures,c.refusals,c.completed_dispatched,c.progress_dispatched,
      c.dispatched.imp id (·.1),c.dispatched.imp id (·.2)⟩,
      (phaseChecks_iff c.completed_dispatched c.progress_dispatched).mpr c.phase⟩

def StrayReport (f : LifecycleFacts) (e : WorkGroupEvent) : Prop :=
  f.state = cancelling ∧ f.dispatched = [] ∧ e.unitChild.isSome

/-- The branches of the reducer, with the guards that lead to them. -/
inductive Step (f : LifecycleFacts) :
    WorkGroupEvent → LifecycleFacts → List WorkGroupCommand → Prop
  | begin (idle : f.state = defined) :
      Step f .beginAdmission { f with state := admitting } f.definition.begins
  | prepareLate (c : Child) (late : f.state = refused ∨ f.state = cancelling)
      (fresh : c.replica ∉ f.prepared) :
      Step f (.workGroupPrepared c)
        { f with prepared := sortedBy (·.value) (f.prepared ++ [c.replica]) } []
  | prepare (c : Child) (admits : f.state = admitting) (fresh : c.replica ∉ f.prepared)
      (missing : (sortedBy (·.value) (f.prepared ++ [c.replica])).length ≠
        f.definition.members.length) :
      Step f (.workGroupPrepared c)
        { f with prepared := sortedBy (·.value) (f.prepared ++ [c.replica]) } []
  | prepareLast (c : Child) (admits : f.state = admitting) (fresh : c.replica ∉ f.prepared)
      (full : (sortedBy (·.value) (f.prepared ++ [c.replica])).length =
        f.definition.members.length) :
      Step f (.workGroupPrepared c)
        { f with
          state := dispatching
          prepared := sortedBy (·.value) (f.prepared ++ [c.replica]) } f.definition.commits
  | refuse (c : Child) (reason : Reason) (admits : f.state = admitting)
      (fresh : c.replica ∉ f.refusals.map (·.1)) :
      Step f (.workGroupRefused c reason)
        { f with
          state := refused
          refusals := sortedBy (·.1.value) (f.refusals ++ [(c.replica,reason)]) } f.definition.aborts
  | refuseLate (c : Child) (reason : Reason) (late : f.state = refused)
      (fresh : c.replica ∉ f.refusals.map (·.1)) :
      Step f (.workGroupRefused c reason)
        { f with
          state := refused
          refusals := sortedBy (·.1.value) (f.refusals ++ [(c.replica,reason)]) } []
  | dispatch (commands : List WorkGroupCommand) (ready : f.state = dispatching)
      (ran : f.definition.runs = .ok commands) :
      Step f .dispatchWork
        { f with state := running, dispatched := f.definition.units.map (·.unit) } commands
  | progress (c : UnitChild) (p : Progress) (active : f.state = running ∨ f.state = cancelling)
      (pending : c.unit ∉ f.completed)
      (advances : ¬(f.progressTable.get? c.unit).any fun old =>
        p.total ≠ old.2 ∨ p.completed ≤ old.1) :
      Step f (.workUnitProgress c p)
        { f with
          progress := sortedBy (·.1.value)
            (f.progressTable.set c.unit (p.completed,p.total)).entries } []
  | result (c : UnitChild) (active : f.state = running ∨ f.state = cancelling)
      (pending : c.unit ∉ f.completed)
      (missing : f.state = running → (sortedBy (·.value) (f.completed ++ [c.unit])).length ≠
        f.definition.units.length) :
      Step f (.workUnitResult c)
        { f with completed := sortedBy (·.value) (f.completed ++ [c.unit]) } []
  | resultLast (c : UnitChild) (active : f.state = running) (pending : c.unit ∉ f.completed)
      (full : (sortedBy (·.value) (f.completed ++ [c.unit])).length =
        f.definition.units.length) :
      Step f (.workUnitResult c)
        { f with
          state := gathering
          completed := sortedBy (·.value) (f.completed ++ [c.unit]) } []
  | fail (c : UnitChild) (reason : Reason) (active : f.state = running)
      (fresh : c.unit ∉ f.failures.map (·.1)) :
      Step f (.workUnitFailed c reason)
        { f with
          state := failing
          failures := sortedBy (·.1.value) (f.failures ++ [(c.unit,reason)]) }
        (f.cancelsPrepared reason)
  | failLate (c : UnitChild) (reason : Reason) (late : f.state = failing)
      (fresh : c.unit ∉ f.failures.map (·.1)) :
      Step f (.workUnitFailed c reason)
        { f with failures := sortedBy (·.1.value) (f.failures ++ [(c.unit,reason)]) } []
  | gatherFail (reason : Reason) (gathers : f.state = gathering) :
      Step f (.gatherFailed reason) { f with state := failing } (f.cancelsPrepared reason)
  | gatherSucceed (gathers : f.state = gathering) :
      Step f .gatherSucceeded { f with state := succeeded } f.definition.releases
  | cancel (reason : Reason) (live : f.state = admitting ∨ f.state = dispatching ∨
      f.state = running ∨ f.state = gathering) :
      Step f (.requestCancellation reason) { f with state := cancelling } (f.definition.cancels reason)
  | acknowledge (c : Child) (stopping : f.state = cancelling ∨ f.state = failing)
      (fresh : c.replica ∉ f.cancelled)
      (missing : ¬(sortedBy (·.value) (f.cancelled ++ [c.replica]) ⊆ f.definition.replicas ∧
        f.definition.replicas ⊆ sortedBy (·.value) (f.cancelled ++ [c.replica]))) :
      Step f (.workGroupCancelled c)
        { f with cancelled := sortedBy (·.value) (f.cancelled ++ [c.replica]) } []
  | acknowledgeLast (c : Child) (stopping : f.state = cancelling ∨ f.state = failing)
      (fresh : c.replica ∉ f.cancelled)
      (full : f.definition.replicas ⊆ sortedBy (·.value) (f.cancelled ++ [c.replica])) :
      Step f (.workGroupCancelled c)
        { f with
          state := if f.state = cancelling then .cancelled else f.state
          cancelled := sortedBy (·.value) (f.cancelled ++ [c.replica]) } f.definition.releases
  | release (c : Child) (stopped : f.state = succeeded ∨ f.state = .cancelled ∨
      (f.state = failing ∧ f.cancelled.length = f.definition.members.length))
      (fresh : c.replica ∉ f.released) :
      Step f (.workGroupReleased c)
        { f with released := sortedBy (·.value) (f.released ++ [c.replica]) } []
  | settle (stopping : f.state = failing)
      (acknowledged : f.cancelled ⊆ f.prepared ∧ f.prepared ⊆ f.cancelled)
      (cleaned : f.released ⊆ f.prepared ∧ f.prepared ⊆ f.released) :
      Step f .settleFailure { f with state := failed } []

theorem transition_step {e : WorkGroupEvent} {g : LifecycleFacts}
    {commands : List WorkGroupCommand} (taken : f.transition e = .ok (g,commands)) :
    f.Step e g commands := by
  cases e with
  | beginAdmission =>
    simp only [transition] at taken
    split at taken
    · simp at taken
    · rename_i idle
      simp only [Except.ok.injEq,Prod.mk.injEq] at taken
      obtain ⟨rfl,rfl⟩ := taken
      exact .begin (not_not.mp idle)
  | workGroupPrepared c =>
    simp only [transition] at taken
    split at taken
    · simp at taken
    · rename_i guard
      obtain ⟨live,fresh⟩ := not_or.mp guard
      simp only [List.mem_cons,List.not_mem_nil,or_false,not_not] at live
      split at taken
      · rename_i late
        simp only [Except.ok.injEq,Prod.mk.injEq] at taken
        obtain ⟨rfl,rfl⟩ := taken
        exact .prepareLate c (live.resolve_left late) fresh
      · rename_i admits
        split at taken
        · rename_i full
          simp only [Except.ok.injEq,Prod.mk.injEq] at taken
          obtain ⟨rfl,rfl⟩ := taken
          exact .prepareLast c (not_not.mp admits) fresh full
        · rename_i missing
          simp only [Except.ok.injEq,Prod.mk.injEq] at taken
          obtain ⟨rfl,rfl⟩ := taken
          exact .prepare c (not_not.mp admits) fresh missing
  | workGroupRefused c reason =>
    simp only [transition] at taken
    split at taken
    · simp at taken
    · rename_i guard
      obtain ⟨live,fresh⟩ := not_or.mp guard
      simp only [List.mem_cons,List.not_mem_nil,or_false,not_not] at live
      simp only [Except.ok.injEq,Prod.mk.injEq] at taken
      obtain ⟨rfl,rfl⟩ := taken
      rcases live with admits | late
      · rw [if_pos admits]
        exact .refuse c reason admits fresh
      · rw [if_neg (by simp [late])]
        exact .refuseLate c reason late fresh
  | dispatchWork =>
    simp only [transition] at taken
    split at taken
    · simp at taken
    · rename_i ready
      cases ran : f.definition.runs with
      | error e => simp [ran,bind,Except.bind] at taken
      | ok list =>
        simp only [ran,bind,Except.bind,pure,Except.pure,Except.ok.injEq,Prod.mk.injEq] at taken
        obtain ⟨rfl,rfl⟩ := taken
        exact .dispatch _ (not_not.mp ready) ran
  | workUnitProgress c p =>
    simp only [transition] at taken
    split at taken
    · simp at taken
    · rename_i guard
      obtain ⟨live,pending⟩ := not_or.mp guard
      simp only [List.mem_cons,List.not_mem_nil,or_false,not_not] at live
      split at taken
      · simp at taken
      · rename_i advances
        simp only [Except.ok.injEq,Prod.mk.injEq] at taken
        obtain ⟨rfl,rfl⟩ := taken
        exact .progress c p live pending advances
  | workUnitResult c =>
    simp only [transition] at taken
    split at taken
    · simp at taken
    · rename_i guard
      obtain ⟨live,pending⟩ := not_or.mp guard
      simp only [List.mem_cons,List.not_mem_nil,or_false,not_not] at live
      simp only [Except.ok.injEq,Prod.mk.injEq] at taken
      obtain ⟨rfl,rfl⟩ := taken
      split
      · rename_i last
        exact .resultLast c last.1 pending last.2
      · rename_i more
        exact .result c live pending fun active full => more ⟨active,full⟩
  | workUnitFailed c reason =>
    simp only [transition] at taken
    split at taken
    · simp at taken
    · rename_i guard
      obtain ⟨live,fresh⟩ := not_or.mp guard
      simp only [List.mem_cons,List.not_mem_nil,or_false,not_not] at live
      split at taken
      · rename_i late
        simp only [Except.ok.injEq,Prod.mk.injEq] at taken
        obtain ⟨rfl,rfl⟩ := taken
        exact .failLate c reason late fresh
      · rename_i first
        simp only [Except.ok.injEq,Prod.mk.injEq] at taken
        obtain ⟨rfl,rfl⟩ := taken
        exact .fail c reason (live.resolve_right first) fresh
  | gatherFailed reason =>
    simp only [transition] at taken
    split at taken
    · simp at taken
    · rename_i gathers
      simp only [Except.ok.injEq,Prod.mk.injEq] at taken
      obtain ⟨rfl,rfl⟩ := taken
      exact .gatherFail reason (not_not.mp gathers)
  | gatherSucceeded =>
    simp only [transition] at taken
    split at taken
    · simp at taken
    · rename_i gathers
      simp only [Except.ok.injEq,Prod.mk.injEq] at taken
      obtain ⟨rfl,rfl⟩ := taken
      exact .gatherSucceed (not_not.mp gathers)
  | requestCancellation reason =>
    simp only [transition] at taken
    split at taken
    · simp at taken
    · rename_i live
      simp only [List.mem_cons,List.not_mem_nil,or_false,not_not] at live
      simp only [Except.ok.injEq,Prod.mk.injEq] at taken
      obtain ⟨rfl,rfl⟩ := taken
      exact .cancel reason live
  | workGroupCancelled c =>
    simp only [transition] at taken
    split at taken
    · simp at taken
    · rename_i guard
      obtain ⟨live,fresh⟩ := not_or.mp guard
      simp only [List.mem_cons,List.not_mem_nil,or_false,not_not] at live
      split at taken
      · rename_i full
        simp only [Except.ok.injEq,Prod.mk.injEq] at taken
        obtain ⟨rfl,rfl⟩ := taken
        exact .acknowledgeLast c live fresh full.2
      · rename_i missing
        simp only [Except.ok.injEq,Prod.mk.injEq] at taken
        obtain ⟨rfl,rfl⟩ := taken
        exact .acknowledge c live fresh missing
  | workGroupReleased c =>
    simp only [transition] at taken
    split at taken
    · simp at taken
    · rename_i guard
      obtain ⟨live,fresh,cleaning⟩ := (not_or.mp guard).imp id not_or.mp
      simp only [List.mem_cons,List.not_mem_nil,or_false,not_not] at live
      simp only [Except.ok.injEq,Prod.mk.injEq] at taken
      obtain ⟨rfl,rfl⟩ := taken
      refine .release c ?_ fresh
      rcases live with done | stopped | stopping
      · exact .inl done
      · exact .inr (.inl stopped)
      · exact .inr (.inr ⟨stopping,not_not.mp fun ne => cleaning ⟨stopping,ne⟩⟩)
  | settleFailure =>
    simp only [transition] at taken
    split at taken
    · simp at taken
    · rename_i guard
      simp only [not_or,not_not] at guard
      simp only [Except.ok.injEq,Prod.mk.injEq] at taken
      obtain ⟨rfl,rfl⟩ := taken
      exact .settle guard.1 guard.2.1 guard.2.2

end LifecycleFacts

/-- A message of this group and attempt, from the member it names and about a unit of it. -/
structure Correlated (d : WorkGroupDefinition) (e : WorkGroupEvent) : Prop where
  member : ∀ c, e.child = some c → ∃ b ∈ d.members, c = d.child b
  unit : ∀ u, e.unitChild = some u →
    ∃ w ∈ d.units, w.unit = u.unit ∧ w.replica = u.replica ∧ w.slot = u.slot

theorem binding_ok {d : WorkGroupDefinition} {r : ReplicaId} {b : ReplicaBinding}
    (found : d.binding r = .ok b) : b ∈ d.members ∧ b.replica = r := by
  unfold WorkGroupDefinition.binding at found
  split at found
  · rename_i hit
    obtain rfl := Except.ok.inj found
    exact ⟨List.mem_of_find?_eq_some hit,by simpa using List.find?_some hit⟩
  · simp at found

theorem WorkGroupEvent.child_of_unitChild {e : WorkGroupEvent} {u : UnitChild}
    (work : e.unitChild = some u) : e.child = some u.toChild := by
  cases e <;> simp_all [WorkGroupEvent.unitChild,WorkGroupEvent.child]

theorem fence_correlated {d : WorkGroupDefinition} {e : WorkGroupEvent}
    (fenced : d.fence e = .ok ()) : Correlated d e := by
  unfold WorkGroupDefinition.fence at fenced
  split at fenced
  · rename_i local_
    refine ⟨fun c message => by simp [local_] at message,fun u work => ?_⟩
    simp [WorkGroupEvent.child_of_unitChild work] at local_
  · rename_i c message
    cases found : d.binding c.replica with
    | error e => simp [found,bind,Except.bind] at fenced
    | ok b =>
      obtain ⟨member,same⟩ := binding_ok found
      simp only [found,bind,Except.bind] at fenced
      split at fenced
      · simp at fenced
      · rename_i correlation
        simp only [ne_eq,Prod.mk.injEq,not_not] at correlation
        obtain ⟨group,attempt,worker,device⟩ := correlation
        have origin : c = d.child b := by
          cases c
          simp_all [WorkGroupDefinition.child]
        refine ⟨fun c' message' => ?_,fun u work => ?_⟩
        · rw [message] at message'
          exact ⟨b,member,Option.some.inj message' ▸ origin⟩
        · simp only [work] at fenced
          split at fenced
          · simp at fenced
          · rename_i w known
            split at fenced
            · simp at fenced
            · rename_i matching
              obtain ⟨replica,slot⟩ := Prod.mk.inj (not_not.mp matching)
              exact ⟨w,List.mem_of_find?_eq_some known,by simpa using List.find?_some known,
                replica,slot⟩

theorem Correlated.replica_known {d : WorkGroupDefinition} {e : WorkGroupEvent} {c : Child}
    (correlated : Correlated d e) (message : e.child = some c) : c.replica ∈ d.replicas := by
  obtain ⟨b,member,rfl⟩ := correlated.member c message
  exact List.mem_map_of_mem member

theorem Correlated.unit_known {d : WorkGroupDefinition} {e : WorkGroupEvent} {u : UnitChild}
    (correlated : Correlated d e) (work : e.unitChild = some u) : u.unit ∈ d.allUnits := by
  obtain ⟨w,member,same,-⟩ := correlated.unit u work
  rw [d.allUnits_eq]
  exact same ▸ List.mem_map_of_mem member

namespace LifecycleFacts

variable {f g : LifecycleFacts} {e : WorkGroupEvent} {commands : List WorkGroupCommand}

private theorem add_id {kind : IdKind} {all values : List (Id kind)} (facts : Facts all values)
    {r : Id kind} (known : r ∈ all) (fresh : r ∉ values) :
    Facts all (sortedBy (·.value) (values ++ [r])) :=
  facts.insert Id.value (fun _ _ => id) (Id.value_injective _) known fresh

private theorem add_entry {kind : IdKind} {γ : Type} {all : List (Id kind)}
    {entries : List (Id kind × γ)} (facts : Facts all (entries.map (·.1))) {e : Id kind × γ}
    (known : e.1 ∈ all) (fresh : e.1 ∉ entries.map (·.1)) :
    Facts all ((sortedBy (·.1.value) (entries ++ [e])).map (·.1)) :=
  facts.insert_entry Id.value (fun _ _ => id) (Id.value_injective _) known fresh

private theorem replicas_length (d : WorkGroupDefinition) :
    d.replicas.length = d.members.length := by
  simp [WorkGroupDefinition.replicas]

private theorem allUnits_length (d : WorkGroupDefinition) :
    d.allUnits.length = d.units.length := by
  simp [d.allUnits_eq]

theorem Step.coherent (step : f.Step e g commands) (c : f.Coherent)
    (correlated : Correlated f.definition e) (sound : ¬f.StrayReport e) : g.Coherent := by
  have phase := c.phase
  have members := f.definition.members_sorted
  have units := f.definition.allUnits_sorted
  cases step with
  | begin idle =>
    simp only [Phase,idle] at phase
    refine { c with phase := ?_ }
    simp only [Phase,phase,and_true,ne_eq]
    exact f.definition.replicas_ne_nil.symm
  | prepareLate r late fresh =>
    have known := correlated.replica_known (c := r) rfl
    refine { c with prepared := add_id c.prepared known fresh,dispatched := ?_,phase := ?_ }
    · rcases c.dispatched with none | ⟨-,full⟩
      · exact .inl none
      · exact absurd (full ▸ known) fresh
    · rcases late with refusing | stopping
      · simpa only [Phase,refusing] using phase
      · simpa only [Phase,stopping] using phase
  | prepare r admits fresh missing =>
    have known := correlated.replica_known (c := r) rfl
    simp only [Phase,admits] at phase
    refine { c with prepared := add_id c.prepared known fresh,dispatched := ?_,phase := ?_ }
    · exact .inl phase.2.1
    · simp only [Phase,admits,phase,and_true]
      intro full
      exact missing (full ▸ replicas_length f.definition)
  | prepareLast r admits fresh full =>
    have known := correlated.replica_known (c := r) rfl
    have prepared := add_id c.prepared known fresh
    simp only [Phase,admits] at phase
    refine { c with prepared,dispatched := .inl phase.2.1,phase := ?_ }
    simp only [Phase,phase,and_true]
    exact prepared.eq_whole_of_length members (full.trans (replicas_length _).symm)
  | refuse r reason admits fresh =>
    have known := correlated.replica_known (c := r) rfl
    simp only [Phase,admits] at phase
    refine { c with refusals := add_entry c.refusals known fresh,phase := ?_ }
    simp only [Phase,phase,and_self]
  | refuseLate r reason late fresh =>
    have known := correlated.replica_known (c := r) rfl
    simp only [Phase,late] at phase
    refine { c with refusals := add_entry c.refusals known fresh,phase := ?_ }
    simp only [Phase,phase,and_self]
  | dispatch commands ready ran =>
    simp only [Phase,ready] at phase
    have completed : f.completed = [] :=
      List.subset_nil.mp (phase.2.1 ▸ c.completed_dispatched)
    have progress : f.progress.map (·.1) = [] :=
      List.subset_nil.mp (phase.2.1 ▸ c.progress_dispatched)
    have all := f.definition.allUnits_eq.symm
    refine { c with
      dispatched := .inr ⟨all,phase.1⟩
      completed_dispatched := completed ▸ List.nil_subset _
      progress_dispatched := progress ▸ List.nil_subset _
      phase := ?_ }
    simp only [Phase,phase,all,completed,and_self,and_true,true_and]
    exact f.definition.allUnits_ne_nil.symm
  | progress u p active pending advances =>
    have known := correlated.unit_known (u := u) rfl
    have dispatched : f.dispatched = f.definition.allUnits := by
      refine (c.dispatched.resolve_left fun none => ?_).1
      rcases active with runs | stopping
      · simp only [Phase,runs] at phase
        exact f.definition.allUnits_ne_nil (phase.2.1 ▸ none)
      · exact sound ⟨stopping,none,rfl⟩
    have entries : ∀ e ∈ (f.progressTable.set u.unit (p.completed,p.total)).entries,
        e = (u.unit,p.completed,p.total) ∨ e ∈ f.progress := fun e he =>
      (Dict.mem_entries_of_set he).imp id Dict.mem_entries_of_ofList
    have inside : (f.progressTable.set u.unit (p.completed,p.total)).entries.map (·.1) ⊆
        f.definition.allUnits := by
      intro unit hu
      obtain ⟨e,he,rfl⟩ := List.mem_map.mp hu
      rcases entries e he with rfl | old
      · exact known
      · exact c.progress.inside (List.mem_map_of_mem old)
    have progress := Facts.of_entries Id.value (fun _ _ => id) (Id.value_injective _)
      (f.progressTable.set u.unit (p.completed,p.total)).distinct inside
    refine { c with
      progress
      progress_valid := fun e he => ?_
      progress_dispatched := dispatched ▸ progress.inside
      phase := ?_ }
    · rcases entries e ((mem_sortedBy _ _ e).mp he) with rfl | old
      · exact p.valid
      · exact c.progress_valid e old
    · rcases active with runs | stopping
      · simpa only [Phase,runs] using phase
      · simpa only [Phase,stopping] using phase
  | result u active pending missing =>
    have known := correlated.unit_known (u := u) rfl
    have completed := add_id c.completed known pending
    have dispatched : f.dispatched = f.definition.allUnits := by
      refine (c.dispatched.resolve_left fun none => ?_).1
      rcases active with runs | stopping
      · simp only [Phase,runs] at phase
        exact f.definition.allUnits_ne_nil (phase.2.1 ▸ none)
      · exact sound ⟨stopping,none,rfl⟩
    refine { c with completed,completed_dispatched := dispatched ▸ completed.inside,phase := ?_ }
    rcases active with runs | stopping
    · simp only [Phase,runs] at phase
      simp only [Phase,runs,phase,and_self,and_true,true_and]
      intro full
      exact missing runs (full ▸ allUnits_length f.definition)
    · simpa only [Phase,stopping] using phase
  | resultLast u active pending full =>
    have known := correlated.unit_known (u := u) rfl
    have completed := add_id c.completed known pending
    simp only [Phase,active] at phase
    refine { c with completed,completed_dispatched := phase.2.1 ▸ completed.inside,phase := ?_ }
    simp only [Phase,phase,and_self,and_true,true_and]
    exact completed.eq_whole_of_length units (full.trans (allUnits_length _).symm)
  | fail u reason active fresh =>
    have known := correlated.unit_known (u := u) rfl
    simp only [Phase,active] at phase
    refine { c with failures := add_entry c.failures known fresh,phase := ?_ }
    simp only [Phase,phase,and_self,true_or]
  | failLate u reason late fresh =>
    have known := correlated.unit_known (u := u) rfl
    refine { c with failures := add_entry c.failures known fresh,phase := ?_ }
    simpa only [Phase,late] using phase
  | gatherFail reason gathers =>
    simp only [Phase,gathers] at phase
    refine { c with phase := ?_ }
    simp only [Phase,phase,and_self,true_or]
  | gatherSucceed gathers =>
    simp only [Phase,gathers] at phase
    refine { c with phase := ?_ }
    simp only [Phase,phase,and_self]
  | cancel reason live =>
    refine { c with phase := ?_ }
    have replicas := f.definition.replicas_ne_nil.symm
    rcases live with state | state | state | state <;> simp only [Phase,state] at phase <;>
      simp only [Phase,phase,and_self,ne_eq,replicas,not_false_eq_true]
  | acknowledge r stopping fresh missing =>
    have known := correlated.replica_known (c := r) rfl
    have cancelled := add_id c.cancelled known fresh
    have partly : sortedBy (·.value) (f.cancelled ++ [r.replica]) ≠ f.definition.replicas :=
      fun full => missing ⟨cancelled.inside,full ▸ List.Subset.refl _⟩
    refine { c with cancelled,phase := ?_ }
    rcases stopping with stopping | failing_
    · simp only [Phase,stopping] at phase
      simp only [Phase,stopping,phase,and_self,and_true]
      exact partly
    · simp only [Phase,failing_] at phase
      have unreleased : f.released = [] :=
        phase.2.2.1.resolve_right fun full => fresh (full ▸ known)
      simp only [Phase,failing_,phase,unreleased,and_self,true_or]
  | acknowledgeLast r stopping fresh full =>
    have known := correlated.replica_known (c := r) rfl
    have cancelled := add_id c.cancelled known fresh
    have whole := cancelled.eq_whole members full
    refine { c with cancelled,phase := ?_ }
    rcases stopping with stopping | failing_
    · simp only [Phase,stopping] at phase
      simp only [Phase,stopping,if_true,phase,and_self,and_true]
      exact whole
    · simp only [Phase,failing_] at phase
      simp only [Phase,failing_,reduceCtorEq,if_false,phase,and_true,true_and]
      exact .inr whole
  | release r stopped fresh =>
    have known := correlated.replica_known (c := r) rfl
    refine { c with released := add_id c.released known fresh,phase := ?_ }
    rcases stopped with done | stopped | ⟨stopping,acknowledged⟩
    · simpa only [Phase,done] using phase
    · simpa only [Phase,stopped] using phase
    · simp only [Phase,stopping] at phase
      simp only [Phase,stopping,phase,and_true,true_and]
      exact .inr (c.cancelled.eq_whole_of_length members
        (acknowledged.trans (replicas_length _).symm))
  | settle stopping acknowledged cleaned =>
    simp only [Phase,stopping] at phase
    refine { c with phase := ?_ }
    rw [phase.1] at acknowledged cleaned
    simp only [Phase,phase,and_true,true_and]
    exact ⟨c.cancelled.eq_whole members acknowledged.2,c.released.eq_whole members cleaned.2⟩

theorem Step.stray (step : f.Step e g commands) (stray : f.StrayReport e) : ¬g.Coherent := by
  obtain ⟨stopping,none,work⟩ := stray
  intro c
  cases step with
  | progress u p active pending advances =>
    have reported : u.unit ∈ (sortedBy (·.1.value)
        (f.progressTable.set u.unit (p.completed,p.total)).entries).map (·.1) := by
      have entry := Dict.get?_set_self f.progressTable u.unit (p.completed,p.total)
      exact List.mem_map.mpr ⟨_,(mem_sortedBy _ _ _).mpr ((Dict.get?_eq_some_iff ..).mp entry),rfl⟩
    have dispatched := c.progress_dispatched reported
    simp [none] at dispatched
  | result u active pending missing =>
    have reported : u.unit ∈ sortedBy (·.value) (f.completed ++ [u.unit]) := by simp
    have dispatched := c.completed_dispatched reported
    simp [none] at dispatched
  | resultLast u active pending full => simp [stopping] at active
  | fail u reason active fresh => simp [stopping] at active
  | failLate u reason late fresh => simp [stopping] at late
  | _ => simp [WorkGroupEvent.unitChild] at work

end LifecycleFacts
end Dinkster.Workgroup
