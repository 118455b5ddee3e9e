import Dinkster.Protocol.Workgroup
import Dinkster.Lib.Dict

/-! The workgroup lifecycle: its facts, the checks of its constructor and the
reducer. `transition` is the part of the reducer before the new lifecycle is
constructed; only `reduceWorkgroup` runs the constructor's checks. -/
namespace Dinkster.Workgroup
open Canonical

inductive WorkGroupState
  | defined | admitting | dispatching | running | gathering | succeeded
  | refused | failing | failed | cancelling | cancelled
  deriving DecidableEq

open WorkGroupState

structure LifecycleFacts where
  definition : WorkGroupDefinition
  state : WorkGroupState := defined
  prepared : List ReplicaId := []
  dispatched : List WorkUnitId := []
  completed : List WorkUnitId := []
  cancelled : List ReplicaId := []
  progress : List (WorkUnitId × Nat × Nat) := []
  released : List ReplicaId := []
  failures : List (WorkUnitId × Reason) := []
  refusals : List (ReplicaId × Reason) := []
  deriving DecidableEq

namespace LifecycleFacts

variable (f : LifecycleFacts)

def notCanonical {kind : IdKind} (all values : List (Id kind)) : Prop :=
  ¬values.Nodup ∨ sortedBy (·.value) values ≠ values ∨ ¬values ⊆ all

instance {kind : IdKind} (all values : List (Id kind)) : Decidable (notCanonical all values) :=
  inferInstanceAs (Decidable (_ ∨ _ ∨ _))

def notUniquelySorted {kind : IdKind} (values : List (Id kind)) : Prop :=
  ¬values.Nodup ∨ sortedBy (·.value) values ≠ values

instance {kind : IdKind} (values : List (Id kind)) : Decidable (notUniquelySorted values) :=
  inferInstanceAs (Decidable (_ ∨ _))

/-- The conditions `__post_init__` refuses in any state, in its order, with their messages. -/
def factChecks : List (Bool × String) :=
  let replicas := f.definition.replicas
  let units := f.definition.allUnits
  [(decide (notCanonical replicas f.prepared),"invalid canonical prepared facts"),
   (decide (notCanonical replicas f.cancelled),"invalid canonical cancelled facts"),
   (decide (notCanonical replicas f.released),"invalid canonical released facts"),
   (decide (notCanonical units f.dispatched),"invalid canonical dispatched facts"),
   (decide (notCanonical units f.completed),"invalid canonical completed facts"),
   (decide (∃ p ∈ f.progress, p.1 ∉ units ∨ p.2.2 < 1 ∨ p.2.2 < p.2.1),
    "invalid progress facts"),
   (decide (notUniquelySorted (f.progress.map (·.1))),"progress facts must be uniquely sorted"),
   (decide (∃ p ∈ f.failures, p.1 ∉ units),"invalid failure facts"),
   (decide (notUniquelySorted (f.failures.map (·.1))),"failure facts must be uniquely sorted"),
   (decide (∃ p ∈ f.refusals, p.1 ∉ replicas),"invalid refusal facts"),
   (decide (notUniquelySorted (f.refusals.map (·.1))),"refusal facts must be uniquely sorted"),
   (decide (¬f.completed ⊆ f.dispatched),"completed units must have been dispatched"),
   (decide (¬f.progress.map (·.1) ⊆ f.dispatched),"progress units must have been dispatched"),
   (decide (f.dispatched ≠ [] ∧ f.dispatched ≠ units),
    "dispatched facts must be empty or complete"),
   (decide (f.dispatched ≠ [] ∧ f.prepared ≠ replicas),
    "dispatched facts require every member prepared")]

def phaseChecks : List (Bool × String) :=
  let replicas := f.definition.replicas
  let units := f.definition.allUnits
  [(decide (f.state = defined ∧ (f.prepared ≠ [] ∨ f.dispatched ≠ [] ∨ f.completed ≠ [] ∨
      f.cancelled ≠ [] ∨ f.progress ≠ [] ∨ f.released ≠ [] ∨ f.failures ≠ [] ∨
      f.refusals ≠ [])),"defined lifecycle cannot contain runtime facts"),
   (decide (f.state = admitting ∧ (f.dispatched ≠ [] ∨ f.completed ≠ [] ∨ f.cancelled ≠ [] ∨
      f.progress ≠ [] ∨ f.released ≠ [] ∨ f.failures ≠ [] ∨ f.refusals ≠ [])),
    "admitting lifecycle contains later-phase facts"),
   (decide (f.state = admitting ∧ f.prepared = replicas),
    "admitting lifecycle cannot be fully prepared"),
   (decide (f.state = dispatching ∧ f.dispatched ≠ []),
    "dispatching lifecycle cannot contain dispatched facts"),
   (decide (f.state ∈ [dispatching,running,gathering,succeeded,failing,failed] ∧
      f.prepared ≠ replicas),"post-admission lifecycle requires every member prepared"),
   (decide (f.state ∈ [running,gathering,succeeded,failing,failed] ∧ f.dispatched ≠ units),
    "post-dispatch lifecycle requires every unit dispatched"),
   (decide (f.state ∈ [gathering,succeeded] ∧ f.completed ≠ units),
    "gather lifecycle requires every unit completed"),
   (decide (f.state = running ∧ f.completed = units),
    "running lifecycle cannot be fully completed"),
   (decide (f.state = refused ∧ (f.dispatched ≠ [] ∨ f.completed ≠ [] ∨ f.cancelled ≠ [] ∨
      f.progress ≠ [] ∨ f.released ≠ [] ∨ f.failures ≠ [])),
    "refused lifecycle contains forward-progress facts"),
   (decide (f.failures ≠ [] ∧ f.state ∉ [failing,failed]),
    "failure facts are illegal in this state"),
   (decide (f.refusals ≠ [] ∧ f.state ≠ refused),"refusal facts are illegal in this state"),
   (decide (f.state = .cancelled ∧ f.cancelled ≠ replicas),
    "cancelled lifecycle requires every member cancelled"),
   (decide (f.cancelled ≠ [] ∧ f.state ∉ [cancelling,.cancelled,failing,failed]),
    "cancelled facts are illegal in this state"),
   (decide (f.released ≠ [] ∧ f.state ∉ [succeeded,.cancelled,failing,failed]),
    "released facts are illegal in this state"),
   (decide (f.state = failing ∧ f.released ≠ [] ∧ f.cancelled ≠ replicas),
    "failure releases require complete cancellation"),
   (decide (f.state = cancelling ∧ f.cancelled = replicas),
    "cancelling lifecycle cannot be fully cancelled"),
   (decide (f.state = failed ∧ (f.cancelled ≠ replicas ∨ f.released ≠ replicas)),
    "failed lifecycle requires complete cleanup")]

def checks : List (Bool × String) := f.factChecks ++ f.phaseChecks

/-- The constructor's verdict: the first condition that holds decides the message. -/
def postInit : Except WorkGroupProtocolError Unit :=
  match f.checks.find? (·.1) with
  | some bad => .error ⟨bad.2⟩
  | none => .ok ()

end LifecycleFacts

structure WorkGroupLifecycle extends LifecycleFacts where
  constructed : toLifecycleFacts.postInit = .ok ()
  deriving DecidableEq

/-- `replace(lifecycle, ...)`: new facts go through the constructor again. -/
def WorkGroupLifecycle.create (f : LifecycleFacts) :
    Except WorkGroupProtocolError WorkGroupLifecycle :=
  match accepted : f.postInit with
  | .ok () => .ok ⟨f,accepted⟩
  | .error e => .error e

/-- `_binding` -/
def WorkGroupDefinition.binding (d : WorkGroupDefinition) (replica : ReplicaId) :
    Except WorkGroupProtocolError ReplicaBinding :=
  match d.members.find? (·.replica = replica) with
  | some b => .ok b
  | none => .error ⟨"unknown replica"⟩

/-- `_fence`: the message is of this group and attempt, from this member's worker and
device, and its unit is this member's. -/
def WorkGroupDefinition.fence (d : WorkGroupDefinition) (event : WorkGroupEvent) :
    Except WorkGroupProtocolError Unit :=
  match event.child with
  | none => .ok ()
  | some c => do
    let b ← d.binding c.replica
    if (c.group,c.attempt,c.worker,c.device) ≠ (d.group,d.attempt,b.worker,b.device) then
      .error ⟨"stale, future, or foreign correlation"⟩
    else match event.unitChild with
      | none => .ok ()
      | some u =>
        match d.units.find? (·.unit = u.unit) with
        | none => .error ⟨"foreign unit correlation"⟩
        | some w =>
          if (w.replica,w.slot) ≠ (u.replica,u.slot) then .error ⟨"foreign unit correlation"⟩
          else .ok ()

/-! Commands to every member, each under the correlation of that member. -/

section Commands

variable (d : WorkGroupDefinition)

def WorkGroupDefinition.begins : List WorkGroupCommand :=
  d.members.map fun m => .beginWorkGroup (d.child m)

def WorkGroupDefinition.commits : List WorkGroupCommand :=
  d.members.map fun m => .commitWorkGroup (d.child m)

def WorkGroupDefinition.aborts : List WorkGroupCommand :=
  d.members.map fun m => .abortWorkGroup (d.child m)

def WorkGroupDefinition.releases : List WorkGroupCommand :=
  d.members.map fun m => .releaseWorkGroup (d.child m)

def WorkGroupDefinition.cancels (reason : Reason) : List WorkGroupCommand :=
  d.members.map fun m => .cancelWorkGroup (d.child m) reason

def WorkGroupDefinition.runs : Except WorkGroupProtocolError (List WorkGroupCommand) :=
  d.units.mapM fun u => do
    let b ← d.binding u.replica
    pure (.runWorkUnit ⟨d.child b,u.unit,u.slot⟩)

end Commands

namespace LifecycleFacts

abbrev Outcome := Except WorkGroupProtocolError (LifecycleFacts × List WorkGroupCommand)

variable (f : LifecycleFacts)

def cancelsPrepared (reason : Reason) : List WorkGroupCommand :=
  (f.definition.members.filter (·.replica ∈ f.prepared)).map fun m =>
    .cancelWorkGroup (f.definition.child m) reason

def progressTable : Dict WorkUnitId (Nat × Nat) :=
  Dict.ofList f.progress

/-- The reducer's branches after the fence and before `replace` constructs the result. -/
def transition : WorkGroupEvent → Outcome
  | .beginAdmission =>
    if f.state ≠ defined then .error ⟨"admission already begun"⟩
    else .ok ({ f with state := admitting },f.definition.begins)
  | .workGroupPrepared c =>
    if f.state ∉ [admitting,refused,cancelling] ∨ c.replica ∈ f.prepared then
      .error ⟨"illegal or duplicate preparation"⟩
    else
      let prepared := sortedBy (·.value) (f.prepared ++ [c.replica])
      if f.state ≠ admitting then .ok ({ f with prepared },[])
      else if prepared.length = f.definition.members.length then
        .ok ({ f with state := dispatching, prepared },f.definition.commits)
      else .ok ({ f with prepared },[])
  | .workGroupRefused c reason =>
    if f.state ∉ [admitting,refused] ∨ c.replica ∈ f.refusals.map (·.1) then
      .error ⟨"illegal refusal"⟩
    else
      let refusals := sortedBy (·.1.value) (f.refusals ++ [(c.replica,reason)])
      .ok ({ f with state := refused, refusals },
        if f.state = admitting then f.definition.aborts else [])
  | .dispatchWork =>
    if f.state ≠ dispatching then .error ⟨"dispatch is illegal"⟩
    else do
      let commands ← f.definition.runs
      pure ({ f with state := running, dispatched := f.definition.units.map (·.unit) },commands)
  | .workUnitProgress c p =>
    if f.state ∉ [running,cancelling] ∨ c.unit ∈ f.completed then
      .error ⟨"progress is not active"⟩
    else
      let table := f.progressTable
      if (table.get? c.unit).any fun old => p.total ≠ old.2 ∨ p.completed ≤ old.1 then
        .error ⟨"progress regressed, duplicated, or changed total"⟩
      else
        let next := table.set c.unit (p.completed,p.total)
        .ok ({ f with progress := sortedBy (·.1.value) next.entries },[])
  | .workUnitResult c =>
    if f.state ∉ [running,cancelling] ∨ c.unit ∈ f.completed then
      .error ⟨"illegal or duplicate result"⟩
    else
      let completed := sortedBy (·.value) (f.completed ++ [c.unit])
      let state := if f.state = running ∧ completed.length = f.definition.units.length
        then gathering else f.state
      .ok ({ f with state, completed },[])
  | .workUnitFailed c reason =>
    if f.state ∉ [running,failing] ∨ c.unit ∈ f.failures.map (·.1) then
      .error ⟨"illegal failure"⟩
    else
      let failures := sortedBy (·.1.value) (f.failures ++ [(c.unit,reason)])
      if f.state = failing then .ok ({ f with failures },[])
      else .ok ({ f with state := failing, failures },f.cancelsPrepared reason)
  | .gatherFailed reason =>
    if f.state ≠ gathering then .error ⟨"illegal failure"⟩
    else .ok ({ f with state := failing },f.cancelsPrepared reason)
  | .gatherSucceeded =>
    if f.state ≠ gathering then .error ⟨"illegal gather success"⟩
    else .ok ({ f with state := succeeded },f.definition.releases)
  | .requestCancellation reason =>
    if f.state ∉ [admitting,dispatching,running,gathering] then
      .error ⟨"cancellation is illegal"⟩
    else .ok ({ f with state := cancelling },f.definition.cancels reason)
  | .workGroupCancelled c =>
    if f.state ∉ [cancelling,failing] ∨ c.replica ∈ f.cancelled then
      .error ⟨"illegal or duplicate cancellation"⟩
    else
      let cancelled := sortedBy (·.value) (f.cancelled ++ [c.replica])
      if cancelled ⊆ f.definition.replicas ∧ f.definition.replicas ⊆ cancelled then
        .ok ({ f with
          state := if f.state = cancelling then .cancelled else f.state, cancelled },f.definition.releases)
      else .ok ({ f with cancelled },[])
  | .workGroupReleased c =>
    if f.state ∉ [succeeded,.cancelled,failing] ∨ c.replica ∈ f.released ∨
        (f.state = failing ∧ f.cancelled.length ≠ f.definition.members.length) then
      .error ⟨"illegal or duplicate release"⟩
    else .ok ({ f with released := sortedBy (·.value) (f.released ++ [c.replica]) },[])
  | .settleFailure =>
    if f.state ≠ failing ∨ ¬(f.cancelled ⊆ f.prepared ∧ f.prepared ⊆ f.cancelled) ∨
        ¬(f.released ⊆ f.prepared ∧ f.prepared ⊆ f.released) then
      .error ⟨"failure cleanup is incomplete"⟩
    else .ok ({ f with state := failed },[])

end LifecycleFacts

/-- `reduce_workgroup`: fence, guards, and the constructor on the new facts. -/
def reduceWorkgroup (lifecycle : WorkGroupLifecycle) (event : WorkGroupEvent) :
    Except WorkGroupProtocolError (WorkGroupLifecycle × List WorkGroupCommand) := do
  lifecycle.definition.fence event
  let (facts,commands) ← lifecycle.toLifecycleFacts.transition event
  let next ← WorkGroupLifecycle.create facts
  pure (next,commands)

end Dinkster.Workgroup
