import Dinkster.Lib.Canonical
import Mathlib

/-! The multi-device workgroup protocol: identities, definitions and messages.
A definition carries its canonical form as proofs, so sorting and uniqueness are
settled when it is built and never checked again. -/
namespace Dinkster.Workgroup
open Canonical

def maxWorkgroupReplicas : Nat := 256
def maxWorkgroupUnits : Nat := 4096
def maxReasonBytes : Nat := 4096

structure WorkGroupProtocolError where
  message : String
  deriving DecidableEq

inductive IdKind
  | replica | workerInstance | workGroup | workUnit | deviceResource | replicaRecipe
  deriving DecidableEq

def isEdgeChar (c : Char) : Bool :=
  (97 ≤ c.toNat && c.toNat ≤ 122) || (48 ≤ c.toNat && c.toNat ≤ 57)

def isInnerChar (c : Char) : Bool :=
  isEdgeChar c || c == '.' || c == '_' || c == '-'

def matchesId (chars : List Char) : Bool :=
  chars.length ≤ 128 && chars.all isInnerChar &&
    (chars.head?.any isEdgeChar && chars.getLast?.any isEdgeChar)

/-- `sha256:[0-9a-f]{64}` -/
def matchesRecipe (chars : List Char) : Bool :=
  chars.take 7 == ['s','h','a','2','5','6',':'] && chars.length == 71 &&
    (chars.drop 7).all fun c =>
      (48 ≤ c.toNat && c.toNat ≤ 57) || (97 ≤ c.toNat && c.toNat ≤ 102)

def IdKind.accepts : IdKind → String → Bool
  | .replicaRecipe, value => matchesRecipe value.toList
  | _, value => matchesId value.toList

/-- One identity type for each kind; they wrap a string of their pattern and sort by it. -/
structure Id (kind : IdKind) where
  value : String
  valid : kind.accepts value = true
  deriving DecidableEq

theorem Id.value_injective (kind : IdKind) : Function.Injective (@Id.value kind) := by
  rintro ⟨a,_⟩ ⟨b,_⟩ same
  simpa using same

instance (kind : IdKind) : LinearOrder (Id kind) :=
  LinearOrder.lift' Id.value (Id.value_injective kind)

instance Id.decidableMem {kind : IdKind} (id : Id kind) (ids : List (Id kind)) :
    Decidable (id ∈ ids) :=
  inferInstance

abbrev ReplicaId := Id .replica
abbrev WorkerInstanceId := Id .workerInstance
abbrev WorkGroupId := Id .workGroup
abbrev WorkUnitId := Id .workUnit
abbrev DeviceResourceId := Id .deviceResource
abbrev ReplicaRecipeId := Id .replicaRecipe

structure WorkGroupAttempt where
  value : Nat
  positive : 1 ≤ value
  deriving DecidableEq

inductive SemanticSlot
  | single
  deriving DecidableEq

def SemanticSlot.value : SemanticSlot → String
  | .single => "single"

structure Reason where
  text : String
  nonempty : text ≠ ""
  bounded : text.utf8ByteSize ≤ maxReasonBytes
  deriving DecidableEq

structure ReplicaBinding where
  replica : ReplicaId
  worker : WorkerInstanceId
  device : DeviceResourceId
  recipe : ReplicaRecipeId
  deriving DecidableEq

structure WorkUnitDefinition where
  unit : WorkUnitId
  replica : ReplicaId
  slot : SemanticSlot
  deriving DecidableEq

/-- Members in replica order and units in unit order, as the constructor leaves them. -/
structure WorkGroupDefinition where
  group : WorkGroupId
  attempt : WorkGroupAttempt
  members : List ReplicaBinding
  units : List WorkUnitDefinition
  members_bounded : 1 ≤ members.length ∧ members.length ≤ maxWorkgroupReplicas
  units_bounded : 1 ≤ units.length ∧ units.length ≤ maxWorkgroupUnits
  members_sorted : (members.map (·.replica)).Pairwise (· < ·)
  workers_distinct : (members.map (·.worker)).Nodup
  devices_distinct : (members.map (·.device)).Nodup
  units_sorted : (units.map (·.unit)).Pairwise (· < ·)
  slots_distinct : (units.map fun u => (u.replica,u.slot)).Nodup
  units_known : ∀ u ∈ units, u.replica ∈ members.map (·.replica)
  deriving DecidableEq

private theorem members_strict (members : List ReplicaBinding)
    (distinct : ((sortedBy (fun x => toLex (x.replica,x.device)) members).map
      (·.replica)).Nodup) :
    ((sortedBy (fun x => toLex (x.replica,x.device)) members).map
      (·.replica)).Pairwise (· < ·) := by
  have weak : ((sortedBy (fun x => toLex (x.replica,x.device)) members).map
      (·.replica)).Pairwise (· ≤ ·) := by
    rw [List.pairwise_map]
    refine (sortedBy_pairwise _ members).imp fun le => ?_
    rcases Prod.Lex.le_iff.mp le with lower | same
    · exact le_of_lt lower
    · exact le_of_eq same.1
  exact (weak.and distinct).imp fun ⟨le,ne⟩ => lt_of_le_of_ne le ne

private theorem units_strict (units : List WorkUnitDefinition)
    (distinct : ((sortedBy (fun x => toLex (x.slot.value,toLex (x.unit,x.replica))) units).map
      (·.unit)).Nodup) :
    ((sortedBy (fun x => toLex (x.slot.value,toLex (x.unit,x.replica))) units).map
      (·.unit)).Pairwise (· < ·) := by
  have weak : ((sortedBy (fun x => toLex (x.slot.value,toLex (x.unit,x.replica))) units).map
      (·.unit)).Pairwise (· ≤ ·) := by
    rw [List.pairwise_map]
    refine (sortedBy_pairwise _ units).imp fun {a b} le => ?_
    -- Every slot is the single one, so the order falls through to the unit.
    rcases Prod.Lex.le_iff.mp le with lower | ⟨-,inner⟩
    · cases ha : a.slot
      cases hb : b.slot
      exact absurd lower (by simp [ha,hb])
    · rcases Prod.Lex.le_iff.mp inner with lower | same
      · exact le_of_lt lower
      · exact le_of_eq same.1
  exact (weak.and distinct).imp fun ⟨le,ne⟩ => lt_of_le_of_ne le ne

def WorkGroupDefinition.create (group : WorkGroupId) (attempt : WorkGroupAttempt)
    (members : List ReplicaBinding) (units : List WorkUnitDefinition) :
    Except WorkGroupProtocolError WorkGroupDefinition :=
  let sortedMembers : List ReplicaBinding := sortedBy (fun x => toLex (x.replica,x.device)) members
  let sortedUnits : List WorkUnitDefinition :=
    sortedBy (fun x => toLex (x.slot.value,toLex (x.unit,x.replica))) units
  if members_bounded : 1 ≤ sortedMembers.length ∧ sortedMembers.length ≤ maxWorkgroupReplicas then
    if units_bounded : 1 ≤ sortedUnits.length ∧ sortedUnits.length ≤ maxWorkgroupUnits then
      if replicas_distinct : (sortedMembers.map (·.replica)).Nodup then
        if workers_distinct : (sortedMembers.map (·.worker)).Nodup then
          if devices_distinct : (sortedMembers.map (·.device)).Nodup then
            if slots_distinct : (sortedUnits.map (·.unit)).Nodup ∧
                (sortedUnits.map fun u => (u.replica,u.slot)).Nodup then
              if units_known : ∀ u ∈ sortedUnits, u.replica ∈ sortedMembers.map (·.replica) then
                .ok {
                  group, attempt, members := sortedMembers, units := sortedUnits
                  members_bounded, units_bounded, workers_distinct, devices_distinct, units_known
                  slots_distinct := slots_distinct.2
                  members_sorted := members_strict members replicas_distinct
                  units_sorted := units_strict units slots_distinct.1 }
              else .error ⟨"unit refers to an unknown replica"⟩
            else .error ⟨"duplicate unit or semantic slot"⟩
          else .error ⟨"duplicate member device"⟩
        else .error ⟨"duplicate member worker"⟩
      else .error ⟨"duplicate member replica"⟩
    else .error ⟨"units must be a bounded nonempty tuple"⟩
  else .error ⟨"members must be a bounded nonempty tuple"⟩

def WorkGroupDefinition.replicas (d : WorkGroupDefinition) : List ReplicaId :=
  d.members.map (·.replica)

/-- `tuple(sorted(unit_ids))`; the units are kept in this order already. -/
def WorkGroupDefinition.allUnits (d : WorkGroupDefinition) : List WorkUnitId :=
  sortedBy (·.value) (d.units.map (·.unit))

theorem WorkGroupDefinition.allUnits_eq (d : WorkGroupDefinition) :
    d.allUnits = d.units.map (·.unit) :=
  sortedBy_of_strict _ d.units_sorted

theorem WorkGroupDefinition.allUnits_sorted (d : WorkGroupDefinition) :
    d.allUnits.Pairwise (· < ·) :=
  d.allUnits_eq ▸ d.units_sorted

theorem WorkGroupDefinition.replicas_ne_nil (d : WorkGroupDefinition) : d.replicas ≠ [] := by
  have bounded := d.members_bounded.1
  intro none
  simp [List.map_eq_nil_iff.mp none] at bounded

theorem WorkGroupDefinition.allUnits_ne_nil (d : WorkGroupDefinition) : d.allUnits ≠ [] := by
  have bounded := d.units_bounded.1
  rw [d.allUnits_eq]
  intro none
  simp [List.map_eq_nil_iff.mp none] at bounded

structure Child where
  worker : WorkerInstanceId
  replica : ReplicaId
  group : WorkGroupId
  attempt : WorkGroupAttempt
  device : DeviceResourceId
  deriving DecidableEq

structure UnitChild extends Child where
  unit : WorkUnitId
  slot : SemanticSlot
  deriving DecidableEq

structure Progress where
  completed : Nat
  total : Nat
  valid : 1 ≤ total ∧ completed ≤ total
  deriving DecidableEq

inductive WorkGroupCommand
  | prepareReplica (child : Child) (recipe : ReplicaRecipeId)
  | beginWorkGroup (child : Child)
  | commitWorkGroup (child : Child)
  | abortWorkGroup (child : Child)
  | runWorkUnit (child : UnitChild)
  | cancelWorkGroup (child : Child) (reason : Reason)
  | releaseWorkGroup (child : Child)
  deriving DecidableEq

inductive WorkGroupEvent
  | beginAdmission
  | dispatchWork
  | gatherSucceeded
  | gatherFailed (reason : Reason)
  | requestCancellation (reason : Reason)
  | settleFailure
  | workGroupPrepared (source : Child)
  | workGroupRefused (source : Child) (reason : Reason)
  | workUnitProgress (source : UnitChild) (progress : Progress)
  | workUnitResult (source : UnitChild)
  | workUnitFailed (source : UnitChild) (reason : Reason)
  | workGroupCancelled (source : Child)
  | workGroupReleased (source : Child)
  deriving DecidableEq

def WorkGroupEvent.child : WorkGroupEvent → Option Child
  | .workGroupPrepared c | .workGroupRefused c _ | .workGroupCancelled c
  | .workGroupReleased c => some c
  | .workUnitProgress c _ | .workUnitResult c | .workUnitFailed c _ => some c.toChild
  | _ => none

def WorkGroupEvent.unitChild : WorkGroupEvent → Option UnitChild
  | .workUnitProgress c _ | .workUnitResult c | .workUnitFailed c _ => some c
  | _ => none

/-- `_child`: the correlation of a member in this group and attempt. -/
def WorkGroupDefinition.child (d : WorkGroupDefinition) (binding : ReplicaBinding) : Child :=
  ⟨binding.worker,binding.replica,d.group,d.attempt,binding.device⟩

end Dinkster.Workgroup
