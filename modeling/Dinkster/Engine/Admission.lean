import Dinkster.Lib.Canonical
import Dinkster.Lib.Dict
import Dinkster.Lib.Semaphore
import Mathlib.Order.WithBot
import Mathlib.Data.String.Basic

/-! Admission of invocations: the lanes an invocation occupies, the permits it acquires in order,
and the lease that gives them up while a value of the run is awaited. A step runs one task of the
event loop from one suspension to the next. -/
namespace Dinkster.Admission
open Canonical

structure NodeSchema where
  ioBound : Bool
  occupies : List String

/-- The resources meta of one value of the input trees; a device string is a list of one. -/
abbrev Resources := Dict String (List String)

def instances (resources : List Resources) (kind : String) : List String :=
  resources.flatMap fun declared => (declared.get? kind).getD []

def boundLanes (resources : List Resources) (kind : String) : List String :=
  match instances resources kind with
  | [] => [kind]
  | found => found.map fun one => kind ++ ":" ++ one

def occupancy (schema : NodeSchema) (resources : List Resources) (target : Option String) :
    List String :=
  if schema.ioBound then []
  else if schema.occupies = [] then
    match target with
    | some target => ["compute:" ++ target]
    | none => ["compute"]
  else sortedBy id (schema.occupies.flatMap (boundLanes resources)).dedup

theorem occupancy_strict (schema : NodeSchema) (resources : List Resources)
    (target : Option String) : (occupancy schema resources target).Pairwise (· < ·) := by
  unfold occupancy
  split
  · exact .nil
  · split
    · cases target <;> exact List.pairwise_singleton _ _
    · have distinct := List.nodup_dedup (schema.occupies.flatMap (boundLanes resources))
      exact sortedBy_strict id (by rwa [List.map_id])

inductive Permit
  | lane (name : String)
  | invoke
  deriving DecidableEq

def Permit.rank : Permit → WithTop String
  | .lane name => name
  | .invoke => ⊤

abbrev LeaseId := Nat

/-- The task that enters the lease, or one of the calls of `wait`. -/
abbrev Caller := LeaseId × Option Nat

/-- An `_admission` suspended in the acquisition of `next`. -/
structure Acquisition where
  got : List Permit
  next : Permit
  rest : List Permit

structure Desk where
  resourceCapacities : Dict String Nat
  maxConcurrency : Option Nat
  slots : Dict Permit (Semaphore Caller) := .empty
  laneInUse : Dict String Int := .empty

namespace Desk

variable (d : Desk)

/-- `lane.split(":", 1)[0]` -/
def kindOf (lane : String) : String := String.ofList (lane.toList.takeWhile (· ≠ ':'))

def capacity : Permit → Nat
  | .lane name => ((d.resourceCapacities.get? name).or
      (d.resourceCapacities.get? (kindOf name))).getD 1
  | .invoke => d.maxConcurrency.getD 0

def resourceSlot (p : Permit) : Semaphore Caller := (d.slots.get? p).getD ⟨d.capacity p,[]⟩

def setSlot (p : Permit) (slot : Semaphore Caller) : Desk := { d with slots := d.slots.set p slot }

def inUse (lane : String) : Int := (d.laneInUse.get? lane).getD 0

def countLane (p : Permit) (change : Int) : Desk :=
  match p with
  | .lane name => { d with laneInUse := d.laneInUse.set name (d.inUse name + change) }
  | .invoke => d

/-- What `_admission` acquires, in order. -/
def order (lanes : List String) : List Permit :=
  lanes.map .lane ++ if d.maxConcurrency.isSome then [.invoke] else []

/-- `_admission` from one suspension to the next; `none` when it has everything. -/
def acquire (c : Caller) (d : Desk) (got : List Permit) : List Permit → Desk × Option Acquisition
  | [] => (d,none)
  | p :: rest =>
    match (d.resourceSlot p).take? with
    | some slot => acquire c ((d.setSlot p slot).countLane p 1) (got ++ [p]) rest
    | none => (d.setSlot p ((d.resourceSlot p).enqueue c),some ⟨got,p,rest⟩)

def giveBack (p : Permit) : Desk :=
  (d.countLane p (-1)).setSlot p (d.resourceSlot p).release

def unwind (got : List Permit) : Desk := got.foldr (fun p d => d.giveBack p) d

end Desk

/-- Where a resumed acquisition has come to. -/
inductive Advance
  | complete
  | blocked (a : Acquisition)
  | cancelled

def Advance.ofAcquire : Option Acquisition → Advance
  | none => .complete
  | some a => .blocked a

/-- A task whose future is done goes on acquiring, or leaves by `CancelledError`. -/
def Desk.goOn (d : Desk) (c : Caller) (a : Acquisition) : Option (Desk × Advance) :=
  match (d.resourceSlot a.next).future? c with
  | some .granted =>
    let taken := (d.setSlot a.next ((d.resourceSlot a.next).resume c)).countLane a.next 1
    let result := taken.acquire c (a.got ++ [a.next]) a.rest
    some (result.1,.ofAcquire result.2)
  | some .cancelled | some .revoked =>
    some ((d.setSlot a.next ((d.resourceSlot a.next).abandon c)).unwind a.got,.cancelled)
  | _ => none

/-- Where `async with InvocationLease(...)` stands. -/
inductive Main
  | entering (a : Acquisition)
  | body
  | left

/-- Where a call of `wait` stands. -/
inductive Wait
  | queued
  | awaiting
  | resuming (a : Acquisition)
  | ended

def Main.acquisition? : Main → Option Acquisition
  | .entering a => some a
  | _ => none

def Wait.acquisition? : Wait → Option Acquisition
  | .resuming a => some a
  | _ => none

structure InvocationLease where
  order : List Permit
  main : Main
  active : Bool := false
  /-- What the context in `_held` has acquired. -/
  held : Option (List Permit) := none
  waitLocked : Bool := false
  waits : Dict Nat Wait := .empty

namespace InvocationLease

def unentered (order : List Permit) : InvocationLease := { order, main := .left }

variable (lease : InvocationLease)

def acquisition? : Option Nat → Option Acquisition
  | none => lease.main.acquisition?
  | some w => (lease.waits.get? w).bind Wait.acquisition?

def keep : InvocationLease := { lease with held := some lease.order }

/-- The rest of `__aenter__`. -/
def enter : Advance → InvocationLease
  | .complete => { lease.keep with main := .body, active := true }
  | .blocked a => { lease with main := .entering a }
  | .cancelled => { lease with main := .left }

def putWait (w : Nat) (wait : Wait) : InvocationLease :=
  { lease with waits := lease.waits.set w wait }

def unlock (w : Nat) : InvocationLease := { lease.putWait w .ended with waitLocked := false }

/-- The body of `wait` up to its first suspension. -/
def suspend (d : Desk) (w : Nat) : Desk × InvocationLease :=
  if lease.active then
    match lease.held with
    | some got =>
      (d.unwind got,{ lease.putWait w .awaiting with waitLocked := true, held := none })
    -- `assert held is not None`
    | none => (d,lease.putWait w .ended)
  else (d,lease.putWait w .ended)

/-- The rest of `_resume`: a lease that has been left meanwhile gives everything back. -/
def resume (d : Desk) (w : Nat) : Advance → Desk × InvocationLease
  | .complete =>
    if lease.active then (d,(lease.unlock w).keep)
    else (d.unwind lease.order,lease.unlock w)
  | .blocked a => (d,lease.putWait w (.resuming a))
  | .cancelled => (d,lease.unlock w)

/-- `__aexit__` -/
def exit (d : Desk) : Desk × InvocationLease :=
  (d.unwind (lease.held.getD []),{ lease with main := .left, active := false, held := none })

end InvocationLease

structure Engine where
  desk : Desk
  leases : Dict LeaseId InvocationLease := .empty

inductive Event
  | start (i : LeaseId) (schema : NodeSchema) (resources : List Resources) (target : Option String)
  /-- `Task.cancel` on a task suspended in an acquisition. -/
  | cancel (c : Caller)
  /-- The event loop runs a task whose future is done. -/
  | run (c : Caller)
  /-- A call of `wait`; `queues` when others were in the queue of the lock before it. -/
  | wait (i : LeaseId) (w : Nat) (queues : Bool)
  | lock (i : LeaseId) (w : Nat) (cancelled : Bool)
  /-- What a call of `wait` awaits has ended, with a result, an error or a cancellation. -/
  | settle (i : LeaseId) (w : Nat) (cancelled : Bool)
  /-- The body returns, raises or is cancelled. -/
  | exit (i : LeaseId)

namespace Engine

variable (e : Engine)

def put (i : LeaseId) (next : Desk × InvocationLease) : Engine :=
  ⟨next.1,e.leases.set i next.2⟩

def start (i : LeaseId) (lanes : List String) : Engine :=
  let order := e.desk.order lanes
  let result := e.desk.acquire (i,none) [] order
  e.put i (result.1,(InvocationLease.unentered order).enter (.ofAcquire result.2))

def step (e : Engine) : Event → Option Engine
  | .start i schema resources target =>
    if i ∈ e.leases.keys then none else some (e.start i (occupancy schema resources target))
  | .cancel (i,c) => (e.leases.get? i).bind fun lease =>
    (lease.acquisition? c).map fun a =>
      { e with desk := e.desk.setSlot a.next ((e.desk.resourceSlot a.next).cancel (i,c)) }
  | .run (i,c) => (e.leases.get? i).bind fun lease =>
    (lease.acquisition? c).bind fun a =>
      (e.desk.goOn (i,c) a).map fun (d,advance) =>
        match c with
        | none => e.put i (d,lease.enter advance)
        | some w => e.put i (lease.resume d w advance)
  | .wait i w queues => (e.leases.get? i).bind fun lease =>
    if w ∈ lease.waits.keys then none
    else if lease.waitLocked || queues then some (e.put i (e.desk,lease.putWait w .queued))
    else some (e.put i (lease.suspend e.desk w))
  | .lock i w cancelled => (e.leases.get? i).bind fun lease =>
    match lease.waits.get? w with
    | some .queued =>
      if cancelled then some (e.put i (e.desk,lease.putWait w .ended))
      else if lease.waitLocked then none
      else some (e.put i (lease.suspend e.desk w))
    | _ => none
  | .settle i w cancelled => (e.leases.get? i).bind fun lease =>
    match lease.waits.get? w with
    | some .awaiting =>
      -- a cancelled wait leaves the lease without its permits, an inactive one is refused
      if cancelled || !lease.active then some (e.put i (e.desk,lease.unlock w))
      else
        let result := e.desk.acquire (i,some w) [] lease.order
        some (e.put i (lease.resume result.1 w (.ofAcquire result.2)))
    | _ => none
  | .exit i => (e.leases.get? i).bind fun lease =>
    match lease.main with
    | .body => some (e.put i (lease.exit e.desk))
    | _ => none

end Engine

end Dinkster.Admission
