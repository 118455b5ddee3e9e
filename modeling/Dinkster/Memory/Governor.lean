import Dinkster.Lib.Dict
import Dinkster.Lib.Transition
import Mathlib

/-! The memory governor: declared budgets, admission of reservations, and the condition lock.
A step runs one task of the event loop from one suspension to the next; the outside decides
when a task is resumed, timed out or cancelled, and what the consumers hold. -/
namespace Dinkster.Memory

abbrev Device := String
abbrev TaskId := Nat

structure Reservation where
  reservationId : Nat
  device : Device
  nbytes : Int
  deriving DecidableEq

structure RegisteredShedder where
  order : Nat
  priority : Int
  name : String
  shedder : Nat
  deriving DecidableEq

/-- What a coroutine that has ended came to. -/
inductive Ending
  | exceeded
  | timeout
  | failed
  | cancelled
  | released
  deriving DecidableEq

/-- Why a wait on the condition is over. -/
inductive Wake
  | notified
  | timeout
  | cancelled
  deriving DecidableEq

/-- Where a task is suspended; the first and the last two are queues for the lock. -/
inductive Phase
  | acquiring (shedAttempted : Bool)
  | shedding (shortfall : Int) (budgetPressure : Bool)
  | waiting (notified : Bool)
  | held (reservation : Reservation)
  | ended (ending : Ending)
  | reacquiring (wake : Wake)
  | releasing (reservation : Reservation)
  deriving DecidableEq

/-- One `async with governor.reserve(device, nbytes, timeout=...)`. -/
structure Task where
  device : Device
  nbytes : Int
  timed : Bool
  liveShortfall : Int
  phase : Phase
  deriving DecidableEq

structure Governor where
  budgets : Dict Device Int := .empty
  totals : Dict Device Int := .empty
  reservations : Dict Nat Reservation := .empty
  shedders : List RegisteredShedder := []
  /-- The bytes each consumer reports on a device. -/
  holds : Nat → Device → Int := fun _ _ => 0
  locked : Bool := false
  waiters : List TaskId := []
  ids : Nat := 1
  order : Nat := 0
  tasks : Dict TaskId Task := .empty
  /-- What has been recorded and subtracted so far. -/
  granted : List Reservation := []
  subtracted : List Reservation := []

namespace Governor

variable (g : Governor)

def reserved (device : Device) : Int := (g.totals.get? device).getD 0

def footprint (device : Device) : Int := (g.shedders.map fun r => g.holds r.shedder device).sum

def fits (device : Device) (nbytes budget : Int) : Bool :=
  decide (g.reserved device + g.footprint device + nbytes ≤ budget)

def liveRamShortfall (device : Device) (nbytes : Int) (available : Option Int) : Int :=
  if device ≠ "ram" ∨ nbytes ≤ 0 ∨ g.shedders = [] then 0
  else if g.footprint device ≤ 0 then 0
  else match available with
    | none => 0
    | some available => max 0 (nbytes - available)

def putTask (t : TaskId) (task : Task) : Governor := { g with tasks := g.tasks.set t task }

def finish (t : TaskId) (task : Task) (ending : Ending) : Governor :=
  g.putTask t { task with phase := .ended ending }

/-- `async with self._cond`: the body runs without a suspension, or gives the lock back where it
waits; a task that finds the lock taken is suspended in `blocked`. -/
def withLock (blocked : Governor) (body : Governor → Governor) : Governor :=
  if g.locked then blocked else { body { g with locked := true } with locked := false }

def unnotified (t : TaskId) : Bool :=
  match g.tasks.get? t with
  | some task => task.phase = .waiting false
  | none => false

/-- `Condition.notify(n)`: the first `n` waiters whose future is not done. -/
def notify (n : Nat) : Governor :=
  let woken := (g.waiters.filter fun t => g.unnotified t).take n
  { g with tasks := g.tasks.mapWithKey fun t task =>
      if t ∈ woken then { task with phase := .waiting true } else task }

def notifyAll : Governor := g.notify g.waiters.length

/-- What `_admit` decides under the lock. -/
inductive Verdict
  | exceeded
  | shed (shortfall : Int) (budgetPressure : Bool)
  | grant
  | hopeless
  | wait
  deriving DecidableEq

def verdict (device : Device) (nbytes : Int) (shedAttempted : Bool) (liveShortfall : Int) :
    Verdict :=
  match g.budgets.get? device with
  | none => if !shedAttempted && decide (0 < liveShortfall) then .shed liveShortfall false
      else .grant
  | some budget =>
    if budget < nbytes then .exceeded
    else if !shedAttempted && (decide (0 < liveShortfall) ||
        !g.fits device nbytes budget) then
      if g.fits device nbytes budget then .shed (max 0 liveShortfall) false
      else .shed
        (max (g.reserved device + g.footprint device + nbytes - budget) liveShortfall) true
    else if g.fits device nbytes budget then .grant
    else if g.reserved device = 0 then .hopeless
    else .wait

def record (t : TaskId) (task : Task) : Governor :=
  let reservation : Reservation := ⟨g.ids,task.device,task.nbytes⟩
  { g.putTask t { task with phase := .held reservation } with
    ids := g.ids + 1
    reservations := g.reservations.set g.ids reservation
    totals := g.totals.set task.device (g.reserved task.device + task.nbytes)
    granted := g.granted ++ [reservation] }

/-- What follows the decision, up to the next suspension; `late` when the deadline has passed,
`again` when the loop goes round without one. -/
def follow (t : TaskId) (task : Task) (late : Bool) (again : Governor) : Verdict → Governor
  | .exceeded => g.finish t task .exceeded
  | .hopeless => g.finish t task .timeout
  | .grant => g.record t task
  | .wait =>
    if late then g.finish t task .timeout
    else { g.putTask t { task with phase := .waiting false } with waiters := g.waiters ++ [t] }
  | .shed shortfall budgetPressure =>
    if late then if budgetPressure then g.finish t task .timeout else again
    else g.putTask t { task with phase := .shedding shortfall budgetPressure }

/-- One round of the loop of `_admit`, and the second one that a passed deadline makes of a round
that only met live pressure. -/
def attempt (t : TaskId) (task : Task) (shedAttempted late : Bool) : Governor :=
  g.withLock (g.putTask t { task with phase := .acquiring shedAttempted }) fun g =>
    let calm := { task with liveShortfall := 0 }
    g.follow t task late
      (g.follow t calm late (g.finish t calm .timeout)
        (g.verdict task.device task.nbytes shedAttempted 0))
      (g.verdict task.device task.nbytes shedAttempted task.liveShortfall)

def subtract (t : TaskId) (task : Task) (r : Reservation) : Governor :=
  match g.reservations.get? r.reservationId with
  | none => g.finish t task .released
  | some _ => notifyAll { g.finish t task .released with
      reservations := g.reservations.erase r.reservationId
      totals := g.totals.set r.device (g.reserved r.device - r.nbytes)
      subtracted := g.subtracted ++ [r] }

def release (t : TaskId) (task : Task) (r : Reservation) : Governor :=
  g.withLock (g.putTask t { task with phase := .releasing r }) fun g => g.subtract t task r

/-- The end of `Condition.wait`: the lock is taken again before the outcome shows. -/
def rewake (t : TaskId) (task : Task) (wake : Wake) (late : Bool) : Governor :=
  g.withLock (g.putTask t { task with phase := .reacquiring wake }) fun g =>
    match wake with
    | .notified => attempt { g with locked := false } t task false late
    | .timeout => (g.finish t task .timeout).notify 1
    | .cancelled => (g.finish t task .cancelled).notify 1

def leave (t : TaskId) (task : Task) (wake : Wake) (late : Bool) : Governor :=
  rewake { g with waiters := g.waiters.erase t } t task wake late

def setBudget (device : Device) (nbytes : Int) : Governor :=
  if nbytes < 0 then g else { g with budgets := g.budgets.set device nbytes }

def registerShedder (shedder : Nat) (priority : Int) (name : String) : Governor :=
  let registered : RegisteredShedder := ⟨g.order,priority,name,shedder⟩
  { g with
    shedders := (g.shedders ++ [registered]).mergeSort fun a b =>
      decide (a.priority < b.priority) ||
        (decide (a.priority = b.priority) && decide (a.order ≤ b.order))
    order := g.order + 1 }

def unregisterShedder (shedder : Nat) : Governor :=
  { g with shedders := g.shedders.filter fun r => decide (r.shedder ≠ shedder) }

end Governor

/-- How the shedding that `_admit` awaits ends. -/
inductive Shed
  | freed
  | timeout
  | raised
  deriving DecidableEq

inductive Event
  | reserve (t : TaskId) (device : Device) (nbytes : Int) (timed late : Bool)
      (available : Option Int)
  | shed (t : TaskId) (outcome : Shed) (late : Bool)
  | resume (t : TaskId) (late : Bool)
  | expire (t : TaskId)
  | cancel (t : TaskId)
  | exit (t : TaskId)
  | setBudget (device : Device) (nbytes : Int)
  | register (shedder : Nat) (priority : Int) (name : String)
  | unregister (shedder : Nat)
  | measure (holds : Nat → Device → Int)

namespace Governor

variable (g : Governor)

def reserve (t : TaskId) (device : Device) (nbytes : Int) (timed late : Bool)
    (available : Option Int) : Governor :=
  if nbytes < 0 then g
  else
    let exceeds := match g.budgets.get? device with
      | some budget => decide (budget < nbytes)
      | none => false
    let live := if exceeds then 0 else g.liveRamShortfall device nbytes available
    let task : Task := ⟨device,nbytes,timed,live,.acquiring false⟩
    g.attempt t task false late

def resume (t : TaskId) (task : Task) (late : Bool) : Option Governor :=
  match task.phase with
  | .waiting true => some (g.leave t task .notified late)
  | .acquiring shedAttempted =>
    if g.locked then none else some (g.attempt t task shedAttempted late)
  | .reacquiring wake => if g.locked then none else some (g.rewake t task wake late)
  | .releasing r => if g.locked then none else some (g.release t task r)
  | _ => none

def shedded (t : TaskId) (task : Task) (outcome : Shed) (late : Bool) : Option Governor :=
  match task.phase with
  | .shedding _ budgetPressure =>
    let after := g.attempt t { task with liveShortfall := 0 } budgetPressure late
    match outcome with
    | .freed => some after
    | .timeout => if !task.timed then none
        else if budgetPressure then some (g.finish t task .timeout) else some after
    | .raised => if budgetPressure then some (g.finish t task .failed) else some after
  | _ => none

/-- `CancelledError` at the await where the task is suspended. -/
def cancel (t : TaskId) (task : Task) : Option Governor :=
  match task.phase with
  | .acquiring _ | .shedding .. => some (g.finish t task .cancelled)
  | .waiting _ => some (g.leave t task .cancelled false)
  | .held r => some (g.release t task r)
  -- `wait` swallows it until it has the lock
  | .reacquiring _ => some (g.putTask t { task with phase := .reacquiring .cancelled })
  -- `_release` has not popped the reservation yet
  | .releasing _ => some (g.finish t task .cancelled)
  | .ended _ => none

end Governor

def step (g : Governor) : Event → Option Governor
  | .reserve t device nbytes timed late available =>
    if t ∈ g.tasks.keys then none
    else some (g.reserve t device nbytes timed (late && timed) available)
  | .shed t outcome late => (g.tasks.get? t).bind fun task =>
    g.shedded t task outcome (late && task.timed)
  | .resume t late => (g.tasks.get? t).bind fun task => g.resume t task (late && task.timed)
  | .expire t => (g.tasks.get? t).bind fun task =>
    match task.phase with
    | .waiting _ => if task.timed then some (g.leave t task .timeout false) else none
    | _ => none
  | .cancel t => (g.tasks.get? t).bind fun task => g.cancel t task
  | .exit t => (g.tasks.get? t).bind fun task =>
    match task.phase with
    | .held r => some (g.release t task r)
    | _ => none
  | .setBudget device nbytes => some (g.setBudget device nbytes)
  | .register shedder priority name => some (g.registerShedder shedder priority name)
  | .unregister shedder => some (g.unregisterShedder shedder)
  | .measure holds => some { g with holds }

end Dinkster.Memory
