import Mathlib.Data.List.Basic

/-! A subscriber's buffer of the event hub. The hub pushes without waiting and sheds droppable
events when the buffer is full; the reader drains from the other end, also after the close. -/
namespace Dinkster.Events

universe u
variable {ε : Type u}

/-- A buffered event stands beside its `droppable` flag; `ready` is the `asyncio.Event` that a
waiting reader sleeps on. -/
structure Subscription (ε : Type u) where
  buffer : Int
  events : List (ε × Bool)
  ready : Bool
  closed : Bool

def evict : List (ε × Bool) → Option (List (ε × Bool))
  | [] => none
  | (queued,queuedDroppable) :: rest =>
    if queuedDroppable then some rest else (evict rest).map ((queued,queuedDroppable) :: ·)

def Subscription.append (s : Subscription ε) (event : ε) (droppable : Bool) : Subscription ε :=
  { s with events := s.events ++ [(event,droppable)], ready := true }

def Subscription.push (s : Subscription ε) (event : ε) (droppable : Bool) : Subscription ε :=
  if s.closed then s
  else if s.buffer ≤ s.events.length then
    match evict s.events with
    | some rest => Subscription.append { s with events := rest } event droppable
    -- only protected events are queued: chatter is shed, a terminal event exceeds the bound
    | none => if droppable then s else s.append event droppable
  else s.append event droppable

/-- How one pass through the loop of `get` ends. -/
inductive Got (ε : Type u)
  | event (e : ε)
  | finished
  | waiting

def Subscription.get (s : Subscription ε) : Got ε × Subscription ε :=
  match s.events with
  | (event,_) :: rest => (.event event,{ s with events := rest })
  | [] => if s.closed then (.finished,s) else (.waiting,{ s with ready := false })

def Subscription.close (s : Subscription ε) : Subscription ε :=
  { s with closed := true, ready := true }

inductive Action (ε : Type u)
  | push (event : ε) (droppable : Bool)
  | get
  | close

def Got.drained : Got ε → List ε
  | .event e => [e]
  | .finished => []
  | .waiting => []

/-- What the reader receives in one action, and the buffer after it. -/
def act (s : Subscription ε) : Action ε → List ε × Subscription ε
  | .push event droppable => ([],s.push event droppable)
  | .get => (s.get.1.drained,s.get.2)
  | .close => ([],s.close)

def run (s : Subscription ε) : List (Action ε) → List ε × Subscription ε
  | [] => ([],s)
  | a :: rest => ((act s a).1 ++ (run (act s a).2 rest).1,(run (act s a).2 rest).2)

/-- What is pushed before the first close. -/
def pushed : List (Action ε) → List (ε × Bool)
  | [] => []
  | .push event droppable :: rest => (event,droppable) :: pushed rest
  | .get :: rest => pushed rest
  | .close :: _ => []

def Subscription.offered (s : Subscription ε) (actions : List (Action ε)) : List (ε × Bool) :=
  if s.closed then [] else pushed actions

/-- The events that may not be lost. -/
def protectedEvents (events : List (ε × Bool)) : List (ε × Bool) := events.filter fun e => !e.2

/-- `kept` is `events` with some droppable events left out. -/
structure Sheds (kept events : List (ε × Bool)) : Prop where
  order : kept.Sublist events
  complete : protectedEvents kept = protectedEvents events

theorem Sheds.refl (events : List (ε × Bool)) : Sheds events events := ⟨.refl _,rfl⟩

theorem Sheds.trans {first second third : List (ε × Bool)} (inner : Sheds first second)
    (outer : Sheds second third) : Sheds first third :=
  ⟨inner.order.trans outer.order,inner.complete.trans outer.complete⟩

theorem Sheds.append {kept events : List (ε × Bool)} (sheds : Sheds kept events)
    (rest : List (ε × Bool)) : Sheds (kept ++ rest) (events ++ rest) := by
  refine ⟨sheds.order.append (.refl _),?_⟩
  simp only [protectedEvents,List.filter_append]
  exact congrArg (· ++ _) sheds.complete

theorem Sheds.cons {kept events : List (ε × Bool)} (sheds : Sheds kept events) (e : ε × Bool) :
    Sheds (e :: kept) (e :: events) := by
  refine ⟨sheds.order.cons_cons e,?_⟩
  have same := sheds.complete
  simp only [protectedEvents] at same ⊢
  cases dropped : e.2 <;> simp [dropped,same]

/-- Beyond the bound the buffer holds protected events only. -/
def Subscription.Bounded (s : Subscription ε) : Prop :=
  s.buffer < s.events.length → ∀ e ∈ s.events, e.2 = false

/-- No wake-up is lost: a reader that sleeps on the flag has nothing to receive. -/
def Subscription.Awake (s : Subscription ε) : Prop :=
  s.ready = false → s.events = [] ∧ s.closed = false

end Dinkster.Events
