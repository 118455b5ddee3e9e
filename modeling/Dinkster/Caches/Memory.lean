import Dinkster.Caches.Values
import Dinkster.Lib.Peaks
import Dinkster.Lib.Transition

/-! The memory LRU cache. Puts, promotions and sheds change it under the mutation lock and may
wait there for the persistence handler; between two such waits a step is atomic. Reads and
invalidations take no lock and run in any gap. -/
namespace Dinkster.Caches

variable {Obj : Type}

def Envelope.refers (e : Envelope Obj) : Bool :=
  match e.info.get? "resourceId" with
  | none => false
  | some .none => false
  | some _ => true

def Envelope.declared (device : String) (e : Envelope Obj) : Nat :=
  if e.refers then 0 else
    match e.info.get? "cost" with
    | some (.dict cost) => match cost.lookup device with
      | some (.int n) => n.toNat
      | _ => 0
    | _ => 0

def charges (device : String) (values : List (Value Obj)) : List (Nat × Nat) :=
  (iterValueTrees values).map fun e => (e.payload,e.declared device)

def valuesCost (values : List (Value Obj)) (device : String) : Nat :=
  ((charges device values).foldl Peaks.charge Dict.empty).total id

/-- One cached result. `object` is its identity: every admission makes a new one. -/
structure Entry (Obj : Type) where
  object : Nat
  outputs : Dict String (Value Obj)

def Entry.values (e : Entry Obj) : List (Value Obj) := e.outputs.entries.map (·.2)

def entryCost (e : Entry Obj) (device : String) : Nat := valuesCost e.values device

def Entry.references (e : Entry Obj) (resourceId : String) : Bool :=
  e.values.any fun v => (valueResourceIds v).contains resourceId

structure PressureSignal where
  device : String
  bytesNeeded : Int

/-- A put or a promotion: its entry is made and the generation read before the lock is asked for. -/
structure Admission (Obj : Type) where
  key : String
  entry : Entry Obj
  generation : Nat
  persisted : Bool

inductive Waiting (Obj : Type)
  | admission (a : Admission Obj)
  | shed (pressure : PressureSignal)
  | hold

/-- The loop of an admission that is under way: first the bytes are brought down, then the
number of entries. -/
inductive Excess
  | bytes
  | count
  deriving DecidableEq

/-- What the holder of the mutation lock awaits: the handler's answer for the admitted entry, or
for a victim; or, for an inspection of the retained roots, its caller. -/
inductive Stage (Obj : Type)
  | admitting (a : Admission Obj)
  | evicting (a : Admission Obj) (previous : Option (Entry Obj)) (loop : Excess) (victim : String)
    (spilled : Entry Obj)
  | shedding (pressure : PressureSignal) (freed : Nat) (victim : String) (spilled : Entry Obj)
    (rest : List String)
  | holding

inductive Result
  | returned
  | freed (bytes : Nat)
  | failed
  | exhausted
  deriving DecidableEq

/-- Why entries left: an eviction, or an invalidation with the entries before and after. -/
inductive Departure (Obj : Type)
  | evicted (key : String) (entry : Entry Obj)
  | invalidated (before after : Dict String (Entry Obj))

/-- `entries` lists the oldest use first. `departed` is a history that nothing reads. -/
structure MemoryLRUCache (Obj : Type) where
  maxEntries : Nat
  maxBytes : Nat
  roomy : 1 ≤ maxEntries
  persists : Bool
  entries : Dict String (Entry Obj)
  clean : Finset String
  generation : Nat
  holder : Option (Nat × Stage Obj)
  waiting : Dict Nat (Waiting Obj)
  results : Dict Nat Result
  calls : Nat
  hits : Nat
  misses : Nat
  departed : List (Departure Obj)

namespace MemoryLRUCache

def new (maxEntries maxBytes : Nat) (roomy : 1 ≤ maxEntries) (persists : Bool) :
    MemoryLRUCache Obj :=
  ⟨maxEntries,maxBytes,roomy,persists,Dict.empty,∅,0,none,Dict.empty,Dict.empty,0,0,0,[]⟩

def values (entries : Dict String (Entry Obj)) : List (Value Obj) :=
  entries.entries.flatMap fun e => e.2.values

def footprintOf (entries : Dict String (Entry Obj)) (device : String) : Nat :=
  valuesCost (values entries) device

def footprint (c : MemoryLRUCache Obj) (device : String) : Nat := footprintOf c.entries device

def remove (c : MemoryLRUCache Obj) (key : String) : MemoryLRUCache Obj :=
  { c with entries := c.entries.erase key, clean := c.clean.erase key }

/-- The lock is given back with the caller's result. -/
def finish (c : MemoryLRUCache Obj) (call : Nat) (result : Result) : MemoryLRUCache Obj :=
  { c with holder := none, results := c.results.set call result }

def mustSpill (c : MemoryLRUCache Obj) (key : String) : Bool := key ∉ c.clean && c.persists

/-- The end of `_evict`, after the handler returned; an invalidation may have been first. -/
def evict (c : MemoryLRUCache Obj) (victim : String) (spilled : Entry Obj) : MemoryLRUCache Obj :=
  match c.entries.get? victim with
  | some e => if e.object = spilled.object then
      { c.remove victim with departed := c.departed ++ [.evicted victim e] } else c
  | none => c

/-- `except BaseException`: the admitted entry goes, and what it replaced comes back unless an
invalidation has run. -/
def reject (c : MemoryLRUCache Obj) (a : Admission Obj) (previous : Option (Entry Obj)) :
    MemoryLRUCache Obj :=
  match c.entries.get? a.key with
  | some e => if e.object = a.entry.object then
      match previous with
      | some p => if a.generation = c.generation then
          { c.remove a.key with entries := (c.remove a.key).entries.set a.key p }
        else c.remove a.key
      | none => c.remove a.key
    else c
  | none => c

/-- The head of a round of the two loops. `exhausted` is the iterator that has no victim left. -/
inductive Round (Obj : Type)
  | done
  | exhausted
  | victim (loop : Excess) (key : String) (entry : Entry Obj)

def round (c : MemoryLRUCache Obj) (loop : Excess) : Round Obj :=
  if loop = .bytes ∧ c.maxBytes < c.footprint "ram" then
    match c.entries.entries.find? fun e => 0 < entryCost e.2 "ram" with
    | some e => .victim .bytes e.1 e.2
    | none => .exhausted
  else if c.maxEntries < c.entries.entries.length then
    match c.entries.entries.head? with
    | some e => .victim .count e.1 e.2
    | none => .exhausted
  else .done

/-- The loops up to their end or to the next victim that has to be written first. `limit` is
more than the rounds that are left. -/
def evictAll (call : Nat) (a : Admission Obj) (previous : Option (Entry Obj)) :
    Nat → MemoryLRUCache Obj → Excess → MemoryLRUCache Obj
  | 0,c,_ => (c.reject a previous).finish call .exhausted
  | limit + 1,c,loop => match c.round loop with
    | .done => c.finish call .returned
    | .exhausted => (c.reject a previous).finish call .exhausted
    | .victim loop key entry =>
      if c.mustSpill key then
        { c with holder := some (call,.evicting a previous loop key entry) }
      else evictAll call a previous limit (c.evict key entry) loop

def evictOn (c : MemoryLRUCache Obj) (call : Nat) (a : Admission Obj)
    (previous : Option (Entry Obj)) (loop : Excess) : MemoryLRUCache Obj :=
  evictAll call a previous (c.entries.entries.length + 1) c loop

def admitEntry (c : MemoryLRUCache Obj) (call : Nat) (a : Admission Obj) (persisted : Bool) :
    MemoryLRUCache Obj :=
  let previous := c.entries.get? a.key
  let clean := if persisted then insert a.key c.clean else c.clean.erase a.key
  let admitted := { c with entries := (c.entries.erase a.key).set a.key a.entry, clean }
  admitted.evictOn call a previous .bytes

def shedOn (call : Nat) (pressure : PressureSignal) :
    MemoryLRUCache Obj → Nat → List String → MemoryLRUCache Obj
  | c,freed,[] => c.finish call (.freed freed)
  | c,freed,key :: rest =>
    if pressure.bytesNeeded ≤ freed then c.finish call (.freed freed) else
      match c.entries.get? key with
      | none => shedOn call pressure c freed rest
      | some e =>
        if 0 < entryCost e pressure.device then
          if c.mustSpill key then
            { c with holder := some (call,.shedding pressure freed key e rest) }
          else
            let after := c.evict key e
            shedOn call pressure after
              (freed + (c.footprint pressure.device - after.footprint pressure.device)) rest
        else shedOn call pressure c freed rest

def enter (c : MemoryLRUCache Obj) (call : Nat) : Waiting Obj → MemoryLRUCache Obj
  | .admission a =>
    if a.generation ≠ c.generation then c.finish call .returned
    else if !a.persisted && c.persists then
      { c with clean := c.clean.erase a.key, holder := some (call,.admitting a) }
    else c.admitEntry call a a.persisted
  | .shed pressure => shedOn call pressure c 0 c.entries.keys
  | .hold => { c with holder := some (call,.holding) }

/-- The handler returned whether it wrote, or raised (`none`), which a cancelled call does too. -/
def answer (c : MemoryLRUCache Obj) (call : Nat) :
    Stage Obj → Option Bool → Option (MemoryLRUCache Obj)
  | .admitting _,none => some (c.finish call .failed)
  | .admitting a,some wrote =>
    if a.generation ≠ c.generation then some (c.finish call .returned)
    else some (c.admitEntry call a wrote)
  | .evicting a previous _ _ _,none => some ((c.reject a previous).finish call .failed)
  | .evicting a previous loop victim spilled,some _ =>
    some ((c.evict victim spilled).evictOn call a previous loop)
  | .shedding _ _ _ _ _,none => some (c.finish call .failed)
  | .shedding pressure freed victim spilled rest,some _ =>
    let after := c.evict victim spilled
    some (shedOn call pressure after
      (freed + (c.footprint pressure.device - after.footprint pressure.device)) rest)
  | .holding,_ => none

def clear (c : MemoryLRUCache Obj) : MemoryLRUCache Obj :=
  { c with
    generation := c.generation + 1
    entries := Dict.empty
    clean := ∅
    departed := c.departed ++ [.invalidated c.entries Dict.empty] }

def dropReferencing (c : MemoryLRUCache Obj) (resourceId : String) : MemoryLRUCache Obj :=
  let keys := (c.entries.entries.filter fun e => e.2.references resourceId).map (·.1)
  let left := keys.foldl remove { c with generation := c.generation + 1 }
  { left with departed := c.departed ++ [.invalidated c.entries left.entries] }

def get (c : MemoryLRUCache Obj) (key : String) : MemoryLRUCache Obj :=
  match c.entries.get? key with
  | none => { c with misses := c.misses + 1 }
  | some e => { c with entries := (c.entries.erase key).set key e, hits := c.hits + 1 }

inductive Event (Obj : Type)
  | put (key : String) (outputs : Dict String (Value Obj))
  | promote (key : String) (outputs : Dict String (Value Obj))
  | shed (pressure : PressureSignal)
  | hold
  | enter (call : Nat)
  | abandon (call : Nat)
  | answer (outcome : Option Bool)
  | leave
  | get (key : String)
  | clear
  | dropReferencing (resourceId : String)

def ask (c : MemoryLRUCache Obj) (w : Waiting Obj) : MemoryLRUCache Obj :=
  { c with waiting := c.waiting.set c.calls w, calls := c.calls + 1 }

def admission (c : MemoryLRUCache Obj) (key : String) (outputs : Dict String (Value Obj))
    (persisted : Bool) : Admission Obj :=
  ⟨key,⟨c.calls,outputs⟩,c.generation,persisted⟩

def step (c : MemoryLRUCache Obj) : Event Obj → Option (MemoryLRUCache Obj)
  | .put key outputs => some (c.ask (.admission (c.admission key outputs false)))
  | .promote key outputs => some (c.ask (.admission (c.admission key outputs true)))
  | .shed pressure => some (c.ask (.shed pressure))
  | .hold => some (c.ask .hold)
  | .enter call => match c.holder,c.waiting.get? call with
    | none,some w => some ({ c with waiting := c.waiting.erase call }.enter call w)
    | _,_ => none
  | .abandon call => match c.waiting.get? call with
    | some _ => some { c with
        waiting := c.waiting.erase call, results := c.results.set call .failed }
    | none => none
  | .answer outcome => match c.holder with
    | some (call,stage) => c.answer call stage outcome
    | none => none
  | .leave => match c.holder with
    | some (call,.holding) => some (c.finish call .returned)
    | _ => none
  | .get key => some (c.get key)
  | .clear => some c.clear
  | .dropReferencing resourceId => some (c.dropReferencing resourceId)

end MemoryLRUCache
end Dinkster.Caches
