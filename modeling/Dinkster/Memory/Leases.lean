import Dinkster.Lib.Fallible
import Dinkster.Lib.Transition
import Mathlib

/-! The lease broker over a memory governor. Every lease has a task that holds its reservation and
sleeps until the lease is released or its time is up; a step is what runs between two awaits, at
one reading of the clock. -/
namespace Dinkster.Memory.Leases
open Transition

structure Lease where
  leaseId : Nat
  device : String
  nbytes : Int
  expiresAt : ℚ

/-- Where a holder task stands. It sleeps until `wakeAt`, when its timer fires, or until its event
is set. -/
inductive Phase
  | created
  | admission
  | sleeping (wakeAt : ℚ)
  | finished

/-- The future that an `acquire` waits on. -/
inductive Granted
  | pending
  | granted
  | failed (error : String)

/-- `_Held` with its task: `held` tells whether it is in the table, `entered` and `givenBack` how
often the reservation was made and when it was given back. -/
structure Hold where
  lease : Lease
  ttl : ℚ
  held : Bool
  released : Bool
  cancelled : Bool
  phase : Phase
  granted : Granted
  entered : Nat
  givenBack : List ℚ

structure Broker where
  now : ℚ
  maxTtl : ℚ
  closed : Bool
  next : Nat
  holds : Nat → Option Hold
  capped : 0 < maxTtl

def initial (maxTtl : ℚ) (capped : 0 < maxTtl) : Broker := ⟨0,maxTtl,false,0,fun _ => none,capped⟩

/-- The first step of the task. Cancelled before it, the task ends without running any of its
body. -/
def Hold.begin (h : Hold) : Hold :=
  if h.cancelled then { h with phase := .finished } else { h with phase := .admission }

/-- The context exit gives the reservation back and the table forgets the lease. -/
def Hold.finish (now : ℚ) (h : Hold) : Hold :=
  { h with phase := .finished, held := false, givenBack := h.givenBack ++ [now] }

/-- The governor admits the reservation. -/
def Hold.grant (closed : Bool) (now : ℚ) (h : Hold) : Hold :=
  if closed then
    Hold.finish now { h with granted := .failed "LeaseBroker is closed", entered := h.entered + 1 }
  else
    { h with
      lease := { h.lease with expiresAt := now + h.ttl }
      held := true
      granted := .granted
      entered := h.entered + 1
      phase := .sleeping (now + ((now + h.ttl) - now)) }

def Hold.refuse (error : String) (h : Hold) : Hold :=
  { h with phase := .finished, granted := .failed error }

/-- The sleep is over: the loop looks at the event and the clock, and may sleep again. -/
def Hold.wake (now : ℚ) (h : Hold) : Hold :=
  if h.released then h.finish now
  else if h.lease.expiresAt - now ≤ 0 then h.finish now
  else { h with phase := .sleeping (now + (h.lease.expiresAt - now)) }

/-- What `close` does to one task. -/
def Hold.close (h : Hold) : Hold :=
  if h.held then { h with released := true }
  else match h.phase with
    | .finished => h
    | _ => { h with cancelled := true }

/-- `clamp_ttl` -/
def Broker.clampTtl (b : Broker) (ttl : ℚ) : Except String ℚ :=
  if ttl ≤ 0 then .error "ttl must be > 0" else .ok (min ttl b.maxTtl)

def Broker.put (b : Broker) (id : Nat) (h : Hold) : Broker :=
  { b with holds := Function.update b.holds id (some h) }

/-- `acquire` up to its await. -/
def Broker.acquire (b : Broker) (device : String) (nbytes : Int) (ttl : ℚ) :
    Except String Broker :=
  if b.closed then .error "LeaseBroker is closed"
  else do
    let ttl ← b.clampTtl ttl
    pure { b.put b.next ⟨⟨b.next,device,nbytes,b.now + ttl⟩,ttl,false,false,false,.created,.pending,
      0,[]⟩ with next := b.next + 1 }

/-- The lease of `id` in the table. -/
def Broker.held? (b : Broker) (id : Nat) : Option Hold :=
  (b.holds id).filter (·.held)

/-- `release` up to its await. -/
def Broker.release (b : Broker) (id : Nat) : Broker × Bool :=
  match b.held? id with
  | none => (b,false)
  | some h => (b.put id { h with released := true },true)

/-- `renew` -/
def Broker.renew (b : Broker) (id : Nat) (ttl : ℚ) : Except String (Broker × Option Lease) := do
  let ttl ← b.clampTtl ttl
  match b.held? id with
  | none => pure (b,none)
  | some h =>
    if h.lease.expiresAt ≤ b.now then pure (b,none)
    else
      let lease := { h.lease with expiresAt := b.now + ttl }
      pure (b.put id { h with lease := lease },some lease)

/-- `close` up to its await. -/
def Broker.close (b : Broker) : Broker :=
  { b with closed := true, holds := fun id => (b.holds id).map Hold.close }

inductive Action
  | advance (elapsed : ℚ)
  | acquire (device : String) (nbytes : Int) (ttl : ℚ)
  | begin (id : Nat)
  | grant (id : Nat)
  | refuse (id : Nat) (error : String)
  | wake (id : Nat)
  | renew (id : Nat) (ttl : ℚ)
  | release (id : Nat)
  | close

def Broker.turn (b : Broker) (id : Nat) (ready : Hold → Bool) (f : Hold → Hold) : Option Broker :=
  match b.holds id with
  | none => none
  | some h => if ready h then some (b.put id (f h)) else none

def Hold.ended (now : ℚ) (h : Hold) : Bool :=
  match h.phase with
  | .sleeping wakeAt => h.released || decide (wakeAt ≤ now)
  | _ => false

def Phase.isCreated : Phase → Bool
  | .created => true
  | _ => false

def Phase.wakeAt? : Phase → Option ℚ
  | .sleeping wakeAt => some wakeAt
  | _ => none

def Phase.isAdmission : Phase → Bool
  | .admission => true
  | _ => false

/-- A call that raises leaves the broker as it was. -/
def Broker.step (b : Broker) : Action → Option Broker
  | .advance elapsed => if 0 ≤ elapsed then some { b with now := b.now + elapsed } else none
  | .acquire device nbytes ttl => some ((b.acquire device nbytes ttl).toOption.getD b)
  | .begin id => b.turn id (·.phase.isCreated) Hold.begin
  | .grant id => b.turn id (·.phase.isAdmission) (Hold.grant b.closed b.now)
  | .refuse id error => b.turn id (·.phase.isAdmission) (Hold.refuse error)
  | .wake id => b.turn id (Hold.ended b.now) (Hold.wake b.now)
  | .renew id ttl => some (((b.renew id ttl).toOption.map (·.1)).getD b)
  | .release id => some (b.release id).1
  | .close => some b.close

/-- A live lease has a wake-up that is not later than its expiry. Its reservation is given back once
and, before that expiry, only for a release or because the broker closed; after the close nothing
sleeps for the clock, and a task that has ended has answered its `acquire`. -/
structure Hold.Kept (closed : Bool) (h : Hold) : Prop where
  armed : h.held = true → ∃ wakeAt, h.phase = .sleeping wakeAt ∧ wakeAt ≤ h.lease.expiresAt
  due : ∀ t ∈ h.givenBack, h.released = true ∨ closed = true ∨ h.lease.expiresAt ≤ t
  once : h.entered ≤ 1 ∧ h.givenBack.length ≤ h.entered
  live : h.held = true → h.entered = 1 ∧ h.givenBack = []
  settled : h.phase = .finished → h.givenBack.length = h.entered
  stirred : closed = true → h.phase ≠ .finished → h.released = true ∨ h.cancelled = true
  resolved : closed = true → h.phase = .finished → h.granted ≠ .pending

def Broker.Kept (b : Broker) : Prop := ∀ id h, b.holds id = some h → h.Kept b.closed

/-- A renewal does not end before the wake-up that its holder sleeps for, and the broker is not
closed while a holder task has yet to begin. -/
def Meets (b : Broker) : Action → Prop
  | .renew id ttl => ∀ h wakeAt, b.held? id = some h → h.phase = .sleeping wakeAt → 0 < ttl →
      wakeAt ≤ b.now + min ttl b.maxTtl
  | .close => ∀ id h, b.holds id = some h → h.phase ≠ .created
  | _ => True

def Hold.Good (closed : Bool) (h : Hold) : Prop :=
  match h.phase with
  | .created => h.held = false ∧ h.granted = .pending ∧ h.entered = 0 ∧ h.givenBack = [] ∧
      h.cancelled = false ∧ closed = false
  | .admission => h.held = false ∧ h.granted = .pending ∧ h.entered = 0 ∧ h.givenBack = [] ∧
      (closed = true → h.cancelled = true)
  | .sleeping wakeAt => h.held = true ∧ h.granted = .granted ∧ h.entered = 1 ∧ h.givenBack = [] ∧
      (closed = true → h.released = true) ∧ wakeAt ≤ h.lease.expiresAt
  | .finished => h.held = false ∧ h.granted ≠ .pending ∧ h.entered ≤ 1 ∧
      h.givenBack.length = h.entered ∧
      ∀ t ∈ h.givenBack, h.released = true ∨ closed = true ∨ h.lease.expiresAt ≤ t

def Broker.Good (b : Broker) : Prop := ∀ id h, b.holds id = some h → h.Good b.closed

theorem Hold.Good.kept {closed : Bool} {h : Hold} (good : h.Good closed) : h.Kept closed := by
  obtain ⟨lease,ttl,held,released,cancelled,phase,answer,entered,givenBack⟩ := h
  cases phase with
  | created =>
    obtain ⟨rfl,rfl,rfl,rfl,rfl,rfl⟩ := good
    exact ⟨nofun,nofun,⟨zero_le_one,le_rfl⟩,nofun,nofun,nofun,nofun⟩
  | admission =>
    obtain ⟨rfl,rfl,rfl,rfl,stopped⟩ := good
    exact ⟨nofun,nofun,⟨zero_le_one,le_rfl⟩,nofun,nofun,fun closing _ => .inr (stopped closing),
      nofun⟩
  | sleeping wakeAt =>
    obtain ⟨rfl,rfl,rfl,rfl,stopped,early⟩ := good
    exact ⟨fun _ => ⟨wakeAt,rfl,early⟩,nofun,⟨le_rfl,zero_le_one⟩,fun _ => ⟨rfl,rfl⟩,nofun,
      fun closing _ => .inl (stopped closing),nofun⟩
  | finished =>
    obtain ⟨rfl,answered,bound,exact,due⟩ := good
    exact ⟨nofun,due,⟨bound,exact.le⟩,nofun,fun _ => exact,fun _ open_ => absurd rfl open_,
      fun _ _ => answered⟩

section Task

variable {closed : Bool} {now : ℚ} {h : Hold}

theorem Hold.Good.begin (good : h.Good closed) (ready : h.phase.isCreated = true) :
    h.begin.Good closed := by
  obtain ⟨lease,ttl,held,released,cancelled,phase,answer,entered,givenBack⟩ := h
  cases phase with
  | created =>
    obtain ⟨rfl,rfl,rfl,rfl,rfl,rfl⟩ := good
    exact ⟨rfl,rfl,rfl,rfl,nofun⟩
  | admission => cases ready
  | sleeping _ => cases ready
  | finished => cases ready

theorem Hold.Good.grant (good : h.Good closed) (ready : h.phase.isAdmission = true) :
    (h.grant closed now).Good closed := by
  obtain ⟨lease,ttl,held,released,cancelled,phase,answer,entered,givenBack⟩ := h
  cases phase with
  | admission =>
    obtain ⟨rfl,rfl,rfl,rfl,_⟩ := good
    cases closed with
    | true => exact ⟨rfl,nofun,le_rfl,rfl,fun _ _ => .inr (.inl rfl)⟩
    | false => exact ⟨rfl,rfl,rfl,rfl,nofun,by simp [Hold.grant]⟩
  | created => cases ready
  | sleeping _ => cases ready
  | finished => cases ready

theorem Hold.Good.refuse (good : h.Good closed) (ready : h.phase.isAdmission = true)
    (error : String) : (h.refuse error).Good closed := by
  obtain ⟨lease,ttl,held,released,cancelled,phase,answer,entered,givenBack⟩ := h
  cases phase with
  | admission =>
    obtain ⟨rfl,rfl,rfl,rfl,_⟩ := good
    exact ⟨rfl,nofun,zero_le_one,rfl,nofun⟩
  | created => cases ready
  | sleeping _ => cases ready
  | finished => cases ready

theorem Hold.Good.wake (good : h.Good closed) (ready : h.ended now = true) :
    (h.wake now).Good closed := by
  obtain ⟨lease,ttl,held,released,cancelled,phase,answer,entered,givenBack⟩ := h
  cases phase with
  | sleeping wakeAt =>
    obtain ⟨rfl,rfl,rfl,rfl,stopped,_⟩ := good
    rw [Hold.wake]
    split
    · rename_i free
      exact ⟨rfl,nofun,le_rfl,rfl,fun _ _ => .inl free⟩
    · split
      · rename_i past
        refine ⟨rfl,nofun,le_rfl,rfl,fun t back => .inr (.inr ?_)⟩
        rw [List.mem_singleton.mp back]
        exact sub_nonpos.mp past
      · exact ⟨rfl,rfl,rfl,rfl,stopped,by simp⟩
  | created => cases ready
  | admission => cases ready
  | finished => cases ready

theorem Hold.Good.close (good : h.Good closed) (begun : h.phase ≠ .created) :
    h.close.Good true := by
  obtain ⟨lease,ttl,held,released,cancelled,phase,answer,entered,givenBack⟩ := h
  cases phase with
  | created => exact absurd rfl begun
  | admission =>
    obtain ⟨rfl,rfl,rfl,rfl,_⟩ := good
    exact ⟨rfl,rfl,rfl,rfl,fun _ => rfl⟩
  | sleeping wakeAt =>
    obtain ⟨rfl,rfl,rfl,rfl,_,early⟩ := good
    exact ⟨rfl,rfl,rfl,rfl,fun _ => rfl,early⟩
  | finished =>
    obtain ⟨rfl,answered,bound,exact,due⟩ := good
    exact ⟨rfl,answered,bound,exact,fun t back => (due t back).imp_right fun _ => .inl rfl⟩

theorem Hold.Good.sleeping (good : h.Good closed) (listed : h.held = true) :
    ∃ wakeAt, h.phase = .sleeping wakeAt ∧ wakeAt ≤ h.lease.expiresAt :=
  good.kept.armed listed

theorem Hold.Good.release (good : h.Good closed) (listed : h.held = true) :
    Hold.Good closed { h with released := true } := by
  obtain ⟨wakeAt,asleep,_⟩ := good.sleeping listed
  unfold Hold.Good at good ⊢
  simp only [asleep] at good ⊢
  exact ⟨good.1,good.2.1,good.2.2.1,good.2.2.2.1,fun _ => trivial,good.2.2.2.2.2⟩

theorem Hold.Good.renew (good : h.Good closed) (listed : h.held = true) {expiry : ℚ}
    (later : ∀ wakeAt, h.phase = .sleeping wakeAt → wakeAt ≤ expiry) :
    Hold.Good closed { h with lease := { h.lease with expiresAt := expiry } } := by
  obtain ⟨wakeAt,asleep,_⟩ := good.sleeping listed
  have late := later wakeAt asleep
  unfold Hold.Good at good ⊢
  simp only [asleep] at good ⊢
  exact ⟨good.1,good.2.1,good.2.2.1,good.2.2.2.1,good.2.2.2.2.1,late⟩

end Task

theorem Broker.Good.put {b : Broker} (good : b.Good) (id : Nat) {h : Hold}
    (fits : h.Good b.closed) : (b.put id h).Good := by
  intro id' h' found
  by_cases same : id' = id
  · subst same
    have shown : h = h' := by simpa [Broker.put] using found
    exact shown ▸ fits
  · exact good id' h' (by simpa [Broker.put,same] using found)

theorem Broker.Good.turn {b after : Broker} (good : b.Good) {id : Nat} {ready : Hold → Bool}
    {f : Hold → Hold} (fits : ∀ h, h.Good b.closed → ready h = true → (f h).Good b.closed)
    (taken : b.turn id ready f = some after) : after.Good := by
  rw [Broker.turn] at taken
  split at taken
  · cases taken
  · rename_i h found
    split at taken
    · rename_i now
      cases taken
      exact good.put id (fits h (good id h found) now)
    · cases taken

theorem Broker.held?_some {b : Broker} {id : Nat} {h : Hold} :
    b.held? id = some h ↔ b.holds id = some h ∧ h.held = true :=
  Option.filter_eq_some_iff

theorem Broker.clampTtl_ok {b : Broker} {ttl clamped : ℚ} (ok : b.clampTtl ttl = .ok clamped) :
    0 < ttl ∧ clamped = min ttl b.maxTtl := by
  rw [Broker.clampTtl] at ok
  split at ok
  · cases ok
  · rename_i positive
    cases ok
    exact ⟨not_le.mp positive,rfl⟩

theorem Broker.Good.acquire {b after : Broker} (good : b.Good) {device : String} {nbytes : Int}
    {ttl : ℚ} (ok : b.acquire device nbytes ttl = .ok after) : after.Good := by
  rw [Broker.acquire] at ok
  split at ok
  · cases ok
  · rename_i opened
    obtain ⟨clamped,_,made⟩ := Fallible.bind_ok.mp ok
    cases made
    exact good.put b.next ⟨rfl,rfl,rfl,rfl,rfl,by simpa using opened⟩

theorem Broker.Good.renew {b after : Broker} (good : b.Good) {id : Nat} {ttl : ℚ}
    {lease : Option Lease} (meets : Meets b (.renew id ttl))
    (ok : b.renew id ttl = .ok (after,lease)) : after.Good := by
  obtain ⟨clamped,clamps,rest⟩ := Fallible.bind_ok.mp ok
  obtain ⟨positive,rfl⟩ := Broker.clampTtl_ok clamps
  split at rest
  · cases rest
    exact good
  · rename_i h found
    split at rest
    · cases rest
      exact good
    · cases rest
      obtain ⟨here,listed⟩ := Broker.held?_some.mp found
      exact good.put id ((good id h here).renew listed fun wakeAt asleep =>
        meets h wakeAt found asleep positive)

theorem Broker.Good.step {b after : Broker} {a : Action} (good : b.Good) (meets : Meets b a)
    (taken : b.step a = some after) : after.Good := by
  cases a with
  | advance elapsed =>
    rw [Broker.step] at taken
    split at taken
    · cases taken
      exact good
    · cases taken
  | acquire device nbytes ttl =>
    cases taken
    cases made : b.acquire device nbytes ttl with
    | error _ => exact good
    | ok next => exact good.acquire made
  | begin id => exact good.turn (fun h fits ready => fits.begin ready) taken
  | grant id => exact good.turn (fun h fits ready => fits.grant ready) taken
  | refuse id error => exact good.turn (fun h fits ready => fits.refuse ready error) taken
  | wake id => exact good.turn (fun h fits ready => fits.wake ready) taken
  | renew id ttl =>
    cases taken
    cases made : b.renew id ttl with
    | error _ => exact good
    | ok next => exact good.renew meets made
  | release id =>
    cases taken
    rw [Broker.release]
    split
    · exact good
    · rename_i h found
      obtain ⟨here,listed⟩ := Broker.held?_some.mp found
      exact good.put id ((good id h here).release listed)
  | close =>
    cases taken
    intro id h found
    obtain ⟨before,here,rfl⟩ := Option.map_eq_some_iff.mp found
    exact (good id before here).close (meets id before here)

theorem Broker.Good.renew_breaks {b : Broker} (good : b.Good) {id : Nat} {ttl : ℚ}
    (short : ¬Meets b (.renew id ttl)) :
    ∃ after, b.step (.renew id ttl) = some after ∧ ¬after.Kept := by
  simp only [Meets,not_forall,not_le] at short
  obtain ⟨h,wakeAt,found,asleep,positive,short⟩ := short
  obtain ⟨here,listed⟩ := Broker.held?_some.mp found
  obtain ⟨wake,asleep',early⟩ := (good id h here).sleeping listed
  obtain rfl : wakeAt = wake := Phase.sleeping.inj (asleep.symm.trans asleep')
  have more : 0 < min ttl b.maxTtl := lt_min positive b.capped
  have live : ¬h.lease.expiresAt ≤ b.now := by linarith
  have renewed : b.renew id ttl = .ok (b.put id { h with
      lease := { h.lease with expiresAt := b.now + min ttl b.maxTtl } },
      some { h.lease with expiresAt := b.now + min ttl b.maxTtl }) := by
    rw [Broker.renew,Broker.clampTtl,if_neg (not_le.mpr positive)]
    simp only [bind,Except.bind,found,live,if_false]
    rfl
  refine ⟨_,by rw [Broker.step,renewed],fun kept => ?_⟩
  obtain ⟨wake,asleep',early⟩ := (kept id _ (Function.update_self ..)).armed listed
  obtain rfl : wakeAt = wake := Phase.sleeping.inj (asleep.symm.trans asleep')
  exact absurd early (not_le.mpr short)

theorem Broker.Good.close_breaks {b : Broker} (good : b.Good) (early : ¬Meets b .close) :
    ∃ id after last, b.step .close = some after ∧ after.step (.begin id) = some last ∧
      ¬last.Kept := by
  simp only [Meets,not_forall,not_not] at early
  obtain ⟨id,h,here,fresh⟩ := early
  have place := good id h here
  unfold Hold.Good at place
  simp only [fresh] at place
  have cancelled : h.close = { h with cancelled := true } := by
    rw [Hold.close,place.1]
    simp only [Bool.false_eq_true,if_false,fresh]
  have inside : b.close.holds id = some { h with cancelled := true } := by
    rw [← cancelled]
    exact congrArg (Option.map Hold.close) here
  refine ⟨id,_,b.close.put id { h with cancelled := true, phase := .finished },rfl,?_,
    fun kept => ?_⟩
  · rw [Broker.step,Broker.turn,inside]
    simp only [fresh]
    rfl
  · exact (kept id _ (Function.update_self ..)).resolved rfl rfl place.2.1

/-- Every run whose renewals do not end before their holder's wake-up, and whose closes meet no task
that has yet to begin, keeps what the broker promises. A step from such a run that fails this breaks
a promise at once, or with the first step of such a task. -/
theorem leases_kept {maxTtl : ℚ} {capped : 0 < maxTtl} {b : Broker}
    (reached : Reach Broker.step Meets (initial maxTtl capped) b) :
    b.Kept ∧ ∀ a, Meets b a ↔ ∀ after, b.step a = some after →
      after.Kept ∧ ∀ id last, after.step (.begin id) = some last → last.Kept := by
  have good : b.Good := reached.invariant Broker.Good (fun _ _ found => by cases found)
    fun _ _ _ good meets taken => good.step meets taken
  have kept : ∀ {b : Broker}, b.Good → b.Kept := fun good id h found => (good id h found).kept
  refine ⟨kept good,fun a => ⟨fun meets after taken => ?_,fun keeps => ?_⟩⟩
  · have next := good.step meets taken
    exact ⟨kept next,fun id last begun => kept (next.step (a := .begin id) trivial begun)⟩
  · by_contra broken
    cases a with
    | renew id ttl =>
      obtain ⟨after,taken,fails⟩ := good.renew_breaks broken
      exact fails (keeps after taken).1
    | close =>
      obtain ⟨id,after,last,taken,begun,fails⟩ := good.close_breaks broken
      exact fails ((keeps after taken).2 id last begun)
    | _ => exact broken trivial

theorem leases_kept_released :
    ((offer Broker.step (initial 300 (by norm_num))
      [.acquire "cuda" 1 10,.begin 0,.grant 0,.advance 2,.release 0,.wake 0]).holds 0).map
        (·.givenBack) = some [2] ∧
    (offer Broker.step (initial 300 (by norm_num))
      [.acquire "cuda" 1 10,.begin 0,.grant 0,.advance 2,.release 0,.wake 0]).Kept :=
  ⟨by decide +kernel,(leases_kept (reach_offer _ (by simp [Meets]))).1⟩

/-- A lease of ten seconds, renewed for one, sleeps for ten; and a broker that closes before the task
of a first `acquire` has begun leaves that call waiting. -/
theorem leases_broken :
    (∃ b, run Broker.step (initial 300 (by norm_num))
      [.acquire "cuda" 1 10,.begin 0,.grant 0,.renew 0 1] = some b ∧ ¬b.Kept) ∧
    ∃ b, run Broker.step (initial 300 (by norm_num)) [.acquire "cuda" 1 10,.close,.begin 0] =
      some b ∧ ¬b.Kept := by
  constructor
  · have shape : ((run Broker.step (initial 300 (by norm_num))
        [.acquire "cuda" 1 10,.begin 0,.grant 0,.renew 0 1]).bind fun b => (b.holds 0).map fun h =>
          (h.held,h.phase.wakeAt?,h.lease.expiresAt)) = some (true,some 10,1) := by decide +kernel
    obtain ⟨b,ran,inner⟩ := Option.bind_eq_some_iff.mp shape
    obtain ⟨h,here,facts⟩ := Option.map_eq_some_iff.mp inner
    obtain ⟨listed,asleep,expiry⟩ := by simpa using facts
    refine ⟨b,ran,fun kept => ?_⟩
    obtain ⟨wakeAt,place,early⟩ := (kept 0 h here).armed listed
    rw [place] at asleep
    rw [Option.some.inj asleep,expiry] at early
    norm_num at early
  · exact ⟨_,rfl,fun kept => (kept 0 _ rfl).resolved rfl rfl rfl⟩

end Dinkster.Memory.Leases
