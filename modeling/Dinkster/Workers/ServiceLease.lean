import Dinkster.Workers.Service
import Dinkster.Workers.Settlement

/-! The lease of the remote service: which conversation is served, and what a refused connection
has met. -/
namespace Dinkster.Workers.Lease
open Resume Transition

/-- The phases in which a connection holds the admission lock. -/
def Phase.holds : Phase → Bool
  | .forgetting _ _ | .forgotten _ _ | .detaching _ _ _ | .closing _ _ | .evicted _ _
  | .attaching _ _ _ | .writing _ _ _ | .aborting _ _ _ | .abortClosing _ _ => true
  | _ => false

def Phase.hello : Phase → Option ClientHello
  | .arrived hello | .forgetting hello _ | .forgotten hello _ | .detaching hello _ _
  | .closing hello _ | .evicted hello _ => some hello
  | _ => none

/-- An exception that `on_connect` does not answer, on its way or at its end. -/
def Phase.unanswered : Phase → Bool
  | .aborting _ _ (.runtime _) | .abortClosing _ (.runtime _) | .raised _ => true
  | _ => false

namespace Service

def Open (s : Service) (c : Nat) : Prop :=
  ∃ conversation, s.conversations[c]? = some conversation ∧ conversation.closed = false

structure Core (s : Service) : Prop where
  served : ∀ c, s.Open c → s.active = some c
  known : ∀ c, s.active = some c → c < s.conversations.length
  shaped : ∀ (c : Nat) conversation, s.conversations[c]? = some conversation → conversation.Shaped

def Fits (s : Service) (stream : Stream) : Phase → Prop
  | .forgetting _ c => s.active = some c
  | .forgotten _ c => s.active = some c ∧ ¬ s.Open c
  | .writing c _ resumed => ∃ conversation, s.conversations[c]? = some conversation ∧
      conversation.sendLock = some (.attaching stream resumed)
  | .detaching _ c _ | .closing _ c | .attaching c _ _ | .aborting c _ _ | .abortClosing c _ =>
    c < s.conversations.length
  | _ => True

structure Sound (s : Service) : Prop where
  core : s.Core
  holder : ∀ stream phase, s.connections.get? stream = some phase → phase.holds = true →
    s.admission = some (.connection stream)
  fits : ∀ stream phase, s.connections.get? stream = some phase → s.Fits stream phase

theorem initial_sound : initial.Sound := by
  refine ⟨⟨?_,?_,?_⟩,?_,?_⟩
  · rintro c ⟨conversation,found,_⟩
    cases found
  · intro c active
    cases active
  · intro c conversation found
    cases found
  · intro stream phase found
    cases found
  · intro stream phase found
    cases found

variable {s s' : Service} {c : Nat} {conversation conversation' : Conversation}

theorem fits_of_free {stream : Stream} {phase : Phase} (free : phase.holds = false) :
    s.Fits stream phase := by
  cases phase with
  | arrived | refused | attached | answered | hungUp | raised => trivial
  | _ => cases free

theorem get?_set_cases {d : Nat} {x : Conversation}
    (found : (s.set c conversation').conversations[d]? = some x) :
    d = c ∧ x = conversation' ∨ s.conversations[d]? = some x := by
  change (s.conversations.set c conversation')[d]? = some x at found
  rw [List.getElem?_set] at found
  split at found
  · split at found
    · rename_i same _
      exact .inl ⟨same.symm,(Option.some.inj found).symm⟩
    · cases found
  · exact .inr found

theorem length_set (s : Service) (c : Nat) (conversation : Conversation) :
    (s.set c conversation).conversations.length = s.conversations.length :=
  List.length_set

theorem known_set {d : Nat} (known : d < s.conversations.length) :
    d < (s.set c conversation').conversations.length := by
  rw [length_set]
  exact known

theorem get?_set_self (found : s.conversations[c]? = some conversation) :
    (s.set c conversation').conversations[c]? = some conversation' := by
  change (s.conversations.set c conversation')[c]? = _
  obtain ⟨bound,_⟩ := List.getElem?_eq_some_iff.mp found
  rw [List.getElem?_set_self bound]

theorem open_of_set (found : s.conversations[c]? = some conversation)
    (closed : conversation.closed = true → conversation'.closed = true) {d : Nat}
    (opened : (s.set c conversation').Open d) : s.Open d := by
  obtain ⟨x,found',alive⟩ := opened
  rcases get?_set_cases found' with ⟨rfl,rfl⟩ | old
  · refine ⟨conversation,found,?_⟩
    cases state : conversation.closed with
    | false => rfl
    | true => rw [closed state] at alive; cases alive
  · exact ⟨x,old,alive⟩

theorem Core.set (core : s.Core) (found : s.conversations[c]? = some conversation)
    (shaped : conversation'.Shaped)
    (closed : conversation.closed = true → conversation'.closed = true) :
    (s.set c conversation').Core := by
  refine ⟨fun d opened => core.served d (open_of_set found closed opened),?_,?_⟩
  · intro d active
    rw [length_set]
    exact core.known d active
  · intro d x found'
    rcases get?_set_cases found' with ⟨_,rfl⟩ | old
    · exact shaped
    · exact core.shaped d x old

theorem Core.turn (core : s.Core) (found : s.conversations[c]? = some conversation)
    (turn : conversation.Turn conversation') : (s.set c conversation').Core :=
  core.set found turn.shaped turn.closed

theorem Core.forgotten (core : s.Core) (closed : ∀ d, s.active = some d → ¬ s.Open d) :
    Core { s with active := none, activeTransports := none } := by
  refine ⟨?_,nofun,core.shaped⟩
  intro d opened
  exact absurd opened (closed d (core.served d opened))

theorem Core.forget (core : s.Core) (closed : ¬ s.Open c) : (s.forget c).Core := by
  unfold Service.forget
  split
  · rename_i active
    refine core.forgotten fun d active' => ?_
    obtain rfl : c = d := Option.some.inj (active.symm.trans active')
    exact closed
  · exact core

theorem Core.remembered_none (core : s.Core) (none : s.remembered = none) (d : Nat) :
    ¬ s.Open d := by
  intro opened
  have active := core.served d opened
  obtain ⟨x,found,_⟩ := opened
  simp [remembered,active,found] at none

theorem remembered_some (known : s.remembered = some (c,conversation)) :
    s.active = some c ∧ s.conversations[c]? = some conversation := by
  obtain ⟨d,active,found⟩ := Option.bind_eq_some_iff.mp known
  obtain ⟨x,found,same⟩ := Option.map_eq_some_iff.mp found
  cases same
  exact ⟨active,found⟩

theorem Core.add (core : s.Core) (none : ∀ d, ¬ s.Open d) (shaped : conversation.Shaped)
    {transports : Option (List String)} :
    Core { s with
      conversations := s.conversations ++ [conversation]
      active := some s.conversations.length
      activeTransports := transports } := by
  refine ⟨?_,?_,?_⟩
  · rintro d ⟨x,found,alive⟩
    change (s.conversations ++ [conversation])[d]? = some x at found
    rcases Nat.lt_trichotomy d s.conversations.length with old | rfl | beyond
    · rw [List.getElem?_append_left old] at found
      exact absurd ⟨x,found,alive⟩ (none d)
    · rfl
    · rw [List.getElem?_eq_none (by simp; omega)] at found
      cases found
  · intro d active
    obtain rfl := Option.some.inj active
    simp
  · intro d x found
    change (s.conversations ++ [conversation])[d]? = some x at found
    rcases List.mem_append.mp (List.mem_of_getElem? found) with old | new
    · obtain ⟨i,at_i⟩ := List.mem_iff_getElem?.mp old
      exact core.shaped i x at_i
    · obtain rfl := List.mem_singleton.mp new
      exact shaped

def Sole (s : Service) (stream : Stream) : Prop :=
  ∀ other before, s.connections.get? other = some before → before.holds = true → other = stream

theorem advance {stream : Stream} {phase : Phase} (sole : s.Sole stream)
    (connections : s'.connections = s.connections.set stream phase) (core : s'.Core)
    (admission : phase.holds = true → s'.admission = some (.connection stream))
    (fits : s'.Fits stream phase) : s'.Sound := by
  refine ⟨core,?_,?_⟩
  · intro other after found holds
    rw [connections,Dict.get?_set] at found
    split at found
    · rename_i same
      cases found
      rw [same]
      exact admission holds
    · rename_i ne
      exact absurd (sole other after found holds) ne
  · intro other after found
    rw [connections,Dict.get?_set] at found
    split at found
    · rename_i same
      cases found
      rw [same]
      exact fits
    · rename_i ne
      cases holds : after.holds with
      | false => exact fits_of_free holds
      | true => exact absurd (sole other after found holds) ne

theorem Sound.sole_free (sound : s.Sound) (free : s.admission = none) (stream : Stream) :
    s.Sole stream := by
  intro other before found holds
  have held := sound.holder other before found holds
  rw [free] at held
  cases held

theorem Sound.sole_holder (sound : s.Sound) {stream : Stream} {phase : Phase}
    (here : s.connections.get? stream = some phase) (holds : phase.holds = true) :
    s.Sole stream := by
  intro other before found holds'
  have held := (sound.holder other before found holds').symm.trans
    (sound.holder stream phase here holds)
  exact Admission.connection.inj (Option.some.inj held)

theorem Sound.still (sound : s.Sound) (core : s'.Core) (connections : s'.connections = s.connections)
    (admission : ∀ stream, s.admission = some (.connection stream) → s'.admission = s.admission)
    (fits : ∀ stream phase, s.connections.get? stream = some phase → s.Fits stream phase →
      s'.Fits stream phase) : s'.Sound := by
  refine ⟨core,?_,?_⟩
  · intro stream phase found holds
    rw [connections] at found
    have held := sound.holder stream phase found holds
    rw [admission stream held]
    exact held
  · intro stream phase found
    rw [connections] at found
    exact fits stream phase found (sound.fits stream phase found)

theorem Fits.turn {stream : Stream} {phase : Phase} (fits : s.Fits stream phase)
    (found : s.conversations[c]? = some conversation) (turn : conversation.Turn conversation')
    (active : s'.active = s.active)
    (conversations : s'.conversations = (s.set c conversation').conversations) :
    s'.Fits stream phase := by
  have opened (d : Nat) (o : s'.Open d) : s.Open d := by
    obtain ⟨x,found',alive⟩ := o
    exact open_of_set found turn.closed ⟨x,conversations ▸ found',alive⟩
  cases phase with
  | forgetting hello d => exact active.trans fits
  | forgotten hello d => exact ⟨active.trans fits.1,fun o => fits.2 (opened d o)⟩
  | writing d fresh resumed =>
    obtain ⟨x,found',held⟩ := fits
    by_cases same : d = c
    · subst same
      obtain rfl : x = conversation := Option.some.inj (found'.symm.trans found)
      refine ⟨conversation',?_,turn.attaching _ _ held⟩
      rw [conversations]
      exact get?_set_self found
    · refine ⟨x,?_,held⟩
      rw [conversations]
      show (s.conversations.set c conversation')[d]? = some x
      rw [List.getElem?_set_ne (Ne.symm same)]
      exact found'
  | detaching | closing | attaching | aborting | abortClosing =>
    show _ < s'.conversations.length
    rw [conversations,length_set]
    exact fits
  | _ => trivial

theorem Sound.turn (sound : s.Sound) (found : s.conversations[c]? = some conversation)
    (turn : conversation.Turn conversation') : (s.set c conversation').Sound :=
  sound.still (sound.core.turn found turn) rfl (fun _ _ => rfl)
    fun _ _ _ fits => fits.turn found turn rfl rfl

variable {cfg : Config} {stream : Stream} {hello : ClientHello}

theorem leave_sound (core : s.Core) (sole : s.Sole stream) {phase : Phase}
    (free : phase.holds = false) : (s.leave stream phase).Sound := by
  refine advance sole rfl ⟨core.served,core.known,core.shaped⟩ ?_ (fits_of_free free)
  intro holds
  rw [free] at holds
  cases holds

theorem hold_sound (core : s.Core) (sole : s.Sole stream) {phase : Phase}
    (fits : (s.hold stream phase).Fits stream phase) : (s.hold stream phase).Sound :=
  advance sole rfl ⟨core.served,core.known,core.shaped⟩ (fun _ => rfl) fits

theorem startAttach_sound (core : s.Core) (sole : s.Sole stream) (known : c < s.conversations.length)
    (fresh : Bool) (conversation : Conversation) :
    (s.startAttach stream c fresh conversation).Sound := by
  unfold startAttach
  split
  · exact hold_sound core sole known
  · exact hold_sound core sole known

theorem compare_sound (core : s.Core) (sole : s.Sole stream) :
    (s.compare cfg stream hello).Sound := by
  unfold compare
  split
  · rename_i c conversation known
    have known := core.known c (remembered_some known).1
    split
    · split
      · exact leave_sound core sole rfl
      split
      · exact leave_sound core sole rfl
      · exact startAttach_sound core sole known _ _
    · exact leave_sound core sole rfl
  · rename_i unknown
    refine startAttach_sound
      (core.add (core.remembered_none unknown) (Conversation.new_shaped _ _ _ _ _)) sole ?_ _ _
    simp

theorem enter_sound (core : s.Core) (sole : s.Sole stream) : (s.enter cfg stream hello).Sound := by
  unfold enter
  split
  · rename_i c conversation known
    split
    · exact hold_sound core sole (remembered_some known).1
    split
    · exact hold_sound core sole (core.known c (remembered_some known).1)
    · exact compare_sound core sole
  · exact compare_sound core sole

theorem closed_of_set (found : s.conversations[c]? = some conversation) :
    ¬ (s.set c conversation.close).Open c := by
  rintro ⟨x,found',alive⟩
  rw [get?_set_self found] at found'
  obtain rfl := Option.some.inj found'
  rw [Conversation.close_closed] at alive
  cases alive

theorem proceed_sound (sound : s.Sound) {phase : Phase} {outcome : Option String}
    (here : s.connections.get? stream = some phase)
    (taken : s.proceed cfg stream outcome phase = some s') : s'.Sound := by
  have core := sound.core
  have fits := sound.fits stream phase here
  have unlocked {x : Conversation} (lock : ¬ x.sendLock.isSome = true) : x.sendLock = none := by
    simpa using lock
  cases phase with
  | arrived | refused | attached | answered | hungUp | raised => cases taken
  | forgetting hello c =>
    have sole := sound.sole_holder here rfl
    obtain ⟨x,found,taken⟩ := Option.bind_eq_some_iff.mp taken
    split at taken
    · cases taken
    rename_i lock
    cases taken
    have turn := Conversation.close_turn (core.shaped c x found) (unlocked lock)
    exact hold_sound (core.turn found turn) sole ⟨fits,closed_of_set found⟩
  | forgotten hello c =>
    have sole := sound.sole_holder here rfl
    cases taken
    refine compare_sound (core.forgotten fun d active => ?_) sole
    obtain rfl : c = d := Option.some.inj (fits.1.symm.trans active)
    exact fits.2
  | detaching hello c epoch =>
    have sole := sound.sole_holder here rfl
    obtain ⟨x,found,taken⟩ := Option.bind_eq_some_iff.mp taken
    split at taken
    · cases taken
    rename_i lock
    cases taken
    have turn := Conversation.detach_turn (core.shaped c x found) (unlocked lock) epoch
    refine hold_sound (core.turn found turn) sole ?_
    split
    · exact known_set fits
    · trivial
  | closing hello c =>
    have sole := sound.sole_holder here rfl
    obtain ⟨x,found,taken⟩ := Option.bind_eq_some_iff.mp taken
    split at taken
    · cases taken
    rename_i lock
    cases taken
    have turn := Conversation.close_turn (core.shaped c x found) (unlocked lock)
    exact hold_sound (core.turn found turn) sole trivial
  | evicted hello c =>
    have sole := sound.sole_holder here rfl
    cases taken
    exact compare_sound core sole
  | attaching c fresh resumed =>
    have sole := sound.sole_holder here rfl
    obtain ⟨x,found,taken⟩ := Option.bind_eq_some_iff.mp taken
    split at taken
    · cases taken
    split at taken
    · cases taken
      exact hold_sound core sole fits
    · rename_i alive
      cases taken
      have shaped := Conversation.takeOver_shaped alive s.now stream resumed
      refine hold_sound (core.set found shaped fun closed => absurd closed alive) sole ?_
      exact ⟨_,get?_set_self found,rfl⟩
  | writing c fresh resumed =>
    have sole := sound.sole_holder here rfl
    obtain ⟨x,found,held⟩ := fits
    obtain ⟨x',found',taken⟩ := Option.bind_eq_some_iff.mp taken
    obtain rfl : x' = x := Option.some.inj (found'.symm.trans found)
    have shaped := core.shaped c x' found
    have known := (List.getElem?_eq_some_iff.mp found).1
    split at taken
    · cases taken
      exact hold_sound (core.set found (Conversation.unlock_shaped shaped) id) sole (known_set known)
    · have after := Conversation.attached_shaped shaped held
      have closed := Conversation.attached_closed x' stream resumed
      split at taken
      · rename_i y error done
        cases taken
        rw [done] at after closed
        exact hold_sound (core.set found after fun was => closed.trans was) sole (known_set known)
      · rename_i y done
        cases taken
        rw [done] at after closed
        refine leave_sound (core.set found ?_ fun was => ?_) sole rfl
        · split
          · exact Conversation.startHost_shaped after
          · exact after
        · split <;> exact closed.trans was
  | aborting c fresh error =>
    have sole := sound.sole_holder here rfl
    have ends : (failed error).holds = false := by cases error <;> rfl
    obtain ⟨x,found,taken⟩ := Option.bind_eq_some_iff.mp taken
    have shaped := core.shaped c x found
    split at taken
    · cases taken
    rename_i lock
    split at taken
    · cases taken
      have turn := Conversation.close_turn shaped (unlocked lock)
      refine leave_sound ((core.turn found turn).forget (closed_of_set found)) ?_ ends
      unfold forget
      split <;> exact sole
    · have turn := Conversation.detach_turn shaped (unlocked lock) x.ownerEpoch
      dsimp only at taken
      split at taken
      · cases taken
        exact hold_sound (core.turn found turn) sole (known_set fits)
      · cases taken
        exact leave_sound (core.turn found turn) sole ends
  | abortClosing c error =>
    have sole := sound.sole_holder here rfl
    have ends : (failed error).holds = false := by cases error <;> rfl
    obtain ⟨x,found,taken⟩ := Option.bind_eq_some_iff.mp taken
    split at taken
    · cases taken
    rename_i lock
    cases taken
    have turn := Conversation.close_turn (core.shaped c x found) (unlocked lock)
    exact leave_sound (core.turn found turn) sole ends

theorem watchOn_sound (sound : s.Sound) {w : Watch} (held : s.admission = some (.watchdog w))
    (taken : s.watchOn w = some s') : s'.Sound := by
  have core := sound.core
  have away (stream : Stream) (other : s.admission = some (.connection stream)) :
      s'.admission = s.admission := by
    rw [held] at other
    cases other
  have unlocked {x : Conversation} (lock : ¬ x.sendLock.isSome = true) : x.sendLock = none := by
    simpa using lock
  cases w with
  | detaching c epoch =>
    obtain ⟨x,found,taken⟩ := Option.bind_eq_some_iff.mp taken
    split at taken
    · cases taken
    rename_i lock
    cases taken
    have turn := Conversation.detach_turn (core.shaped c x found) (unlocked lock) epoch
    have after := core.turn found turn
    exact sound.still ⟨after.served,after.known,after.shaped⟩ rfl away
      fun _ _ _ fits => fits.turn found turn rfl rfl
  | closing c =>
    obtain ⟨x,found,taken⟩ := Option.bind_eq_some_iff.mp taken
    split at taken
    · cases taken
    rename_i lock
    cases taken
    have turn := Conversation.close_turn (core.shaped c x found) (unlocked lock)
    have after := core.turn found turn
    exact sound.still ⟨after.served,after.known,after.shaped⟩ rfl away
      fun _ _ _ fits => fits.turn found turn rfl rfl

theorem forget_sound (sound : s.Sound) (free : s.admission = none) (closed : ¬ s.Open c) :
    (s.forget c).Sound := by
  have core := sound.core.forget closed
  have same : (s.forget c).connections = s.connections ∧ (s.forget c).admission = s.admission := by
    unfold forget
    split <;> exact ⟨rfl,rfl⟩
  refine sound.still core same.1 (fun _ _ => same.2) ?_
  intro stream phase found _
  cases holds : phase.holds with
  | false => exact fits_of_free holds
  | true =>
    have held := sound.holder stream phase found holds
    rw [free] at held
    cases held

theorem move_sound (sound : s.Sound) {phase : Phase} (free : phase.holds = false) :
    (s.move stream phase).Sound := by
  have core := sound.core
  refine ⟨⟨core.served,core.known,core.shaped⟩,?_,?_⟩
  · intro other after found holds
    change (s.connections.set stream phase).get? other = some after at found
    rw [Dict.get?_set] at found
    split at found
    · cases found
      rw [free] at holds
      cases holds
    · exact sound.holder other after found holds
  · intro other after found
    change (s.connections.set stream phase).get? other = some after at found
    rw [Dict.get?_set] at found
    split at found
    · cases found
      exact fits_of_free free
    · exact sound.fits other after found

theorem greet_free (py : Builtins) (frame : Option Frame) :
    (greet py frame).holds = false ∧ (greet py frame).unanswered = false := by
  unfold greet
  split
  · exact ⟨rfl,rfl⟩
  split
  · exact ⟨rfl,rfl⟩
  split
  · split
    · exact ⟨rfl,rfl⟩
    · split <;> exact ⟨rfl,rfl⟩
  · exact ⟨rfl,rfl⟩

theorem watch_sound (sound : s.Sound) (free : s.admission = none) : (s.watch cfg).Sound := by
  have core := sound.core
  unfold watch
  split
  · split
    · refine sound.still ⟨core.served,core.known,core.shaped⟩ rfl ?_ fun _ _ _ fits => fits
      intro stream held
      rw [free] at held
      cases held
    · exact sound
  · exact sound

end Service

theorem step_sound {cfg : Config} {py : Builtins} {s s' : Service} {event : Event}
    (sound : s.Sound) (taken : step cfg py s event = some s') : s'.Sound := by
  have core := sound.core
  cases event with
  | tick elapsed =>
    dsimp only [step] at taken
    split at taken
    · cases taken
      exact sound.still ⟨core.served,core.known,core.shaped⟩ rfl (fun _ _ => rfl)
        fun _ _ _ fits => fits
    · cases taken
  | arrive stream frame =>
    dsimp only [step] at taken
    split at taken
    · cases taken
    · cases taken
      exact Service.move_sound sound (Service.greet_free py frame).1
  | enter stream =>
    dsimp only [step] at taken
    split at taken
    · rename_i hello here free
      cases taken
      exact Service.enter_sound core (sound.sole_free free stream)
    · cases taken
  | proceed stream outcome =>
    obtain ⟨phase,here,taken⟩ := Option.bind_eq_some_iff.mp taken
    exact Service.proceed_sound sound here taken
  | answer stream =>
    dsimp only [step] at taken
    split at taken
    · cases taken
      exact Service.move_sound sound rfl
    · cases taken
  | watch =>
    dsimp only [step] at taken
    split at taken
    · rename_i due
      cases taken
      exact Service.watch_sound sound due.2
    · cases taken
  | watchOn =>
    dsimp only [step] at taken
    split at taken
    · rename_i w held
      exact Service.watchOn_sound sound held taken
    · cases taken
  | serve c m =>
    obtain ⟨x,found,taken⟩ := Option.bind_eq_some_iff.mp taken
    split at taken
    · rename_i other
      obtain ⟨x',moved,rfl⟩ := Option.map_eq_some_iff.mp taken
      exact sound.turn found (outside_turn (core.shaped c x found) other moved)
    · cases taken
  | retire c =>
    obtain ⟨x,found,taken⟩ := Option.bind_eq_some_iff.mp taken
    split at taken
    · rename_i due
      cases taken
      refine Service.forget_sound sound due.2.2 ?_
      rintro ⟨x',found',alive⟩
      obtain rfl : x = x' := Option.some.inj (found.symm.trans found')
      rw [due.1] at alive
      cases alive
    · cases taken

structure Service.Served (s : Service) : Prop where
  sole : ∀ c d, s.Open c → s.Open d → c = d
  single : ∀ (c : Nat) conversation stream stream', s.conversations[c]? = some conversation →
    conversation.Feeds stream → conversation.Feeds stream' → stream = stream'

theorem Service.Sound.served {s : Service} (sound : s.Sound) : s.Served := by
  refine ⟨?_,?_⟩
  · intro c d first second
    exact Option.some.inj ((sound.core.served c first).symm.trans (sound.core.served d second))
  · intro c conversation stream stream' found feeds feeds'
    exact (sound.core.shaped c conversation found).single feeds feeds'

/-- A conversation that is not closed belongs to another engine, or to the same engine with another
worker instance or other transports. -/
def Service.Leased (s : Service) (hello : ClientHello) : Prop :=
  ∃ c conversation, s.active = some c ∧ s.conversations[c]? = some conversation ∧
    conversation.closed = false ∧
    (conversation.engineInstanceId ≠ hello.engineInstanceId ∨
      hello.resumeWorkerInstance ≠ some conversation.workerInstance ∨
      s.activeTransports ≠ some hello.payloadTransports)

def Refuses (s s' : Service) (stream : Stream) (hello : ClientHello) : Prop :=
  (∃ phase, s.connections.get? stream = some phase ∧ phase.hello = some hello) ∧
    ∃ refusal, s'.connections.get? stream = some (.refused refusal)

/-- What a step does to the connections that it refuses or answers. -/
structure Fair (s : Service) (event : Event) (s' : Service) : Prop where
  leased : ∀ stream hello, Refuses s s' stream hello →
    s.Leased hello ∧ s'.conversations = s.conversations ∧ s'.active = s.active
  untouched : ∀ stream, event = .answer stream →
    s'.conversations = s.conversations ∧ s'.active = s.active
  answered : ∀ stream phase, s'.connections.get? stream = some phase → phase.unanswered = false

/-- The conversation that a connection goes on with is open; when a stream resumes it, its host has
sent its hello. -/
def Service.Ready (s : Service) (outcome : Option String) : Phase → Prop
  | .evicted _ _ => ∀ c conversation, s.remembered = some (c,conversation) →
    conversation.closed = false
  | .attaching c _ _ => s.Open c
  | .writing c _ resumed => ∀ conversation, s.conversations[c]? = some conversation →
    outcome = none → resumed = true → conversation.hello.isSome
  | _ => True

/-- A hello is compared with open conversations only, and streams are attached to such. -/
def Heeds (s : Service) : Event → Prop
  | .enter _ => ∀ c conversation, s.remembered = some (c,conversation) →
    conversation.hasRecords = true → conversation.closed = false
  | .proceed stream outcome => ∀ phase, s.connections.get? stream = some phase →
    s.Ready outcome phase
  | _ => True

def Service.Answered (s : Service) : Prop :=
  ∀ stream phase, s.connections.get? stream = some phase → phase.unanswered = false

section Fairness

variable {cfg : Config} {py : Builtins} {s s' : Service} {event : Event} {stream : Stream}
  {hello : ClientHello}

theorem Fair.moved {before after : Phase} (quiet : ∀ other, event ≠ .answer other)
    (here : s.connections.get? stream = some before) (answered : s.Answered)
    (connections : s'.connections = s.connections.set stream after)
    (clean : after.unanswered = false)
    (leased : ∀ hello refusal, before.hello = some hello → after = .refused refusal →
      s.Leased hello ∧ s'.conversations = s.conversations ∧ s'.active = s.active) :
    Fair s event s' := by
  refine ⟨?_,fun other same => absurd same (quiet other),?_⟩
  · rintro other hello ⟨⟨phase,was,hello'⟩,refusal,now⟩
    rw [connections,Dict.get?_set] at now
    split at now
    · rename_i same
      subst same
      obtain rfl : phase = before := Option.some.inj (was.symm.trans here)
      exact leased hello refusal hello' (Option.some.inj now)
    · obtain rfl : phase = .refused refusal := Option.some.inj (was.symm.trans now)
      cases hello'
  · intro other phase found
    rw [connections,Dict.get?_set] at found
    split at found
    · cases found
      exact clean
    · exact answered other phase found

theorem startAttach_moved {c : Nat} {fresh : Bool} {conversation : Conversation}
    (alive : conversation.closed = false) :
    s.startAttach stream c fresh conversation =
      s.hold stream (.attaching c fresh conversation.hostStarted) := by
  unfold Service.startAttach
  rw [alive]
  rfl

theorem compare_fair (cfg : Config) {before : Phase} (quiet : ∀ other, event ≠ .answer other)
    (here : s.connections.get? stream = some before) (said : before.hello = some hello)
    (answered : s.Answered)
    (alive : ∀ c conversation, s.remembered = some (c,conversation) → conversation.closed = false) :
    Fair s event (s.compare cfg stream hello) := by
  unfold Service.compare
  split
  · rename_i c conversation known
    have opened := alive c conversation known
    obtain ⟨active,found⟩ := Service.remembered_some known
    have leased (differs : conversation.engineInstanceId ≠ hello.engineInstanceId ∨
        hello.resumeWorkerInstance ≠ some conversation.workerInstance ∨
        s.activeTransports ≠ some hello.payloadTransports) :
        ∀ hello', before.hello = some hello' → s.Leased hello' := by
      intro hello' said'
      obtain rfl : hello = hello' := Option.some.inj (said.symm.trans said')
      exact ⟨c,conversation,active,found,opened,differs⟩
    split
    · split
      · rename_i differs
        exact .moved quiet here answered rfl rfl
          fun hello' _ said' _ => ⟨leased (.inr (.inl differs)) hello' said',rfl,rfl⟩
      split
      · rename_i differs
        exact .moved quiet here answered rfl rfl
          fun hello' _ said' _ => ⟨leased (.inr (.inr differs)) hello' said',rfl,rfl⟩
      · rw [startAttach_moved opened]
        exact .moved quiet here answered rfl rfl fun _ _ _ => nofun
    · rename_i differs
      exact .moved quiet here answered rfl rfl
        fun hello' _ said' _ => ⟨leased (.inl differs) hello' said',rfl,rfl⟩
  · rw [startAttach_moved rfl]
    exact .moved quiet here answered rfl rfl fun _ _ _ => nofun

theorem forgotten_fair {before : Phase} (quiet : ∀ other, event ≠ .answer other)
    (here : s.connections.get? stream = some before) (said : before.hello = some hello)
    (answered : s.Answered) : Fair s event
      (Service.compare cfg { s with active := none, activeTransports := none } stream hello) := by
  have alive : ∀ c conversation,
      Service.remembered { s with active := none, activeTransports := none } =
        some (c,conversation) → conversation.closed = false := by
    intro c conversation known
    cases known
  obtain ⟨leased,_,clean⟩ :=
    compare_fair cfg (s := { s with active := none, activeTransports := none })
      quiet here said answered alive
  refine ⟨?_,fun other same => absurd same (quiet other),clean⟩
  intro other hello' refused
  obtain ⟨⟨_,_,none,_⟩,_⟩ := leased other hello' refused
  cases none

theorem enter_fair {before : Phase} (quiet : ∀ other, event ≠ .answer other)
    (here : s.connections.get? stream = some before) (said : before.hello = some hello)
    (answered : s.Answered)
    (alive : ∀ c conversation, s.remembered = some (c,conversation) →
      conversation.hasRecords = true → conversation.closed = false) :
    Fair s event (s.enter cfg stream hello) := by
  unfold Service.enter
  split
  · rename_i c conversation known
    split
    · exact .moved quiet here answered rfl rfl fun _ _ _ => nofun
    rename_i needed
    split
    · exact .moved quiet here answered rfl rfl fun _ _ _ => nofun
    · refine compare_fair cfg quiet here said answered fun d x known' => ?_
      obtain ⟨rfl,rfl⟩ := Prod.mk.inj (Option.some.inj (known.symm.trans known'))
      cases state : conversation.closed with
      | false => rfl
      | true =>
        -- A closed conversation is not connected, so it has records when it is not forgotten.
        have records : conversation.hasRecords = true := by
          simpa [Conversation.connected,state] using needed
        rw [alive c conversation known records] at state
        cases state
  · rename_i unknown
    refine compare_fair cfg quiet here said answered fun d x known => ?_
    rw [unknown] at known
    cases known

theorem proceed_fair {outcome : Option String} {before : Phase}
    (here : s.connections.get? stream = some before) (answered : s.Answered)
    (ready : s.Ready outcome before)
    (taken : s.proceed cfg stream outcome before = some s') :
    Fair s (.proceed stream outcome) s' := by
  have quiet (other : Stream) : Event.proceed stream outcome ≠ .answer other := nofun
  have clean := answered stream before here
  cases before with
  | arrived | refused | attached | answered | hungUp | raised => cases taken
  | forgetting hello c =>
    obtain ⟨x,found,taken⟩ := Option.bind_eq_some_iff.mp taken
    split at taken
    · cases taken
    · cases taken
      exact .moved quiet here answered rfl rfl fun _ _ _ => nofun
  | forgotten hello c =>
    cases taken
    exact forgotten_fair quiet here rfl answered
  | detaching hello c epoch =>
    obtain ⟨x,found,taken⟩ := Option.bind_eq_some_iff.mp taken
    split at taken
    · cases taken
    · cases taken
      refine .moved quiet here answered rfl ?_ fun _ _ _ same => ?_
      · split <;> rfl
      · split at same <;> cases same
  | closing hello c =>
    obtain ⟨x,found,taken⟩ := Option.bind_eq_some_iff.mp taken
    split at taken
    · cases taken
    · cases taken
      exact .moved quiet here answered rfl rfl fun _ _ _ => nofun
  | evicted hello c =>
    cases taken
    exact compare_fair cfg quiet here rfl answered ready
  | attaching c fresh resumed =>
    obtain ⟨x,found,taken⟩ := Option.bind_eq_some_iff.mp taken
    split at taken
    · cases taken
    split at taken
    · rename_i closed
      obtain ⟨x',found',alive⟩ := ready
      obtain rfl : x' = x := Option.some.inj (found'.symm.trans found)
      rw [closed] at alive
      cases alive
    · cases taken
      exact .moved quiet here answered rfl rfl fun _ _ _ => nofun
  | writing c fresh resumed =>
    obtain ⟨x,found,taken⟩ := Option.bind_eq_some_iff.mp taken
    split at taken
    · cases taken
      exact .moved quiet here answered rfl rfl fun _ _ => nofun
    · split at taken
      · rename_i y error done
        have greeted := ready x found rfl
        unfold Conversation.attached at done
        split at done
        · rename_i missing
          simp only [Bool.and_eq_true,Option.isNone_iff_eq_none] at missing
          have greeted := greeted missing.1
          rw [missing.2] at greeted
          cases greeted
        · cases done
      · cases taken
        exact .moved quiet here answered rfl rfl fun _ _ => nofun
  | aborting c fresh error =>
    have ends : (Service.failed error).unanswered = false ∧
        (Phase.abortClosing c error).unanswered = false := by
      cases error with
      | runtime => cases clean
      | _ => exact ⟨rfl,rfl⟩
    obtain ⟨x,found,taken⟩ := Option.bind_eq_some_iff.mp taken
    split at taken
    · cases taken
    split at taken
    · cases taken
      refine .moved quiet here answered ?_ ends.1 fun _ _ => nofun
      unfold Service.forget
      split <;> rfl
    · dsimp only at taken
      split at taken
      · cases taken
        exact .moved quiet here answered rfl ends.2 fun _ _ => nofun
      · cases taken
        exact .moved quiet here answered rfl ends.1 fun _ _ => nofun
  | abortClosing c error =>
    have ends : (Service.failed error).unanswered = false := by
      cases error with
      | runtime => cases clean
      | _ => rfl
    obtain ⟨x,found,taken⟩ := Option.bind_eq_some_iff.mp taken
    split at taken
    · cases taken
    · cases taken
      exact .moved quiet here answered rfl ends fun _ _ => nofun

theorem Fair.still (quiet : ∀ other, event ≠ .answer other) (answered : s.Answered)
    (connections : s'.connections = s.connections) : Fair s event s' := by
  refine ⟨?_,fun other same => absurd same (quiet other),?_⟩
  · rintro other hello ⟨⟨phase,was,said⟩,refusal,now⟩
    rw [connections] at now
    obtain rfl : phase = .refused refusal := Option.some.inj (was.symm.trans now)
    cases said
  · intro other phase found
    rw [connections] at found
    exact answered other phase found

theorem watchOn_connections {w : Watch} (taken : s.watchOn w = some s') :
    s'.connections = s.connections := by
  cases w with
  | detaching c epoch =>
    obtain ⟨x,_,taken⟩ := Option.bind_eq_some_iff.mp taken
    split at taken
    · cases taken
    · cases taken
      rfl
  | closing c =>
    obtain ⟨x,_,taken⟩ := Option.bind_eq_some_iff.mp taken
    split at taken
    · cases taken
    · cases taken
      rfl

theorem step_fair (answered : s.Answered) (heeds : Heeds s event)
    (taken : step cfg py s event = some s') : Fair s event s' := by
  cases event with
  | tick elapsed =>
    dsimp only [step] at taken
    split at taken
    · cases taken
      exact .still nofun answered rfl
    · cases taken
  | arrive stream frame =>
    dsimp only [step] at taken
    split at taken
    · cases taken
    rename_i absent
    cases taken
    have none : s.connections.get? stream = none := (Dict.get?_eq_none_iff _ _).mpr absent
    refine ⟨?_,nofun,?_⟩
    · rintro other hello ⟨⟨phase,was,said⟩,refusal,now⟩
      change (s.connections.set stream _).get? other = _ at now
      rw [Dict.get?_set] at now
      split at now
      · rename_i same
        rw [same,none] at was
        cases was
      · obtain rfl : phase = .refused refusal := Option.some.inj (was.symm.trans now)
        cases said
    · intro other phase found
      change (s.connections.set stream _).get? other = _ at found
      rw [Dict.get?_set] at found
      split at found
      · cases found
        exact (Service.greet_free py frame).2
      · exact answered other phase found
  | enter stream =>
    dsimp only [step] at taken
    split at taken
    · rename_i hello here free
      cases taken
      exact enter_fair nofun here rfl answered heeds
    · cases taken
  | proceed stream outcome =>
    obtain ⟨phase,here,taken⟩ := Option.bind_eq_some_iff.mp taken
    exact proceed_fair here answered (heeds phase here) taken
  | answer stream =>
    dsimp only [step] at taken
    split at taken
    · rename_i refusal here
      cases taken
      refine ⟨?_,fun _ _ => ⟨rfl,rfl⟩,?_⟩
      · rintro other hello ⟨⟨phase,was,said⟩,refusal',now⟩
        change (s.connections.set stream _).get? other = _ at now
        rw [Dict.get?_set] at now
        split at now
        · cases now
        · obtain rfl : phase = .refused refusal' := Option.some.inj (was.symm.trans now)
          cases said
      · intro other phase found
        change (s.connections.set stream _).get? other = _ at found
        rw [Dict.get?_set] at found
        split at found
        · cases found
          rfl
        · exact answered other phase found
    · cases taken
  | watch =>
    dsimp only [step] at taken
    split at taken
    · cases taken
      refine .still nofun answered ?_
      unfold Service.watch
      split
      · split <;> rfl
      · rfl
    · cases taken
  | watchOn =>
    dsimp only [step] at taken
    split at taken
    · exact .still nofun answered (watchOn_connections taken)
    · cases taken
  | serve c m =>
    obtain ⟨x,_,taken⟩ := Option.bind_eq_some_iff.mp taken
    split at taken
    · obtain ⟨x',_,rfl⟩ := Option.map_eq_some_iff.mp taken
      exact .still nofun answered rfl
    · cases taken
  | retire c =>
    obtain ⟨x,_,taken⟩ := Option.bind_eq_some_iff.mp taken
    split at taken
    · cases taken
      refine .still nofun answered ?_
      unfold Service.forget
      split <;> rfl
    · cases taken

end Fairness

def Phase.rank : Phase → Nat
  | .arrived _ => 9
  | .forgetting _ _ | .detaching _ _ _ => 8
  | .forgotten _ _ | .closing _ _ => 7
  | .evicted _ _ => 6
  | .attaching _ _ _ => 5
  | .writing _ _ _ => 4
  | .aborting _ _ _ => 3
  | .abortClosing _ _ => 2
  | .refused _ => 1
  | .attached _ | .answered _ | .hungUp | .raised _ => 0

/-- The conversation whose send lock a connection waits for. -/
def Phase.waitsFor : Phase → Option Nat
  | .forgetting _ c | .detaching _ c _ | .closing _ c | .attaching c _ _ | .aborting c _ _
  | .abortClosing c _ => some c
  | _ => none

section Progress

variable {cfg : Config} {py : Builtins} {s s' : Service} {stream : Stream} {phase : Phase}

theorem compare_ranked (cfg : Config) (s : Service) (stream : Stream) (hello : ClientHello) :
    ∃ after, (s.compare cfg stream hello).connections.get? stream = some after ∧ after.rank < 6 := by
  have started (t : Service) (c : Nat) (fresh : Bool) (x : Conversation) : ∃ after,
      (t.startAttach stream c fresh x).connections.get? stream = some after ∧ after.rank < 6 := by
    unfold Service.startAttach
    split
    · exact ⟨_,Dict.get?_set_self _ _ _,by simp [Phase.rank]⟩
    · exact ⟨_,Dict.get?_set_self _ _ _,by simp [Phase.rank]⟩
  unfold Service.compare
  split
  · split
    · split
      · exact ⟨_,Dict.get?_set_self _ _ _,by simp [Phase.rank]⟩
      split
      · exact ⟨_,Dict.get?_set_self _ _ _,by simp [Phase.rank]⟩
      · exact started _ _ _ _
    · exact ⟨_,Dict.get?_set_self _ _ _,by simp [Phase.rank]⟩
  · exact started _ _ _ _

theorem enter_ranked (cfg : Config) (s : Service) (stream : Stream) (hello : ClientHello) :
    ∃ after, (s.enter cfg stream hello).connections.get? stream = some after ∧ after.rank < 9 := by
  obtain ⟨after,here,less⟩ := compare_ranked cfg s stream hello
  unfold Service.enter
  split
  · split
    · exact ⟨_,Dict.get?_set_self _ _ _,by simp [Phase.rank]⟩
    split
    · exact ⟨_,Dict.get?_set_self _ _ _,by simp [Phase.rank]⟩
    · exact ⟨after,here,by omega⟩
  · exact ⟨after,here,by omega⟩

theorem proceed_ranked {outcome : Option String}
    (taken : s.proceed cfg stream outcome phase = some s') :
    ∃ after, s'.connections.get? stream = some after ∧ after.rank < phase.rank := by
  have ends (error : Raised) : (Service.failed error).rank < 2 := by
    cases error <;> simp [Service.failed,Phase.rank]
  cases phase with
  | arrived | refused | attached | answered | hungUp | raised => cases taken
  | forgetting hello c =>
    obtain ⟨x,_,taken⟩ := Option.bind_eq_some_iff.mp taken
    split at taken
    · cases taken
    · cases taken
      exact ⟨_,Dict.get?_set_self _ _ _,by simp [Phase.rank]⟩
  | forgotten hello c =>
    cases taken
    obtain ⟨after,here,less⟩ := compare_ranked cfg
      { s with active := none, activeTransports := none } stream hello
    exact ⟨after,here,Nat.lt_succ_of_lt less⟩
  | detaching hello c epoch =>
    obtain ⟨x,_,taken⟩ := Option.bind_eq_some_iff.mp taken
    split at taken
    · cases taken
    · cases taken
      refine ⟨_,Dict.get?_set_self _ _ _,?_⟩
      split <;> simp [Phase.rank]
  | closing hello c =>
    obtain ⟨x,_,taken⟩ := Option.bind_eq_some_iff.mp taken
    split at taken
    · cases taken
    · cases taken
      exact ⟨_,Dict.get?_set_self _ _ _,by simp [Phase.rank]⟩
  | evicted hello c =>
    cases taken
    exact compare_ranked cfg s stream hello
  | attaching c fresh resumed =>
    obtain ⟨x,_,taken⟩ := Option.bind_eq_some_iff.mp taken
    split at taken
    · cases taken
    split at taken
    · cases taken
      exact ⟨_,Dict.get?_set_self _ _ _,by simp [Phase.rank]⟩
    · cases taken
      exact ⟨_,Dict.get?_set_self _ _ _,by simp [Phase.rank]⟩
  | writing c fresh resumed =>
    obtain ⟨x,_,taken⟩ := Option.bind_eq_some_iff.mp taken
    split at taken
    · cases taken
      exact ⟨_,Dict.get?_set_self _ _ _,by simp [Phase.rank]⟩
    · split at taken
      · cases taken
        exact ⟨_,Dict.get?_set_self _ _ _,by simp [Phase.rank]⟩
      · cases taken
        exact ⟨_,Dict.get?_set_self _ _ _,by simp [Phase.rank]⟩
  | aborting c fresh error =>
    obtain ⟨x,_,taken⟩ := Option.bind_eq_some_iff.mp taken
    split at taken
    · cases taken
    split at taken
    · cases taken
      exact ⟨_,Dict.get?_set_self _ _ _,Nat.lt_succ_of_lt (ends error)⟩
    · dsimp only at taken
      split at taken
      · cases taken
        exact ⟨_,Dict.get?_set_self _ _ _,by simp [Phase.rank]⟩
      · cases taken
        exact ⟨_,Dict.get?_set_self _ _ _,Nat.lt_succ_of_lt (ends error)⟩
  | abortClosing c error =>
    obtain ⟨x,_,taken⟩ := Option.bind_eq_some_iff.mp taken
    split at taken
    · cases taken
    · cases taken
      exact ⟨_,Dict.get?_set_self _ _ _,ends error⟩

theorem proceed_ready (cfg : Config) (sound : s.Sound) (here : s.connections.get? stream = some phase)
    (holds : phase.holds = true)
    (free : ∀ (c : Nat) conversation, phase.waitsFor = some c →
      s.conversations[c]? = some conversation → conversation.sendLock = none) :
    (s.proceed cfg stream none phase).isSome := by
  have fits := sound.fits stream phase here
  have awaited {c : Nat} (waits : phase.waitsFor = some c) (known : c < s.conversations.length) :
      ∃ x, s.conversations[c]? = some x ∧ x.sendLock = none := by
    have found := List.getElem?_eq_getElem known
    exact ⟨_,found,free c _ waits found⟩
  cases phase with
  | arrived | refused | attached | answered | hungUp | raised => cases holds
  | forgetting hello c =>
    obtain ⟨x,found,lock⟩ := awaited rfl (sound.core.known c fits)
    simp [Service.proceed,found,lock]
  | forgotten hello c => rfl
  | detaching hello c epoch =>
    obtain ⟨x,found,lock⟩ := awaited rfl fits
    simp [Service.proceed,found,lock]
  | closing hello c =>
    obtain ⟨x,found,lock⟩ := awaited rfl fits
    simp [Service.proceed,found,lock]
  | evicted hello c => rfl
  | attaching c fresh resumed =>
    obtain ⟨x,found,lock⟩ := awaited rfl fits
    simp only [Service.proceed,found,lock,Option.bind_some,Option.isSome_none,
      Bool.false_eq_true,if_false]
    split <;> rfl
  | writing c fresh resumed =>
    obtain ⟨x,found,_⟩ := fits
    simp only [Service.proceed,found,Option.bind_some]
    split <;> rfl
  | aborting c fresh error =>
    obtain ⟨x,found,lock⟩ := awaited rfl fits
    simp only [Service.proceed,found,lock,Option.bind_some,Option.isSome_none,
      Bool.false_eq_true,if_false]
    split
    · rfl
    · split <;> rfl
  | abortClosing c error =>
    obtain ⟨x,found,lock⟩ := awaited rfl fits
    simp [Service.proceed,found,lock]

theorem connection_advances (sound : s.Sound) (here : s.connections.get? stream = some phase)
    (unfinished : 0 < phase.rank) (turn : phase.holds = true ∨ s.admission = none)
    (free : ∀ (c : Nat) conversation, phase.waitsFor = some c →
      s.conversations[c]? = some conversation → conversation.sendLock = none) :
    ∃ event s' after, step cfg py s event = some s' ∧
      s'.connections.get? stream = some after ∧ after.rank < phase.rank := by
  cases holds : phase.holds with
  | true =>
    obtain ⟨s',taken⟩ := Option.isSome_iff_exists.mp
      (proceed_ready cfg sound here holds free)
    obtain ⟨after,now,less⟩ := proceed_ranked taken
    refine ⟨.proceed stream none,s',after,?_,now,less⟩
    show (s.connections.get? stream).bind _ = some s'
    rw [here]
    exact taken
  | false =>
    have unlocked := turn.resolve_left (by rw [holds]; decide)
    cases phase with
    | arrived hello =>
      obtain ⟨after,now,less⟩ := enter_ranked cfg s stream hello
      refine ⟨.enter stream,_,after,?_,now,less⟩
      simp only [step,here,unlocked]
    | refused refusal =>
      refine ⟨.answer stream,s.move stream (.answered refusal),_,?_,Dict.get?_set_self _ _ _,
        by simp [Phase.rank]⟩
      simp only [step,here]
    | attached | answered | hungUp | raised => cases unfinished
    | _ => cases holds

end Progress

/-- What the service owes to the connections in a state. -/
structure Service.Kept (cfg : Config) (py : Builtins) (s : Service) : Prop where
  served : s.Served
  answered : s.Answered
  fair : ∀ event s', Heeds s event → step cfg py s event = some s' → Fair s event s'
  advances : ∀ stream phase, s.connections.get? stream = some phase → 0 < phase.rank →
    (phase.holds = true ∨ s.admission = none) →
    (∀ (c : Nat) conversation, phase.waitsFor = some c →
      s.conversations[c]? = some conversation → conversation.sendLock = none) →
    ∃ event s' after, step cfg py s event = some s' ∧
      s'.connections.get? stream = some after ∧ after.rank < phase.rank

/-- In every run that heeds the condition one open conversation at most is served, on one stream;
connections are refused rightly, and each of them is attached or answered. -/
theorem lease_kept {cfg : Config} {py : Builtins} {s : Service}
    (reached : Reach (step cfg py) Heeds Service.initial s) : s.Kept cfg py := by
  have kept : s.Sound ∧ s.Answered :=
    reached.invariant (fun s => s.Sound ∧ s.Answered)
      ⟨Service.initial_sound,fun stream phase found => by cases found⟩
      fun _ _ _ ⟨sound,answered⟩ heeds taken =>
        ⟨step_sound sound taken,(step_fair answered heeds taken).answered⟩
  exact ⟨kept.1.served,kept.2,fun event s' heeds taken => step_fair kept.2 heeds taken,
    fun stream phase here unfinished turn free =>
      connection_advances kept.1 here unfinished turn free⟩

section Exactness

variable {cfg : Config} {py : Builtins} {s s' : Service} {event : Event} {stream : Stream}
  {hello : ClientHello}

end Exactness

def sampleConfig : Config := ⟨45,120,"worker"⟩

def sampleHello (engine : String) : Frame :=
  ⟨[("type",.str "clientHello"),("protocol",.int 12),
    ("engine",.obj [("instanceId",.str engine),("label",.str engine),("resumable",.bool true)]),
    ("payloadTransports",.arr [])],[]⟩

def afterEntry : Service :=
  offer (step sampleConfig plainBuiltins) Service.initial
    [.arrive 1 (some (sampleHello "a")),.enter 1]

def afterTakeOver : Service := offer (step sampleConfig plainBuiltins) afterEntry [.proceed 1 none]

theorem sample_attached : ∃ s, Reach (step sampleConfig plainBuiltins) Heeds Service.initial s ∧
    s.connections.get? 1 = some (.attached 0) ∧ s.Kept sampleConfig plainBuiltins := by
  have entered : Reach (step sampleConfig plainBuiltins) Heeds Service.initial afterEntry := by
    have arrived : Reach (step sampleConfig plainBuiltins) Heeds Service.initial
        (offer (step sampleConfig plainBuiltins) Service.initial
          [.arrive 1 (some (sampleHello "a"))]) := Reach.refl.offered trivial
    refine arrived.offered (a := .enter 1) fun c conversation known => ?_
    have none : (offer (step sampleConfig plainBuiltins) Service.initial
        [.arrive 1 (some (sampleHello "a"))]).active = none := by decide +kernel
    rw [(Service.remembered_some known).1] at none
    cases none
  have waiting : afterEntry.connections.get? 1 = some (.attaching 0 true false) := by
    decide +kernel
  have alive : ∀ conversation ∈ afterEntry.conversations, conversation.closed = false := by
    decide +kernel
  have some' : afterEntry.conversations.length = 1 := by decide +kernel
  have taken : Reach (step sampleConfig plainBuiltins) Heeds Service.initial afterTakeOver := by
    refine entered.offered fun phase here => ?_
    obtain rfl : phase = .attaching 0 true false := Option.some.inj (here.symm.trans waiting)
    have known : 0 < afterEntry.conversations.length := by rw [some']; decide
    exact ⟨_,List.getElem?_eq_getElem known,alive _ (List.getElem_mem known)⟩
  have writing : afterTakeOver.connections.get? 1 = some (.writing 0 true false) := by
    decide +kernel
  have attached := taken.offered (a := .proceed 1 none) fun phase here => by
    obtain rfl : phase = .writing 0 true false := Option.some.inj (here.symm.trans writing)
    intro conversation found done resumed
    cases resumed
  exact ⟨_,attached,by decide +kernel,lease_kept attached⟩

def challenged : List Event :=
  [.arrive 1 (some (sampleHello "a")),.enter 1,.proceed 1 none,.proceed 1 none,.tick 100,
    .arrive 2 (some (sampleHello "b")),.enter 2,.proceed 2 none,.proceed 2 none]

def challengedService : Service :=
  offer (step sampleConfig plainBuiltins) Service.initial challenged

/-- The challenger is refused as if the service were busy, and nothing is served any more. -/
theorem challenger_refused :
    ¬ ∀ py s, Reachable (step sampleConfig py) Service.initial s →
      ∀ event s', step sampleConfig py s event = some s' → Fair s event s' := by
  intro all
  have evicted : challengedService.connections.get? 2 =
      some (.evicted ⟨"b","b",true,none,[]⟩ 0) := by decide +kernel
  have busy : (step sampleConfig plainBuiltins challengedService (.proceed 2 none)).bind
      (fun s => s.connections.get? 2) = some (.refused (.busy "a" 100 45)) := by decide +kernel
  have closed : ∀ conversation ∈ challengedService.conversations, conversation.closed = true := by
    decide +kernel
  obtain ⟨s',taken,refused⟩ := Option.bind_eq_some_iff.mp busy
  obtain ⟨_,x,_,found,alive,_⟩ := ((all plainBuiltins challengedService (reachable_offer challenged)
    _ s' taken).leased 2 ⟨"b","b",true,none,[]⟩ ⟨⟨_,evicted,rfl⟩,_,refused⟩).1
  rw [closed x (List.mem_of_getElem? found)] at alive
  cases alive

end Dinkster.Workers.Lease
