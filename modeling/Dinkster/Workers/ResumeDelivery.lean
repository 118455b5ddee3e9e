import Dinkster.Lib.Transition
import Dinkster.Workers.Resume
import Dinkster.Workers.Settlement

/-! What becomes of the invoke frame of a running invocation. The places of the queue are counted
from the beginning, so a frame is known by its place after it has been taken. -/
namespace Dinkster.Workers.Resume
open Json Fallible Transition

namespace Conversation

/-- An invocation that has no result yet. -/
def Runs (c : Conversation) (key : InvocationKey) : Prop :=
  ∃ record, c.records.get? key = some record ∧ record.state = .running

def Keyed (c : Conversation) : Prop :=
  ∀ key record, c.records.get? key = some record → record.key = key

/-- The queue and the epoch stay, and no invocation starts to run. -/
structure Quiet (c c' : Conversation) : Prop where
  epoch : c'.ownerEpoch = c.ownerEpoch
  incoming : c'.incoming = c.incoming
  keyed : c'.Keyed
  runs : ∀ key, c'.Runs key → c.Runs key

variable {c c' : Conversation} {py : Builtins}

theorem Quiet.of_records (keyed : c.Keyed) (epoch : c'.ownerEpoch = c.ownerEpoch)
    (incoming : c'.incoming = c.incoming) (records : c'.records = c.records) : Quiet c c' := by
  refine ⟨epoch,incoming,?_,?_⟩
  · intro key record found
    exact keyed key record (records ▸ found)
  · rintro key ⟨record,found,running⟩
    exact ⟨record,records ▸ found,running⟩

theorem Quiet.of_set (keyed : c.Keyed) {record record' : Record}
    (found : c.records.get? record.key = some record)
    (records : c'.records = (c.setRecord record').records) (key : record'.key = record.key)
    (state : record'.state = .running → record.state = .running)
    (epoch : c'.ownerEpoch = c.ownerEpoch) (incoming : c'.incoming = c.incoming) : Quiet c c' := by
  have records : c'.records = c.records.set record'.key record' := records
  refine ⟨epoch,incoming,?_,?_⟩
  · intro k r held
    rw [records,Dict.get?_set] at held
    split at held
    · rename_i same
      cases held
      exact same.symm
    · exact keyed k r held
  · rintro k ⟨r,held,running⟩
    rw [records,Dict.get?_set] at held
    split at held
    · rename_i same
      cases held
      exact ⟨record,by rw [same,key]; exact found,state running⟩
    · exact ⟨r,held,running⟩

theorem Quiet.of_erase (keyed : c.Keyed) (key : InvocationKey)
    (epoch : c'.ownerEpoch = c.ownerEpoch) (incoming : c'.incoming = c.incoming)
    (records : c'.records = c.records.erase key) : Quiet c c' := by
  have kept : ∀ k r, c'.records.get? k = some r → c.records.get? k = some r := by
    intro k r held
    rw [records,Dict.get?_erase] at held
    split at held
    · cases held
    · exact held
  refine ⟨epoch,incoming,fun k r held => keyed k r (kept k r held),?_⟩
  rintro k ⟨r,held,running⟩
  exact ⟨r,kept k r held,running⟩

theorem recordForFrame_found (keyed : c.Keyed) {header : Object} {record : Record}
    (looked : c.recordForFrame py header = some record) :
    c.records.get? record.key = some record := by
  obtain ⟨key,_,found⟩ := Option.bind_eq_some_iff.mp looked
  rw [keyed key record found]
  exact found

theorem detach_quiet (keyed : c.Keyed) (epoch : Nat) : Quiet c (c.detach epoch).1 := by
  unfold detach
  split
  · exact .of_records keyed rfl rfl rfl
  · split <;> exact .of_records keyed rfl rfl rfl

theorem close_quiet (keyed : c.Keyed) : Quiet c c.close := by
  unfold close
  split <;> exact .of_records keyed rfl rfl rfl

theorem attached_quiet (keyed : c.Keyed) (stream : Stream) (resumed : Bool) :
    Quiet c (c.attached stream resumed).1 := by
  unfold attached
  split <;> exact .of_records keyed rfl rfl rfl

theorem sendLocked_quiet (keyed : c.Keyed) (frame : Frame) : Quiet c (c.sendLocked frame) := by
  unfold sendLocked
  split
  · exact .of_records keyed rfl rfl rfl
  · split <;> exact .of_records keyed rfl rfl rfl

theorem rebindLocked_quiet (keyed : c.Keyed) (epoch : Nat) : Quiet c (c.rebindLocked epoch) := by
  unfold rebindLocked
  split
  · exact .of_records keyed rfl rfl rfl
  · split <;> exact .of_records keyed rfl rfl rfl

theorem dropRecord_quiet (keyed : c.Keyed) (key : InvocationKey) : Quiet c (c.dropRecord key) := by
  unfold dropRecord
  dsimp only
  split <;> exact .of_erase keyed key rfl rfl rfl

theorem grantReceived_quiet (keyed : c.Keyed) (invocationId : Json.Value) :
    Quiet c (c.grantReceived py invocationId) := by
  unfold grantReceived
  split
  · exact .of_records keyed rfl rfl rfl
  · rename_i record looked
    exact .of_set keyed (recordForFrame_found keyed looked) rfl rfl id rfl rfl

theorem finishCancelled_quiet (keyed : c.Keyed) (invocationId : Json.Value) :
    Quiet c (c.finishCancelled py invocationId) := by
  unfold finishCancelled
  split
  · exact .of_records keyed rfl rfl rfl
  · exact dropRecord_quiet keyed _

theorem acknowledgeResult_quiet (keyed : c.Keyed) {header : Object}
    (done : c.acknowledgeResult header = .ok c') : Quiet c c' := by
  obtain ⟨key,_,done⟩ := bind_ok.mp done
  cases found : c.records.get? key with
  | none => rw [found] at done; cases done
  | some record =>
    rw [found] at done
    obtain ⟨_,_,done⟩ := bind_ok.mp done
    obtain ⟨_,_,done⟩ := bind_ok.mp done
    cases done
    exact dropRecord_quiet keyed key

theorem sendEvent_quiet (keyed : c.Keyed) {record : Record}
    (found : c.records.get? record.key = some record) (frame : Frame) :
    Quiet c (c.sendEvent record frame).1 := by
  unfold sendEvent
  dsimp only
  split
  · exact .of_set keyed found rfl rfl id rfl rfl
  · split
    · exact .of_set keyed found rfl rfl id rfl rfl
    · split <;> exact .of_set keyed found rfl rfl id rfl rfl

theorem sendControl_quiet (keyed : c.Keyed) {record : Record}
    (found : c.records.get? record.key = some record) (frame : Frame) :
    Quiet c (c.sendControl record frame).1 := by
  unfold sendControl
  dsimp only
  split
  · split
    · exact .of_records keyed rfl rfl rfl
    · exact .of_set keyed found rfl rfl id rfl rfl
  · exact .of_records keyed rfl rfl rfl

theorem sendResult_quiet (keyed : c.Keyed) {record : Record}
    (found : c.records.get? record.key = some record) (frame : Frame) :
    Quiet c (c.sendResult record frame).1 := by
  unfold sendResult
  split
  · exact .of_records keyed rfl rfl rfl
  · split
    · exact .of_records keyed rfl rfl rfl
    · exact .of_set keyed found rfl rfl nofun rfl rfl

theorem send_quiet (keyed : c.Keyed) (frame : Frame) : Quiet c (c.send py frame).1 := by
  have same : Quiet c c := .of_records keyed rfl rfl rfl
  unfold send
  split
  · exact same
  split
  · exact .of_records keyed rfl rfl rfl
  split
  · exact .of_records keyed rfl rfl rfl
  split
  · exact same
  · rename_i record looked
    have found := recordForFrame_found keyed looked
    dsimp only
    split
    · exact sendEvent_quiet keyed found frame
    split
    · exact .of_set keyed found rfl rfl id rfl rfl
    split
    · exact .of_set keyed found rfl rfl id rfl rfl
    split
    · exact sendControl_quiet keyed found _
    split
    · exact sendResult_quiet keyed found _
    · exact same

theorem keyed_set (keyed : c.Keyed) {key : InvocationKey}
    (records : c'.records = c.records.set key (.fresh key)) : c'.Keyed := by
  intro k record found
  rw [records,Dict.get?_set] at found
  split at found
  · rename_i same
    cases found
    exact same.symm
  · exact keyed k record found

theorem register_ok {header : Object} (done : c.register header = .ok c') :
    ∃ key, InvocationKey.fromHeader header = .ok key ∧ key ∉ c.records.keys ∧
      c' = { c with
        records := c.records.set key (.fresh key)
        keysByInvocation := c.keysByInvocation.set key.invocationId key } := by
  obtain ⟨key,read,done⟩ := bind_ok.mp done
  obtain ⟨_,unique,done⟩ := bind_ok.mp done
  obtain ⟨_,_,done⟩ := bind_ok.mp done
  have unique := refuseIf_ok.mp unique
  push Not at unique
  exact ⟨key,read,unique.1,(Except.ok.inj done).symm⟩

end Conversation

def Move.quiet : Move → Bool
  | .attach _ _ _ | .received _ _ | .ended | .read => false
  | _ => true

theorem step_quiet {py : Builtins} {c c' : Conversation} {m : Move} (keyed : c.Keyed)
    (quiet : m.quiet) (taken : step py c m = some c') : c.Quiet c' := by
  cases m with
  | attach | received | ended | read => cases quiet
  | attached =>
    dsimp only [step] at taken
    split at taken
    · cases taken
      exact Conversation.attached_quiet keyed _ _
    · cases taken
  | startHost =>
    dsimp only [step] at taken
    split at taken
    · cases taken
    · cases taken
      exact .of_records keyed rfl rfl rfl
  | detach epoch =>
    dsimp only [step] at taken
    split at taken
    · cases taken
    · cases taken
      exact Conversation.detach_quiet keyed epoch
  | expire =>
    dsimp only [step] at taken
    split at taken
    · cases taken
    split at taken
    · cases taken
    split at taken
    · cases taken
      exact Conversation.close_quiet keyed
    · cases taken
      exact .of_records keyed rfl rfl rfl
  | close =>
    dsimp only [step] at taken
    split at taken
    · cases taken
    · cases taken
      exact Conversation.close_quiet keyed
  | sendLocked frame =>
    dsimp only [step] at taken
    split at taken
    · cases taken
    · cases taken
      exact Conversation.sendLocked_quiet keyed frame
  | rebind epoch =>
    dsimp only [step] at taken
    split at taken
    · cases taken
    · cases taken
      exact Conversation.rebindLocked_quiet keyed epoch
  | written =>
    dsimp only [step] at taken
    split at taken
    · cases taken
      exact .of_records keyed rfl rfl rfl
    · cases taken
      exact .of_records keyed rfl rfl rfl
    · cases taken
  | writeLost =>
    dsimp only [step] at taken
    split at taken
    · cases taken
      exact .of_records keyed rfl rfl rfl
    · cases taken
  | hungUp =>
    dsimp only [step] at taken
    split at taken
    · cases taken
      exact .of_records keyed rfl rfl rfl
    · cases taken
  | send frame =>
    cases taken
    exact Conversation.send_quiet keyed frame
  | granted invocationId =>
    cases taken
    exact Conversation.grantReceived_quiet keyed invocationId
  | acknowledged header =>
    cases taken
    cases done : c.acknowledgeResult header with
    | error e => exact .of_records keyed rfl rfl rfl
    | ok c' => exact Conversation.acknowledgeResult_quiet keyed done
  | finished invocationId =>
    cases taken
    exact Conversation.finishCancelled_quiet keyed invocationId

/-- The invocation that a frame invokes. -/
def invoked (frame : Frame) : Option InvocationKey :=
  if frame.isA "invoke" then (InvocationKey.fromHeader frame.header).toOption else none

/-- What the pump does with a frame: it ends, queues the frame, or registers what it invokes. -/
inductive Pumped (c : Conversation) (epoch : Nat) (frame : Frame) (c' : Conversation) : Prop
  | ended (quiet : c.Quiet c')
  | queued (own : epoch = c.ownerEpoch) (plain : invoked frame = none)
      (epoch_eq : c'.ownerEpoch = c.ownerEpoch) (records : c'.records = c.records)
      (incoming : c'.incoming = c.incoming ++ [some (epoch,frame)])
  | registered (own : epoch = c.ownerEpoch) (key : InvocationKey) (names : invoked frame = some key)
      (epoch_eq : c'.ownerEpoch = c.ownerEpoch)
      (records : c'.records = c.records.set key (.fresh key))
      (incoming : c'.incoming = c.incoming ++ [some (epoch,frame)])

theorem pump_cases {c : Conversation} (keyed : c.Keyed) (now : ℚ) (epoch : Nat) (frame : Frame) :
    Pumped c epoch frame (c.pump now epoch frame) := by
  have ended (c' : Conversation) (epoch : c'.ownerEpoch = c.ownerEpoch)
      (incoming : c'.incoming = c.incoming) (records : c'.records = c.records) : c.Quiet c' :=
    .of_records keyed epoch incoming records
  unfold Conversation.pump
  dsimp only
  split
  · exact .ended (ended _ rfl rfl rfl)
  rename_i own
  push Not at own
  split
  · rename_i invoke
    split
    · rename_i c' done
      obtain ⟨key,read,_,rfl⟩ := Conversation.register_ok done
      have names : invoked frame = some key := by
        unfold invoked
        rw [if_pos invoke,read]
        rfl
      exact .registered own.1 key names rfl rfl rfl
    · exact .ended (ended _ rfl rfl rfl)
  · rename_i other
    exact .queued own.1 (if_neg other) rfl rfl rfl

/-- `taken` and `put` count the places of the queue; `origin` is the place of the frame that
registered an invocation. -/
structure Traffic where
  conversation : Conversation
  taken : Nat
  put : Nat
  delivered : List Nat
  origin : Dict InvocationKey Nat

namespace Traffic

def new (c : Conversation) : Traffic := ⟨c,0,0,[],.empty⟩

def observe (t : Traffic) (c : Conversation) : Move → Traffic
  | .received _ frame =>
    if c.incoming.length = t.conversation.incoming.length then { t with conversation := c }
    else { t with
      conversation := c
      put := t.put + 1
      origin := match invoked frame with
        | some key => t.origin.set key t.put
        | none => t.origin }
  | .ended => { t with conversation := c, put := t.put + 1 }
  | .read => { t with
    conversation := c
    taken := t.taken + 1
    delivered := match t.conversation.read with
      | some (some (some _),_) => t.taken :: t.delivered
      | _ => t.delivered }
  | _ => { t with conversation := c }

def step (py : Builtins) (t : Traffic) (m : Move) : Option Traffic :=
  (Resume.step py t.conversation m).map fun c => t.observe c m

/-- The frame at a place is still queued, under the epoch that `read` accepts. -/
def Waits (t : Traffic) (place : Nat) (key : InvocationKey) : Prop :=
  t.taken ≤ place ∧ ∃ frame,
    t.conversation.incoming[place - t.taken]? = some (some (t.conversation.ownerEpoch,frame)) ∧
    invoked frame = some key

/-- The frame of every running invocation has been delivered or is queued to be. -/
def Kept (t : Traffic) : Prop :=
  ∀ key, t.conversation.Runs key → ∃ place, t.origin.get? key = some place ∧
    (place ∈ t.delivered ∨ t.Waits place key)

/-- Places are counted without gaps, and the frame of every running invocation is accounted for. -/
structure Sound (t : Traffic) : Prop where
  keyed : t.conversation.Keyed
  places : t.put = t.taken + t.conversation.incoming.length
  kept : t.Kept

variable {t t' : Traffic} {py : Builtins}

theorem new_sound (engine label worker : String) (grace now : ℚ) :
    (new (.new engine label worker grace now)).Sound := by
  refine ⟨?_,rfl,?_⟩
  · intro key record found
    cases found
  · rintro key ⟨record,found,_⟩
    cases found

theorem Sound.quiet (sound : t.Sound) {c : Conversation} (quiet : t.conversation.Quiet c) :
    ({ t with conversation := c } : Traffic).Sound := by
  refine ⟨quiet.keyed,?_,?_⟩
  · show t.put = t.taken + c.incoming.length
    rw [quiet.incoming]
    exact sound.places
  · intro key runs
    obtain ⟨place,origin,fate⟩ := sound.kept key (quiet.runs key runs)
    refine ⟨place,origin,fate.imp_right ?_⟩
    rintro ⟨after,frame,queued,names⟩
    refine ⟨after,frame,?_,names⟩
    show c.incoming[place - t.taken]? = some (some (c.ownerEpoch,frame))
    rw [quiet.incoming,quiet.epoch]
    exact queued

theorem Waits.behind {place : Nat} {key : InvocationKey} (waits : t.Waits place key)
    {c : Conversation} {item : Option (Nat × Frame)} {put : Nat} {origin : Dict InvocationKey Nat}
    (epoch : c.ownerEpoch = t.conversation.ownerEpoch)
    (incoming : c.incoming = t.conversation.incoming ++ [item]) :
    Waits { t with conversation := c, put := put, origin := origin } place key := by
  obtain ⟨after,frame,queued,names⟩ := waits
  refine ⟨after,frame,?_,names⟩
  show c.incoming[place - t.taken]? = some (some (c.ownerEpoch,frame))
  rw [incoming,epoch]
  obtain ⟨bound,_⟩ := List.getElem?_eq_some_iff.mp queued
  rw [List.getElem?_append_left bound]
  exact queued

theorem Sound.put (sound : t.Sound) {c : Conversation}
    (epoch : c.ownerEpoch = t.conversation.ownerEpoch)
    (records : c.records = t.conversation.records) {item : Option (Nat × Frame)}
    (incoming : c.incoming = t.conversation.incoming ++ [item]) :
    ({ t with conversation := c, put := t.put + 1 } : Traffic).Sound := by
  refine ⟨?_,?_,?_⟩
  · intro key record found
    exact sound.keyed key record (records ▸ found)
  · show t.put + 1 = t.taken + c.incoming.length
    rw [incoming,List.length_append,sound.places]
    rfl
  · rintro key ⟨record,found,running⟩
    obtain ⟨place,origin,fate⟩ := sound.kept key ⟨record,records ▸ found,running⟩
    exact ⟨place,origin,fate.imp_right fun waits => waits.behind epoch incoming⟩

theorem Sound.registered (sound : t.Sound) {c : Conversation} {key : InvocationKey} {frame : Frame}
    (names : invoked frame = some key) (epoch : c.ownerEpoch = t.conversation.ownerEpoch)
    (records : c.records = t.conversation.records.set key (.fresh key))
    (incoming : c.incoming = t.conversation.incoming ++ [some (c.ownerEpoch,frame)]) :
    ({ t with
      conversation := c
      put := t.put + 1
      origin := t.origin.set key t.put } : Traffic).Sound := by
  refine ⟨Conversation.keyed_set sound.keyed records,?_,?_⟩
  · show t.put + 1 = t.taken + c.incoming.length
    rw [incoming,List.length_append,sound.places]
    rfl
  · rintro k ⟨record,found,running⟩
    by_cases same : k = key
    · subst same
      refine ⟨t.put,Dict.get?_set_self _ _ _,.inr ⟨?_,frame,?_,names⟩⟩
      · show t.taken ≤ t.put
        rw [sound.places]
        exact Nat.le_add_right _ _
      · show c.incoming[t.put - t.taken]? = some (some (c.ownerEpoch,frame))
        rw [incoming,sound.places,Nat.add_sub_cancel_left]
        exact List.getElem?_concat_length
    · change c.records.get? k = some record at found
      rw [records,Dict.get?_set_ne _ _ same] at found
      obtain ⟨place,origin,fate⟩ := sound.kept k ⟨record,found,running⟩
      refine ⟨place,?_,fate.imp_right fun waits => waits.behind epoch incoming⟩
      show (t.origin.set key t.put).get? k = some place
      rw [Dict.get?_set_ne _ _ same]
      exact origin

theorem Sound.read (sound : t.Sound) {item : Option (Nat × Frame)}
    {rest : List (Option (Nat × Frame))} {delivered : List Nat}
    (queue : t.conversation.incoming = item :: rest)
    (keeps : ∀ place ∈ t.delivered, place ∈ delivered)
    (head : ∀ frame, item = some (t.conversation.ownerEpoch,frame) → t.taken ∈ delivered) :
    ({ t with
      conversation := { t.conversation with incoming := rest }
      taken := t.taken + 1
      delivered := delivered } : Traffic).Sound := by
  refine ⟨sound.keyed,?_,?_⟩
  · show t.put = t.taken + 1 + rest.length
    have places := sound.places
    rw [queue,List.length_cons] at places
    omega
  · intro key runs
    obtain ⟨place,origin,fate⟩ := sound.kept key runs
    refine ⟨place,origin,?_⟩
    rcases fate with done | ⟨after,frame,queued,names⟩
    · exact .inl (keeps place done)
    · rw [queue] at queued
      rcases Nat.eq_or_lt_of_le after with same | later
      · rw [← same,Nat.sub_self] at queued
        left
        rw [← same]
        exact head frame (Option.some.inj queued)
      · right
        refine ⟨later,frame,?_,names⟩
        show rest[place - (t.taken + 1)]? = some (some (t.conversation.ownerEpoch,frame))
        rw [← queued,show place - t.taken = place - (t.taken + 1) + 1 by omega]
        rfl

end Traffic

/-- No frame of a running invocation is queued under the epoch that `read` accepts. -/
def Conversation.Drained (c : Conversation) : Prop :=
  ∀ frame key, some (c.ownerEpoch,frame) ∈ c.incoming → invoked frame = some key → ¬ c.Runs key

namespace Traffic

variable {t t' : Traffic} {py : Builtins}

theorem Sound.takenOver (sound : t.Sound) (drained : t.conversation.Drained) (now : ℚ)
    (stream : Stream) (resumed : Bool) :
    ({ t with conversation := t.conversation.takeOver now stream resumed } : Traffic).Sound := by
  refine ⟨sound.keyed,sound.places,?_⟩
  intro key runs
  obtain ⟨place,origin,fate⟩ := sound.kept key runs
  refine ⟨place,origin,.inl ?_⟩
  rcases fate with done | ⟨_,frame,queued,names⟩
  · exact done
  · exact absurd runs (drained frame key (List.mem_of_getElem? queued) names)

/-- Streams are attached only when the queue is drained. -/
def Settles (t : Traffic) : Move → Prop
  | .attach _ _ _ => t.conversation.Drained
  | _ => True

theorem observe_quiet (c : Conversation) {m : Move} (quiet : m.quiet) :
    t.observe c m = { t with conversation := c } := by
  cases m with
  | attach | received | ended | read => cases quiet
  | _ => rfl

/-- What a move does to the queue and its places. -/
inductive Moved (t : Traffic) : Move → Traffic → Prop
  | quiet {m : Move} {c : Conversation} (settles : t.Settles m) (q : t.conversation.Quiet c) :
    Moved t m { t with conversation := c }
  | takenOver {now : ℚ} {stream : Stream} {resumed : Bool} :
    Moved t (.attach now stream resumed)
      { t with conversation := t.conversation.takeOver now stream resumed }
  | put {m : Move} {c : Conversation} {item : Option (Nat × Frame)}
    (own : ∀ e frame, item = some (e,frame) →
      e = t.conversation.ownerEpoch ∧ invoked frame = none)
    (epoch : c.ownerEpoch = t.conversation.ownerEpoch)
    (records : c.records = t.conversation.records)
    (incoming : c.incoming = t.conversation.incoming ++ [item]) :
    Moved t m { t with conversation := c, put := t.put + 1 }
  | registered {m : Move} {c : Conversation} {key : InvocationKey} {frame : Frame}
    (names : invoked frame = some key) (epoch : c.ownerEpoch = t.conversation.ownerEpoch)
    (records : c.records = t.conversation.records.set key (.fresh key))
    (incoming : c.incoming = t.conversation.incoming ++ [some (c.ownerEpoch,frame)]) :
    Moved t m { t with
      conversation := c
      put := t.put + 1
      origin := t.origin.set key t.put }
  | read {m : Move} {item : Option (Nat × Frame)} {rest : List (Option (Nat × Frame))}
    {delivered : List Nat} (queue : t.conversation.incoming = item :: rest)
    (keeps : ∀ place ∈ t.delivered, place ∈ delivered)
    (only : ∀ place ∈ delivered, place ∈ t.delivered ∨ place = t.taken)
    (head : ∀ frame, item = some (t.conversation.ownerEpoch,frame) → t.taken ∈ delivered) :
    Moved t m { t with
      conversation := { t.conversation with incoming := rest }
      taken := t.taken + 1
      delivered := delivered }

theorem step_moved (keyed : t.conversation.Keyed) {m : Move} (taken : step py t m = some t') :
    Moved t m t' := by
  obtain ⟨c,moved,rfl⟩ := Option.map_eq_some_iff.mp taken
  cases quiet : m.quiet with
  | true =>
    rw [observe_quiet c quiet]
    refine .quiet ?_ (step_quiet keyed quiet moved)
    cases m with
    | attach => cases quiet
    | _ => trivial
  | false =>
    cases m with
    | attach now stream resumed =>
      dsimp only [Resume.step] at moved
      split at moved
      · cases moved
      · cases moved
        exact .takenOver
    | ended =>
      dsimp only [Resume.step] at moved
      split at moved
      · cases moved
        refine .put ?_ rfl rfl rfl
        intro e frame same
        cases same
      · cases moved
    | read =>
      obtain ⟨⟨returned,c'⟩,first,rfl⟩ := Option.map_eq_some_iff.mp moved
      dsimp only [observe]
      rw [first]
      unfold Conversation.read at first
      split at first
      · cases first
      · rename_i rest queue
        cases first
        refine .read queue (fun _ done => done) (fun _ done => .inl done) fun frame same => ?_
        cases same
      · rename_i epoch frame rest queue
        cases first
        by_cases own : epoch = t.conversation.ownerEpoch
        · rw [if_pos own]
          refine .read queue (fun _ done => List.mem_cons_of_mem _ done) ?_
            fun _ _ => List.mem_cons_self
          intro place inside
          exact (List.mem_cons.mp inside).symm
        · rw [if_neg own]
          refine .read queue (fun _ done => done) (fun _ done => .inl done) fun frame' same => ?_
          exact absurd (Prod.mk.inj (Option.some.inj same)).1 own
    | received now frame =>
      obtain ⟨task,_,rfl⟩ := Option.map_eq_some_iff.mp moved
      dsimp only [observe]
      cases pump_cases keyed now task.2 frame with
      | ended q =>
        rw [if_pos (congrArg List.length q.incoming)]
        exact .quiet trivial q
      | queued own plain epoch records incoming =>
        rw [if_neg (by rw [incoming]; simp),plain]
        refine .put ?_ epoch records incoming
        intro e frame' same
        obtain ⟨rfl,rfl⟩ := Prod.mk.inj (Option.some.inj same)
        exact ⟨own,plain⟩
      | registered own key names epoch records incoming =>
        rw [if_neg (by rw [incoming]; simp),names]
        exact .registered names epoch records (by rw [incoming,epoch,own])
    | _ => cases quiet

theorem step_sound (sound : t.Sound) {m : Move} (settles : t.Settles m)
    (taken : step py t m = some t') : t'.Sound := by
  cases step_moved sound.keyed taken with
  | quiet _ q => exact sound.quiet q
  | takenOver => exact sound.takenOver settles _ _ _
  | put _ epoch records incoming => exact sound.put epoch records incoming
  | registered names epoch records incoming => exact sound.registered names epoch records incoming
  | read queue keeps _ head => exact sound.read queue keeps head

/-- The frame of a running invocation is never lost in a run that attaches streams to drained
queues only. -/
theorem invocation_kept {engine label worker : String} {grace now : ℚ}
    (reached : Reach (step py) Settles (new (.new engine label worker grace now)) t) : t.Kept :=
  (reached.invariant Sound (new_sound engine label worker grace now)
    fun _ _ _ sound settles taken => step_sound sound settles taken).kept

/-- No epoch is ahead of the owner's, and the frame that registered an invocation is the last one
of those that name it. -/
structure Ordered (t : Traffic) : Prop where
  places : t.put = t.taken + t.conversation.incoming.length
  behind : ∀ place ∈ t.delivered, place < t.taken
  epochs : ∀ epoch frame, some (epoch,frame) ∈ t.conversation.incoming →
    epoch ≤ t.conversation.ownerEpoch
  last : ∀ i epoch frame key, t.conversation.incoming[i]? = some (some (epoch,frame)) →
    invoked frame = some key → ∃ place, t.origin.get? key = some place ∧ t.taken + i ≤ place

theorem new_ordered (engine label worker : String) (grace now : ℚ) :
    (new (.new engine label worker grace now)).Ordered := by
  refine ⟨rfl,?_,?_,?_⟩
  · intro place inside
    cases inside
  · intro epoch frame inside
    cases inside
  · intro i epoch frame key found
    cases found

theorem Ordered.same_queue (ordered : t.Ordered) {c : Conversation}
    (epoch : t.conversation.ownerEpoch ≤ c.ownerEpoch)
    (incoming : c.incoming = t.conversation.incoming) :
    ({ t with conversation := c } : Traffic).Ordered := by
  refine ⟨?_,ordered.behind,?_,?_⟩
  · show t.put = t.taken + c.incoming.length
    rw [incoming]
    exact ordered.places
  · intro e frame inside
    change some (e,frame) ∈ c.incoming at inside
    rw [incoming] at inside
    exact (ordered.epochs e frame inside).trans epoch
  · intro i e frame key found names
    change c.incoming[i]? = _ at found
    rw [incoming] at found
    exact ordered.last i e frame key found names

theorem Ordered.put (ordered : t.Ordered) {c : Conversation} {item : Option (Nat × Frame)}
    {origin : Dict InvocationKey Nat} (epoch : c.ownerEpoch = t.conversation.ownerEpoch)
    (incoming : c.incoming = t.conversation.incoming ++ [item])
    (own : ∀ e frame, item = some (e,frame) → e ≤ t.conversation.ownerEpoch)
    (named : ∀ e frame key, item = some (e,frame) → invoked frame = some key →
      origin.get? key = some t.put)
    (others : ∀ key, (∀ e frame, item = some (e,frame) → invoked frame ≠ some key) →
      origin.get? key = t.origin.get? key) :
    ({ t with conversation := c, put := t.put + 1, origin := origin } : Traffic).Ordered := by
  have places := ordered.places
  refine ⟨?_,ordered.behind,?_,?_⟩
  · show t.put + 1 = t.taken + c.incoming.length
    rw [incoming,List.length_append,places]
    rfl
  · intro e frame inside
    change some (e,frame) ∈ c.incoming at inside
    show e ≤ c.ownerEpoch
    rw [incoming] at inside
    rw [epoch]
    rcases List.mem_append.mp inside with old | new
    · exact ordered.epochs e frame old
    · exact own e frame (List.mem_singleton.mp new).symm
  · intro i e frame key found names
    change c.incoming[i]? = _ at found
    rw [incoming] at found
    rcases Nat.lt_or_ge i t.conversation.incoming.length with old | new
    · rw [List.getElem?_append_left old] at found
      by_cases again : ∃ e frame, item = some (e,frame) ∧ invoked frame = some key
      · obtain ⟨e',frame',same,names'⟩ := again
        refine ⟨t.put,named e' frame' key same names',?_⟩
        show t.taken + i ≤ t.put
        omega
      · push Not at again
        obtain ⟨place,origin',after⟩ := ordered.last i e frame key found names
        exact ⟨place,(others key again).trans origin',after⟩
    · rw [List.getElem?_append_right new] at found
      obtain ⟨bound,same⟩ := List.getElem?_eq_some_iff.mp found
      have last : i - t.conversation.incoming.length = 0 := Nat.lt_one_iff.mp bound
      simp only [last,List.getElem_cons_zero] at same
      refine ⟨t.put,named e frame key same names,?_⟩
      show t.taken + i ≤ t.put
      omega

theorem Ordered.read (ordered : t.Ordered) {item : Option (Nat × Frame)}
    {rest : List (Option (Nat × Frame))} {delivered : List Nat}
    (queue : t.conversation.incoming = item :: rest)
    (only : ∀ place ∈ delivered, place ∈ t.delivered ∨ place = t.taken) :
    ({ t with
      conversation := { t.conversation with incoming := rest }
      taken := t.taken + 1
      delivered := delivered } : Traffic).Ordered := by
  refine ⟨?_,?_,?_,?_⟩
  · show t.put = t.taken + 1 + rest.length
    have places := ordered.places
    rw [queue,List.length_cons] at places
    omega
  · intro place inside
    show place < t.taken + 1
    rcases only place inside with old | rfl
    · exact Nat.lt_succ_of_lt (ordered.behind place old)
    · exact Nat.lt_succ_self _
  · intro e frame inside
    exact ordered.epochs e frame (queue ▸ List.mem_cons_of_mem _ inside)
  · intro i e frame key found names
    obtain ⟨place,origin,after⟩ := ordered.last (i + 1) e frame key (by rw [queue]; exact found) names
    refine ⟨place,origin,?_⟩
    show t.taken + 1 + i ≤ place
    omega

theorem step_ordered (keyed : t.conversation.Keyed) (ordered : t.Ordered) {m : Move}
    (taken : step py t m = some t') : t'.Ordered := by
  cases step_moved keyed taken with
  | quiet _ q => exact ordered.same_queue (Nat.le_of_eq q.epoch.symm) q.incoming
  | takenOver => exact ordered.same_queue (Nat.le_succ _) rfl
  | put own epoch records incoming =>
    refine ordered.put epoch incoming (fun e frame same => Nat.le_of_eq (own e frame same).1) ?_
      fun _ _ => rfl
    intro e frame key same names
    rw [(own e frame same).2] at names
    cases names
  | registered names epoch records incoming =>
    rename_i c key frame
    refine ordered.put epoch incoming ?_ ?_ ?_
    · intro e frame' same
      obtain ⟨rfl,_⟩ := Prod.mk.inj (Option.some.inj same)
      exact Nat.le_of_eq epoch
    · intro e frame' key' same names'
      obtain ⟨_,rfl⟩ := Prod.mk.inj (Option.some.inj same)
      obtain rfl : key = key' := Option.some.inj (names.symm.trans names')
      exact Dict.get?_set_self _ _ _
    · intro key' other
      refine Dict.get?_set_ne _ _ fun same => ?_
      exact other _ frame rfl (same ▸ names)
  | read queue _ only _ => exact ordered.read queue only

theorem step_keyed (keyed : t.conversation.Keyed) {m : Move} (taken : step py t m = some t') :
    t'.conversation.Keyed := by
  cases step_moved keyed taken with
  | quiet _ q => exact q.keyed
  | takenOver => exact keyed
  | put _ _ records _ => exact fun key record found => keyed key record (records ▸ found)
  | registered _ _ records _ => exact Conversation.keyed_set keyed records
  | read => exact keyed

theorem Ordered.loses (ordered : t.Ordered) (pending : ¬ t.conversation.Drained) (now : ℚ)
    (stream : Stream) (resumed : Bool) :
    ¬ Kept { t with conversation := t.conversation.takeOver now stream resumed } := by
  intro kept
  apply pending
  intro frame key queued names runs
  obtain ⟨place,origin,fate⟩ := kept key runs
  obtain ⟨i,at_i⟩ := List.mem_iff_getElem?.mp queued
  obtain ⟨last,origin',after⟩ := ordered.last i _ frame key at_i names
  obtain rfl : place = last := Option.some.inj (origin.symm.trans origin')
  rcases fate with done | ⟨_,frame',waiting,_⟩
  · have := ordered.behind place done
    omega
  · have := ordered.epochs _ frame' (List.mem_of_getElem? waiting)
    have ahead : t.conversation.ownerEpoch + 1 ≤ t.conversation.ownerEpoch := this
    omega

theorem attach_loses {engine label worker : String} {grace now now' : ℚ} {stream : Stream}
    {resumed : Bool}
    (reached : Reachable (step py) (new (.new engine label worker grace now)) t)
    (pending : ¬ t.conversation.Drained)
    (taken : step py t (.attach now' stream resumed) = some t') : ¬ t'.Kept := by
  have known : t.conversation.Keyed ∧ t.Ordered :=
    reached.invariant (fun t => t.conversation.Keyed ∧ t.Ordered)
      ⟨(new_sound engine label worker grace now).keyed,new_ordered engine label worker grace now⟩
      fun _ _ _ ⟨keyed,ordered⟩ _ moved => ⟨step_keyed keyed moved,step_ordered keyed ordered moved⟩
  obtain ⟨c,moved,rfl⟩ := Option.map_eq_some_iff.mp taken
  dsimp only [Resume.step] at moved
  split at moved
  · cases moved
  · cases moved
    exact known.2.loses pending now' stream resumed

def sampleKey : InvocationKey := ⟨"j",1,"i",by decide,by decide,by decide⟩

def sampleInvoke : Frame := ⟨("type",.str "invoke") :: sampleKey.toWire,[]⟩

def sampleStart : Traffic := new (.new "engine" "label" "worker" 120 0)

def hastyRun : List Move :=
  [.attach 0 1 false,.attached,.startHost,.send ⟨[("type",.str "hello")],[]⟩,
    .received 0 sampleInvoke,.attach 0 2 true,.attached,.read]

theorem hasty_lost : ∃ t, run (step plainBuiltins) sampleStart hastyRun = some t ∧
    t.conversation.Runs sampleKey ∧ t.delivered = [] ∧ t.conversation.incoming = [] :=
  ⟨_,rfl,⟨_,rfl,rfl⟩,rfl,rfl⟩

theorem kept_refused :
    ¬ ∀ py t, Reachable (step py) sampleStart t → t.Kept := by
  intro all
  obtain ⟨t,ran,runs,none,empty⟩ := hasty_lost
  obtain ⟨place,_,fate⟩ := all plainBuiltins t (reachable_of_run ran) sampleKey runs
  rcases fate with done | ⟨_,frame,queued,_⟩
  · rw [none] at done
    cases done
  · rw [empty] at queued
    cases queued

theorem attach_loses_hasty : ∃ t, run (step plainBuiltins) sampleStart (hastyRun.take 6) = some t ∧
    ¬ t.Kept := by
  have before : run (step plainBuiltins) sampleStart (hastyRun.take 5) = some _ := rfl
  refine ⟨_,rfl,attach_loses (reachable_of_run before) ?_ rfl⟩
  intro drained
  exact drained sampleInvoke sampleKey List.mem_cons_self rfl ⟨_,rfl,rfl⟩

/-- The host reads the frame before the engine attaches again. -/
theorem patient_kept : ∃ t, Reach (step plainBuiltins) Settles sampleStart t ∧
    t.conversation.Runs sampleKey ∧ t.conversation.ownerEpoch = 2 ∧ t.Kept := by
  have empty (t : Traffic) (queue : t.conversation.incoming = []) : t.conversation.Drained := by
    intro frame key inside
    rw [queue] at inside
    cases inside
  have first : Reach (step plainBuiltins) Settles sampleStart _ :=
    .step .refl (a := .attach 0 1 false) (empty _ rfl) rfl
  have served : Reach (step plainBuiltins) Settles _ _ :=
    first.trans (reach_offer [.attached,.startHost,.received 0 sampleInvoke,.read] (by
      intro m inside t
      fin_cases inside <;> trivial))
  have again : Reach (step plainBuiltins) Settles sampleStart _ :=
    .step served (a := .attach 0 2 true) (empty _ rfl) rfl
  exact ⟨_,again,⟨_,rfl,rfl⟩,rfl,invocation_kept again⟩

end Traffic

end Dinkster.Workers.Resume
