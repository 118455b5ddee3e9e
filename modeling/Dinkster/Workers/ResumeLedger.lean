import Dinkster.Workers.ResumeDelivery

/-! What a move does to the records of a conversation, and the counters of what they retain. -/
namespace Dinkster.Workers.Resume
open Json Fallible

/-- What is retained of a frame counts with its size. -/
def sizeOfRetained : Option Frame → Nat
  | none => 0
  | some frame => ((retainedFrameBytes frame).toOption).getD 0

/-- One piece of a record and its size stay, or go, or are those of a frame. -/
inductive Piece (before after : Option Frame) (size size' : Nat) (made : Frame → Prop) : Prop
  | same (frame : after = before) (bytes : size' = size)
  | gone (frame : after = none) (bytes : size' = 0)
  | made {f : Frame} (frame : after = some f) (bytes : retainedFrameBytes f = .ok size')
      (how : made f)

/-- What a frame sent for an invocation changes in its record; `writes` are the frames that the
sender goes on to write. -/
structure Revised (writes : Frame → Prop) (c' : Conversation) (record record' : Record) : Prop where
  key : record'.key = record.key
  later : record.eventSeq ≤ record'.eventSeq
  result : Piece record.result record'.result record.resultBytes record'.resultBytes fun f =>
    writes f ∧ c'.retainedResultBytes ≤ maxRetainedResultBytes
  event : Piece record.latestEvent record'.latestEvent record.eventBytes record'.eventBytes fun f =>
    f.header.get? "eventSeq" = some (.int record'.eventSeq) ∧
      c'.retainedEventBytes ≤ maxRetainedEventBytes
  release : record'.release = record.release ∨ ∃ f, record'.release = some f ∧ writes f
  kept : record.result.isSome → record'.result.isSome

/-- What a move does to the records and their counters. -/
inductive Booked (writes : Frame → Prop) (c c' : Conversation) : Prop
  | kept (records : c'.records = c.records)
      (results : c'.retainedResultBytes = c.retainedResultBytes)
      (events : c'.retainedEventBytes = c.retainedEventBytes)
  | registered {key : InvocationKey} (fresh : key ∉ c.records.keys)
      (records : c'.records = c.records.set key (.fresh key))
      (results : c'.retainedResultBytes = c.retainedResultBytes)
      (events : c'.retainedEventBytes = c.retainedEventBytes)
  | dropped {key : InvocationKey} {record : Record} (found : c.records.get? key = some record)
      (records : c'.records = c.records.erase key)
      (results : c'.retainedResultBytes = c.retainedResultBytes - record.resultBytes)
      (events : c'.retainedEventBytes = c.retainedEventBytes - record.eventBytes)
  | revised {record record' : Record} (found : c.records.get? record.key = some record)
      (records : c'.records = c.records.set record.key record')
      (results : c'.retainedResultBytes =
        c.retainedResultBytes + ((record'.resultBytes : Int) - record.resultBytes))
      (events : c'.retainedEventBytes =
        c.retainedEventBytes + ((record'.eventBytes : Int) - record.eventBytes))
      (how : Revised writes c' record record')

def Sequenced (record : Record) : Prop :=
  ∀ f, record.latestEvent = some f →
    ∃ n : Nat, f.header.get? "eventSeq" = some (.int n) ∧ n ≤ record.eventSeq

/-- The counters are the sums of what the records count, which are the sizes of what they
retain, and no counter is over its cap. -/
structure Accounted (c : Conversation) : Prop where
  keyed : c.Keyed
  results : c.retainedResultBytes = (c.records.total (·.resultBytes) : Nat)
  events : c.retainedEventBytes = (c.records.total (·.eventBytes) : Nat)
  resultSize : ∀ key record, c.records.get? key = some record →
    record.resultBytes = sizeOfRetained record.result
  eventSize : ∀ key record, c.records.get? key = some record →
    record.eventBytes = sizeOfRetained record.latestEvent
  resultCap : c.retainedResultBytes ≤ maxRetainedResultBytes
  eventCap : c.retainedEventBytes ≤ maxRetainedEventBytes
  sequenced : ∀ key record, c.records.get? key = some record → Sequenced record

variable {c c' : Conversation} {writes : Frame → Prop} {py : Builtins}

theorem new_accounted (engine label worker : String) (grace now : ℚ) :
    Accounted (.new engine label worker grace now) := by
  have none_held (key : InvocationKey) (record : Record) :
      ¬ (Conversation.new engine label worker grace now).records.get? key = some record := nofun
  have capped : (0 : Int) ≤ maxRetainedResultBytes ∧ (0 : Int) ≤ maxRetainedEventBytes := by decide
  refine ⟨?_,rfl,rfl,?_,?_,capped.1,capped.2,?_⟩
  all_goals
    intro key record found
    exact absurd found (none_held key record)

private theorem piece_size {before after : Option Frame} {size size' : Nat} {made : Frame → Prop}
    (piece : Piece before after size size' made) (old : size = sizeOfRetained before) :
    size' = sizeOfRetained after := by
  cases piece with
  | same frame bytes => rw [bytes,frame,old]
  | gone frame bytes => rw [bytes,frame]; rfl
  | made frame bytes how =>
    rw [frame,sizeOfRetained,bytes]
    rfl

private theorem piece_cap {before after : Option Frame} {size size' : Nat} {made : Frame → Prop}
    {count count' cap : Int} (piece : Piece before after size size' made)
    (counted : count' = count + ((size' : Int) - size)) (under : count ≤ cap)
    (fits : ∀ f, made f → count' ≤ cap) : count' ≤ cap := by
  cases piece with
  | same frame bytes => omega
  | gone frame bytes => omega
  | made frame bytes how => exact fits _ how

private theorem total_revised {d : Dict InvocationKey Record} {key : InvocationKey}
    {record record' : Record} (found : d.get? key = some record) (weight : Record → Nat) :
    ((d.set key record').total weight : Int) =
      d.total weight + ((weight record' : Int) - weight record) := by
  have erased := d.total_erase weight key
  rw [found,Option.map_some,Option.getD_some] at erased
  rw [Dict.total_set]
  push_cast
  omega

theorem booked_accounted (booked : Booked writes c c') (accounted : Accounted c) :
    Accounted c' := by
  obtain ⟨keyed,results,events,resultSize,eventSize,resultCap,eventCap,sequenced⟩ := accounted
  cases booked with
  | kept records results' events' =>
    refine ⟨?_,?_,?_,?_,?_,?_,?_,?_⟩
    · unfold Conversation.Keyed
      rwa [records]
    · rw [results',records,results]
    · rw [events',records,events]
    · rwa [records]
    · rwa [records]
    · rwa [results']
    · rwa [events']
    · rwa [records]
  | @registered key fresh records results' events' =>
    have nothing : c.records.erase key = c.records :=
      Dict.erase_absent ((Dict.get?_eq_none_iff _ _).mpr fresh)
    have each {P : Record → Prop} (base : P (.fresh key))
        (held : ∀ key record, c.records.get? key = some record → P record) :
        ∀ key record, c'.records.get? key = some record → P record := by
      intro other record found
      rw [records,Dict.get?_set] at found
      split at found
      · obtain rfl := Option.some.inj found
        exact base
      · exact held other record found
    refine ⟨?_,?_,?_,each rfl resultSize,each rfl eventSize,?_,?_,each nofun sequenced⟩
    · exact Conversation.keyed_set keyed records
    · rw [results',results,records,Dict.total_set,nothing]
      rfl
    · rw [events',events,records,Dict.total_set,nothing]
      rfl
    · rwa [results']
    · rwa [events']
  | @dropped key record found records results' events' =>
    have held : ∀ other kept, c'.records.get? other = some kept →
        c.records.get? other = some kept := by
      intro other kept there
      rw [records,Dict.get?_erase] at there
      split at there
      · cases there
      · exact there
    have resultSum := c.records.total_erase (·.resultBytes) key
    have eventSum := c.records.total_erase (·.eventBytes) key
    rw [found,Option.map_some,Option.getD_some] at resultSum eventSum
    refine ⟨fun other kept there => keyed other kept (held other kept there),?_,?_,
      fun other kept there => resultSize other kept (held other kept there),
      fun other kept there => eventSize other kept (held other kept there),?_,?_,
      fun other kept there => sequenced other kept (held other kept there)⟩
    · rw [records]
      omega
    · rw [records]
      omega
    · omega
    · omega
  | @revised record record' found records results' events' how =>
    have each {P : Record → Prop} (base : P record')
        (held : ∀ key record, c.records.get? key = some record → P record) :
        ∀ key record, c'.records.get? key = some record → P record := by
      intro other kept there
      rw [records,Dict.get?_set] at there
      split at there
      · obtain rfl := Option.some.inj there
        exact base
      · exact held other kept there
    refine ⟨?_,?_,?_,each (piece_size how.result (resultSize _ _ found)) resultSize,
      each (piece_size how.event (eventSize _ _ found)) eventSize,
      piece_cap how.result results' resultCap fun _ made => made.2,
      piece_cap how.event events' eventCap fun _ made => made.2,each ?_ sequenced⟩
    · intro other kept there
      rw [records,Dict.get?_set] at there
      split at there
      · rename_i same
        obtain rfl := Option.some.inj there
        rw [same,how.key]
      · exact keyed other kept there
    · rw [results',results,records,total_revised found]
    · rw [events',events,records,total_revised found]
    · intro f retained
      cases how.event with
      | same frame bytes =>
        obtain ⟨n,written,below⟩ := sequenced _ _ found f (frame ▸ retained)
        exact ⟨n,written,below.trans how.later⟩
      | gone frame bytes =>
        rw [frame] at retained
        cases retained
      | made frame bytes made =>
        obtain rfl := Option.some.inj (frame.symm.trans retained)
        exact ⟨record'.eventSeq,made.1,Nat.le_refl _⟩

def Move.sends (py : Builtins) (c : Conversation) : Move → Frame → Prop
  | .send frame, f => (c.send py frame).2 = .write f
  | _, _ => False

namespace Conversation

theorem get?_withField (header : Object) (field : String) (v : Json.Value) :
    (withField header field v).get? field = some v := by
  unfold withField
  split
  · rename_i known
    induction header with
    | nil => cases known
    | cons e rest ih =>
      rw [List.map_cons]
      by_cases same : e.1 = field
      · rw [if_pos same,Object.get?_cons,if_pos rfl]
      · have other : field ≠ e.1 := fun h => same h.symm
        rw [if_neg same,Object.get?_cons,if_neg other]
        rw [Object.get?_cons,if_neg other] at known
        exact ih known
  · rename_i unknown
    rw [Object.get?_append,Option.not_isSome_iff_eq_none.mp unknown]
    exact Object.get?_single field v

private theorem booked_set {record record' : Record}
    (found : c.records.get? record.key = some record)
    (records : c'.records = (c.setRecord record').records)
    (key : record'.key = record.key) (later : record.eventSeq ≤ record'.eventSeq)
    (result : record'.result = record.result ∧ record'.resultBytes = record.resultBytes)
    (event : record'.latestEvent = record.latestEvent ∧ record'.eventBytes = record.eventBytes)
    (release : record'.release = record.release ∨ ∃ f, record'.release = some f ∧ writes f)
    (results : c'.retainedResultBytes = c.retainedResultBytes)
    (events : c'.retainedEventBytes = c.retainedEventBytes) : Booked writes c c' := by
  have how : Revised writes c' record record' :=
    ⟨key,later,.same result.1 result.2,.same event.1 event.2,release,by rw [result.1]; exact id⟩
  refine .revised found ?_ ?_ ?_ how
  · rw [records,← key]
    rfl
  · rw [results,result.2]
    omega
  · rw [events,event.2]
    omega

theorem sendEvent_booked {record : Record} (found : c.records.get? record.key = some record)
    (frame : Frame) : Booked writes c (c.sendEvent record frame).1 := by
  unfold sendEvent
  dsimp only
  split
  · exact booked_set found rfl rfl (Nat.le_succ _) ⟨rfl,rfl⟩ ⟨rfl,rfl⟩ (.inl rfl) rfl rfl
  · split
    · exact booked_set found rfl rfl (Nat.le_succ _) ⟨rfl,rfl⟩ ⟨rfl,rfl⟩ (.inl rfl) rfl rfl
    · rename_i retained sized
      split
      · rename_i fits
        refine .revised found rfl (by simp [setRecord]) rfl ⟨rfl,Nat.le_succ _,.same rfl rfl,
          .made rfl sized ⟨get?_withField _ _ _,?_⟩,.inl rfl,id⟩
        show c.retainedEventBytes + ((retained : Int) - record.eventBytes) ≤ maxRetainedEventBytes
        omega
      · refine .revised found rfl (by simp [setRecord]) ?_ ⟨rfl,Nat.le_succ _,.same rfl rfl,
          .gone rfl rfl,.inl rfl,id⟩
        show c.retainedEventBytes - record.eventBytes =
          c.retainedEventBytes + (((0 : Nat) : Int) - record.eventBytes)
        omega

theorem sendControl_booked {record : Record} (found : c.records.get? record.key = some record)
    (frame : Frame) : Booked writes c (c.sendControl record frame).1 := by
  unfold sendControl
  dsimp only
  split
  · split
    · exact .kept rfl rfl rfl
    · exact booked_set found rfl rfl (Nat.le_refl _) ⟨rfl,rfl⟩ ⟨rfl,rfl⟩ (.inl rfl) rfl rfl
  · exact .kept rfl rfl rfl

theorem sendResult_booked {record : Record} (found : c.records.get? record.key = some record)
    (frame : Frame) (written : (c.sendResult record frame).2 = .write frame → writes frame) :
    Booked writes c (c.sendResult record frame).1 := by
  unfold sendResult at written ⊢
  split
  · exact .kept rfl rfl rfl
  · rename_i retained sized
    simp only [sized] at written
    split
    · exact .kept rfl rfl rfl
    · rename_i fits
      rw [if_neg fits] at written
      refine .revised found rfl rfl (by simp [setRecord]) ⟨rfl,Nat.le_refl _,
        .made rfl sized ⟨written rfl,?_⟩,.same rfl rfl,.inl rfl,fun _ => rfl⟩
      show c.retainedResultBytes + ((retained : Int) - record.resultBytes) ≤ maxRetainedResultBytes
      omega

theorem send_booked (keyed : c.Keyed) (frame : Frame) :
    Booked (Move.sends py c (.send frame)) c (c.send py frame).1 := by
  unfold Move.sends
  dsimp only
  unfold send
  split
  · exact .kept rfl rfl rfl
  split
  · exact .kept rfl rfl rfl
  split
  · exact .kept rfl rfl rfl
  split
  · exact .kept rfl rfl rfl
  · rename_i record looked
    have found := recordForFrame_found keyed looked
    dsimp only
    split
    · exact sendEvent_booked found frame
    split
    · exact booked_set found rfl rfl (Nat.le_refl _) ⟨rfl,rfl⟩ ⟨rfl,rfl⟩ (.inl rfl) rfl rfl
    split
    · exact booked_set found rfl rfl (Nat.le_refl _) ⟨rfl,rfl⟩ ⟨rfl,rfl⟩ (.inr ⟨_,rfl,rfl⟩) rfl rfl
    split
    · exact sendControl_booked found _
    split
    · exact sendResult_booked found _ id
    · exact .kept rfl rfl rfl

theorem dropRecord_booked (c : Conversation) (key : InvocationKey) :
    Booked writes c (c.dropRecord key) := by
  unfold dropRecord
  dsimp only
  cases found : c.records.get? key with
  | none => exact .kept (Dict.erase_absent found) rfl rfl
  | some record => exact .dropped found rfl rfl rfl

theorem pump_booked (c : Conversation) (now : ℚ) (epoch : Nat) (frame : Frame) :
    Booked writes c (c.pump now epoch frame) := by
  unfold pump
  dsimp only
  split
  · exact .kept rfl rfl rfl
  split
  · split
    · rename_i c' done
      obtain ⟨key,_,fresh,rfl⟩ := register_ok done
      exact .registered fresh rfl rfl rfl
    · exact .kept rfl rfl rfl
  · exact .kept rfl rfl rfl

theorem grantReceived_booked (keyed : c.Keyed) (invocationId : Json.Value) :
    Booked writes c (c.grantReceived py invocationId) := by
  unfold grantReceived
  split
  · exact .kept rfl rfl rfl
  · rename_i record looked
    have found := recordForFrame_found keyed looked
    exact booked_set found rfl rfl (Nat.le_refl _) ⟨rfl,rfl⟩ ⟨rfl,rfl⟩ (.inl rfl) rfl rfl

theorem acknowledgeResult_booked {header : Object} (done : c.acknowledgeResult header = .ok c') :
    Booked writes c c' := by
  obtain ⟨key,_,done⟩ := bind_ok.mp done
  cases found : c.records.get? key with
  | none => rw [found] at done; cases done
  | some record =>
    rw [found] at done
    obtain ⟨_,_,done⟩ := bind_ok.mp done
    obtain ⟨_,_,done⟩ := bind_ok.mp done
    cases done
    exact dropRecord_booked c key

structure SameRecords (c c' : Conversation) : Prop where
  records : c'.records = c.records
  results : c'.retainedResultBytes = c.retainedResultBytes
  events : c'.retainedEventBytes = c.retainedEventBytes

theorem attached_same (c : Conversation) (stream : Stream) (resumed : Bool) :
    SameRecords c (c.attached stream resumed).1 := by
  unfold attached
  split <;> exact ⟨rfl,rfl,rfl⟩

theorem detach_same (c : Conversation) (epoch : Nat) : SameRecords c (c.detach epoch).1 := by
  unfold detach
  split
  · exact ⟨rfl,rfl,rfl⟩
  · split <;> exact ⟨rfl,rfl,rfl⟩

theorem close_same (c : Conversation) : SameRecords c c.close := by
  unfold close
  split <;> exact ⟨rfl,rfl,rfl⟩

theorem sendLocked_same (c : Conversation) (frame : Frame) :
    SameRecords c (c.sendLocked frame) := by
  unfold sendLocked
  split
  · exact ⟨rfl,rfl,rfl⟩
  · split <;> exact ⟨rfl,rfl,rfl⟩

theorem rebindLocked_same (c : Conversation) (epoch : Nat) :
    SameRecords c (c.rebindLocked epoch) := by
  unfold rebindLocked
  split
  · exact ⟨rfl,rfl,rfl⟩
  · split <;> exact ⟨rfl,rfl,rfl⟩

end Conversation

/-- The moves that neither send for an invocation nor make or drop one. -/
def Move.idle : Move → Bool
  | .send _ | .received _ _ | .granted _ | .acknowledged _ | .finished _ => false
  | _ => true

theorem idle_same {m : Move} (idle : m.idle) (taken : step py c m = some c') :
    c.SameRecords c' := by
  cases m with
  | send | received | granted | acknowledged | finished => cases idle
  | attach now stream resumed =>
    dsimp only [step] at taken
    split at taken
    · cases taken
    · cases taken
      exact ⟨rfl,rfl,rfl⟩
  | attached =>
    dsimp only [step] at taken
    split at taken
    · cases taken
      exact c.attached_same _ _
    · cases taken
  | startHost =>
    dsimp only [step] at taken
    split at taken
    · cases taken
    · cases taken
      exact ⟨rfl,rfl,rfl⟩
  | detach epoch =>
    dsimp only [step] at taken
    split at taken
    · cases taken
    · cases taken
      exact c.detach_same epoch
  | expire =>
    dsimp only [step] at taken
    split at taken
    · cases taken
    split at taken
    · cases taken
    split at taken
    · cases taken
      exact c.close_same
    · cases taken
      exact ⟨rfl,rfl,rfl⟩
  | close =>
    dsimp only [step] at taken
    split at taken
    · cases taken
    · cases taken
      exact c.close_same
  | sendLocked frame =>
    dsimp only [step] at taken
    split at taken
    · cases taken
    · cases taken
      exact c.sendLocked_same frame
  | rebind epoch =>
    dsimp only [step] at taken
    split at taken
    · cases taken
    · cases taken
      exact c.rebindLocked_same epoch
  | written =>
    dsimp only [step] at taken
    split at taken
    · cases taken
      exact ⟨rfl,rfl,rfl⟩
    · cases taken
      exact ⟨rfl,rfl,rfl⟩
    · cases taken
  | writeLost =>
    dsimp only [step] at taken
    split at taken
    · cases taken
      exact ⟨rfl,rfl,rfl⟩
    · cases taken
  | hungUp =>
    dsimp only [step] at taken
    split at taken
    · cases taken
      exact ⟨rfl,rfl,rfl⟩
    · cases taken
  | ended =>
    dsimp only [step] at taken
    split at taken
    · cases taken
      exact ⟨rfl,rfl,rfl⟩
    · cases taken
  | read =>
    obtain ⟨⟨returned,c''⟩,first,rfl⟩ := Option.map_eq_some_iff.mp taken
    unfold Conversation.read at first
    split at first
    · cases first
    · cases first
      exact ⟨rfl,rfl,rfl⟩
    · cases first
      exact ⟨rfl,rfl,rfl⟩

theorem step_booked (keyed : c.Keyed) {m : Move} (taken : step py c m = some c') :
    Booked (m.sends py c) c c' := by
  cases idle : m.idle with
  | true =>
    obtain ⟨records,results,events⟩ := idle_same idle taken
    exact .kept records results events
  | false =>
    cases m with
    | send frame =>
      cases taken
      exact Conversation.send_booked keyed frame
    | received now frame =>
      obtain ⟨task,_,rfl⟩ := Option.map_eq_some_iff.mp taken
      exact c.pump_booked now task.2 frame
    | granted invocationId =>
      cases taken
      exact Conversation.grantReceived_booked keyed invocationId
    | acknowledged header =>
      cases taken
      cases done : c.acknowledgeResult header with
      | error e => exact .kept rfl rfl rfl
      | ok c' => exact Conversation.acknowledgeResult_booked done
    | finished invocationId =>
      cases taken
      unfold Conversation.finishCancelled
      split
      · exact .kept rfl rfl rfl
      · exact c.dropRecord_booked _
    | _ => cases idle

theorem step_accounted (accounted : Accounted c) {m : Move} (taken : step py c m = some c') :
    Accounted c' :=
  booked_accounted (step_booked accounted.keyed taken) accounted

end Dinkster.Workers.Resume
