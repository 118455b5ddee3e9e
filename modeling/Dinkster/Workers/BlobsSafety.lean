import Dinkster.Workers.BlobsFlow
import Mathlib

/-! Blob transfer is exact in every state reached on a connection: both directions flow as
`Flow` says, and both stores hold only bytes that hash to their digest. -/
namespace Dinkster.Workers.Blobs

universe u
variable {α δ : Type u} [DecidableEq δ] {hash : List α → δ}

/-- Every digest resolves to bytes that hash to it, or to what the store held before. -/
def Verified (hash : List α → δ) (before store : Dict δ (List α)) : Prop :=
  ∀ digest data, store.get? digest = some data → hash data = digest ∨
    before.get? digest = some data

variable {before store : Dict δ (List α)}

theorem Verified.set (verified : Verified hash before store) {digest : δ} {data : List α}
    (same : hash data = digest) : Verified hash before (store.set digest data) := by
  intro d other found
  rw [Dict.get?_set] at found
  split at found
  · rename_i equal
    rw [← Option.some.inj found,equal]
    exact .inl same
  · exact verified d other found

theorem Verified.erase (verified : Verified hash before store) (digest : δ) :
    Verified hash before (store.erase digest) := by
  intro d other found
  rw [Dict.get?_erase] at found
  split at found
  · cases found
  · exact verified d other found

theorem Verified.adopt (verified : Verified hash before store) {digest : δ} {data : List α}
    {next : Dict δ (List α)} (adopted : BlobTransfer.adopt hash store digest data = some next) :
    Verified hash before next := by
  unfold BlobTransfer.adopt at adopted
  split at adopted
  · rename_i same
    obtain rfl := Option.some.inj adopted
    exact verified.set same
  · cases adopted

theorem Verified.persist (contents : δ → List α) (unique : List (δ × Payload α))
    (verified : Verified hash before store) :
    Verified hash before (BlobTransfer.persist hash contents store unique).1 := by
  induction unique generalizing store with
  | nil => exact verified
  | cons item rest ih =>
    obtain ⟨digest,payload⟩ := item
    unfold BlobTransfer.persist
    split
    · exact ih verified
    · cases payload with
      | bytes data => exact ih (verified.set rfl)
      | file =>
        dsimp only
        split
        · rename_i adopted
          exact ih (verified.adopt adopted)
        · exact verified

theorem accept_store (e : BlobTransfer α δ) (frame : Frame α δ) :
    (e.accept frame).store = e.store := by
  cases frame with
  | blobQuery => rfl
  | blobQueryResult =>
    simp only [BlobTransfer.accept,BlobTransfer.resolveQuery]
    split
    · split <;> rfl
    · rfl
  | blobData chunk =>
    simp only [BlobTransfer.accept,BlobTransfer.acceptChunk]
    split_ifs <;> rfl

theorem Flow.accepted {e r : BlobTransfer α δ} {wire : List (Frame α δ)} {sent : List (Chunk α δ)}
    (flow : Flow e r wire sent) (frame : Frame α δ) : Flow (e.accept frame) r wire sent := by
  cases frame with
  | blobQuery => exact flow.sender rfl rfl
  | blobQueryResult requestId missing =>
    simp only [BlobTransfer.accept,BlobTransfer.resolveQuery]
    split
    · rename_i asking
      split
      · refine flow.stage rfl (by simp) fun opened => ?_
        have empty := flow.settled opened
        rw [asking] at empty
        exact empty
      · exact flow
    · exact flow
  | blobData chunk =>
    have closes : Flow e.close r wire sent :=
      flow.stage rfl (by simp [BlobTransfer.close]) fun _ => trivial
    simp only [BlobTransfer.accept,BlobTransfer.acceptChunk]
    split_ifs
    · exact closes
    · exact closes
    · exact flow.sender rfl rfl
    · exact closes
    · exact flow.sender rfl rfl

namespace Connection

structure Sound (hash : List α → δ) (stores : Bool → Dict δ (List α)) (c : Connection α δ) :
    Prop where
  flows : ∀ b, Flow (c.ends !b) (c.ends b) (c.wire b) (c.sent b)
  stores : ∀ b, Verified hash (stores b) (c.ends b).store

variable {stores : Bool → Dict δ (List α)} {c c' : Connection α δ}

theorem Sound.at (sound : c.Sound hash stores) (b : Bool) (peer : c'.ends (!b) = c.ends (!b))
    (outwards : Flow (c'.ends b) (c.ends !b) (c'.wire !b) (c'.sent !b))
    (inwards : Flow (c.ends !b) (c'.ends b) (c'.wire b) (c'.sent b))
    (store : Verified hash (stores b) (c'.ends b).store) : c'.Sound hash stores := by
  constructor
  · intro x
    by_cases mine : x = b
    · subst mine
      rw [peer]
      exact inwards
    · obtain rfl : x = !b := by cases x <;> cases b <;> simp_all
      rw [Bool.not_not,peer]
      exact outwards
  · intro x
    by_cases mine : x = b
    · exact mine ▸ store
    · obtain rfl : x = !b := by cases x <;> cases b <;> simp_all
      rw [peer]
      exact sound.stores (!b)

omit [DecidableEq δ] in
theorem ends_put (b : Bool) (e : BlobTransfer α δ) :
    (c.put b e).ends b = e ∧ (c.put b e).ends (!b) = c.ends (!b) := by
  constructor
  · exact Function.update_self ..
  · exact Function.update_of_ne (by simp) ..

theorem Sound.put (sound : c.Sound hash stores) (b : Bool) {e : BlobTransfer α δ}
    (outwards : Flow e (c.ends !b) (c.wire !b) (c.sent !b))
    (inwards : Flow (c.ends !b) e (c.wire b) (c.sent b)) (store : Verified hash (stores b) e.store) :
    (c.put b e).Sound hash stores := by
  obtain ⟨mine,peer⟩ := ends_put (c := c) b e
  refine sound.at b peer ?_ ?_ ?_
  · rw [mine]
    exact outwards
  · rw [mine]
    exact inwards
  · rw [mine]
    exact store

theorem Sound.outwards (sound : c.Sound hash stores) (b : Bool) :
    Flow (c.ends b) (c.ends !b) (c.wire !b) (c.sent !b) := by
  have flow := sound.flows !b
  rwa [Bool.not_not] at flow

theorem Sound.post (sound : c.Sound hash stores) (b : Bool) {e : BlobTransfer α δ} {frame : Frame α δ}
    (outwards : Flow e (c.ends !b) (c.wire (!b) ++ [frame]) (c.sent !b))
    (inwards : Flow (c.ends !b) e (c.wire b) (c.sent b)) (store : Verified hash (stores b) e.store) :
    ((c.put b e).post b frame).Sound hash stores := by
  obtain ⟨mine,peer⟩ := ends_put (c := c) b e
  have to_peer : ((c.put b e).post b frame).wire (!b) = c.wire (!b) ++ [frame] :=
    Function.update_self ..
  have to_me : ((c.put b e).post b frame).wire b = c.wire b :=
    Function.update_of_ne (by simp) ..
  refine sound.at b peer ?_ ?_ ?_
  · rw [show ((c.put b e).post b frame).ends b = e from mine,to_peer]
    exact outwards
  · rw [show ((c.put b e).post b frame).ends b = e from mine,to_me]
    exact inwards
  · rw [show ((c.put b e).post b frame).ends b = e from mine]
    exact store

theorem step_sound {event : Event α δ} (sound : c.Sound hash stores)
    (stepped : step hash c event = some c') : c'.Sound hash stores := by
  cases event with
  | ensure b pending =>
    simp only [step,ensure] at stepped
    split at stepped
    · split at stepped
      · cases stepped
      · obtain rfl := Option.some.inj stepped
        exact sound.put b ((sound.outwards b).stage rfl (by simp) fun _ => trivial)
          ((sound.flows b).receiver rfl rfl fun _ _ _ => rfl) (sound.stores b)
    · cases stepped
  | persisted b contents =>
    simp only [step,persisted] at stepped
    split at stepped
    · rename_i unique persisting
      have store := (sound.stores b).persist contents unique.entries
      split at stepped
      · obtain rfl := Option.some.inj stepped
        exact sound.put b ((sound.outwards b).stage rfl (by simp) fun _ => trivial)
          ((sound.flows b).receiver rfl rfl fun _ _ _ => rfl) store
      · obtain rfl := Option.some.inj stepped
        exact sound.post b ((sound.outwards b).asked rfl rfl)
          ((sound.flows b).receiver rfl rfl fun _ _ _ => rfl) store
    · cases stepped
  | replied b =>
    simp only [step,replied] at stepped
    split at stepped
    · rename_i unique requestId missing asking
      split at stepped
      · obtain rfl := Option.some.inj stepped
        exact sound.put b ((sound.outwards b).stage rfl (by simp) fun _ => trivial)
          ((sound.flows b).receiver rfl rfl fun _ _ _ => rfl) (sound.stores b)
      · rename_i offered
        obtain rfl := Option.some.inj stepped
        refine sound.put b ((sound.outwards b).stage rfl (by simp) fun opened => ?_)
          ((sound.flows b).receiver rfl rfl fun _ _ _ => rfl) (sound.stores b)
        have empty := (sound.outwards b).settled opened
        rw [asking] at empty
        intro digest inside
        refine empty digest ?_
        by_contra unknown
        exact offered (List.any_eq_true.mpr ⟨digest,inside,decide_eq_true unknown⟩)
    · cases stepped
  | next b size =>
    simp only [step,next] at stepped
    split at stepped
    · rename_i unique digest rest streaming
      obtain ⟨payload,_,rfl⟩ := Option.map_eq_some_iff.mp stepped
      refine sound.put b ((sound.outwards b).begins streaming ?_ rfl rfl)
        ((sound.flows b).receiver rfl rfl fun _ _ _ => rfl) (sound.stores b)
      rintro data rfl
      rfl
    · cases stepped
  | send b read =>
    simp only [step,send] at stepped
    split at stepped
    · rename_i unique out rest streaming
      obtain ⟨chunk,emitted,rfl⟩ := Option.map_eq_some_iff.mp stepped
      obtain ⟨mine,peer⟩ := ends_put (c := c) b { c.ends b with
        sending := .streaming unique (if chunk.last then none else some { out with
          offset := out.offset + chunk.bytes.length, index := out.index + 1 }) rest }
      refine sound.at b peer ?_ ?_ ?_
      · simp only [record,post,Function.update_self,Connection.put]
        exact (sound.outwards b).sends streaming emitted rfl rfl
      · simp only [record,post,Function.update_self,Connection.put,
          Function.update_of_ne (show b ≠ !b by simp)]
        exact (sound.flows b).receiver rfl rfl fun _ _ _ => rfl
      · simp only [record,post,Function.update_self,Connection.put]
        exact sound.stores b
    · cases stepped
  | leave b =>
    obtain rfl := Option.some.inj stepped
    exact sound.put b ((sound.outwards b).stage rfl (by simp) fun _ => trivial)
      ((sound.flows b).receiver rfl rfl fun _ _ _ => rfl) (sound.stores b)
  | read b =>
    simp only [step,read] at stepped
    split at stepped
    · rename_i frame rest opened ready wire
      obtain rfl := Option.some.inj stepped
      have inwards := sound.flows b
      rw [wire] at inwards
      obtain ⟨mine,peer⟩ := ends_put (c := c) b ((c.ends b).accept frame)
      refine sound.at b peer ?_ ?_ ?_
      · simp only [Connection.put,Function.update_self,Function.update_of_ne (show (!b) ≠ b by simp)]
        exact (sound.outwards b).accepted frame
      · simp only [Connection.put,Function.update_self]
        exact inwards.accept opened ready
      · simp only [Connection.put,Function.update_self]
        rw [accept_store]
        exact sound.stores b
    · cases stepped
  | answer b =>
    simp only [step,answer] at stepped
    split at stepped
    · split at stepped
      · obtain rfl := Option.some.inj stepped
        exact sound.put b ((sound.outwards b).sender rfl rfl)
          ((sound.flows b).receiver rfl rfl (by simp)) (sound.stores b)
      · obtain rfl := Option.some.inj stepped
        exact sound.post b (((sound.outwards b).answered _ _).sender rfl rfl)
          ((sound.flows b).receiver rfl rfl (by simp)) (sound.stores b)
    · cases stepped
  | landed b =>
    simp only [step,landed] at stepped
    split at stepped
    · obtain rfl := Option.some.inj stepped
      unfold BlobTransfer.land
      split
      · rename_i adopted
        exact sound.put b ((sound.outwards b).sender rfl rfl)
          ((sound.flows b).receiver rfl rfl (by simp)) ((sound.stores b).adopt adopted)
      · exact sound.put b
          ((sound.outwards b).stage rfl (by simp [BlobTransfer.close]) fun _ => trivial)
          ((sound.flows b).shut { (c.ends b).close with reading := .ready } rfl rfl (by simp) _)
          (sound.stores b)
    · cases stepped
  | close b =>
    obtain rfl := Option.some.inj stepped
    exact sound.put b ((sound.outwards b).stage rfl (by simp [BlobTransfer.close]) fun _ => trivial)
      ((sound.flows b).shut (c.ends b).close rfl rfl (fun _ _ _ => rfl) _) (sound.stores b)
  | store b data =>
    obtain rfl := Option.some.inj stepped
    exact sound.put b ((sound.outwards b).sender rfl rfl)
      ((sound.flows b).receiver rfl rfl fun _ _ _ => rfl) ((sound.stores b).set rfl)
  | evict b digest =>
    obtain rfl := Option.some.inj stepped
    exact sound.put b ((sound.outwards b).sender rfl rfl)
      ((sound.flows b).receiver rfl rfl fun _ _ _ => rfl) ((sound.stores b).erase digest)

theorem opened_sound (hash : List α → δ) (stores : Bool → Dict δ (List α)) :
    (opened stores).Sound hash stores :=
  ⟨fun _ => ⟨nofun,fun _ => .nil,nofun,fun _ _ => trivial,fun _ => trivial,nofun,nofun⟩,
    fun _ _ _ found => .inr found⟩

/-- A blob that begins to arrive finds no partial bytes, and every later chunk the earlier chunks
of the same stream. -/
theorem blobs_exact (hash : List α → δ) (stores : Bool → Dict δ (List α)) :
    (∀ data : List α, (chunksFrom data 0).flatMap (·.1) = data ∧
      ∃ n, (chunksFrom data 0).map (·.2) = List.replicate n false ++ [true]) ∧
    ∀ c, Transition.Reachable (step hash) (opened stores) c → ∀ b,
      Verified hash (stores b) (c.ends b).store ∧
      (∀ t, Exact (c.stream b t)) ∧
      (∀ digest state, (c.ends b).incoming.get? digest = some state →
        ∃ t, state.parts <+: c.stream b t) ∧
      (∀ digest state, (c.ends b).reading = .landing digest state →
        ∃ t, state.parts = c.stream b t) ∧
      (∀ chunk rest, c.wire b = .blobData chunk :: rest → (c.ends b).closed = false →
        buffered (c.ends b).incoming chunk.digest =
          (c.stream b chunk.transfer).take chunk.index ∧
        (c.stream b chunk.transfer)[chunk.index]? = some chunk) ∧
      (∀ requestId digests rest c', c.wire b = .blobQuery requestId digests :: rest →
        step hash c (.read b) = some c' →
        ∀ digest ∈ digests, (c'.ends b).incoming.get? digest = none) := by
  refine ⟨fun data => ⟨?_,chunksFrom_marks data 0⟩,fun c reached b => ?_⟩
  · exact (chunksFrom_flatMap data 0).trans List.drop_zero
  have sound : c.Sound hash stores := reached.invariant (Sound hash stores) (opened_sound hash stores)
    fun _ _ _ sound _ stepped => step_sound sound stepped
  have flow := sound.flows b
  refine ⟨sound.stores b,flow.exact,fun digest state found => (flow.held digest state found).2,
    fun digest state landing => ?_,fun chunk rest wire opened => ?_,?_⟩
  · obtain ⟨t,whole,_⟩ := flow.landing digest state landing
    exact ⟨t,whole⟩
  · have clean := flow.clean opened chunk.digest
    rw [wire] at clean
    exact clean.1 rfl
  · intro requestId digests rest c' wire stepped digest named
    simp only [step,read,wire] at stepped
    split at stepped
    · rename_i same
      obtain ⟨rfl,_⟩ := List.cons.inj same
      obtain rfl := Option.some.inj stepped
      simp only [Connection.put,Function.update_self]
      exact (get?_discard digests _ digest).trans (if_pos named)
    · cases stepped

/-- A file is streamed, abandoned after its first chunk, and streamed again to the end. -/
def resent : Connection Nat Nat :=
  Transition.offer (step List.sum) (opened fun _ => .empty)
    [.ensure true [(3,.file)],.persisted true fun _ => [1,2],.read false,.answer false,.read true,
      .replied true,.next true 2,.send true [1],.read false,.leave true,
      .ensure true [(3,.file)],.persisted true fun _ => [1,2],.read false,.answer false,.read true,
      .replied true,.next true 2,.send true [1],.read false,.send true [2],.read false,
      .landed false]

theorem blobs_exact_resent : Verified List.sum .empty (resent.ends false).store ∧
    (∀ t, Exact (resent.stream false t)) ∧ (resent.ends false).store.get? 3 = some [1,2] := by
  have exact_run := (blobs_exact List.sum fun _ => .empty).2 resent
    (Transition.reachable_offer _) false
  exact ⟨exact_run.1,exact_run.2.1,by decide +kernel⟩

end Connection

end Dinkster.Workers.Blobs
