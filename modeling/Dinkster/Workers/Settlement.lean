import Dinkster.Lib.Transition
import Dinkster.Workers.Gate

/-! Condemnations and their settlement. Several release exchanges share one registry of pins; each
condemns resources at its gate, and its validated reply decides what becomes of them. -/
namespace Dinkster.Workers
open Json Memory Transition

variable {κ : Type}

/-- A release whose commit is unanswered, with what it condemned. -/
inductive Exchange
  | shed (condemned : List String)
  | full (x : FullExchange)
  deriving DecidableEq

def Exchange.condemned : Exchange → List String
  | .shed condemned => condemned
  | .full x => x.gates.flatMap Gate.condemned

structure Parent (κ : Type) where
  pins : ResourcePins
  caches : κ
  exchanges : Dict Nat Exchange

namespace Parent

def initial (caches : κ) : Parent κ := ⟨.empty,caches,.empty⟩

/-- The gate of a partial release, and the candidates of its commit. Nothing is sent when no
candidate passed or a conversion raised. -/
def openShed (s : Parent κ) (id : Nat) (invalidators : List (Invalidator κ))
    (wires : List ShedWire) : Parent κ × List ReleaseCandidate :=
  let g := gateShed invalidators wires ⟨s.pins,s.caches,[],[],false⟩
  if g.raised ∨ g.safe = [] then ({ s with pins := g.pins, caches := g.caches },[])
  else (⟨g.pins,g.caches,s.exchanges.set id (.shed g.condemned)⟩,g.safe)

def openFull (s : Parent κ) (id : Nat) (invalidators : List (Invalidator κ))
    (proposals : List Proposal) (requestId workerInstance : String) (timedOut : Bool) :
    Parent κ × List Gate :=
  let (gates,pins,caches) := gateConsumers invalidators proposals s.pins s.caches
  (⟨pins,caches,s.exchanges.set id (.full ⟨requestId,workerInstance,timedOut,gates⟩)⟩,gates)

def closeShed (s : Parent κ) (id : Nat) (released : Option (List String)) : Option (Parent κ) :=
  match s.exchanges.get? id with
  | some (.shed condemned) => some { s with
      pins := match released with
        | some released => settleShed condemned released s.pins
        | none => s.pins
      exchanges := s.exchanges.erase id }
  | _ => none

def closeFull (s : Parent κ) (id : Nat) (results : Option (List ChildResult)) :
    Option (Parent κ) :=
  match s.exchanges.get? id with
  | some (.full x) => some { s with
      pins := match results with
        | some results => settleFull x results s.pins
        | none => s.pins
      exchanges := s.exchanges.erase id }
  | _ => none

end Parent

/-- What happens in the parent. A missing reply is a lost or cancelled round trip; `retire` is a
release by another owner that shares the registry. -/
inductive Event (κ : Type)
  | pin (rid : String)
  | unpin (rid : String)
  | retire (rid : String)
  | cache (next : κ)
  | gateShed (id : Nat) (invalidators : List (Invalidator κ)) (reply : Object)
  | gateFull (id : Nat) (invalidators : List (Invalidator κ)) (requestId workerInstance : String)
      (timedOut : Bool) (reply : Object)
  | settleShed (id : Nat) (reply : Option Object)
  | settleFull (id : Nat) (reply : Option Object)

/-- The results of a full release's reply, when the validation accepts it. -/
def Exchange.results : Exchange → Object → Option (List ChildResult)
  | .full x, commit => (readCommit x commit).map (·.2.2)
  | .shed _, _ => none

def step (py : Builtins) (s : Parent κ) : Event κ → Option (Parent κ)
  | .pin rid => (s.pins.pin rid).map fun pins => { s with pins := pins }
  | .unpin rid => some { s with pins := s.pins.unpin rid }
  | .retire rid => (s.pins.condemn rid).map fun pins => { s with pins := pins }
  | .cache next => some { s with caches := next }
  | .gateShed id invalidators reply =>
    if id ∈ s.exchanges.keys then none
    else
      match readShedCandidates py reply with
      | none => some s
      | some wires => some (s.openShed id invalidators wires).1
  | .gateFull id invalidators requestId workerInstance timedOut reply =>
    if id ∈ s.exchanges.keys then none
    else
      match readQuery requestId workerInstance reply with
      | .proposals _ proposals =>
        some (s.openFull id invalidators proposals requestId workerInstance timedOut).1
      | _ => some s
  | .settleShed id reply => s.closeShed id (reply.bind (readReleased py))
  | .settleFull id reply =>
    match s.exchanges.get? id with
    | none => none
    | some x => s.closeFull id (reply.bind x.results)

inductive Answer
  | shed (released : List String)
  | full (results : List ChildResult)

/-- The reply of the exchange `id` that an event brings, when it is validated. -/
def Exchange.answer (py : Builtins) (x : Exchange) (id : Nat) : Event κ → Option Answer
  | .settleShed other (some reply) =>
    match x with
    | .shed _ => if other = id then (readReleased py reply).map .shed else none
    | .full _ => none
  | .settleFull other (some reply) => if other = id then (x.results reply).map .full else none
  | _ => none

def Exchange.fate : Exchange → Answer → String → Fate
  | .shed _, .shed released, rid => if rid ∈ released then .released else .refused
  | .full x, .full results, rid => x.fate results rid
  | _, _, _ => .unproven

@[simp] theorem shed_fate (condemned released : List String) (rid : String) :
    (Exchange.shed condemned).fate (.shed released) rid =
      if rid ∈ released then .released else .refused := rfl

@[simp] theorem full_fate (x : FullExchange) (results : List ChildResult) (rid : String) :
    (Exchange.full x).fate (.full results) rid = x.fate results rid := rfl

/-- The report on the consumer of `rid` has status `complete` or `error` and leaves `rid` out. -/
def Exchange.Omits : Exchange → Answer → String → Prop
  | .full x, .full results, rid => ∃ gate ∈ x.gates, ∃ child ∈ results,
      rid ∈ gate.condemned ∧ child.consumer = gate.consumer ∧ rid ∉ child.released ∧
      (child.status = .complete ∨ child.status = .error)
  | _, _, _ => False

variable {py : Builtins} {invalidators : List (Invalidator κ)}

theorem unproven_omits {x : Exchange} {commit : Object} {results : List ChildResult}
    (read : x.results commit = some results) {rid : String} (inside : rid ∈ x.condemned)
    (fate : x.fate (.full results) rid = .unproven) : x.Omits (.full results) rid := by
  cases x with
  | shed condemned => cases read
  | full x =>
    obtain ⟨⟨status,error,_⟩,valid,rfl⟩ := Option.map_eq_some_iff.mp read
    obtain ⟨answered,stated⟩ := readCommit_spec valid
    obtain ⟨gate,member,listed⟩ := List.mem_flatMap.mp inside
    unfold Exchange.fate FullExchange.fate at fate
    dsimp only at fate
    split at fate
    · rename_i none
      have missed := List.find?_eq_none.mp none gate member
      simp [listed] at missed
    · rename_i gate found
      have listed : rid ∈ gate.condemned := by simpa using List.find?_some found
      have member := List.mem_of_find?_eq_some found
      obtain ⟨child,reported⟩ := answered gate member
      rw [reported] at fate
      dsimp only at fate
      split at fate
      · cases fate
      · rename_i unreleased
        split at fate
        · cases fate
        · rename_i accepted
          have here := List.mem_of_find?_eq_some reported
          have name : child.consumer = gate.consumer := by simpa using List.find?_some reported
          have ready := (stated child here).1
          refine ⟨gate,member,child,here,listed,name,unreleased,?_⟩
          unfold ChildResult.refuses at accepted
          cases status : child.status with
          | complete => exact .inl rfl
          | error => exact .inr rfl
          | ready => exact absurd status ready
          | busy => simp [status] at accepted
          | unsupported => simp [status] at accepted

/-- Outstanding exchanges condemned different resources, which stay condemned, and no condemned
resource is pinned. -/
structure Coherent (s : Parent κ) : Prop where
  condemned : ∀ id x, s.exchanges.get? id = some x → ∀ rid ∈ x.condemned, rid ∈ s.pins.condemned
  distinct : ∀ id x, s.exchanges.get? id = some x → x.condemned.Nodup
  apart : ∀ id id' x x' rid, s.exchanges.get? id = some x → s.exchanges.get? id' = some x' →
    rid ∈ x.condemned → rid ∈ x'.condemned → id = id'
  exclusive : s.pins.Exclusive

def Tombstone (rid : String) (s : Parent κ) : Prop :=
  rid ∈ s.pins.condemned ∧ ∀ id x, s.exchanges.get? id = some x → rid ∉ x.condemned

variable {s s' t : Parent κ} {id : Nat} {x : Exchange} {event : Event κ} {answer : Answer}

/-- How a step changes the condemnations and the outstanding exchanges. -/
inductive Change (s : Parent κ) : Parent κ → Prop
  | pins {after : Parent κ} (same : after.exchanges = s.exchanges)
      (kept : after.pins.condemned = s.pins.condemned)
      (exclusive : s.pins.Exclusive → after.pins.Exclusive) : Change s after
  | condemns {after : Parent κ} {rids : List String} (same : after.exchanges = s.exchanges)
      (condemns : Condemns s.pins rids after.pins) : Change s after
  | opens {after : Parent κ} {id : Nat} {x : Exchange} (fresh : id ∉ s.exchanges.keys)
      (same : after.exchanges = s.exchanges.set id x)
      (condemns : Condemns s.pins x.condemned after.pins) : Change s after
  | closes {after : Parent κ} {id : Nat} {x : Exchange}
      (outstanding : s.exchanges.get? id = some x)
      (same : after.exchanges = s.exchanges.erase id) (counts : after.pins.counts = s.pins.counts)
      (absolved : ∀ rid, rid ∈ after.pins.condemned → rid ∈ s.pins.condemned)
      (kept : ∀ rid ∈ s.pins.condemned, rid ∉ x.condemned → rid ∈ after.pins.condemned) :
      Change s after

theorem openShed_change (wires : List ShedWire) (fresh : id ∉ s.exchanges.keys) :
    Change s (s.openShed id invalidators wires).1 := by
  obtain ⟨rids,_,condemns,listed,_⟩ := gateShed_spec invalidators wires
    ⟨s.pins,s.caches,[],[],false⟩
  rw [List.nil_append] at listed
  unfold Parent.openShed
  dsimp only
  split
  · exact .condemns rfl condemns
  · refine .opens (x := .shed (gateShed invalidators wires ⟨s.pins,s.caches,[],[],false⟩).condemned)
      fresh rfl ?_
    rw [Exchange.condemned,listed]
    exact condemns

theorem openFull_change (proposals : List Proposal) (requestId workerInstance : String)
    (timedOut : Bool) (fresh : id ∉ s.exchanges.keys) :
    Change s (s.openFull id invalidators proposals requestId workerInstance timedOut).1 :=
  .opens fresh rfl (gateConsumers_spec invalidators proposals s.pins s.caches).2

theorem closeShed_change {released : Option (List String)}
    (closed : s.closeShed id released = some s') : Change s s' := by
  unfold Parent.closeShed at closed
  split at closed
  · rename_i condemned outstanding
    obtain rfl := Option.some.inj closed
    cases released with
    | none => exact .closes outstanding rfl rfl (fun _ h => h) (fun _ h _ => h)
    | some released =>
      refine .closes outstanding rfl (ResourcePins.counts_absolveAll _) ?_ ?_
      · exact fun rid held => ((mem_settleShed condemned released rid).mp held).1
      · intro rid held outside
        exact (mem_settleShed condemned released rid).mpr ⟨held,fun inside => absurd inside outside⟩
  · cases closed

theorem closeFull_change {results : Option (List ChildResult)}
    (closed : s.closeFull id results = some s') : Change s s' := by
  unfold Parent.closeFull at closed
  split at closed
  · rename_i x outstanding
    obtain rfl := Option.some.inj closed
    cases results with
    | none => exact .closes outstanding rfl rfl (fun _ h => h) (fun _ h _ => h)
    | some results =>
      refine .closes outstanding rfl (counts_settleFull x results) ?_ ?_
      · exact fun rid held => ((mem_settleFull x results rid).mp held).1
      · intro rid held outside
        refine (mem_settleFull x results rid).mpr ⟨held,?_⟩
        rintro gate inside ⟨child,_,_,listed,_⟩
        exact outside (List.mem_flatMap.mpr ⟨gate,inside,listed⟩)
  · cases closed

theorem step_change (taken : step py s event = some s') : Change s s' := by
  cases event with
  | pin rid =>
    obtain ⟨pins,pinned,rfl⟩ := Option.map_eq_some_iff.mp taken
    exact .pins rfl (ResourcePins.pin_spec pinned).2.1 fun ex => ResourcePins.exclusive_pin ex pinned
  | unpin rid =>
    obtain rfl := Option.some.inj taken
    exact .pins rfl ResourcePins.condemned_unpin ResourcePins.exclusive_unpin
  | retire rid =>
    obtain ⟨pins,condemned,rfl⟩ := Option.map_eq_some_iff.mp taken
    exact .condemns rfl (condemns_one condemned)
  | cache next =>
    obtain rfl := Option.some.inj taken
    exact .pins rfl rfl fun ex => ex
  | gateShed id invalidators reply =>
    unfold step at taken
    dsimp only at taken
    split at taken
    · cases taken
    · rename_i fresh
      split at taken
      · obtain rfl := Option.some.inj taken
        exact .pins rfl rfl fun ex => ex
      · obtain rfl := Option.some.inj taken
        exact openShed_change _ fresh
  | gateFull id invalidators requestId workerInstance timedOut reply =>
    unfold step at taken
    dsimp only at taken
    split at taken
    · cases taken
    · rename_i fresh
      split at taken
      · obtain rfl := Option.some.inj taken
        exact openFull_change _ _ _ _ fresh
      · obtain rfl := Option.some.inj taken
        exact .pins rfl rfl fun ex => ex
  | settleShed id reply => exact closeShed_change taken
  | settleFull id reply =>
    unfold step at taken
    dsimp only at taken
    split at taken
    · cases taken
    · exact closeFull_change taken

theorem Change.coherent (change : Change s s') (coherent : Coherent s) : Coherent s' := by
  cases change with
  | pins same kept exclusive =>
    refine ⟨?_,?_,?_,exclusive coherent.exclusive⟩
    · rw [same,kept]
      exact coherent.condemned
    · rw [same]
      exact coherent.distinct
    · rw [same]
      exact coherent.apart
  | condemns same condemns =>
    refine ⟨?_,?_,?_,condemns.exclusive coherent.exclusive⟩
    · rw [same]
      intro id x found rid inside
      exact (condemns.condemned rid).mpr (.inl (coherent.condemned id x found rid inside))
    · rw [same]
      exact coherent.distinct
    · rw [same]
      exact coherent.apart
  | @opens id x fresh same condemns =>
    have old {other : Nat} {y : Exchange} (found : s'.exchanges.get? other = some y) :
        (other = id ∧ y = x) ∨ (other ≠ id ∧ s.exchanges.get? other = some y) := by
      rw [same] at found
      by_cases equal : other = id
      · subst equal
        rw [Dict.get?_set_self] at found
        exact .inl ⟨rfl,(Option.some.inj found).symm⟩
      · rw [Dict.get?_set_ne _ _ equal] at found
        exact .inr ⟨equal,found⟩
    refine ⟨?_,?_,?_,condemns.exclusive coherent.exclusive⟩
    · intro other y found rid inside
      apply (condemns.condemned rid).mpr
      obtain ⟨_,rfl⟩ | ⟨_,before⟩ := old found
      · exact .inr inside
      · exact .inl (coherent.condemned other y before rid inside)
    · intro other y found
      obtain ⟨_,rfl⟩ | ⟨_,before⟩ := old found
      · exact condemns.distinct
      · exact coherent.distinct other y before
    · intro a b y z rid first second here there
      obtain ⟨rfl,rfl⟩ | ⟨_,before⟩ := old first
      · obtain ⟨rfl,_⟩ | ⟨_,later⟩ := old second
        · rfl
        · exact absurd (coherent.condemned b z later rid there) (condemns.innocent rid here).1
      · obtain ⟨rfl,rfl⟩ | ⟨_,later⟩ := old second
        · exact absurd (coherent.condemned a y before rid here) (condemns.innocent rid there).1
        · exact coherent.apart a b y z rid before later here there
  | @closes id x outstanding same counts absolved kept =>
    have old {other : Nat} {y : Exchange} (found : s'.exchanges.get? other = some y) :
        other ≠ id ∧ s.exchanges.get? other = some y := by
      rw [same,Dict.get?_erase] at found
      split at found
      · cases found
      · exact ⟨‹_›,found⟩
    refine ⟨?_,?_,?_,?_⟩
    · intro other y found rid inside
      obtain ⟨apart,before⟩ := old found
      refine kept rid (coherent.condemned other y before rid inside) ?_
      exact fun here => apart (coherent.apart other id y x rid before outstanding inside here)
    · exact fun other y found => coherent.distinct other y (old found).2
    · exact fun a b y z rid first second =>
        coherent.apart a b y z rid (old first).2 (old second).2
    · intro rid inside
      rw [ResourcePins.count,counts,← ResourcePins.count]
      exact coherent.exclusive rid (absolved rid inside)

theorem Change.tombstone (change : Change s s') {rid : String} (tomb : Tombstone rid s) :
    Tombstone rid s' := by
  obtain ⟨inside,outside⟩ := tomb
  cases change with
  | pins same kept _ =>
    refine ⟨kept ▸ inside,?_⟩
    rw [same]
    exact outside
  | condemns same condemns =>
    refine ⟨(condemns.condemned rid).mpr (.inl inside),?_⟩
    rw [same]
    exact outside
  | @opens id x fresh same condemns =>
    refine ⟨(condemns.condemned rid).mpr (.inl inside),?_⟩
    rw [same]
    intro other y found
    by_cases equal : other = id
    · subst equal
      rw [Dict.get?_set_self] at found
      obtain rfl := Option.some.inj found
      exact fun listed => (condemns.innocent rid listed).1 inside
    · rw [Dict.get?_set_ne _ _ equal] at found
      exact outside other y found
  | @closes id x outstanding same _ _ kept =>
    refine ⟨kept rid inside (outside id x outstanding),?_⟩
    rw [same]
    intro other y found
    rw [Dict.get?_erase] at found
    split at found
    · cases found
    · exact outside other y found

theorem initial_coherent (caches : κ) : Coherent (Parent.initial caches) where
  condemned := fun _ _ found => nomatch found
  distinct := fun _ _ found => nomatch found
  apart := fun _ _ _ _ _ found => nomatch found
  exclusive := fun _ inside => absurd inside (Finset.notMem_empty _)

theorem reachable_coherent {caches : κ}
    (reached : Reachable (step py) (Parent.initial caches) s) : Coherent s :=
  reached.invariant Coherent (initial_coherent caches)
    fun _ _ _ coherent _ taken => (step_change taken).coherent coherent

theorem reachable_tombstone {rid : String} (reached : Reachable (step py) s t)
    (tomb : Tombstone rid s) : Tombstone rid t :=
  reached.invariant (Tombstone rid) tomb fun _ _ _ tomb _ taken => (step_change taken).tombstone tomb

private theorem closed_tombstone (coherent : Coherent s) (outstanding : s.exchanges.get? id = some x)
    (erased : s'.exchanges = s.exchanges.erase id) {rid : String} (inside : rid ∈ x.condemned)
    (kept : rid ∈ s'.pins.condemned) : Tombstone rid s' := by
  refine ⟨kept,?_⟩
  rw [erased]
  intro other y found listed
  rw [Dict.get?_erase] at found
  split at found
  · cases found
  · rename_i apart
    exact apart (coherent.apart other id y x rid found outstanding listed inside)

private theorem shed_closed {condemned released : List String}
    (outstanding : s.exchanges.get? id = some (.shed condemned))
    (closed : s.closeShed id (some released) = some s') :
    s'.pins = settleShed condemned released s.pins ∧ s'.exchanges = s.exchanges.erase id := by
  unfold Parent.closeShed at closed
  rw [outstanding] at closed
  obtain rfl := Option.some.inj closed
  exact ⟨rfl,rfl⟩

private theorem full_closed {x : FullExchange} {results : List ChildResult}
    (outstanding : s.exchanges.get? id = some (.full x))
    (closed : s.closeFull id (some results) = some s') :
    s'.pins = settleFull x results s.pins ∧ s'.exchanges = s.exchanges.erase id := by
  unfold Parent.closeFull at closed
  rw [outstanding] at closed
  obtain rfl := Option.some.inj closed
  exact ⟨rfl,rfl⟩

private theorem settled_by_fate (coherent : Coherent s)
    (outstanding : s.exchanges.get? id = some x) (validated : x.answer py id event = some answer)
    (taken : step py s event = some s') :
    s'.exchanges = s.exchanges.erase id ∧
      (∀ rid ∈ x.condemned, rid ∈ s'.pins.condemned ↔ x.fate answer rid ≠ .refused) ∧
      (∀ rid ∈ x.condemned, x.fate answer rid = .unproven → x.Omits answer rid) ∧
      ∀ rid, rid ∉ x.condemned → (rid ∈ s'.pins.condemned ↔ rid ∈ s.pins.condemned) := by
  unfold Exchange.answer at validated
  split at validated
  · rename_i other reply
    split at validated
    · rename_i condemned
      split at validated
      · rename_i same
        subst same
        obtain ⟨released,read,rfl⟩ := Option.map_eq_some_iff.mp validated
        unfold step at taken
        dsimp only at taken
        rw [Option.bind_some,read] at taken
        obtain ⟨pins,erased⟩ := shed_closed outstanding taken
        refine ⟨erased,?_,?_,?_⟩
        · intro rid inside
          have held := coherent.condemned _ _ outstanding rid inside
          rw [pins,mem_settleShed,shed_fate]
          constructor
          · intro ⟨_,reported⟩
            rw [if_pos (reported inside)]
            exact nofun
          · intro fate
            refine ⟨held,?_⟩
            intro _
            by_contra unreported
            rw [if_neg unreported] at fate
            exact fate rfl
        · intro rid inside fate
          rw [shed_fate] at fate
          split at fate <;> cases fate
        · intro rid outside
          rw [pins,mem_settleShed]
          exact and_iff_left fun inside => absurd inside outside
      · cases validated
    · cases validated
  · rename_i other reply
    split at validated
    · rename_i same
      subst same
      obtain ⟨results,read,rfl⟩ := Option.map_eq_some_iff.mp validated
      unfold step at taken
      dsimp only at taken
      rw [outstanding] at taken
      dsimp only at taken
      rw [Option.bind_some,read] at taken
      cases x with
      | shed condemned => cases read
      | full x =>
        obtain ⟨pins,erased⟩ := full_closed outstanding taken
        refine ⟨erased,?_,?_,?_⟩
        · intro rid inside
          have held := coherent.condemned _ _ outstanding rid inside
          have refused := fate_refused (coherent.distinct _ _ outstanding) results inside
          rw [pins,mem_settleFull,full_fate,ne_eq,refused]
          push Not
          exact and_iff_right held
        · exact fun rid inside => unproven_omits read inside
        · intro rid outside
          rw [pins,mem_settleFull]
          refine and_iff_left ?_
          rintro gate member ⟨child,_,_,listed,_⟩
          exact outside (List.mem_flatMap.mpr ⟨gate,member,listed⟩)
    · cases validated
  · cases validated

/-- Whatever an exchange condemned is settled by its validated reply: reported resources stay
condemned for good, refused ones are absolved, and the ones left out by a consumer that completed
or failed stay condemned for good as well. Nothing else changes. -/
theorem condemned_settled {caches : κ}
    (reached : Reachable (step py) (Parent.initial caches) s)
    (outstanding : s.exchanges.get? id = some x) (validated : x.answer py id event = some answer)
    (taken : step py s event = some s') :
    (∀ rid ∈ x.condemned,
      (x.fate answer rid = .released →
        ∀ t, Reachable (step py) s' t → rid ∈ t.pins.condemned) ∧
      (x.fate answer rid = .refused → rid ∉ s'.pins.condemned) ∧
      (x.fate answer rid = .unproven → x.Omits answer rid ∧
        ∀ t, Reachable (step py) s' t → rid ∈ t.pins.condemned)) ∧
    ∀ rid, rid ∉ x.condemned → (rid ∈ s'.pins.condemned ↔ rid ∈ s.pins.condemned) := by
  have coherent := reachable_coherent reached
  obtain ⟨erased,fates,omits,others⟩ := settled_by_fate coherent outstanding validated taken
  have permanent {rid : String} (inside : rid ∈ x.condemned) (fate : x.fate answer rid ≠ .refused) :
      ∀ t, Reachable (step py) s' t → rid ∈ t.pins.condemned := by
    intro t later
    have kept := (fates rid inside).mpr fate
    exact (reachable_tombstone later (closed_tombstone coherent outstanding erased inside kept)).1
  refine ⟨?_,others⟩
  intro rid inside
  refine ⟨?_,?_,?_⟩
  · intro fate
    exact permanent inside (by rw [fate]; exact nofun)
  · intro fate kept
    exact (fates rid inside).mp kept fate
  · intro fate
    exact ⟨omits rid inside fate,permanent inside (by rw [fate]; exact nofun)⟩

/-- `str` and `int` on the values that a worker sends. -/
def plainBuiltins : Builtins where
  str := fun
    | .str s => s
    | .int n => toString n
    | .bool true => "True"
    | .bool false => "False"
    | _ => "None"
  int := fun
    | .int n => some n
    | .bool b => some (if b then 1 else 0)
    | _ => none
  str_text := fun _ => rfl
  int_int := fun _ => rfl

def unaryUuids : Uuids where
  text := fun n => String.ofList (List.replicate (n + 1) 'r')
  distinct := by
    intro a b same
    have lengths := congrArg (fun s : String => s.toList.length) same
    simpa using lengths

/-- A worker's pool with one resident, whose terminal release raises. -/
def failingPool : ResidentPool := (ResidentPool.ridFor unaryUuids (.mk 1 .empty false []) .empty).1

def failingMechanism : Mechanism := ⟨fun _ => true,fun _ => true,fun _ => none,fun _ => true⟩

def fullHeader (kind : String) (consumers : List Json.Value) : Object :=
  [("type",.str kind),("operationRequestId",.str "op"),("workerInstance",.str "w"),
    ("status",.str "complete"),("consumers",.arr consumers)]

def failedQuery : Object := fullHeader "memoryFreeCandidates" [.obj [("consumer",.str "pool"),
  ("status",.str "ready"),("candidates",.arr [.obj [("itemId",.str "r"),
    ("resourceId",.str "resident:r"),("nbytes",.int 0),("token",.str "1")]])]]

def failedCommit : Object := fullHeader "memoryFreeResult" [.obj [("consumer",.str "pool"),
  ("status",.str "error"),("error",.str "resident r terminal release failed"),
  ("released",.arr [])]]

def failedGate : Event Unit := .gateFull 0 [] "op" "w" false failedQuery

/-- The child still holds the resident, its validated reply does not report it, and the parent
keeps it condemned. -/
theorem failedCommit_keeps_condemned :
    ResidentPool.proposeFullRelease failingPool = [⟨"r","resident:r",0,"1"⟩] ∧
    (failingPool.releaseFull failingMechanism [⟨"r","resident:r",0,"1"⟩]).2 =
      ([],.error,some "resident r terminal release failed") ∧
    "r" ∈ (failingPool.releaseFull failingMechanism [⟨"r","resident:r",0,"1"⟩]).1.objects.keys ∧
    ∃ s s' x answer, Reachable (step plainBuiltins) (Parent.initial ()) s ∧
      s.exchanges.get? 0 = some x ∧
      x.answer plainBuiltins 0 (.settleFull 0 (some failedCommit) : Event Unit) = some answer ∧
      step plainBuiltins s (.settleFull 0 (some failedCommit)) = some s' ∧
      "resident:r" ∈ x.condemned ∧ x.fate answer "resident:r" ≠ .released ∧
      "resident:r" ∈ s'.pins.condemned := by
  refine ⟨by decide +kernel,by decide +kernel,by decide +kernel,?_⟩
  have opened : (offer (step plainBuiltins) (Parent.initial ()) [failedGate]).exchanges.get? 0 =
      some (.full ⟨"op","w",false,[⟨"pool",.ready,[⟨"r","resident:r",0,"1"⟩],.complete,none⟩]⟩) := by
    decide +kernel
  have read : (readCommit ⟨"op","w",false,
      [⟨"pool",.ready,[⟨"r","resident:r",0,"1"⟩],.complete,none⟩]⟩ failedCommit).map (·.2.2) =
      some [⟨"pool",.error,[],some "resident r terminal release failed"⟩] := by
    decide +kernel
  have settled : ((step plainBuiltins (offer (step plainBuiltins) (Parent.initial ()) [failedGate])
      (.settleFull 0 (some failedCommit))).map fun s' => decide ("resident:r" ∈ s'.pins.condemned)) =
      some true := by
    decide +kernel
  obtain ⟨s',taken,kept⟩ := Option.map_eq_some_iff.mp settled
  refine ⟨_,s',_,.full [⟨"pool",.error,[],some "resident r terminal release failed"⟩],
    reachable_offer [failedGate],opened,?_,taken,by decide +kernel,by decide +kernel,
    of_decide_eq_true kept⟩
  exact Option.map_eq_some_iff.mpr ⟨_,read,rfl⟩

def shedQuery : Object := [("candidates",.arr [.obj [("itemId",.str "r"),
  ("resourceId",.str "resident:r"),("nbytes",.int 5),("token",.str "1")]])]

theorem condemned_settled_refused : ∃ s s', Reachable (step plainBuiltins) (Parent.initial ()) s ∧
    step plainBuiltins s (.settleShed 0 (some [])) = some s' ∧
    "resident:r" ∈ s.pins.condemned ∧ "resident:r" ∉ s'.pins.condemned := by
  have opened : (offer (step plainBuiltins) (Parent.initial ())
      [.gateShed 0 [] shedQuery]).exchanges.get? 0 = some (.shed ["resident:r"]) := by
    decide +kernel
  have held : "resident:r" ∈ (offer (step plainBuiltins) (Parent.initial ())
      [.gateShed 0 [] shedQuery]).pins.condemned := by
    decide +kernel
  obtain ⟨s',taken⟩ : ∃ s', step plainBuiltins (offer (step plainBuiltins) (Parent.initial ())
      [.gateShed 0 [] shedQuery]) (.settleShed 0 (some [])) = some s' := by
    apply Option.isSome_iff_exists.mp
    decide +kernel
  refine ⟨_,s',reachable_offer [.gateShed 0 [] shedQuery],taken,held,?_⟩
  have validated : (Exchange.shed ["resident:r"]).answer plainBuiltins 0
      (.settleShed 0 (some []) : Event Unit) = some (.shed []) := rfl
  have settled := condemned_settled (reachable_offer _) opened validated taken
  exact (settled.1 "resident:r" (by decide)).2.1 (by decide)

end Dinkster.Workers
