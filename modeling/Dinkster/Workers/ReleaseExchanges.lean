import Dinkster.Workers.Release

/-! The exchanges of a release system: which commits are on their way, what they condemned, and what
the child still holds of it. -/
namespace Dinkster.Workers
open Memory Transition

def attempted (full : Bool) (selections : List Selection) (consumer : String) :
    List ReleaseCandidate :=
  if full then
    match selections.find? (·.consumer = consumer) with
    | some selection => if selection.status = .ready then selection.candidates else []
    | none => []
  else
    match selections.head? with
    | some selection => if selection.consumer = consumer then selection.candidates else []
    | none => []

def laneOf (full : Bool) (device : String) : String := if full then "ram" else device

/-- The child holds the resident behind a resource. -/
def Held (pools : Dict String ResidentPool) (resource : String) : Prop :=
  ∃ consumer pool rid, pools.get? consumer = some pool ∧ rid ∈ pool.objects.keys ∧
    resource = residentResourceId rid

theorem executePool_spec (full : Bool) (mechanisms : String → Mechanism) (device : String)
    (selections : List Selection) (consumer : String) (pool : ResidentPool) :
    (System.executePool full mechanisms device selections consumer pool).1 =
        (ResidentPool.attempts (mechanisms consumer) full (laneOf full device)
          (attempted full selections consumer) pool).1 ∧
      (System.executePool full mechanisms device selections consumer pool).2.consumer = consumer ∧
      (System.executePool full mechanisms device selections consumer pool).2.released =
        System.releasedResources (attempted full selections consumer)
          (ResidentPool.attempts (mechanisms consumer) full (laneOf full device)
            (attempted full selections consumer) pool).2.1 := by
  unfold System.executePool attempted laneOf
  cases full with
  | true =>
    simp only [if_true]
    unfold System.executeFull
    cases found : selections.find? (·.consumer = consumer) with
    | none => exact ⟨rfl,rfl,rfl⟩
    | some selection =>
      dsimp only
      by_cases ready : selection.status = .ready
      · have attempts := ResidentPool.releaseFull_attempts (m := mechanisms consumer) pool
          selection.candidates
        rw [if_pos ready,if_neg (by simp [ready]),if_neg (by simp [ready])]
        dsimp only
        rw [attempts.1,attempts.2]
        exact ⟨rfl,rfl,rfl⟩
      · rw [if_neg ready]
        by_cases failed : selection.status = .error
        · rw [if_pos failed]
          exact ⟨rfl,rfl,rfl⟩
        · rw [if_neg failed,if_pos ready]
          exact ⟨rfl,rfl,rfl⟩
  | false =>
    simp only [Bool.false_eq_true,if_false]
    cases found : selections.head? with
    | none => exact ⟨rfl,rfl,rfl⟩
    | some selection =>
      dsimp only
      unfold System.executeShed
      by_cases same : selection.consumer = consumer
      · rw [if_pos same,if_pos same]
        exact ⟨rfl,rfl,rfl⟩
      · rw [if_neg same,if_neg same]
        exact ⟨rfl,rfl,rfl⟩

def Honest (candidates : List ReleaseCandidate) : Prop :=
  ∀ c ∈ candidates, c.resourceId = residentResourceId c.itemId

theorem mem_releasedResources {candidates : List ReleaseCandidate} (honest : Honest candidates)
    {outcome : List (String × Nat)} {rid : String} (reported : rid ∈ outcome.map (·.1))
    (listed : rid ∈ candidates.map (·.itemId)) :
    residentResourceId rid ∈ System.releasedResources candidates outcome := by
  obtain ⟨e,inside,rfl⟩ := List.mem_map.mp reported
  obtain ⟨c,member,same⟩ := List.mem_map.mp listed
  obtain ⟨first,found⟩ : ∃ first, candidates.reverse.find? (·.itemId = e.1) = some first := by
    apply Option.isSome_iff_exists.mp
    apply List.find?_isSome.mpr
    exact ⟨c,List.mem_reverse.mpr member,decide_eq_true same⟩
  have item : first.itemId = e.1 := by simpa using List.find?_some found
  have resource := honest first (List.mem_reverse.mp (List.mem_of_find?_eq_some found))
  refine List.mem_filterMap.mpr ⟨e,inside,?_⟩
  rw [found,Option.map_some,resource,item]

def pinCount (runs : Dict Nat (List String)) (rid : String) : Nat := runs.total (List.count rid)

theorem pinCount_pos {runs : Dict Nat (List String)} {run : Nat} {rids : List String} {rid : String}
    (found : runs.get? run = some rids) (inside : rid ∈ rids) : 0 < pinCount runs rid := by
  have taken := runs.total_erase (List.count rid) run
  rw [found] at taken
  have here := List.count_pos_iff.mpr inside
  simp only [Option.map_some,Option.getD_some] at taken
  rw [pinCount]
  omega

theorem pinOutputs_spec (rids : List String) (p : ResourcePins) (pinned : List String) :
    ∃ more, (pinOutputs rids (p,pinned)).2 = pinned ++ more ∧ (∀ rid ∈ more, rid ∈ rids) ∧
      (pinOutputs rids (p,pinned)).1.condemned = p.condemned ∧
      (p.Exclusive → (pinOutputs rids (p,pinned)).1.Exclusive) ∧
      ∀ rid, (pinOutputs rids (p,pinned)).1.count rid = p.count rid + more.count rid := by
  induction rids generalizing p pinned with
  | nil => exact ⟨[],(List.append_nil _).symm,nofun,rfl,fun h => h,fun _ => rfl⟩
  | cons rid rest ih =>
    unfold pinOutputs
    cases accepted : p.pin rid with
    | none =>
      obtain ⟨more,listed,drawn,others⟩ := ih p pinned
      exact ⟨more,listed,fun other inside => List.mem_cons_of_mem _ (drawn other inside),others⟩
    | some q =>
      obtain ⟨_,same,counted⟩ := ResourcePins.pin_spec accepted
      obtain ⟨more,listed,drawn,kept,exclusive,counts⟩ := ih q (pinned ++ [rid])
      refine ⟨rid :: more,?_,?_,kept.trans same,?_,?_⟩
      · rw [listed,List.append_assoc,List.singleton_append]
      · intro other inside
        obtain rfl | later := List.mem_cons.mp inside
        · exact List.mem_cons_self
        · exact List.mem_cons_of_mem _ (drawn other later)
      · exact fun ex => exclusive (ResourcePins.exclusive_pin ex accepted)
      · intro other
        rw [counts other,counted other,List.count_cons,Nat.add_assoc]
        congr 1
        rw [Nat.add_comm]
        congr 1
        by_cases equal : other = rid
        · rw [if_pos equal,if_pos (by simp [equal])]
        · rw [if_neg equal,if_neg (by simpa using Ne.symm equal)]

theorem unpins_spec (pinned : List String) (p : ResourcePins) :
    (pinned.foldl ResourcePins.unpin p).condemned = p.condemned ∧
      (p.Exclusive → (pinned.foldl ResourcePins.unpin p).Exclusive) ∧
      ∀ rid, (pinned.foldl ResourcePins.unpin p).count rid = p.count rid - pinned.count rid := by
  induction pinned generalizing p with
  | nil => exact ⟨rfl,fun h => h,fun _ => rfl⟩
  | cons rid rest ih =>
    obtain ⟨kept,exclusive,counts⟩ := ih (p.unpin rid)
    refine ⟨kept.trans ResourcePins.condemned_unpin,
      fun ex => exclusive (ResourcePins.exclusive_unpin ex),?_⟩
    intro other
    rw [List.foldl_cons,counts other,ResourcePins.count_unpin,List.count_cons]
    by_cases equal : other = rid
    · rw [if_pos equal,if_pos (by simp [equal])]
      omega
    · rw [if_neg equal,if_neg (by simpa using Ne.symm equal)]
      omega

/-- The commit was sent. -/
def Flight.Sent (f : Flight) : Prop := ∀ proposals, f.stage ≠ .proposed proposals

structure Flight.Honest (f : Flight) : Prop where
  proposals : ∀ proposals, f.stage = .proposed proposals →
    ∀ p ∈ proposals, Workers.Honest p.candidates
  gates : ∀ g ∈ f.gates, Workers.Honest g.approved
  selections : ∀ selections, f.stage = .selected selections → ∀ sel ∈ selections,
    ∃ g ∈ f.gates, g.consumer = sel.consumer ∧ ∀ c ∈ sel.candidates, c ∈ g.approved

/-- The exchange is the parent's record of the flight. -/
inductive Flight.Carries : Flight → Exchange → Prop
  | shed (gate : Gate) (stage : Stage) (sent : ∀ proposals, stage ≠ .proposed proposals) :
      Flight.Carries ⟨false,[gate],stage⟩ (.shed gate.condemned)
  | full (x : FullExchange) (stage : Stage) (sent : ∀ proposals, stage ≠ .proposed proposals) :
      Flight.Carries ⟨true,x.gates,stage⟩ (.full x)

theorem Flight.Carries.sent {f : Flight} {x : Exchange} (carries : f.Carries x) : f.Sent := by
  cases carries with
  | shed _ _ sent => exact sent
  | full _ _ sent => exact sent

theorem Flight.Carries.condemned {f : Flight} {x : Exchange} (carries : f.Carries x) :
    x.condemned = f.gates.flatMap Gate.condemned := by
  cases carries with
  | shed gate => exact (List.append_nil _).symm
  | full x => rfl

/-- The report on the gate's consumer lists the resource. -/
def Reported (results : List ChildResult) (gate : Gate) (resource : String) : Prop :=
  ∃ child, results.find? (·.consumer = gate.consumer) = some child ∧ resource ∈ child.released

/-- What the child still holds of the resources of an exchange, while the parent waits. -/
def Flight.Vouched (f : Flight) (waiting : Prop) (condemned : Finset String)
    (held : String → Prop) : Prop :=
  match f.stage with
  | .proposed _ => ∀ r ∈ f.resources, held r ∨ r ∈ condemned
  | .answered results => waiting → ∀ gate ∈ f.gates, ∀ r ∈ gate.condemned,
      Reported results gate r ∨ held r
  | _ => waiting → ∀ r ∈ f.gates.flatMap Gate.condemned, held r

def Retired (exchanges : Dict Nat Exchange) (marked : Finset String) (resource : String) : Prop :=
  resource ∈ marked ∧ ∀ id x, exchanges.get? id = some x → resource ∉ x.condemned

structure Exchanging (exchanges : Dict Nat Exchange) (marked : Finset String)
    (flights : Dict Nat Flight) (held : String → Prop) : Prop where
  honest : ∀ id f, flights.get? id = some f → f.Honest
  linked : ∀ id x, exchanges.get? id = some x → ∃ f, flights.get? id = some f ∧ f.Carries x
  condemned : ∀ id f, flights.get? id = some f → f.Sent →
    ∀ r ∈ f.gates.flatMap Gate.condemned, r ∈ marked
  buried : ∀ id f, flights.get? id = some f → f.Sent → id ∉ exchanges.keys →
    ∀ r ∈ f.gates.flatMap Gate.condemned, ∀ other x, exchanges.get? other = some x →
      r ∉ x.condemned
  vouched : ∀ id f, flights.get? id = some f → f.Vouched (id ∈ exchanges.keys) marked held

variable {exchanges : Dict Nat Exchange} {marked : Finset String}
  {flights : Dict Nat Flight} {held held' : String → Prop} {id : Nat} {f g : Flight}

theorem Flight.Vouched.mono {waiting : Prop} (vouched : f.Vouched waiting marked held)
    (more : ∀ r, held r → held' r) : f.Vouched waiting marked held' := by
  unfold Flight.Vouched at vouched ⊢
  split
  · rename_i stage
    rw [stage] at vouched
    exact fun r inside => (vouched r inside).imp_left (more r)
  · rename_i stage
    rw [stage] at vouched
    exact fun waits gate inside r listed => (vouched waits gate inside r listed).imp_right (more r)
  · rename_i proposed answered
    split at vouched
    · exact absurd ‹_› (proposed _)
    · exact absurd ‹_› (answered _)
    · exact fun waits r inside => more r (vouched waits r inside)

theorem Exchanging.mono (inv : Exchanging exchanges marked flights held)
    (more : ∀ r, held r → held' r) : Exchanging exchanges marked flights held' where
  honest := inv.honest
  linked := inv.linked
  condemned := inv.condemned
  buried := inv.buried
  vouched := fun id f found => (inv.vouched id f found).mono more

theorem Exchanging.unsent (inv : Exchanging exchanges marked flights held)
    (unsent : ∀ f, flights.get? id = some f → ¬ f.Sent) : id ∉ exchanges.keys := by
  intro inside
  obtain ⟨x,outstanding⟩ := (Dict.mem_keys_iff _ _).mp inside
  obtain ⟨f,found,carries⟩ := inv.linked id x outstanding
  exact unsent f found carries.sent

private theorem get?_set_cases {d : Dict Nat Flight} {other : Nat} {f g : Flight}
    (found : (d.set id f).get? other = some g) :
    (other = id ∧ g = f) ∨ (other ≠ id ∧ d.get? other = some g) := by
  by_cases same : other = id
  · subst same
    rw [Dict.get?_set_self] at found
    exact .inl ⟨rfl,(Option.some.inj found).symm⟩
  · rw [Dict.get?_set_ne _ _ same] at found
    exact .inr ⟨same,found⟩

private theorem get?_erase_cases {ν : Type} {d : Dict Nat ν} {other : Nat} {v : ν}
    (found : (d.erase id).get? other = some v) : other ≠ id ∧ d.get? other = some v := by
  rw [Dict.get?_erase] at found
  split at found
  · cases found
  · exact ⟨‹_›,found⟩

theorem Exchanging.withFlight (inv : Exchanging exchanges marked flights held)
    (honest : f.Honest) (carries : ∀ x, exchanges.get? id = some x → f.Carries x)
    (sent : f.Sent → ∀ r ∈ f.gates.flatMap Gate.condemned, r ∈ marked ∧
      (id ∉ exchanges.keys → ∀ other x, exchanges.get? other = some x → r ∉ x.condemned))
    (vouched : f.Vouched (id ∈ exchanges.keys) marked held) :
    Exchanging exchanges marked (flights.set id f) held where
  honest := by
    intro other g found
    obtain ⟨_,rfl⟩ | ⟨_,before⟩ := get?_set_cases found
    · exact honest
    · exact inv.honest other g before
  linked := by
    intro other x outstanding
    by_cases same : other = id
    · subst same
      exact ⟨f,Dict.get?_set_self _ _ _,carries x outstanding⟩
    · rw [Dict.get?_set_ne _ _ same]
      exact inv.linked other x outstanding
  condemned := by
    intro other g found sentBefore r inside
    obtain ⟨_,rfl⟩ | ⟨_,before⟩ := get?_set_cases found
    · exact (sent sentBefore r inside).1
    · exact inv.condemned other g before sentBefore r inside
  buried := by
    intro other g found sentBefore closed r inside
    obtain ⟨rfl,rfl⟩ | ⟨_,before⟩ := get?_set_cases found
    · exact (sent sentBefore r inside).2 closed
    · exact inv.buried other g before sentBefore closed r inside
  vouched := by
    intro other g found
    obtain ⟨rfl,rfl⟩ | ⟨_,before⟩ := get?_set_cases found
    · exact vouched
    · exact inv.vouched other g before

theorem Exchanging.withoutFlight (inv : Exchanging exchanges marked flights held)
    (closed : id ∉ exchanges.keys) : Exchanging exchanges marked (flights.erase id) held where
  honest := fun other g found => inv.honest other g (get?_erase_cases found).2
  linked := by
    intro other x outstanding
    obtain ⟨g,found,carries⟩ := inv.linked other x outstanding
    refine ⟨g,?_,carries⟩
    rw [Dict.get?_erase,if_neg]
    · exact found
    · rintro rfl
      exact closed ((Dict.mem_keys_iff _ _).mpr ⟨x,outstanding⟩)
  condemned := fun other g found => inv.condemned other g (get?_erase_cases found).2
  buried := fun other g found => inv.buried other g (get?_erase_cases found).2
  vouched := fun other g found => inv.vouched other g (get?_erase_cases found).2

theorem Exchanging.lose (inv : Exchanging exchanges marked flights held) {x : Exchange}
    (outstanding : exchanges.get? id = some x)
    (apart : ∀ a b y z r, exchanges.get? a = some y → exchanges.get? b = some z →
      r ∈ y.condemned → r ∈ z.condemned → a = b) :
    Exchanging (exchanges.erase id) marked flights held where
  honest := inv.honest
  linked := fun other y found => inv.linked other y (get?_erase_cases found).2
  condemned := inv.condemned
  buried := by
    intro other g found sent closed r inside third z there listed
    obtain ⟨different,standing⟩ := get?_erase_cases there
    by_cases waits : other ∈ exchanges.keys
    · obtain rfl : other = id := by
        by_contra another
        exact closed ((Dict.mem_keys_erase _ _ _).mpr ⟨waits,another⟩)
      obtain ⟨g',found',carries⟩ := inv.linked _ x outstanding
      obtain rfl := Option.some.inj (found'.symm.trans found)
      rw [← carries.condemned] at inside
      exact different (apart third other z x r standing outstanding listed inside)
    · exact inv.buried other g found sent waits r inside third z standing listed
  vouched := by
    intro other g found
    have before := inv.vouched other g found
    have waits : other ∈ (exchanges.erase id).keys → other ∈ exchanges.keys :=
      fun inside => ((Dict.mem_keys_erase _ _ _).mp inside).1
    unfold Flight.Vouched at before ⊢
    split
    · rename_i stage
      rwa [stage] at before
    · rename_i stage
      rw [stage] at before
      exact fun inside => before (waits inside)
    · rename_i proposed answered
      split at before
      · exact absurd ‹_› (proposed _)
      · exact absurd ‹_› (answered _)
      · exact fun inside => before (waits inside)

theorem Exchanging.absolve (inv : Exchanging exchanges marked flights held) {left : Finset String}
    (covered : ∀ id f, flights.get? id = some f → f.Sent →
      ∀ r ∈ f.gates.flatMap Gate.condemned, r ∈ left)
    (absolved : ∀ r ∈ marked, r ∉ left → held r) : Exchanging exchanges left flights held where
  honest := inv.honest
  linked := inv.linked
  condemned := covered
  buried := inv.buried
  vouched := by
    intro other g found
    have before := inv.vouched other g found
    unfold Flight.Vouched at before ⊢
    split
    · rename_i stage
      rw [stage] at before
      intro r inside
      obtain there | was := before r inside
      · exact .inl there
      · by_cases kept : r ∈ left
        · exact .inr kept
        · exact .inl (absolved r was kept)
    · rename_i stage
      rwa [stage] at before
    · rename_i proposed answered
      split at before
      · exact absurd ‹_› (proposed _)
      · exact absurd ‹_› (answered _)
      · exact before

theorem Exchanging.condemn (inv : Exchanging exchanges marked flights held)
    {more : Finset String} (sub : ∀ r ∈ marked, r ∈ more) :
    Exchanging exchanges more flights held :=
  inv.absolve (fun id f found sent r inside => sub r (inv.condemned id f found sent r inside))
    fun r was gone => absurd (sub r was) gone

theorem Exchanging.settle (inv : Exchanging exchanges marked flights held) {x : Exchange}
    (outstanding : exchanges.get? id = some x)
    (apart : ∀ a b y z r, exchanges.get? a = some y → exchanges.get? b = some z →
      r ∈ y.condemned → r ∈ z.condemned → a = b) {left : Finset String}
    (kept : ∀ r ∈ marked, r ∉ x.condemned → r ∈ left)
    (absolved : ∀ r ∈ marked, r ∉ left → held r) :
    Exchanging (exchanges.erase id) left (flights.erase id) held := by
  have closed : id ∉ (exchanges.erase id).keys :=
    fun inside => ((Dict.mem_keys_erase _ _ _).mp inside).2 rfl
  apply ((inv.lose outstanding apart).withoutFlight closed).absolve _ absolved
  intro other g found sent r inside
  obtain ⟨different,found⟩ := get?_erase_cases found
  apply kept r (inv.condemned other g found sent r inside)
  intro listed
  by_cases waits : other ∈ exchanges.keys
  · obtain ⟨y,there⟩ := (Dict.mem_keys_iff _ _).mp waits
    obtain ⟨g',found',carries⟩ := inv.linked other y there
    obtain rfl := Option.some.inj (found'.symm.trans found)
    rw [← carries.condemned] at inside
    exact different (apart other id y x r there outstanding inside listed)
  · exact inv.buried other g found sent waits r inside id x outstanding listed

theorem Exchanging.opens (inv : Exchanging exchanges marked flights held) {x : Exchange}
    (unsent : id ∉ exchanges.keys) (carries : f.Carries x) (honest : f.Honest)
    (committed : f.stage = .committed) (innocent : ∀ r ∈ x.condemned, r ∉ marked)
    {more : Finset String} (grown : ∀ r, r ∈ more ↔ r ∈ marked ∨ r ∈ x.condemned)
    (there : ∀ r ∈ x.condemned, held r) :
    Exchanging (exchanges.set id x) more (flights.set id f) held where
  honest := by
    intro other g found
    obtain ⟨_,rfl⟩ | ⟨_,before⟩ := get?_set_cases found
    · exact honest
    · exact inv.honest other g before
  linked := by
    intro other y outstanding
    by_cases same : other = id
    · subst same
      rw [Dict.get?_set_self] at outstanding
      obtain rfl := Option.some.inj outstanding
      exact ⟨f,Dict.get?_set_self _ _ _,carries⟩
    · rw [Dict.get?_set_ne _ _ same] at outstanding ⊢
      exact inv.linked other y outstanding
  condemned := by
    intro other g found sent r inside
    apply (grown r).mpr
    obtain ⟨_,rfl⟩ | ⟨_,before⟩ := get?_set_cases found
    · rw [carries.condemned]
      exact .inr inside
    · exact .inl (inv.condemned other g before sent r inside)
  buried := by
    intro other g found sent closed r inside third y outstanding
    obtain ⟨rfl,_⟩ | ⟨_,before⟩ := get?_set_cases found
    · exact absurd ((Dict.mem_keys_set _ _ _ _).mpr (.inl rfl)) closed
    · by_cases same : third = id
      · subst same
        rw [Dict.get?_set_self] at outstanding
        obtain rfl := Option.some.inj outstanding
        exact fun listed => innocent r listed (inv.condemned other g before sent r inside)
      · rw [Dict.get?_set_ne _ _ same] at outstanding
        exact inv.buried other g before sent
          (fun was => closed ((Dict.mem_keys_set _ _ _ _).mpr (.inr was))) r inside third y outstanding
  vouched := by
    intro other g found
    obtain ⟨rfl,rfl⟩ | ⟨different,before⟩ := get?_set_cases found
    · unfold Flight.Vouched
      rw [committed]
      intro _ r inside
      rw [← carries.condemned] at inside
      exact there r inside
    · have sub : ∀ r ∈ marked, r ∈ more := fun r was => (grown r).mpr (.inl was)
      have old := (inv.condemn sub).vouched other g before
      have waits : other ∈ (exchanges.set id x).keys ↔ other ∈ exchanges.keys := by
        rw [Dict.mem_keys_set]
        exact or_iff_right different
      rwa [waits]

theorem Exchanging.executed (inv : Exchanging exchanges marked flights held)
    {selections : List Selection} {results : List ChildResult}
    (found : flights.get? id = some f) (selected : f.stage = .selected selections)
    (apart : ∀ a b y z r, exchanges.get? a = some y → exchanges.get? b = some z →
      r ∈ y.condemned → r ∈ z.condemned → a = b)
    (distinct : ∀ x, exchanges.get? id = some x → x.condemned.Nodup)
    (moves : ∀ other g, flights.get? other = some g →
      ((∃ proposals, g.stage = .proposed proposals) ∨ other ∈ exchanges.keys) →
      ∀ r ∈ g.resources, held r →
        held' r ∨ (∃ gate ∈ f.gates, r ∈ gate.condemned ∧ Reported results gate r) ∨
          Retired exchanges marked r) :
    Exchanging exchanges marked (flights.set id ⟨f.full,f.gates,.answered results⟩) held' := by
  have sent : f.Sent := fun proposals same => by rw [selected] at same; cases same
  have named {g : Flight} (sent : g.Sent) : g.resources = g.gates.flatMap Gate.condemned := by
    unfold Flight.resources
    split
    · exact absurd ‹_› (sent _)
    · rfl
  -- another exchange that waits shares no resource with this one
  have elsewhere {other : Nat} {g : Flight} {r : String} (different : other ≠ id)
      (there : flights.get? other = some g) (gsent : g.Sent) (waits : other ∈ exchanges.keys)
      (inside : r ∈ g.gates.flatMap Gate.condemned) : r ∉ f.gates.flatMap Gate.condemned := by
    intro mine
    obtain ⟨y,outstanding⟩ := (Dict.mem_keys_iff _ _).mp waits
    obtain ⟨g',there',carries⟩ := inv.linked other y outstanding
    obtain rfl := Option.some.inj (there'.symm.trans there)
    rw [← carries.condemned] at inside
    by_cases outstandingHere : id ∈ exchanges.keys
    · obtain ⟨x,mineOutstanding⟩ := (Dict.mem_keys_iff _ _).mp outstandingHere
      obtain ⟨f',found',carries'⟩ := inv.linked id x mineOutstanding
      obtain rfl := Option.some.inj (found'.symm.trans found)
      rw [← carries'.condemned] at mine
      exact different (apart other id y x r outstanding mineOutstanding inside mine)
    · exact inv.buried id f found sent outstandingHere r mine other y outstanding inside
  -- an exchange that waits retires nothing of its own
  have waiting {other : Nat} {g : Flight} {r : String} (there : flights.get? other = some g)
      (waits : other ∈ exchanges.keys) (inside : r ∈ g.gates.flatMap Gate.condemned) :
      ¬ Retired exchanges marked r := by
    obtain ⟨y,outstanding⟩ := (Dict.mem_keys_iff _ _).mp waits
    obtain ⟨g',there',carries⟩ := inv.linked other y outstanding
    obtain rfl := Option.some.inj (there'.symm.trans there)
    rw [← carries.condemned] at inside
    exact fun retired => retired.2 other y outstanding inside
  have old := inv.vouched
  refine ⟨?_,?_,?_,?_,?_⟩
  · intro other g there
    obtain ⟨_,rfl⟩ | ⟨_,before⟩ := get?_set_cases there
    · exact ⟨nofun,(inv.honest id f found).gates,nofun⟩
    · exact inv.honest other g before
  · intro other x outstanding
    by_cases same : other = id
    · subst same
      obtain ⟨f',found',carries⟩ := inv.linked _ x outstanding
      obtain rfl := Option.some.inj (found'.symm.trans found)
      refine ⟨_,Dict.get?_set_self _ _ _,?_⟩
      cases carries with
      | shed gate => exact .shed gate _ nofun
      | full x => exact .full x _ nofun
    · rw [Dict.get?_set_ne _ _ same]
      exact inv.linked other x outstanding
  · intro other g there gsent r inside
    obtain ⟨_,rfl⟩ | ⟨_,before⟩ := get?_set_cases there
    · exact inv.condemned id f found sent r inside
    · exact inv.condemned other g before gsent r inside
  · intro other g there gsent closed r inside
    obtain ⟨rfl,rfl⟩ | ⟨_,before⟩ := get?_set_cases there
    · exact inv.buried _ f found sent closed r inside
    · exact inv.buried other g before gsent closed r inside
  · intro other g there
    obtain ⟨rfl,rfl⟩ | ⟨different,before⟩ := get?_set_cases there
    · unfold Flight.Vouched
      intro waits gate inside r listed
      have member : r ∈ f.gates.flatMap Gate.condemned := List.mem_flatMap.mpr ⟨gate,inside,listed⟩
      have was := old _ f found
      unfold Flight.Vouched at was
      rw [selected] at was
      obtain kept | ⟨gate',inside',listed',reported⟩ | retired :=
        moves _ f found (.inr waits) r (by rwa [named sent]) (was waits r member)
      · exact .inr kept
      · obtain ⟨x,outstanding⟩ := (Dict.mem_keys_iff _ _).mp waits
        obtain ⟨f',found',carries⟩ := inv.linked _ x outstanding
        obtain rfl := Option.some.inj (found'.symm.trans found)
        have nodup := distinct x outstanding
        rw [carries.condemned] at nodup
        obtain rfl := unique_gate nodup inside inside' listed listed'
        exact .inl reported
      · exact absurd retired (waiting found waits member)
    · have was := old other g before
      have stays {r : String} (gsent : g.Sent) (waits : other ∈ exchanges.keys)
          (inside : r ∈ g.gates.flatMap Gate.condemned) (there : held r) : held' r := by
        obtain kept | ⟨gate,member,listed,_⟩ | retired :=
          moves other g before (.inr waits) r (by rwa [named gsent]) there
        · exact kept
        · exact absurd (List.mem_flatMap.mpr ⟨gate,member,listed⟩)
            (elsewhere different before gsent waits inside)
        · exact absurd retired (waiting before waits inside)
      unfold Flight.Vouched at was ⊢
      split
      · rename_i proposals stage
        rw [stage] at was
        intro r inside
        obtain there | marked := was r inside
        · obtain kept | ⟨gate,member,listed,_⟩ | retired :=
            moves other g before (.inl ⟨proposals,stage⟩) r inside there
          · exact .inl kept
          · exact .inr (inv.condemned id f found sent r (List.mem_flatMap.mpr ⟨gate,member,listed⟩))
          · exact .inr retired.1
        · exact .inr marked
      · rename_i answers stage
        rw [stage] at was
        intro waits gate inside r listed
        apply (was waits gate inside r listed).imp_right
        apply stays (fun proposals same => by rw [stage] at same; cases same) waits
        exact List.mem_flatMap.mpr ⟨gate,inside,listed⟩
      · rename_i proposed answered
        split at was
        · exact absurd ‹_› (proposed _)
        · exact absurd ‹_› (answered _)
        · exact fun waits r inside => stays proposed waits inside (was waits r inside)

end Dinkster.Workers
