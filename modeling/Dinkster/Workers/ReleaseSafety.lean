import Dinkster.Workers.ReleaseExchanges

/-! No release drops a resource in use, as long as no commit takes along a resident that the parent
could know. What a commit names stays condemned, unpinned and out of every cache, and what the
child refuses it still holds. -/
namespace Dinkster.Workers
open Memory Transition

def System.Pending (s : System) (id : Nat) (f : Flight) : Prop :=
  (∃ proposals, f.stage = .proposed proposals) ∨ id ∈ s.parent.exchanges.keys

/-- The parent does not know the resident: it is retired, or neither a value nor a release in
progress has named it. -/
def System.Loose (s : System) (rid : String) : Prop :=
  Retired s.parent.exchanges s.parent.pins.condemned (residentResourceId rid) ∨
    (residentResourceId rid ∉ s.named ∧ ∀ id f, s.flights.get? id = some f → s.Pending id f →
      residentResourceId rid ∉ f.resources)

/-- Whatever a commit takes along with a released resident is loose. -/
def System.Separates (s : System) : Action → Prop
  | .execute id device mechanisms => ∀ f selections, s.flights.get? id = some f →
      f.stage = .selected selections → ∀ consumer pool, s.pools.get? consumer = some pool →
        ResidentPool.Separate s.Loose (mechanisms consumer) f.full (laneOf f.full device)
          (attempted f.full selections consumer) pool
  | _ => True

variable {draws : Draws} {caches : Nat} {s s' t : System} {id : Nat} {f : Flight}

private theorem invalidateAll_sub {invalidators : List (Invalidator (List CacheEntry))}
    (shrink : ∀ invalidate ∈ invalidators, ∀ rid entries, ∀ e ∈ (invalidate rid entries).1,
      e ∈ entries) (rid : String) (entries : List CacheEntry) :
    ∀ e ∈ (invalidateAll invalidators rid entries).1, e ∈ entries := by
  induction invalidators generalizing entries with
  | nil => exact fun e inside => inside
  | cons invalidate rest ih =>
    have first := shrink invalidate List.mem_cons_self rid entries
    unfold invalidateAll
    split
    · rename_i after error result
      rw [result] at first
      exact first
    · rename_i after result
      rw [result] at first
      intro e inside
      exact first e (ih (fun i member => shrink i (List.mem_cons_of_mem _ member)) after e inside)

private theorem dropReferencing_sub (fails : Nat → String → Option String) (cache : Nat)
    (rid : String) (entries : List CacheEntry) :
    ∀ e ∈ (dropReferencing fails cache rid entries).1, e ∈ entries := by
  unfold dropReferencing
  split
  · exact fun e inside => inside
  · exact fun e inside => List.mem_of_mem_filter inside

private theorem mapped_sub (fails : Nat → String → Option String) (indices : List Nat)
    (rid : String) (entries : List CacheEntry) :
    ∀ e ∈ (invalidateAll (indices.map (dropReferencing fails)) rid entries).1, e ∈ entries := by
  apply invalidateAll_sub
  intro invalidate member
  obtain ⟨cache,_,rfl⟩ := List.mem_map.mp member
  exact dropReferencing_sub fails cache

theorem invalidators_sub (fails : Nat → String → Option String) (caches : Nat) (rid : String)
    (entries : List CacheEntry) :
    ∀ e ∈ (invalidateAll (invalidators fails caches) rid entries).1, e ∈ entries :=
  mapped_sub fails (List.range caches) rid entries

private theorem invalidateAll_clears (fails : Nat → String → Option String) (rid : String)
    (indices : List Nat) {entries after : List CacheEntry}
    (cleared : invalidateAll (indices.map (dropReferencing fails)) rid entries = (after,none)) :
    ∀ e ∈ after, rid ∈ e.refs → e.cache ∉ indices := by
  induction indices generalizing entries with
  | nil => exact fun _ _ _ => List.not_mem_nil
  | cons cache rest ih =>
    rw [List.map_cons,invalidateAll] at cleared
    split at cleared
    · cases cleared
    · rename_i left result
      intro e inside refers member
      obtain rfl | later := List.mem_cons.mp member
      · have before : e ∈ left := by
          have sub := mapped_sub fails rest rid left
          rw [cleared] at sub
          exact sub e inside
        unfold dropReferencing at result
        split at result
        · cases result
        · obtain rfl := congrArg Prod.fst result
          have passed := (List.mem_filter.mp before).2
          simp [refers] at passed
      · exact ih cleared e inside refers later

theorem invalidators_cover (fails : Nat → String → Option String) (caches : Nat) :
    Covers (invalidators fails caches)
      fun rid entries => ∀ e ∈ entries, rid ∈ e.refs → ¬ e.cache < caches where
  clears := by
    intro rid entries after cleared e inside refers low
    exact invalidateAll_clears fails rid _ cleared e inside refers (List.mem_range.mpr low)
  keeps := by
    intro rid other entries clear e inside
    exact clear e (invalidators_sub fails caches rid entries e inside)

/-- The counts are those of the runs, and pins and cache entries name what values have named. No
cache entry refers to a condemned resource. -/
structure Accounted (caches : Nat) (pins : ResourcePins) (runs : Dict Nat (List String))
    (entries : List CacheEntry) (named : Finset String) : Prop where
  counted : ∀ rid, pins.count rid = pinCount runs rid
  pinned : ∀ run rids, runs.get? run = some rids → ∀ rid ∈ rids, rid ∈ named
  clean : ∀ e ∈ entries, e.cache < caches ∧ ∀ rid ∈ e.refs, rid ∈ named ∧ rid ∉ pins.condemned

structure Safe (draws : Draws) (caches : Nat) (s : System) : Prop where
  coherent : Coherent s.parent
  accounted : Accounted caches s.parent.pins s.runs s.parent.caches s.named
  sound : ∀ consumer pool, s.pools.get? consumer = some pool → pool.Sound (draws.of consumer)
  exchanging : Exchanging s.parent.exchanges s.parent.pins.condemned s.flights (Held s.pools)

theorem Safe.runs (safe : Safe draws caches s) {pins : ResourcePins} {entries : List CacheEntry}
    {runs : Dict Nat (List String)} (kept : pins.condemned = s.parent.pins.condemned)
    (exclusive : pins.Exclusive) (accounted : Accounted caches pins runs entries s.named) :
    Safe draws caches { s with
      parent := { s.parent with pins := pins, caches := entries }
      runs := runs } where
  coherent := by
    refine ⟨?_,safe.coherent.distinct,safe.coherent.apart,exclusive⟩
    intro id x outstanding rid inside
    dsimp only
    rw [kept]
    exact safe.coherent.condemned id x outstanding rid inside
  accounted := accounted
  sound := safe.sound
  exchanging := by
    dsimp only
    rw [kept]
    exact safe.exchanging

theorem pin_safe (safe : Safe draws caches s) (run : Nat) {rids : List String}
    (named : ∀ rid ∈ rids, rid ∈ s.named) : Safe draws caches { s with
      parent := { s.parent with
        pins := (pinOutputs rids (s.parent.pins,(s.runs.get? run).getD [])).1 }
      runs := s.runs.set run (pinOutputs rids (s.parent.pins,(s.runs.get? run).getD [])).2 } := by
  obtain ⟨more,listed,drawn,kept,exclusive,counts⟩ :=
    pinOutputs_spec rids s.parent.pins ((s.runs.get? run).getD [])
  refine safe.runs kept (exclusive safe.coherent.exclusive) ⟨?_,?_,?_⟩
  · intro rid
    have before := safe.accounted.counted rid
    have taken := s.runs.total_erase (List.count rid) run
    rw [counts rid,pinCount,Dict.total_set,listed,List.count_append]
    rw [pinCount] at before
    cases found : s.runs.get? run with
    | none =>
      rw [found] at taken
      simp only [Option.map_none,Option.getD_none,List.count_nil] at taken ⊢
      omega
    | some old =>
      rw [found] at taken
      simp only [Option.map_some,Option.getD_some] at taken ⊢
      omega
  · intro other held found rid inside
    by_cases same : other = run
    · subst same
      rw [Dict.get?_set_self] at found
      obtain rfl := Option.some.inj found
      rw [listed,List.mem_append] at inside
      obtain old | new := inside
      · cases before : s.runs.get? other with
        | none =>
          rw [before] at old
          cases old
        | some pinned =>
          rw [before] at old
          exact safe.accounted.pinned other pinned before rid old
      · exact named rid (drawn rid new)
    · rw [Dict.get?_set_ne _ _ same] at found
      exact safe.accounted.pinned other held found rid inside
  · intro e inside
    rw [kept]
    exact safe.accounted.clean e inside

theorem finish_safe (safe : Safe draws caches s) {run : Nat} {pinned : List String}
    (found : s.runs.get? run = some pinned) : Safe draws caches { s with
      parent := { s.parent with pins := pinned.foldl ResourcePins.unpin s.parent.pins }
      runs := s.runs.erase run } := by
  obtain ⟨kept,exclusive,counts⟩ := unpins_spec pinned s.parent.pins
  refine safe.runs kept (exclusive safe.coherent.exclusive) ⟨?_,?_,?_⟩
  · intro rid
    have before := safe.accounted.counted rid
    have taken := s.runs.total_erase (List.count rid) run
    rw [found] at taken
    simp only [Option.map_some,Option.getD_some] at taken
    rw [counts rid,pinCount]
    rw [pinCount] at before
    omega
  · intro other held there
    rw [Dict.get?_erase] at there
    split at there
    · cases there
    · exact safe.accounted.pinned other held there
  · intro e inside
    rw [kept]
    exact safe.accounted.clean e inside

theorem Safe.innocent (safe : Safe draws caches s) {run : Nat} {rids : List String} {rid : String}
    (found : s.runs.get? run = some rids) (inside : rid ∈ rids) :
    rid ∉ s.parent.pins.condemned := by
  intro condemned
  have none := safe.coherent.exclusive rid condemned
  rw [safe.accounted.counted rid] at none
  have some := pinCount_pos found inside
  omega

theorem put_safe (safe : Safe draws caches s) {run cache : Nat} {key : String}
    {refs : List String} (low : cache < caches)
    (pinned : ∀ rid ∈ refs, rid ∈ (s.runs.get? run).getD []) : Safe draws caches { s with
      parent := { s.parent with
        caches := (s.parent.caches.filter fun e => !(e.cache == cache && e.key == key)) ++
          [⟨cache,key,refs⟩] } } := by
  refine safe.runs rfl safe.coherent.exclusive ⟨safe.accounted.counted,safe.accounted.pinned,?_⟩
  intro e inside
  obtain old | new := List.mem_append.mp inside
  · exact safe.accounted.clean e (List.mem_of_mem_filter old)
  · obtain rfl := List.mem_singleton.mp new
    refine ⟨low,?_⟩
    intro rid refers
    have held := pinned rid refers
    cases found : s.runs.get? run with
    | none =>
      rw [found] at held
      cases held
    | some rids =>
      rw [found] at held
      exact ⟨safe.accounted.pinned run rids found rid held,safe.innocent found held⟩

theorem evict_safe (safe : Safe draws caches s) (keep : CacheEntry → Bool) :
    Safe draws caches { s with
      parent := { s.parent with caches := s.parent.caches.filter keep } } := by
  refine safe.runs rfl safe.coherent.exclusive ⟨safe.accounted.counted,safe.accounted.pinned,?_⟩
  exact fun e inside => safe.accounted.clean e (List.mem_of_mem_filter inside)

theorem held_set {pools : Dict String ResidentPool} {uuids : Uuids} {consumer : String}
    {pool q : ResidentPool} (found : pools.get? consumer = some pool) (grows : pool.Grows uuids q)
    {resource : String} (held : Held pools resource) : Held (pools.set consumer q) resource := by
  obtain ⟨other,old,rid,there,inside,same⟩ := held
  by_cases equal : other = consumer
  · subst equal
    obtain rfl := Option.some.inj (found.symm.trans there)
    exact ⟨other,q,rid,Dict.get?_set_self _ _ _,grows.objects rid inside,same⟩
  · exact ⟨other,old,rid,by rwa [Dict.get?_set_ne _ _ equal],inside,same⟩

theorem use_safe (safe : Safe draws caches s) {consumer : String} {pool q : ResidentPool}
    (found : s.pools.get? consumer = some pool) (grows : pool.Grows (draws.of consumer) q)
    {named held : Finset String} (more : s.named ⊆ named) : Safe draws caches { s with
      pools := s.pools.set consumer q
      named := named
      held := held } where
  coherent := safe.coherent
  accounted := by
    refine ⟨safe.accounted.counted,?_,?_⟩
    · exact fun run rids there rid inside =>
        more (safe.accounted.pinned run rids there rid inside)
    · intro e inside
      obtain ⟨low,refers⟩ := safe.accounted.clean e inside
      exact ⟨low,fun rid listed => ⟨more (refers rid listed).1,(refers rid listed).2⟩⟩
  sound := by
    intro other old there
    by_cases equal : other = consumer
    · subst equal
      rw [Dict.get?_set_self] at there
      obtain rfl := Option.some.inj there
      exact (safe.sound other pool found).grows grows
    · rw [Dict.get?_set_ne _ _ equal] at there
      exact safe.sound other old there
  exchanging := safe.exchanging.mono fun _ held => held_set found grows held

theorem Safe.flying (safe : Safe draws caches s) {flights : Dict Nat Flight}
    (exchanging : Exchanging s.parent.exchanges s.parent.pins.condemned flights (Held s.pools)) :
    Safe draws caches { s with flights := flights } :=
  ⟨safe.coherent,safe.accounted,safe.sound,exchanging⟩

private theorem proposes_held {pools : Dict String ResidentPool} {consumer : String}
    {pool : ResidentPool} {uuids : Uuids} (found : pools.get? consumer = some pool)
    (sound : pool.Sound uuids) {c : ReleaseCandidate} (proposes : pool.Proposes c) :
    Held pools c.resourceId :=
  ⟨consumer,pool,c.itemId,found,sound.entries _ proposes.1,proposes.2⟩

theorem propose_safe (safe : Safe draws caches s) (fresh : id ∉ s.flights.keys) (full : Bool)
    {proposals : List Proposal} (drawn : ∀ p ∈ proposals, ∀ c ∈ p.candidates,
      ∃ consumer pool, s.pools.get? consumer = some pool ∧ pool.Proposes c) :
    Safe draws caches (s.withFlight id ⟨full,[],.proposed proposals⟩) := by
  have unsent : id ∉ s.parent.exchanges.keys := by
    apply safe.exchanging.unsent
    intro f found
    exact absurd ((Dict.mem_keys_iff _ _).mpr ⟨f,found⟩) fresh
  apply safe.flying
  refine safe.exchanging.withFlight ⟨?_,List.forall_mem_nil _,fun _ same => by cases same⟩ ?_ ?_ ?_
  · intro others same p inside c listed
    obtain rfl := Stage.proposed.inj same
    obtain ⟨_,_,_,proposes⟩ := drawn p inside c listed
    exact proposes.2
  · intro x outstanding
    exact absurd ((Dict.mem_keys_iff _ _).mpr ⟨x,outstanding⟩) unsent
  · intro sent
    exact absurd rfl (sent proposals)
  · intro r inside
    obtain ⟨p,member,listed⟩ := List.mem_flatMap.mp inside
    obtain ⟨c,chosen,rfl⟩ := List.mem_map.mp listed
    obtain ⟨consumer,pool,found,proposes⟩ := drawn p member c chosen
    exact .inl (proposes_held found (safe.sound consumer pool found) proposes)

theorem shedProposal_drawn {consumer device : String} {bytesNeeded : Int}
    {items : Option (List String)} : ∀ p ∈ [s.shedProposal consumer device bytesNeeded items],
      ∀ c ∈ p.candidates, ∃ consumer pool, s.pools.get? consumer = some pool ∧ pool.Proposes c := by
  intro p inside c listed
  obtain rfl := List.mem_singleton.mp inside
  unfold System.shedProposal at listed
  dsimp only at listed
  split at listed
  · rename_i pool found
    exact ⟨consumer,pool,found,ResidentPool.mem_proposeRelease (List.mem_of_mem_filter listed)⟩
  · cases listed

theorem fullProposals_drawn {active : Bool} :
    ∀ p ∈ s.pools.entries.map fun e => s.fullProposal active e.1 e.2,
      ∀ c ∈ p.candidates, ∃ consumer pool, s.pools.get? consumer = some pool ∧ pool.Proposes c := by
  intro p inside c listed
  obtain ⟨e,member,rfl⟩ := List.mem_map.mp inside
  unfold System.fullProposal at listed
  split at listed
  · cases listed
  · refine ⟨e.1,e.2,(Dict.get?_eq_some_iff _ _ _).mpr member,?_⟩
    exact ResidentPool.mem_proposeFullRelease (List.mem_of_mem_filter listed)

private theorem not_sent {proposals : List Proposal} (stage : f.stage = .proposed proposals) :
    ¬ f.Sent := fun sent => sent proposals stage

theorem abandon_safe (safe : Safe draws caches s) {proposals : List Proposal}
    (found : s.flights.get? id = some f) (stage : f.stage = .proposed proposals) :
    Safe draws caches (s.withoutFlight id) := by
  apply safe.flying
  apply safe.exchanging.withoutFlight
  apply safe.exchanging.unsent
  intro g there
  obtain rfl := Option.some.inj (there.symm.trans found)
  exact not_sent stage

theorem selection_drawn {held : Finset String} {active : Bool} {consumers : List String}
    {gates : List Gate} {full : Bool} : ∀ sel ∈ (if full then System.selectFull held active consumers gates
      else gates.map (System.selectShed held)),
      ∃ g ∈ gates, g.consumer = sel.consumer ∧ ∀ c ∈ sel.candidates, c ∈ g.approved := by
  intro sel inside
  cases full with
  | true =>
    rw [if_pos rfl] at inside
    unfold System.selectFull at inside
    split at inside
    · obtain ⟨g,member,rfl⟩ := List.mem_map.mp inside
      refine ⟨g,member,?_⟩
      split
      · exact ⟨rfl,nofun⟩
      · exact ⟨rfl,fun c listed => List.mem_of_mem_filter listed⟩
    · cases inside
  | false =>
    rw [if_neg Bool.false_ne_true] at inside
    obtain ⟨g,member,rfl⟩ := List.mem_map.mp inside
    exact ⟨g,member,rfl,fun c listed => List.mem_of_mem_filter listed⟩

theorem read_safe (safe : Safe draws caches s) (found : s.flights.get? id = some f)
    (stage : f.stage = .committed) {selections : List Selection} (drawn : ∀ sel ∈ selections,
      ∃ g ∈ f.gates, g.consumer = sel.consumer ∧ ∀ c ∈ sel.candidates, c ∈ g.approved) :
    Safe draws caches (s.withFlight id ⟨f.full,f.gates,.selected selections⟩) := by
  have sent : f.Sent := fun proposals same => by rw [stage] at same; cases same
  apply safe.flying
  refine safe.exchanging.withFlight ⟨nofun,(safe.exchanging.honest id f found).gates,?_⟩ ?_ ?_ ?_
  · intro others same
    obtain rfl := Stage.selected.inj same
    exact drawn
  · intro x outstanding
    obtain ⟨g,there,carries⟩ := safe.exchanging.linked id x outstanding
    obtain rfl := Option.some.inj (there.symm.trans found)
    cases carries with
    | shed gate => exact .shed gate _ nofun
    | full x => exact .full x _ nofun
  · intro _ r inside
    exact ⟨safe.exchanging.condemned id f found sent r inside,
      fun closed => safe.exchanging.buried id f found sent closed r inside⟩
  · have before := safe.exchanging.vouched id f found
    unfold Flight.Vouched at before
    rw [stage] at before
    exact before

/-- A gate condemned some of the offered resources, after clearing the caches of them. -/
structure Opened (s : System) (resources : List String) (caches : Nat)
    (after : Parent (List CacheEntry)) : Prop where
  condemns : ∃ rids, Condemns s.parent.pins rids after.pins ∧ (∀ r ∈ rids, r ∈ resources) ∧
    ∀ r ∈ rids, ∀ e ∈ after.caches, r ∈ e.refs → ¬ e.cache < caches
  caches : ∀ e ∈ after.caches, e ∈ s.parent.caches

theorem Opened.accounted (safe : Safe draws caches s) {resources : List String}
    {after : Parent (List CacheEntry)} (opened : Opened s resources caches after) :
    Accounted caches after.pins s.runs after.caches s.named := by
  obtain ⟨rids,condemns,_,cleared⟩ := opened.condemns
  refine ⟨?_,safe.accounted.pinned,?_⟩
  · intro rid
    rw [ResourcePins.count,condemns.counts,← ResourcePins.count]
    exact safe.accounted.counted rid
  · intro e inside
    obtain ⟨low,refers⟩ := safe.accounted.clean e (opened.caches e inside)
    refine ⟨low,?_⟩
    intro rid listed
    refine ⟨(refers rid listed).1,?_⟩
    intro condemned
    obtain old | new := (condemns.condemned rid).mp condemned
    · exact (refers rid listed).2 old
    · exact cleared rid new e inside listed low

theorem openShed_opened {fails : Nat → String → Option String}
    {candidates safe : List ReleaseCandidate} {after : Parent (List CacheEntry)}
    (opens : s.parent.openShed id (invalidators fails caches)
      (candidates.map System.toShedWire) = (after,safe)) :
    Opened s (candidates.map (·.resourceId)) caches after ∧ (∀ c ∈ safe, c ∈ candidates) ∧
      ((safe = [] ∧ after.exchanges = s.parent.exchanges) ∨
        (safe ≠ [] ∧ after.exchanges =
            s.parent.exchanges.set id (.shed (safe.map (·.resourceId))) ∧
          Condemns s.parent.pins (safe.map (·.resourceId)) after.pins)) := by
  have cover := invalidators_cover fails caches
  have clears (r : String) : r ∈ _ → _ := gateShed_clears cover (candidates.map System.toShedWire)
    ⟨s.parent.pins,s.parent.caches,[],[],false⟩
  have sub := gateShed_keeps (P := fun entries => ∀ e ∈ entries, e ∈ s.parent.caches)
    (fun rid entries within e inside => within e (invalidators_sub fails caches rid entries e inside))
    (candidates.map System.toShedWire) ⟨s.parent.pins,s.parent.caches,[],[],false⟩
    fun e inside => inside
  obtain ⟨rids,chosen,condemns,listed,kept,same,origin,drawn⟩ :=
    gateShed_spec (invalidators fails caches) (candidates.map System.toShedWire) ⟨s.parent.pins,s.parent.caches,[],[],false⟩
  rw [List.nil_append] at listed kept
  have offered : ∀ r ∈ rids, r ∈ candidates.map (·.resourceId) := by
    intro r inside
    obtain ⟨wire,member,rfl⟩ := origin r inside
    obtain ⟨c,listed,rfl⟩ := List.mem_map.mp member
    exact List.mem_map_of_mem listed
  have cleared : ∀ r ∈ rids, ∀ e ∈ (gateShed (invalidators fails caches)
      (candidates.map System.toShedWire) ⟨s.parent.pins,s.parent.caches,[],[],false⟩).caches,
      r ∈ e.refs → ¬ e.cache < caches := by
    intro r inside
    exact (clears r (by rwa [listed])).resolve_left List.not_mem_nil
  have members : ∀ c ∈ chosen, c ∈ candidates := by
    intro c inside
    obtain ⟨wire,member,bytes,named⟩ := drawn c inside
    obtain ⟨c',offered,rfl⟩ := List.mem_map.mp member
    have bytes : c'.nbytes = c.nbytes := Option.some.inj bytes
    rw [named,← bytes]
    exact offered
  unfold Parent.openShed at opens
  dsimp only at opens
  split at opens
  · obtain ⟨rfl,rfl⟩ := Prod.mk.inj opens
    exact ⟨⟨⟨rids,condemns,offered,cleared⟩,sub⟩,nofun,.inl ⟨rfl,rfl⟩⟩
  · rename_i going
    rw [not_or] at going
    obtain ⟨rfl,rfl⟩ := Prod.mk.inj opens
    rw [kept] at going ⊢
    have matched := same (Bool.eq_false_iff.mpr going.1)
    refine ⟨⟨⟨rids,condemns,offered,cleared⟩,sub⟩,members,.inr ⟨going.2,?_,?_⟩⟩
    · rw [matched,listed]
    · rw [matched]
      exact condemns

theorem openFull_opened {fails : Nat → String → Option String} {proposals : List Proposal}
    {requestId workerInstance : String} {timedOut : Bool} {after : Parent (List CacheEntry)}
    {gates : List Gate} (opens : s.parent.openFull id (invalidators fails caches) proposals requestId
      workerInstance timedOut = (after,gates)) :
    Opened s (proposals.flatMap fun p => p.candidates.map (·.resourceId)) caches after ∧
      (∀ g ∈ gates, ∃ p ∈ proposals, ∀ c ∈ g.approved, c ∈ p.candidates) ∧
      after.exchanges = s.parent.exchanges.set id
        (.full ⟨requestId,workerInstance,timedOut,gates⟩) ∧
      Condemns s.parent.pins (gates.flatMap Gate.condemned) after.pins := by
  have cover := invalidators_cover fails caches
  have clears (rid : String) : rid ∈ _ → _ := gateConsumers_clears cover proposals s.parent.pins
    s.parent.caches
  have sub := gateConsumers_keeps (P := fun entries => ∀ e ∈ entries, e ∈ s.parent.caches)
    (fun rid entries within e inside => within e (invalidators_sub fails caches rid entries e inside))
    proposals s.parent.pins fun e inside => inside
  have condemns := (gateConsumers_spec (invalidators fails caches) proposals s.parent.pins
    s.parent.caches).2
  obtain ⟨rfl,rfl⟩ := Prod.mk.inj opens
  have members := gateConsumers_drawn (invalidators fails caches) proposals s.parent.pins
    s.parent.caches
  refine ⟨⟨⟨_,condemns,?_,clears⟩,sub⟩,members,rfl,condemns⟩
  intro r inside
  obtain ⟨g,member,listed⟩ := List.mem_flatMap.mp inside
  obtain ⟨p,offered,within⟩ := members g member
  obtain ⟨c,approved,rfl⟩ := List.mem_map.mp listed
  exact List.mem_flatMap.mpr ⟨p,offered,List.mem_map_of_mem (within c approved)⟩

theorem idle_safe (safe : Safe draws caches s) {resources : List String}
    {after : Parent (List CacheEntry)} (opened : Opened s resources caches after)
    (same : after.exchanges = s.parent.exchanges) :
    Safe draws caches { s with parent := after } := by
  obtain ⟨rids,condemns,_,_⟩ := opened.condemns
  refine ⟨?_,opened.accounted safe,safe.sound,?_⟩
  · exact (Change.condemns same condemns).coherent safe.coherent
  · dsimp only
    rw [same]
    apply safe.exchanging.condemn
    exact fun r inside => (condemns.condemned r).mpr (.inl inside)

theorem committed_safe (safe : Safe draws caches s) {proposals : List Proposal}
    (found : s.flights.get? id = some f) (stage : f.stage = .proposed proposals)
    {after : Parent (List CacheEntry)} {x : Exchange} {sent : Flight} {resources : List String}
    (opened : Opened s resources caches after) (carries : sent.Carries x)
    (committed : sent.stage = .committed)
    (same : after.exchanges = s.parent.exchanges.set id x)
    (condemns : Condemns s.parent.pins x.condemned after.pins)
    (drawn : ∀ g ∈ sent.gates, ∃ p ∈ proposals, ∀ c ∈ g.approved, c ∈ p.candidates) :
    Safe draws caches ({ s with parent := after }.withFlight id sent) := by
  have unsent : id ∉ s.parent.exchanges.keys := by
    apply safe.exchanging.unsent
    intro g there
    obtain rfl := Option.some.inj (there.symm.trans found)
    exact not_sent stage
  have honest := safe.exchanging.honest id f found
  refine ⟨?_,opened.accounted safe,safe.sound,?_⟩
  · exact (Change.opens unsent same condemns).coherent safe.coherent
  · unfold System.withFlight
    dsimp only
    rw [same]
    refine safe.exchanging.opens unsent carries ⟨?_,?_,?_⟩ committed
      (fun r inside => (condemns.innocent r inside).1) condemns.condemned ?_
    · intro others again
      rw [committed] at again
      cases again
    · intro g inside c approved
      obtain ⟨p,member,within⟩ := drawn g inside
      exact honest.proposals proposals stage p member c (within c approved)
    · intro selections again
      rw [committed] at again
      cases again
    · intro r inside
      have vouched := safe.exchanging.vouched id f found
      unfold Flight.Vouched at vouched
      rw [stage] at vouched
      have listed := inside
      rw [carries.condemned] at listed
      obtain ⟨g,member,here⟩ := List.mem_flatMap.mp listed
      obtain ⟨p,offered,within⟩ := drawn g member
      obtain ⟨c,approved,rfl⟩ := List.mem_map.mp here
      have named : c.resourceId ∈ f.resources := by
        unfold Flight.resources
        rw [stage]
        exact List.mem_flatMap.mpr ⟨p,offered,List.mem_map_of_mem (within c approved)⟩
      exact (vouched _ named).resolve_right (condemns.innocent _ inside).1

theorem closed_safe (safe : Safe draws caches s) {x : Exchange} {pins : ResourcePins}
    (outstanding : s.parent.exchanges.get? id = some x) (counts : pins.counts = s.parent.pins.counts)
    (fewer : ∀ r ∈ pins.condemned, r ∈ s.parent.pins.condemned)
    (kept : ∀ r ∈ s.parent.pins.condemned, r ∉ x.condemned → r ∈ pins.condemned)
    (absolved : ∀ r ∈ s.parent.pins.condemned, r ∉ pins.condemned → Held s.pools r) :
    Safe draws caches ({ s with parent := { s.parent with
      pins := pins
      exchanges := s.parent.exchanges.erase id } }.withoutFlight id) where
  coherent := (Change.closes outstanding rfl counts fewer kept).coherent safe.coherent
  accounted := by
    refine ⟨?_,safe.accounted.pinned,?_⟩
    · intro rid
      unfold System.withoutFlight
      dsimp only
      rw [ResourcePins.count,counts,← ResourcePins.count]
      exact safe.accounted.counted rid
    · intro e inside
      obtain ⟨low,refers⟩ := safe.accounted.clean e inside
      refine ⟨low,?_⟩
      exact fun rid listed => ⟨(refers rid listed).1,fun was => (refers rid listed).2 (fewer rid was)⟩
  sound := safe.sound
  exchanging := safe.exchanging.settle outstanding safe.coherent.apart kept absolved

theorem settle_absolves (safe : Safe draws caches s) {results : List ChildResult}
    (found : s.flights.get? id = some f) (stage : f.stage = .answered results) {x : Exchange}
    (outstanding : s.parent.exchanges.get? id = some x) {r : String} (listed : r ∈ x.condemned)
    (unreported : ∀ gate ∈ f.gates, r ∈ gate.condemned → ¬ Reported results gate r) :
    Held s.pools r := by
  have vouched := safe.exchanging.vouched id f found
  unfold Flight.Vouched at vouched
  rw [stage] at vouched
  obtain ⟨g,there,carries⟩ := safe.exchanging.linked id x outstanding
  obtain rfl := Option.some.inj (there.symm.trans found)
  rw [carries.condemned] at listed
  obtain ⟨gate,inside,here⟩ := List.mem_flatMap.mp listed
  have waits := (Dict.mem_keys_iff _ _).mpr ⟨x,outstanding⟩
  exact (vouched waits gate inside r here).resolve_left (unreported gate inside here)

private theorem mem_shedReleased {gate : Gate} (only : f.gates = [gate])
    (results : List ChildResult) (r : String) :
    r ∈ System.shedReleased f results ↔ Reported results gate r := by
  unfold System.shedReleased Reported
  rw [only]
  dsimp only [List.head?_cons]
  cases found : results.find? (·.consumer = gate.consumer) with
  | none => simp
  | some child => simp

private theorem shed_carries {condemned : List String} (carries : f.Carries (.shed condemned)) :
    ∃ gate, f.gates = [gate] ∧ condemned = gate.condemned := by
  cases carries with
  | shed gate => exact ⟨gate,rfl,rfl⟩

private theorem full_carries {x : FullExchange} (carries : f.Carries (.full x)) :
    f.gates = x.gates := by
  cases carries with
  | full => rfl

/-- The parent after a settlement: an exchange is closed, its reported resources stay condemned,
and what is absolved the child holds. -/
theorem settled_parent (safe : Safe draws caches s) {results : List ChildResult}
    (found : s.flights.get? id = some f) (stage : f.stage = .answered results)
    {after : Parent (List CacheEntry)}
    (closed : (if f.full then s.parent.closeFull id (some results)
      else s.parent.closeShed id (some (System.shedReleased f results))) = some after) :
    ∃ x pins, s.parent.exchanges.get? id = some x ∧
      after = { s.parent with pins := pins, exchanges := s.parent.exchanges.erase id } ∧
      pins.counts = s.parent.pins.counts ∧
      (∀ r ∈ pins.condemned, r ∈ s.parent.pins.condemned) ∧
      (∀ r ∈ s.parent.pins.condemned, r ∉ x.condemned → r ∈ pins.condemned) ∧
      (∀ r ∈ s.parent.pins.condemned, r ∉ pins.condemned → Held s.pools r) ∧
      ∀ r ∈ s.parent.pins.condemned,
        (∃ gate ∈ f.gates, r ∈ gate.condemned ∧ Reported results gate r) → r ∈ pins.condemned := by
  split at closed
  · unfold Parent.closeFull at closed
    split at closed
    · rename_i x outstanding
      obtain rfl := Option.some.inj closed
      obtain ⟨g,there,carries⟩ := safe.exchanging.linked id _ outstanding
      obtain rfl := Option.some.inj (there.symm.trans found)
      have gates := full_carries carries
      refine ⟨.full x,_,outstanding,rfl,counts_settleFull x results,?_,?_,?_,?_⟩
      · exact fun r inside => ((mem_settleFull x results r).mp inside).1
      · intro r inside outside
        refine (mem_settleFull x results r).mpr ⟨inside,?_⟩
        intro gate member ⟨_,_,_,listed,_⟩
        exact outside (List.mem_flatMap.mpr ⟨gate,member,listed⟩)
      · intro r was gone
        have refused : ∃ gate ∈ x.gates, RefusedAt results r gate := by
          by_contra none
          apply gone
          refine (mem_settleFull x results r).mpr ⟨was,?_⟩
          exact fun gate member refused => none ⟨gate,member,refused⟩
        obtain ⟨gate,member,child,answer,_,listed,unreleased⟩ := refused
        have here : r ∈ x.gates.flatMap Gate.condemned := List.mem_flatMap.mpr ⟨gate,member,listed⟩
        apply settle_absolves safe found stage outstanding here
        intro other inside listed' ⟨child',answer',released⟩
        rw [gates] at inside
        obtain rfl := unique_gate (safe.coherent.distinct id _ outstanding) inside member listed' listed
        obtain rfl := Option.some.inj (answer.symm.trans answer')
        exact unreleased released
      · intro r was ⟨gate,inside,listed,child,answer,released⟩
        refine (mem_settleFull x results r).mpr ⟨was,?_⟩
        intro other member ⟨child',answer',_,listed',unreleased⟩
        rw [gates] at inside
        obtain rfl := unique_gate (safe.coherent.distinct id _ outstanding) inside member listed listed'
        obtain rfl := Option.some.inj (answer.symm.trans answer')
        exact unreleased released
    · cases closed
  · unfold Parent.closeShed at closed
    split at closed
    · rename_i condemned outstanding
      obtain rfl := Option.some.inj closed
      obtain ⟨g,there,carries⟩ := safe.exchanging.linked id _ outstanding
      obtain rfl := Option.some.inj (there.symm.trans found)
      obtain ⟨gate,only,rfl⟩ := shed_carries carries
      refine ⟨.shed gate.condemned,_,outstanding,rfl,ResourcePins.counts_absolveAll _,?_,?_,?_,?_⟩
      · exact fun r inside => ((mem_settleShed _ _ r).mp inside).1
      · exact fun r inside outside =>
          (mem_settleShed _ _ r).mpr ⟨inside,fun listed => absurd listed outside⟩
      · intro r was gone
        have refused : r ∈ gate.condemned ∧ r ∉ System.shedReleased g results := by
          by_contra none
          apply gone
          refine (mem_settleShed _ _ r).mpr ⟨was,?_⟩
          intro listed
          by_contra unreleased
          exact none ⟨listed,unreleased⟩
        apply settle_absolves safe found stage outstanding refused.1
        intro other inside _ reported
        rw [only,List.mem_singleton] at inside
        subst inside
        exact refused.2 ((mem_shedReleased only results r).mpr reported)
      · intro r was ⟨other,inside,_,reported⟩
        rw [only,List.mem_singleton] at inside
        subst inside
        exact (mem_settleShed _ _ r).mpr ⟨was,fun _ => (mem_shedReleased only results r).mpr reported⟩
    · cases closed

theorem settled_late (safe : Safe draws caches s) {results : List ChildResult}
    (found : s.flights.get? id = some f)
    (closed : (if f.full then s.parent.closeFull id (some results)
      else s.parent.closeShed id (some (System.shedReleased f results))) = none) :
    id ∉ s.parent.exchanges.keys := by
  intro waits
  obtain ⟨x,outstanding⟩ := (Dict.mem_keys_iff _ _).mp waits
  obtain ⟨g,there,carries⟩ := safe.exchanging.linked id x outstanding
  obtain rfl := Option.some.inj (there.symm.trans found)
  cases carries with
  | shed gate =>
    rw [if_neg Bool.false_ne_true] at closed
    unfold Parent.closeShed at closed
    rw [outstanding] at closed
    cases closed
  | full x =>
    rw [if_pos rfl] at closed
    unfold Parent.closeFull at closed
    rw [outstanding] at closed
    cases closed

theorem lost_parent {after : Parent (List CacheEntry)}
    (lost : (if f.full then s.parent.closeFull id none else s.parent.closeShed id none) =
      some after) : ∃ x, s.parent.exchanges.get? id = some x ∧
      after = { s.parent with exchanges := s.parent.exchanges.erase id } := by
  split at lost
  · unfold Parent.closeFull at lost
    split at lost
    · obtain rfl := Option.some.inj lost
      exact ⟨_,‹_›,rfl⟩
    · cases lost
  · unfold Parent.closeShed at lost
    split at lost
    · obtain rfl := Option.some.inj lost
      exact ⟨_,‹_›,rfl⟩
    · cases lost

theorem lose_safe (safe : Safe draws caches s) {x : Exchange}
    (outstanding : s.parent.exchanges.get? id = some x) : Safe draws caches { s with
      parent := { s.parent with exchanges := s.parent.exchanges.erase id } } where
  coherent := by
    have change : Change s.parent { s.parent with exchanges := s.parent.exchanges.erase id } :=
      .closes outstanding rfl rfl (fun _ inside => inside) fun _ inside _ => inside
    exact change.coherent safe.coherent
  accounted := safe.accounted
  sound := safe.sound
  exchanging := safe.exchanging.lose outstanding safe.coherent.apart

theorem find_resultsOf {execute : String → ResidentPool → ResidentPool × ChildResult}
    (names : ∀ consumer pool, (execute consumer pool).2.consumer = consumer)
    {pools : Dict String ResidentPool} {consumer : String} {pool : ResidentPool}
    (found : pools.get? consumer = some pool) :
    (System.resultsOf execute pools).find? (·.consumer = consumer) =
      some (execute consumer pool).2 := by
  unfold System.resultsOf
  rw [List.find?_map]
  obtain ⟨e,first,rfl⟩ := Option.map_eq_some_iff.mp found
  have key : e.1 = consumer := by simpa using List.find?_some first
  have same : ((fun r : ChildResult => decide (r.consumer = consumer)) ∘
      fun e : String × ResidentPool => (execute e.1 e.2).2) = fun e => decide (e.1 = consumer) := by
    funext e
    simp only [Function.comp_apply,names]
  rw [same,first,← key]
  rfl

theorem attempted_drawn (full : Bool) (consumer : String) {selections : List Selection}
    {gates : List Gate} (drawn : ∀ sel ∈ selections, ∃ g ∈ gates, g.consumer = sel.consumer ∧
      ∀ c ∈ sel.candidates, c ∈ g.approved) :
    ∀ c ∈ attempted full selections consumer,
      ∃ g ∈ gates, g.consumer = consumer ∧ c ∈ g.approved := by
  intro c inside
  unfold attempted at inside
  split at inside
  · split at inside
    · rename_i sel found
      have name : sel.consumer = consumer := by simpa using List.find?_some found
      obtain ⟨g,member,same,within⟩ := drawn sel (List.mem_of_find?_eq_some found)
      split at inside
      · exact ⟨g,member,same.trans name,within c inside⟩
      · cases inside
    · cases inside
  · split at inside
    · rename_i sel found
      obtain ⟨g,member,same,within⟩ := drawn sel (List.mem_of_head? found)
      split at inside
      · exact ⟨g,member,same.trans ‹_›,within c inside⟩
      · cases inside
    · cases inside

theorem execute_drops (safe : Safe draws caches s) (found : s.flights.get? id = some f)
    {selections : List Selection} (stage : f.stage = .selected selections) {device : String}
    {mechanisms : String → Mechanism} (separates : s.Separates (.execute id device mechanisms))
    {consumer rid : String} {pool : ResidentPool} (there : s.pools.get? consumer = some pool)
    (held : rid ∈ pool.objects.keys)
    (dropped : rid ∉ (System.executePool f.full mechanisms device selections
      consumer pool).1.objects.keys) :
    (∃ gate ∈ f.gates, residentResourceId rid ∈ gate.condemned ∧
      Reported (System.resultsOf (System.executePool f.full mechanisms device selections) s.pools)
        gate (residentResourceId rid)) ∨ s.Loose rid := by
  have spec := executePool_spec f.full mechanisms device selections
  have honest := safe.exchanging.honest id f found
  have drawn := attempted_drawn f.full consumer (honest.selections selections stage)
  have plain : Honest (attempted f.full selections consumer) := by
    intro c inside
    obtain ⟨g,member,_,approved⟩ := drawn c inside
    exact honest.gates g member c approved
  rw [(spec consumer pool).1] at dropped
  obtain reported | loose := ResidentPool.attempts_dropped _
    (separates f selections found stage consumer pool there) held dropped
  · obtain ⟨listed,_⟩ := ResidentPool.attempts_reported _ reported
    obtain ⟨c,inside,rfl⟩ := List.mem_map.mp listed
    obtain ⟨g,member,name,approved⟩ := drawn c inside
    refine .inl ⟨g,member,?_,
      (System.executePool f.full mechanisms device selections consumer pool).2,?_,?_⟩
    · rw [← plain c inside]
      exact List.mem_map_of_mem approved
    · rw [name]
      exact find_resultsOf (fun other p => (spec other p).2.1) there
    · rw [(spec consumer pool).2.2]
      exact mem_releasedResources plain reported listed
  · exact .inr loose

theorem execute_safe (safe : Safe draws caches s) (found : s.flights.get? id = some f)
    {selections : List Selection} (stage : f.stage = .selected selections) {device : String}
    {mechanisms : String → Mechanism} (separates : s.Separates (.execute id device mechanisms)) :
    Safe draws caches ({ s with pools := s.pools.mapWithKey fun consumer pool =>
        (System.executePool f.full mechanisms device selections consumer pool).1 }.withFlight id
      ⟨f.full,f.gates,.answered
        (System.resultsOf (System.executePool f.full mechanisms device selections) s.pools)⟩) where
  coherent := safe.coherent
  accounted := safe.accounted
  sound := by
    intro consumer pool there
    unfold System.withFlight at there
    dsimp only at there
    rw [Dict.get?_mapWithKey] at there
    obtain ⟨old,before,rfl⟩ := Option.map_eq_some_iff.mp there
    rw [(executePool_spec _ _ _ _ _ _).1]
    exact (safe.sound consumer old before).shrinks (ResidentPool.attempts_shrinks _)
  exchanging := by
    apply safe.exchanging.executed found stage safe.coherent.apart (safe.coherent.distinct id)
    intro other g there pending r inside ⟨consumer,pool,rid,before,held,same⟩
    by_cases kept : rid ∈ (System.executePool f.full mechanisms device selections
        consumer pool).1.objects.keys
    · refine .inl ⟨consumer,_,rid,?_,kept,same⟩
      unfold System.withFlight
      dsimp only
      rw [Dict.get?_mapWithKey,before]
      rfl
    · subst same
      obtain reported | retired | ⟨_,unnamed⟩ :=
        execute_drops safe found stage separates before held kept
      · exact .inr (.inl reported)
      · exact .inr (.inr retired)
      · exact absurd inside (unnamed other g there pending)

/-- What a step can do. -/
inductive Moves (draws : Draws) (caches : Nat) (s : System) : Action → System → Prop
  | pin {run : Nat} {rids : List String} (named : ∀ rid ∈ rids, rid ∈ s.named) :
      Moves draws caches s (.pin run rids) { s with
        parent := { s.parent with
          pins := (pinOutputs rids (s.parent.pins,(s.runs.get? run).getD [])).1 }
        runs := s.runs.set run (pinOutputs rids (s.parent.pins,(s.runs.get? run).getD [])).2 }
  | finish {run : Nat} {pinned : List String} (found : s.runs.get? run = some pinned) :
      Moves draws caches s (.finish run) { s with
        parent := { s.parent with pins := pinned.foldl ResourcePins.unpin s.parent.pins }
        runs := s.runs.erase run }
  | put {run cache : Nat} {key : String} {refs : List String} (low : cache < caches)
      (pinned : ∀ rid ∈ refs, rid ∈ (s.runs.get? run).getD []) :
      Moves draws caches s (.put run cache key refs) { s with
        parent := { s.parent with
          caches := (s.parent.caches.filter fun e => !(e.cache == cache && e.key == key)) ++
            [⟨cache,key,refs⟩] } }
  | evict {cache : Nat} {key : String} : Moves draws caches s (.evict cache key) { s with
      parent := { s.parent with
        caches := s.parent.caches.filter fun e => !(e.cache == cache && e.key == key) } }
  | use {a : Action} {consumer : String} {pool q : ResidentPool} {named held : Finset String}
      (found : s.pools.get? consumer = some pool) (grows : pool.Grows (draws.of consumer) q)
      (more : s.named ⊆ named) (drawn : ∀ r ∈ named, r ∈ s.named ∨
        ∃ rid ∈ q.objects.keys, r = residentResourceId rid) :
      Moves draws caches s a { s with
        pools := s.pools.set consumer q
        named := named
        held := held }
  | acknowledge {a : Action} {held : Finset String} : Moves draws caches s a { s with held := held }
  | propose {a : Action} {id : Nat} {full : Bool} {proposals : List Proposal}
      (fresh : id ∉ s.flights.keys) (drawn : ∀ p ∈ proposals, ∀ c ∈ p.candidates,
        ∃ consumer pool, s.pools.get? consumer = some pool ∧ pool.Proposes c) :
      Moves draws caches s a (s.withFlight id ⟨full,[],.proposed proposals⟩)
  | abandon {a : Action} {id : Nat} {f : Flight} {proposals : List Proposal}
      (found : s.flights.get? id = some f) (stage : f.stage = .proposed proposals) :
      Moves draws caches s a (s.withoutFlight id)
  | idle {a : Action} {id : Nat} {f : Flight} {proposals : List Proposal}
      {resources : List String} {after : Parent (List CacheEntry)}
      (found : s.flights.get? id = some f) (stage : f.stage = .proposed proposals)
      (opened : Opened s resources caches after) (same : after.exchanges = s.parent.exchanges) :
      Moves draws caches s a ({ s with parent := after }.withoutFlight id)
  | commit {a : Action} {id : Nat} {f sent : Flight} {proposals : List Proposal} {x : Exchange}
      {resources : List String} {after : Parent (List CacheEntry)}
      (found : s.flights.get? id = some f) (stage : f.stage = .proposed proposals)
      (opened : Opened s resources caches after) (carries : sent.Carries x)
      (committed : sent.stage = .committed)
      (same : after.exchanges = s.parent.exchanges.set id x)
      (condemns : Condemns s.parent.pins x.condemned after.pins)
      (drawn : ∀ g ∈ sent.gates, ∃ p ∈ proposals, ∀ c ∈ g.approved, c ∈ p.candidates) :
      Moves draws caches s a ({ s with parent := after }.withFlight id sent)
  | read {a : Action} {id : Nat} {f : Flight} {selections : List Selection}
      (found : s.flights.get? id = some f) (stage : f.stage = .committed)
      (drawn : ∀ sel ∈ selections, ∃ g ∈ f.gates, g.consumer = sel.consumer ∧
        ∀ c ∈ sel.candidates, c ∈ g.approved) :
      Moves draws caches s a (s.withFlight id ⟨f.full,f.gates,.selected selections⟩)
  | execute {id : Nat} {device : String} {mechanisms : String → Mechanism} {f : Flight}
      {selections : List Selection} (found : s.flights.get? id = some f)
      (stage : f.stage = .selected selections) :
      Moves draws caches s (.execute id device mechanisms)
        ({ s with pools := s.pools.mapWithKey fun consumer pool =>
            (System.executePool f.full mechanisms device selections consumer pool).1 }.withFlight id
          ⟨f.full,f.gates,.answered
            (System.resultsOf (System.executePool f.full mechanisms device selections) s.pools)⟩)
  | settle {a : Action} {id : Nat} {f : Flight} {results : List ChildResult}
      {after : Parent (List CacheEntry)} (found : s.flights.get? id = some f)
      (stage : f.stage = .answered results)
      (closed : (if f.full then s.parent.closeFull id (some results)
        else s.parent.closeShed id (some (System.shedReleased f results))) = some after) :
      Moves draws caches s a ({ s with parent := after }.withoutFlight id)
  | late {a : Action} {id : Nat} {f : Flight} {results : List ChildResult}
      (found : s.flights.get? id = some f) (stage : f.stage = .answered results)
      (closed : (if f.full then s.parent.closeFull id (some results)
        else s.parent.closeShed id (some (System.shedReleased f results))) = none) :
      Moves draws caches s a (s.withoutFlight id)
  | lose {a : Action} {id : Nat} {x : Exchange}
      (outstanding : s.parent.exchanges.get? id = some x) :
      Moves draws caches s a { s with
        parent := { s.parent with exchanges := s.parent.exchanges.erase id } }

theorem gate_moves {a : Action} {proposals : List Proposal} (found : s.flights.get? id = some f)
    (stage : f.stage = .proposed proposals) (fails : Nat → String → Option String)
    (requestId workerInstance : String) (timedOut : Bool) : Moves draws caches s a
      (s.gateFlight caches id f proposals fails requestId workerInstance timedOut) := by
  unfold System.gateFlight
  split
  · cases opens : s.parent.openFull id (invalidators fails caches) proposals requestId
      workerInstance timedOut with
    | mk after gates =>
      obtain ⟨opened,drawn,same,condemns⟩ := openFull_opened opens
      refine .commit found stage opened ?_ rfl same condemns drawn
      exact .full ⟨requestId,workerInstance,timedOut,gates⟩ _ nofun
  · split
    · exact .abandon found stage
    · rename_i proposal first
      cases opens : s.parent.openShed id (invalidators fails caches)
          (proposal.candidates.map System.toShedWire) with
      | mk after chosen =>
        obtain ⟨opened,within,⟨rfl,same⟩ | ⟨some,same,condemns⟩⟩ := openShed_opened opens
        · exact .idle found stage opened same
        · dsimp only
          rw [if_neg some]
          refine .commit found stage opened (.shed _ _ nofun) rfl same condemns ?_
          intro g inside
          obtain rfl := List.mem_singleton.mp inside
          exact ⟨proposal,List.mem_of_head? first,within⟩

private theorem encode_moves {a : Action} {consumer : String} {obj : Obj} {inFlight : Bool}
    (taken : System.step draws caches s (.encode consumer obj inFlight) = some s') :
    Moves draws caches s a s' := by
  unfold System.step at taken
  dsimp only at taken
  split at taken
  · cases taken
  · rename_i pool found
    have described : pool.Grows (draws.of consumer) _ ∧ _ := ResidentPool.metadata_grows obj pool
    split at taken
    · rename_i after result
      rw [result] at described
      obtain rfl := Option.some.inj taken
      exact .use found described.1 (Finset.Subset.refl _) fun r inside => .inl inside
    · rename_i after names result
      rw [result] at described
      have used : after.Grows (draws.of consumer) _ := (ResidentPool.ridFor_grows obj after).1
      obtain rfl := Option.some.inj taken
      refine .use found (described.1.trans used) Finset.subset_union_left ?_
      intro r inside
      obtain old | new := Finset.mem_union.mp inside
      · exact .inl old
      · obtain ⟨rid,held,same⟩ := described.2 names rfl r (List.mem_toFinset.mp new)
        exact .inr ⟨rid,used.objects rid held,same⟩

theorem step_moves {a : Action} (taken : System.step draws caches s a = some s') :
    Moves draws caches s a s' := by
  cases a with
  | pin run rids =>
    unfold System.step at taken
    dsimp only at taken
    split at taken
    · obtain rfl := Option.some.inj taken
      exact .pin ‹_›
    · cases taken
  | finish run =>
    unfold System.step at taken
    dsimp only at taken
    split at taken
    · cases taken
    · obtain rfl := Option.some.inj taken
      exact .finish ‹_›
  | put run cache key refs =>
    unfold System.step at taken
    dsimp only at taken
    split at taken
    · rename_i allowed
      obtain rfl := Option.some.inj taken
      exact .put allowed.1 allowed.2
    · cases taken
  | evict cache key =>
    obtain rfl := Option.some.inj taken
    exact .evict
  | encode consumer obj inFlight => exact encode_moves taken
  | decode consumer rid obj =>
    unfold System.step at taken
    dsimp only at taken
    split at taken
    · cases taken
    · rename_i pool found
      obtain ⟨q,used,rfl⟩ := Option.map_eq_some_iff.mp taken
      exact .use found (ResidentPool.get_grows used) (Finset.Subset.refl _) fun r inside => .inl inside
  | acknowledge rids =>
    obtain rfl := Option.some.inj taken
    exact .acknowledge
  | proposeShed id consumer device bytesNeeded items =>
    unfold System.step at taken
    dsimp only at taken
    split at taken
    · cases taken
    · obtain rfl := Option.some.inj taken
      exact .propose ‹_› shedProposal_drawn
  | proposeFull id active =>
    unfold System.step at taken
    dsimp only at taken
    split at taken
    · cases taken
    · obtain rfl := Option.some.inj taken
      exact .propose ‹_› fullProposals_drawn
  | gate id fails requestId workerInstance timedOut =>
    unfold System.step at taken
    dsimp only at taken
    split at taken
    · rename_i f found
      split at taken
      · rename_i proposals stage
        obtain rfl := Option.some.inj taken
        exact gate_moves found stage fails requestId workerInstance timedOut
      · cases taken
    · cases taken
  | abandon id =>
    unfold System.step at taken
    dsimp only at taken
    split at taken
    · rename_i f found
      split at taken
      · obtain rfl := Option.some.inj taken
        exact .abandon found ‹_›
      · cases taken
    · cases taken
  | read id active =>
    unfold System.step at taken
    dsimp only at taken
    split at taken
    · rename_i f found
      split at taken
      · obtain rfl := Option.some.inj taken
        exact .read found ‹_› selection_drawn
      · cases taken
    · cases taken
  | execute id device mechanisms =>
    unfold System.step at taken
    dsimp only at taken
    split at taken
    · rename_i f found
      split at taken
      · obtain rfl := Option.some.inj taken
        exact .execute found ‹_›
      · cases taken
    · cases taken
  | settle id =>
    unfold System.step at taken
    dsimp only at taken
    split at taken
    · rename_i f found
      split at taken
      · rename_i results stage
        obtain rfl := Option.some.inj taken
        cases closed : (if f.full then s.parent.closeFull id (some results)
            else s.parent.closeShed id (some (System.shedReleased f results))) with
        | some after => exact .settle found stage closed
        | none => exact .late found stage closed
      · cases taken
    · cases taken
  | lose id =>
    unfold System.step at taken
    dsimp only at taken
    split at taken
    · obtain ⟨after,lost,rfl⟩ := Option.map_eq_some_iff.mp taken
      obtain ⟨x,outstanding,rfl⟩ := lost_parent lost
      exact .lose outstanding
    · cases taken

theorem moves_safe {a : Action} (safe : Safe draws caches s) (separates : s.Separates a)
    (moves : Moves draws caches s a s') : Safe draws caches s' := by
  cases moves with
  | pin named => exact pin_safe safe _ named
  | finish found => exact finish_safe safe found
  | put low pinned => exact put_safe safe low pinned
  | evict => exact evict_safe safe _
  | use found grows more drawn => exact use_safe safe found grows more
  | acknowledge => exact ⟨safe.coherent,safe.accounted,safe.sound,safe.exchanging⟩
  | propose fresh drawn => exact propose_safe safe fresh _ drawn
  | abandon found stage => exact abandon_safe safe found stage
  | idle found stage opened same => exact abandon_safe (idle_safe safe opened same) found stage
  | commit found stage opened carries committed same condemns drawn =>
    exact committed_safe safe found stage opened carries committed same condemns drawn
  | read found stage drawn => exact read_safe safe found stage drawn
  | execute found stage => exact execute_safe safe found stage separates
  | settle found stage closed =>
    obtain ⟨x,pins,outstanding,rfl,counts,fewer,kept,absolved,_⟩ :=
      settled_parent safe found stage closed
    exact closed_safe safe outstanding counts fewer kept absolved
  | late found stage closed =>
    apply safe.flying
    exact safe.exchanging.withoutFlight (settled_late safe found closed)
  | lose outstanding => exact lose_safe safe outstanding

end Dinkster.Workers
