import Dinkster.Workers.ReleaseSafety

/-! What a dropped resource is from then on: condemned for good, or named by nobody. From this no
release drops a resource in use, and what is absolved the child holds. -/
namespace Dinkster.Workers
open Memory Transition

/-- A run of the parent pins the resource. -/
def System.PinnedByRun (s : System) (resource : String) : Prop :=
  ∃ run rids, s.runs.get? run = some rids ∧ resource ∈ rids

/-- The child holds the resident in the pool of the consumer. -/
def System.Resident (s : System) (consumer rid : String) : Prop :=
  ∃ pool, s.pools.get? consumer = some pool ∧ rid ∈ pool.objects.keys

variable {draws : Draws} {caches : Nat} {s s' t : System} {id : Nat} {f : Flight} {a : Action}
  {resource consumer rid : String}

private theorem initial_pool {consumers : List String} {pool : ResidentPool}
    (found : (System.initial consumers).pools.get? consumer = some pool) : pool = .empty := by
  have inside := Dict.mem_entries_of_ofList ((Dict.get?_eq_some_iff _ _ _).mp found)
  obtain ⟨name,_,same⟩ := List.mem_map.mp inside
  exact (congrArg Prod.snd same).symm

theorem initial_safe (consumers : List String) : Safe draws caches (System.initial consumers) where
  coherent := initial_coherent []
  accounted := ⟨fun _ => rfl,nofun,nofun⟩
  sound := by
    intro consumer pool found
    obtain rfl := initial_pool found
    exact ⟨nofun,nofun⟩
  exchanging := ⟨nofun,nofun,nofun,nofun,nofun⟩

theorem step_safe (safe : Safe draws caches s) (separates : s.Separates a)
    (taken : System.step draws caches s a = some s') : Safe draws caches s' :=
  moves_safe safe separates (step_moves taken)

theorem reach_safe (safe : Safe draws caches s)
    (reached : Reach (System.step draws caches) System.Separates s t) : Safe draws caches t :=
  reached.invariant (Safe draws caches) safe fun _ _ _ safe separates taken =>
    step_safe safe separates taken

/-- Condemned, and any outstanding exchange that could absolve the resource has an answer that
reports it. -/
structure Doomed (resource : String) (s : System) : Prop where
  condemned : resource ∈ s.parent.pins.condemned
  answered : ∀ id x, s.parent.exchanges.get? id = some x → resource ∈ x.condemned →
    ∃ f results, s.flights.get? id = some f ∧ f.stage = .answered results ∧
      ∃ gate ∈ f.gates, resource ∈ gate.condemned ∧ Reported results gate resource

theorem Doomed.frame (doomed : Doomed resource s)
    (kept : resource ∈ s'.parent.pins.condemned)
    (exchanges : ∀ id x, s'.parent.exchanges.get? id = some x → resource ∈ x.condemned →
      s.parent.exchanges.get? id = some x)
    (flights : ∀ id f results, id ∈ s'.parent.exchanges.keys → s.flights.get? id = some f →
      f.stage = .answered results → s'.flights.get? id = some f) : Doomed resource s' where
  condemned := kept
  answered := by
    intro id x outstanding listed
    obtain ⟨f,results,found,stage,reported⟩ :=
      doomed.answered id x (exchanges id x outstanding listed) listed
    have waits := (Dict.mem_keys_iff _ _).mpr ⟨x,outstanding⟩
    exact ⟨f,results,flights id f results waits found stage,stage,reported⟩

theorem Doomed.same (doomed : Doomed resource s)
    (kept : resource ∈ s'.parent.pins.condemned)
    (same : s'.parent.exchanges = s.parent.exchanges)
    (flights : ∀ id f results, id ∈ s.parent.exchanges.keys → s.flights.get? id = some f →
      f.stage = .answered results → s'.flights.get? id = some f) : Doomed resource s' := by
  refine doomed.frame kept ?_ ?_
  · intro id x outstanding _
    rwa [same] at outstanding
  · intro id f results waits
    rw [same] at waits
    exact flights id f results waits

private theorem set_answered {g : Flight} {other : Nat} {results : List ChildResult}
    (before : ∀ f, s.flights.get? id = some f → ∀ answers, f.stage ≠ .answered answers)
    (found : s.flights.get? other = some f) (stage : f.stage = .answered results) :
    (s.flights.set id g).get? other = some f := by
  rw [Dict.get?_set_ne]
  · exact found
  · rintro rfl
    exact before f found results stage

private theorem erase_answered {other : Nat} {results : List ChildResult}
    (before : ∀ f, s.flights.get? id = some f → ∀ answers, f.stage ≠ .answered answers)
    (found : s.flights.get? other = some f) (stage : f.stage = .answered results) :
    (s.flights.erase id).get? other = some f := by
  rw [Dict.get?_erase,if_neg]
  · exact found
  · rintro rfl
    exact before f found results stage

private theorem not_answered {stage : Stage} (found : s.flights.get? id = some f)
    (here : f.stage = stage) (different : ∀ answers, stage ≠ .answered answers) :
    ∀ g, s.flights.get? id = some g → ∀ answers, g.stage ≠ .answered answers := by
  intro g there answers same
  obtain rfl := Option.some.inj (there.symm.trans found)
  exact different answers (here.symm.trans same)

theorem moves_doomed (safe : Safe draws caches s) (doomed : Doomed resource s)
    (moves : Moves draws caches s a s') : Doomed resource s' := by
  have stays : ∀ id f results, id ∈ s.parent.exchanges.keys → s.flights.get? id = some f →
      f.stage = .answered results → s.flights.get? id = some f := fun _ _ _ _ found _ => found
  cases moves with
  | @pin run rids named =>
    obtain ⟨_,_,_,kept,_⟩ := pinOutputs_spec rids s.parent.pins ((s.runs.get? run).getD [])
    refine doomed.same ?_ rfl stays
    dsimp only
    rw [kept]
    exact doomed.condemned
  | @finish run pinned found =>
    refine doomed.same ?_ rfl stays
    dsimp only
    rw [(unpins_spec pinned s.parent.pins).1]
    exact doomed.condemned
  | put low pinned => exact doomed.same doomed.condemned rfl stays
  | evict => exact doomed.same doomed.condemned rfl stays
  | use found grows more drawn => exact doomed.same doomed.condemned rfl stays
  | acknowledge => exact doomed.same doomed.condemned rfl stays
  | propose fresh drawn =>
    refine doomed.same doomed.condemned rfl ?_
    intro other f results _ found stage
    apply set_answered _ found stage
    intro g there
    exact absurd ((Dict.mem_keys_iff _ _).mpr ⟨g,there⟩) fresh
  | abandon found stage =>
    refine doomed.same doomed.condemned rfl ?_
    exact fun other g results _ there => erase_answered (not_answered found stage nofun) there
  | idle found stage opened same =>
    obtain ⟨rids,condemns,_,_⟩ := opened.condemns
    refine doomed.same ((condemns.condemned _).mpr (.inl doomed.condemned)) same ?_
    exact fun other g results _ there => erase_answered (not_answered found stage nofun) there
  | commit found stage opened carries committed same condemns drawn =>
    refine doomed.frame ((condemns.condemned _).mpr (.inl doomed.condemned)) ?_ ?_
    · intro other y outstanding listed
      unfold System.withFlight at outstanding
      dsimp only at outstanding
      rw [same,Dict.get?_set] at outstanding
      split at outstanding
      · obtain rfl := Option.some.inj outstanding
        exact absurd doomed.condemned (condemns.innocent _ listed).1
      · exact outstanding
    · exact fun other g results _ there => set_answered (not_answered found stage nofun) there
  | read found stage drawn =>
    refine doomed.same doomed.condemned rfl ?_
    exact fun other g results _ there => set_answered (not_answered found stage nofun) there
  | execute found stage =>
    refine doomed.same doomed.condemned rfl ?_
    exact fun other g results _ there => set_answered (not_answered found stage nofun) there
  | settle found stage closed =>
    obtain ⟨x,pins,outstanding,rfl,_,_,kept,_,reported⟩ := settled_parent safe found stage closed
    refine doomed.frame ?_ ?_ ?_
    · by_cases listed : resource ∈ x.condemned
      · obtain ⟨g,answers,there,again,named⟩ := doomed.answered _ x outstanding listed
        obtain rfl := Option.some.inj (there.symm.trans found)
        obtain rfl := Stage.answered.inj (again.symm.trans stage)
        exact reported resource doomed.condemned named
      · exact kept resource doomed.condemned listed
    · intro other y standing _
      unfold System.withoutFlight at standing
      dsimp only at standing
      rw [Dict.get?_erase] at standing
      split at standing
      · cases standing
      · exact standing
    · intro other g answers waits there _
      unfold System.withoutFlight at waits ⊢
      rw [Dict.get?_erase,if_neg ((Dict.mem_keys_erase _ _ _).mp waits).2]
      exact there
  | late found stage closed =>
    refine doomed.same doomed.condemned rfl ?_
    intro other g answers waits there _
    unfold System.withoutFlight
    dsimp only
    rw [Dict.get?_erase,if_neg]
    · exact there
    · rintro rfl
      exact settled_late safe found closed waits
  | lose outstanding =>
    refine doomed.frame doomed.condemned ?_ fun other g answers _ there _ => there
    intro other y standing _
    dsimp only at standing
    rw [Dict.get?_erase] at standing
    split at standing
    · cases standing
    · exact standing

structure Gone (draws : Draws) (rid : String) (s : System) : Prop where
  unnamed : residentResourceId rid ∉ s.named
  dropped : ∀ consumer pool, s.pools.get? consumer = some pool → rid ∉ pool.objects.keys
  drawn : ∃ consumer pool n, s.pools.get? consumer = some pool ∧ n < pool.issued ∧
    rid = (draws.of consumer).text n

theorem use_gone (gone : Gone draws rid s) {pool q : ResidentPool}
    (found : s.pools.get? consumer = some pool) (grows : pool.Grows (draws.of consumer) q)
    {named held : Finset String} (more : ∀ r ∈ named, r ∈ s.named ∨
      ∃ rid ∈ q.objects.keys, r = residentResourceId rid) : Gone draws rid { s with
        pools := s.pools.set consumer q
        named := named
        held := held } := by
  obtain ⟨unnamed,dropped,owner,old,n,there,low,drawn⟩ := gone
  -- a fresh id of this pool is not an id drawn before
  have absent : rid ∉ q.objects.keys := by
    intro inside
    obtain before | ⟨k,fresh,_,same⟩ := grows.fresh rid inside
    · exact dropped consumer pool found before
    · rw [drawn] at same
      obtain rfl := draws.apart _ _ _ _ same
      obtain rfl := Option.some.inj (there.symm.trans found)
      obtain rfl := (draws.of owner).distinct same
      omega
  refine ⟨?_,?_,?_⟩
  · intro inside
    obtain before | ⟨other,held,same⟩ := more _ inside
    · exact unnamed before
    · obtain rfl := residentResourceId_inj.mp same
      exact absent held
  · intro other p after
    dsimp only at after
    rw [Dict.get?_set] at after
    split at after
    · obtain rfl := Option.some.inj after
      exact absent
    · exact dropped other p after
  · by_cases same : owner = consumer
    · subst same
      obtain rfl := Option.some.inj (there.symm.trans found)
      exact ⟨owner,q,n,Dict.get?_set_self _ _ _,low.trans_le grows.issued,drawn⟩
    · exact ⟨owner,old,n,by rwa [Dict.get?_set_ne _ _ same],low,drawn⟩

theorem execute_shrinks {full : Bool} {mechanisms : String → Mechanism} {device : String}
    {selections : List Selection} {pool : ResidentPool} (found : (s.pools.mapWithKey
      fun consumer pool => (System.executePool full mechanisms device selections consumer pool).1).get?
        consumer = some pool) :
    ∃ before, s.pools.get? consumer = some before ∧ ResidentPool.Shrinks before pool := by
  rw [Dict.get?_mapWithKey] at found
  obtain ⟨before,there,rfl⟩ := Option.map_eq_some_iff.mp found
  refine ⟨before,there,?_⟩
  rw [(executePool_spec _ _ _ _ _ _).1]
  exact ResidentPool.attempts_shrinks _

theorem moves_gone (gone : Gone draws rid s) (moves : Moves draws caches s a s') :
    Gone draws rid s' := by
  cases moves with
  | use found grows more drawn => exact use_gone gone found grows drawn
  | @execute id device mechanisms f selections found stage =>
    refine ⟨gone.unnamed,?_,?_⟩
    · intro consumer pool after
      obtain ⟨before,there,shrinks⟩ := execute_shrinks after
      exact fun held => gone.dropped consumer before there (shrinks.objects rid held)
    · obtain ⟨owner,pool,n,there,low,drawn⟩ := gone.drawn
      refine ⟨owner,(System.executePool f.full mechanisms device selections owner pool).1,n,
        ?_,?_,drawn⟩
      · unfold System.withFlight
        dsimp only
        rw [Dict.get?_mapWithKey,there]
        rfl
      · rw [(executePool_spec _ _ _ _ _ _).1]
        rwa [(ResidentPool.attempts_shrinks _).issued]
  | pin named => exact ⟨gone.unnamed,gone.dropped,gone.drawn⟩
  | finish found => exact ⟨gone.unnamed,gone.dropped,gone.drawn⟩
  | put low pinned => exact ⟨gone.unnamed,gone.dropped,gone.drawn⟩
  | evict => exact ⟨gone.unnamed,gone.dropped,gone.drawn⟩
  | acknowledge => exact ⟨gone.unnamed,gone.dropped,gone.drawn⟩
  | propose fresh drawn => exact ⟨gone.unnamed,gone.dropped,gone.drawn⟩
  | abandon found stage => exact ⟨gone.unnamed,gone.dropped,gone.drawn⟩
  | idle found stage opened same => exact ⟨gone.unnamed,gone.dropped,gone.drawn⟩
  | commit found stage opened carries committed same condemns drawn =>
    exact ⟨gone.unnamed,gone.dropped,gone.drawn⟩
  | read found stage drawn => exact ⟨gone.unnamed,gone.dropped,gone.drawn⟩
  | settle found stage closed => exact ⟨gone.unnamed,gone.dropped,gone.drawn⟩
  | late found stage closed => exact ⟨gone.unnamed,gone.dropped,gone.drawn⟩
  | lose outstanding => exact ⟨gone.unnamed,gone.dropped,gone.drawn⟩

def PastUse (draws : Draws) (rid : String) (s : System) : Prop :=
  Doomed (residentResourceId rid) s ∨ Gone draws rid s

theorem pastUse_uncached (safe : Safe draws caches s) (past : PastUse draws rid s) :
    ∀ e ∈ s.parent.caches, residentResourceId rid ∉ e.refs := by
  intro e inside refers
  obtain ⟨named,innocent⟩ := (safe.accounted.clean e inside).2 _ refers
  obtain doomed | gone := past
  · exact innocent doomed.condemned
  · exact gone.unnamed named

theorem reach_pastUse (safe : Safe draws caches s) (past : PastUse draws rid s)
    (reached : Reach (System.step draws caches) System.Separates s t) :
    Safe draws caches t ∧ PastUse draws rid t := by
  refine reached.invariant (fun t => Safe draws caches t ∧ PastUse draws rid t) ⟨safe,past⟩ ?_
  intro before b after ⟨safe,past⟩ separates taken
  have moves := step_moves taken
  refine ⟨moves_safe safe separates moves,?_⟩
  obtain doomed | gone := past
  · exact .inl (moves_doomed safe doomed moves)
  · exact .inr (moves_gone gone moves)

theorem moves_resident (moves : Moves draws caches s a s') (held : s.Resident consumer rid) :
    s'.Resident consumer rid ∨ ∃ id device mechanisms f selections,
      a = .execute id device mechanisms ∧ s.flights.get? id = some f ∧
      f.stage = .selected selections ∧
      s' = ({ s with pools := s.pools.mapWithKey fun consumer pool =>
          (System.executePool f.full mechanisms device selections consumer pool).1 }.withFlight id
        ⟨f.full,f.gates,.answered
          (System.resultsOf (System.executePool f.full mechanisms device selections) s.pools)⟩) := by
  cases moves with
  | @use a other pool q named held' found grows more drawn =>
    obtain ⟨before,there,inside⟩ := held
    refine .inl ?_
    by_cases same : consumer = other
    · subst same
      obtain rfl := Option.some.inj (there.symm.trans found)
      exact ⟨q,Dict.get?_set_self _ _ _,grows.objects rid inside⟩
    · exact ⟨before,by rwa [Dict.get?_set_ne _ _ same],inside⟩
  | execute found stage => exact .inr ⟨_,_,_,_,_,rfl,found,stage,rfl⟩
  | pin named => exact .inl held
  | finish found => exact .inl held
  | put low pinned => exact .inl held
  | evict => exact .inl held
  | acknowledge => exact .inl held
  | propose fresh drawn => exact .inl held
  | abandon found stage => exact .inl held
  | idle found stage opened same => exact .inl held
  | commit found stage opened carries committed same condemns drawn => exact .inl held
  | read found stage drawn => exact .inl held
  | settle found stage closed => exact .inl held
  | late found stage closed => exact .inl held
  | lose outstanding => exact .inl held

private theorem loose_past (safe : Safe draws caches s) (loose : s.Loose rid)
    {pool : ResidentPool} (there : s.pools.get? consumer = some pool)
    (held : rid ∈ pool.objects.keys) {pools : Dict String ResidentPool}
    (shrinks : ∀ name after, pools.get? name = some after →
      ∃ before, s.pools.get? name = some before ∧ ResidentPool.Shrinks before after)
    {after : ResidentPool} (here : pools.get? consumer = some after)
    (dropped : rid ∉ after.objects.keys) {g : Flight} :
    PastUse draws rid ({ s with pools := pools }.withFlight id g) := by
  obtain ⟨condemned,unanswered⟩ | ⟨unnamed,_⟩ := loose
  · exact .inl ⟨condemned,fun other x outstanding listed =>
      absurd listed (unanswered other x outstanding)⟩
  · obtain ⟨n,low,drawn⟩ := (safe.sound consumer pool there).objects rid held
    refine .inr ⟨unnamed,?_,?_⟩
    · intro name p standing inside
      obtain ⟨before,was,shrunk⟩ := shrinks name p standing
      obtain ⟨k,_,again⟩ := (safe.sound name before was).objects rid (shrunk.objects rid inside)
      obtain rfl := draws.apart _ _ _ _ (drawn.symm.trans again)
      obtain rfl := Option.some.inj (here.symm.trans standing)
      exact dropped inside
    · obtain ⟨before,was,shrunk⟩ := shrinks consumer after here
      obtain rfl := Option.some.inj (there.symm.trans was)
      refine ⟨consumer,after,n,here,?_,drawn⟩
      rwa [shrunk.issued]

theorem dropped_past (safe : Safe draws caches s) (separates : s.Separates a)
    (moves : Moves draws caches s a s') (held : s.Resident consumer rid)
    (dropped : ¬ s'.Resident consumer rid) :
    ¬ s.PinnedByRun (residentResourceId rid) ∧ PastUse draws rid s' := by
  have after := moves_safe safe separates moves
  obtain there | ⟨id,device,mechanisms,f,selections,rfl,found,stage,rfl⟩ := moves_resident moves held
  · exact absurd there dropped
  · obtain ⟨pool,before,inside⟩ := held
    have here : (s.pools.mapWithKey fun consumer pool => (System.executePool f.full mechanisms device
        selections consumer pool).1).get? consumer =
          some (System.executePool f.full mechanisms device selections consumer pool).1 := by
      rw [Dict.get?_mapWithKey,before]
      rfl
    have gone : rid ∉ (System.executePool f.full mechanisms device selections
        consumer pool).1.objects.keys := fun kept => dropped ⟨_,here,kept⟩
    obtain ⟨gate,member,listed,reported⟩ | loose :=
      execute_drops safe found stage separates before inside gone
    · have sent : f.Sent := fun proposals same => by rw [stage] at same; cases same
      have mine := List.mem_flatMap.mpr ⟨gate,member,listed⟩
      refine ⟨?_,.inl ⟨?_,?_⟩⟩
      · rintro ⟨run,rids,pinned,held⟩
        exact safe.innocent pinned held (safe.exchanging.condemned id f found sent _ mine)
      · exact safe.exchanging.condemned id f found sent _ mine
      · intro other x outstanding condemned
        have same : other = id := by
          by_cases waits : id ∈ s.parent.exchanges.keys
          · obtain ⟨y,standing⟩ := (Dict.mem_keys_iff _ _).mp waits
            obtain ⟨g,there,carries⟩ := safe.exchanging.linked id y standing
            obtain rfl := Option.some.inj (there.symm.trans found)
            rw [← carries.condemned] at mine
            exact safe.coherent.apart other id x y _ outstanding standing condemned mine
          · exact absurd condemned
              (safe.exchanging.buried id f found sent waits _ mine other x outstanding)
        subst same
        exact ⟨_,_,Dict.get?_set_self _ _ _,rfl,gate,member,listed,reported⟩
    · refine ⟨?_,loose_past safe loose before inside (fun _ _ => execute_shrinks) here gone⟩
      rintro ⟨run,rids,pinned,held⟩
      obtain retired | ⟨unnamed,_⟩ := loose
      · exact safe.innocent pinned held retired.1
      · exact unnamed (safe.accounted.pinned run rids pinned _ held)

theorem absolved_held (safe : Safe draws caches s) (moves : Moves draws caches s a s')
    (condemned : resource ∈ s.parent.pins.condemned)
    (absolved : resource ∉ s'.parent.pins.condemned) : Held s'.pools resource := by
  cases moves with
  | @pin run rids named =>
    obtain ⟨_,_,_,kept,_⟩ := pinOutputs_spec rids s.parent.pins ((s.runs.get? run).getD [])
    dsimp only at absolved
    rw [kept] at absolved
    exact absurd condemned absolved
  | @finish run pinned found =>
    dsimp only at absolved
    rw [(unpins_spec pinned s.parent.pins).1] at absolved
    exact absurd condemned absolved
  | idle found stage opened same =>
    obtain ⟨rids,condemns,_,_⟩ := opened.condemns
    exact absurd ((condemns.condemned _).mpr (.inl condemned)) absolved
  | commit found stage opened carries committed same condemns drawn =>
    exact absurd ((condemns.condemned _).mpr (.inl condemned)) absolved
  | settle found stage closed =>
    obtain ⟨x,pins,_,rfl,_,_,_,held,_⟩ := settled_parent safe found stage closed
    exact held resource condemned absolved
  | put low pinned => exact absurd condemned absolved
  | evict => exact absurd condemned absolved
  | use found grows more drawn => exact absurd condemned absolved
  | acknowledge => exact absurd condemned absolved
  | propose fresh drawn => exact absurd condemned absolved
  | abandon found stage => exact absurd condemned absolved
  | read found stage drawn => exact absurd condemned absolved
  | execute found stage => exact absurd condemned absolved
  | late found stage closed => exact absurd condemned absolved
  | lose outstanding => exact absurd condemned absolved

/-- What a sent commit names is pinned by no run. What a step drops was pinned by no run, and no
cache entry refers to it afterwards. What a step absolves, the child holds. -/
theorem release_spares_used {draws : Draws} {caches : Nat} {consumers : List String}
    {s s' : System} {a : Action}
    (reached : Reach (System.step draws caches) System.Separates (System.initial consumers) s)
    (separates : s.Separates a) (taken : System.step draws caches s a = some s') :
    (∀ id f, s.flights.get? id = some f → f.Sent → ∀ resource ∈ f.gates.flatMap Gate.condemned,
      ¬ s.PinnedByRun resource) ∧
    (∀ consumer rid, s.Resident consumer rid → ¬ s'.Resident consumer rid →
      ¬ s.PinnedByRun (residentResourceId rid) ∧
      ∀ t, Reach (System.step draws caches) System.Separates s' t →
        ∀ e ∈ t.parent.caches, residentResourceId rid ∉ e.refs) ∧
    ∀ resource ∈ s.parent.pins.condemned, resource ∉ s'.parent.pins.condemned →
      Held s'.pools resource := by
  have safe : Safe draws caches s := reach_safe (initial_safe consumers) reached
  have after := step_safe safe separates taken
  have moves := step_moves taken
  refine ⟨?_,?_,fun resource => absolved_held safe moves⟩
  · rintro id f found sent resource listed ⟨run,rids,pinned,held⟩
    exact safe.innocent pinned held (safe.exchanging.condemned id f found sent resource listed)
  · intro consumer rid held dropped
    obtain ⟨unpinned,past⟩ := dropped_past safe separates moves held dropped
    refine ⟨unpinned,?_⟩
    intro t later
    obtain ⟨safeLater,pastLater⟩ := reach_pastUse after past later
    exact pastUse_uncached safeLater pastLater

private theorem marked_inj (n k : Nat) (name name' : List Char)
    (same : List.replicate n 'r' ++ '@' :: name = List.replicate k 'r' ++ '@' :: name') :
    n = k ∧ name = name' := by
  induction n generalizing k with
  | zero =>
    cases k with
    | zero => exact ⟨rfl,(List.cons.inj same).2⟩
    | succ k => exact absurd (List.cons.inj same).1 (by decide)
  | succ n ih =>
    cases k with
    | zero => exact absurd (List.cons.inj same).1 (by decide)
    | succ k =>
      obtain ⟨rfl,names⟩ := ih k (List.cons.inj same).2
      exact ⟨rfl,names⟩

private theorem markedText_inj {n k : Nat} {name name' : String}
    (same : String.ofList (List.replicate n 'r' ++ '@' :: name.toList) =
      String.ofList (List.replicate k 'r' ++ '@' :: name'.toList)) : n = k ∧ name = name' := by
  obtain ⟨rfl,names⟩ := marked_inj _ _ _ _ (String.ofList_injective same)
  exact ⟨rfl,String.toList_injective names⟩

/-- Ids of growing length, marked with the consumer. -/
def markedDraws : Draws where
  of := fun name => {
    text := fun n => String.ofList (List.replicate n 'r' ++ '@' :: name.toList)
    distinct := fun _ _ same => (markedText_inj same).1 }
  apart := fun _ _ _ _ same => (markedText_inj same).2

def sharedOwner : Obj := .mk 1 (Dict.empty.set "ram" 1) false []

def willing : Mechanism := ⟨fun _ => true,fun _ => true,fun _ => some true,fun _ => true⟩

/-- A commit for a resident without dependents, as far as its execution. -/
def soleCommitted : System := offer (System.step markedDraws 1) (System.initial ["pool"])
  [.encode "pool" sharedOwner false,.proposeShed 0 "pool" "ram" 1 (some ["@pool"]),
    .gate 0 (fun _ _ => none) "op" "w" false,.read 0 false]

def soleExecuted : System :=
  (System.step markedDraws 1 soleCommitted (.execute 0 "ram" fun _ => willing)).getD soleCommitted

private theorem sole_facts :
    (System.step markedDraws 1 soleCommitted (.execute 0 "ram" fun _ => willing)).isSome ∧
    (∀ e ∈ soleCommitted.pools.entries, e.2.ownerDependents = .empty) ∧
    (∃ e ∈ soleCommitted.pools.entries, e.1 = "pool" ∧ "@pool" ∈ e.2.objects.keys) ∧
    ∀ e ∈ soleExecuted.pools.entries, "@pool" ∉ e.2.objects.keys := by
  decide +kernel

private theorem sole_executed : System.step markedDraws 1 soleCommitted
    (.execute 0 "ram" fun _ => willing) = some soleExecuted := by
  obtain ⟨after,executed⟩ := Option.isSome_iff_exists.mp (And.left sole_facts)
  unfold soleExecuted
  rw [executed,Option.getD_some]

private theorem sole_separates : soleCommitted.Separates (.execute 0 "ram" fun _ => willing) := by
  intro f selections _ _ consumer pool found
  apply ResidentPool.separate_of_independent
  obtain ⟨_,none,_,_⟩ := sole_facts
  intro a b depends
  unfold ResidentPool.Dependent at depends
  rw [none _ ((Dict.get?_eq_some_iff _ _ _).mp found)] at depends
  cases depends

private theorem sole_reached : Reach (System.step markedDraws 1) System.Separates
    (System.initial ["pool"]) soleCommitted := by
  apply reach_offer
  intro a inside t
  simp only [List.mem_cons,List.not_mem_nil,or_false] at inside
  obtain rfl | rfl | rfl | rfl := inside
  all_goals exact trivial

/-- The commit drops the resident, which no run pins. -/
theorem sole_release_spares_used : soleCommitted.Resident "pool" "@pool" ∧
    ¬ soleExecuted.Resident "pool" "@pool" ∧ ¬ soleCommitted.PinnedByRun "resident:@pool" := by
  obtain ⟨_,_,here,none⟩ := sole_facts
  have held : soleCommitted.Resident "pool" "@pool" := by
    obtain ⟨⟨name,pool⟩,inside,rfl,held⟩ := here
    exact ⟨pool,(Dict.get?_eq_some_iff _ _ _).mpr inside,held⟩
  have dropped : ¬ soleExecuted.Resident "pool" "@pool" := by
    rintro ⟨pool,found,held⟩
    exact none _ ((Dict.get?_eq_some_iff _ _ _).mp found) held
  have spared := release_spares_used sole_reached sole_separates sole_executed
  exact ⟨held,dropped,(spared.2.1 "pool" "@pool" held dropped).1⟩

def dependent : Obj := .mk 2 (Dict.empty.set "ram" 1) false [sharedOwner]

def takenAlong : List Action :=
  [.encode "pool" sharedOwner false,.encode "pool" dependent false,
    .proposeShed 0 "pool" "ram" 2 (some ["@pool","r@pool"]),
    .gate 0 (fun _ _ => none) "op" "w" false,.read 0 false,.execute 0 "ram" fun _ => willing]

def answeredTogether : System :=
  offer (System.step markedDraws 1) (System.initial ["pool"]) takenAlong

def settledTogether : System :=
  (System.step markedDraws 1 answeredTogether (.settle 0)).getD answeredTogether

def cachedAgain : System := offer (System.step markedDraws 1) settledTogether
  [.pin 0 ["resident:r@pool"],.put 0 0 "key" ["resident:r@pool"]]

private theorem together_facts :
    (System.step markedDraws 1 answeredTogether (.settle 0)).isSome ∧
    (∀ e ∈ settledTogether.pools.entries, "r@pool" ∉ e.2.objects.keys) ∧
    "resident:r@pool" ∈ answeredTogether.parent.pins.condemned ∧
    "resident:r@pool" ∉ settledTogether.parent.pins.condemned ∧
    ∃ e ∈ cachedAgain.parent.caches, "resident:r@pool" ∈ e.refs := by
  decide +kernel

private theorem together_settled : System.step markedDraws 1 answeredTogether (.settle 0) =
    some settledTogether := by
  obtain ⟨after,settled⟩ := Option.isSome_iff_exists.mp (And.left together_facts)
  unfold settledTogether
  rw [settled,Option.getD_some]

private theorem together_unheld : ¬ Held settledTogether.pools "resident:r@pool" := by
  rintro ⟨consumer,pool,rid,found,held,same⟩
  have here : "resident:r@pool" = residentResourceId "r@pool" := by decide
  obtain rfl := residentResourceId_inj.mp (here.symm.trans same)
  obtain ⟨_,none,_,_,_⟩ := together_facts
  exact none _ ((Dict.get?_eq_some_iff _ _ _).mp found) held

/-- The commit released the owner, which took its dependent along. The report names the owner only,
so the dependent is absolved though no pool holds it, and a run can cache it again. -/
theorem dependent_absolved_unheld : ∃ s s' t,
    Reachable (System.step markedDraws 1) (System.initial ["pool"]) s ∧
    System.step markedDraws 1 s (.settle 0) = some s' ∧
    ∃ resource ∈ s.parent.pins.condemned, resource ∉ s'.parent.pins.condemned ∧
      ¬ Held s'.pools resource ∧ Reachable (System.step markedDraws 1) s' t ∧
      ∃ e ∈ t.parent.caches, resource ∈ e.refs := by
  obtain ⟨_,_,condemned,absolved,cached⟩ := together_facts
  exact ⟨answeredTogether,settledTogether,cachedAgain,reachable_offer _,together_settled,
    "resident:r@pool",condemned,absolved,together_unheld,reachable_offer _,cached⟩

end Dinkster.Workers
