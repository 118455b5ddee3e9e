import Dinkster.Workers.Relay

/-! What the gate of a release condemns, what its settlement absolves, and what the validation of a
reply promises. -/
namespace Dinkster.Workers
open Json Memory

variable {κ : Type}

/-- `rids` were neither pinned nor condemned before, and are condemned now. -/
structure Condemns (p : ResourcePins) (rids : List String) (q : ResourcePins) : Prop where
  distinct : rids.Nodup
  innocent : ∀ rid ∈ rids, rid ∉ p.condemned ∧ p.count rid = 0
  condemned : ∀ rid, rid ∈ q.condemned ↔ rid ∈ p.condemned ∨ rid ∈ rids
  counts : q.counts = p.counts

variable {p q r : ResourcePins} {rids others : List String}
  {invalidators : List (Invalidator κ)}

theorem Condemns.refl (p : ResourcePins) : Condemns p [] p :=
  ⟨List.nodup_nil,nofun,fun _ => by simp,rfl⟩

theorem Condemns.trans (first : Condemns p rids q) (rest : Condemns q others r) :
    Condemns p (rids ++ others) r where
  distinct := by
    apply List.nodup_append.mpr ⟨first.distinct,rest.distinct,_⟩
    intro rid before other after same
    exact (rest.innocent other after).1 ((first.condemned other).mpr (.inr (same ▸ before)))
  innocent := by
    intro rid inside
    obtain before | after := List.mem_append.mp inside
    · exact first.innocent rid before
    · obtain ⟨free,unpinned⟩ := rest.innocent rid after
      refine ⟨fun condemned => free ((first.condemned rid).mpr (.inl condemned)),?_⟩
      rwa [ResourcePins.count,first.counts,← ResourcePins.count] at unpinned
  condemned := by
    intro rid
    rw [rest.condemned,first.condemned,List.mem_append,or_assoc]
  counts := rest.counts.trans first.counts

theorem Condemns.exclusive (condemns : Condemns p rids q) (exclusive : p.Exclusive) :
    q.Exclusive := by
  intro rid inside
  rw [ResourcePins.count,condemns.counts,← ResourcePins.count]
  obtain old | new := (condemns.condemned rid).mp inside
  · exact exclusive rid old
  · exact (condemns.innocent rid new).2

/-- The gate condemns the resource after the invalidation, or leaves the pins alone. -/
inductive Gated (invalidators : List (Invalidator κ)) (rid : String) (p : ResourcePins)
    (caches : κ) : ResourcePins × κ × Verdict → Prop
  | condemned {after : ResourcePins} {left : κ} (condemns : Condemns p [rid] after)
      (cleared : invalidateAll invalidators rid caches = (left,none)) :
      Gated invalidators rid p caches (after,left,.condemned)
  | disqualified {left : κ} {error : String}
      (raised : invalidateAll invalidators rid caches = (left,some error)) :
      Gated invalidators rid p caches (p,left,.disqualified error)
  | refused {left : κ} (cleared : invalidateAll invalidators rid caches = (left,none)) :
      Gated invalidators rid p caches (p,left,.refused)

theorem condemns_one {rid : String} (condemned : p.condemn rid = some q) :
    Condemns p [rid] q := by
  obtain ⟨free,unpinned,grown,counts⟩ := ResourcePins.condemn_spec condemned
  refine ⟨List.nodup_singleton rid,?_,?_,counts⟩
  · intro other same
    obtain rfl := List.mem_singleton.mp same
    exact ⟨free,unpinned⟩
  · intro other
    rw [grown,Finset.mem_insert,List.mem_singleton,or_comm]

theorem gateResource_gated (invalidators : List (Invalidator κ)) (rid : String) (p : ResourcePins) (caches : κ) :
    Gated invalidators rid p caches (gateResource invalidators rid p caches) := by
  unfold gateResource
  cases cleared : invalidateAll invalidators rid caches with
  | mk left raised =>
    cases raised with
    | some error => exact .disqualified cleared
    | none =>
      dsimp only
      cases condemned : p.condemn rid with
      | none => exact .refused cleared
      | some after => exact .condemned (condemns_one condemned) cleared

theorem gateShed_spec (invalidators : List (Invalidator κ)) (wires : List ShedWire) (g : ShedGate κ) :
    ∃ rids safe, Condemns g.pins rids (gateShed invalidators wires g).pins ∧
      (gateShed invalidators wires g).condemned = g.condemned ++ rids ∧
      (gateShed invalidators wires g).safe = g.safe ++ safe ∧
      ((gateShed invalidators wires g).raised = false → safe.map (·.resourceId) = rids) ∧
      (∀ rid ∈ rids, ∃ wire ∈ wires, wire.resourceId = rid) ∧
      ∀ c ∈ safe, ∃ wire ∈ wires, wire.nbytes = some c.nbytes ∧
        c = ⟨wire.itemId,wire.resourceId,c.nbytes,wire.token⟩ := by
  induction wires generalizing g with
  | nil => exact ⟨[],[],Condemns.refl _,(List.append_nil _).symm,(List.append_nil _).symm,
      fun _ => rfl,nofun,nofun⟩
  | cons wire rest ih =>
    unfold gateShed
    have gated := gateResource_gated invalidators wire.resourceId g.pins g.caches
    generalize gateResource invalidators wire.resourceId g.pins g.caches = outcome at gated ⊢
    have later {P : ShedWire → Prop} : (∃ wire ∈ rest, P wire) → ∃ other ∈ wire :: rest, P other := by
      intro ⟨other,member,holds⟩
      exact ⟨other,List.mem_cons_of_mem _ member,holds⟩
    have skip (left : κ) := ih { g with caches := left }
    cases gated with
    | condemned condemns cleared =>
      rename_i after left
      dsimp only
      cases bytes : wire.nbytes with
      | none =>
        refine ⟨[wire.resourceId],[],condemns,rfl,(List.append_nil _).symm,?_,?_,nofun⟩
        · exact fun unraised => nomatch unraised
        · intro rid inside
          exact ⟨wire,List.mem_cons_self,(List.mem_singleton.mp inside).symm⟩
      | some nbytes =>
        obtain ⟨rids,safe,more,listed,kept,same,origin,drawn⟩ := ih { g with
          pins := after
          caches := left
          condemned := g.condemned ++ [wire.resourceId]
          safe := g.safe ++ [⟨wire.itemId,wire.resourceId,nbytes,wire.token⟩] }
        refine ⟨wire.resourceId :: rids,⟨wire.itemId,wire.resourceId,nbytes,wire.token⟩ :: safe,
          condemns.trans more,?_,?_,?_,?_,?_⟩
        · rw [listed,List.append_assoc,List.singleton_append]
        · rw [kept,List.append_assoc,List.singleton_append]
        · intro unraised
          rw [List.map_cons,same unraised]
        · intro rid inside
          obtain rfl | after := List.mem_cons.mp inside
          · exact ⟨wire,List.mem_cons_self,rfl⟩
          · exact later (origin rid after)
        · intro c inside
          obtain rfl | after := List.mem_cons.mp inside
          · exact ⟨wire,List.mem_cons_self,bytes,rfl⟩
          · exact later (drawn c after)
    | disqualified raised =>
      obtain ⟨rids,safe,more,listed,kept,same,origin,drawn⟩ := skip _
      exact ⟨rids,safe,more,listed,kept,same,fun rid inside => later (origin rid inside),
        fun c inside => later (drawn c inside)⟩
    | refused cleared =>
      obtain ⟨rids,safe,more,listed,kept,same,origin,drawn⟩ := skip _
      exact ⟨rids,safe,more,listed,kept,same,fun rid inside => later (origin rid inside),
        fun c inside => later (drawn c inside)⟩

theorem gateCandidates_spec (invalidators : List (Invalidator κ))
    (candidates : List ReleaseCandidate) (g : Gate) (p : ResourcePins) (caches : κ) :
    ∃ approved, approved.Sublist candidates ∧
      (gateCandidates invalidators candidates g p caches).1.consumer = g.consumer ∧
      (gateCandidates invalidators candidates g p caches).1.queryStatus = g.queryStatus ∧
      (gateCandidates invalidators candidates g p caches).1.approved = g.approved ++ approved ∧
      Condemns p (approved.map (·.resourceId))
        (gateCandidates invalidators candidates g p caches).2.1 := by
  induction candidates generalizing g p caches with
  | nil => exact ⟨[],.slnil,rfl,rfl,(List.append_nil _).symm,Condemns.refl p⟩
  | cons c rest ih =>
    unfold gateCandidates
    have gated := gateResource_gated invalidators c.resourceId p caches
    generalize gateResource invalidators c.resourceId p caches = outcome at gated ⊢
    cases gated with
    | condemned condemns cleared =>
      obtain ⟨approved,sub,name,status,listed,more⟩ := ih { g with approved := g.approved ++ [c] } _ _
      refine ⟨c :: approved,sub.cons_cons c,name,status,?_,condemns.trans more⟩
      rw [listed,List.append_assoc,List.singleton_append]
    | disqualified raised =>
      obtain ⟨approved,sub,rest⟩ := ih { g with
        status := .error
        error := some ("cache invalidation failed: " ++ _) } p _
      exact ⟨approved,sub.cons c,rest⟩
    | refused cleared =>
      obtain ⟨approved,sub,rest⟩ := ih { g with
        status := if g.status = .error then .error else .busy } p _
      exact ⟨approved,sub.cons c,rest⟩

theorem gateConsumer_spec (invalidators : List (Invalidator κ)) (proposal : Proposal)
    (p : ResourcePins) (caches : κ) :
    (gateConsumer invalidators proposal p caches).1.consumer = proposal.consumer ∧
      (gateConsumer invalidators proposal p caches).1.approved.Sublist proposal.candidates ∧
      Condemns p (gateConsumer invalidators proposal p caches).1.condemned
        (gateConsumer invalidators proposal p caches).2.1 := by
  have gated (status : ReleaseStatus) := gateCandidates_spec invalidators
    proposal.candidates ⟨proposal.consumer,status,[],.complete,none⟩ p caches
  unfold gateConsumer
  split
  · exact ⟨rfl,List.nil_sublist _,Condemns.refl p⟩
  · exact ⟨rfl,List.nil_sublist _,Condemns.refl p⟩
  · exact ⟨rfl,List.nil_sublist _,Condemns.refl p⟩
  · obtain ⟨approved,sub,name,_,listed,condemns⟩ := gated proposal.status
    rw [List.nil_append] at listed
    refine ⟨name,?_,?_⟩
    · rw [listed]
      exact sub
    · rw [Gate.condemned,listed]
      exact condemns

theorem gateConsumers_spec (invalidators : List (Invalidator κ)) (proposals : List Proposal)
    (p : ResourcePins) (caches : κ) :
    List.Forall₂ (fun proposal gate => gate.consumer = proposal.consumer ∧
        gate.approved.Sublist proposal.candidates) proposals
      (gateConsumers invalidators proposals p caches).1 ∧
      Condemns p ((gateConsumers invalidators proposals p caches).1.flatMap Gate.condemned)
        (gateConsumers invalidators proposals p caches).2.1 := by
  induction proposals generalizing p caches with
  | nil => exact ⟨.nil,Condemns.refl p⟩
  | cons proposal rest ih =>
    obtain ⟨name,sub,condemns⟩ := gateConsumer_spec invalidators proposal p caches
    obtain ⟨pairs,more⟩ := ih (gateConsumer invalidators proposal p caches).2.1
      (gateConsumer invalidators proposal p caches).2.2
    unfold gateConsumers
    dsimp only
    refine ⟨.cons ⟨name,sub⟩ pairs,?_⟩
    rw [List.flatMap_cons]
    exact condemns.trans more

theorem gateConsumers_drawn (invalidators : List (Invalidator κ)) (proposals : List Proposal)
    (p : ResourcePins) (caches : κ) :
    ∀ g ∈ (gateConsumers invalidators proposals p caches).1,
      ∃ proposal ∈ proposals, ∀ c ∈ g.approved, c ∈ proposal.candidates := by
  have pairs := (gateConsumers_spec invalidators proposals p caches).1
  generalize (gateConsumers invalidators proposals p caches).1 = gates at pairs ⊢
  intro g inside
  induction pairs with
  | nil => cases inside
  | cons head _ ih =>
    obtain rfl | later := List.mem_cons.mp inside
    · exact ⟨_,List.mem_cons_self,head.2.subset⟩
    · obtain ⟨proposal,member,within⟩ := ih later
      exact ⟨proposal,List.mem_cons_of_mem _ member,within⟩

/-- A successful invalidation clears the caches of a resource, and no invalidation brings back
what was cleared. -/
structure Covers (invalidators : List (Invalidator κ)) (clear : String → κ → Prop) : Prop where
  clears : ∀ rid caches after, invalidateAll invalidators rid caches = (after,none) →
    clear rid after
  keeps : ∀ rid other caches, clear other caches →
    clear other (invalidateAll invalidators rid caches).1

private theorem gateResource_keeps {P : κ → Prop}
    (keeps : ∀ rid caches, P caches → P (invalidateAll invalidators rid caches).1) (rid : String)
    {caches : κ} (holds : P caches) : P (gateResource invalidators rid p caches).2.1 := by
  have after := keeps rid caches holds
  have gated := gateResource_gated invalidators rid p caches
  generalize gateResource invalidators rid p caches = outcome at gated ⊢
  cases gated with
  | condemned _ cleared => rwa [cleared] at after
  | disqualified raised => rwa [raised] at after
  | refused cleared => rwa [cleared] at after

theorem gateShed_keeps {P : κ → Prop}
    (keeps : ∀ rid caches, P caches → P (invalidateAll invalidators rid caches).1)
    (wires : List ShedWire) (g : ShedGate κ) (holds : P g.caches) :
    P (gateShed invalidators wires g).caches := by
  induction wires generalizing g with
  | nil => exact holds
  | cons wire rest ih =>
    have after := gateResource_keeps (p := g.pins) keeps wire.resourceId holds
    unfold gateShed
    split
    · rename_i pins caches gated
      rw [gated] at after
      split
      · exact after
      · exact ih _ after
    · rename_i pins caches verdict _ gated
      rw [gated] at after
      exact ih _ after

theorem gateShed_clears {clear : String → κ → Prop} (covers : Covers invalidators clear)
    (wires : List ShedWire) (g : ShedGate κ) {rid : String}
    (inside : rid ∈ (gateShed invalidators wires g).condemned) :
    rid ∈ g.condemned ∨ clear rid (gateShed invalidators wires g).caches := by
  induction wires generalizing g with
  | nil => exact .inl inside
  | cons wire rest ih =>
    unfold gateShed at inside ⊢
    have gated := gateResource_gated invalidators wire.resourceId g.pins g.caches
    generalize gateResource invalidators wire.resourceId g.pins g.caches = outcome at gated inside ⊢
    cases gated with
    | condemned condemns cleared =>
      have now := covers.clears _ _ _ cleared
      dsimp only at inside ⊢
      split at inside
      · obtain old | new := List.mem_append.mp inside
        · exact .inl old
        · obtain rfl := List.mem_singleton.mp new
          exact .inr now
      · obtain listed | clear := ih _ inside
        · obtain old | new := List.mem_append.mp listed
          · exact .inl old
          · obtain rfl := List.mem_singleton.mp new
            exact .inr (gateShed_keeps (fun rid => covers.keeps rid _) rest _ now)
        · exact .inr clear
    | disqualified raised => exact ih _ inside
    | refused cleared => exact ih _ inside

theorem gateCandidates_keeps {P : κ → Prop}
    (keeps : ∀ rid caches, P caches → P (invalidateAll invalidators rid caches).1)
    (candidates : List ReleaseCandidate) (g : Gate) (p : ResourcePins) {caches : κ}
    (holds : P caches) : P (gateCandidates invalidators candidates g p caches).2.2 := by
  induction candidates generalizing g p caches with
  | nil => exact holds
  | cons c rest ih =>
    have after := gateResource_keeps (p := p) keeps c.resourceId holds
    unfold gateCandidates
    split
    · rename_i pins caches error gated
      rw [gated] at after
      exact ih _ _ after
    · rename_i pins caches gated
      rw [gated] at after
      exact ih _ _ after
    · rename_i pins caches gated
      rw [gated] at after
      exact ih _ _ after

theorem gateCandidates_clears {clear : String → κ → Prop} (covers : Covers invalidators clear)
    (candidates : List ReleaseCandidate) (g : Gate) (p : ResourcePins) (caches : κ) {rid : String}
    (inside : rid ∈ (gateCandidates invalidators candidates g p caches).1.condemned) :
    rid ∈ g.condemned ∨ clear rid (gateCandidates invalidators candidates g p caches).2.2 := by
  induction candidates generalizing g p caches with
  | nil => exact .inl inside
  | cons c rest ih =>
    unfold gateCandidates at inside ⊢
    have gated := gateResource_gated invalidators c.resourceId p caches
    generalize gateResource invalidators c.resourceId p caches = outcome at gated inside ⊢
    cases gated with
    | condemned condemns cleared =>
      have now := covers.clears _ _ _ cleared
      obtain listed | clear := ih _ _ _ inside
      · rw [Gate.condemned,List.map_append,List.mem_append] at listed
        obtain old | new := listed
        · exact .inl old
        · obtain rfl := List.mem_singleton.mp new
          exact .inr (gateCandidates_keeps (fun rid => covers.keeps rid _) rest _ _ now)
      · exact .inr clear
    | disqualified raised => exact ih _ _ _ inside
    | refused cleared => exact ih _ _ _ inside

private theorem gateConsumer_keeps {P : κ → Prop}
    (keeps : ∀ rid caches, P caches → P (invalidateAll invalidators rid caches).1)
    (proposal : Proposal) (p : ResourcePins) {caches : κ} (holds : P caches) :
    P (gateConsumer invalidators proposal p caches).2.2 := by
  unfold gateConsumer
  split
  · exact holds
  · exact holds
  · exact holds
  · exact gateCandidates_keeps keeps _ _ _ holds

private theorem gateConsumer_clears {clear : String → κ → Prop} (covers : Covers invalidators clear)
    (proposal : Proposal) (p : ResourcePins) (caches : κ) {rid : String}
    (inside : rid ∈ (gateConsumer invalidators proposal p caches).1.condemned) :
    clear rid (gateConsumer invalidators proposal p caches).2.2 := by
  unfold gateConsumer at inside ⊢
  split at inside
  · cases inside
  · cases inside
  · cases inside
  · obtain none | clear := gateCandidates_clears covers _ _ _ _ inside
    · cases none
    · exact clear

theorem gateConsumers_keeps {P : κ → Prop}
    (keeps : ∀ rid caches, P caches → P (invalidateAll invalidators rid caches).1)
    (proposals : List Proposal) (p : ResourcePins) {caches : κ} (holds : P caches) :
    P (gateConsumers invalidators proposals p caches).2.2 := by
  induction proposals generalizing p caches with
  | nil => exact holds
  | cons proposal rest ih => exact ih _ (gateConsumer_keeps keeps proposal p holds)

theorem gateConsumers_clears {clear : String → κ → Prop} (covers : Covers invalidators clear)
    (proposals : List Proposal) (p : ResourcePins) (caches : κ) {rid : String}
    (inside : rid ∈ (gateConsumers invalidators proposals p caches).1.flatMap Gate.condemned) :
    clear rid (gateConsumers invalidators proposals p caches).2.2 := by
  induction proposals generalizing p caches with
  | nil => cases inside
  | cons proposal rest ih =>
    unfold gateConsumers at inside ⊢
    dsimp only at inside ⊢
    rw [List.flatMap_cons,List.mem_append] at inside
    obtain here | later := inside
    · have now := gateConsumer_clears covers proposal p caches here
      exact gateConsumers_keeps (fun rid => covers.keeps rid _) rest _ now
    · exact ih _ _ later

/-- Reported as released; refused by the child; or neither. -/
inductive Fate
  | released
  | refused
  | unproven
  deriving DecidableEq

def FullExchange.fate (x : FullExchange) (results : List ChildResult) (rid : String) : Fate :=
  match x.gates.find? fun gate => decide (rid ∈ gate.condemned) with
  | none => .unproven
  | some gate =>
    match results.find? (·.consumer = gate.consumer) with
    | none => .unproven
    | some child =>
      if rid ∈ child.released then .released
      else if child.refuses then .refused
      else .unproven

theorem mem_settleShed (condemned released : List String) (rid : String) :
    rid ∈ (settleShed condemned released p).condemned ↔
      rid ∈ p.condemned ∧ (rid ∈ condemned → rid ∈ released) := by
  rw [settleShed,ResourcePins.mem_absolveAll,List.mem_filter]
  simp only [decide_eq_true_eq,not_and,not_not]

def RefusedAt (results : List ChildResult) (rid : String) (gate : Gate) : Prop :=
  ∃ child, results.find? (·.consumer = gate.consumer) = some child ∧ child.refuses = true ∧
    rid ∈ gate.condemned ∧ rid ∉ child.released

private theorem mem_settleGate (results : List ChildResult) (gate : Gate) (rid : String) :
    rid ∈ (settleGate results p gate).condemned ↔
      rid ∈ p.condemned ∧ ¬ RefusedAt results rid gate := by
  unfold settleGate RefusedAt
  cases found : results.find? (·.consumer = gate.consumer) with
  | none => simp
  | some child =>
    dsimp only
    by_cases refuses : child.refuses = true
    · rw [if_pos refuses,ResourcePins.mem_absolveAll,List.mem_filter]
      simp [refuses]
    · rw [if_neg refuses]
      simp [refuses]

private theorem mem_settleGates (results : List ChildResult) (gates : List Gate) (rid : String) :
    rid ∈ (gates.foldl (settleGate results) p).condemned ↔
      rid ∈ p.condemned ∧ ∀ gate ∈ gates, ¬ RefusedAt results rid gate := by
  induction gates generalizing p with
  | nil => simp
  | cons gate rest ih =>
    rw [List.foldl_cons,ih,mem_settleGate,List.forall_mem_cons,and_assoc]

theorem mem_settleFull (x : FullExchange) (results : List ChildResult) (rid : String) :
    rid ∈ (settleFull x results p).condemned ↔
      rid ∈ p.condemned ∧ ∀ gate ∈ x.gates, ¬ RefusedAt results rid gate :=
  mem_settleGates results x.gates rid

theorem counts_settleFull (x : FullExchange) (results : List ChildResult) :
    (settleFull x results p).counts = p.counts := by
  unfold settleFull
  induction x.gates generalizing p with
  | nil => rfl
  | cons gate rest ih =>
    rw [List.foldl_cons,ih]
    unfold settleGate
    split
    · split
      · exact ResourcePins.counts_absolveAll _
      · rfl
    · rfl

theorem unique_gate {gates : List Gate} (distinct : (gates.flatMap Gate.condemned).Nodup)
    {g g' : Gate} (inside : g ∈ gates) (inside' : g' ∈ gates) {rid : String}
    (here : rid ∈ g.condemned) (here' : rid ∈ g'.condemned) : g = g' := by
  induction gates with
  | nil => cases inside
  | cons gate rest ih =>
    rw [List.flatMap_cons,List.nodup_append] at distinct
    obtain ⟨_,later,apart⟩ := distinct
    have elsewhere {other : Gate} (member : other ∈ rest) (listed : rid ∈ other.condemned) :
        rid ∈ rest.flatMap Gate.condemned := List.mem_flatMap.mpr ⟨other,member,listed⟩
    obtain rfl | first := List.mem_cons.mp inside
    · obtain rfl | second := List.mem_cons.mp inside'
      · rfl
      · exact absurd rfl (apart rid here rid (elsewhere second here'))
    · obtain rfl | second := List.mem_cons.mp inside'
      · exact absurd rfl (apart rid here' rid (elsewhere first here))
      · exact ih later first second

theorem fate_refused {x : FullExchange} (distinct : (x.gates.flatMap Gate.condemned).Nodup)
    (results : List ChildResult) {rid : String} (inside : rid ∈ x.gates.flatMap Gate.condemned) :
    x.fate results rid = .refused ↔ ∃ gate ∈ x.gates, RefusedAt results rid gate := by
  obtain ⟨gate,member,listed⟩ := List.mem_flatMap.mp inside
  obtain ⟨first,found⟩ : ∃ first, x.gates.find? (fun g => decide (rid ∈ g.condemned)) = some first := by
    apply Option.isSome_iff_exists.mp
    apply List.find?_isSome.mpr
    exact ⟨gate,member,decide_eq_true listed⟩
  have held : rid ∈ first.condemned := by simpa using List.find?_some found
  have same := unique_gate distinct (List.mem_of_find?_eq_some found) member held listed
  subst same
  have only {other : Gate} (there : other ∈ x.gates) (refused : RefusedAt results rid other) :
      other = first := by
    obtain ⟨child,_,_,condemned,_⟩ := refused
    exact unique_gate distinct there member condemned listed
  unfold FullExchange.fate
  rw [found]
  dsimp only
  cases answered : results.find? (·.consumer = first.consumer) with
  | none =>
    refine ⟨nofun,?_⟩
    rintro ⟨other,there,refused⟩
    obtain rfl := only there refused
    obtain ⟨child,reported,_⟩ := refused
    exact absurd reported (by simp [answered])
  | some child =>
    dsimp only
    constructor
    · intro fate
      split at fate
      · cases fate
      · split at fate
        · rename_i refuses
          exact ⟨first,member,child,answered,refuses,listed,‹_›⟩
        · cases fate
    · rintro ⟨other,there,refused⟩
      obtain rfl := only there refused
      obtain ⟨reported,same,refuses,_,unreleased⟩ := refused
      obtain rfl := Option.some.inj (answered.symm.trans same)
      rw [if_neg unreleased,if_pos refuses]

private theorem wireStatus_allowed {wire : Object} {allowed : List ReleaseStatus}
    {status : ReleaseStatus} {error : Option String}
    (read : wireStatus wire allowed = some (status,error)) : status ∈ allowed := by
  unfold wireStatus at read
  split at read
  · split at read
    · cases read
    · rename_i stated _
      by_cases known : stated ∈ allowed
      · rw [if_neg (not_not.mpr known)] at read
        suffices same : stated = status from same ▸ known
        split at read
        · split at read
          · split at read
            · cases read
            · exact congrArg Prod.fst (Option.some.inj read)
          · cases read
        · split at read
          · exact congrArg Prod.fst (Option.some.inj read)
          · exact congrArg Prod.fst (Option.some.inj read)
          · cases read
      · rw [if_pos known] at read
        cases read
  · cases read

private theorem readChildResult_spec {x : FullExchange} {seen : List String} {raw : Json.Value}
    {child : ChildResult} (read : readChildResult x seen raw = some child) :
    child.status ≠ .ready ∧ ∀ rid ∈ child.released, rid ∈ x.condemnedOf child.consumer := by
  unfold readChildResult at read
  split at read
  · obtain ⟨consumer,_,read⟩ := Option.bind_eq_some_iff.mp read
    split at read
    · cases read
    · obtain ⟨⟨status,error⟩,stated,read⟩ := Option.bind_eq_some_iff.mp read
      obtain ⟨raws,_,read⟩ := Option.bind_eq_some_iff.mp read
      obtain ⟨released,_,read⟩ := Option.bind_eq_some_iff.mp read
      split at read
      · rename_i covered
        obtain rfl := Option.some.inj read
        refine ⟨?_,covered.2⟩
        intro same
        have allowed := wireStatus_allowed stated
        rw [show status = .ready from same] at allowed
        simp at allowed
      · cases read
  · cases read

private theorem readChildResults_spec {x : FullExchange} {seen : List String} {raws : List Json.Value}
    {results : List ChildResult} (read : readChildResults x seen raws = some results) :
    ∀ child ∈ results, child.status ≠ .ready ∧
      ∀ rid ∈ child.released, rid ∈ x.condemnedOf child.consumer := by
  induction raws generalizing seen results with
  | nil =>
    obtain rfl := Option.some.inj read
    exact nofun
  | cons raw rest ih =>
    unfold readChildResults at read
    obtain ⟨child,first,read⟩ := Option.bind_eq_some_iff.mp read
    obtain ⟨others,later,same⟩ := Option.bind_eq_some_iff.mp read
    obtain rfl := Option.some.inj same
    intro other inside
    obtain rfl | after := List.mem_cons.mp inside
    · exact readChildResult_spec first
    · exact ih later other after

theorem readCommit_spec {x : FullExchange} {commit : Object} {status : ReleaseStatus}
    {error : Option String} {results : List ChildResult}
    (read : readCommit x commit = some (status,error,results)) :
    (∀ gate ∈ x.gates, ∃ child, results.find? (·.consumer = gate.consumer) = some child) ∧
      ∀ child ∈ results, child.status ≠ .ready ∧
        ∀ rid ∈ child.released, rid ∈ x.condemnedOf child.consumer := by
  unfold readCommit at read
  split at read
  · cases read
  · split at read
    · cases read
    · obtain ⟨⟨_,_⟩,_,read⟩ := Option.bind_eq_some_iff.mp read
      obtain ⟨raws,_,read⟩ := Option.bind_eq_some_iff.mp read
      obtain ⟨results',parsed,read⟩ := Option.bind_eq_some_iff.mp read
      split at read
      · rename_i named
        have same := congrArg (fun triple => triple.2.2) (Option.some.inj read)
        dsimp only at same
        subst same
        refine ⟨?_,readChildResults_spec parsed⟩
        intro gate inside
        have answered : gate.consumer ∈ (results'.map (·.consumer)).toFinset := by
          rw [named,List.mem_toFinset]
          exact List.mem_map_of_mem inside
        obtain ⟨child,reported,name⟩ := List.mem_map.mp (List.mem_toFinset.mp answered)
        apply Option.isSome_iff_exists.mp
        apply List.find?_isSome.mpr
        exact ⟨child,reported,decide_eq_true name⟩
      · cases read

end Dinkster.Workers
