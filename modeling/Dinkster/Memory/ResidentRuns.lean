import Dinkster.Memory.ResidentFailures

/-! Any sequence of calls on a resident pool: the links hold, stale tokens drop nothing, and the
residents whose unload raised are kept exactly where every release is orderly. -/
namespace Dinkster.Memory.ResidentPool

variable {uuids : Uuids} {p q r : ResidentPool}

structure Ages (p q : ResidentPool) : Prop where
  clock : p.clock ≤ q.clock
  entries : ∀ rid entry, q.entries.get? rid = some entry →
    (∃ before, p.entries.get? rid = some before ∧ entry.lastUsed = before.lastUsed) ∨
      (p.clock ≤ entry.lastUsed ∧ entry.lastUsed < q.clock)

theorem Ages.refl (p : ResidentPool) : Ages p p :=
  ⟨Nat.le_refl _,fun _ entry found => .inl ⟨entry,found,rfl⟩⟩

theorem Ages.trans (first : Ages p q) (rest : Ages q r) : Ages p r where
  clock := first.clock.trans rest.clock
  entries := by
    intro rid entry found
    obtain ⟨middle,there,same⟩ | ⟨low,high⟩ := rest.entries rid entry found
    · obtain ⟨before,old,equal⟩ | ⟨low,high⟩ := first.entries rid middle there
      · exact .inl ⟨before,old,same.trans equal⟩
      · exact .inr ⟨same ▸ low,same ▸ high.trans_le rest.clock⟩
    · exact .inr ⟨first.clock.trans low,high⟩

private theorem ages_of_same (entries : q.entries = p.entries) (clock : q.clock = p.clock) :
    Ages p q :=
  ⟨clock.ge,fun _ entry found => .inl ⟨entry,entries ▸ found,rfl⟩⟩

private theorem ages_use {rid : String} {changed : PoolEntry} (used : changed.lastUsed = p.clock) :
    Ages p { p with
      entries := p.entries.set rid changed
      clock := p.clock + 1 } where
  clock := Nat.le_succ _
  entries := by
    intro other entry found
    rw [Dict.get?_set] at found
    split at found
    · obtain rfl := Option.some.inj found
      exact .inr ⟨used.ge,used ▸ Nat.lt_succ_self _⟩
    · exact .inl ⟨entry,found,rfl⟩

private theorem addDependents_ages (rid : String) (owners : List String) (p : ResidentPool) :
    Ages p (owners.foldl (addDependent rid) p) := by
  induction owners generalizing p with
  | nil => exact .refl p
  | cons owner rest ih =>
    have first : Ages p (addDependent rid p owner) := ages_of_same rfl rfl
    exact first.trans (ih (addDependent rid p owner))

theorem removeTree_clock (removing pending : List String) (p : ResidentPool) :
    (p.removeTree removing pending).clock = p.clock := by
  fun_induction removeTree p removing pending with
  | case1 => rfl
  | case2 p removing rid rest known ih => exact ih
  | case3 p removing rid rest fresh ih => exact ih

theorem change_ages (change : Change uuids p q) : Ages p q := by
  cases change with
  | table identity =>
    unfold tableRidFor
    split
    · split
      · exact .refl p
      · exact ages_of_same rfl rfl
    · exact ages_of_same rfl rfl
  | linked recorded =>
    rename_i rid owners
    obtain rfl | ⟨_,rfl⟩ := depend_cases recorded
    · exact .refl _
    · have first : Ages p { p with dependentOwners := p.dependentOwners.set rid owners } :=
        ages_of_same rfl rfl
      exact first.trans (addDependents_ages rid owners _)
  | touched rid cost => exact ages_use rfl
  | used found => exact ages_use rfl
  | placed found unused =>
    refine ⟨Nat.le_refl _,?_⟩
    intro other entry there
    rw [Dict.get?_set] at there
    split at there
    · rename_i same
      obtain rfl := Option.some.inj there
      exact .inl ⟨_,same ▸ found,unused⟩
    · exact .inl ⟨entry,there,rfl⟩
  | named key held => exact ages_of_same rfl rfl
  | removed rid =>
    refine ⟨(removeTree_clock [] [rid] p).ge,?_⟩
    intro other entry found
    obtain same | gone := removeTree_entry [] [rid] p other
    · exact .inl ⟨entry,same ▸ found,rfl⟩
    · rw [remove,gone] at found
      cases found

theorem acts_ages (p : ResidentPool) (calls : List Call) :
    Ages p (calls.foldl (act uuids) p) :=
  acts_keep (fun _ _ change kept => kept.trans (change_ages change)) calls (.refl p)

/-- One of the calls gave the resident a new last use. -/
def UsedIn (uuids : Uuids) (rid : String) : ResidentPool → List Call → Prop
  | _, [] => False
  | p, call :: rest =>
    (∃ entry, (p.act uuids call).entries.get? rid = some entry ∧ p.clock ≤ entry.lastUsed) ∨
      UsedIn uuids rid (p.act uuids call) rest

theorem used_late {rid : String} {reading : Nat} (calls : List Call) (later : reading ≤ p.clock)
    (used : UsedIn uuids rid p calls) (entry : PoolEntry)
    (found : (calls.foldl (act uuids) p).entries.get? rid = some entry) :
    reading ≤ entry.lastUsed := by
  induction calls generalizing p with
  | nil => exact used.elim
  | cons call rest ih =>
    have step : Ages p (p.act uuids call) := acts_ages p [call]
    obtain ⟨now,there,drawn⟩ | used := used
    · obtain ⟨before,old,same⟩ | ⟨low,_⟩ :=
        (acts_ages (p.act uuids call) rest).entries rid entry found
      · obtain rfl := Option.some.inj (old.symm.trans there)
        rw [same]
        exact later.trans drawn
      · exact (later.trans step.clock).trans low
    · exact ih (later.trans step.clock) used found

theorem stale_of_used (uuids : Uuids) (earlier later : List Call) {c : ReleaseCandidate}
    (proposed : (run uuids earlier).current c = true)
    (used : UsedIn uuids c.itemId (run uuids earlier) later) :
    (run uuids (earlier ++ later)).current c = false := by
  unfold current at proposed
  split at proposed
  · rename_i entry found
    have early : entry.lastUsed < (run uuids earlier).clock := by
      obtain ⟨before,old,_⟩ | ⟨_,high⟩ := (acts_ages empty earlier).entries c.itemId entry found
      · cases old
      · exact high
    unfold run at *
    rw [List.foldl_append]
    unfold current
    split
    · rename_i last there
      have late := used_late later (Nat.le_refl _) used last there
      apply beq_eq_false_iff_ne.mpr
      intro same
      have tokens := Nat.repr_inj.mp (same.trans (beq_iff_eq.mp proposed).symm)
      omega
    · rfl
  · cases proposed

/-- The residents whose unload raises under pressure on a `vram` lane. -/
def raisedUnloading (m : Mechanism) (device : String) (bytesNeeded : Option Int) :
    List String → Nat → ResidentPool → List String
  | [], _, _ => []
  | rid :: rest, freed, p =>
    if bytesNeeded.any fun needed => decide (needed ≤ (freed : Int)) then []
    else
      (match p.entries.get? rid,p.objects.get? rid with
        | some entry,some _ => if entry.loaded && !m.unloads rid then [rid] else []
        | _,_ => []) ++
      raisedUnloading m device bytesNeeded rest (freed + (p.unloadEntry m device rid).2)
        (p.unloadEntry m device rid).1

/-- The residents whose unload raises during a call. -/
def raisedBy (p : ResidentPool) : Call → List String
  | .releaseResident m honorPins identity =>
    (p.admitted identity).toList.filter fun rid =>
      p.unloadFails (Mechanism.honoring m honorPins) rid
  | .shed m device bytesNeeded items =>
    if !device.startsWith "vram:" then
      raised m false device (p.proposeRelease device bytesNeeded items) p
    else raisedUnloading m device (if items.isSome then none else some bytesNeeded)
      (p.unloadable device items) 0 p
  | .release m device candidates => raised m false device candidates p
  | .releaseFull m candidates => raised m true "ram" candidates p
  | _ => []

/-- No release of the call reaches a raising unload without collecting failures, or releases
after one what the resident is attached to. -/
def OrderlyCall (p : ResidentPool) : Call → Prop
  | .releaseResident m honorPins identity =>
    ∀ rid ∈ p.admitted identity, p.unloadFails (Mechanism.honoring m honorPins) rid = false
  | .shed m device bytesNeeded items =>
    device.startsWith "vram:" = true ∨
      Orderly m false device (p.proposeRelease device bytesNeeded items) p
  | .release m device candidates => Orderly m false device candidates p
  | .releaseFull m candidates => Orderly m true "ram" candidates p
  | _ => True

theorem unloadEntry_objects (m : Mechanism) (device : String) (p : ResidentPool) (rid : String) :
    (p.unloadEntry m device rid).1.objects = p.objects := by
  unfold unloadEntry
  split
  · split
    · rfl
    · split <;> rfl
  · rfl

theorem unloadEntries_objects (m : Mechanism) (device : String) (bytesNeeded : Option Int)
    (rids : List String) (freed : Nat) (p : ResidentPool) :
    (unloadEntries m device bytesNeeded rids freed p).1.objects = p.objects := by
  induction rids generalizing freed p with
  | nil => rfl
  | cons rid rest ih =>
    unfold unloadEntries
    split
    · rfl
    · exact (ih _ _).trans (unloadEntry_objects m device p rid)

theorem raisedUnloading_held (m : Mechanism) (device : String) (bytesNeeded : Option Int)
    (rids : List String) (freed : Nat) (p : ResidentPool) {rid : String}
    (inside : rid ∈ raisedUnloading m device bytesNeeded rids freed p) :
    rid ∈ p.objects.keys := by
  induction rids generalizing freed p with
  | nil => cases inside
  | cons first rest ih =>
    unfold raisedUnloading at inside
    split at inside
    · cases inside
    · obtain now | later := List.mem_append.mp inside
      · split at now
        · rename_i held
          split at now
          · obtain rfl := List.mem_singleton.mp now
            exact (Dict.mem_keys_iff _ _).mpr ⟨_,held⟩
          · cases now
        · cases now
      · have kept := ih _ _ later
        rwa [unloadEntry_objects] at kept

theorem release_resident_iff (m : Mechanism) (honorPins : Bool) (identity : Nat)
    (p : ResidentPool) : OrderlyCall p (.releaseResident m honorPins identity) ↔
      ∀ rid ∈ raisedBy p (.releaseResident m honorPins identity),
        rid ∈ (p.releaseResident m honorPins identity).1.objects.keys := by
  unfold OrderlyCall raisedBy releaseResident
  dsimp only
  cases p.admitted identity with
  | none => simp
  | some rid =>
    dsimp only
    rw [releaseEntry_eq]
    cases failed : p.unloadFails (Mechanism.honoring m honorPins) rid with
    | false => simp [failed]
    | true =>
      rw [releases_of_unloadFails failed]
      simp [failed,remove_gone]

theorem orderlyCall_iff (uuids : Uuids) (linked : p.Linked) (call : Call) :
    OrderlyCall p call ↔ ∀ rid ∈ raisedBy p call, rid ∈ (p.act uuids call).objects.keys := by
  cases call with
  | releaseResident m honorPins identity => exact release_resident_iff m honorPins identity p
  | shed m device bytesNeeded items =>
    unfold OrderlyCall raisedBy act shed
    dsimp only
    cases lane : device.startsWith "vram:" with
    | false =>
      simp only [Bool.false_eq_true,false_or,Bool.not_false,if_true]
      exact orderly_iff _ linked
    | true =>
      simp only [true_or,Bool.not_true,Bool.false_eq_true,if_false,true_iff]
      intro rid inside
      rw [unloadEntries_objects]
      exact raisedUnloading_held m device _ _ 0 p inside
  | release m device candidates => exact orderly_iff candidates linked
  | releaseFull m candidates =>
    unfold OrderlyCall raisedBy act
    dsimp only
    rw [(releaseFull_attempts p candidates).1]
    exact orderly_iff candidates linked
  | ridFor obj => simp [OrderlyCall,raisedBy]
  | get rid obj => simp [OrderlyCall,raisedBy]
  | obtainKnown key value => simp [OrderlyCall,raisedBy]
  | obtainLoaded key value ramBytes => simp [OrderlyCall,raisedBy]
  | setLoaded identity loaded => simp [OrderlyCall,raisedBy]
  | remove rid => simp [OrderlyCall,raisedBy]

theorem release_without {c : ReleaseCandidate} (m : Mechanism) (device : String)
    (before after : List ReleaseCandidate) (stale : p.current c = false) :
    p.release m device (before ++ c :: after) = p.release m device (before ++ after) ∧
      p.releaseFull m (before ++ c :: after) = p.releaseFull m (before ++ after) := by
  unfold release releaseFull
  rw [attempts_without before after stale,attempts_without before after stale]
  exact ⟨rfl,rfl⟩

/-- After any calls the maps are inverse, the keys resolve, and a stale token, such as one that
was proposed before a use, drops nothing; and the residents whose unload raised in a call are all
still there after it exactly when every call is orderly. -/
theorem pool_kept (uuids : Uuids) (calls : List Call) :
    (run uuids calls).Inverse ∧ (run uuids calls).KeysResolve ∧
    (∀ m device before c after, (run uuids calls).current c = false →
      (run uuids calls).release m device (before ++ c :: after) =
        (run uuids calls).release m device (before ++ after) ∧
      (run uuids calls).releaseFull m (before ++ c :: after) =
        (run uuids calls).releaseFull m (before ++ after)) ∧
    (∀ earlier later c, calls = earlier ++ later → (run uuids earlier).current c = true →
      UsedIn uuids c.itemId (run uuids earlier) later → (run uuids calls).current c = false) ∧
    ((∀ earlier call later, calls = earlier ++ call :: later →
        ∀ rid ∈ raisedBy (run uuids earlier) call,
          rid ∈ (run uuids (earlier ++ [call])).objects.keys) ↔
      ∀ earlier call later, calls = earlier ++ call :: later →
        OrderlyCall (run uuids earlier) call) := by
  have linked := run_linked uuids calls
  refine ⟨linked.inverse,linked.keyed,?_,?_,?_⟩
  · intro m device before c after stale
    exact release_without m device before after stale
  · rintro earlier later c rfl proposed used
    exact stale_of_used uuids earlier later proposed used
  · have each : ∀ earlier call, OrderlyCall (run uuids earlier) call ↔
        ∀ rid ∈ raisedBy (run uuids earlier) call,
          rid ∈ (run uuids (earlier ++ [call])).objects.keys := by
      intro earlier call
      have after : run uuids (earlier ++ [call]) = (run uuids earlier).act uuids call :=
        List.foldl_append
      rw [after]
      exact orderlyCall_iff uuids (run_linked uuids earlier) call
    constructor
    · intro kept earlier call later whole
      exact (each earlier call).mpr (kept earlier call later whole)
    · intro orderly earlier call later whole
      exact (each earlier call).mp (orderly earlier call later whole)

/-- Ids that count up. -/
def countedUuids : Uuids where
  text := Nat.repr
  distinct := fun _ _ same => Nat.repr_inj.mp same

def raisingUnload : Mechanism := ⟨fun _ => true,fun _ => true,fun _ => some false,fun _ => false⟩

/-- An admitted object is released under pressure while its unload raises. -/
def raisingRelease : Call := .release raisingUnload "ram" [⟨"0","resident:0",0,"1"⟩]

/-- The unload raised, and the resident is dropped. -/
theorem raised_dropped :
    "0" ∈ raisedBy (run countedUuids [.ridFor (.mk 7 .empty false [])]) raisingRelease ∧
      "0" ∉ (run countedUuids [.ridFor (.mk 7 .empty false []),raisingRelease]).objects.keys := by
  have released : "0" ∈ (attempts raisingUnload false "ram" [⟨"0","resident:0",0,"1"⟩]
      (run countedUuids [.ridFor (.mk 7 .empty false [])])).2.1.map (·.1) := by decide +kernel
  have gone := (attempts_reported _ released).2
  exact ⟨by decide +kernel,gone⟩

end Dinkster.Memory.ResidentPool
