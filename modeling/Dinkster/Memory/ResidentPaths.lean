import Dinkster.Memory.ResidentRelease

/-! The remaining calls on a resident pool: loading by key, placement, advisory unloading and the
release of one object. Which caller runs a load is settled by futures outside the maps, so any
completed load is taken; a call that raises leaves what it changed before. -/
namespace Dinkster.Memory

/-- `resident_owners(obj)[0]` -/
def Obj.primaryOwner : Obj → Obj
  | .mk identity cost attached owners =>
    if attached then owners.head?.getD (.mk identity cost attached owners)
    else .mk identity cost attached owners

namespace ResidentPool

/-- `self._entries[owner_rid].cost["ram"] = nbytes`, then `self._keyed[key] = rid`; `none` when
the owner has no entry. -/
def nameLoaded (p : ResidentPool) (key rid ownerRid : String) (nbytes : Nat) :
    Option ResidentPool :=
  match p.entries.get? ownerRid with
  | none => none
  | some entry => some { p with
      entries := p.entries.set ownerRid { entry with cost := entry.cost.set "ram" nbytes }
      keyed := p.keyed.set key rid }

/-- `obtain` once the value is loaded, and whether it returns. The cost is none when it is no
nonnegative integer. -/
def obtainLoaded (uuids : Uuids) (p : ResidentPool) (key : String) (value : Obj)
    (ramBytes : Option Nat) : ResidentPool × Bool :=
  match ramBytes with
  | none => (p,false)
  | some nbytes =>
    match ridFor uuids value p with
    | (p,none) => (p,false)
    | (p,some rid) =>
      match ridFor uuids value.primaryOwner p with
      | (p,none) => (p,false)
      | (p,some ownerRid) =>
        match p.nameLoaded key rid ownerRid nbytes with
        | none => (p,false)
        | some named => (named,true)

def obtainKnown (uuids : Uuids) (p : ResidentPool) (key : String) (value : Obj) :
    Option ResidentPool :=
  (p.keyed.get? key).bind fun rid => p.get uuids rid value

/-- The id of an admitted object. -/
def admitted (p : ResidentPool) (identity : Nat) : Option String :=
  (p.ids.get? identity).filter fun rid => p.objects.get? rid = some identity

def setLoaded (p : ResidentPool) (identity : Nat) (loaded : Bool) : ResidentPool :=
  match p.admitted identity with
  | none => p
  | some rid =>
    match p.entries.get? rid with
    | none => p
    | some entry => { p with entries := p.entries.set rid { entry with loaded := loaded } }

def unloadEntry (m : Mechanism) (device : String) (p : ResidentPool) (rid : String) :
    ResidentPool × Nat :=
  match p.entries.get? rid,p.objects.get? rid with
  | some entry,some _ =>
    if !entry.loaded then (p,0)
    else if !m.unloads rid then (p,0)
    else ({ p with entries := p.entries.set rid { entry with loaded := false } },
      (entry.cost.get? device).getD 0)
  | _,_ => (p,0)

def unloadEntries (m : Mechanism) (device : String) (bytesNeeded : Option Int) :
    List String → Nat → ResidentPool → ResidentPool × Nat
  | [], freed, p => (p,freed)
  | rid :: rest, freed, p =>
    if bytesNeeded.any fun needed => decide (needed ≤ (freed : Int)) then (p,freed)
    else
      let (p,bytes) := p.unloadEntry m device rid
      unloadEntries m device bytesNeeded rest (freed + bytes) p

def unloadable (p : ResidentPool) (device : String) (items : Option (List String)) : List String :=
  match items with
  | some items => items.filter (· ∈ p.entries.keys)
  | none => (leastRecent (p.entries.entries.filter fun e =>
      decide (0 < (e.2.cost.get? device).getD 0) && e.2.loaded)).map (·.1)

def shed (m : Mechanism) (p : ResidentPool) (device : String) (bytesNeeded : Int)
    (items : Option (List String)) : ResidentPool × Nat :=
  if !device.startsWith "vram:" then
    let (p,outcome) := p.release m device (p.proposeRelease device bytesNeeded items)
    (p,(outcome.map (·.2)).sum)
  else unloadEntries m device (if items.isSome then none else some bytesNeeded)
    (p.unloadable device items) 0 p

def Mechanism.honoring (m : Mechanism) (honorPins : Bool) : Mechanism :=
  { m with unpinned := fun rid => !honorPins || m.unpinned rid }

def releaseResident (m : Mechanism) (honorPins : Bool) (p : ResidentPool) (identity : Nat) :
    ResidentPool × Bool :=
  match p.admitted identity with
  | none => (p,false)
  | some rid =>
    let (p,freed,_) := p.releaseEntry (Mechanism.honoring m honorPins) false "ram" rid
    (p,freed.isSome)

/-- A call with what its environment answers: the attributes of an object as they are then, and
the callbacks of a release. -/
inductive Call
  | ridFor (obj : Obj)
  | get (rid : String) (obj : Obj)
  | obtainKnown (key : String) (value : Obj)
  | obtainLoaded (key : String) (value : Obj) (ramBytes : Option Nat)
  | setLoaded (identity : Nat) (loaded : Bool)
  | remove (rid : String)
  | releaseResident (m : Mechanism) (honorPins : Bool) (identity : Nat)
  | shed (m : Mechanism) (device : String) (bytesNeeded : Int) (items : Option (List String))
  | release (m : Mechanism) (device : String) (candidates : List ReleaseCandidate)
  | releaseFull (m : Mechanism) (candidates : List ReleaseCandidate)

/-- The pool after a call; a failed lookup changes nothing. -/
def act (uuids : Uuids) (p : ResidentPool) : Call → ResidentPool
  | .ridFor obj => (ridFor uuids obj p).1
  | .get rid obj => (p.get uuids rid obj).getD p
  | .obtainKnown key value => (p.obtainKnown uuids key value).getD p
  | .obtainLoaded key value ramBytes => (p.obtainLoaded uuids key value ramBytes).1
  | .setLoaded identity loaded => p.setLoaded identity loaded
  | .remove rid => p.remove rid
  | .releaseResident m honorPins identity => (p.releaseResident m honorPins identity).1
  | .shed m device bytesNeeded items => (p.shed m device bytesNeeded items).1
  | .release m device candidates => (p.release m device candidates).1
  | .releaseFull m candidates => (p.releaseFull m candidates).1

/-- The pool after any sequence of calls on a new one. -/
def run (uuids : Uuids) (calls : List Call) : ResidentPool := calls.foldl (act uuids) empty

variable {uuids : Uuids} {p q : ResidentPool}

/-- One change of a pool; every call is a sequence of them. -/
inductive Change (uuids : Uuids) : ResidentPool → ResidentPool → Prop
  | table (p : ResidentPool) (identity : Nat) : Change uuids p (p.tableRidFor uuids identity).1
  | linked {p q : ResidentPool} {rid : String} {owners : List String}
      (recorded : p.depend rid owners = some q) : Change uuids p q
  | touched (p : ResidentPool) (rid : String) (cost : Dict String Nat) :
      Change uuids p (p.touch rid cost)
  | used {p : ResidentPool} {rid : String} {entry : PoolEntry}
      (found : p.entries.get? rid = some entry) : Change uuids p { p with
        entries := p.entries.set rid { entry with lastUsed := p.clock, loaded := true }
        clock := p.clock + 1 }
  | placed {p : ResidentPool} {rid : String} {entry changed : PoolEntry}
      (found : p.entries.get? rid = some entry) (unused : changed.lastUsed = entry.lastUsed) :
      Change uuids p { p with entries := p.entries.set rid changed }
  | named {p : ResidentPool} {rid : String} (key : String) (held : rid ∈ p.objects.keys) :
      Change uuids p { p with keyed := p.keyed.set key rid }
  | removed (p : ResidentPool) (rid : String) : Change uuids p (p.remove rid)

def Changes (uuids : Uuids) : ResidentPool → ResidentPool → Prop :=
  Relation.ReflTransGen (Change uuids)

mutual

theorem ridFor_changes : (obj : Obj) → (p : ResidentPool) →
    Changes uuids p (ridFor uuids obj p).1
  | .mk identity cost attached owners, p => by
    have more : Changes uuids _ _ := ridForOwners_changes owners [identity]
      (p.tableRidFor uuids identity).1
    unfold ridFor
    dsimp only
    cases named : ridForOwners uuids owners [identity] (p.tableRidFor uuids identity).1 with
    | mk after rids =>
      rw [named] at more
      have reached : Changes uuids p after := .head (.table p identity) more
      cases rids with
      | none => exact reached
      | some ownerRids =>
        dsimp only
        cases recorded : after.depend (p.tableRidFor uuids identity).2 ownerRids with
        | none => exact reached
        | some last =>
          have together : Changes uuids p last := .tail reached (.linked recorded)
          dsimp only
          split
          · exact .tail together (.touched last _ cost)
          · exact together

theorem ridForOwners_changes : (owners : List Obj) → (seen : List Nat) → (p : ResidentPool) →
    Changes uuids p (ridForOwners uuids owners seen p).1
  | [], _, _ => .refl
  | owner :: rest, seen, p => by
    unfold ridForOwners
    split
    · exact ridForOwners_changes rest seen p
    · have first := ridFor_changes owner p
      cases used : ridFor uuids owner p with
      | mk after found =>
        rw [used] at first
        cases found with
        | none => exact first
        | some rid =>
          have more : Changes uuids after _ :=
            ridForOwners_changes rest (owner.identity :: seen) after
          dsimp only
          cases named : ridForOwners uuids rest (owner.identity :: seen) after with
          | mk last rids =>
            rw [named] at more
            cases rids with
            | none => exact first.trans more
            | some others => exact first.trans more

end

theorem get_changes {rid : String} {obj : Obj} (used : p.get uuids rid obj = some q) :
    Changes uuids p q := by
  obtain ⟨identity,cost,attached,owners⟩ := obj
  unfold get at used
  dsimp only at used
  split at used
  · split at used
    · split at used
      · rename_i found
        obtain rfl := Option.some.inj used
        exact .single (.used found)
      · obtain rfl := Option.some.inj used
        exact .refl
    · split at used
      · obtain rfl := Option.some.inj used
        exact ridFor_changes _ p
      · obtain rfl := Option.some.inj used
        exact .refl
  · cases used

theorem nameLoaded_changes {key rid ownerRid : String} {nbytes : Nat}
    (held : rid ∈ p.objects.keys) (named : p.nameLoaded key rid ownerRid nbytes = some q) :
    Changes uuids p q := by
  unfold nameLoaded at named
  split at named
  · cases named
  · rename_i entry found
    obtain rfl := Option.some.inj named
    let priced : PoolEntry := { entry with cost := entry.cost.set "ram" nbytes }
    have placed : Change uuids p { p with entries := p.entries.set ownerRid priced } :=
      .placed found rfl
    exact .tail (.single placed) (.named key held)

theorem obtainLoaded_changes (p : ResidentPool) (key : String) (value : Obj)
    (ramBytes : Option Nat) : Changes uuids p (p.obtainLoaded uuids key value ramBytes).1 := by
  unfold obtainLoaded
  cases ramBytes with
  | none => exact .refl
  | some nbytes =>
    have first : Changes uuids p (ridFor uuids value p).1 := ridFor_changes value p
    have held := (@ridFor_grows uuids value p).2
    dsimp only
    cases used : ridFor uuids value p with
    | mk after found =>
      rw [used] at first held
      cases found with
      | none => exact first
      | some rid =>
        have second : Changes uuids after (ridFor uuids value.primaryOwner after).1 :=
          ridFor_changes value.primaryOwner after
        have kept := (@ridFor_grows uuids value.primaryOwner after).1.objects
        dsimp only
        cases owned : ridFor uuids value.primaryOwner after with
        | mk last owner =>
          rw [owned] at second kept
          cases owner with
          | none => exact first.trans second
          | some ownerRid =>
            dsimp only
            cases named : last.nameLoaded key rid ownerRid nbytes with
            | none => exact first.trans second
            | some final =>
              have there := kept rid (held rid rfl)
              exact (first.trans second).trans (nameLoaded_changes there named)

theorem setLoaded_changes (p : ResidentPool) (identity : Nat) (loaded : Bool) :
    Changes uuids p (p.setLoaded identity loaded) := by
  unfold setLoaded
  split
  · exact .refl
  · split
    · exact .refl
    · rename_i found
      exact .single (.placed found rfl)

theorem unloadEntry_changes (m : Mechanism) (device : String) (p : ResidentPool) (rid : String) :
    Changes uuids p (p.unloadEntry m device rid).1 := by
  unfold unloadEntry
  split
  · split
    · exact .refl
    · split
      · exact .refl
      · rename_i found _ _ _
        exact .single (.placed found rfl)
  · exact .refl

theorem unloadEntries_changes (m : Mechanism) (device : String) (bytesNeeded : Option Int)
    (rids : List String) (freed : Nat) (p : ResidentPool) :
    Changes uuids p (unloadEntries m device bytesNeeded rids freed p).1 := by
  induction rids generalizing freed p with
  | nil => exact .refl
  | cons rid rest ih =>
    unfold unloadEntries
    split
    · exact .refl
    · exact (unloadEntry_changes m device p rid).trans (ih _ _)

theorem attempts_changes (m : Mechanism) (collecting : Bool) (device : String)
    (candidates : List ReleaseCandidate) (p : ResidentPool) :
    Changes uuids p (attempts m collecting device candidates p).1 := by
  induction candidates generalizing p with
  | nil => exact .refl
  | cons c rest ih =>
    refine Relation.ReflTransGen.trans ?_ (ih (p.attempt m collecting device c).1)
    obtain ⟨same,_⟩ | ⟨removed,_⟩ := attempt_cases m collecting device p c
    · rw [same]
    · rw [removed]
      exact .single (.removed p c.itemId)

theorem releaseEntry_changes (m : Mechanism) (collecting : Bool) (device : String)
    (p : ResidentPool) (rid : String) :
    Changes uuids p (p.releaseEntry m collecting device rid).1 := by
  unfold releaseEntry
  split
  · split
    · exact .refl
    · split
      · exact .refl
      · split
        · exact .refl
        · split
          · exact .refl
          · exact .single (.removed p rid)
  · exact .refl

theorem releaseResident_changes (m : Mechanism) (honorPins : Bool) (p : ResidentPool)
    (identity : Nat) : Changes uuids p (p.releaseResident m honorPins identity).1 := by
  unfold releaseResident
  split
  · exact .refl
  · rename_i rid _
    exact releaseEntry_changes (Mechanism.honoring m honorPins) false "ram" p rid

theorem shed_changes (m : Mechanism) (p : ResidentPool) (device : String) (bytesNeeded : Int)
    (items : Option (List String)) : Changes uuids p (p.shed m device bytesNeeded items).1 := by
  unfold shed
  split
  · exact attempts_changes m false device _ p
  · exact unloadEntries_changes m device _ _ 0 p

private theorem changes_getD {after : Option ResidentPool}
    (changes : ∀ q, after = some q → Changes uuids p q) : Changes uuids p (after.getD p) := by
  cases after with
  | none => exact .refl
  | some q => exact changes q rfl

theorem act_changes (p : ResidentPool) (call : Call) : Changes uuids p (p.act uuids call) := by
  cases call with
  | ridFor obj => exact ridFor_changes obj p
  | get rid obj => exact changes_getD fun q used => get_changes used
  | obtainKnown key value =>
    apply changes_getD
    intro q used
    obtain ⟨rid,_,got⟩ := Option.bind_eq_some_iff.mp used
    exact get_changes got
  | obtainLoaded key value ramBytes => exact obtainLoaded_changes p key value ramBytes
  | setLoaded identity loaded => exact setLoaded_changes p identity loaded
  | remove rid => exact .single (.removed p rid)
  | releaseResident m honorPins identity => exact releaseResident_changes m honorPins p identity
  | shed m device bytesNeeded items => exact shed_changes m p device bytesNeeded items
  | release m device candidates => exact attempts_changes m false device candidates p
  | releaseFull m candidates =>
    have after : Changes uuids p _ := attempts_changes m true "ram" candidates p
    rwa [← (releaseFull_attempts p candidates).1] at after

theorem changes_keep {inv : ResidentPool → Prop}
    (preserved : ∀ p q, Change uuids p q → inv p → inv q) (changes : Changes uuids p q)
    (base : inv p) : inv q := by
  induction changes with
  | refl => exact base
  | tail _ change kept => exact preserved _ _ change kept

theorem acts_keep {inv : ResidentPool → Prop}
    (preserved : ∀ p q, Change uuids p q → inv p → inv q) (calls : List Call) (base : inv p) :
    inv (calls.foldl (act uuids) p) := by
  induction calls generalizing p with
  | nil => exact base
  | cons call rest ih => exact ih (changes_keep preserved (act_changes p call) base)

end ResidentPool

end Dinkster.Memory
