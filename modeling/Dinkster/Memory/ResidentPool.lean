import Dinkster.Lib.Dict
import Mathlib

/-! The pool of process-resident values: admission with use tracking, and release in two halves.
Removing a resident removes every resident that depends on it. Which object a value is, what it
costs and which owners it names are read from the object each time; the callbacks of a release
are given from the outside. -/
namespace Dinkster.Memory

/-- A live object: its identity, its declared cost, and its owners. The primary owner is the
first of `owners` when the object is attached to one, else the object itself. -/
inductive Obj
  | mk (identity : Nat) (cost : Dict String Nat) (attached : Bool) (owners : List Obj)

def Obj.identity : Obj → Nat
  | .mk identity _ _ _ => identity

/-- `resident_owners(obj)[0] is obj` -/
def Obj.ownsItself : Obj → Bool
  | .mk identity _ attached owners =>
    !attached || match owners.head? with
      | some owner => owner.identity == identity
      | none => true

def residentResourceId (rid : String) : String := "resident:" ++ rid

theorem residentResourceId_inj {rid other : String} :
    residentResourceId rid = residentResourceId other ↔ rid = other := String.append_right_inj _

structure ReleaseCandidate where
  itemId : String
  resourceId : String
  nbytes : Int
  token : String
  deriving DecidableEq

/-- The statuses of a release exchange; `ready` only answers a query. -/
inductive ReleaseStatus
  | complete
  | ready
  | busy
  | unsupported
  | error
  deriving DecidableEq

structure PoolEntry where
  cost : Dict String Nat
  lastUsed : Nat
  loaded : Bool
  deriving DecidableEq

structure ResidentPool where
  objects : Dict String Nat
  ids : Dict Nat String
  entries : Dict String PoolEntry
  dependentOwners : Dict String (List String)
  ownerDependents : Dict String (List String)
  keyed : Dict String String
  clock : Nat
  issued : Nat
  deriving DecidableEq

/-- `uuid.uuid4().hex`, by the number of ids drawn before; an id is never drawn again. -/
structure Uuids where
  text : Nat → String
  distinct : Function.Injective text

structure Mechanism where
  invalidates : String → Bool
  unpinned : String → Bool
  terminal : String → Option Bool
  unloads : String → Bool

namespace ResidentPool

def empty : ResidentPool := ⟨.empty,.empty,.empty,.empty,.empty,.empty,1,0⟩

/-- `ResidencyTable.rid_for` -/
def tableRidFor (uuids : Uuids) (p : ResidentPool) (identity : Nat) : ResidentPool × String :=
  match p.ids.get? identity with
  | some rid =>
    if p.objects.get? rid = some identity then (p,rid)
    else ({ p with
      objects := p.objects.set (uuids.text p.issued) identity
      ids := p.ids.set identity (uuids.text p.issued)
      issued := p.issued + 1 },uuids.text p.issued)
  | none => ({ p with
      objects := p.objects.set (uuids.text p.issued) identity
      ids := p.ids.set identity (uuids.text p.issued)
      issued := p.issued + 1 },uuids.text p.issued)

/-- `entry.last_used = next(self._clock)` on the entry, which is made if there is none. -/
def touch (p : ResidentPool) (rid : String) (cost : Dict String Nat) : ResidentPool :=
  let entry := (p.entries.get? rid).getD ⟨cost,0,true⟩
  { p with
    entries := p.entries.set rid { entry with lastUsed := p.clock }
    clock := p.clock + 1 }

def addDependent (rid : String) (p : ResidentPool) (owner : String) : ResidentPool :=
  let dependents := (p.ownerDependents.get? owner).getD []
  { p with ownerDependents :=
      p.ownerDependents.set owner (if rid ∈ dependents then dependents else dependents ++ [rid]) }

/-- Records the owners of a dependent resident; `none` when they are not the recorded ones. -/
def depend (p : ResidentPool) (rid : String) (owners : List String) : Option ResidentPool :=
  if owners = [] then some p
  else
    match p.dependentOwners.get? rid with
    | some previous =>
      if previous.toFinset ≠ owners.toFinset then none
      else some (owners.foldl (addDependent rid)
        { p with dependentOwners := p.dependentOwners.set rid owners })
    | none => some (owners.foldl (addDependent rid)
        { p with dependentOwners := p.dependentOwners.set rid owners })

mutual

/-- `none` as the id is the error of a dependency that changes its owners. -/
def ridFor (uuids : Uuids) : Obj → ResidentPool → ResidentPool × Option String
  | .mk identity cost attached owners, p =>
    let (p,rid) := p.tableRidFor uuids identity
    match ridForOwners uuids owners [identity] p with
    | (p,none) => (p,none)
    | (p,some ownerRids) =>
      match p.depend rid ownerRids with
      | none => (p,none)
      | some p =>
        if (Obj.mk identity cost attached owners).ownsItself then (p.touch rid cost,some rid)
        else (p,some rid)

def ridForOwners (uuids : Uuids) : List Obj → List Nat → ResidentPool →
    ResidentPool × Option (List String)
  | [], _, p => (p,some [])
  | owner :: rest, seen, p =>
    if owner.identity ∈ seen then ridForOwners uuids rest seen p
    else
      match ridFor uuids owner p with
      | (p,none) => (p,none)
      | (p,some rid) =>
        match ridForOwners uuids rest (owner.identity :: seen) p with
        | (p,none) => (p,none)
        | (p,some rids) => (p,some (rid :: rids))

end

/-- `ResidentCodec.metadata`: the resource ids of the owners, which the envelope names. -/
def metadata (uuids : Uuids) : Obj → ResidentPool → ResidentPool × Option (List String)
  | .mk identity cost attached owners, p =>
    let obj := Obj.mk identity cost attached owners
    match ridForOwners uuids (if attached then owners else obj :: owners) [] p with
    | (p,none) => (p,none)
    | (p,some rids) => (p,some (rids.map residentResourceId))

/-- Decoding a stub uses its resident; `none` when the resident is not held. -/
def get (uuids : Uuids) (p : ResidentPool) (rid : String) : Obj → Option ResidentPool
  | .mk identity cost attached owners =>
    if p.objects.get? rid = some identity then
      if (Obj.mk identity cost attached owners).ownsItself then
        match p.entries.get? rid with
        | some entry => some { p with
            entries := p.entries.set rid { entry with lastUsed := p.clock, loaded := true }
            clock := p.clock + 1 }
        | none => some p
      else
        match owners.head? with
        | some owner => some (ridFor uuids owner p).1
        | none => some p
    else none

/-- `dependents.discard(rid)`, and the owner goes when it has no dependents left. -/
def discard (rid : String) (d : Dict String (List String)) (owner : String) :
    Dict String (List String) :=
  match d.get? owner with
  | none => d
  | some dependents =>
    if dependents.erase rid = [] then d.erase owner else d.set owner (dependents.erase rid)

def dropOne (p : ResidentPool) (rid : String) : ResidentPool :=
  let owners := (p.dependentOwners.get? rid).getD []
  { p with
    dependentOwners := p.dependentOwners.erase rid
    ownerDependents := (owners.foldl (discard rid) p.ownerDependents).erase rid
    objects := p.objects.erase rid
    ids := match p.objects.get? rid with
      | some identity => p.ids.erase identity
      | none => p.ids
    entries := p.entries.erase rid
    keyed := p.keyed.filterValues (· ≠ rid) }

def dependentsOf (p : ResidentPool) (rid : String) : List String :=
  let owners := (p.dependentOwners.get? rid).getD []
  ((owners.foldl (discard rid) p.ownerDependents).get? rid).getD []

def edges (d : Dict String (List String)) : Nat := d.total List.length

theorem edges_erase (d : Dict String (List String)) (rid : String) :
    edges (d.erase rid) + ((d.get? rid).getD []).length = edges d := by
  have erased := d.total_erase List.length rid
  cases found : d.get? rid with
  | none => rwa [found] at erased
  | some dependents => rwa [found] at erased

theorem edges_discard (d : Dict String (List String)) (rid owner : String) :
    edges (discard rid d owner) ≤ edges d := by
  have erased := edges_erase d owner
  unfold discard
  cases found : d.get? owner with
  | none => exact Nat.le_refl _
  | some dependents =>
    rw [found,Option.getD_some] at erased
    dsimp only
    split
    · omega
    · have shorter := List.length_erase_le (a := rid) (l := dependents)
      rw [edges,Dict.total_set,← edges]
      omega

theorem edges_discards (owners : List String) (rid : String) (d : Dict String (List String)) :
    edges (owners.foldl (discard rid) d) ≤ edges d := by
  induction owners generalizing d with
  | nil => exact Nat.le_refl _
  | cons owner rest ih => exact (ih _).trans (edges_discard d rid owner)

theorem edges_dropOne (p : ResidentPool) (rid : String) :
    edges (p.dropOne rid).ownerDependents + (p.dependentsOf rid).length ≤
      edges p.ownerDependents := by
  have erased := edges_erase (((p.dependentOwners.get? rid).getD []).foldl (discard rid)
    p.ownerDependents) rid
  have fewer := edges_discards ((p.dependentOwners.get? rid).getD []) rid p.ownerDependents
  simp only [dropOne,dependentsOf]
  omega

/-- `_remove_tree`: the residents still to remove, and those under removal. -/
def removeTree (p : ResidentPool) (removing : List String) : List String → ResidentPool
  | [] => p
  | rid :: rest =>
    if rid ∈ removing then removeTree p removing rest
    else removeTree (p.dropOne rid) (rid :: removing) (p.dependentsOf rid ++ rest)
  termination_by pending => edges p.ownerDependents + pending.length
  decreasing_by
    · simp only [List.length_cons]
      omega
    · have dropped := edges_dropOne p rid
      simp only [List.length_append,List.length_cons]
      omega

def remove (p : ResidentPool) (rid : String) : ResidentPool := p.removeTree [] [rid]

/-- `_release_entry`: the freed bytes, or none when the release is refused, and a failure.
A failing unload refuses the release only where failures are collected. -/
def releaseEntry (m : Mechanism) (collecting : Bool) (device : String) (p : ResidentPool)
    (rid : String) : ResidentPool × Option Nat × Option String :=
  match p.entries.get? rid,p.objects.get? rid with
  | some entry,some _ =>
    if !m.invalidates rid then
      (p,none,some ("resident " ++ rid ++ " cache invalidation failed"))
    else if !m.unpinned rid then (p,none,none)
    else
      match m.terminal rid with
      | none => (p,none,some ("resident " ++ rid ++ " terminal release failed"))
      | some handled =>
        if entry.loaded && !handled && !m.unloads rid && collecting then
          (p,none,some ("resident " ++ rid ++ " unload failed"))
        else (p.remove rid,some ((entry.cost.get? device).getD 0),none)
  | _,_ => (p,none,none)

def attempt (m : Mechanism) (collecting : Bool) (device : String) (p : ResidentPool)
    (c : ReleaseCandidate) : ResidentPool × Option Nat × Option String :=
  match p.entries.get? c.itemId with
  | some entry =>
    if toString entry.lastUsed ≠ c.token then (p,none,none)
    else p.releaseEntry m collecting device c.itemId
  | none => (p,none,none)

def attempts (m : Mechanism) (collecting : Bool) (device : String) :
    List ReleaseCandidate → ResidentPool → ResidentPool × List (String × Nat) × List String
  | [], p => (p,[],[])
  | c :: rest, p =>
    let (p,freed,failure) := p.attempt m collecting device c
    let (p,outcome,failures) := attempts m collecting device rest p
    (p,(freed.toList.map fun bytes => (c.itemId,bytes)) ++ outcome,failure.toList ++ failures)

def release (m : Mechanism) (p : ResidentPool) (device : String)
    (candidates : List ReleaseCandidate) : ResidentPool × List (String × Nat) :=
  let (p,outcome,_) := attempts m false device candidates p
  (p,outcome)

def releaseFull (m : Mechanism) (p : ResidentPool) (candidates : List ReleaseCandidate) :
    ResidentPool × List (String × Nat) × ReleaseStatus × Option String :=
  let (p,released,failures) := attempts m true "ram" candidates p
  if failures ≠ [] then (p,released,.error,some (String.intercalate "; " failures))
  else if p.entries.keys ≠ [] then (p,released,.busy,none)
  else (p,released,.complete,none)

def candidate (rid : String) (entry : PoolEntry) (device : String) : ReleaseCandidate :=
  ⟨rid,residentResourceId rid,((entry.cost.get? device).getD 0 : Nat),toString entry.lastUsed⟩

def leastRecent (entries : List (String × PoolEntry)) : List (String × PoolEntry) :=
  entries.mergeSort fun a b => decide (a.2.lastUsed ≤ b.2.lastUsed)

def cover (device : String) (bytesNeeded : Int) : Int → List (String × PoolEntry) →
    List ReleaseCandidate
  | _, [] => []
  | claimed, (rid,entry) :: rest =>
    if claimed ≥ bytesNeeded then []
    else candidate rid entry device ::
      cover device bytesNeeded (claimed + ((entry.cost.get? device).getD 0 : Nat)) rest

def proposeRelease (p : ResidentPool) (device : String) (bytesNeeded : Int)
    (items : Option (List String)) : List ReleaseCandidate :=
  if device.startsWith "vram:" then []
  else
    match items with
    | some items => items.filterMap fun rid =>
        (p.entries.get? rid).map fun entry => candidate rid entry device
    | none => cover device bytesNeeded 0
        (leastRecent (p.entries.entries.filter fun e => 0 < (e.2.cost.get? device).getD 0))

def proposeFullRelease (p : ResidentPool) : List ReleaseCandidate :=
  (leastRecent p.entries.entries).map fun e => candidate e.1 e.2 "ram"

variable {uuids : Uuids} {p q r : ResidentPool}

/-- Entries belong to held objects, and every held object has a drawn id. -/
structure Sound (uuids : Uuids) (p : ResidentPool) : Prop where
  entries : ∀ rid ∈ p.entries.keys, rid ∈ p.objects.keys
  objects : ∀ rid ∈ p.objects.keys, ∃ n < p.issued, rid = uuids.text n

/-- Residents stay, and new ones have fresh ids. -/
structure Grows (uuids : Uuids) (p q : ResidentPool) : Prop where
  objects : ∀ rid ∈ p.objects.keys, rid ∈ q.objects.keys
  entries : ∀ rid ∈ p.entries.keys, rid ∈ q.entries.keys
  issued : p.issued ≤ q.issued
  fresh : ∀ rid ∈ q.objects.keys, rid ∈ p.objects.keys ∨
    ∃ n, p.issued ≤ n ∧ n < q.issued ∧ rid = uuids.text n
  backed : ∀ rid ∈ q.entries.keys, rid ∈ p.entries.keys ∨ rid ∈ q.objects.keys

theorem Grows.refl (uuids : Uuids) (p : ResidentPool) : Grows uuids p p :=
  ⟨fun _ h => h,fun _ h => h,Nat.le_refl _,fun _ => .inl,fun _ => .inl⟩

theorem Grows.trans (first : Grows uuids p q) (rest : Grows uuids q r) : Grows uuids p r where
  objects := fun rid held => rest.objects rid (first.objects rid held)
  entries := fun rid held => rest.entries rid (first.entries rid held)
  issued := first.issued.trans rest.issued
  fresh := by
    intro rid held
    obtain old | ⟨n,low,high,same⟩ := rest.fresh rid held
    · obtain older | ⟨n,low,high,same⟩ := first.fresh rid old
      · exact .inl older
      · exact .inr ⟨n,low,high.trans_le rest.issued,same⟩
    · exact .inr ⟨n,first.issued.trans low,high,same⟩
  backed := by
    intro rid held
    obtain old | inside := rest.backed rid held
    · obtain older | inside := first.backed rid old
      · exact .inl older
      · exact .inr (rest.objects rid inside)
    · exact .inr inside

theorem Sound.grows (sound : Sound uuids p) (grows : Grows uuids p q) : Sound uuids q where
  entries := by
    intro rid inside
    obtain old | held := grows.backed rid inside
    · exact grows.objects rid (sound.entries rid old)
    · exact held
  objects := by
    intro rid held
    obtain old | ⟨n,_,high,same⟩ := grows.fresh rid held
    · obtain ⟨n,low,same⟩ := sound.objects rid old
      exact ⟨n,low.trans_le grows.issued,same⟩
    · exact ⟨n,high,same⟩

private theorem issue_grows (identity : Nat) : Grows uuids p { p with
    objects := p.objects.set (uuids.text p.issued) identity
    ids := p.ids.set identity (uuids.text p.issued)
    issued := p.issued + 1 } where
  objects := fun rid held => (Dict.mem_keys_set _ _ _ _).mpr (.inr held)
  entries := fun _ held => held
  issued := Nat.le_succ _
  fresh := by
    intro rid held
    obtain rfl | old := (Dict.mem_keys_set _ _ _ _).mp held
    · exact .inr ⟨p.issued,Nat.le_refl _,Nat.lt_succ_self _,rfl⟩
    · exact .inl old
  backed := fun _ => .inl

theorem tableRidFor_grows (uuids : Uuids) (p : ResidentPool) (identity : Nat) :
    Grows uuids p (p.tableRidFor uuids identity).1 ∧
    (p.tableRidFor uuids identity).2 ∈ (p.tableRidFor uuids identity).1.objects.keys := by
  have issued := (Dict.mem_keys_set p.objects (uuids.text p.issued) (uuids.text p.issued)
    identity).mpr (.inl rfl)
  unfold tableRidFor
  split
  · split
    · rename_i known
      exact ⟨Grows.refl _ _,(Dict.mem_keys_iff _ _).mpr ⟨_,known⟩⟩
    · exact ⟨issue_grows identity,issued⟩
  · exact ⟨issue_grows identity,issued⟩

theorem touch_grows {rid : String} (held : rid ∈ p.objects.keys) (cost : Dict String Nat) :
    Grows uuids p (p.touch rid cost) where
  objects := fun _ h => h
  entries := fun other inside => (Dict.mem_keys_set _ _ _ _).mpr (.inr inside)
  issued := Nat.le_refl _
  fresh := fun _ => .inl
  backed := by
    intro other inside
    obtain rfl | old := (Dict.mem_keys_set _ _ _ _).mp inside
    · exact .inr held
    · exact .inl old

private theorem grows_of_same (objects : q.objects = p.objects) (entries : q.entries = p.entries)
    (issued : q.issued = p.issued) : Grows uuids p q where
  objects := fun _ h => by rwa [objects]
  entries := fun _ h => by rwa [entries]
  issued := by rw [issued]
  fresh := fun _ h => .inl (by rwa [objects] at h)
  backed := fun _ h => .inl (by rwa [entries] at h)

private theorem addDependents_same (rid : String) (owners : List String) (p : ResidentPool) :
    (owners.foldl (addDependent rid) p).objects = p.objects ∧
      (owners.foldl (addDependent rid) p).entries = p.entries ∧
      (owners.foldl (addDependent rid) p).issued = p.issued := by
  induction owners generalizing p with
  | nil => exact ⟨rfl,rfl,rfl⟩
  | cons owner rest ih => exact ih (addDependent rid p owner)

theorem depend_grows (uuids : Uuids) {rid : String} {owners : List String}
    (recorded : p.depend rid owners = some q) :
    Grows uuids p q ∧ q.objects = p.objects := by
  have kept := addDependents_same rid owners
    { p with dependentOwners := p.dependentOwners.set rid owners }
  unfold depend at recorded
  split at recorded
  · obtain rfl := Option.some.inj recorded
    exact ⟨Grows.refl _ _,rfl⟩
  · split at recorded
    · split at recorded
      · cases recorded
      · obtain rfl := Option.some.inj recorded
        exact ⟨grows_of_same kept.1 kept.2.1 kept.2.2,kept.1⟩
    · obtain rfl := Option.some.inj recorded
      exact ⟨grows_of_same kept.1 kept.2.1 kept.2.2,kept.1⟩

mutual

theorem ridFor_grows : (obj : Obj) → (p : ResidentPool) →
    Grows uuids p (ridFor uuids obj p).1 ∧
      ∀ rid ∈ (ridFor uuids obj p).2, rid ∈ (ridFor uuids obj p).1.objects.keys
  | .mk identity cost attached owners, p => by
    have table := tableRidFor_grows uuids p identity
    have more := ridForOwners_grows owners [identity] (p.tableRidFor uuids identity).1
    unfold ridFor
    dsimp only
    cases named : ridForOwners uuids owners [identity] (p.tableRidFor uuids identity).1 with
    | mk after rids =>
      rw [named] at more
      have reached := table.1.trans more.1
      cases rids with
      | none => exact ⟨reached,nofun⟩
      | some ownerRids =>
        dsimp only
        cases recorded : after.depend (p.tableRidFor uuids identity).2 ownerRids with
        | none => exact ⟨reached,nofun⟩
        | some last =>
          obtain ⟨grown,same⟩ := depend_grows uuids recorded
          have held : (p.tableRidFor uuids identity).2 ∈ last.objects.keys := by
            rw [same]
            exact more.1.objects _ table.2
          dsimp only
          split
          · refine ⟨(reached.trans grown).trans (touch_grows held cost),?_⟩
            intro rid same
            obtain rfl := Option.some.inj same
            exact held
          · refine ⟨reached.trans grown,?_⟩
            intro rid same
            obtain rfl := Option.some.inj same
            exact held

theorem ridForOwners_grows : (owners : List Obj) → (seen : List Nat) → (p : ResidentPool) →
    Grows uuids p (ridForOwners uuids owners seen p).1 ∧
      ∀ rids ∈ (ridForOwners uuids owners seen p).2, ∀ rid ∈ rids,
        rid ∈ (ridForOwners uuids owners seen p).1.objects.keys
  | [], _, p => by
    refine ⟨Grows.refl _ _,?_⟩
    intro rids same rid inside
    obtain rfl := Option.some.inj same
    exact absurd inside List.not_mem_nil
  | owner :: rest, seen, p => by
    unfold ridForOwners
    split
    · exact ridForOwners_grows rest seen p
    · have first := ridFor_grows owner p
      cases used : ridFor uuids owner p with
      | mk after found =>
        rw [used] at first
        cases found with
        | none => exact ⟨first.1,nofun⟩
        | some rid =>
          have more := ridForOwners_grows rest (owner.identity :: seen) after
          dsimp only
          cases named : ridForOwners uuids rest (owner.identity :: seen) after with
          | mk last rids =>
            rw [named] at more
            cases rids with
            | none => exact ⟨first.1.trans more.1,nofun⟩
            | some others =>
              refine ⟨first.1.trans more.1,?_⟩
              intro all same other inside
              obtain rfl := Option.some.inj same
              obtain rfl | later := List.mem_cons.mp inside
              · exact more.1.objects _ (first.2 _ rfl)
              · exact more.2 _ rfl _ later

end

theorem metadata_grows (obj : Obj) (p : ResidentPool) :
    Grows uuids p (metadata uuids obj p).1 ∧
      ∀ names ∈ (metadata uuids obj p).2, ∀ name ∈ names,
        ∃ rid ∈ (metadata uuids obj p).1.objects.keys, name = residentResourceId rid := by
  obtain ⟨identity,cost,attached,owners⟩ := obj
  have used : Grows uuids p _ ∧ _ := ridForOwners_grows
    (if attached then owners else .mk identity cost attached owners :: owners) [] p
  unfold metadata
  dsimp only
  cases named : ridForOwners uuids
      (if attached then owners else .mk identity cost attached owners :: owners) [] p with
  | mk after rids =>
    rw [named] at used
    cases rids with
    | none => exact ⟨used.1,nofun⟩
    | some rids =>
      refine ⟨used.1,?_⟩
      intro names same name inside
      obtain rfl := Option.some.inj same
      obtain ⟨rid,listed,rfl⟩ := List.mem_map.mp inside
      exact ⟨rid,used.2 _ rfl _ listed,rfl⟩

theorem get_grows {rid : String} {obj : Obj} (used : p.get uuids rid obj = some q) :
    Grows uuids p q := by
  obtain ⟨identity,cost,attached,owners⟩ := obj
  unfold get at used
  dsimp only at used
  split at used
  · rename_i held
    split at used
    · split at used
      · obtain rfl := Option.some.inj used
        refine ⟨fun _ h => h,?_,Nat.le_refl _,fun _ => .inl,?_⟩
        · intro other inside
          exact (Dict.mem_keys_set _ _ _ _).mpr (.inr inside)
        · intro other inside
          obtain rfl | old := (Dict.mem_keys_set _ _ _ _).mp inside
          · exact .inr ((Dict.mem_keys_iff _ _).mpr ⟨_,held⟩)
          · exact .inl old
      · obtain rfl := Option.some.inj used
        exact Grows.refl _ _
    · split at used
      · obtain rfl := Option.some.inj used
        exact (ridFor_grows _ _).1
      · obtain rfl := Option.some.inj used
        exact Grows.refl _ _
  · cases used

end ResidentPool

end Dinkster.Memory
