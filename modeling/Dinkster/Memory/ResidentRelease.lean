import Dinkster.Memory.ResidentPool

/-! What a release of the resident pool can drop: reported candidates, and what was attached to
them. Proposals name entries of the pool. -/
namespace Dinkster.Memory.ResidentPool

variable {uuids : Uuids} {p q r : ResidentPool}

def Dependent (p : ResidentPool) (owner rid : String) : Prop :=
  rid ∈ (p.ownerDependents.get? owner).getD []

/-- `rid` is the owner or depends on it, directly or through others. -/
def Attached (p : ResidentPool) : String → String → Prop := Relation.ReflTransGen p.Dependent

private theorem mem_discard {d : Dict String (List String)} {rid owner a b : String}
    (inside : b ∈ ((discard rid d owner).get? a).getD []) : b ∈ (d.get? a).getD [] := by
  unfold discard at inside
  cases found : d.get? owner with
  | none => rwa [found] at inside
  | some dependents =>
    rw [found] at inside
    dsimp only at inside
    by_cases same : a = owner
    · subst same
      rw [found]
      split at inside
      · rw [Dict.get?_erase,if_pos rfl] at inside
        cases inside
      · rw [Dict.get?_set_self] at inside
        exact List.mem_of_mem_erase inside
    · split at inside
      · rwa [Dict.get?_erase,if_neg same] at inside
      · rwa [Dict.get?_set_ne _ _ same] at inside

private theorem mem_discards (owners : List String) {d : Dict String (List String)}
    {rid a b : String} (inside : b ∈ ((owners.foldl (discard rid) d).get? a).getD []) :
    b ∈ (d.get? a).getD [] := by
  induction owners generalizing d with
  | nil => exact inside
  | cons owner rest ih => exact mem_discard (ih inside)

theorem dependent_of_dependentsOf {rid other : String} (inside : other ∈ p.dependentsOf rid) :
    p.Dependent rid other := mem_discards _ inside

theorem dependent_of_dropOne {rid a b : String} (after : (p.dropOne rid).Dependent a b) :
    p.Dependent a b := by
  unfold Dependent dropOne at after
  dsimp only at after
  rw [Dict.get?_erase] at after
  split at after
  · cases after
  · exact mem_discards _ after

structure Shrinks (p q : ResidentPool) : Prop where
  objects : ∀ rid ∈ q.objects.keys, rid ∈ p.objects.keys
  entries : ∀ rid ∈ q.entries.keys, rid ∈ p.entries.keys
  issued : q.issued = p.issued
  paired : ∀ rid ∈ q.entries.keys, rid ∈ p.objects.keys → rid ∈ q.objects.keys

theorem Shrinks.refl (p : ResidentPool) : Shrinks p p :=
  ⟨fun _ h => h,fun _ h => h,rfl,fun _ _ h => h⟩

theorem Shrinks.trans (first : Shrinks p q) (rest : Shrinks q r) : Shrinks p r where
  objects := fun rid held => first.objects rid (rest.objects rid held)
  entries := fun rid held => first.entries rid (rest.entries rid held)
  issued := rest.issued.trans first.issued
  paired := fun rid entry held =>
    rest.paired rid entry (first.paired rid (rest.entries rid entry) held)

theorem Sound.shrinks (sound : Sound uuids p) (shrinks : Shrinks p q) : Sound uuids q where
  entries := fun rid inside =>
    shrinks.paired rid inside (sound.entries rid (shrinks.entries rid inside))
  objects := by
    intro rid held
    rw [shrinks.issued]
    exact sound.objects rid (shrinks.objects rid held)

theorem dropOne_shrinks (p : ResidentPool) (rid : String) : Shrinks p (p.dropOne rid) where
  objects := fun _ held => ((Dict.mem_keys_erase _ _ _).mp held).1
  entries := fun _ held => ((Dict.mem_keys_erase _ _ _).mp held).1
  issued := rfl
  paired := fun _ entry held =>
    (Dict.mem_keys_erase _ _ _).mpr ⟨held,((Dict.mem_keys_erase _ _ _).mp entry).2⟩

theorem removeTree_shrinks (removing pending : List String) (p : ResidentPool) :
    Shrinks p (p.removeTree removing pending) := by
  fun_induction removeTree p removing pending with
  | case1 => exact Shrinks.refl _
  | case2 p removing rid rest known ih => exact ih
  | case3 p removing rid rest fresh ih => exact (dropOne_shrinks p rid).trans ih

theorem removeTree_attached (removing pending : List String) (p : ResidentPool) {rid : String}
    (held : rid ∈ p.objects.keys) (dropped : rid ∉ (p.removeTree removing pending).objects.keys) :
    ∃ owner ∈ pending, p.Attached owner rid := by
  fun_induction removeTree p removing pending with
  | case1 => exact absurd held dropped
  | case2 p removing other rest known ih =>
    obtain ⟨owner,inside,attached⟩ := ih held dropped
    exact ⟨owner,List.mem_cons_of_mem _ inside,attached⟩
  | case3 p removing other rest fresh ih =>
    by_cases same : rid = other
    · subst same
      exact ⟨rid,List.mem_cons_self,.refl⟩
    · obtain ⟨owner,inside,attached⟩ := ih ((Dict.mem_keys_erase _ _ _).mpr ⟨held,same⟩) dropped
      have before : p.Attached owner rid :=
        Relation.ReflTransGen.mono (fun _ _ => dependent_of_dropOne) owner rid attached
      obtain next | later := List.mem_append.mp inside
      · refine ⟨other,List.mem_cons_self,?_⟩
        exact .head (dependent_of_dependentsOf next) before
      · exact ⟨owner,List.mem_cons_of_mem _ later,before⟩

theorem remove_shrinks (p : ResidentPool) (rid : String) : Shrinks p (p.remove rid) :=
  removeTree_shrinks [] [rid] p

theorem remove_attached {rid other : String} (held : other ∈ p.objects.keys)
    (dropped : other ∉ (p.remove rid).objects.keys) : p.Attached rid other := by
  obtain ⟨owner,inside,attached⟩ := removeTree_attached [] [rid] p held dropped
  obtain rfl := List.mem_singleton.mp inside
  exact attached

theorem remove_gone (p : ResidentPool) (rid : String) : rid ∉ (p.remove rid).objects.keys := by
  unfold remove removeTree
  rw [if_neg List.not_mem_nil]
  intro held
  have dropped := (removeTree_shrinks _ _ _).objects rid held
  exact ((Dict.mem_keys_erase _ _ _).mp dropped).2 rfl

variable {m : Mechanism} {collecting : Bool} {device : String}

theorem attempt_cases (m : Mechanism) (collecting : Bool) (device : String) (p : ResidentPool)
    (c : ReleaseCandidate) :
    ((p.attempt m collecting device c).1 = p ∧ (p.attempt m collecting device c).2.1 = none) ∨
    ((p.attempt m collecting device c).1 = p.remove c.itemId ∧
      (p.attempt m collecting device c).2.1.isSome ∧ c.itemId ∈ p.entries.keys) := by
  unfold attempt
  split
  · rename_i entry found
    have inside : c.itemId ∈ p.entries.keys := (Dict.mem_keys_iff _ _).mpr ⟨entry,found⟩
    split
    · exact .inl ⟨rfl,rfl⟩
    · unfold releaseEntry
      split
      · split
        · exact .inl ⟨rfl,rfl⟩
        · split
          · exact .inl ⟨rfl,rfl⟩
          · split
            · exact .inl ⟨rfl,rfl⟩
            · split
              · exact .inl ⟨rfl,rfl⟩
              · exact .inr ⟨rfl,rfl,inside⟩
      · exact .inl ⟨rfl,rfl⟩
  · exact .inl ⟨rfl,rfl⟩

def Separate (loose : String → Prop) (m : Mechanism) (collecting : Bool) (device : String) :
    List ReleaseCandidate → ResidentPool → Prop
  | [], _ => True
  | c :: rest, p =>
    ((p.attempt m collecting device c).2.1.isSome →
      ∀ rid, p.Attached c.itemId rid → rid ≠ c.itemId → loose rid) ∧
    Separate loose m collecting device rest (p.attempt m collecting device c).1

theorem attempt_shrinks (c : ReleaseCandidate) :
    Shrinks p (p.attempt m collecting device c).1 := by
  obtain ⟨same,_⟩ | ⟨removed,_⟩ := attempt_cases m collecting device p c
  · rw [same]
    exact Shrinks.refl p
  · rw [removed]
    exact remove_shrinks p c.itemId

theorem attempts_shrinks (candidates : List ReleaseCandidate) :
    Shrinks p (attempts m collecting device candidates p).1 := by
  induction candidates generalizing p with
  | nil => exact Shrinks.refl p
  | cons c rest ih => exact (attempt_shrinks c).trans ih

theorem attempts_reported (candidates : List ReleaseCandidate) {rid : String}
    (reported : rid ∈ (attempts m collecting device candidates p).2.1.map (·.1)) :
    rid ∈ candidates.map (·.itemId) ∧
      rid ∉ (attempts m collecting device candidates p).1.objects.keys := by
  induction candidates generalizing p with
  | nil => cases reported
  | cons c rest ih =>
    unfold attempts at reported ⊢
    dsimp only at reported ⊢
    rw [List.map_append,List.mem_append] at reported
    obtain first | later := reported
    · obtain ⟨_,none⟩ | ⟨removed,_⟩ := attempt_cases m collecting device p c
      · rw [none] at first
        cases first
      · rw [List.map_map,List.mem_map] at first
        obtain ⟨bytes,_,rfl⟩ := first
        refine ⟨List.mem_cons_self,?_⟩
        intro held
        have before := (attempts_shrinks rest).objects _ held
        rw [removed] at before
        exact remove_gone p c.itemId before
    · obtain ⟨inside,gone⟩ := ih later
      exact ⟨List.mem_cons_of_mem _ inside,gone⟩

theorem attempts_dropped {loose : String → Prop} (candidates : List ReleaseCandidate)
    (separate : Separate loose m collecting device candidates p) {rid : String}
    (held : rid ∈ p.objects.keys)
    (dropped : rid ∉ (attempts m collecting device candidates p).1.objects.keys) :
    rid ∈ (attempts m collecting device candidates p).2.1.map (·.1) ∨ loose rid := by
  induction candidates generalizing p with
  | nil => exact absurd held dropped
  | cons c rest ih =>
    obtain ⟨first,others⟩ := separate
    unfold attempts at dropped ⊢
    dsimp only at dropped ⊢
    rw [List.map_append,List.mem_append]
    by_cases kept : rid ∈ (p.attempt m collecting device c).1.objects.keys
    · obtain later | loose := ih others kept dropped
      · exact .inl (.inr later)
      · exact .inr loose
    · obtain ⟨same,_⟩ | ⟨removed,freed,_⟩ := attempt_cases m collecting device p c
      · rw [same] at kept
        exact absurd held kept
      · by_cases itself : rid = c.itemId
        · obtain ⟨bytes,found⟩ := Option.isSome_iff_exists.mp freed
          refine .inl (.inl ?_)
          rw [found]
          simp [itself]
        · rw [removed] at kept
          exact .inr (first freed rid (remove_attached held kept) itself)

theorem dependent_of_removeTree (removing pending : List String) (p : ResidentPool) {a b : String}
    (after : (p.removeTree removing pending).Dependent a b) : p.Dependent a b := by
  fun_induction removeTree p removing pending with
  | case1 => exact after
  | case2 p removing rid rest known ih => exact ih after
  | case3 p removing rid rest fresh ih => exact dependent_of_dropOne (ih after)

theorem separate_of_independent {loose : String → Prop} (candidates : List ReleaseCandidate)
    (independent : ∀ a b, ¬ p.Dependent a b) :
    Separate loose m collecting device candidates p := by
  induction candidates generalizing p with
  | nil => exact trivial
  | cons c rest ih =>
    refine ⟨?_,ih ?_⟩
    · intro _ rid attached different
      obtain same | ⟨next,first,_⟩ := Relation.ReflTransGen.cases_head attached
      · exact absurd same.symm different
      · exact absurd first (independent _ _)
    · intro a b after
      apply independent a b
      obtain ⟨same,_⟩ | ⟨removed,_⟩ := attempt_cases m collecting device p c
      · rwa [same] at after
      · rw [removed] at after
        exact dependent_of_removeTree [] [c.itemId] p after

theorem releaseFull_attempts (p : ResidentPool) (candidates : List ReleaseCandidate) :
    (p.releaseFull m candidates).1 = (attempts m true "ram" candidates p).1 ∧
      (p.releaseFull m candidates).2.1 = (attempts m true "ram" candidates p).2.1 := by
  unfold releaseFull
  dsimp only
  split
  · exact ⟨rfl,rfl⟩
  · split
    · exact ⟨rfl,rfl⟩
    · exact ⟨rfl,rfl⟩

def Proposes (p : ResidentPool) (c : ReleaseCandidate) : Prop :=
  c.itemId ∈ p.entries.keys ∧ c.resourceId = residentResourceId c.itemId

private theorem candidate_proposes {e : String × PoolEntry} (inside : e ∈ p.entries.entries)
    (device : String) : p.Proposes (candidate e.1 e.2 device) :=
  ⟨List.mem_map_of_mem inside,rfl⟩

private theorem mem_cover {bytesNeeded claimed : Int} {entries : List (String × PoolEntry)}
    {c : ReleaseCandidate} (inside : c ∈ cover device bytesNeeded claimed entries) :
    ∃ e ∈ entries, c = candidate e.1 e.2 device := by
  induction entries generalizing claimed with
  | nil => cases inside
  | cons e rest ih =>
    unfold cover at inside
    split at inside
    · cases inside
    · obtain rfl | later := List.mem_cons.mp inside
      · exact ⟨e,List.mem_cons_self,rfl⟩
      · obtain ⟨other,listed,same⟩ := ih later
        exact ⟨other,List.mem_cons_of_mem _ listed,same⟩

theorem mem_proposeRelease {bytesNeeded : Int} {items : Option (List String)}
    {c : ReleaseCandidate} (inside : c ∈ p.proposeRelease device bytesNeeded items) :
    p.Proposes c := by
  unfold proposeRelease at inside
  split at inside
  · cases inside
  · split at inside
    · obtain ⟨rid,_,found⟩ := List.mem_filterMap.mp inside
      obtain ⟨entry,held,rfl⟩ := Option.map_eq_some_iff.mp found
      exact candidate_proposes ((Dict.get?_eq_some_iff _ _ _).mp held) device
    · obtain ⟨e,listed,rfl⟩ := mem_cover inside
      apply candidate_proposes
      exact List.mem_of_mem_filter ((List.mergeSort_perm _ _).mem_iff.mp listed)

theorem mem_proposeFullRelease {c : ReleaseCandidate} (inside : c ∈ p.proposeFullRelease) :
    p.Proposes c := by
  obtain ⟨e,listed,rfl⟩ := List.mem_map.mp inside
  exact candidate_proposes ((List.mergeSort_perm _ _).mem_iff.mp listed) "ram"

end Dinkster.Memory.ResidentPool
