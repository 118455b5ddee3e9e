import Dinkster.Memory.ResidentLinks

/-! Raising unloads in a release of the resident pool, and stale tokens. An unload that raises
keeps its resident only where failures are collected, and only as long as no resident it is
attached to is released later in the same call. -/
namespace Dinkster.Memory.ResidentPool

variable {uuids : Uuids} {p q r : ResidentPool} {m : Mechanism} {collecting : Bool}
  {device : String}

def unloadFails (m : Mechanism) (p : ResidentPool) (rid : String) : Bool :=
  match p.entries.get? rid,p.objects.get? rid with
  | some entry,some _ => m.invalidates rid && m.unpinned rid && m.terminal rid == some false &&
      entry.loaded && !m.unloads rid
  | _,_ => false

/-- A release of the resident is not refused. -/
def releases (m : Mechanism) (collecting : Bool) (p : ResidentPool) (rid : String) : Bool :=
  match p.entries.get? rid,p.objects.get? rid with
  | some _,some _ => m.invalidates rid && m.unpinned rid && (m.terminal rid).isSome &&
      !(collecting && p.unloadFails m rid)
  | _,_ => false

/-- The resident was not used since the candidate was proposed. -/
def current (p : ResidentPool) (c : ReleaseCandidate) : Bool :=
  match p.entries.get? c.itemId with
  | some entry => toString entry.lastUsed == c.token
  | none => false

theorem releaseEntry_eq (m : Mechanism) (collecting : Bool) (device : String) (p : ResidentPool)
    (rid : String) : (p.releaseEntry m collecting device rid).1 =
      if p.releases m collecting rid then p.remove rid else p := by
  unfold releaseEntry releases unloadFails
  cases p.entries.get? rid with
  | none => rfl
  | some entry =>
    cases p.objects.get? rid with
    | none => rfl
    | some identity =>
      cases m.invalidates rid with
      | false => rfl
      | true =>
        cases m.unpinned rid with
        | false => rfl
        | true =>
          cases m.terminal rid with
          | none => rfl
          | some handled =>
            obtain ⟨cost,lastUsed,loaded⟩ := entry
            cases handled <;> cases loaded <;> cases m.unloads rid <;> cases collecting <;> rfl

theorem attempt_eq (m : Mechanism) (collecting : Bool) (device : String) (p : ResidentPool)
    (c : ReleaseCandidate) : (p.attempt m collecting device c).1 =
      if p.current c && p.releases m collecting c.itemId then p.remove c.itemId else p := by
  unfold attempt current
  cases p.entries.get? c.itemId with
  | none => rfl
  | some entry =>
    dsimp only
    by_cases same : toString entry.lastUsed = c.token
    · simp [same,releaseEntry_eq]
    · have other : (toString entry.lastUsed == c.token) = false := beq_eq_false_iff_ne.mpr same
      simp only [ne_eq,same,not_false_eq_true,if_true,other,Bool.false_and,Bool.false_eq_true,
        if_false]

theorem attempt_stale {c : ReleaseCandidate} (stale : p.current c = false) :
    p.attempt m collecting device c = (p,none,none) := by
  unfold current at stale
  unfold attempt
  split
  · rename_i entry found
    rw [found] at stale
    rw [if_pos (beq_eq_false_iff_ne.mp stale)]
  · rfl

theorem releases_held {rid : String} (released : p.releases m collecting rid = true) :
    rid ∈ p.objects.keys := by
  unfold releases at released
  split at released
  · rename_i found
    exact (Dict.mem_keys_iff _ _).mpr ⟨_,found⟩
  · cases released

theorem unloadFails_held {rid : String} (failed : p.unloadFails m rid = true) :
    rid ∈ p.objects.keys := by
  unfold unloadFails at failed
  split at failed
  · rename_i found
    exact (Dict.mem_keys_iff _ _).mpr ⟨_,found⟩
  · cases failed

theorem releases_of_unloadFails {rid : String} (failed : p.unloadFails m rid = true) :
    p.releases m collecting rid = !collecting := by
  unfold unloadFails at failed
  unfold releases unloadFails
  split
  · rename_i entry _ found held
    simp only [found,held] at failed ⊢
    simp only [Bool.and_eq_true,beq_iff_eq,Bool.not_eq_true'] at failed
    obtain ⟨⟨⟨⟨valid,free⟩,unhandled⟩,loaded⟩,raising⟩ := failed
    rw [valid,free,unhandled,loaded,raising]
    cases collecting <;> rfl
  · rename_i missing
    split at failed
    · rename_i entry _ found held
      exact absurd held (missing entry _ found)
    · cases failed

theorem releases_congr {rid : String} (entry : q.entries.get? rid = p.entries.get? rid)
    (object : q.objects.get? rid = p.objects.get? rid) :
    q.releases m collecting rid = p.releases m collecting rid := by
  unfold releases unloadFails
  rw [entry,object]

theorem current_congr {c : ReleaseCandidate}
    (entry : q.entries.get? c.itemId = p.entries.get? c.itemId) : q.current c = p.current c := by
  unfold current
  rw [entry]

theorem attempt_linked (linked : p.Linked) (m : Mechanism) (collecting : Bool) (device : String)
    (c : ReleaseCandidate) : (p.attempt m collecting device c).1.Linked := by
  rw [attempt_eq]
  split
  · exact remove_linked linked c.itemId
  · exact linked

/-- The residents whose unload raises while the candidates are released in order. -/
def raised (m : Mechanism) (collecting : Bool) (device : String) :
    List ReleaseCandidate → ResidentPool → List String
  | [], _ => []
  | c :: rest, p =>
    (if p.current c && p.unloadFails m c.itemId then [c.itemId] else []) ++
      raised m collecting device rest (p.attempt m collecting device c).1

/-- At each raising unload failures are collected, and no later candidate that can be released
has the resident attached. -/
def Orderly (m : Mechanism) (collecting : Bool) (device : String) :
    List ReleaseCandidate → ResidentPool → Prop
  | [], _ => True
  | c :: rest, p =>
    ((p.current c && p.unloadFails m c.itemId) = true → collecting = true ∧ ∀ later ∈ rest,
      (p.current later && p.releases m collecting later.itemId) = true →
        ¬ p.Attached later.itemId c.itemId) ∧
    Orderly m collecting device rest (p.attempt m collecting device c).1

private theorem later_before (linked : p.Linked) {rid : String} {c : ReleaseCandidate}
    (can : ((p.remove rid).current c && (p.remove rid).releases m collecting c.itemId) = true) :
    (p.current c && p.releases m collecting c.itemId) = true := by
  have held := releases_held (Bool.and_eq_true _ _ ▸ can).2
  have loose := ((remove_held_iff linked rid c.itemId).mp held).2
  obtain ⟨object,entry,_⟩ := remove_spares linked loose
  rwa [current_congr entry,releases_congr entry object] at can

theorem attempts_lost (candidates : List ReleaseCandidate) (linked : p.Linked) {rid : String}
    (held : rid ∈ p.objects.keys)
    (lost : rid ∉ (attempts m collecting device candidates p).1.objects.keys) :
    ∃ c ∈ candidates, (p.current c && p.releases m collecting c.itemId) = true ∧
      p.Attached c.itemId rid := by
  induction candidates generalizing p with
  | nil => exact absurd held lost
  | cons c rest ih =>
    have step := attempt_eq m collecting device p c
    split at step
    · rename_i can
      by_cases attached : p.Attached c.itemId rid
      · exact ⟨c,List.mem_cons_self,can,attached⟩
      · have kept := (remove_held_iff linked c.itemId rid).mpr ⟨held,attached⟩
        obtain ⟨later,inside,able,path⟩ := ih (p := (p.attempt m collecting device c).1)
          (attempt_linked linked m collecting device c) (by rwa [step]) lost
        rw [step] at able path
        exact ⟨later,List.mem_cons_of_mem _ inside,later_before linked able,
          Relation.ReflTransGen.mono
            (fun _ _ => dependent_of_removeTree [] [c.itemId] p) _ _ path⟩
    · obtain ⟨later,inside,able,path⟩ := ih (p := (p.attempt m collecting device c).1)
        (attempt_linked linked m collecting device c) (by rwa [step]) lost
      rw [step] at able path
      exact ⟨later,List.mem_cons_of_mem _ inside,able,path⟩

theorem attempts_taken (candidates : List ReleaseCandidate) (linked : p.Linked) {rid : String}
    {c : ReleaseCandidate} (inside : c ∈ candidates)
    (can : (p.current c && p.releases m collecting c.itemId) = true)
    (attached : p.Attached c.itemId rid) :
    rid ∉ (attempts m collecting device candidates p).1.objects.keys := by
  induction candidates generalizing p with
  | nil => cases inside
  | cons first rest ih =>
    have step := attempt_eq m collecting device p first
    have after := attempt_linked linked m collecting device first
    split at step
    · by_cases gone : p.Attached first.itemId rid
      · intro held
        have before : rid ∈ (p.attempt m collecting device first).1.objects.keys :=
          (attempts_shrinks rest).objects rid held
        rw [step] at before
        exact ((remove_held_iff linked first.itemId rid).mp before).2 gone
      · have loose : ¬ p.Attached first.itemId c.itemId := fun path => gone (path.trans attached)
        obtain same | later := List.mem_cons.mp inside
        · exact absurd (same ▸ attached) gone
        · obtain ⟨object,entry,_⟩ := remove_spares linked loose
          apply ih after later
          · rw [step,current_congr entry,releases_congr entry object]
            exact can
          · rw [step]
            exact remove_attaches linked gone attached
    · rename_i refused
      obtain same | later := List.mem_cons.mp inside
      · exact absurd (same ▸ can) refused
      · apply ih after later
        · rw [step]
          exact can
        · rw [step]
          exact attached

theorem orderly_iff (candidates : List ReleaseCandidate) (linked : p.Linked) :
    Orderly m collecting device candidates p ↔
      ∀ rid ∈ raised m collecting device candidates p,
        rid ∈ (attempts m collecting device candidates p).1.objects.keys := by
  induction candidates generalizing p with
  | nil => exact ⟨fun _ _ inside => absurd inside List.not_mem_nil,fun _ => trivial⟩
  | cons c rest ih =>
    have after := ih (attempt_linked linked m collecting device c)
    have step := attempt_eq m collecting device p c
    have last : (attempts m collecting device (c :: rest) p).1 =
      (attempts m collecting device rest (p.attempt m collecting device c).1).1 := rfl
    unfold Orderly raised
    rw [last,after]
    constructor
    · rintro ⟨first,others⟩ rid inside
      obtain now | later := List.mem_append.mp inside
      · split at now
        · rename_i failed
          obtain rfl := List.mem_singleton.mp now
          obtain ⟨rfl,apart⟩ := first failed
          have raising := (Bool.and_eq_true _ _ ▸ failed).2
          rw [releases_of_unloadFails raising,Bool.not_true,Bool.and_false,
            if_neg Bool.false_ne_true] at step
          rw [step]
          by_contra lost
          obtain ⟨later,listed,can,attached⟩ :=
            attempts_lost rest linked (unloadFails_held raising) lost
          exact apart later listed can attached
        · cases now
      · exact others rid later
    · intro kept
      refine ⟨?_,fun rid inside => kept rid (List.mem_append_right _ inside)⟩
      intro failed
      have stays := kept c.itemId (List.mem_append_left _ (by simp [failed]))
      have able := failed
      rw [Bool.and_eq_true] at able
      rw [releases_of_unloadFails able.2,able.1,Bool.true_and] at step
      cases collecting with
      | false =>
        rw [Bool.not_false,if_pos rfl] at step
        have before := (attempts_shrinks rest).objects _ stays
        rw [step] at before
        exact absurd before (remove_gone p c.itemId)
      | true =>
        rw [Bool.not_true,if_neg Bool.false_ne_true] at step
        rw [step] at stays
        exact ⟨rfl,fun later listed can attached =>
          attempts_taken rest linked listed can attached stays⟩

theorem removeTree_entry (removing pending : List String) (p : ResidentPool) (rid : String) :
    (p.removeTree removing pending).entries.get? rid = p.entries.get? rid ∨
      (p.removeTree removing pending).entries.get? rid = none := by
  fun_induction removeTree p removing pending with
  | case1 => exact .inl rfl
  | case2 p removing other rest known ih => exact ih
  | case3 p removing other rest fresh ih =>
    have erased := Dict.get?_erase p.entries other rid
    obtain same | gone := ih
    · rw [same,dropOne,erased]
      split
      · exact .inr rfl
      · exact .inl rfl
    · exact .inr gone

theorem attempt_entry (c : ReleaseCandidate) (rid : String) :
    (p.attempt m collecting device c).1.entries.get? rid = p.entries.get? rid ∨
      (p.attempt m collecting device c).1.entries.get? rid = none := by
  rw [attempt_eq]
  split
  · exact removeTree_entry [] [c.itemId] p rid
  · exact .inl rfl

theorem stale_after_attempt {c first : ReleaseCandidate} (stale : p.current c = false) :
    (p.attempt m collecting device first).1.current c = false := by
  obtain same | gone := attempt_entry (p := p) (m := m) first c.itemId
  · rw [current_congr same,stale]
  · unfold current
    rw [gone]

theorem attempts_without {c : ReleaseCandidate} (before after : List ReleaseCandidate)
    (stale : p.current c = false) :
    attempts m collecting device (before ++ c :: after) p =
      attempts m collecting device (before ++ after) p := by
  induction before generalizing p with
  | nil =>
    rw [List.nil_append,List.nil_append,attempts,attempt_stale stale]
    rfl
  | cons first rest ih =>
    have rest_same := ih (p := (p.attempt m collecting device first).1)
      (stale_after_attempt stale)
    simp only [List.cons_append,attempts,rest_same]

end Dinkster.Memory.ResidentPool
