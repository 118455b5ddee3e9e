import Dinkster.Lib.Dict
import Dinkster.Registry.Lockfile

/-! The generation ledger: activations append, jobs pin the generation they started on and pruning
reclaims what is neither current nor pinned. A call that fails leaves the ledger as it was. -/
namespace Dinkster.Install.Ledger

structure Generation where
  number : Nat
  lockfile : Lockfile
  deriving DecidableEq

structure GenerationLedger where
  generations : List Generation
  pins : Dict String Nat
  nextNumber : Nat

/-- `InstallError`, with what its message is made of. -/
inductive LedgerError where
  /-- `nothing to roll back to; only one generation exists` -/
  | onlyOne
  /-- `no generation has been activated; nothing to pin` -/
  | nothingActive
  /-- `job {job!r} pins missing generation {number}` -/
  | missingPinned (job : String) (number : Nat)
  /-- `job {job!r} holds no generation pin` -/
  | unpinned (job : String)
  /-- `no generation {number} exists` -/
  | absent (number : Nat)
  /-- `generation {number} is current and cannot be pruned` -/
  | current (number : Nat)
  /-- `generation {number} is pinned by running jobs: {', '.join(holders)}` -/
  | pinned (number : Nat) (holders : List String)
  deriving DecidableEq

def empty : GenerationLedger := ⟨[],.empty,1⟩

variable (blake3 : String → String)

def Generation.lockfileDigest (g : Generation) : String := g.lockfile.recordDigest blake3

namespace GenerationLedger

variable (s : GenerationLedger)

def current : Option Generation := s.generations.getLast?

def appended (lockfile : Lockfile) : GenerationLedger :=
  ⟨s.generations ++ [⟨s.nextNumber,lockfile⟩],s.pins,s.nextNumber + 1⟩

/-- `activate` -/
def activate (lockfile : Lockfile) : Generation × GenerationLedger :=
  match s.current with
  | some current =>
    if current.lockfileDigest blake3 = lockfile.recordDigest blake3 then (current,s)
    else (⟨s.nextNumber,lockfile⟩,s.appended lockfile)
  | none => (⟨s.nextNumber,lockfile⟩,s.appended lockfile)

def rollback : Except LedgerError Generation × GenerationLedger :=
  match s.generations.reverse with
  | _ :: previous :: _ =>
    (.ok (s.activate blake3 previous.lockfile).1,(s.activate blake3 previous.lockfile).2)
  | _ => (.error .onlyOne,s)

/-- `pin` -/
def pin (job : String) : Except LedgerError Generation × GenerationLedger :=
  match s.current with
  | none => (.error .nothingActive,s)
  | some current =>
    match s.pins.get? job with
    | some existing =>
      match s.generations.find? (·.number == existing) with
      | none => (.error (.missingPinned job existing),s)
      | some held => (.ok held,s)
    | none => (.ok current,{ s with pins := s.pins.set job current.number })

/-- `release` -/
def release (job : String) : Except LedgerError Unit × GenerationLedger :=
  match s.pins.get? job with
  | none => (.error (.unpinned job),s)
  | some _ => (.ok (),{ s with pins := s.pins.erase job })

/-- The generations that jobs pin. -/
def pinned : List Nat := s.pins.entries.map (·.2)

/-- `prunable` -/
def prunable : List Generation :=
  s.generations.filter fun g => some g ≠ s.current && g.number ∉ s.pinned

/-- The jobs that pin a generation, sorted. -/
def holders (number : Nat) : List String :=
  ((s.pins.entries.filter (·.2 == number)).map (·.1)).mergeSort

/-- `prune` -/
def prune (number : Nat) : Except LedgerError Generation × GenerationLedger :=
  match s.generations.find? (·.number == number) with
  | none => (.error (.absent number),s)
  | some target =>
    if some target = s.current then (.error (.current number),s)
    else if s.holders number ≠ [] then (.error (.pinned number (s.holders number)),s)
    else (.ok target,{ s with generations := s.generations.erase target })

end GenerationLedger

inductive Call where
  | activate (lockfile : Lockfile)
  | rollback
  | pin (job : String)
  | release (job : String)
  | prune (number : Nat)
  deriving DecidableEq

/-- One call: the generation that it returns or the error it raises, and the ledger after it. -/
def perform (s : GenerationLedger) : Call → Except LedgerError (Option Generation) × GenerationLedger
  | .activate lockfile => (.ok (s.activate blake3 lockfile).1,(s.activate blake3 lockfile).2)
  | .rollback => ((s.rollback blake3).1.map some,(s.rollback blake3).2)
  | .pin job => ((s.pin job).1.map some,(s.pin job).2)
  | .release job => ((s.release job).1.map fun _ => none,(s.release job).2)
  | .prune number => ((s.prune number).1.map some,(s.prune number).2)

/-- The ledger after a sequence of calls, failing ones included. -/
def run (calls : List Call) : GenerationLedger :=
  calls.foldl (fun s call => (perform blake3 s call).2) empty

/-- Generations stand in the order of their numbers and what is pinned is there. -/
structure Sound (s : GenerationLedger) : Prop where
  increasing : s.generations.Pairwise (·.number < ·.number)
  fresh : ∀ g ∈ s.generations, g.number < s.nextNumber
  held : ∀ job number, s.pins.get? job = some number → ∃ g ∈ s.generations, g.number = number

variable {blake3} {s : GenerationLedger}

theorem Sound.unique (sound : Sound s) {g h : Generation} (inside : g ∈ s.generations)
    (inside' : h ∈ s.generations) (same : g.number = h.number) : g = h := by
  by_contra other
  have apart : g.number ≠ h.number := by
    rcases List.pairwise_iff_getElem.mp sound.increasing with ordered
    obtain ⟨i,hi,rfl⟩ := List.mem_iff_getElem.mp inside
    obtain ⟨j,hj,rfl⟩ := List.mem_iff_getElem.mp inside'
    rcases Nat.lt_trichotomy i j with before | rfl | after
    · exact (ordered i j hi hj before).ne
    · exact absurd rfl other
    · exact (ordered j i hj hi after).ne'
  exact apart same

theorem Sound.find (sound : Sound s) {g : Generation} (inside : g ∈ s.generations) :
    s.generations.find? (·.number == g.number) = some g := by
  cases found : s.generations.find? (·.number == g.number) with
  | none => simpa using List.find?_eq_none.mp found g inside
  | some h =>
    have same : h.number = g.number := by simpa using List.find?_some found
    rw [sound.unique (List.mem_of_find?_eq_some found) inside same]

theorem activate_cases (s : GenerationLedger) (lockfile : Lockfile) :
    (∃ g, s.current = some g ∧ g.lockfileDigest blake3 = lockfile.recordDigest blake3 ∧
      s.activate blake3 lockfile = (g,s)) ∨
    s.activate blake3 lockfile = (⟨s.nextNumber,lockfile⟩,s.appended lockfile) := by
  unfold GenerationLedger.activate
  cases s.current with
  | none => exact .inr rfl
  | some g =>
    by_cases same : g.lockfileDigest blake3 = lockfile.recordDigest blake3
    · exact .inl ⟨g,rfl,same,by simp [same]⟩
    · exact .inr (by simp [same])

theorem pin_cases (s : GenerationLedger) (job : String) :
    (∃ problem, s.pin job = (.error problem,s)) ∨
    (∃ number g, s.pins.get? job = some number ∧
      s.generations.find? (·.number == number) = some g ∧ s.pin job = (.ok g,s)) ∨
    ∃ g, s.current = some g ∧ s.pins.get? job = none ∧
      s.pin job = (.ok g,{ s with pins := s.pins.set job g.number }) := by
  unfold GenerationLedger.pin
  cases current : s.current with
  | none => exact .inl ⟨_,rfl⟩
  | some g =>
    cases existing : s.pins.get? job with
    | none => exact .inr (.inr ⟨g,rfl,rfl,rfl⟩)
    | some number =>
      cases found : s.generations.find? (·.number == number) with
      | none => exact .inl ⟨.missingPinned job number,by simp [found]⟩
      | some held => exact .inr (.inl ⟨number,held,rfl,found,by simp [found]⟩)

theorem release_cases (s : GenerationLedger) (job : String) :
    (∃ problem, s.release job = (.error problem,s)) ∨
    s.release job = (.ok (),{ s with pins := s.pins.erase job }) := by
  unfold GenerationLedger.release
  cases s.pins.get? job with
  | none => exact .inl ⟨_,rfl⟩
  | some _ => exact .inr rfl

theorem prune_cases (s : GenerationLedger) (number : Nat) :
    (∃ problem, s.prune number = (.error problem,s)) ∨
    ∃ g ∈ s.generations, g.number = number ∧ some g ≠ s.current ∧ number ∉ s.pinned ∧
      s.prune number = (.ok g,{ s with generations := s.generations.erase g }) := by
  unfold GenerationLedger.prune
  cases found : s.generations.find? (·.number == number) with
  | none => exact .inl ⟨_,rfl⟩
  | some target =>
    by_cases current : some target = s.current
    · exact .inl ⟨.current number,by simp [current]⟩
    · by_cases free : s.holders number = []
      · refine .inr ⟨target,List.mem_of_find?_eq_some found,by simpa using List.find?_some found,
          current,?_,by simp [current,free]⟩
        intro pinned
        obtain ⟨e,inside,same⟩ := List.mem_map.mp pinned
        have holder : e.1 ∈ s.holders number := by
          rw [GenerationLedger.holders,List.mem_mergeSort]
          exact List.mem_map_of_mem (List.mem_filter.mpr ⟨inside,beq_iff_eq.mpr same⟩)
        rw [free] at holder
        exact List.not_mem_nil holder
      · exact .inl ⟨.pinned number (s.holders number),by simp [current,free]⟩

theorem rollback_cases (s : GenerationLedger) :
    (s.generations.length < 2 ∧ s.rollback blake3 = (.error .onlyOne,s)) ∨
    ∃ before previous current, s.generations = before ++ [previous,current] ∧
      s.rollback blake3 = (.ok (s.activate blake3 previous.lockfile).1,
        (s.activate blake3 previous.lockfile).2) := by
  unfold GenerationLedger.rollback
  cases listed : s.generations.reverse with
  | nil => exact .inl ⟨by simp [List.reverse_eq_nil_iff.mp listed],rfl⟩
  | cons current rest =>
    cases rest with
    | nil =>
      have one : s.generations = [current] := by simpa using congrArg List.reverse listed
      exact .inl ⟨by simp [one],rfl⟩
    | cons previous before =>
      refine .inr ⟨before.reverse,previous,current,?_,rfl⟩
      simpa using congrArg List.reverse listed

theorem perform_failed (s : GenerationLedger) (call : Call) {problem : LedgerError}
    (failed : (perform blake3 s call).1 = .error problem) : (perform blake3 s call).2 = s := by
  cases call with
  | activate lockfile => cases failed
  | rollback =>
    rcases @rollback_cases blake3 s with ⟨_,same⟩ | ⟨_,_,_,_,same⟩
    all_goals simp_all [perform,Except.map]
  | pin job =>
    rcases pin_cases s job with ⟨_,same⟩ | ⟨_,_,_,_,same⟩ | ⟨_,_,_,same⟩
    all_goals simp_all [perform,Except.map]
  | release job =>
    rcases release_cases s job with ⟨_,same⟩ | same
    all_goals simp_all [perform,Except.map]
  | prune number =>
    rcases prune_cases s number with ⟨_,same⟩ | ⟨_,_,_,_,_,same⟩
    all_goals simp_all [perform,Except.map]

/-- A ledger after a call on another: it is sound, a generation that was not there has a new number,
the current one stays, and so does what a job pins. -/
structure Follows (s s' : GenerationLedger) : Prop where
  sound : Sound s'
  later : s.nextNumber ≤ s'.nextNumber
  renewed : ∀ g ∈ s'.generations, g ∈ s.generations ∨ s.nextNumber ≤ g.number
  current : ∀ g, s.current = some g → g ∈ s'.generations
  pinned : ∀ g ∈ s.generations, g.number ∈ s.pinned → g ∈ s'.generations

theorem Follows.refl (sound : Sound s) : Follows s s :=
  ⟨sound,Nat.le_refl _,fun _ inside => .inl inside,fun _ => List.mem_of_getLast?,
    fun _ inside _ => inside⟩

theorem Follows.appended (sound : Sound s) (lockfile : Lockfile) : Follows s (s.appended lockfile) where
  sound := {
    increasing := by
      refine List.pairwise_append.mpr ⟨sound.increasing,List.pairwise_singleton _ _,?_⟩
      intro g inside h new
      obtain rfl := List.mem_singleton.mp new
      exact sound.fresh g inside
    fresh := by
      intro g inside
      rcases List.mem_append.mp inside with old | new
      · exact Nat.lt_succ_of_lt (sound.fresh g old)
      · obtain rfl := List.mem_singleton.mp new
        exact Nat.lt_succ_self _
    held := by
      intro job number pinned
      obtain ⟨g,inside,same⟩ := sound.held job number pinned
      exact ⟨g,List.mem_append_left _ inside,same⟩ }
  later := Nat.le_succ _
  renewed := by
    intro g inside
    rcases List.mem_append.mp inside with old | new
    · exact .inl old
    · obtain rfl := List.mem_singleton.mp new
      exact .inr (Nat.le_refl _)
  current := fun _ last => List.mem_append_left _ (List.mem_of_getLast? last)
  pinned := fun _ inside _ => List.mem_append_left _ inside

theorem Follows.activate (sound : Sound s) (lockfile : Lockfile) :
    Follows s (s.activate blake3 lockfile).2 := by
  rcases @activate_cases blake3 s lockfile with ⟨_,_,_,same⟩ | same
  · rw [same]
    exact .refl sound
  · rw [same]
    exact .appended sound lockfile

theorem Follows.pins (sound : Sound s) {pins : Dict String Nat}
    (held : ∀ job number, pins.get? job = some number → ∃ g ∈ s.generations, g.number = number) :
    Follows s { s with pins := pins } :=
  ⟨⟨sound.increasing,sound.fresh,held⟩,Nat.le_refl _,fun _ inside => .inl inside,
    fun _ => List.mem_of_getLast?,fun _ inside _ => inside⟩

theorem Follows.prune (sound : Sound s) (number : Nat) : Follows s (s.prune number).2 := by
  rcases prune_cases s number with ⟨_,same⟩ | ⟨target,inside,named,other,free,same⟩
  · rw [same]
    exact .refl sound
  · rw [same]
    have kept {g : Generation} (inside : g ∈ s.generations) (different : g ≠ target) :
        g ∈ s.generations.erase target := (List.mem_erase_of_ne different).mpr inside
    have pinned : ∀ g ∈ s.generations, g.number ∈ s.pinned →
        g ∈ s.generations.erase target := by
      intro g inside pinned
      refine kept inside ?_
      rintro rfl
      exact free (named ▸ pinned)
    refine ⟨⟨sound.increasing.sublist List.erase_sublist,?_,?_⟩,Nat.le_refl _,?_,?_,pinned⟩
    · exact fun g inside => sound.fresh g (List.mem_of_mem_erase inside)
    · intro job n held
      obtain ⟨g,inside,rfl⟩ := sound.held job n held
      exact ⟨g,pinned g inside (List.mem_map_of_mem ((Dict.get?_eq_some_iff _ _ _).mp held)),rfl⟩
    · exact fun g inside => .inl (List.mem_of_mem_erase inside)
    · intro g last
      refine kept (List.mem_of_getLast? last) ?_
      rintro rfl
      exact other last.symm

theorem perform_follows (sound : Sound s) (call : Call) : Follows s (perform blake3 s call).2 := by
  cases call with
  | activate lockfile => exact .activate sound lockfile
  | rollback =>
    rcases @rollback_cases blake3 s with ⟨_,same⟩ | ⟨_,previous,_,_,same⟩
    · simp only [perform,same]
      exact .refl sound
    · simp only [perform,same]
      exact .activate sound previous.lockfile
  | pin job =>
    rcases pin_cases s job with ⟨_,same⟩ | ⟨_,_,_,_,same⟩ | ⟨g,last,_,same⟩
    · simp only [perform,same]
      exact .refl sound
    · simp only [perform,same]
      exact .refl sound
    · simp only [perform,same]
      refine .pins sound fun job' number held => ?_
      rw [Dict.get?_set] at held
      split at held
      · exact ⟨g,List.mem_of_getLast? last,Option.some.inj held⟩
      · exact sound.held job' number held
  | release job =>
    rcases release_cases s job with ⟨_,same⟩ | same
    · simp only [perform,same]
      exact .refl sound
    · simp only [perform,same]
      refine .pins sound fun job' number held => sound.held job' number ?_
      rw [Dict.get?_eq_some_iff] at held ⊢
      exact (List.mem_filter.mp held).1
  | prune number => exact .prune sound number

theorem run_snoc (calls : List Call) (call : Call) :
    run blake3 (calls ++ [call]) = (perform blake3 (run blake3 calls) call).2 := by
  simp [run]

theorem run_sound (calls : List Call) : Sound (run blake3 calls) := by
  induction calls using List.reverseRecOn with
  | nil => exact ⟨.nil,nofun,nofun⟩
  | append_singleton calls call ih =>
    rw [run_snoc]
    exact (perform_follows ih call).sound

theorem run_later (calls later : List Call) :
    (run blake3 calls).nextNumber ≤ (run blake3 (calls ++ later)).nextNumber := by
  induction later using List.reverseRecOn with
  | nil => rw [List.append_nil]
  | append_singleton later call ih =>
    rw [← List.append_assoc,run_snoc]
    exact ih.trans (perform_follows (run_sound _) call).later

theorem perform_pinned (sound : Sound s) {job : String} {g : Generation}
    (pinned : s.pins.get? job = some g.number) (inside : g ∈ s.generations) {call : Call}
    (kept : call ≠ .release job) : (perform blake3 s call).2.pins.get? job = some g.number ∧
      g ∈ (perform blake3 s call).2.generations := by
  refine ⟨?_,(perform_follows sound call).pinned g inside
    (List.mem_map_of_mem ((Dict.get?_eq_some_iff _ _ _).mp pinned))⟩
  have activated (lockfile : Lockfile) : (s.activate blake3 lockfile).2.pins = s.pins := by
    rcases @activate_cases blake3 s lockfile with ⟨_,_,_,same⟩ | same
    · rw [same]
    · rw [same]
      rfl
  cases call with
  | activate lockfile => rwa [perform,activated]
  | rollback =>
    rcases @rollback_cases blake3 s with ⟨_,same⟩ | ⟨_,_,_,_,same⟩
    · rwa [perform,same]
    · rwa [perform,same,activated]
  | pin other =>
    rcases pin_cases s other with ⟨_,same⟩ | ⟨_,_,_,_,same⟩ | ⟨_,_,free,same⟩
    · rwa [perform,same]
    · rwa [perform,same]
    · rw [perform,same]
      have different : job ≠ other := by
        rintro rfl
        rw [free] at pinned
        contradiction
      simpa only [Dict.get?_set_ne _ _ different] using pinned
  | release other =>
    rcases release_cases s other with ⟨_,same⟩ | same
    · rwa [perform,same]
    · rw [perform,same]
      have different : job ≠ other := fun same => kept (same ▸ rfl)
      rw [Dict.get?_eq_some_iff] at pinned ⊢
      exact List.mem_filter.mpr ⟨pinned,by simpa using different⟩
  | prune number =>
    rcases prune_cases s number with ⟨_,same⟩ | ⟨_,_,_,_,_,same⟩
    · rwa [perform,same]
    · rwa [perform,same]

theorem run_pinned (calls later : List Call) {job : String} {g : Generation}
    (pinned : (run blake3 calls).pins.get? job = some g.number)
    (inside : g ∈ (run blake3 calls).generations) (kept : .release job ∉ later) :
    (run blake3 (calls ++ later)).pins.get? job = some g.number ∧
      g ∈ (run blake3 (calls ++ later)).generations := by
  induction later using List.reverseRecOn with
  | nil =>
    rw [List.append_nil]
    exact ⟨pinned,inside⟩
  | append_singleton later call ih =>
    rw [List.mem_append,List.mem_singleton,not_or] at kept
    obtain ⟨pinned,inside⟩ := ih kept.1
    rw [← List.append_assoc,run_snoc]
    exact perform_pinned (run_sound _) pinned inside (Ne.symm kept.2)

theorem pin_held (sound : Sound s) {job : String} {g : Generation}
    (pinned : s.pins.get? job = some g.number) (inside : g ∈ s.generations) :
    s.pin job = (.ok g,s) := by
  unfold GenerationLedger.pin
  cases last : s.current with
  | none =>
    rw [List.getLast?_eq_none_iff.mp last] at inside
    exact absurd inside List.not_mem_nil
  | some current => simp only [pinned,sound.find inside]

theorem prune_iff (sound : Sound s) (number : Nat) :
    (∃ g, (s.prune number).1 = .ok g) ↔ ∃ g ∈ s.prunable, g.number = number := by
  constructor
  · rintro ⟨g,done⟩
    rcases prune_cases s number with ⟨_,same⟩ | ⟨target,inside,named,other,free,_⟩
    · rw [same] at done
      contradiction
    · subst named
      exact ⟨target,List.mem_filter.mpr ⟨inside,by simp [other,free]⟩,rfl⟩
  · rintro ⟨g,prunable,rfl⟩
    obtain ⟨inside,free⟩ := List.mem_filter.mp prunable
    simp only [Bool.and_eq_true,decide_eq_true_eq] at free
    have none_holds : s.holders g.number = [] := by
      rw [List.eq_nil_iff_forall_not_mem]
      intro job holder
      rw [GenerationLedger.holders,List.mem_mergeSort] at holder
      obtain ⟨e,held,_⟩ := List.mem_map.mp holder
      obtain ⟨held,same⟩ := List.mem_filter.mp held
      exact free.2 (List.mem_map.mpr ⟨e,held,beq_iff_eq.mp same⟩)
    refine ⟨g,?_⟩
    simp [GenerationLedger.prune,sound.find inside,free.1,none_holds]

theorem rollback_appends (s : GenerationLedger) :
    (∀ g, (s.rollback blake3).1 = .ok g → ∃ before previous current,
      s.generations = before ++ [previous,current] ∧ g.lockfile = previous.lockfile ∧
      g.number = s.nextNumber ∧ (s.rollback blake3).2.generations = s.generations ++ [g]) ↔
    ∀ before previous current, s.generations = before ++ [previous,current] →
      current.lockfileDigest blake3 ≠ previous.lockfileDigest blake3 := by
  rcases @rollback_cases blake3 s with ⟨few,same⟩ | ⟨before,previous,current,listed,same⟩
  · refine iff_of_true (fun g done => ?_) fun before previous current listed => ?_
    · rw [same] at done
      contradiction
    · rw [listed] at few
      simp at few
  · have last : s.current = some current := by simp [GenerationLedger.current,listed]
    rw [same]
    simp only [Except.ok.injEq]
    constructor
    · rintro appends before' previous' current' listed' equal
      obtain ⟨rfl,rfl⟩ : previous' = previous ∧ current' = current := by
        have tails := List.append_inj' (listed'.symm.trans listed) rfl
        simpa using tails.2
      obtain ⟨_,_,_,_,_,_,longer⟩ := appends _ rfl
      have stays : s.activate blake3 previous'.lockfile = (current',s) := by
        simp only [GenerationLedger.activate,last]
        exact if_pos equal
      rw [stays] at longer
      simpa using congrArg List.length longer
    · rintro differ g rfl
      refine ⟨before,previous,current,listed,?_⟩
      rcases @activate_cases blake3 s previous.lockfile with ⟨g,last',equal,_⟩ | appended
      · obtain rfl := Option.some.inj (last.symm.trans last')
        exact absurd equal (differ before previous current listed)
      · rw [appended]
        exact ⟨rfl,rfl,rfl⟩

/-- For every sequence of calls: numbers increase and are not given out again, what is current or
pinned stays, a job keeps the generation that it pinned until it is released, and exactly what is
prunable is pruned. A rollback appends the content before the current one exactly where the digests
of the two differ. -/
theorem ledger_keeps (blake3 : String → String) (calls : List Call) :
    (run blake3 calls).generations.Pairwise (·.number < ·.number) ∧
    (∀ call, ∀ g ∈ (perform blake3 (run blake3 calls) call).2.generations,
      g ∈ (run blake3 calls).generations ∨ ∀ before, before <+: calls →
        ∀ h ∈ (run blake3 before).generations, h.number < g.number) ∧
    (∀ call g, (run blake3 calls).current = some g →
      g ∈ (perform blake3 (run blake3 calls) call).2.generations) ∧
    (∀ job number, (run blake3 calls).pins.get? job = some number →
      ∃ g ∈ (run blake3 calls).generations, g.number = number) ∧
    (∀ job g, (run blake3 calls).current = some g → (run blake3 calls).pins.get? job = none →
      ∀ later, .release job ∉ later →
        (perform blake3 (run blake3 (calls ++ .pin job :: later)) (.pin job)).1 = .ok (some g)) ∧
    (∀ number, (∃ g, (perform blake3 (run blake3 calls) (.prune number)).1 = .ok (some g)) ↔
      ∃ g ∈ (run blake3 calls).prunable, g.number = number) ∧
    (∀ call problem, (perform blake3 (run blake3 calls) call).1 = .error problem →
      (perform blake3 (run blake3 calls) call).2 = run blake3 calls) ∧
    ((∀ g, (perform blake3 (run blake3 calls) .rollback).1 = .ok (some g) →
        ∃ before previous current,
          (run blake3 calls).generations = before ++ [previous,current] ∧
          g.lockfile = previous.lockfile ∧ g.number = (run blake3 calls).nextNumber ∧
          (perform blake3 (run blake3 calls) .rollback).2.generations =
            (run blake3 calls).generations ++ [g]) ↔
      ∀ before previous current, (run blake3 calls).generations = before ++ [previous,current] →
        current.lockfileDigest blake3 ≠ previous.lockfileDigest blake3) := by
  have sound := @run_sound blake3 calls
  have returned {x : Except LedgerError Generation} {g : Generation} :
      x.map some = .ok (some g) ↔ x = .ok g := by
    cases x with
    | error _ => simp [Except.map]
    | ok _ => simp [Except.map]
  refine ⟨sound.increasing,fun call g inside => ?_,fun call => (perform_follows sound call).current,
    sound.held,fun job g last free later kept => ?_,fun number => ?_,
    fun call problem => perform_failed _ call,?_⟩
  · refine ((perform_follows sound call).renewed g inside).imp_right fun new before starts h old => ?_
    obtain ⟨later,rfl⟩ := starts
    exact ((run_sound before).fresh h old).trans_le ((run_later before later).trans new)
  · have pinned : (run blake3 (calls ++ [.pin job])).pins.get? job = some g.number ∧
        g ∈ (run blake3 (calls ++ [.pin job])).generations := by
      rw [run_snoc,perform,GenerationLedger.pin,last]
      simp only [free]
      exact ⟨Dict.get?_set_self ..,List.mem_of_getLast? last⟩
    obtain ⟨pinned,inside⟩ := run_pinned (calls ++ [.pin job]) later pinned.1 pinned.2 kept
    rw [List.append_assoc,List.singleton_append] at pinned inside
    rw [perform,returned,pin_held (run_sound _) pinned inside]
  · simp only [perform,returned]
    exact prune_iff sound number
  · simp only [perform,returned]
    exact rollback_appends _

def bare : Lockfile := ⟨[]⟩

def one : Lockfile := ⟨[⟨"img","1.0","blake3:00","a",["img"],"registry"⟩]⟩

theorem ledger_keeps_pinned :
    (perform id (run id [.activate bare,.pin "job",.activate one,.rollback]) (.pin "job")).1 =
      .ok (some ⟨1,bare⟩) :=
  (ledger_keeps id [.activate bare]).2.2.2.2.1 "job" ⟨1,bare⟩ (by decide +kernel)
    (by decide +kernel) [.activate one,.rollback] (by decide +kernel)

/-- With the generation between them pruned, the last two generations have the same content. -/
theorem rollback_stays :
    let s := run id [.activate bare,.activate one,.activate bare,.prune 2]
    s.generations = [⟨1,bare⟩,⟨3,bare⟩] ∧
    (perform id s .rollback).1 = .ok (some ⟨3,bare⟩) ∧
    (perform id s .rollback).2.generations = [⟨1,bare⟩,⟨3,bare⟩] := by
  decide +kernel

end Dinkster.Install.Ledger
