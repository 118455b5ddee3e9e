import Dinkster.Lib.Transition
import Dinkster.Supervisor.Transactions
import Mathlib

/-! Every journal that an operation leaves behind is one that `Journal.read` accepts, wherever the
operation is interrupted. The producers establish the reader's rules before they write; the one
rule that they do not establish by themselves is that the target ports of the bindings differ. -/
namespace Dinkster.Environment
open Canonical Faults Fallible

namespace Journal

theorem read_ok {journal : Journal} : journal.read = .ok journal ↔ journal.check = .ok ⟨⟩ := by
  unfold read
  cases journal.check <;> simp [Except.map]

structure Accepted (journal : Journal) : Prop where
  bindings : readBindings [] [] journal.bindings = .ok ⟨⟩
  apart : ¬ (journal.previous = some journal.target ∧
    journal.operation ∈ [.update,.rollback,.repair,.restore])
  collection : journal.readCollection = .ok ⟨⟩
  settings : journal.readSettings = .ok ⟨⟩
  registration : journal.readRegistration = .ok ⟨⟩
  relocation : journal.readRelocation = .ok ⟨⟩
  entry : journal.readEntry = .ok ⟨⟩
  restored : journal.readRestored = .ok ⟨⟩
  previous : ∀ number ∈ journal.previous, 1 ≤ number
  target : 1 ≤ journal.target

theorem generationNumber_ok {number : Nat} : generationNumber number = .ok ⟨⟩ ↔ 1 ≤ number := by
  rw [generationNumber,refuseIf_ok]
  omega

theorem check_ok {journal : Journal} : journal.check = .ok ⟨⟩ ↔ journal.Accepted := by
  unfold check
  simp only [bind_ok]
  constructor
  · rintro ⟨_,bindings,_,apart,_,collection,_,settings,_,registration,_,relocation,_,entry,_,
      restored,_,previous,target⟩
    refine ⟨bindings,refuseIf_ok.mp apart,collection,settings,registration,relocation,entry,
      restored,?_,generationNumber_ok.mp target⟩
    intro number here
    rw [Option.mem_def.mp here] at previous
    exact generationNumber_ok.mp previous
  · intro accepted
    refine ⟨⟨⟩,accepted.bindings,⟨⟩,refuseIf_ok.mpr accepted.apart,⟨⟩,accepted.collection,⟨⟩,
      accepted.settings,⟨⟩,accepted.registration,⟨⟩,accepted.relocation,⟨⟩,accepted.entry,⟨⟩,
      accepted.restored,⟨⟩,?_,generationNumber_ok.mpr accepted.target⟩
    cases here : journal.previous with
    | none => rfl
    | some number => exact generationNumber_ok.mpr (accepted.previous number here)

theorem check_stage (journal : Journal) (stage : Stage) :
    { journal with stage := stage }.check = journal.check := rfl

theorem check_error (journal : Journal) (error : String) :
    { journal with error := some error }.check = journal.check := rfl

end Journal

structure BindingValid (b : Binding) : Prop where
  name : engineName b.name = true
  port : validPort b.port = true
  target : validPort b.targetPort = true
  gpus : b.gpus.all gpuId = true

theorem readBindings_ok {names : List String} {ports : List Nat} {bindings : List Binding}
    (valid : ∀ b ∈ bindings, BindingValid b) (distinct : (bindings.map (·.name)).Nodup)
    (fresh : ∀ b ∈ bindings, b.name ∉ names) (apart : (bindings.map (·.targetPort)).Nodup)
    (free : ∀ b ∈ bindings, b.targetPort ∉ ports) :
    readBindings names ports bindings = .ok ⟨⟩ := by
  induction bindings generalizing names ports with
  | nil => rfl
  | cons b rest ih =>
    obtain ⟨first,others⟩ := List.forall_mem_cons.mp valid
    obtain ⟨unnamed,distinct⟩ := List.nodup_cons.mp distinct
    obtain ⟨unused,apart⟩ := List.nodup_cons.mp apart
    obtain ⟨fresh,later⟩ := List.forall_mem_cons.mp fresh
    obtain ⟨free,open'⟩ := List.forall_mem_cons.mp free
    refine bind_ok.mpr ⟨⟨⟩,refuseIf_ok.mpr ?_,bind_ok.mpr ⟨⟨⟩,refuseIf_ok.mpr ?_,ih others distinct
      ?_ apart ?_⟩⟩
    · simp [first.name,first.port,first.target,fresh,free]
    · simp [first.gpus]
    · intro c inside again
      rcases List.mem_cons.mp again with same | again
      · exact unnamed (List.mem_map.mpr ⟨c,inside,same⟩)
      · exact later c inside again
    · intro c inside again
      rcases List.mem_cons.mp again with same | again
      · exact unused (List.mem_map.mpr ⟨c,inside,same⟩)
      · exact open' c inside again

namespace Project

theorem assignPorts_names {stopped free : List Nat} {engines : List (String × Engine)}
    {bindings : List Binding} (assigned : assignPorts stopped free engines = .ok bindings) :
    bindings.map (·.name) = engines.map (·.1) := by
  induction engines generalizing free bindings with
  | nil =>
    cases assigned
    rfl
  | cons e rest ih =>
    obtain ⟨name,engine⟩ := e
    rw [assignPorts] at assigned
    split at assigned
    · split at assigned
      · cases assigned
      · obtain ⟨more,later,same⟩ := bind_ok.mp assigned
        obtain rfl := Except.ok.inj same
        rw [List.map_cons,List.map_cons,ih later]
    · obtain ⟨more,later,same⟩ := bind_ok.mp assigned
      obtain rfl := Except.ok.inj same
      rw [List.map_cons,List.map_cons,ih later]

theorem assignPorts_targets {stopped free : List Nat} {engines : List (String × Engine)}
    {bindings : List Binding} (distinct : free.Nodup)
    (known : ∀ port ∈ stoppedPorts engines, port ∈ stopped) (apart : (stoppedPorts engines).Nodup)
    (assigned : assignPorts stopped free engines = .ok bindings) :
    (bindings.map (·.targetPort)).Nodup ∧ ∀ b ∈ bindings,
      (b.targetPort ∈ free ∧ b.targetPort ∉ stopped) ∨ b.targetPort ∈ stoppedPorts engines := by
  induction engines generalizing free bindings with
  | nil =>
    cases assigned
    exact ⟨List.nodup_nil,nofun⟩
  | cons e rest ih =>
    obtain ⟨name,engine⟩ := e
    rw [assignPorts] at assigned
    by_cases running : engine.running = true
    · have same : stoppedPorts ((name,engine) :: rest) = stoppedPorts rest := by
        simp [stoppedPorts,running]
      rw [same] at known apart ⊢
      rw [if_pos running] at assigned
      cases left : free.dropWhile (· ∈ stopped) with
      | nil =>
        rw [left] at assigned
        cases assigned
      | cons port ports =>
        rw [left] at assigned
        obtain ⟨more,later,written⟩ := bind_ok.mp assigned
        obtain rfl := Except.ok.inj written
        -- the port is the first free one that no stopped engine has
        have suffix : (port :: ports) <:+ free := left ▸ List.dropWhile_suffix _
        have outside : port ∉ stopped := by
          have first := List.head_dropWhile_not (p := (· ∈ stopped)) (l := free) (by simp [left])
          simpa [left] using first
        obtain ⟨unused,ports_distinct⟩ := List.nodup_cons.mp (distinct.sublist suffix.sublist)
        obtain ⟨nodup,targets⟩ := ih ports_distinct known apart later
        constructor
        · refine List.nodup_cons.mpr ⟨fun again => ?_,nodup⟩
          obtain ⟨b,inside,same⟩ := List.mem_map.mp again
          replace same : b.targetPort = port := same
          have targeted := targets b inside
          rw [same] at targeted
          rcases targeted with ⟨in_ports,-⟩ | in_stopped
          · exact unused in_ports
          · exact outside (known _ in_stopped)
        · refine List.forall_mem_cons.mpr ⟨.inl ⟨suffix.subset List.mem_cons_self,outside⟩,?_⟩
          intro b inside
          refine (targets b inside).imp_left fun held => ⟨?_,held.2⟩
          exact suffix.subset (List.mem_cons_of_mem _ held.1)
    · have same : stoppedPorts ((name,engine) :: rest) = engine.port :: stoppedPorts rest := by
        simp [stoppedPorts,running]
      rw [same] at known apart ⊢
      rw [if_neg running] at assigned
      obtain ⟨more,later,written⟩ := bind_ok.mp assigned
      obtain rfl := Except.ok.inj written
      obtain ⟨first,others⟩ := List.forall_mem_cons.mp known
      obtain ⟨unused,apart⟩ := List.nodup_cons.mp apart
      obtain ⟨nodup,targets⟩ := ih distinct others apart later
      constructor
      · refine List.nodup_cons.mpr ⟨fun again => ?_,nodup⟩
        obtain ⟨b,inside,same⟩ := List.mem_map.mp again
        replace same : b.targetPort = engine.port := same
        have targeted := targets b inside
        rw [same] at targeted
        rcases targeted with ⟨-,outside⟩ | in_stopped
        · exact outside first
        · exact unused in_stopped
      · refine List.forall_mem_cons.mpr ⟨.inr List.mem_cons_self,?_⟩
        intro b inside
        exact (targets b inside).imp_right (List.mem_cons_of_mem _)

theorem assignPorts_valid {stopped free : List Nat} {engines : List (String × Engine)}
    {bindings : List Binding} (ports : ∀ port ∈ free, validPort port = true)
    (engines_valid : ∀ e ∈ engines, engineName e.1 = true ∧ validPort e.2.port = true ∧
      e.2.gpus.all gpuId = true)
    (assigned : assignPorts stopped free engines = .ok bindings) :
    ∀ b ∈ bindings, BindingValid b := by
  induction engines generalizing free bindings with
  | nil =>
    cases assigned
    exact nofun
  | cons e rest ih =>
    obtain ⟨name,engine⟩ := e
    obtain ⟨⟨named,port_valid,gpus⟩,others⟩ := List.forall_mem_cons.mp engines_valid
    rw [assignPorts] at assigned
    split at assigned
    · split at assigned
      · cases assigned
      · rename_i port left taken
        have suffix : (port :: left) <:+ free := taken ▸ List.dropWhile_suffix _
        obtain ⟨here,later⟩ := List.forall_mem_cons.mp fun p inside => ports p (suffix.subset inside)
        obtain ⟨more,tail,same⟩ := bind_ok.mp assigned
        obtain rfl := Except.ok.inj same
        exact List.forall_mem_cons.mpr ⟨⟨named,port_valid,here,gpus⟩,ih later others tail⟩
    · obtain ⟨more,tail,same⟩ := bind_ok.mp assigned
      obtain rfl := Except.ok.inj same
      exact List.forall_mem_cons.mpr ⟨⟨named,port_valid,port_valid,gpus⟩,ih ports others tail⟩

theorem engineRecords_distinct (s : Project) (generation : Nat) :
    ((s.engineRecords generation).map (·.1)).Nodup := by
  have listed := (sortedBy_perm (·.1) (s.runtime.entries.filterMap fun e =>
    if e.1.1 = generation then some (e.1.2,e.2) else none)).map (·.1)
  refine (listed.nodup_iff).mpr ?_
  have keys : (s.runtime.entries.map (·.1)).Nodup := s.runtime.distinct
  generalize s.runtime.entries = entries at keys
  induction entries with
  | nil => exact List.nodup_nil
  | cons e rest ih =>
    obtain ⟨fresh,others⟩ := List.nodup_cons.mp keys
    rw [List.filterMap_cons]
    split
    · exact ih others
    · rename_i here
      split at here
      · rename_i number
        obtain rfl := Option.some.inj here
        refine List.nodup_cons.mpr ⟨fun again => ?_,ih others⟩
        obtain ⟨d,inside,same⟩ := List.mem_map.mp again
        obtain ⟨f,member,found⟩ := List.mem_filterMap.mp inside
        split at found
        · rename_i number'
          obtain rfl := Option.some.inj found
          refine fresh (List.mem_map.mpr ⟨f,member,?_⟩)
          exact Prod.ext (number'.trans number.symm) same
        · cases found
      · cases here

theorem engineAssignments_ok {s : Project} {generation : Nat} {engines : List (String × Engine)}
    (assigned : s.engineAssignments generation = .ok engines) :
    engines = s.engineRecords generation ∧ ∀ e ∈ engines, engineName e.1 = true ∧
      validPort e.2.port = true ∧ e.2.gpus.all gpuId = true := by
  obtain ⟨_,checked,same⟩ := bind_ok.mp assigned
  obtain rfl := Except.ok.inj same
  refine ⟨rfl,fun e inside => ?_⟩
  have valid := forM_ok checked e inside
  obtain ⟨_,-,rest⟩ := bind_ok.mp valid
  obtain ⟨_,name,rest⟩ := bind_ok.mp rest
  obtain ⟨_,port,gpus⟩ := bind_ok.mp rest
  exact ⟨by simpa using refuseIf_ok.mp name,by simpa using refuseIf_ok.mp port,
    by simpa using refuseIf_ok.mp gpus⟩

def StoppedApart (s : Project) : Prop :=
  ∀ number ∈ s.current, (stoppedPorts (s.engineRecords number)).Nodup

/-- Every journal can be read, and `current` has a positive number, as `read_current` demands. -/
structure Readable (s : Project) : Prop where
  journals : ∀ e ∈ s.journals.entries, e.2.check = .ok ⟨⟩
  current : ∀ number ∈ s.current, 1 ≤ number

variable {α β : Type} {p : Action α} {q : α → Action β} {learnt : α → Prop} {inv : Project → Prop}

/-- `inv` holds wherever `p` ends. -/
abbrev Kept (inv : Project → Prop) (p : Action α) : Prop := Meets False p inv (fun _ => inv) inv

abbrev Keeps (p : Action α) : Prop := Kept Readable p

/-- What `p` returns is `learnt`. -/
abbrev Learns (p : Action α) (learnt : α → Prop) : Prop :=
  Meets False p Readable (fun a s => learnt a ∧ Readable s) Readable

theorem keeps_bind (first : Kept inv p) (second : ∀ a, Kept inv (q a)) : Kept inv (p >>= q) :=
  Meets.bind first second

theorem learns_bind (first : Learns p learnt) (second : ∀ a, learnt a → Keeps (q a)) :
    Keeps (p >>= q) :=
  Meets.bind first fun a => Meets.known (second a)

theorem keeps_raise (error : String) : Kept inv (raise error : Action α) := meets_raise fun _ => id

theorem keeps_pure (a : α) : Kept inv (pure a : Action α) := meets_pure fun _ => id

theorem keeps_look {f : Project → Except String α} : Kept inv (look f) :=
  meets_look (fun _ => id) (fun _ _ held _ => held) fun _ _ _ _ => id

theorem learns_look {f : Project → Except String α}
    (known : ∀ s a, Readable s → f s = .ok a → learnt a) : Learns (look f) learnt :=
  meets_look (fun _ => id) (fun s a readable found => ⟨known s a readable found,readable⟩)
    fun _ _ _ _ => id

theorem keeps_forEach {γ : Type} {items : List γ} {body : γ → Action Unit}
    (each : ∀ item ∈ items, Kept inv (body item)) : Kept inv (forEach items body) :=
  meets_forEach_same each

theorem keeps_onSome {γ : Type} {value : Option γ} {body : γ → Action Unit}
    (each : ∀ c, Kept inv (body c)) : Kept inv (onSome value body) :=
  meets_onSome (fun _ _ => id) fun c _ => each c

theorem keeps_onlyIf {condition : Prop} [Decidable condition] {body : Action Unit}
    (holds : condition → Kept inv body) : Kept inv (onlyIf condition body) :=
  meets_onlyIf holds fun _ _ => id

theorem keeps_handling {handler : String → Action α} (body : Kept inv p)
    (handled : ∀ error, Kept inv (handler error)) : Kept inv (handling p handler) :=
  Meets.handling body handled fun _ => id

def Frames (inv : Project → Prop) : Prop :=
  ∀ s t : Project, t.journals = s.journals → t.current = s.current → inv s → inv t

theorem readable_frames : Frames Readable := fun _ _ journals current readable =>
  ⟨journals ▸ readable.journals,current ▸ readable.current⟩

theorem kept_act (frames : Frames inv) {f : Project → Except String (α × Project)}
    (same : ∀ s a t, f s = .ok (a,t) → t.journals = s.journals ∧ t.current = s.current) :
    Kept inv (act f) := by
  refine meets_act (fun _ => id) ?_ fun _ _ _ _ => id
  intro s a t held done
  obtain ⟨journals,current⟩ := same s a t done
  exact ⟨frames s t journals current held,frames s t journals current held⟩

theorem kept_put (frames : Frames inv) {f : Project → Project}
    (journals : ∀ s, (f s).journals = s.journals) (current : ∀ s, (f s).current = s.current) :
    Kept inv (put f) := by
  refine kept_act frames ?_
  rintro s _ _ ⟨⟩
  exact ⟨journals s,current s⟩

theorem keeps_act {f : Project → Except String (α × Project)}
    (same : ∀ s a t, f s = .ok (a,t) → t.journals = s.journals ∧ t.current = s.current) :
    Keeps (act f) :=
  kept_act readable_frames same

theorem keeps_put {f : Project → Project} (journals : ∀ s, (f s).journals = s.journals)
    (current : ∀ s, (f s).current = s.current) : Keeps (put f) :=
  kept_put readable_frames journals current

theorem keeps_write (stem : Nat) {journal : Journal} (accepted : journal.check = .ok ⟨⟩) :
    Keeps (writeJournal stem journal) := by
  refine meets_put (fun _ => id) fun s readable => ?_
  have kept : Readable { s with journals := s.journals.set stem journal } := by
    refine ⟨fun e inside => ?_,readable.current⟩
    rcases Dict.mem_entries_of_set inside with rfl | old
    · exact accepted
    · exact readable.journals e old
  exact ⟨kept,kept⟩

theorem learns_read (stem : Nat) :
    Learns (readJournal stem) fun journal => journal.check = .ok ⟨⟩ := by
  refine learns_look fun s journal readable found => ?_
  cases held : s.journals.get? stem with
  | none =>
    rw [held] at found
    cases found
  | some kept =>
    have accepted := readable.journals _ ((Dict.get?_eq_some_iff _ _ _).mp held)
    rw [held,Option.elim_some,Journal.read,accepted] at found
    cases found
    exact accepted

theorem keeps_setCurrent (number : Nat) : Keeps (setCurrent number) := by
  refine meets_act (fun _ => id) ?_ fun _ _ _ _ => id
  intro s _ t readable done
  obtain ⟨_,positive,rest⟩ := bind_ok.mp done
  obtain ⟨_,-,rest⟩ := bind_ok.mp rest
  obtain ⟨_,-,same⟩ := bind_ok.mp rest
  cases same
  have kept : Readable { s with current := some number } := by
    refine ⟨readable.journals,fun n here => ?_⟩
    obtain rfl := Option.some.inj here
    exact Journal.generationNumber_ok.mp positive
  exact ⟨kept,kept⟩

theorem keeps_startEngine (generation : Nat) (name : String) (port : Nat) (gpus : List String) :
    Keeps (startEngine generation name port gpus) := by
  refine keeps_act fun s a t done => ?_
  obtain ⟨_,-,rest⟩ := bind_ok.mp done
  obtain ⟨_,-,rest⟩ := bind_ok.mp rest
  split at rest
  · obtain ⟨_,-,same⟩ := bind_ok.mp rest
    cases same
    exact ⟨rfl,rfl⟩
  · cases rest
    exact ⟨rfl,rfl⟩

theorem keeps_stopEngine (name : String) (generation : Nat) :
    Keeps (stopEngine name generation) := by
  refine keeps_put (fun s => ?_) fun s => ?_
  · split <;> rfl
  · split <;> rfl

theorem keeps_preserve (name : String) (previous target port : Nat) :
    Keeps (preserveStoppedEngine name previous target port) := by
  refine keeps_act fun s a t done => ?_
  split at done
  · cases done
  · obtain ⟨_,-,rest⟩ := bind_ok.mp done
    obtain ⟨_,-,same⟩ := bind_ok.mp rest
    cases same
    exact ⟨rfl,rfl⟩

theorem keeps_registerProject (site : Site) (store : Path) :
    Keeps (registerProject site store) := by
  refine keeps_bind (keeps_act fun s a t done => ?_) fun _ => keeps_put (fun _ => rfl) fun _ => rfl
  obtain ⟨_,-,rest⟩ := bind_ok.mp done
  obtain ⟨_,-,same⟩ := bind_ok.mp rest
  cases same
  exact ⟨rfl,rfl⟩

theorem keeps_restoreRegistration (site : Site) (snapshot : Registration) :
    Keeps (restoreSetupRegistration site snapshot) := by
  refine keeps_bind keeps_look fun found => ?_
  refine keeps_bind (keeps_onlyIf fun _ => keeps_put (fun _ => rfl) fun _ => rfl) fun _ => ?_
  refine keeps_bind (keeps_put (fun _ => rfl) fun _ => rfl) fun _ => ?_
  exact keeps_bind (keeps_put (fun _ => rfl) fun _ => rfl) fun _ =>
    keeps_put (fun _ => rfl) fun _ => rfl

theorem keeps_publish (entry : Entry) : Keeps (publishEntry entry) := by
  refine keeps_act fun s a t done => ?_
  obtain ⟨_,-,same⟩ := bind_ok.mp done
  cases same
  exact ⟨rfl,rfl⟩

theorem keeps_recordFailedRestore (operation entryId : Nat) (now error : String) :
    Keeps (recordFailedRestore operation entryId now error) := by
  refine keeps_act fun s a t done => ?_
  obtain ⟨_,-,rest⟩ := bind_ok.mp done
  split at rest
  · cases rest
    exact ⟨rfl,rfl⟩
  · obtain ⟨_,-,same⟩ := bind_ok.mp rest
    cases same
    exact ⟨rfl,rfl⟩

theorem kept_removeTree (frames : Frames inv) (site : Site) (target : Nat) :
    Kept inv (removeTree site target) := by
  refine keeps_bind keeps_look fun tree => ?_
  refine keeps_bind (keeps_forEach fun _ _ => kept_put frames (fun _ => rfl) fun _ => rfl) fun _ => ?_
  exact kept_put frames (fun _ => rfl) fun _ => rfl

theorem kept_buildGeneration (frames : Frames inv) (site : Site) (target : Nat)
    (edits : List Edit) : Kept inv (buildGeneration site target edits) := by
  refine keeps_bind keeps_look fun _ => keeps_handling ?_ fun error => ?_
  · exact keeps_forEach fun _ _ => kept_put frames (fun _ => rfl) fun _ => rfl
  · refine keeps_bind keeps_look fun tree => ?_
    refine keeps_bind (keeps_onlyIf fun _ => kept_removeTree frames site target) fun _ => ?_
    exact keeps_raise error

theorem keeps_restoreTree (stem number : Nat) : Keeps (restoreTree stem number) := by
  refine keeps_act fun s a t done => ?_
  split at done
  · cases done
  · cases done
    exact ⟨rfl,rfl⟩
  · cases done
    exact ⟨rfl,rfl⟩
  · cases done

theorem keeps_restoreCache (store : Path) (stem : Nat) (entry : Path) :
    Keeps (restoreCache store stem entry) := by
  refine keeps_act fun s a t done => ?_
  split at done
  · split at done
    · cases done
    · cases done
      exact ⟨rfl,rfl⟩
  · split at done
    · cases done
      exact ⟨rfl,rfl⟩
    · cases done

theorem keeps_parkTree (stem number : Nat) : Keeps (parkTree stem number) := by
  refine keeps_act fun s a t done => ?_
  split at done
  · cases done
  · cases done
    exact ⟨rfl,rfl⟩

theorem keeps_parkCache (store : Path) (stem : Nat) (entry : Path) :
    Keeps (parkCache store stem entry) := by
  refine keeps_act fun s a t done => ?_
  split at done
  · cases done
    exact ⟨rfl,rfl⟩
  · cases done

theorem keeps_releaseStore (stem : Nat) (journal : Journal) : Keeps (releaseStore stem journal) := by
  refine keeps_onSome fun store => keeps_put (fun s => ?_) fun s => ?_
  · split <;> rfl
  · split <;> rfl

theorem keeps_cleanup (stem : Nat) : Keeps (cleanupCollection stem) := by
  refine learns_bind (learns_read stem) fun journal accepted => ?_
  refine keeps_bind keeps_look fun _ => ?_
  refine keeps_bind (keeps_forEach fun _ _ => keeps_put (fun _ => rfl) fun _ => rfl) fun _ => ?_
  refine keeps_bind (keeps_onSome fun store => keeps_forEach fun _ _ =>
    keeps_put (fun _ => rfl) fun _ => rfl) fun _ => ?_
  exact keeps_releaseStore stem journal

theorem keeps_recoverCollection (stem : Nat) : Keeps (recoverCollection stem) := by
  refine learns_bind (learns_read stem) fun journal accepted => keeps_onlyIf fun _ => ?_
  refine keeps_bind keeps_look fun _ => ?_
  refine keeps_bind (keeps_forEach fun number _ => keeps_restoreTree stem number) fun _ => ?_
  refine keeps_bind (keeps_onSome fun store => keeps_forEach fun entry _ =>
    keeps_restoreCache store stem entry) fun _ => ?_
  refine keeps_bind (keeps_write stem ?_) fun _ => keeps_releaseStore stem journal
  rw [Journal.check_stage]
  exact accepted

theorem keeps_abandonCollection (stem : Nat) (error : String) :
    Keeps (abandonCollection stem error) := by
  refine learns_bind (learns_read stem) fun journal accepted => ?_
  refine keeps_bind (keeps_write stem ?_) fun _ => ?_
  · rw [Journal.check_error]
    exact accepted
  · exact keeps_bind (keeps_recoverCollection stem) fun _ => keeps_raise error

theorem keeps_recoverStoreCollection (store : Path) : Keeps (recoverStoreCollection store) := by
  refine keeps_bind keeps_look fun marker => keeps_onSome fun stem => ?_
  refine learns_bind (learns_read stem) fun journal accepted => ?_
  refine keeps_bind keeps_look fun _ => ?_
  split
  · exact keeps_recoverCollection stem
  · split
    · exact keeps_cleanup stem
    · exact keeps_releaseStore stem journal

theorem keeps_clearEarlier (stem : Nat) : Keeps (clearEarlier stem) := by
  refine learns_bind (learns_read stem) fun record accepted => ?_
  exact keeps_bind keeps_look fun _ => keeps_onlyIf fun _ => keeps_cleanup stem

theorem collectionPlan_ok {s : Project} {plan : Plan} (readable : s.Readable)
    (planned : s.collectionPlan = .ok plan) :
    1 ≤ plan.current ∧ (∀ number ∈ plan.collected, 1 ≤ number) ∧ plan.collected.Nodup ∧
      plan.current ∉ plan.collected := by
  obtain ⟨current,named,rest⟩ := bind_ok.mp planned
  obtain ⟨previous,-,rest⟩ := bind_ok.mp rest
  obtain ⟨_,-,rest⟩ := bind_ok.mp rest
  obtain ⟨_,checked,same⟩ := bind_ok.mp rest
  obtain rfl := Except.ok.inj same
  have here : s.current = some current := by
    cases held : s.current with
    | none =>
      rw [held] at named
      cases named
    | some number =>
      rw [held] at named
      cases named
      rfl
  refine ⟨readable.current current here,fun number inside => ?_,?_,fun again => ?_⟩
  · have each := forM_ok checked number (List.mem_of_mem_filter inside)
    obtain ⟨_,positive,-⟩ := bind_ok.mp each
    have := refuseIf_ok.mp positive
    omega
  · have keys : (sortedBy id s.trees.keys).Nodup :=
      (sortedBy_perm id s.trees.keys).nodup_iff.mpr s.trees.distinct
    exact keys.filter _
  · have outside := (List.mem_filter.mp again).2
    simp at outside

theorem storeCollectionPlan_ok {site : Site} {s : Project} {store : Path} {excluded : List Nat}
    {paths : List Path} (planned : storeCollectionPlan site s store excluded = .ok paths) :
    paths.all storeCachePath = true ∧ paths.Nodup := by
  obtain ⟨_,-,rest⟩ := bind_ok.mp planned
  obtain ⟨_,-,rest⟩ := bind_ok.mp rest
  obtain ⟨referenced,-,rest⟩ := bind_ok.mp rest
  obtain ⟨_,checked,same⟩ := bind_ok.mp rest
  obtain rfl := Except.ok.inj same
  constructor
  · refine List.all_eq_true.mpr fun entry inside => ?_
    have each := refuseIf_ok.mp (forM_ok checked entry (List.mem_of_mem_filter inside))
    simpa using each
  · exact (Finset.sort_nodup _ _).filter _

private theorem forM_each {γ : Type} {f : γ → Except String Unit} {xs : List γ}
    (each : ∀ x ∈ xs, f x = .ok ⟨⟩) : xs.forM f = .ok ⟨⟩ := by
  induction xs with
  | nil => rfl
  | cons x rest ih =>
    obtain ⟨head,tail⟩ := List.forall_mem_cons.mp each
    exact bind_ok.mpr ⟨⟨⟩,head,ih tail⟩

theorem collection_accepted {approved : Plan} {cache : Option (Path × List Path)}
    (positive : 1 ≤ approved.current) (numbers : ∀ number ∈ approved.collected, 1 ≤ number)
    (distinct : approved.collected.Nodup) (other : approved.current ∉ approved.collected)
    (paths : ∀ e ∈ cache, e.2.all storeCachePath = true ∧ e.2.Nodup) :
    (collection approved cache).check = .ok ⟨⟩ := by
  have listed : ((cache.map (·.2)).getD []).all storeCachePath = true ∧
      ((cache.map (·.2)).getD []).Nodup := by
    cases cache with
    | none => exact ⟨rfl,List.nodup_nil⟩
    | some e => exact paths e rfl
  refine Journal.check_ok.mpr ⟨rfl,by simp [collection],?_,rfl,?_,rfl,rfl,rfl,?_,positive⟩
  · refine bind_ok.mpr ⟨⟨⟩,?_,bind_ok.mpr ⟨⟨⟩,?_,bind_ok.mpr ⟨⟨⟩,?_,?_⟩⟩⟩
    · exact forM_each fun number inside => Journal.generationNumber_ok.mpr (numbers number inside)
    · rw [refuseIf_ok]
      simp [collection,distinct,other]
    · rw [refuseIf_ok]
      simp only [collection,listed.1]
      decide
    · rw [refuseIf_ok]
      cases cache with
      | none => simp [collection]
      | some e =>
        have nodup := listed.2
        simp only [Option.map_some,Option.getD_some] at nodup
        simp [collection,nodup]
  · rw [Journal.readRegistration,refuseIf_ok]
    simp [collection]
  · intro number here
    obtain rfl := Option.some.inj here
    exact positive

theorem keeps_collect (site : Site) (stem : Nat) (approved : Plan)
    (cache : Option (Path × List Path)) : Keeps (collectGenerations site stem approved cache) := by
  unfold collectGenerations
  refine learns_bind (?_ : Learns (look _) fun _ => (collection approved cache).check = .ok ⟨⟩)
    fun _ accepted => ?_
  · refine learns_look fun s _ readable done => ?_
    obtain ⟨plan,made,rest⟩ := bind_ok.mp done
    obtain ⟨_,agreed,rest⟩ := bind_ok.mp rest
    obtain rfl := not_not.mp (refuseIf_ok.mp agreed)
    obtain ⟨positive,numbers,distinct,other⟩ := collectionPlan_ok readable made
    refine collection_accepted positive numbers distinct other ?_
    rintro ⟨store,paths⟩ here
    obtain rfl : cache = some (store,paths) := here
    obtain ⟨found,made,agreed⟩ := bind_ok.mp rest
    obtain rfl := not_not.mp (refuseIf_ok.mp agreed)
    exact storeCollectionPlan_ok made
  refine keeps_bind keeps_look fun stems => ?_
  refine keeps_bind (keeps_forEach fun earlier _ => keeps_clearEarlier earlier) fun _ => ?_
  refine keeps_onlyIf fun _ => ?_
  refine keeps_bind (keeps_write stem accepted) fun _ => ?_
  refine keeps_bind (keeps_handling ?_ (keeps_abandonCollection stem)) fun _ => keeps_cleanup stem
  refine keeps_bind (keeps_onSome fun store => keeps_put (fun _ => rfl) fun _ => rfl) fun _ => ?_
  refine keeps_bind (keeps_write stem ?_) fun _ => ?_
  · rw [Journal.check_stage]
    exact accepted
  refine keeps_bind (keeps_forEach fun number _ => keeps_parkTree stem number) fun _ => ?_
  refine keeps_bind (keeps_onSome fun store => keeps_forEach fun entry _ =>
    keeps_parkCache store stem entry) fun _ => keeps_write stem ?_
  rw [Journal.check_stage]
  exact accepted

theorem keeps_restoreCurrent (previous : Option Nat) : Keeps (restoreCurrent previous) := by
  cases previous with
  | none =>
    refine meets_put (fun _ => id) fun s readable => ?_
    have kept : Readable { s with current := none } := ⟨readable.journals,nofun⟩
    exact ⟨kept,kept⟩
  | some previous => exact keeps_setCurrent previous

theorem keeps_removeTarget (site : Site) (journal : Journal) :
    Keeps (removeTarget site journal) :=
  keeps_bind keeps_look fun _ =>
    keeps_onlyIf fun _ => kept_removeTree readable_frames site journal.target

theorem keeps_rollBack (site : Site) (stem : Nat) (now : String) {journal : Journal}
    (accepted : journal.check = .ok ⟨⟩) : Keeps (rollBack site stem now journal) := by
  refine keeps_bind keeps_look fun _ => ?_
  refine keeps_bind (keeps_forEach fun binding _ => keeps_stopEngine _ _) fun _ => ?_
  refine keeps_bind (keeps_onSome fun change => keeps_onlyIf fun _ =>
    keeps_put (fun _ => rfl) fun _ => rfl) fun _ => ?_
  refine keeps_bind (keeps_restoreCurrent journal.previous) fun _ => ?_
  refine keeps_bind (keeps_onSome fun previous => keeps_forEach fun binding _ =>
    keeps_onlyIf fun _ => keeps_startEngine _ _ _ _) fun _ => ?_
  refine keeps_bind (keeps_removeTarget site journal) fun _ => ?_
  refine keeps_bind (keeps_onSome fun snapshot => keeps_restoreRegistration site snapshot) fun _ => ?_
  refine keeps_bind (keeps_onSome fun entry => keeps_recordFailedRestore _ _ _ _) fun _ => ?_
  refine keeps_write stem ?_
  rw [Journal.check_stage]
  exact accepted

theorem keeps_recoverActivation (site : Site) (stem : Nat) (now : String) :
    Keeps (recoverActivation site stem now) := by
  refine learns_bind (learns_read stem) fun journal accepted => ?_
  split
  · exact keeps_rollBack site stem now accepted
  · exact keeps_onlyIf fun _ => keeps_onSome keeps_publish

theorem keeps_abandon (site : Site) (stem : Nat) (now error : String) :
    Keeps (abandon site stem now error : Action α) := by
  refine learns_bind (learns_read stem) fun journal accepted => ?_
  refine keeps_bind (keeps_write stem ?_) fun _ => ?_
  · rw [Journal.check_error]
    exact accepted
  · exact keeps_bind (keeps_recoverActivation site stem now) fun _ => keeps_raise error

theorem keeps_startCandidate (journal : Journal) (binding : Binding) :
    Keeps (startCandidate journal binding) := by
  unfold startCandidate
  split
  · exact keeps_startEngine _ _ _ _
  · split
    · exact keeps_raise _
    · exact keeps_preserve _ _ _ _

def Describes (entry : Entry) (journal : Journal) : Prop :=
  entry.generation = journal.target ∧ 1 ≤ entry.id

theorem entry_described {journal : Journal} {entry : Entry} (accepted : journal.check = .ok ⟨⟩)
    (held : journal.historyEntry = some entry) : Describes entry journal := by
  have read := (Journal.check_ok.mp accepted).entry
  rw [Journal.readEntry,held] at read
  obtain ⟨_,described,positive⟩ := bind_ok.mp read
  have agrees := refuseIf_ok.mp described
  exact ⟨not_not.mp fun other => agrees (.inl other),Journal.generationNumber_ok.mp positive⟩

theorem withEntry_accepted {journal : Journal} {entry : Entry} (accepted : journal.check = .ok ⟨⟩)
    (activates : journal.operation.activates = true) (described : Describes entry journal) :
    { journal with historyEntry := some entry }.check = .ok ⟨⟩ := by
  have held := Journal.check_ok.mp accepted
  refine Journal.check_ok.mpr ⟨held.bindings,held.apart,held.collection,held.settings,
    held.registration,held.relocation,?_,held.restored,held.previous,held.target⟩
  refine bind_ok.mpr ⟨⟨⟩,refuseIf_ok.mpr ?_,Journal.generationNumber_ok.mpr described.2⟩
  simp [described.1,activates]

theorem prepareEntry_ok {s : Project} {target operation : Nat} {now : String} {reason : Operation}
    {restoredFrom : Option Nat} {exact' : Bool} {entry : Entry}
    (prepared : prepareEntry s target operation now reason restoredFrom exact' = .ok entry) :
    entry.generation = target ∧ 1 ≤ entry.id := by
  obtain ⟨_,-,rest⟩ := bind_ok.mp prepared
  obtain ⟨_,-,rest⟩ := bind_ok.mp rest
  obtain ⟨_,-,same⟩ := bind_ok.mp rest
  obtain rfl := Except.ok.inj same
  exact ⟨rfl,Nat.le_add_left 1 _⟩

theorem candidateEntry_ok {s : Project} {stem : Nat} {now : String} {journal : Journal}
    {entry : Entry} (accepted : journal.check = .ok ⟨⟩)
    (made : candidateEntry stem now journal s = .ok entry) : Describes entry journal := by
  obtain ⟨_,-,rest⟩ := bind_ok.mp made
  obtain ⟨_,-,rest⟩ := bind_ok.mp rest
  obtain ⟨_,-,made⟩ := bind_ok.mp rest
  cases held : journal.historyEntry with
  | none =>
    rw [held] at made
    exact prepareEntry_ok made
  | some kept =>
    rw [held] at made
    obtain rfl := Except.ok.inj made
    exact entry_described accepted held

theorem keeps_switchOver (stem : Nat) (now : String) {revalidate : Action Unit}
    (revalidates : Keeps revalidate) {journal : Journal} (accepted : journal.check = .ok ⟨⟩)
    (activates : journal.operation.activates = true) :
    Keeps (switchOver stem now revalidate journal) := by
  refine learns_bind (learns_look fun s entry _ made => candidateEntry_ok accepted made) ?_
  intro entry described
  have written := withEntry_accepted accepted activates described
  refine keeps_bind (keeps_write stem written) fun _ => ?_
  refine keeps_bind (keeps_forEach fun binding _ => keeps_startCandidate _ binding) fun _ => ?_
  refine keeps_bind revalidates fun _ => keeps_bind keeps_look fun _ => ?_
  refine keeps_bind (keeps_write stem written) fun _ => ?_
  refine keeps_bind (keeps_onSome fun change => keeps_put (fun _ => rfl) fun _ => rfl) fun _ => ?_
  refine keeps_bind (keeps_setCurrent _) fun _ => ?_
  refine keeps_bind (keeps_onSome fun previous => keeps_forEach fun binding _ =>
    keeps_onlyIf fun _ => keeps_stopEngine _ _) fun _ => ?_
  exact keeps_bind (keeps_write stem written) fun _ => keeps_pure entry

theorem keeps_activate (site : Site) (stem : Nat) (now : String) {revalidate : Action Unit}
    (revalidates : Keeps revalidate) : Keeps (activate site stem now revalidate) := by
  refine learns_bind (learns_read stem) fun journal accepted => ?_
  have pending : Learns (look fun s => do
      refuseIf (journal.incomplete = false ∨ journal.operation.activates = false)
        "journal does not describe a pending generation activation"
      refuseIf (s.current ≠ journal.previous) "current changed after activation was planned")
      fun _ => journal.operation.activates = true := by
    refine learns_look fun s _ _ done => ?_
    obtain ⟨_,described,-⟩ := bind_ok.mp done
    have agrees := refuseIf_ok.mp described
    simp only [not_or,Bool.not_eq_false] at agrees
    exact agrees.2
  refine learns_bind pending fun _ activates => ?_
  refine keeps_bind (keeps_handling (keeps_switchOver stem now revalidates accepted activates)
    (keeps_abandon site stem now)) fun entry => keeps_publish entry

end Project

end Dinkster.Environment
