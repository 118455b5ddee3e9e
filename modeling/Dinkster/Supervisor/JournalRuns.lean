import Dinkster.Supervisor.JournalSafety

/-! The journals over whole runs: commands that are interrupted anywhere and anything else that
happens to the project between them. An activation that begins while two stopped engines share a
port writes both into one journal, which nothing reads again. -/
namespace Dinkster.Environment
open Canonical Faults Fallible

namespace Project

variable {site : Site}

theorem nextGeneration_positive (s : Project) : 1 ≤ s.nextGeneration := Nat.le_add_left 1 _

theorem keeps_beginSetup (stem target port : Nat) (gpus : List String) (name : String)
    (registration : Option Registration) :
    Keeps (beginSetup stem target port gpus name registration) := by
  have checked : Learns (look fun s => do
      refuseIf (s.current ≠ none) "project already has an active generation"
      let pending ← anyIncomplete (s.journals.entries.map (·.2))
      refuseIf (pending = true) "incomplete environment operation requires recovery first"
      refuseIf (target ∈ s.trees.keys) "new generation target already exists"
      validateAssignment target name port gpus)
      fun _ => validateAssignment target name port gpus = .ok ⟨⟩ := by
    refine learns_look fun s _ _ done => ?_
    obtain ⟨_,-,rest⟩ := bind_ok.mp done
    obtain ⟨_,-,rest⟩ := bind_ok.mp rest
    obtain ⟨_,-,rest⟩ := bind_ok.mp rest
    obtain ⟨_,-,valid⟩ := bind_ok.mp rest
    exact valid
  refine learns_bind checked fun _ valid => keeps_bind keeps_look fun _ => keeps_write stem ?_
  obtain ⟨_,positive,rest⟩ := bind_ok.mp valid
  obtain ⟨_,named,rest⟩ := bind_ok.mp rest
  obtain ⟨_,ported,gpus_valid⟩ := bind_ok.mp rest
  have binding : BindingValid ⟨name,port,port,gpus,true,false⟩ :=
    ⟨by simpa using refuseIf_ok.mp named,by simpa using refuseIf_ok.mp ported,
      by simpa using refuseIf_ok.mp ported,by simpa using refuseIf_ok.mp gpus_valid⟩
  refine Journal.check_ok.mpr ⟨readBindings_ok (by simpa using binding) (by simp) (by simp)
    (by simp) (by simp),by simp,rfl,rfl,?_,rfl,rfl,rfl,nofun,
    Journal.generationNumber_ok.mp positive⟩
  rw [Journal.readRegistration,refuseIf_ok]
  simp

structure Fits (operation : Operation) (projectSettings : Option SettingsChange)
    (restoredFrom : Option Nat) : Prop where
  settings : ∀ change ∈ projectSettings, operation ∈ [.update,.rollback] ∧
    change.previous.document = true ∧ change.target.document = true
  restored : ∀ entry ∈ restoredFrom, operation ∈ [.restore,.rollback] ∧ 1 ≤ entry

structure Ready (s : Project) : Prop where
  readable : s.Readable
  apart : s.StoppedApart

structure Begun (stem target : Nat) (operation : Operation) (s : Project) : Prop where
  readable : s.Readable
  journal : ∀ journal ∈ s.journals.get? stem,
    journal.target = target ∧ journal.operation = operation

theorem begun_frames (stem target : Nat) (operation : Operation) :
    Frames (Begun stem target operation) := fun s t journals current begun =>
  ⟨readable_frames s t journals current begun.readable,journals ▸ begun.journal⟩

theorem begun_read (stem target : Nat) (operation : Operation) :
    Meets False (readJournal stem) (Begun stem target operation)
      (fun journal s => (journal.check = .ok ⟨⟩ ∧ journal.target = target ∧
        journal.operation = operation) ∧ Begun stem target operation s) Readable := by
  refine meets_look (fun _ begun => begun.readable) (fun s journal begun found => ?_)
    fun _ _ _ _ => id
  cases held : s.journals.get? stem with
  | none =>
    rw [held] at found
    cases found
  | some kept =>
    have accepted := begun.readable.journals _ ((Dict.get?_eq_some_iff _ _ _).mp held)
    rw [held,Option.elim_some,Journal.read,accepted] at found
    cases found
    exact ⟨⟨accepted,begun.journal _ held⟩,begun⟩

theorem begun_write {stem target : Nat} {operation : Operation} {journal : Journal}
    (accepted : journal.check = .ok ⟨⟩) (aimed : journal.target = target)
    (operated : journal.operation = operation) :
    Meets False (writeJournal stem journal) Readable (fun _ => Begun stem target operation)
      Readable := by
  refine meets_put (fun _ => id) fun s readable => ?_
  have kept : Readable { s with journals := s.journals.set stem journal } := by
    refine ⟨fun e inside => ?_,readable.current⟩
    rcases Dict.mem_entries_of_set inside with rfl | old
    · exact accepted
    · exact readable.journals e old
  refine ⟨⟨kept,fun held here => ?_⟩,kept⟩
  rw [Dict.get?_set_self] at here
  obtain rfl := Option.some.inj here
  exact ⟨aimed,operated⟩

theorem activation_bindings {s : Project} {previous : Nat} {free : FreePorts}
    {bindings : List Binding} (apart : (stoppedPorts (s.engineRecords previous)).Nodup)
    (assigned : (do
      let engines ← s.engineAssignments previous
      assignPorts (stoppedPorts engines) free.ports engines) = .ok bindings) :
    readBindings [] [] bindings = .ok ⟨⟩ := by
  obtain ⟨engines,read,assigned⟩ := bind_ok.mp assigned
  obtain ⟨rfl,valid⟩ := engineAssignments_ok read
  have targets := assignPorts_targets free.distinct (fun _ => id) apart assigned
  refine readBindings_ok (assignPorts_valid free.valid valid assigned) ?_ (by simp) targets.1
    (by simp)
  rw [assignPorts_names assigned]
  exact engineRecords_distinct s previous

theorem beginActivation_ready {stem target : Nat} {operation : Operation} {free : FreePorts}
    {projectSettings : Option SettingsChange} {restoredFrom : Option Nat} (positive : 1 ≤ target)
    (fits : Fits operation projectSettings restoredFrom) :
    Meets False (beginActivation stem target operation free projectSettings restoredFrom) Ready
      (fun _ => Begun stem target operation) Readable := by
  have active : Meets False (look fun s : Project => do
      refuseIf (operation ∉ [.update,.rollback,.repair,.restore])
        "activation requires update, rollback, repair or restore"
      refuseIf (s.current = some target)
        "activation requires distinct previous and target generations"
      let previous ← s.current.elim
        (.error "activation requires distinct previous and target generations") .ok
      let pending ← anyIncomplete (s.journals.entries.map (·.2))
      refuseIf (pending = true) "incomplete environment operation requires recovery first"
      refuseIf (target ∈ s.trees.keys) "new generation target already exists"
      return previous) Ready
      (fun previous s => (operation ∈ [.update,.rollback,.repair,.restore] ∧ previous ≠ target ∧
        1 ≤ previous) ∧ s.Readable ∧ (stoppedPorts (s.engineRecords previous)).Nodup) Readable := by
    refine meets_look (fun _ ready => ready.readable) (fun s previous ready done => ?_)
      fun _ _ _ _ => id
    obtain ⟨_,activates,rest⟩ := bind_ok.mp done
    obtain ⟨_,other,rest⟩ := bind_ok.mp rest
    obtain ⟨number,named,rest⟩ := bind_ok.mp rest
    obtain ⟨_,-,rest⟩ := bind_ok.mp rest
    obtain ⟨_,-,rest⟩ := bind_ok.mp rest
    obtain ⟨_,-,same⟩ := bind_ok.mp rest
    obtain rfl := Except.ok.inj same
    have here : s.current = some number := by
      cases held : s.current with
      | none =>
        rw [held] at named
        cases named
      | some current =>
        rw [held] at named
        cases named
        rfl
    refine ⟨⟨not_not.mp (refuseIf_ok.mp activates),?_,ready.readable.current number here⟩,
      ready.readable,ready.apart number here⟩
    rintro rfl
    exact refuseIf_ok.mp other here
  refine active.bind fun previous => Meets.known ?_
  rintro ⟨activates,other,previous_positive⟩
  have idle : Meets False requireIdle
      (fun s => s.Readable ∧ (stoppedPorts (s.engineRecords previous)).Nodup)
      (fun _ s => s.Readable ∧ (stoppedPorts (s.engineRecords previous)).Nodup) Readable :=
    meets_look (fun _ held => held.1) (fun _ _ held _ => held) fun _ _ _ _ => id
  refine idle.bind fun _ => ?_
  have assigned : Meets False (look fun s : Project => do
      let engines ← s.engineAssignments previous
      assignPorts (stoppedPorts engines) free.ports engines)
      (fun s => s.Readable ∧ (stoppedPorts (s.engineRecords previous)).Nodup)
      (fun bindings s => readBindings [] [] bindings = .ok ⟨⟩ ∧ s.Readable) Readable :=
    meets_look (fun _ held => held.1)
      (fun s bindings held done => ⟨activation_bindings held.2 done,held.1⟩) fun _ _ _ _ => id
  refine assigned.bind fun bindings => Meets.known fun bound => ?_
  let journal : Journal := {
    operation, previous := some previous, target, stage := .planned, bindings, projectSettings
    restoredFrom }
  have accepted : journal.check = .ok ⟨⟩ := by
    have gc : operation ≠ .gc := by
      rintro rfl
      simp at activates
    refine Journal.check_ok.mpr ⟨bound,?_,?_,?_,rfl,rfl,rfl,?_,?_,positive⟩
    · rintro ⟨same,-⟩
      exact other (Option.some.inj same)
    · simp [journal,Journal.readCollection,refuseIf]
      rfl
    · cases settings : projectSettings with
      | none => simp [journal,Journal.readSettings,settings]
      | some change =>
        obtain ⟨operated,before,after⟩ := fits.settings change settings
        simp only [journal,Journal.readSettings,settings]
        exact bind_ok.mpr ⟨⟨⟩,refuseIf_ok.mpr (not_not.mpr operated),
          refuseIf_ok.mpr (by simp [before,after])⟩
    · cases entry : restoredFrom with
      | none => simp [journal,Journal.readRestored,entry]
      | some number =>
        obtain ⟨operated,positive⟩ := fits.restored number entry
        simp only [journal,Journal.readRestored,entry]
        exact bind_ok.mpr ⟨⟨⟩,refuseIf_ok.mpr (not_not.mpr operated),
          Journal.generationNumber_ok.mpr positive⟩
    · intro number here
      obtain rfl := Option.some.inj here
      exact previous_positive
  refine (begun_write accepted rfl rfl).bind fun _ => ?_
  have read : Kept (Begun stem target operation) (readJournal stem) := keeps_look
  exact (read.weaken (fun _ => id) (fun _ _ => id) fun _ begun => begun.readable).bind fun _ =>
    meets_pure fun _ => id

theorem begun_startBuilding (stem target : Nat) (operation : Operation) :
    Meets False (startBuilding stem) (Begun stem target operation)
      (fun _ => Begun stem target operation) Readable := by
  refine (begun_read stem target operation).bind fun journal => Meets.known ?_
  rintro ⟨accepted,aimed,operated⟩
  have building : ({ journal with stage := .building } : Journal).check = .ok ⟨⟩ := by
    rw [Journal.check_stage]
    exact accepted
  exact Meets.weaken (begun_write building aimed operated) (fun _ begun => begun.readable)
    (fun _ _ => id) fun _ => id

theorem keeps_startBuilding (stem : Nat) : Keeps (startBuilding stem) := by
  refine learns_bind (learns_read stem) fun journal accepted => keeps_write stem ?_
  rw [Journal.check_stage]
  exact accepted

theorem keeps_unchanged (current : Option Nat) (settings : Option Settings)
    (pointer : Option Path) : Keeps (unchanged current settings pointer) := keeps_look

theorem beginInstall_ready (request : Install) (stem : Nat) (free : FreePorts) {s : Project}
    (store : Path) (documents : ∀ settings ∈ s.settings, settings.document = true) :
    Meets False (beginInstall site request stem free s store) Ready (fun _ => Readable)
      Readable := by
  unfold beginInstall
  split
  · exact (keeps_beginSetup _ _ _ _ _ _).weaken (fun _ ready => ready.readable) (fun _ _ => id)
      fun _ => id
  · refine (beginActivation_ready (nextGeneration_positive s) ⟨fun change here => ?_,by simp⟩).weaken
      (fun _ => id) (fun _ _ begun => begun.readable) fun _ => id
    -- the target keeps the format of the settings that it changes
    obtain ⟨settings,held,rest⟩ := Option.bind_eq_some_iff.mp here
    obtain ⟨text,-,same⟩ := Option.bind_eq_some_iff.mp rest
    obtain rfl := Option.some.inj same
    have document := documents settings held
    exact ⟨by simp,document,document⟩

theorem install_ready (request : Install) (stem : Nat) (now : String) (free : FreePorts)
    (edits : List Edit) :
    Meets False (install site request stem now free edits) Ready (fun _ => Readable) Readable := by
  have planned : Meets False (look (planInstall site request)) Ready
      (fun x s => (∀ settings ∈ x.1.settings, settings.document = true) ∧ Ready s) Readable := by
    refine meets_look (fun _ ready => ready.readable) (fun s x ready done => ?_) fun _ _ _ _ => id
    obtain ⟨_,documents,rest⟩ := bind_ok.mp done
    obtain ⟨_,-,rest⟩ := bind_ok.mp rest
    obtain ⟨_,-,rest⟩ := bind_ok.mp rest
    obtain ⟨_,-,rest⟩ := bind_ok.mp rest
    obtain ⟨store,-,same⟩ := bind_ok.mp rest
    obtain rfl := Except.ok.inj same
    refine ⟨fun settings held => ?_,ready⟩
    obtain held : s.settings = some settings := held
    have checked := refuseIf_ok.mp documents
    rw [held] at checked
    simpa using checked
  refine planned.bind ?_
  rintro ⟨s,store⟩
  refine Meets.known fun documents => ?_
  refine (beginInstall_ready request stem free store documents).bind fun _ => ?_
  refine keeps_handling ?_ (keeps_abandon site stem now)
  refine keeps_bind (keeps_registerProject site store) fun _ => ?_
  refine keeps_bind (keeps_onlyIf fun _ => keeps_put (fun _ => rfl) fun _ => rfl) fun _ => ?_
  refine keeps_bind (keeps_put (fun _ => rfl) fun _ => rfl) fun _ => ?_
  refine keeps_bind (keeps_startBuilding stem) fun _ => ?_
  refine keeps_bind (kept_buildGeneration readable_frames site _ edits) fun _ => ?_
  exact keeps_activate site stem now (keeps_unchanged _ _ _)

theorem repair_ready (stem : Nat) (now : String) (free : FreePorts) (edits : List Edit) :
    Meets False (repair site stem now free edits) Ready (fun _ => Readable) Readable := by
  refine Meets.bind (meets_look (fun _ ready => ready.readable) (fun _ _ ready _ => ready)
    fun _ _ _ _ => id) ?_
  rintro ⟨s,generation⟩
  refine ((beginActivation_ready (nextGeneration_positive s) ⟨by simp,by simp⟩).weaken (fun _ => id)
    (fun _ _ begun => begun.readable) fun _ => id).bind fun _ => ?_
  refine keeps_handling ?_ (keeps_abandon site stem now)
  refine keeps_bind (keeps_startBuilding stem) fun _ => ?_
  refine keeps_bind (kept_buildGeneration readable_frames site _ edits) fun _ => ?_
  exact keeps_bind keeps_look fun _ => keeps_activate site stem now (keeps_unchanged _ _ _)

theorem keeps_abandonRestore (stem entry : Nat) (now error : String) :
    Keeps (abandonRestore site stem entry now error) := by
  refine learns_bind (learns_read stem) fun journal accepted => ?_
  refine keeps_bind keeps_look fun _ => keeps_bind (keeps_write stem ?_) fun _ => ?_
  · rw [Journal.check_error]
    exact accepted
  · refine keeps_bind (keeps_recordFailedRestore _ _ _ _) fun _ => ?_
    exact keeps_bind (keeps_recoverActivation site stem now) fun _ => keeps_raise error

theorem consecutive_positive {α : Type} {number : α → Nat} {records : List α}
    (counted : consecutive number records = .ok ⟨⟩) {record : α} (inside : record ∈ records) :
    1 ≤ number record := by
  have numbers := not_not.mp (refuseIf_ok.mp counted)
  have listed : number record ∈ records.map number := List.mem_map_of_mem inside
  rw [numbers] at listed
  obtain ⟨n,-,same⟩ := List.mem_map.mp listed
  omega

theorem restore_ready (request : Restore) (stem : Nat) (now : String) (free : FreePorts)
    (edits : List Edit) :
    Meets False (restoreEntry site request stem now free edits) Ready (fun _ => Readable)
      Readable := by
  have selected : Meets False (look fun s : Project => do
      consecutive Entry.id s.history
      let selected ← (s.history.find? (·.id = request.entry)).elim
        (.error "installation history has no such entry") .ok
      let store ← s.pointer.elim (.error "cannot read the store") .ok
      let _ ← selectStore site s (some store)
      return (s,request.substituted.getD selected.snapshot)) Ready
      (fun _ s => 1 ≤ request.entry ∧ Ready s) Readable := by
    refine meets_look (fun _ ready => ready.readable) (fun s x ready done => ?_) fun _ _ _ _ => id
    obtain ⟨_,counted,rest⟩ := bind_ok.mp done
    obtain ⟨entry,found,-⟩ := bind_ok.mp rest
    cases held : s.history.find? (·.id = request.entry) with
    | none =>
      rw [held] at found
      cases found
    | some kept =>
      have named : kept.id = request.entry := by simpa using List.find?_some held
      exact ⟨named ▸ consecutive_positive counted (List.mem_of_find?_eq_some held),ready⟩
  refine selected.bind ?_
  rintro ⟨s,snapshot⟩
  refine Meets.known fun positive => ?_
  have fits : Fits request.reason.operation none (some request.entry) := by
    refine ⟨by simp,fun entry here => ?_⟩
    obtain rfl := Option.some.inj here
    cases request.reason <;> exact ⟨by decide,positive⟩
  refine (beginActivation_ready (nextGeneration_positive s) fits).bind fun _ => ?_
  refine Meets.handling ?_ (keeps_abandonRestore stem request.entry now) fun _ => id
  refine (begun_startBuilding _ _ _).bind fun _ => ?_
  refine ((kept_buildGeneration (begun_frames _ _ _) site _ edits).weaken (fun _ => id)
    (fun _ _ => id) fun _ begun => begun.readable).bind fun _ => ?_
  have prepared : Meets False (look fun t => prepareEntry t s.nextGeneration stem now
      request.reason.operation (some request.entry) request.substituted.isNone)
      (Begun stem s.nextGeneration request.reason.operation)
      (fun entry t => (entry.generation = s.nextGeneration ∧ 1 ≤ entry.id) ∧
        Begun stem s.nextGeneration request.reason.operation t) Readable :=
    meets_look (fun _ begun => begun.readable) (fun t entry begun made =>
      ⟨prepareEntry_ok made,begun⟩) fun _ _ _ _ => id
  refine prepared.bind fun entry => Meets.known fun described => ?_
  have compared : Kept (Begun stem s.nextGeneration request.reason.operation)
      (look fun _ => refuseIf (entry.snapshot ≠ snapshot)
        "rebuilt software differs from the recorded snapshot") := keeps_look
  refine (compared.weaken (fun _ => id) (fun _ _ => id) fun _ begun => begun.readable).bind
    fun _ => ?_
  refine (begun_read _ _ _).bind fun journal => Meets.known ?_
  rintro ⟨accepted,aimed,operated⟩
  have activates : journal.operation.activates = true := by
    rw [operated]
    cases request.reason <;> rfl
  have written := withEntry_accepted accepted activates ⟨described.1.trans aimed.symm,described.2⟩
  refine Meets.weaken (keeps_bind (keeps_write stem written) fun _ => ?_)
    (fun _ begun => begun.readable) (fun _ _ => id) fun _ => id
  exact keeps_activate site stem now (keeps_bind (keeps_unchanged _ _ _) fun _ => keeps_look)

theorem keeps_recoverOne (now : String) (stem : Nat) : Keeps (recoverOne site now stem) := by
  refine learns_bind (learns_read stem) fun journal accepted => keeps_bind keeps_look fun _ => ?_
  split
  · split
    · exact keeps_recoverCollection stem
    · exact keeps_onlyIf fun _ => keeps_cleanup stem
  · exact keeps_onlyIf fun _ => keeps_recoverActivation site stem now

theorem keeps_recoverPending (now : String) : Keeps (recoverPending site now) := by
  refine keeps_bind keeps_look fun pointer => ?_
  refine keeps_bind (keeps_onSome keeps_recoverStoreCollection) fun _ => ?_
  exact keeps_bind keeps_look fun stems => keeps_forEach fun stem _ => keeps_recoverOne now stem

end Project

/-- One command of the supervisor; `stem` names the journal that it writes. -/
inductive Command
  | install (request : Project.Install) (stem : Nat) (now : String) (free : FreePorts)
    (edits : List Project.Edit)
  | repair (stem : Nat) (now : String) (free : FreePorts) (edits : List Project.Edit)
  | restore (request : Project.Restore) (stem : Nat) (now : String) (free : FreePorts)
    (edits : List Project.Edit)
  | collect (stem : Nat) (approved : Project.Plan) (cache : Option (Path × List Path))
  | recover (now : String)

namespace Command
open Project

def action (site : Site) : Command → Action Unit
  | install request stem now free edits => Project.install site request stem now free edits
  | repair stem now free edits => Project.repair site stem now free edits
  | restore request stem now free edits => restoreEntry site request stem now free edits
  | collect stem approved cache => collectGenerations site stem approved cache
  | recover now => recoverPending site now

def activates : Command → Bool
  | install .. => true
  | repair .. => true
  | restore .. => true
  | collect .. => false
  | recover _ => false

theorem readable {site : Site} (command : Command) {s : Project} (start : s.Readable)
    (apart : command.activates = true → s.StoppedApart) (faults : Schedule String) :
    (command.action site s faults).state.Readable := by
  cases command with
  | install request stem now free edits =>
    exact (install_ready request stem now free edits).within (fun _ _ => id) ⟨start,apart rfl⟩ faults
  | repair stem now free edits =>
    exact (repair_ready stem now free edits).within (fun _ _ => id) ⟨start,apart rfl⟩ faults
  | restore request stem now free edits =>
    exact (restore_ready request stem now free edits).within (fun _ _ => id) ⟨start,apart rfl⟩ faults
  | collect stem approved cache =>
    exact (keeps_collect site stem approved cache).within (fun _ _ => id) start faults
  | recover now => exact (keeps_recoverPending now).within (fun _ _ => id) start faults

end Command

/-- A command interrupted by its schedule, or whatever else happens to the project: engines,
settings, trees, stores and `current` change, the journals do not. -/
inductive Event
  | perform (command : Command) (faults : Schedule String)
  | outside (next : Project)

def step (site : Site) (s : Project) : Event → Option Project
  | .perform command faults => some (command.action site s faults).state
  | .outside next =>
    if next.journals = s.journals ∧ next.current.all (1 ≤ ·) = true then some next else none

end Dinkster.Environment
