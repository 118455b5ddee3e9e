import Dinkster.Protocol.LifecycleCoherence
import Dinkster.Lib.Transition
import Dinkster.Lib.Fallible

/-! Safety of the workgroup lifecycle over every sequence of offered events. The
commands emitted so far are determined by the state up to the reason of a
cancellation, and that log is what every ordering and counting result reads. -/
namespace Dinkster.Workgroup
open Canonical Fallible WorkGroupState LifecycleFacts

theorem create_ok {f : LifecycleFacts} {l : WorkGroupLifecycle}
    (built : WorkGroupLifecycle.create f = .ok l) : l.toLifecycleFacts = f := by
  unfold WorkGroupLifecycle.create at built
  split at built
  · obtain rfl := Except.ok.inj built
    rfl
  · simp at built

theorem create_coherent {f : LifecycleFacts} (coherent : f.Coherent) :
    ∃ l, WorkGroupLifecycle.create f = .ok l ∧ l.toLifecycleFacts = f := by
  have accepted := postInit_coherent.mpr coherent
  unfold WorkGroupLifecycle.create
  split
  · exact ⟨_,rfl,rfl⟩
  · rename_i refused
    simp [accepted] at refused

theorem create_incoherent {f : LifecycleFacts} (broken : ¬f.Coherent) :
    ∃ error, WorkGroupLifecycle.create f = .error error := by
  unfold WorkGroupLifecycle.create
  split
  · rename_i accepted
    exact absurd (postInit_coherent.mp accepted) broken
  · exact ⟨_,rfl⟩

theorem WorkGroupLifecycle.coherent (l : WorkGroupLifecycle) : l.toLifecycleFacts.Coherent :=
  postInit_coherent.mp l.constructed

theorem reduce_ok {l n : WorkGroupLifecycle} {e : WorkGroupEvent}
    {commands : List WorkGroupCommand} (accepted : reduceWorkgroup l e = .ok (n,commands)) :
    Correlated l.definition e ∧ l.Step e n.toLifecycleFacts commands := by
  obtain ⟨_,fenced,rest⟩ := bind_ok.mp accepted
  obtain ⟨⟨g,cs⟩,taken,rest⟩ := bind_ok.mp rest
  obtain ⟨m,built,last⟩ := bind_ok.mp rest
  obtain ⟨rfl,rfl⟩ := Prod.mk.inj (Except.ok.inj last)
  refine ⟨fence_correlated fenced,?_⟩
  rw [create_ok built]
  exact transition_step taken

theorem reduce_past_guards {l : WorkGroupLifecycle} {e : WorkGroupEvent} {g : LifecycleFacts}
    {commands : List WorkGroupCommand} (fenced : l.definition.fence e = .ok ())
    (taken : l.transition e = .ok (g,commands)) :
    (¬l.StrayReport e ∧ ∃ n, reduceWorkgroup l e = .ok (n,commands) ∧ n.toLifecycleFacts = g) ∨
    (l.StrayReport e ∧ ∃ error, reduceWorkgroup l e = .error error) := by
  have step := transition_step taken
  by_cases stray : l.StrayReport e
  · obtain ⟨error,refused⟩ := create_incoherent (step.stray stray)
    exact .inr ⟨stray,error,by simp [reduceWorkgroup,fenced,taken,refused,bind,Except.bind]⟩
  · have coherent := step.coherent l.coherent (fence_correlated fenced) stray
    obtain ⟨n,built,same⟩ := create_coherent coherent
    refine .inl ⟨stray,n,?_,same⟩
    simp [reduceWorkgroup,fenced,taken,built,bind,Except.bind,pure,Except.pure]

theorem reduce_foreign {l : WorkGroupLifecycle} {e : WorkGroupEvent}
    (foreign : ¬Correlated l.definition e) : ∃ error, reduceWorkgroup l e = .error error := by
  cases result : reduceWorkgroup l e with
  | error error => exact ⟨error,rfl⟩
  | ok next => exact absurd (reduce_ok result).1 foreign

/-- A lifecycle with the events it accepted and the commands it emitted so far. -/
structure Session where
  lifecycle : WorkGroupLifecycle
  accepted : List WorkGroupEvent := []
  emitted : List WorkGroupCommand := []

theorem defined_coherent (d : WorkGroupDefinition) : ({ definition := d } : LifecycleFacts).Coherent where
  prepared := .nil
  cancelled := .nil
  released := .nil
  completed := .nil
  progress := .nil
  progress_valid := by simp
  failures := .nil
  refusals := .nil
  dispatched := .inl rfl
  completed_dispatched := List.nil_subset _
  progress_dispatched := List.nil_subset _
  phase := ⟨rfl,rfl,rfl,rfl,rfl,rfl⟩

def Session.start (d : WorkGroupDefinition) : Session where
  lifecycle := ⟨{ definition := d },postInit_coherent.mpr (defined_coherent d)⟩

def Session.reduce (s : Session) (e : WorkGroupEvent) : Option Session :=
  match reduceWorkgroup s.lifecycle e with
  | .ok (next,commands) => some ⟨next,s.accepted ++ [e],s.emitted ++ commands⟩
  | .error _ => none

def offered (d : WorkGroupDefinition) (events : List WorkGroupEvent) : Session :=
  Transition.offer Session.reduce (.start d) events

theorem Session.reduce_step {s t : Session} {e : WorkGroupEvent} (taken : s.reduce e = some t) :
    ∃ commands, Correlated s.lifecycle.definition e ∧
      s.lifecycle.Step e t.lifecycle.toLifecycleFacts commands ∧
      t.accepted = s.accepted ++ [e] ∧ t.emitted = s.emitted ++ commands := by
  unfold Session.reduce at taken
  split at taken
  · rename_i next commands accepted
    obtain rfl := Option.some.inj taken
    obtain ⟨correlated,step⟩ := reduce_ok accepted
    exact ⟨commands,correlated,step,rfl,rfl⟩
  · simp at taken

/-- What was emitted before a cancellation could interrupt the forward phases. -/
inductive Forward (d : WorkGroupDefinition) : List WorkGroupCommand → Prop
  | admission : Forward d d.begins
  | committed : Forward d (d.begins ++ d.commits)
  | dispatched {runs : List WorkGroupCommand} (ran : d.runs = .ok runs) :
      Forward d (d.begins ++ d.commits ++ runs)

def Emitted (f : LifecycleFacts) (log : List WorkGroupCommand) : Prop :=
  let d := f.definition
  match f.state with
  | .defined => log = []
  | .admitting => log = d.begins
  | .dispatching => log = d.begins ++ d.commits
  | .running | .gathering => ∃ runs, d.runs = .ok runs ∧ log = d.begins ++ d.commits ++ runs
  | .succeeded => ∃ runs, d.runs = .ok runs ∧ log = d.begins ++ d.commits ++ runs ++ d.releases
  | .refused => log = d.begins ++ d.aborts
  | .failing => ∃ runs reason, d.runs = .ok runs ∧
      ((f.cancelled ≠ d.replicas ∧ log = d.begins ++ d.commits ++ runs ++ d.cancels reason) ∨
      (f.cancelled = d.replicas ∧
        log = d.begins ++ d.commits ++ runs ++ d.cancels reason ++ d.releases))
  | .failed => ∃ runs reason, d.runs = .ok runs ∧
      log = d.begins ++ d.commits ++ runs ++ d.cancels reason ++ d.releases
  | .cancelling => ∃ before reason, Forward d before ∧ log = before ++ d.cancels reason
  | .cancelled => ∃ before reason, Forward d before ∧
      log = before ++ d.cancels reason ++ d.releases

private theorem cancelsPrepared_all {f : LifecycleFacts} (prepared : f.prepared = f.definition.replicas)
    (reason : Reason) : f.cancelsPrepared reason = f.definition.cancels reason := by
  have all : f.definition.members.filter (·.replica ∈ f.prepared) = f.definition.members := by
    rw [List.filter_eq_self]
    intro m hm
    have known : m.replica ∈ f.definition.replicas := List.mem_map_of_mem hm
    simpa [prepared] using known
  simp only [cancelsPrepared,all,WorkGroupDefinition.cancels]

theorem LifecycleFacts.Step.emitted {f g : LifecycleFacts} {e : WorkGroupEvent} {commands : List WorkGroupCommand}
    {log : List WorkGroupCommand} (step : f.Step e g commands) (coherent : f.Coherent)
    (correlated : Correlated f.definition e) (emitted : Emitted f log) :
    Emitted g (log ++ commands) := by
  have phase := coherent.phase
  cases step with
  | begin idle => simp_all [Emitted]
  | prepareLate r late fresh =>
    rcases late with late | late <;> simpa [Emitted,late] using emitted
  | prepare r admits fresh missing => simpa [Emitted,admits] using emitted
  | prepareLast r admits fresh full => simp_all [Emitted]
  | refuse r reason admits fresh => simp_all [Emitted]
  | refuseLate r reason late fresh => simpa [Emitted,late] using emitted
  | dispatch _ ready ran =>
    simp only [Emitted,ready] at emitted
    exact ⟨commands,ran,by rw [emitted]⟩
  | progress u p active pending advances =>
    rcases active with active | active <;> simpa [Emitted,active] using emitted
  | result u active pending missing =>
    rcases active with active | active <;> simpa [Emitted,active] using emitted
  | resultLast u active pending full => simpa [Emitted,active] using emitted
  | fail u reason active fresh =>
    simp only [Emitted,active] at emitted
    simp only [Phase,active] at phase
    obtain ⟨runs,ran,rfl⟩ := emitted
    rw [cancelsPrepared_all phase.1]
    refine ⟨runs,reason,ran,.inl ⟨?_,rfl⟩⟩
    simpa [phase] using f.definition.replicas_ne_nil.symm
  | failLate u reason late fresh => simpa [Emitted,late] using emitted
  | gatherFail reason gathers =>
    simp only [Emitted,gathers] at emitted
    simp only [Phase,gathers] at phase
    obtain ⟨runs,ran,rfl⟩ := emitted
    rw [cancelsPrepared_all phase.1]
    refine ⟨runs,reason,ran,.inl ⟨?_,rfl⟩⟩
    simpa [phase] using f.definition.replicas_ne_nil.symm
  | gatherSucceed gathers =>
    simp only [Emitted,gathers] at emitted
    obtain ⟨runs,ran,rfl⟩ := emitted
    exact ⟨runs,ran,rfl⟩
  | cancel reason live =>
    rcases live with state | state | state | state <;> simp only [Emitted,state] at emitted
    · exact ⟨_,reason,.admission,by rw [emitted]⟩
    · exact ⟨_,reason,.committed,by rw [emitted]⟩
    · obtain ⟨runs,ran,rfl⟩ := emitted
      exact ⟨_,reason,.dispatched ran,rfl⟩
    · obtain ⟨runs,ran,rfl⟩ := emitted
      exact ⟨_,reason,.dispatched ran,rfl⟩
  | acknowledge r stopping fresh missing =>
    have known := correlated.replica_known (c := r) rfl
    rcases stopping with stopping | stopping
    · simpa [Emitted,stopping] using emitted
    · simp only [Emitted,stopping] at emitted ⊢
      obtain ⟨runs,reason,ran,⟨-,rfl⟩ | ⟨full,-⟩⟩ := emitted
      · refine ⟨runs,reason,ran,.inl ⟨fun full => missing ?_,by simp⟩⟩
        exact full ▸ ⟨List.Subset.refl _,List.Subset.refl _⟩
      · exact absurd (full ▸ known) fresh
  | acknowledgeLast r stopping fresh full =>
    have known := correlated.replica_known (c := r) rfl
    rcases stopping with stopping | stopping
    · simp only [Emitted,stopping] at emitted
      obtain ⟨before,reason,forward,rfl⟩ := emitted
      simp only [Emitted,stopping,if_true]
      exact ⟨before,reason,forward,rfl⟩
    · simp only [Emitted,stopping,reduceCtorEq,if_false] at emitted ⊢
      obtain ⟨runs,reason,ran,⟨-,rfl⟩ | ⟨whole,-⟩⟩ := emitted
      · have cancelled := coherent.cancelled.insert Id.value (fun _ _ => id)
          (Id.value_injective _) known fresh
        exact ⟨runs,reason,ran,.inr
          ⟨cancelled.eq_whole f.definition.members_sorted full,rfl⟩⟩
      · exact absurd (whole ▸ known) fresh
  | release r stopped fresh =>
    rcases stopped with stopped | stopped | ⟨stopped,-⟩ <;> simpa [Emitted,stopped] using emitted
  | settle stopping acknowledged cleaned =>
    simp only [Emitted,stopping] at emitted
    simp only [Phase,stopping] at phase
    rw [phase.1] at acknowledged
    have whole := coherent.cancelled.eq_whole f.definition.members_sorted acknowledged.2
    obtain ⟨runs,reason,ran,⟨partly,-⟩ | ⟨-,rfl⟩⟩ := emitted
    · exact absurd whole partly
    · exact ⟨runs,reason,ran,by simp⟩

private theorem runs_units {d : WorkGroupDefinition} {runs : List WorkGroupCommand}
    (ran : d.runs = .ok runs) :
    List.Forall₂ (fun u c => ∃ b ∈ d.members, b.replica = u.replica ∧
      c = WorkGroupCommand.runWorkUnit ⟨d.child b,u.unit,u.slot⟩) d.units runs := by
  refine (mapM_ok.mp ran).imp fun u c made => ?_
  obtain ⟨b,found,last⟩ := bind_ok.mp made
  obtain ⟨member,same⟩ := binding_ok found
  exact ⟨b,member,same,(Except.ok.inj last).symm⟩

def WorkGroupCommand.runsUnit (unit : WorkUnitId) : WorkGroupCommand → Bool
  | .runWorkUnit c => c.unit = unit
  | _ => false

def WorkGroupCommand.releases (replica : ReplicaId) : WorkGroupCommand → Bool
  | .releaseWorkGroup c => c.replica = replica
  | _ => false

private theorem countP_le_one {α β : Type} [DecidableEq β] {f : α → β} {xs : List α}
    (distinct : (xs.map f).Nodup) (b : β) : xs.countP (fun a => f a = b) ≤ 1 := by
  have counted := List.nodup_iff_count_le_one.mp distinct b
  rw [List.count,List.countP_map] at counted
  simpa only [Function.comp_def,beq_eq_decide] using counted

section Counts

variable (d : WorkGroupDefinition)

private theorem replicas_nodup : (d.members.map (·.replica)).Nodup :=
  d.members_sorted.imp ne_of_lt

private theorem units_nodup : (d.units.map (·.unit)).Nodup :=
  d.units_sorted.imp ne_of_lt

theorem releases_once (r : ReplicaId) : d.releases.countP (·.releases r) ≤ 1 := by
  rw [WorkGroupDefinition.releases,List.countP_map]
  exact countP_le_one (replicas_nodup d) r

theorem runs_once {runs : List WorkGroupCommand} (ran : d.runs = .ok runs) (unit : WorkUnitId) :
    runs.countP (·.runsUnit unit) ≤ 1 := by
  have same : runs.countP (·.runsUnit unit) = d.units.countP (fun u => u.unit = unit) := by
    have pairs := runs_units ran
    clear ran
    generalize d.units = units at pairs
    induction pairs with
    | nil => rfl
    | cons head _ ih =>
      obtain ⟨b,-,-,rfl⟩ := head
      rw [List.countP_cons,List.countP_cons,ih]
      rfl
  exact same ▸ countP_le_one (units_nodup d) unit

end Counts

theorem mem_runs {d : WorkGroupDefinition} {runs : List WorkGroupCommand}
    (ran : d.runs = .ok runs) {c : WorkGroupCommand} (member : c ∈ runs) :
    ∃ k, c = .runWorkUnit k := by
  have pairs := runs_units ran
  clear ran
  generalize d.units = units at pairs
  induction pairs with
  | nil => simp at member
  | cons head _ ih =>
    rcases List.mem_cons.mp member with rfl | later
    · obtain ⟨b,-,-,rfl⟩ := head
      exact ⟨_,rfl⟩
    · exact ih later

structure History (d : WorkGroupDefinition) (s : Session) : Prop where
  definition : s.lifecycle.definition = d
  log : Emitted s.lifecycle.toLifecycleFacts s.emitted
  prepared : ∀ r ∈ s.lifecycle.prepared,
    ∃ m ∈ d.members, m.replica = r ∧ .workGroupPrepared (d.child m) ∈ s.accepted
  cancelled : ∀ r ∈ s.lifecycle.cancelled,
    ∃ m ∈ d.members, m.replica = r ∧ .workGroupCancelled (d.child m) ∈ s.accepted
  completed : ∀ u ∈ s.lifecycle.completed,
    ∃ c : UnitChild, c.unit = u ∧ .workUnitResult c ∈ s.accepted
  commits : ∀ c, .commitWorkGroup c ∈ s.emitted →
    ∀ m ∈ d.members, .workGroupPrepared (d.child m) ∈ s.accepted
  releases : ∀ c, .releaseWorkGroup c ∈ s.emitted → s.lifecycle.state = succeeded ∨
    ∀ m ∈ d.members, .workGroupCancelled (d.child m) ∈ s.accepted

private theorem every_member {d : WorkGroupDefinition} {values : List ReplicaId}
    {seen : ReplicaBinding → Prop} (whole : values = d.replicas)
    (each : ∀ r ∈ values, ∃ m ∈ d.members, m.replica = r ∧ seen m) :
    ∀ m ∈ d.members, seen m := by
  intro m hm
  obtain ⟨m',hm',same,seen⟩ := each m.replica (whole ▸ List.mem_map_of_mem hm)
  exact List.inj_on_of_nodup_map (replicas_nodup d) hm' hm same ▸ seen

section Step

variable {f g : LifecycleFacts} {e : WorkGroupEvent} {commands : List WorkGroupCommand}

theorem LifecycleFacts.Step.definition (step : f.Step e g commands) : g.definition = f.definition := by
  cases step <;> rfl

theorem LifecycleFacts.Step.prepared (step : f.Step e g commands) {r : ReplicaId} (member : r ∈ g.prepared) :
    r ∈ f.prepared ∨ ∃ c, c.replica = r ∧ e = .workGroupPrepared c := by
  cases step with
  | prepareLate c | prepare c | prepareLast c =>
    rcases List.mem_append.mp ((mem_sortedBy _ _ _).mp member) with old | new
    · exact .inl old
    · exact .inr ⟨c,(List.mem_singleton.mp new).symm,rfl⟩
  | _ => exact .inl member

theorem LifecycleFacts.Step.cancelled (step : f.Step e g commands) {r : ReplicaId} (member : r ∈ g.cancelled) :
    r ∈ f.cancelled ∨ ∃ c, c.replica = r ∧ e = .workGroupCancelled c := by
  cases step with
  | acknowledge c | acknowledgeLast c =>
    rcases List.mem_append.mp ((mem_sortedBy _ _ _).mp member) with old | new
    · exact .inl old
    · exact .inr ⟨c,(List.mem_singleton.mp new).symm,rfl⟩
  | _ => exact .inl member

theorem LifecycleFacts.Step.completed (step : f.Step e g commands) {u : WorkUnitId} (member : u ∈ g.completed) :
    u ∈ f.completed ∨ ∃ c : UnitChild, c.unit = u ∧ e = .workUnitResult c := by
  cases step with
  | result c | resultLast c =>
    rcases List.mem_append.mp ((mem_sortedBy _ _ _).mp member) with old | new
    · exact .inl old
    · exact .inr ⟨c,(List.mem_singleton.mp new).symm,rfl⟩
  | _ => exact .inl member

theorem LifecycleFacts.Step.commits (step : f.Step e g commands) (after : g.Coherent) {c : Child}
    (member : .commitWorkGroup c ∈ commands) : g.prepared = f.definition.replicas := by
  have phase := after.phase
  cases step with
  | prepareLast r admits fresh full => exact phase.1
  | dispatch _ ready ran =>
    obtain ⟨k,impossible⟩ := mem_runs ran member
    simp at impossible
  | _ => simp [WorkGroupDefinition.begins,WorkGroupDefinition.aborts,cancelsPrepared,
      WorkGroupDefinition.releases,WorkGroupDefinition.cancels] at member

theorem LifecycleFacts.Step.releases (step : f.Step e g commands) (after : g.Coherent) {c : Child}
    (member : .releaseWorkGroup c ∈ commands) :
    g.state = succeeded ∨ g.cancelled = f.definition.replicas := by
  cases step with
  | gatherSucceed gathers => exact .inl rfl
  | acknowledgeLast r stopping fresh full =>
    exact .inr (after.cancelled.eq_whole f.definition.members_sorted full)
  | dispatch _ ready ran =>
    obtain ⟨k,impossible⟩ := mem_runs ran member
    simp at impossible
  | _ => simp [WorkGroupDefinition.begins,WorkGroupDefinition.aborts,cancelsPrepared,
      WorkGroupDefinition.commits,WorkGroupDefinition.cancels] at member

end Step

def WorkGroupState.Terminal (s : WorkGroupState) : Prop :=
  s = succeeded ∨ s = refused ∨ s = failed ∨ s = .cancelled

theorem LifecycleFacts.Step.terminal {f g : LifecycleFacts} {e : WorkGroupEvent}
    {commands : List WorkGroupCommand} (step : f.Step e g commands)
    (terminal : f.state.Terminal) : g.state = f.state := by
  unfold WorkGroupState.Terminal at terminal
  cases step with
  | cancel reason live =>
    rcases live with state | state | state | state <;> simp [state] at terminal
  | acknowledgeLast c stopping fresh full =>
    rcases stopping with state | state <;> simp [state] at terminal
  | _ => first | rfl | simp_all

theorem History.start (d : WorkGroupDefinition) : History d (.start d) where
  definition := rfl
  log := rfl
  prepared := by simp [Session.start]
  cancelled := by simp [Session.start]
  completed := by simp [Session.start]
  commits := by simp [Session.start]
  releases := by simp [Session.start]

theorem History.step {d : WorkGroupDefinition} {s t : Session} {e : WorkGroupEvent}
    (history : History d s) (taken : s.reduce e = some t) : History d t := by
  obtain ⟨commands,correlated,step,accepted,emitted⟩ := Session.reduce_step taken
  have same := history.definition
  have before := s.lifecycle.coherent
  have after := t.lifecycle.coherent
  have earlier : s.accepted ⊆ t.accepted := accepted ▸ List.subset_append_left ..
  have latest : e ∈ t.accepted := by simp [accepted]
  have prepared : ∀ r ∈ t.lifecycle.prepared,
      ∃ m ∈ d.members, m.replica = r ∧ .workGroupPrepared (d.child m) ∈ t.accepted := by
    intro r hr
    rcases step.prepared hr with old | ⟨c,rfl,rfl⟩
    · obtain ⟨m,hm,rfl,seen⟩ := history.prepared r old
      exact ⟨m,hm,rfl,earlier seen⟩
    · obtain ⟨m,hm,rfl⟩ := correlated.member c rfl
      exact ⟨m,same ▸ hm,rfl,same ▸ latest⟩
  have cancelled : ∀ r ∈ t.lifecycle.cancelled,
      ∃ m ∈ d.members, m.replica = r ∧ .workGroupCancelled (d.child m) ∈ t.accepted := by
    intro r hr
    rcases step.cancelled hr with old | ⟨c,rfl,rfl⟩
    · obtain ⟨m,hm,rfl,seen⟩ := history.cancelled r old
      exact ⟨m,hm,rfl,earlier seen⟩
    · obtain ⟨m,hm,rfl⟩ := correlated.member c rfl
      exact ⟨m,same ▸ hm,rfl,same ▸ latest⟩
  refine ⟨step.definition.trans same,emitted ▸ step.emitted before correlated history.log,
    prepared,cancelled,?_,?_,?_⟩
  · intro u hu
    rcases step.completed hu with old | ⟨c,rfl,rfl⟩
    · obtain ⟨c,rfl,seen⟩ := history.completed u old
      exact ⟨c,rfl,earlier seen⟩
    · exact ⟨c,rfl,latest⟩
  · intro c sent
    rw [emitted] at sent
    rcases List.mem_append.mp sent with old | new
    · exact fun m hm => earlier (history.commits c old m hm)
    · exact every_member ((step.commits after new).trans (congrArg _ same)) prepared
  · intro c sent
    rw [emitted] at sent
    rcases List.mem_append.mp sent with old | new
    · refine (history.releases c old).imp (fun done => ?_) fun all m hm => earlier (all m hm)
      exact (step.terminal (.inl done)).trans done
    · refine (step.releases after new).imp id fun whole => ?_
      exact every_member (whole.trans (congrArg _ same)) cancelled

theorem offered_history (d : WorkGroupDefinition) (events : List WorkGroupEvent) :
    History d (offered d events) :=
  Transition.offer_invariant (fun _ s => History d s) (.start d)
    (fun _ _ _ _ history taken => history.step taken) (fun _ _ _ history _ => history) events

/-- The three parts of every log: the forward phases or an abort, a cancellation, a release. -/
structure LogParts (d : WorkGroupDefinition) (log : List WorkGroupCommand) where
  before : List WorkGroupCommand
  stop : List WorkGroupCommand
  last : List WorkGroupCommand
  whole : log = before ++ stop ++ last
  forward : before = [] ∨ before = d.begins ++ d.aborts ∨ Forward d before
  cancellation : stop = [] ∨ ∃ reason, stop = d.cancels reason
  release : last = [] ∨ last = d.releases

theorem Emitted.parts {f : LifecycleFacts} {log : List WorkGroupCommand}
    (emitted : Emitted f log) : Nonempty (LogParts f.definition log) := by
  unfold Emitted at emitted
  cases state : f.state <;> simp only [state] at emitted
  case defined => exact ⟨[],[],[],by simp [emitted],.inl rfl,.inl rfl,.inl rfl⟩
  case admitting =>
    exact ⟨_,[],[],by simp [emitted],.inr (.inr .admission),.inl rfl,.inl rfl⟩
  case dispatching =>
    exact ⟨_,[],[],by simp [emitted],.inr (.inr .committed),.inl rfl,.inl rfl⟩
  case running | gathering =>
    obtain ⟨runs,ran,rfl⟩ := emitted
    exact ⟨_,[],[],by simp,.inr (.inr (.dispatched ran)),.inl rfl,.inl rfl⟩
  case succeeded =>
    obtain ⟨runs,ran,rfl⟩ := emitted
    exact ⟨_,[],_,by simp,.inr (.inr (.dispatched ran)),.inl rfl,.inr rfl⟩
  case refused =>
    exact ⟨_,[],[],by simp [emitted],.inr (.inl rfl),.inl rfl,.inl rfl⟩
  case failing =>
    obtain ⟨runs,reason,ran,⟨-,rfl⟩ | ⟨-,rfl⟩⟩ := emitted
    · exact ⟨_,_,[],by simp,.inr (.inr (.dispatched ran)),.inr ⟨reason,rfl⟩,.inl rfl⟩
    · exact ⟨_,_,_,rfl,.inr (.inr (.dispatched ran)),.inr ⟨reason,rfl⟩,.inr rfl⟩
  case failed =>
    obtain ⟨runs,reason,ran,rfl⟩ := emitted
    exact ⟨_,_,_,rfl,.inr (.inr (.dispatched ran)),.inr ⟨reason,rfl⟩,.inr rfl⟩
  case cancelling =>
    obtain ⟨before,reason,forward,rfl⟩ := emitted
    exact ⟨_,_,[],by simp,.inr (.inr forward),.inr ⟨reason,rfl⟩,.inl rfl⟩
  case cancelled =>
    obtain ⟨before,reason,forward,rfl⟩ := emitted
    exact ⟨_,_,_,rfl,.inr (.inr forward),.inr ⟨reason,rfl⟩,.inr rfl⟩

section Log

variable {d : WorkGroupDefinition} {log : List WorkGroupCommand}

private theorem no_runs (unit : WorkUnitId) (reason : Reason) :
    d.begins.countP (·.runsUnit unit) = 0 ∧ d.commits.countP (·.runsUnit unit) = 0 ∧
    d.aborts.countP (·.runsUnit unit) = 0 ∧ d.releases.countP (·.runsUnit unit) = 0 ∧
    (d.cancels reason).countP (·.runsUnit unit) = 0 := by
  simp [WorkGroupDefinition.begins,WorkGroupDefinition.commits,WorkGroupDefinition.aborts,
    WorkGroupDefinition.releases,WorkGroupDefinition.cancels,WorkGroupCommand.runsUnit]

private theorem no_releases (r : ReplicaId) (reason : Reason) :
    d.begins.countP (·.releases r) = 0 ∧ d.commits.countP (·.releases r) = 0 ∧
    d.aborts.countP (·.releases r) = 0 ∧ (d.cancels reason).countP (·.releases r) = 0 := by
  simp [WorkGroupDefinition.begins,WorkGroupDefinition.commits,WorkGroupDefinition.aborts,
    WorkGroupDefinition.cancels,WorkGroupCommand.releases]

private theorem runs_no_release {runs : List WorkGroupCommand} (ran : d.runs = .ok runs)
    (r : ReplicaId) : runs.countP (·.releases r) = 0 := by
  refine List.countP_eq_zero.mpr fun c hc => ?_
  obtain ⟨k,rfl⟩ := mem_runs ran hc
  simp [WorkGroupCommand.releases]

theorem LogParts.runs_once (parts : LogParts d log) (unit : WorkUnitId) :
    log.countP (·.runsUnit unit) ≤ 1 := by
  obtain ⟨before,stop,last,rfl,forward,cancellation,release⟩ := parts
  have before_once : before.countP (·.runsUnit unit) ≤ 1 := by
    obtain ⟨begins,commits,aborts,-,-⟩ := no_runs (d := d) unit ⟨"_",by decide,by decide⟩
    obtain rfl | rfl | forward := forward
    · simp
    · simp [begins,aborts]
    · cases forward with
      | admission => simp [begins]
      | committed => simp [begins,commits]
      | dispatched ran => simpa [begins,commits] using Workgroup.runs_once d ran unit
  have stop_none : stop.countP (·.runsUnit unit) = 0 := by
    obtain rfl | ⟨reason,rfl⟩ := cancellation
    · rfl
    · exact (no_runs unit reason).2.2.2.2
  have last_none : last.countP (·.runsUnit unit) = 0 := by
    obtain rfl | rfl := release
    · rfl
    · exact (no_runs unit ⟨"_",by decide,by decide⟩).2.2.2.1
  simp only [List.countP_append]
  omega

theorem LogParts.releases_once (parts : LogParts d log) (r : ReplicaId) :
    log.countP (·.releases r) ≤ 1 := by
  obtain ⟨before,stop,last,rfl,forward,cancellation,release⟩ := parts
  have before_none : before.countP (·.releases r) = 0 := by
    obtain ⟨begins,commits,aborts,-⟩ := no_releases (d := d) r ⟨"_",by decide,by decide⟩
    obtain rfl | rfl | forward := forward
    · rfl
    · simp [begins,aborts]
    · cases forward with
      | admission => simp [begins]
      | committed => simp [begins,commits]
      | dispatched ran => simp [begins,commits,runs_no_release ran]
  have stop_none : stop.countP (·.releases r) = 0 := by
    obtain rfl | ⟨reason,rfl⟩ := cancellation
    · rfl
    · exact (no_releases r reason).2.2.2
  have last_once : last.countP (·.releases r) ≤ 1 := by
    obtain rfl | rfl := release
    · simp
    · exact Workgroup.releases_once d r
  simp only [List.countP_append]
  omega

theorem LogParts.commit_or_abort (parts : LogParts d log) (c k : Child) :
    ¬(.commitWorkGroup c ∈ log ∧ .abortWorkGroup k ∈ log) := by
  obtain ⟨before,stop,last,rfl,forward,cancellation,release⟩ := parts
  rintro ⟨commit,abort⟩
  have stop_clear : .commitWorkGroup c ∉ stop ∧ .abortWorkGroup k ∉ stop := by
    obtain rfl | ⟨reason,rfl⟩ := cancellation <;> simp [WorkGroupDefinition.cancels]
  have last_clear : .commitWorkGroup c ∉ last ∧ .abortWorkGroup k ∉ last := by
    obtain rfl | rfl := release <;> simp [WorkGroupDefinition.releases]
  simp only [List.mem_append,stop_clear,last_clear,or_false] at commit abort
  obtain rfl | rfl | forward := forward
  · simp at commit
  · simp [WorkGroupDefinition.begins,WorkGroupDefinition.aborts] at commit
  · cases forward with
    | admission => simp [WorkGroupDefinition.begins] at commit
    | committed => simp [WorkGroupDefinition.begins,WorkGroupDefinition.commits] at abort
    | dispatched ran =>
      simp only [List.mem_append,WorkGroupDefinition.begins,WorkGroupDefinition.commits,
        List.mem_map,reduceCtorEq,and_false,exists_false,false_or] at abort
      obtain ⟨_,impossible⟩ := mem_runs ran abort
      simp at impossible

private theorem prefix_of_split {α : Type} {xs ys before after : List α} {a : α}
    (split : xs ++ ys = before ++ a :: after) (fresh : a ∉ xs) :
    ∃ mid, before = xs ++ mid := by
  rcases List.append_eq_append_iff.mp split with ⟨mid,rfl,-⟩ | ⟨mid,rfl,rest⟩
  · exact ⟨mid,rfl⟩
  · cases mid with
    | nil => exact ⟨[],by simp⟩
    | cons b mid =>
      obtain ⟨rfl,-⟩ := List.cons.inj rest
      simp at fresh

theorem LogParts.run_after_commit (parts : LogParts d log) {before after : List WorkGroupCommand}
    {c : UnitChild} (split : log = before ++ .runWorkUnit c :: after) :
    ∀ m ∈ d.members, .commitWorkGroup (d.child m) ∈ before := by
  obtain ⟨front,stop,last,whole,forward,cancellation,release⟩ := parts
  have quiet : .runWorkUnit c ∉ d.begins ++ d.commits := by
    simp [WorkGroupDefinition.begins,WorkGroupDefinition.commits]
  have ran : .runWorkUnit c ∈ front ++ stop ++ last := by
    rw [← whole,split]
    simp
  have stop_clear : .runWorkUnit c ∉ stop := by
    obtain rfl | ⟨reason,rfl⟩ := cancellation <;> simp [WorkGroupDefinition.cancels]
  have last_clear : .runWorkUnit c ∉ last := by
    obtain rfl | rfl := release <;> simp [WorkGroupDefinition.releases]
  simp only [List.mem_append,stop_clear,last_clear,or_false] at ran
  obtain rfl | rfl | forward := forward
  · simp at ran
  · simp [WorkGroupDefinition.begins,WorkGroupDefinition.aborts] at ran
  · cases forward with
    | admission => simp [WorkGroupDefinition.begins] at ran
    | committed => simp [WorkGroupDefinition.begins,WorkGroupDefinition.commits] at ran
    | dispatched started =>
      rw [whole] at split
      simp only [List.append_assoc] at split
      rw [← List.append_assoc] at split
      obtain ⟨mid,rfl⟩ := prefix_of_split split quiet
      intro m hm
      simp only [List.mem_append,WorkGroupDefinition.commits]
      exact .inl (.inr (List.mem_map_of_mem hm))

end Log

/-- What holds after every sequence of events offered to a freshly defined lifecycle. -/
structure WorkgroupSafe (d : WorkGroupDefinition) : Prop where
  absorbing : ∀ before after, (offered d before).lifecycle.state.Terminal →
    (offered d (before ++ after)).lifecycle.state = (offered d before).lifecycle.state
  commit_after_prepared : ∀ events c, .commitWorkGroup c ∈ (offered d events).emitted →
    ∀ m ∈ d.members, .workGroupPrepared (d.child m) ∈ (offered d events).accepted
  commit_or_abort : ∀ events c k, ¬(.commitWorkGroup c ∈ (offered d events).emitted ∧
    .abortWorkGroup k ∈ (offered d events).emitted)
  run_once : ∀ events unit, (offered d events).emitted.countP (·.runsUnit unit) ≤ 1
  run_after_commit : ∀ events before c after,
    (offered d events).emitted = before ++ .runWorkUnit c :: after →
    ∀ m ∈ d.members, .commitWorkGroup (d.child m) ∈ before
  release_once : ∀ events replica, (offered d events).emitted.countP (·.releases replica) ≤ 1
  release_after : ∀ events c, .releaseWorkGroup c ∈ (offered d events).emitted →
    (offered d events).lifecycle.state = succeeded ∨
    ∀ m ∈ d.members, .workGroupCancelled (d.child m) ∈ (offered d events).accepted
  success : ∀ events, (offered d events).lifecycle.state = succeeded → ∀ w ∈ d.units,
    w.unit ∈ (offered d events).lifecycle.completed ∧
    ∃ c : UnitChild, c.unit = w.unit ∧ .workUnitResult c ∈ (offered d events).accepted
  /-- Past the fence and the guards the new facts are constructed, stray reports aside. -/
  constructed : ∀ events e g commands,
    d.fence e = .ok () → (offered d events).lifecycle.transition e = .ok (g,commands) →
    (¬(offered d events).lifecycle.StrayReport e ∧
      (offered d (events ++ [e])).lifecycle.toLifecycleFacts = g ∧ g.Coherent ∧
      (offered d (events ++ [e])).emitted = (offered d events).emitted ++ commands) ∨
    ((offered d events).lifecycle.StrayReport e ∧ offered d (events ++ [e]) = offered d events)
  foreign : ∀ events e, ¬Correlated d e → offered d (events ++ [e]) = offered d events

theorem offered_concat (d : WorkGroupDefinition) (events : List WorkGroupEvent)
    (e : WorkGroupEvent) :
    offered d (events ++ [e]) = ((offered d events).reduce e).getD (offered d events) :=
  Transition.offer_concat events e

theorem workgroup_safe (d : WorkGroupDefinition) : WorkgroupSafe d where
  absorbing := by
    intro before after terminal
    induction after using List.reverseRecOn with
    | nil => simp
    | append_singleton after e ih =>
      rw [← List.append_assoc,offered_concat]
      cases taken : (offered d (before ++ after)).reduce e with
      | none => exact ih
      | some next =>
        obtain ⟨commands,-,step,-,-⟩ := Session.reduce_step taken
        exact (step.terminal (ih ▸ terminal)).trans ih
  commit_after_prepared := fun events => (offered_history d events).commits
  commit_or_abort := by
    intro events c k
    have history := offered_history d events
    obtain ⟨parts⟩ := history.log.parts
    exact parts.commit_or_abort c k
  run_once := by
    intro events unit
    obtain ⟨parts⟩ := (offered_history d events).log.parts
    exact parts.runs_once unit
  run_after_commit := by
    intro events before c after split
    have history := offered_history d events
    obtain ⟨parts⟩ := history.log.parts
    exact history.definition ▸ parts.run_after_commit split
  release_once := by
    intro events replica
    obtain ⟨parts⟩ := (offered_history d events).log.parts
    exact parts.releases_once replica
  release_after := fun events => (offered_history d events).releases
  success := by
    intro events done w hw
    have history := offered_history d events
    have phase := (offered d events).lifecycle.coherent.phase
    simp only [Phase,done] at phase
    have completed : w.unit ∈ (offered d events).lifecycle.completed := by
      rw [phase.2.2.1,history.definition,d.allUnits_eq]
      exact List.mem_map_of_mem hw
    exact ⟨completed,history.completed _ completed⟩
  constructed := by
    intro events e g commands fenced taken
    rw [← (offered_history d events).definition] at fenced
    rw [offered_concat]
    rcases reduce_past_guards fenced taken with ⟨sound,n,accepted,rfl⟩ | ⟨stray,error,refused⟩
    · exact .inl ⟨sound,by simp [Session.reduce,accepted],n.coherent,
        by simp [Session.reduce,accepted]⟩
    · exact .inr ⟨stray,by simp [Session.reduce,refused]⟩
  foreign := by
    intro events e foreign
    rw [← (offered_history d events).definition] at foreign
    obtain ⟨error,refused⟩ := reduce_foreign foreign
    rw [offered_concat]
    simp [Session.reduce,refused]

/-! A group of one replica and one unit, cancelled while it is still admitting. -/

def soloRecipe : ReplicaRecipeId :=
  ⟨"sha256:0000000000000000000000000000000000000000000000000000000000000000",by decide⟩

def soloMember : ReplicaBinding :=
  ⟨⟨"r0",by decide⟩,⟨"w0",by decide⟩,⟨"d0",by decide⟩,soloRecipe⟩

def soloUnit : WorkUnitDefinition := ⟨⟨"u0",by decide⟩,⟨"r0",by decide⟩,.single⟩

def soloGroup : WorkGroupDefinition where
  group := ⟨"g0",by decide⟩
  attempt := ⟨1,by decide⟩
  members := [soloMember]
  units := [soloUnit]
  members_bounded := by decide
  units_bounded := by decide
  members_sorted := by decide
  workers_distinct := by decide
  devices_distinct := by decide
  units_sorted := by decide
  slots_distinct := by decide
  units_known := by decide

def soloResult : WorkGroupEvent :=
  .workUnitResult ⟨soloGroup.child soloMember,soloUnit.unit,.single⟩

def soloCancelled : Session :=
  offered soloGroup [.beginAdmission,.requestCancellation ⟨"stop",by decide,by decide⟩]

/-- The result passes the fence and the guards, and the constructor raises. -/
theorem stray_result_raises :
    soloGroup.fence soloResult = .ok () ∧
    ∃ g commands, soloCancelled.lifecycle.transition soloResult = .ok (g,commands) ∧
      g.postInit = .error ⟨"completed units must have been dispatched"⟩ ∧
      reduceWorkgroup soloCancelled.lifecycle soloResult =
        .error ⟨"completed units must have been dispatched"⟩ := by
  refine ⟨by decide,_,_,rfl,by decide,by decide⟩

end Dinkster.Workgroup
