import Dinkster.Registry.RecordsRoundTrip

/-! The plan that leads from one lockfile to another, and what comes of applying its steps. -/
namespace Dinkster.Install
open Registry Names Fallible Canonical

inductive StepAction where
  | add | upgrade | downgrade | reinstall | remove
  deriving DecidableEq

structure InstallStep where
  action : StepAction
  pack : String
  /-- The target entry; none only for `remove`. -/
  target : Option LockedPack
  fromVersion : Option String
  deriving DecidableEq

section

variable (wide : Char → List Char) {V K : Type} [LinearOrder K] (packaging : Packaging V K)

/-- The action between two versions; `none` where one of them does not parse. -/
def actionOf (installed wanted : String) : Option StepAction :=
  match parseVersion packaging installed,parseVersion packaging wanted with
  | some v,some w => some <|
      if packaging.key v < packaging.key w then .upgrade
      else if packaging.key w < packaging.key v then .downgrade
      else .reinstall
  | _,_ => none

def planStep (name : String) : Option LockedPack → Option LockedPack → Option (List InstallStep)
  | none,none => some []
  | none,some want => some [⟨.add,name,some want,none⟩]
  | some installed,none => some [⟨.remove,name,none,some installed.version⟩]
  | some installed,some want =>
    if installed.artifactDigest = want.artifactDigest then some []
    else (actionOf packaging installed.version want.version).map fun action =>
      [⟨action,name,some want,some installed.version⟩]

def planNames (current target : Lockfile) : List String :=
  sortedBy id ((current.packs ++ target.packs).map (·.pack)).dedup

/-- `plan`; `none` where a version does not parse. -/
def plan (current target : Lockfile) : Option (List InstallStep) :=
  ((planNames current target).mapM fun name =>
    planStep packaging name (current.get wide name) (target.get wide name)).map List.flatten

end

/-- The packs of a lockfile under their names. -/
def Lockfile.entries (lockfile : Lockfile) : Dict String LockedPack :=
  Dict.ofList (lockfile.packs.map fun entry => (entry.pack,entry))

def InstallStep.apply (packs : Dict String LockedPack) (step : InstallStep) :
    Dict String LockedPack :=
  match step.target with
  | some entry => packs.set step.pack entry
  | none => packs.erase step.pack

def planned (installed want : Option LockedPack) : Option LockedPack :=
  want.map fun want =>
    if installed.map (·.artifactDigest) = some want.artifactDigest then installed.getD want
    else want

variable {wide : Char → List Char} {V K : Type} {packaging : Packaging V K}
  {lockfile current target : Lockfile}

theorem built_entry (built : lockfile.Built wide packaging) {entry : LockedPack}
    (inside : entry ∈ lockfile.packs) : canonicalName wide entry.pack = entry.pack ∧
      ∃ v, parseVersion packaging entry.version = some v := by
  obtain ⟨same,entries,_⟩ := of_ok.mp built
  rw [← same] at entries
  obtain ⟨_,named,checked⟩ := bind_ok.mp (forM_ok entries entry inside)
  obtain ⟨_,_,checked⟩ := bind_ok.mp checked
  obtain ⟨_,_,checked⟩ := bind_ok.mp checked
  obtain ⟨_,version,_⟩ := bind_ok.mp checked
  constructor
  · unfold requireCanonical at named
    split at named
    · cases named
    · exact not_not.mp (refuseIf_ok.mp named)
  · refine Option.isSome_iff_exists.mp (parseVersion_isSome.mpr ?_)
    cases valid : validateVersion packaging entry.version with
    | none => rfl
    | some problem =>
      rw [valid] at version
      cases version

theorem entries_get? (built : lockfile.Built wide packaging) {name : String} {entry : LockedPack} :
    lockfile.entries.get? name = some entry ↔ entry ∈ lockfile.packs ∧ entry.pack = name := by
  have distinct : ((lockfile.packs.map fun entry => (entry.pack,entry)).map (·.1)).Nodup := by
    rw [List.map_map]
    exact ((strict_iff _).mp built.strict).1
  rw [Lockfile.entries,Dict.get?_ofList distinct,List.mem_map]
  constructor
  · rintro ⟨e,inside,same⟩
    obtain ⟨rfl,rfl⟩ := Prod.mk.inj same
    exact ⟨inside,rfl⟩
  · rintro ⟨inside,rfl⟩
    exact ⟨entry,inside,rfl⟩

theorem get_entries (built : lockfile.Built wide packaging) {name : String}
    (canonical : canonicalName wide name = name) :
    lockfile.get wide name = lockfile.entries.get? name := by
  rw [Lockfile.get,canonical]
  cases found : lockfile.packs.find? (·.pack == name) with
  | none =>
    symm
    rw [Option.eq_none_iff_forall_ne_some]
    intro entry held
    obtain ⟨inside,same⟩ := (entries_get? built).mp held
    simpa [same] using List.find?_eq_none.mp found entry inside
  | some entry =>
    symm
    rw [entries_get? built]
    exact ⟨List.mem_of_find?_eq_some found,by simpa using List.find?_some found⟩

theorem planNames_strict (current target : Lockfile) :
    (planNames current target).Pairwise (· < ·) := by
  refine sortedBy_strict id ?_
  rw [List.map_id]
  exact List.nodup_dedup _

theorem mem_planNames (first : current.Built wide packaging) (second : target.Built wide packaging)
    {name : String} : name ∈ planNames current target ↔
      current.entries.get? name ≠ none ∨ target.entries.get? name ≠ none := by
  have held {lockfile : Lockfile} (built : lockfile.Built wide packaging) :
      name ∈ lockfile.packs.map (·.pack) ↔ lockfile.entries.get? name ≠ none := by
    rw [Option.ne_none_iff_exists',List.mem_map]
    exact exists_congr fun entry => (entries_get? built).symm
  rw [planNames,mem_sortedBy,List.mem_dedup,List.map_append,List.mem_append,held first,held second]

private theorem mapM_some {α β : Type} {f : α → Option β} {g : α → β} {xs : List α}
    (each : ∀ x ∈ xs, f x = some (g x)) : xs.mapM f = some (xs.map g) := by
  induction xs with
  | nil => rfl
  | cons x xs ih =>
    obtain ⟨head,rest⟩ := List.forall_mem_cons.mp each
    rw [List.mapM_cons,head,ih rest]
    rfl

section

variable [LinearOrder K]

theorem actionOf_some {installed wanted : String}
    (read : ∃ v, parseVersion packaging installed = some v)
    (read' : ∃ v, parseVersion packaging wanted = some v) :
    ∃ action, actionOf packaging installed wanted = some action := by
  obtain ⟨v,read⟩ := read
  obtain ⟨w,read'⟩ := read'
  rw [actionOf,read,read']
  exact ⟨_,rfl⟩

theorem planStep_spec (name : String) {installed want : Option LockedPack}
    (read : ∀ entry, installed = some entry → ∃ v, parseVersion packaging entry.version = some v)
    (read' : ∀ entry, want = some entry → ∃ v, parseVersion packaging entry.version = some v) :
    (planStep packaging name installed want = some [] ∧ planned installed want = installed ∧
      installed.map (·.artifactDigest) = want.map (·.artifactDigest)) ∨
    ∃ step, planStep packaging name installed want = some [step] ∧ step.pack = name ∧
      step.target = planned installed want ∧
      installed.map (·.artifactDigest) ≠ want.map (·.artifactDigest) := by
  cases installed with
  | none =>
    cases want with
    | none => exact .inl ⟨rfl,rfl,rfl⟩
    | some want => exact .inr ⟨_,rfl,rfl,rfl,by simp⟩
  | some installed =>
    cases want with
    | none => exact .inr ⟨_,rfl,rfl,rfl,by simp⟩
    | some want =>
      by_cases same : installed.artifactDigest = want.artifactDigest
      · exact .inl ⟨by simp [planStep,same],by simp [planned,same],by simp [same]⟩
      · obtain ⟨action,named⟩ := actionOf_some (read installed rfl) (read' want rfl)
        refine .inr ⟨⟨action,name,some want,some installed.version⟩,?_,rfl,?_,by simpa using same⟩
        · simp [planStep,same,named]
        · simp [planned,same]

theorem applied_get? {names : List String} (distinct : names.Nodup)
    {steps : String → List InstallStep}
    (own : ∀ name ∈ names, steps name = [] ∨ ∃ step, steps name = [step] ∧ step.pack = name)
    (packs : Dict String LockedPack) (name : String) :
    ((names.flatMap steps).foldl InstallStep.apply packs).get? name =
      if name ∈ names then (steps name).head?.elim (packs.get? name) (·.target)
      else packs.get? name := by
  induction names generalizing packs with
  | nil => simp
  | cons first rest ih =>
    obtain ⟨fresh,distinct'⟩ := List.nodup_cons.mp distinct
    obtain ⟨here,others⟩ := List.forall_mem_cons.mp own
    rw [List.flatMap_cons,List.foldl_append,ih distinct' others]
    rcases here with none_ | ⟨step,one,packed⟩
    · rw [none_,List.foldl_nil]
      by_cases same : name = first
      · subst same
        simp [fresh,none_]
      · simp [same]
    · rw [one,List.foldl_cons,List.foldl_nil,InstallStep.apply]
      by_cases same : name = first
      · subst same
        rw [if_neg fresh,if_pos List.mem_cons_self,one]
        cases target : step.target with
        | none => simp [packed,Dict.get?_erase,target]
        | some entry => simp [packed,target]
      · have kept : (match step.target with
            | some entry => packs.set step.pack entry
            | none => packs.erase step.pack).get? name = packs.get? name := by
          cases step.target with
          | none => simp [packed,Dict.get?_erase,same]
          | some entry => simp [packed,Dict.get?_set,same]
        simp only [kept,List.mem_cons,same,false_or]

/-- The plan between two lockfiles: each pack has at most one step, applying the steps leads to what
is planned, and there is none exactly where both lock the same bytes. -/
theorem plan_spec (first : current.Built wide packaging) (second : target.Built wide packaging) :
    ∃ steps, plan wide packaging current target = some steps ∧
      (steps.map (·.pack)).Pairwise (· < ·) ∧
      (∀ name, (steps.foldl InstallStep.apply current.entries).get? name =
        planned (current.entries.get? name) (target.entries.get? name)) ∧
      (steps = [] ↔ ∀ name, (current.entries.get? name).map (·.artifactDigest) =
        (target.entries.get? name).map (·.artifactDigest)) := by
  have version {lockfile : Lockfile} (built : lockfile.Built wide packaging) (name : String)
      (entry : LockedPack) (held : lockfile.entries.get? name = some entry) :
      ∃ v, parseVersion packaging entry.version = some v :=
    (built_entry built ((entries_get? built).mp held).1).2
  let own name := (planStep packaging name (current.entries.get? name)
    (target.entries.get? name)).getD []
  have spec name := planStep_spec name (version first name) (version second name)
  have canonical : ∀ name ∈ planNames current target, canonicalName wide name = name := by
    intro name inside
    rcases (mem_planNames first second).mp inside with held | held
    · obtain ⟨entry,held⟩ := Option.ne_none_iff_exists'.mp held
      obtain ⟨listed,rfl⟩ := (entries_get? first).mp held
      exact (built_entry first listed).1
    · obtain ⟨entry,held⟩ := Option.ne_none_iff_exists'.mp held
      obtain ⟨listed,rfl⟩ := (entries_get? second).mp held
      exact (built_entry second listed).1
  have steps : ∀ name ∈ planNames current target, planStep packaging name (current.get wide name)
      (target.get wide name) = some (own name) := by
    intro name inside
    rw [get_entries first (canonical name inside),get_entries second (canonical name inside)]
    rcases spec name with ⟨none_,_⟩ | ⟨step,one,_⟩
    · simp only [own,none_,Option.getD_some]
    · simp only [own,one,Option.getD_some]
  have one : ∀ name, own name = [] ∨ ∃ step, own name = [step] ∧ step.pack = name := by
    intro name
    rcases spec name with ⟨none_,_⟩ | ⟨step,one,packed,_⟩
    · exact .inl (by simp only [own,none_,Option.getD_some])
    · exact .inr ⟨step,by simp only [own,one,Option.getD_some],packed⟩
  have strict := planNames_strict current target
  refine ⟨(planNames current target).flatMap own,?_,?_,fun name => ?_,?_⟩
  · rw [plan,mapM_some steps,Option.map_some,List.flatMap_def]
  · refine strict.sublist ?_
    clear steps canonical strict
    induction planNames current target with
    | nil => exact .refl _
    | cons name rest ih =>
      rw [List.flatMap_cons,List.map_append]
      rcases one name with none_ | ⟨step,one,packed⟩
      · rw [none_]
        exact ih.cons name
      · rw [one,List.map_cons,List.map_nil,packed]
        exact ih.cons_cons name
  · rw [applied_get? (strict.imp ne_of_lt) fun name _ => one name]
    split
    · rcases spec name with ⟨none_,same,_⟩ | ⟨step,one,_,leads,_⟩
      · simp only [own,none_,Option.getD_some,List.head?_nil,Option.elim_none,same]
      · simp only [own,one,Option.getD_some,List.head?_cons,Option.elim_some,leads]
    · rename_i outside
      rw [mem_planNames first second,not_or,not_not,not_not] at outside
      rw [outside.1,outside.2]
      rfl
  · rw [List.flatMap_eq_nil_iff]
    constructor
    · intro none_ name
      by_cases inside : name ∈ planNames current target
      · rcases spec name with ⟨_,_,same⟩ | ⟨step,one,_⟩
        · exact same
        · have empty := none_ name inside
          simp [own,one] at empty
      · rw [mem_planNames first second,not_or,not_not,not_not] at inside
        rw [inside.1,inside.2]
    · intro same name _
      rcases spec name with ⟨none_,_⟩ | ⟨_,_,_,_,other⟩
      · simp only [own,none_,Option.getD_some]
      · exact absurd (same name) other

end

/-- A lockfile comes back from its record with its digest; a plan or snapshot record that its
constructor accepts comes back exactly where it is canonical. A plan has at most one step a pack,
leads to the target but for entries of bytes that are there already, and has no step exactly where
both lockfiles lock the same bytes under the same names. -/
theorem install_records [LinearOrder K] (wide : Char → List Char) (packaging : Packaging V K)
    (repr blake3 : String → String) :
    (∀ packs lockfile, Lockfile.of wide packaging packs = .ok lockfile →
      Lockfile.fromRecordJson wide packaging lockfile.recordJson = .ok lockfile ∧
      ∀ back, Lockfile.fromRecordJson wide packaging lockfile.recordJson = .ok back →
        back.recordDigest blake3 = lockfile.recordDigest blake3) ∧
    (∀ packs raw r, Lockfile.of wide packaging packs = .ok raw.target →
      PlanRecord.of repr raw = .ok r →
      (PlanRecord.fromRecordJson repr wide packaging r.recordJson = .ok r ↔ r.Canonical repr)) ∧
    (∀ packs r, Lockfile.of wide packaging packs = .ok r.lockfile →
      SnapshotRecord.build repr r = .ok r →
      (SnapshotRecord.fromRecordJson repr wide packaging r.recordJson = .ok r ↔
        r.Canonical repr)) ∧
    ∀ packs packs' current target, Lockfile.of wide packaging packs = .ok current →
      Lockfile.of wide packaging packs' = .ok target →
      ∃ steps, plan wide packaging current target = some steps ∧ (steps.map (·.pack)).Nodup ∧
        (∀ name, (steps.foldl InstallStep.apply current.entries).get? name =
          planned (current.entries.get? name) (target.entries.get? name)) ∧
        ((∀ name, (steps.foldl InstallStep.apply current.entries).get? name =
            target.entries.get? name) ↔
          ∀ name entry entry', current.entries.get? name = some entry →
            target.entries.get? name = some entry' →
            entry.artifactDigest = entry'.artifactDigest → entry = entry') ∧
        (steps = [] ↔ ∀ name, (current.entries.get? name).map (·.artifactDigest) =
          (target.entries.get? name).map (·.artifactDigest)) := by
  refine ⟨fun packs lockfile done => ?_,fun packs raw r done made => ?_,fun packs r done made => ?_,
    fun packs packs' current target done done' => ?_⟩
  · have back := lockfile_back (built_of done)
    refine ⟨back,fun other read => ?_⟩
    rw [Except.ok.inj (read.symm.trans back)]
  · refine plan_iff made ?_
    rw [(plan_of_ok.mp made).1]
    exact built_of done
  · exact snapshot_iff made (built_of done)
  · obtain ⟨steps,listed,strict,applied,none_⟩ := plan_spec (built_of done) (built_of done')
    refine ⟨steps,listed,strict.imp ne_of_lt,applied,?_,none_⟩
    simp only [applied]
    refine forall_congr' fun name => ?_
    cases current.entries.get? name with
    | none =>
      cases target.entries.get? name with
      | none => simp [planned]
      | some entry' => simp [planned]
    | some entry =>
      cases target.entries.get? name with
      | none => simp [planned]
      | some entry' =>
        by_cases same : entry.artifactDigest = entry'.artifactDigest
        · simp [planned,same]
        · simp [planned,same]

private theorem ok_of_toOption {α : Type} {x : Except InstallError α} {a : α}
    (done : x.toOption = some a) : x = .ok a := by
  cases x with
  | error e => cases done
  | ok b => exact congrArg _ (Option.some.inj done)

theorem install_records_upgrade :
    let packaging : Packaging String Nat :=
      ⟨some,id,fun _ => false,fun text => if text = "1.1" then 1 else 0⟩
    let digest (digit : Char) := "blake3:" ++ String.ofList (List.replicate 64 digit)
    let current : Lockfile := ⟨[⟨"alpha","1.0",digest '0',"a",["alpha"],"registry"⟩]⟩
    let target : Lockfile := ⟨[⟨"alpha","1.1",digest '1',"a",["alpha"],"registry"⟩]⟩
    let record : PlanRecord := ⟨target,some (digest '2'),true,"",false,false,
      [("alpha",⟨some ["torch==2.0"],[]⟩)],false,none,[],[],false⟩
    Lockfile.fromRecordJson (fun c => [c]) packaging target.recordJson = .ok target ∧
    PlanRecord.fromRecordJson id (fun c => [c]) packaging record.recordJson = .ok record ∧
    ∃ steps, plan (fun c => [c]) packaging current target = some steps ∧ steps ≠ [] := by
  intro packaging digest current target record
  have built : Lockfile.of (fun c => [c]) packaging target.packs = .ok target :=
    ok_of_toOption (by decide +kernel)
  have built' : Lockfile.of (fun c => [c]) packaging current.packs = .ok current :=
    ok_of_toOption (by decide +kernel)
  have made : PlanRecord.of id record = .ok record := ok_of_toOption (by decide +kernel)
  obtain ⟨locks,plans,_,diffs⟩ := install_records (fun c => [c]) packaging id id
  obtain ⟨steps,listed,_,_,_,none_⟩ := diffs _ _ _ _ built' built
  refine ⟨(locks _ _ built).1,(plans _ _ _ built made).mpr ⟨?_,?_,?_,?_,nofun,nofun⟩,steps,listed,?_⟩
  · intro base held
    obtain rfl := Option.some.inj held
    decide +kernel
  · decide
  · rintro spec inside pins held
    obtain rfl := List.mem_singleton.mp inside
    obtain rfl := Option.some.inj held
    exact ok_of_toOption (by decide +kernel)
  · rintro spec inside
    obtain rfl := List.mem_singleton.mp inside
    exact ok_of_toOption (by decide +kernel)
  · intro empty
    have same := none_.mp empty "alpha"
    revert same
    decide +kernel

/-- A base that is no digest and a pin that is no exact pin are written and not read back, and a
plan does not see another version of the same bytes. -/
theorem unread_records :
    let packaging : Packaging String Nat :=
      ⟨some,id,fun _ => false,fun text => if text = "1.1" then 1 else 0⟩
    let digest := "blake3:" ++ String.ofList (List.replicate 64 '0')
    let lockfile (version : String) : Lockfile :=
      ⟨[⟨"alpha",version,digest,"a",["alpha"],"registry"⟩]⟩
    let record : PlanRecord := ⟨lockfile "1.0",some "none",true,"",false,false,[],false,none,[],[],
      false⟩
    let snapshot : SnapshotRecord :=
      ⟨lockfile "1.0",[("alpha",["torch>=2"])],"","","","",[],[],[],[]⟩
    Lockfile.of (fun c => [c]) packaging (lockfile "1.0").packs = .ok (lockfile "1.0") ∧
    Lockfile.of (fun c => [c]) packaging (lockfile "1.1").packs = .ok (lockfile "1.1") ∧
    (PlanRecord.of id record = .ok record ∧ PlanRecord.fromRecordJson id (fun c => [c]) packaging
      record.recordJson ≠ .ok record) ∧
    (SnapshotRecord.build id snapshot = .ok snapshot ∧ SnapshotRecord.fromRecordJson id
      (fun c => [c]) packaging snapshot.recordJson ≠ .ok snapshot) ∧
    plan (fun c => [c]) packaging (lockfile "1.0") (lockfile "1.1") = some [] := by
  intro packaging digest lockfile record snapshot
  have built : Lockfile.of (fun c => [c]) packaging (lockfile "1.0").packs = .ok (lockfile "1.0") :=
    ok_of_toOption (by decide +kernel)
  have made : PlanRecord.of id record = .ok record := ok_of_toOption (by decide +kernel)
  have made' : SnapshotRecord.build id snapshot = .ok snapshot :=
    ok_of_toOption (by decide +kernel)
  refine ⟨built,ok_of_toOption (by decide +kernel),⟨made,fun back => ?_⟩,⟨made',fun back => ?_⟩,
    by decide +kernel⟩
  · have digested := ((plan_iff made (built_of built)).mp back).base "none" rfl
    revert digested
    decide +kernel
  · have read := ((snapshot_iff made' (built_of built)).mp back).pins _ List.mem_cons_self
    have failed : (decodePins id "snapshot venv" true "alpha" (texts ["torch>=2"])).toOption =
        none := by
      decide +kernel
    rw [read] at failed
    cases failed

end Dinkster.Install
