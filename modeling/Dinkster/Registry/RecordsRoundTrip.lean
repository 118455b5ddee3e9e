import Dinkster.Registry.Records

/-! Lockfiles, plan files and snapshot files are read back as they were written. -/
namespace Dinkster.Install
open Json Json.Object Registry Fallible Canonical

variable {wide : Char → List Char} {V K : Type} {packaging : Packaging V K}

def Lockfile.Built (wide : Char → List Char) (packaging : Packaging V K) (lockfile : Lockfile) :
    Prop := Lockfile.of wide packaging lockfile.packs = .ok lockfile

theorem of_ok {packs : List LockedPack} {lockfile : Lockfile} :
    Lockfile.of wide packaging packs = .ok lockfile ↔ lockfile.packs = sortedBy (·.pack) packs ∧
      (sortedBy (·.pack) packs).forM (checkEntry wide packaging) = .ok () ∧
      checkPairs wide [] (sortedBy (·.pack) packs) = .ok () := by
  unfold Lockfile.of
  dsimp only
  rw [bind_ok]
  constructor
  · rintro ⟨⟨⟩,entries,done⟩
    obtain ⟨⟨⟩,pairs,done⟩ := bind_ok.mp done
    obtain rfl := Except.ok.inj done
    exact ⟨rfl,entries,pairs⟩
  · rintro ⟨same,entries,pairs⟩
    refine ⟨⟨⟩,entries,bind_ok.mpr ⟨⟨⟩,pairs,?_⟩⟩
    rw [← same]
    rfl

theorem built_of {packs : List LockedPack} {lockfile : Lockfile}
    (done : Lockfile.of wide packaging packs = .ok lockfile) :
    lockfile.Built wide packaging := by
  obtain ⟨same,entries,pairs⟩ := of_ok.mp done
  unfold Lockfile.Built
  rw [of_ok,same,sortedBy_sortedBy]
  exact ⟨rfl,entries,pairs⟩

theorem checkPairs_distinct {earlier packs : List LockedPack}
    (done : checkPairs wide earlier packs = .ok ()) :
    (packs.map (·.pack)).Nodup ∧ ∀ e ∈ earlier, ∀ e' ∈ packs, e.pack ≠ e'.pack := by
  induction packs generalizing earlier with
  | nil => exact ⟨List.nodup_nil,fun _ _ => List.forall_mem_nil _⟩
  | cons entry rest ih =>
    obtain ⟨⟨⟩,pairs,more⟩ := bind_ok.mp done
    obtain ⟨distinct,apart⟩ := ih more
    have fresh : ∀ e ∈ earlier, e.pack ≠ entry.pack := by
      intro e inside
      obtain ⟨⟨⟩,checked,_⟩ := bind_ok.mp (forM_ok pairs e inside)
      exact refuseIf_ok.mp checked
    constructor
    · refine List.nodup_cons.mpr ⟨fun inside => ?_,distinct⟩
      obtain ⟨e',later,same⟩ := List.mem_map.mp inside
      exact apart entry (List.mem_append_right _ List.mem_cons_self) e' later same.symm
    · intro e inside e' inside'
      rcases List.mem_cons.mp inside' with rfl | later
      · exact fresh e inside
      · exact apart e (List.mem_append_left _ inside) e' later

theorem Lockfile.Built.strict {lockfile : Lockfile} (built : lockfile.Built wide packaging) :
    lockfile.packs.Pairwise fun a b => a.pack < b.pack := by
  obtain ⟨same,_,pairs⟩ := of_ok.mp built
  rw [← same] at pairs
  rw [strict_iff]
  exact ⟨(checkPairs_distinct pairs).1,same.symm⟩

@[simp] theorem sortKeys_str (s : String) : sortKeys (.str s) = .str s := rfl

@[simp] theorem sortKeys_bool (b : Bool) : sortKeys (.bool b) = .bool b := rfl

@[simp] theorem sortKeys_null : sortKeys .null = .null := rfl

@[simp] theorem sortKeys_texts (items : List String) : sortKeys (texts items) = texts items := by
  rw [texts,sortKeys,sortItems_eq,List.map_map]
  rfl

theorem readable_texts (items : List String) : (texts items).Readable .plain := by
  rw [texts,Value.Readable,itemsReadable_iff]
  intro v inside
  obtain ⟨s,_,rfl⟩ := List.mem_map.mp inside
  exact trivial

theorem read_sorted {ms : Object} (distinct : (ms.map (·.1)).Nodup) {key : String} {v : Value}
    (written : get? ms key = some v) :
    get? (sortedBy (·.1) (sortMembers ms)) key = some (sortKeys v) := by
  rw [get?_sorted distinct,written,Option.map_some]

theorem entry_back (entry : LockedPack) : entryOfRecord (sortKeys entry.record) = .ok entry := by
  obtain ⟨ms,written⟩ : ∃ ms, entry.record = .obj ms := ⟨_,rfl⟩
  have distinct : (ms.map (·.1)).Nodup := by
    obtain rfl := Value.obj.inj written
    simp
  have field {key value : String} (held : get? ms key = some (.str value)) :
      entryField (sortedBy (·.1) (sortMembers ms)) key = .ok value := by
    rw [entryField,read_sorted distinct held,sortKeys_str]
  have claims : entryClaims (sortedBy (·.1) (sortMembers ms)) = .ok entry.claims := by
    have held : get? ms "claims" = some (texts entry.claims) := by
      obtain rfl := Value.obj.inj written
      simp [get?_cons,texts]
    rw [entryClaims,read_sorted distinct held,sortKeys_texts]
    simp [texts,asStrings_str]
  rw [written,sortKeys,entryOfRecord]
  refine bind_ok.mpr ⟨entry.pack,field ?_,bind_ok.mpr ⟨entry.version,field ?_,bind_ok.mpr
    ⟨entry.artifactDigest,field ?_,bind_ok.mpr ⟨entry.publisher,field ?_,bind_ok.mpr
    ⟨entry.source,field ?_,bind_ok.mpr ⟨entry.claims,claims,rfl⟩⟩⟩⟩⟩⟩
  all_goals
    obtain rfl := Value.obj.inj written
    simp [get?_cons]

theorem entry_readable (entry : LockedPack) : entry.record.Readable .plain := by
  rw [LockedPack.record,Value.Readable]
  refine ⟨plain_pairs (by simp),?_⟩
  simp only [MembersReadable,Value.Readable,true_and,and_true]
  exact readable_texts entry.claims

theorem record_readable (lockfile : Lockfile) : lockfile.record.Readable .plain := by
  rw [Lockfile.record,Value.Readable]
  refine ⟨plain_pairs (by simp),?_⟩
  simp only [MembersReadable,Value.Readable,true_and,and_true,itemsReadable_iff]
  intro v inside
  obtain ⟨entry,_,rfl⟩ := List.mem_map.mp inside
  exact entry_readable entry

theorem lockfile_read {lockfile : Lockfile} (built : lockfile.Built wide packaging) {text : String}
    (told : loads .plain text.toList = some (sortKeys lockfile.record)) :
    Lockfile.fromRecordJson wide packaging text = .ok lockfile := by
  obtain ⟨ms,written⟩ : ∃ ms, lockfile.record = .obj ms := ⟨_,rfl⟩
  have distinct : (ms.map (·.1)).Nodup := by
    obtain rfl := Value.obj.inj written
    simp
  have format : get? ms "format" = some (.str lockfileFormat) := by
    obtain rfl := Value.obj.inj written
    simp [get?_cons]
  have packs : get? ms "packs" = some (.arr (lockfile.packs.map (·.record))) := by
    obtain rfl := Value.obj.inj written
    simp [get?_cons]
  have record : readRecord "lockfile" "lockfile" lockfileFormat text =
      .ok (sortedBy (·.1) (sortMembers ms)) := by
    rw [readRecord,told,written,sortKeys]
    refine bind_ok.mpr ⟨⟨⟩,?_,rfl⟩
    rw [checkFormat,read_sorted distinct format,sortKeys_str]
    exact refuseIf_ok.mpr fun other => other rfl
  rw [Lockfile.fromRecordJson]
  refine bind_ok.mpr ⟨_,record,?_⟩
  rw [read_sorted distinct packs,sortKeys,sortItems_eq,List.map_map]
  refine bind_ok.mpr ⟨lockfile.packs,?_,built⟩
  exact mapM_inverse (fun entry => entry_back entry) _

theorem document_eq (lockfile : Lockfile) : lockfile.document = sortKeys lockfile.record := by
  rw [Lockfile.document,Lockfile.recordJson,canonicalJson,String.toList_ofList,
    loads_sortedText (record_readable lockfile),Option.getD_some]

theorem lockfile_back {lockfile : Lockfile} (built : lockfile.Built wide packaging) :
    Lockfile.fromRecordJson wide packaging lockfile.recordJson = .ok lockfile := by
  refine lockfile_read built ?_
  rw [Lockfile.recordJson,canonicalJson,String.toList_ofList]
  exact loads_sortedText (record_readable lockfile)

section

variable {α : Type} {members : List (String × Option Value)} {record : Object} {key : String}

theorem told_member (distinct : (members.map (·.1)).Nodup) (key : String) :
    get? (sortedBy (·.1) (sortMembers (present members))) key =
      (members.lookup key).join.map sortKeys := by
  rw [get?_sorted (distinct.sublist (names_present members)),get?_present distinct]

theorem present_readable (distinct : (members.map (·.1)).Nodup)
    (values : ∀ m ∈ members, ∀ v, m.2 = some v → v.Readable .plain) :
    (Value.obj (present members)).Readable .plain := by
  rw [Value.Readable]
  refine ⟨plain_pairs (distinct.sublist (names_present members)),membersReadable_iff.mpr ?_⟩
  intro m inside
  obtain ⟨m',inside',made⟩ := List.mem_filterMap.mp inside
  obtain ⟨v,held,rfl⟩ := Option.map_eq_some_iff.mp made
  exact values m' inside' v held

theorem readable_dictOf {f : α → Value} {pairs : List (String × α)}
    (values : ∀ p ∈ pairs, (f p.2).Readable .plain) : (dictOf f pairs).Readable .plain := by
  rw [dictOf,Value.Readable]
  refine ⟨plain_pairs (Dict.ofList _).distinct,membersReadable_iff.mpr fun m inside => ?_⟩
  obtain ⟨p,inside',rfl⟩ := List.mem_map.mp (Dict.mem_entries_of_ofList inside)
  exact values p inside'

theorem readable_only {condition : Prop} [Decidable condition] {v w : Value}
    (readable : v.Readable .plain) (held : only condition v = some w) : w.Readable .plain := by
  unfold only at held
  split at held
  · exact Option.some.inj held ▸ readable
  · cases held

theorem flag_told {repr : String → String} {b : Bool}
    (told : get? record key = (only b (.bool true)).map sortKeys) :
    decodeFlag repr record key = .ok b := by
  rw [decodeFlag,told]
  cases b with
  | true => rfl
  | false => rfl

theorem text_told {repr : String → String} {what text : String}
    (told : get? record key = (some (Value.str text)).map sortKeys) :
    decodeText repr what record key = .ok text := by
  rw [decodeText,told]
  rfl

theorem inProcess_told {what : String} {packs : List String}
    (told : get? record "inProcess" = (only (packs ≠ []) (texts packs)).map sortKeys) :
    decodeInProcess what record = .ok packs := by
  rw [decodeInProcess,told]
  by_cases empty : packs = []
  · simp [only,empty]
  · simp only [only,empty,ne_eq,not_false_eq_true,if_true,Option.map_some,sortKeys_texts]
    simp only [texts,asStrings_str]

theorem dict_told {f : α → Value} {pairs : List (String × α)}
    (strict : pairs.Pairwise fun a b => a.1 < b.1) :
    sortKeys (dictOf f pairs) = .obj (pairs.map fun p => (p.1,sortKeys (f p.2))) := by
  have named : (pairs.map fun p => (p.1,f p.2)).Pairwise fun a b => a.1 < b.1 :=
    List.pairwise_map.mpr strict
  have distinct := ((strict_iff _).mp named).1
  rw [dictOf,Dict.entries_ofList distinct,sortKeys_strict named,List.map_map]
  rfl

theorem dict_names {f : α → Value} {pairs : List (String × α)} {ms : Object}
    (told : sortKeys (dictOf f pairs) = .obj ms) : ms.Pairwise fun a b => a.1 < b.1 := by
  rw [dictOf,sortKeys] at told
  obtain rfl := Value.obj.inj told
  refine sortedBy_strict _ ?_
  rw [sortMembers_eq,List.map_map]
  exact (Dict.ofList _).distinct

variable {decode : String → Value → Except InstallError α}

theorem members_strict {f : α → Value} {pairs pairs' : List (String × α)} {ms : Object}
    (told : sortKeys (dictOf f pairs) = .obj ms)
    (read : (ms.mapM fun m => (decode m.1 m.2).map (m.1,·)) = .ok pairs') :
    pairs'.Pairwise fun a b => a.1 < b.1 := by
  have names : pairs'.map (·.1) = ms.map (·.1) := mapM_map (fun m p done => by
    obtain ⟨a,_,rfl⟩ := map_ok.mp done
    rfl) read
  refine List.pairwise_map.mp ?_
  rw [names]
  exact List.pairwise_map.mpr (dict_names told)

/-- Pairs come back from their dictionary exactly when they are in the strict order of their names
and each value comes back. -/
theorem members_iff {f : α → Value} {pairs : List (String × α)} {ms : Object}
    (told : sortKeys (dictOf f pairs) = .obj ms) :
    (ms.mapM fun m => (decode m.1 m.2).map (m.1,·)) = .ok pairs ↔
      (pairs.Pairwise fun a b => a.1 < b.1) ∧
        ∀ p ∈ pairs, decode p.1 (sortKeys (f p.2)) = .ok p.2 := by
  have each (strict : pairs.Pairwise fun a b => a.1 < b.1) :
      (ms.mapM fun m => (decode m.1 m.2).map (m.1,·)) = .ok pairs ↔
        ∀ p ∈ pairs, decode p.1 (sortKeys (f p.2)) = .ok p.2 := by
    rw [dict_told strict] at told
    obtain rfl := Value.obj.inj told
    rw [mapM_ok,List.forall₂_map_left_iff,List.forall₂_same]
    refine forall₂_congr fun p _ => ?_
    rw [map_ok]
    constructor
    · rintro ⟨a,done,same⟩
      obtain ⟨name,value⟩ := p
      obtain rfl : a = value := (Prod.mk.inj same).2
      exact done
    · exact fun done => ⟨p.2,done,rfl⟩
  constructor
  · intro read
    have strict := members_strict told read
    exact ⟨strict,(each strict).mp read⟩
  · rintro ⟨strict,back⟩
    exact (each strict).mpr back

theorem decodeMembers_told {message : String} {ms : Object} (told : get? record key = some (.obj ms)) :
    decodeMembers message decode record key =
      (ms.mapM fun m => (decode m.1 m.2).map (m.1,·)).map some := by
  rw [decodeMembers,given,told]

theorem dictOf_obj (f : α → Value) (pairs : List (String × α)) :
    ∃ ms, sortKeys (dictOf f pairs) = .obj ms := by
  rw [dictOf,sortKeys]
  exact ⟨_,rfl⟩

theorem runtimePins_told {what : String} {pins : List (String × String)}
    (told : get? record "runtimePins" = (only (pins ≠ []) (dictOf .str pins)).map sortKeys) :
    decodeRuntimePins what record = .ok pins ↔ pins.Pairwise fun a b => a.1 < b.1 := by
  rw [decodeRuntimePins,told]
  by_cases empty : pins = []
  · simp [only,empty]
  · obtain ⟨ms,same⟩ := dictOf_obj Value.str pins
    simp only [only,empty,ne_eq,not_false_eq_true,if_true,Option.map_some,same]
    refine (@members_iff _ (fun _ => textMember _) _ _ _ same).trans (and_iff_left ?_)
    exact fun p _ => rfl

end

theorem readRecord_told {what document format : String} {members : List (String × Option Value)}
    (distinct : (members.map (·.1)).Nodup)
    (values : ∀ m ∈ members, ∀ v, m.2 = some v → v.Readable .plain)
    (named : members.lookup "format" = some (some (.str format))) :
    readRecord what document format (canonicalJson (.obj (present members))) =
      .ok (sortedBy (·.1) (sortMembers (present members))) := by
  rw [readRecord,canonicalJson,String.toList_ofList,
    loads_sortedText (present_readable distinct values),sortKeys]
  refine bind_ok.mpr ⟨⟨⟩,?_,rfl⟩
  rw [checkFormat,told_member distinct,named]
  exact refuseIf_ok.mpr fun other => other rfl

theorem document_readable (lockfile : Lockfile) : lockfile.document.Readable .plain := by
  rw [document_eq]
  exact readable_sortKeys (record_readable lockfile)

theorem decodeLockfile_told {what key : String} {record : Object} {lockfile : Lockfile}
    (built : lockfile.Built wide packaging)
    (told : get? record key = (some lockfile.document).map sortKeys) :
    decodeLockfile wide packaging what key record = .ok lockfile := by
  obtain ⟨ms,same⟩ : ∃ ms, sortKeys lockfile.record = .obj ms := by
    rw [Lockfile.record,sortKeys]
    exact ⟨_,rfl⟩
  rw [decodeLockfile,told,document_eq,Option.map_some,sortKeys_sortKeys,same]
  refine lockfile_read built ?_
  rw [dumps,String.toList_ofList,← same]
  exact loads_spaced (readable_sortKeys (record_readable lockfile))

def PlanRecord.normal (r : PlanRecord) : PlanRecord :=
  { r with
    venvSpecs := sortedBy (·.1) r.venvSpecs, venvGroups := r.venvGroups.map (sortedBy toLex),
    inProcess := sortedBy id r.inProcess, runtimePins := sortedBy toLex r.runtimePins }

def PlanRecord.Checked (repr : String → String) (r : PlanRecord) : Prop :=
  (∀ spec ∈ r.venvSpecs, spec.1 ∈ r.target.packs.map (·.pack)) ∧
  ∃ grouped, (r.venvGroups.getD []).foldlM
      (checkPlanGroup repr (r.target.packs.map (·.pack)) r.venvSpecs) [] = .ok grouped ∧
    checkPlacement "plan" "target" (r.target.packs.map (·.pack)) grouped r.inProcess
      r.runtimePins = .ok ()

variable {repr : String → String}

theorem plan_of_ok {raw r : PlanRecord} :
    PlanRecord.of repr raw = .ok r ↔ r = raw.normal ∧ r.Checked repr := by
  unfold PlanRecord.of
  dsimp only
  rw [bind_ok]
  constructor
  · rintro ⟨⟨⟩,locked,done⟩
    obtain ⟨grouped,groups,done⟩ := bind_ok.mp done
    obtain ⟨⟨⟩,placed,done⟩ := bind_ok.mp done
    obtain rfl := Except.ok.inj done
    refine ⟨rfl,fun spec inside => ?_,grouped,groups,placed⟩
    exact not_not.mp (refuseIf_ok.mp (forM_ok locked spec inside))
  · rintro ⟨rfl,locked,grouped,groups,placed⟩
    refine ⟨⟨⟩,?_,bind_ok.mpr ⟨grouped,groups,bind_ok.mpr ⟨⟨⟩,placed,rfl⟩⟩⟩
    refine forM_all fun spec inside => refuseIf_ok.mpr (not_not.mpr (locked spec inside))

@[simp] theorem normal_normal (r : PlanRecord) : r.normal.normal = r.normal := by
  simp only [PlanRecord.normal,sortedBy_sortedBy,Option.map_map]
  congr 1
  refine Option.map_congr fun groups _ => ?_
  exact sortedBy_sortedBy _

/-- The plan records that their reader gives back: the base is a digest, no pack has two specs and
no two groups one name, the pins are as they are read and the members of a group in order. -/
structure PlanRecord.Canonical (repr : String → String) (r : PlanRecord) : Prop where
  base : ∀ digest, r.base = some digest → validateArtifactDigest digest = none
  packs : (r.venvSpecs.map (·.1)).Nodup
  exact_ : ∀ spec ∈ r.venvSpecs, ∀ pins, spec.2.exact_ = some pins →
    decodePins repr "plan venv exact" true spec.1 (texts pins) = .ok pins
  constraints : ∀ spec ∈ r.venvSpecs, decodePins repr "plan venv constraint" false spec.1
    (texts spec.2.constraints) = .ok spec.2.constraints
  names : ∀ groups, r.venvGroups = some groups → (groups.map (·.1)).Nodup
  members : ∀ groups, r.venvGroups = some groups → ∀ group ∈ groups, sortedBy id group.2 = group.2

theorem spec_readable (spec : VenvSpec) : spec.document.Readable .plain := by
  refine present_readable (by simp [VenvSpec.members]) fun m inside v held => ?_
  simp only [VenvSpec.members,List.mem_cons,List.not_mem_nil,or_false] at inside
  rcases inside with rfl | rfl
  · obtain ⟨pins,_,rfl⟩ := Option.map_eq_some_iff.mp held
    exact readable_texts pins
  · exact readable_only (readable_texts _) held

theorem somePins_told {label pack key : String} {allowHashes : Bool} {spec : Object}
    {found : Option (List String)} (told : get? spec key = (found.map texts).map sortKeys) :
    decodeSomePins repr label allowHashes pack spec key = found.elim (.ok none) fun pins =>
      (decodePins repr label allowHashes pack (texts pins)).map some := by
  rw [decodeSomePins,given,told]
  cases found with
  | none => rfl
  | some pins =>
    rw [Option.map_some,Option.map_some,sortKeys_texts]
    rfl

theorem spec_iff {pack : String} {spec : VenvSpec} :
    decodeSpec repr pack (sortKeys spec.document) = .ok spec ↔
      (∀ pins, spec.exact_ = some pins →
        decodePins repr "plan venv exact" true pack (texts pins) = .ok pins) ∧
      decodePins repr "plan venv constraint" false pack (texts spec.constraints) =
        .ok spec.constraints := by
  have distinct : (spec.members.map (·.1)).Nodup := by simp [VenvSpec.members]
  have first := @somePins_told repr "plan venv exact" pack "exact" true _ spec.exact_
    (told_member distinct "exact")
  have second := @somePins_told repr "plan venv constraint" pack "constraints" false
    (sortedBy (·.1) (sortMembers (present spec.members)))
    (if spec.constraints ≠ [] then some spec.constraints else none) (by
      rw [told_member distinct]
      unfold VenvSpec.members only
      split <;> rfl)
  rw [VenvSpec.document,sortKeys,decodeSpec,bind_ok,first]
  simp only [bind_ok,second]
  obtain ⟨exact_,constraints⟩ := spec
  dsimp only
  have start : (∃ a, exact_.elim (.ok none) (fun pins =>
        (decodePins repr "plan venv exact" true pack (texts pins)).map some) = .ok a ∧
      a = exact_) ↔ ∀ pins, exact_ = some pins →
        decodePins repr "plan venv exact" true pack (texts pins) = .ok pins := by
    cases exact_ with
    | none => simp
    | some pins => simp [map_ok]
  have rest : (∃ a, (if constraints ≠ [] then some constraints else none).elim (.ok none)
        (fun pins => (decodePins repr "plan venv constraint" false pack (texts pins)).map some) =
        .ok a ∧ a.getD [] = constraints) ↔
      decodePins repr "plan venv constraint" false pack (texts constraints) = .ok constraints := by
    by_cases empty : constraints = []
    · subst empty
      simp [decodePins,texts]
      rfl
    · simp [empty,map_ok]
  rw [← start,← rest]
  constructor
  · rintro ⟨a,read,b,read',done⟩
    obtain ⟨same,same'⟩ := VenvSpec.mk.inj (Except.ok.inj done)
    exact ⟨⟨a,read,same⟩,b,read',same'⟩
  · rintro ⟨⟨a,read,rfl⟩,b,read',rfl⟩
    exact ⟨a,read,b,read',rfl⟩

theorem checkPlacement_names {what owner : String} {locked grouped inProcess : List String}
    {pins : List (String × String)}
    (done : checkPlacement what owner locked grouped inProcess pins = .ok ()) :
    (pins.map (·.1)).Nodup := by
  unfold checkPlacement at done
  obtain ⟨_,_,done⟩ := bind_ok.mp done
  obtain ⟨_,_,done⟩ := bind_ok.mp done
  obtain ⟨_,_,done⟩ := bind_ok.mp done
  obtain ⟨_,distinct,_⟩ := bind_ok.mp done
  exact not_not.mp (refuseIf_ok.mp distinct)

section

variable {β : Type} [LinearOrder β] {pairs : List (String × β)}

theorem lex_of_strict (strict : pairs.Pairwise fun a b => a.1 < b.1) :
    sortedBy toLex pairs = pairs := by
  refine sortedBy_of_pairwise _ (strict.imp fun less => ?_)
  exact Prod.Lex.toLex_le_toLex.mpr (.inl less)

theorem strict_of_lex (sorted : sortedBy toLex pairs = pairs)
    (distinct : (pairs.map (·.1)).Nodup) : pairs.Pairwise fun a b => a.1 < b.1 := by
  have below := sortedBy_pairwise (toLex (α := String × β)) pairs
  rw [sorted] at below
  rw [List.Nodup,List.pairwise_map] at distinct
  refine (below.and distinct).imp fun {a b} both => ?_
  exact (Prod.Lex.toLex_le_toLex.mp both.1).resolve_right fun same => both.2 same.1

end

variable {raw r : PlanRecord} {record : Object}

theorem base_iff (told : get? record "base" = some (sortKeys (r.base.elim .null .str))) :
    decodeBase repr record = .ok r.base ↔
      ∀ digest, r.base = some digest → validateArtifactDigest digest = none := by
  rw [decodeBase,given,told]
  cases r.base with
  | none => simp
  | some digest => simp [fail]

theorem specs_iff (message : String) (sorted : sortedBy (·.1) r.venvSpecs = r.venvSpecs)
    (told : get? record "venvSpecs" =
      (only (r.venvSpecs ≠ []) (dictOf VenvSpec.document r.venvSpecs)).map sortKeys) :
    (∃ found, decodeMembers message (decodeSpec repr) record "venvSpecs" = .ok found ∧
      sortedBy (·.1) (found.getD []) = r.venvSpecs) ↔
    (r.venvSpecs.map (·.1)).Nodup ∧ ∀ spec ∈ r.venvSpecs,
      decodeSpec repr spec.1 (sortKeys spec.2.document) = .ok spec.2 := by
  by_cases empty : r.venvSpecs = []
  · have read : decodeMembers message (decodeSpec repr) record "venvSpecs" = .ok none := by
      rw [decodeMembers,given,told]
      simp [only,empty]
    rw [read,empty]
    exact iff_of_true ⟨none,rfl,rfl⟩ ⟨List.nodup_nil,nofun⟩
  · obtain ⟨ms,same⟩ := dictOf_obj VenvSpec.document r.venvSpecs
    rw [only,if_pos empty,Option.map_some,same] at told
    have strict : (r.venvSpecs.Pairwise fun a b => a.1 < b.1) ↔
        (r.venvSpecs.map (·.1)).Nodup :=
      (strict_iff _).trans (and_iff_left sorted)
    rw [decodeMembers_told told,← strict,← members_iff same]
    constructor
    · rintro ⟨found,decoded,listed⟩
      obtain ⟨pairs,read,rfl⟩ := map_ok.mp decoded
      rw [Option.getD_some,sortedBy_of_strict _ (members_strict same read)] at listed
      rwa [← listed]
    · intro read
      exact ⟨some r.venvSpecs,map_ok.mpr ⟨_,read,rfl⟩,sorted⟩

theorem group_back {what name : String} {members : List String} :
    decodeGroup repr what name (sortKeys (texts members)) = .ok members := by
  rw [sortKeys_texts]
  simp only [decodeGroup,texts,asStrings_str]

theorem groups_iff (message : String) (sorted : r.venvGroups.map (sortedBy toLex) = r.venvGroups)
    (told : get? record "venvGroups" = (r.venvGroups.map (dictOf texts)).map sortKeys) :
    (∃ found, decodeMembers message (decodePlanGroup repr) record "venvGroups" = .ok found ∧
      found.map (sortedBy toLex) = r.venvGroups) ↔
    (∀ groups, r.venvGroups = some groups → (groups.map (·.1)).Nodup) ∧
      ∀ groups, r.venvGroups = some groups → ∀ group ∈ groups, sortedBy id group.2 = group.2 := by
  cases held : r.venvGroups with
  | none =>
    have read : decodeMembers message (decodePlanGroup repr) record "venvGroups" = .ok none := by
      rw [decodeMembers,given,told,held]
      rfl
    rw [read]
    exact iff_of_true ⟨none,rfl,rfl⟩ ⟨nofun,nofun⟩
  | some groups =>
    obtain ⟨ms,same⟩ := dictOf_obj texts groups
    rw [held,Option.map_some,Option.map_some,same] at told
    rw [held,Option.map_some,Option.some.injEq] at sorted
    have strict : (groups.Pairwise fun a b => a.1 < b.1) ↔ (groups.map (·.1)).Nodup := by
      constructor
      · exact fun strict => ((strict_iff _).mp strict).1
      · exact strict_of_lex sorted
    have each : (∀ group ∈ groups, decodePlanGroup repr group.1 (sortKeys (texts group.2)) =
        .ok group.2) ↔ ∀ group ∈ groups, sortedBy id group.2 = group.2 := by
      refine forall₂_congr fun group _ => ?_
      rw [decodePlanGroup,group_back]
      simp [Except.map]
    rw [decodeMembers_told told]
    simp only [Option.some.injEq,forall_eq',← strict,← each]
    rw [← members_iff same]
    constructor
    · rintro ⟨found,decoded,listed⟩
      obtain ⟨pairs,read,rfl⟩ := map_ok.mp decoded
      rw [Option.map_some,lex_of_strict (members_strict same read),Option.some.injEq] at listed
      rwa [← listed]
    · intro read
      exact ⟨some groups,map_ok.mpr ⟨_,read,rfl⟩,by rw [Option.map_some,sorted]⟩

theorem plan_readable (r : PlanRecord) :
    ∀ m ∈ r.members, ∀ v, m.2 = some v → v.Readable .plain := by
  intro m inside v held
  simp only [PlanRecord.members,List.mem_cons,List.not_mem_nil,or_false] at inside
  rcases inside with rfl | rfl | rfl | rfl | rfl | rfl | rfl | rfl | rfl | rfl | rfl | rfl | rfl
  · obtain rfl := Option.some.inj held
    trivial
  · obtain rfl := Option.some.inj held
    cases r.base with
    | none => trivial
    | some digest => trivial
  · obtain rfl := Option.some.inj held
    exact document_readable r.target
  · obtain rfl := Option.some.inj held
    trivial
  · obtain rfl := Option.some.inj held
    trivial
  · exact readable_only (by trivial) held
  · exact readable_only (by trivial) held
  · exact readable_only (by trivial) held
  · exact readable_only (readable_dictOf fun p _ => spec_readable p.2) held
  · obtain ⟨groups,_,rfl⟩ := Option.map_eq_some_iff.mp held
    exact readable_dictOf fun p _ => readable_texts p.2
  · exact readable_only (readable_texts _) held
  · exact readable_only (readable_dictOf (f := .str) fun p _ => trivial) held
  · exact readable_only (by trivial) held

theorem plan_iff (made : PlanRecord.of repr raw = .ok r) (built : r.target.Built wide packaging) :
    PlanRecord.fromRecordJson repr wide packaging r.recordJson = .ok r ↔ r.Canonical repr := by
  obtain ⟨ordered,checked⟩ := plan_of_ok.mp made
  have normal : r.normal = r := by rw [ordered,normal_normal]
  have distinct : (r.members.map (·.1)).Nodup := by simp [PlanRecord.members]
  have told := told_member distinct
  have pins : r.runtimePins.Pairwise fun a b => a.1 < b.1 := by
    obtain ⟨_,_,_,placed⟩ := checked
    exact strict_of_lex (congrArg PlanRecord.runtimePins normal) (checkPlacement_names placed)
  have record := @readRecord_told "plan" "plan file" planFormat _ distinct (plan_readable r) rfl
  rw [PlanRecord.fromRecordJson,PlanRecord.recordJson,record]
  have base := @base_iff repr r _ (told "base")
  have specs := @specs_iff repr r _ "plan 'venvSpecs' must be an object of pack -> spec"
    (congrArg PlanRecord.venvSpecs normal) (told "venvSpecs")
  have groups := @groups_iff repr r _ "plan 'venvGroups' must be an object"
    (congrArg PlanRecord.venvGroups normal) (told "venvGroups")
  have venvs : decodeVenvs (sortedBy (·.1) (sortMembers (present r.members))) = .ok r.venvs := by
    rw [decodeVenvs,told "venvs"]
    rfl
  have accelerator := @text_told _ _ repr "plan" r.accelerator (told "accelerator")
  have acquire := @flag_told _ _ repr r.acquire (told "acquire")
  have deriveClaims := @flag_told _ _ repr r.deriveClaims (told "deriveClaims")
  have findings := @flag_told _ _ repr r.allowDoctorFindings (told "allowDoctorFindings")
  have topology := @flag_told _ _ repr r.generationTopology (told "generationTopology")
  have target := @decodeLockfile_told _ _ _ _ "plan" "target" _ _ built (told "target")
  have inProcess := @inProcess_told _ "plan" r.inProcess (told "inProcess")
  have runtimePins := (@runtimePins_told _ "plan" r.runtimePins (told "runtimePins")).mpr pins
  have same : ∀ base specs groups, PlanRecord.of repr ⟨r.target,base,r.venvs,r.accelerator,
      r.acquire,r.deriveClaims,specs,r.allowDoctorFindings,groups,r.inProcess,r.runtimePins,
      r.generationTopology⟩ = .ok r ↔ base = r.base ∧ sortedBy (·.1) specs = r.venvSpecs ∧
        groups.map (sortedBy toLex) = r.venvGroups := by
    intro base specs groups
    rw [plan_of_ok,and_iff_left checked]
    have places := congrArg PlanRecord.inProcess normal
    have baseline := congrArg PlanRecord.runtimePins normal
    simp only [PlanRecord.normal] at places baseline ⊢
    rw [places,baseline]
    constructor
    · intro listed
      exact ⟨(congrArg PlanRecord.base listed).symm,(congrArg PlanRecord.venvSpecs listed).symm,
        (congrArg PlanRecord.venvGroups listed).symm⟩
    · rintro ⟨rfl,listed,listed'⟩
      rw [listed,listed']
  simp only [bind_ok,Except.ok.injEq,exists_eq_left',venvs,accelerator,acquire,deriveClaims,findings,
    topology,target,inProcess,runtimePins,same]
  constructor
  · rintro ⟨b,read,s,read',g,read'',rfl,listed,listed'⟩
    have packs := specs.mp ⟨s,read',listed⟩
    have named := groups.mp ⟨g,read'',listed'⟩
    exact ⟨base.mp read,packs.1,fun spec inside => (spec_iff.mp (packs.2 spec inside)).1,
      fun spec inside => (spec_iff.mp (packs.2 spec inside)).2,named.1,named.2⟩
  · intro canonical
    obtain ⟨s,read',listed⟩ := specs.mpr ⟨canonical.packs,fun spec inside =>
      spec_iff.mpr ⟨canonical.exact_ spec inside,canonical.constraints spec inside⟩⟩
    obtain ⟨g,read'',listed'⟩ := groups.mpr ⟨canonical.names,canonical.members⟩
    exact ⟨r.base,base.mpr canonical.base,s,read',g,read'',rfl,listed,listed'⟩

/-- What `__post_init__` checks. -/
def SnapshotRecord.Checked (repr : String → String) (r : SnapshotRecord) : Prop :=
  (∀ venv ∈ r.venvs, venv.1 ∈ r.lockfile.packs.map (·.pack)) ∧
  ∃ grouped, r.venvGroups.foldlM
      (checkGroup repr "snapshot" (r.lockfile.packs.map (·.pack))) [] = .ok grouped ∧
    checkPlacement "snapshot" "lockfile" (r.lockfile.packs.map (·.pack)) grouped r.inProcess
      r.runtimePins = .ok ()

theorem build_ok {raw r : SnapshotRecord} :
    SnapshotRecord.build repr raw = .ok r ↔ raw = r ∧ r.Checked repr := by
  unfold SnapshotRecord.build
  dsimp only
  rw [bind_ok]
  constructor
  · rintro ⟨⟨⟩,locked,done⟩
    obtain ⟨grouped,groups,done⟩ := bind_ok.mp done
    obtain ⟨⟨⟩,placed,done⟩ := bind_ok.mp done
    obtain rfl := Except.ok.inj done
    refine ⟨rfl,fun venv inside => ?_,grouped,groups,placed⟩
    exact not_not.mp (refuseIf_ok.mp (forM_ok locked venv inside))
  · rintro ⟨rfl,locked,grouped,groups,placed⟩
    refine ⟨⟨⟩,?_,bind_ok.mpr ⟨grouped,groups,bind_ok.mpr ⟨⟨⟩,placed,rfl⟩⟩⟩
    exact forM_all fun venv inside => refuseIf_ok.mpr (not_not.mpr (locked venv inside))

/-- The snapshot records that their reader gives back: everything is in order, no name occurs twice
and the pins are as they are read. -/
structure SnapshotRecord.Canonical (repr : String → String) (r : SnapshotRecord) : Prop where
  venvs : r.venvs.Pairwise fun a b => a.1 < b.1
  pins : ∀ venv ∈ r.venvs,
    decodePins repr "snapshot venv" true venv.1 (texts venv.2) = .ok venv.2
  runtime : r.runtime.Pairwise fun a b => a.1 < b.1
  groups : r.venvGroups.Pairwise fun a b => a.1 < b.1
  members : ∀ group ∈ r.venvGroups, sortedBy id group.2 = group.2
  inProcess : sortedBy id r.inProcess = r.inProcess
  runtimePins : r.runtimePins.Pairwise fun a b => a.1 < b.1

theorem decodePins_sorted {label pack : String} {allowHashes : Bool} {v : Value}
    {pins : List String} (read : decodePins repr label allowHashes pack v = .ok pins) :
    sortedBy id pins = pins := by
  unfold decodePins at read
  split at read
  · obtain ⟨found,_,rfl⟩ := map_ok.mp read
    exact sortedBy_sortedBy _
  · cases read

theorem sortedPairs_strict {pairs : List (String × List String)}
    (strict : pairs.Pairwise fun a b => a.1 < b.1) :
    sortedPairs pairs = pairs.map fun p => (p.1,sortedBy id p.2) := by
  have distinct := ((strict_iff _).mp strict).1
  rw [sortedPairs,Dict.entries_ofList distinct,sortedBy_of_strict]
  exact List.pairwise_map.mpr strict

theorem map_sorted {pairs : List (String × List String)}
    (sorted : ∀ p ∈ pairs, sortedBy id p.2 = p.2) :
    (pairs.map fun p => (p.1,sortedBy id p.2)) = pairs := by
  refine (List.map_congr_left fun p inside => ?_).trans (List.map_id' _)
  rw [sorted p inside]

section

variable {r : SnapshotRecord} {record : Object}

theorem venvs_iff (told : get? record "venvs" = (some (dictOf texts r.venvs)).map sortKeys) :
    (∃ found, decodeSnapshotVenvs repr record = .ok found ∧ sortedPairs found = r.venvs) ↔
      (r.venvs.Pairwise fun a b => a.1 < b.1) ∧ ∀ venv ∈ r.venvs,
        decodePins repr "snapshot venv" true venv.1 (texts venv.2) = .ok venv.2 := by
  obtain ⟨ms,same⟩ := dictOf_obj texts r.venvs
  rw [Option.map_some,same] at told
  have back := @members_iff _ (decodePins repr "snapshot venv" true) _ _ _ same
  simp only [sortKeys_texts] at back
  have decoded : decodeSnapshotVenvs repr record = ms.mapM fun m =>
      (decodePins repr "snapshot venv" true m.1 m.2).map (m.1,·) := by
    rw [decodeSnapshotVenvs,told]
  rw [decoded,← back]
  constructor
  · rintro ⟨found,read,listed⟩
    have sorted : ∀ p ∈ found, sortedBy id p.2 = p.2 := by
      intro p inside
      obtain ⟨m,_,done⟩ := mapM_image read p inside
      obtain ⟨pins,read,rfl⟩ := map_ok.mp done
      exact decodePins_sorted read
    rw [sortedPairs_strict (members_strict same read),map_sorted sorted] at listed
    rwa [← listed]
  · intro read
    obtain ⟨strict,pins⟩ := back.mp read
    refine ⟨r.venvs,read,?_⟩
    rw [sortedPairs_strict strict]
    exact map_sorted fun venv inside => decodePins_sorted (pins venv inside)

theorem snapshotGroups_iff (message : String) (told : get? record "venvGroups" =
      (only (r.venvGroups ≠ []) (dictOf texts r.venvGroups)).map sortKeys) :
    (∃ found, decodeMembers message (decodeGroup repr "snapshot") record "venvGroups" =
        .ok found ∧ sortedPairs (found.getD []) = r.venvGroups) ↔
      (r.venvGroups.Pairwise fun a b => a.1 < b.1) ∧
        ∀ group ∈ r.venvGroups, sortedBy id group.2 = group.2 := by
  by_cases empty : r.venvGroups = []
  · have read : decodeMembers message (decodeGroup repr "snapshot") record "venvGroups" =
        .ok none := by
      rw [decodeMembers,given,told]
      simp [only,empty]
    rw [read,empty]
    exact iff_of_true ⟨none,rfl,rfl⟩ ⟨.nil,nofun⟩
  · obtain ⟨ms,same⟩ := dictOf_obj texts r.venvGroups
    rw [only,if_pos empty,Option.map_some,same] at told
    have back := @members_iff _ (decodeGroup repr "snapshot") _ _ _ same
    rw [decodeMembers_told told]
    constructor
    · rintro ⟨found,decoded,listed⟩
      obtain ⟨pairs,read,rfl⟩ := map_ok.mp decoded
      have strict := members_strict same read
      rw [Option.getD_some,sortedPairs_strict strict] at listed
      rw [← listed]
      refine ⟨List.pairwise_map.mpr strict,fun group inside => ?_⟩
      obtain ⟨p,_,rfl⟩ := List.mem_map.mp inside
      exact sortedBy_sortedBy _
    · rintro ⟨strict,sorted⟩
      refine ⟨some r.venvGroups,map_ok.mpr ⟨_,back.mpr ⟨strict,fun _ _ => group_back⟩,rfl⟩,?_⟩
      rw [Option.getD_some,sortedPairs_strict strict,map_sorted sorted]

theorem strings_iff {message : String} {pairs : List (String × String)} {ms : Object}
    (told : sortKeys (dictOf .str pairs) = .obj ms) :
    (∃ found, (ms.mapM fun m => (textMember message m.2).map (m.1,·)) = .ok found ∧
      sortedBy toLex (Dict.ofList found).entries = pairs) ↔
      pairs.Pairwise fun a b => a.1 < b.1 := by
  have back := @members_iff _ (fun _ => textMember message) _ _ _ told
  constructor
  · rintro ⟨found,read,listed⟩
    have strict := @members_strict _ (fun _ => textMember message) _ _ _ _ told read
    rw [Dict.entries_ofList ((strict_iff _).mp strict).1,lex_of_strict strict] at listed
    rwa [← listed]
  · intro strict
    refine ⟨pairs,back.mpr ⟨strict,fun _ _ => rfl⟩,?_⟩
    rw [Dict.entries_ofList ((strict_iff _).mp strict).1,lex_of_strict strict]

theorem runtime_iff (message : String) (told : get? record "runtime" =
      (only (r.runtime ≠ []) (dictOf .str r.runtime)).map sortKeys) :
    (∃ found, decodeMembers message (fun _ => textMember message) record "runtime" = .ok found ∧
      sortedBy toLex (Dict.ofList (found.getD [])).entries = r.runtime) ↔
      r.runtime.Pairwise fun a b => a.1 < b.1 := by
  by_cases empty : r.runtime = []
  · have read : decodeMembers message (fun _ => textMember message) record "runtime" =
        .ok none := by
      rw [decodeMembers,given,told]
      simp [only,empty]
    rw [read,empty]
    exact iff_of_true ⟨none,rfl,rfl⟩ .nil
  · obtain ⟨ms,same⟩ := dictOf_obj Value.str r.runtime
    rw [only,if_pos empty,Option.map_some,same] at told
    rw [decodeMembers_told told,← strings_iff same]
    constructor
    · rintro ⟨found,decoded,listed⟩
      obtain ⟨pairs,read,rfl⟩ := map_ok.mp decoded
      exact ⟨pairs,read,listed⟩
    · rintro ⟨pairs,read,listed⟩
      exact ⟨some pairs,map_ok.mpr ⟨pairs,read,rfl⟩,listed⟩

theorem snapshotPins_iff (told : get? record "runtimePins" =
      (only (r.runtimePins ≠ []) (dictOf .str r.runtimePins)).map sortKeys) :
    (∃ found, decodeRuntimePins "snapshot" record = .ok found ∧
      sortedBy toLex (Dict.ofList found).entries = r.runtimePins) ↔
      r.runtimePins.Pairwise fun a b => a.1 < b.1 := by
  rw [decodeRuntimePins,told]
  by_cases empty : r.runtimePins = []
  · simp only [only,empty,ne_eq,not_true_eq_false,if_false,Option.map_none]
    exact iff_of_true ⟨[],rfl,rfl⟩ .nil
  · obtain ⟨ms,same⟩ := dictOf_obj Value.str r.runtimePins
    simp only [only,empty,ne_eq,not_false_eq_true,if_true,Option.map_some,same]
    exact strings_iff same

theorem snapshot_readable (r : SnapshotRecord) :
    ∀ m ∈ r.members, ∀ v, m.2 = some v → v.Readable .plain := by
  intro m inside v held
  simp only [SnapshotRecord.members,List.mem_cons,List.not_mem_nil,or_false] at inside
  rcases inside with rfl | rfl | rfl | rfl | rfl | rfl | rfl | rfl | rfl | rfl | rfl
  · obtain rfl := Option.some.inj held
    trivial
  · obtain rfl := Option.some.inj held
    trivial
  · obtain rfl := Option.some.inj held
    trivial
  · obtain rfl := Option.some.inj held
    trivial
  · obtain rfl := Option.some.inj held
    trivial
  · obtain rfl := Option.some.inj held
    exact document_readable r.lockfile
  · obtain rfl := Option.some.inj held
    exact readable_dictOf fun p _ => readable_texts p.2
  · exact readable_only (readable_dictOf (f := .str) fun p _ => trivial) held
  · exact readable_only (readable_dictOf fun p _ => readable_texts p.2) held
  · exact readable_only (readable_texts _) held
  · exact readable_only (readable_dictOf (f := .str) fun p _ => trivial) held

theorem snapshot_iff (made : SnapshotRecord.build repr r = .ok r)
    (built : r.lockfile.Built wide packaging) :
    SnapshotRecord.fromRecordJson repr wide packaging r.recordJson = .ok r ↔
      r.Canonical repr := by
  obtain ⟨_,checked⟩ := build_ok.mp made
  have distinct : (r.members.map (·.1)).Nodup := by simp [SnapshotRecord.members]
  have told := told_member distinct
  have record := @readRecord_told "snapshot" "snapshot file" snapshotFormat _ distinct
    (snapshot_readable r) rfl
  rw [SnapshotRecord.fromRecordJson,SnapshotRecord.recordJson,record]
  have lockfile := @decodeLockfile_told _ _ _ _ "snapshot" "lockfile" _ _ built (told "lockfile")
  have python := @text_told _ _ repr "snapshot" r.python (told "python")
  have platform := @text_told _ _ repr "snapshot" r.platform (told "platform")
  have dinkster := @text_told _ _ repr "snapshot" r.dinkster (told "dinkster")
  have accelerator := @text_told _ _ repr "snapshot" r.accelerator (told "accelerator")
  have inProcess := @inProcess_told _ "snapshot" r.inProcess (told "inProcess")
  have venvs := @venvs_iff repr r _ (told "venvs")
  have runtime := @runtime_iff r _ "snapshot 'runtime' must be an object of strings"
    (told "runtime")
  have groups := @snapshotGroups_iff repr r _ "snapshot 'venvGroups' must be an object"
    (told "venvGroups")
  have pins := @snapshotPins_iff r _ (told "runtimePins")
  have same : ∀ v t g p, SnapshotRecord.of repr ⟨r.lockfile,v,r.python,r.platform,r.dinkster,
      r.accelerator,t,g,r.inProcess,p⟩ = .ok r ↔ sortedPairs v = r.venvs ∧
        sortedBy toLex (Dict.ofList t).entries = r.runtime ∧ sortedPairs g = r.venvGroups ∧
        sortedBy id r.inProcess = r.inProcess ∧
        sortedBy toLex (Dict.ofList p).entries = r.runtimePins := by
    intro v t g p
    rw [SnapshotRecord.of,build_ok,and_iff_left checked]
    constructor
    · intro listed
      exact ⟨congrArg SnapshotRecord.venvs listed,congrArg SnapshotRecord.runtime listed,
        congrArg SnapshotRecord.venvGroups listed,congrArg SnapshotRecord.inProcess listed,
        congrArg SnapshotRecord.runtimePins listed⟩
    · rintro ⟨first,second,third,fourth,fifth⟩
      rw [first,second,third,fourth,fifth]
  simp only [bind_ok,Except.ok.injEq,exists_eq_left',lockfile,python,platform,dinkster,accelerator,
    inProcess,same]
  constructor
  · rintro ⟨v,readV,t,readT,g,readG,p,readP,first,second,third,fourth,fifth⟩
    have listed := venvs.mp ⟨v,readV,first⟩
    have grouped := groups.mp ⟨g,readG,third⟩
    exact ⟨listed.1,listed.2,runtime.mp ⟨t,readT,second⟩,grouped.1,grouped.2,fourth,
      pins.mp ⟨p,readP,fifth⟩⟩
  · intro canonical
    obtain ⟨v,readV,first⟩ := venvs.mpr ⟨canonical.venvs,canonical.pins⟩
    obtain ⟨t,readT,second⟩ := runtime.mpr canonical.runtime
    obtain ⟨g,readG,third⟩ := groups.mpr ⟨canonical.groups,canonical.members⟩
    obtain ⟨p,readP,fifth⟩ := pins.mpr canonical.runtimePins
    exact ⟨v,readV,t,readT,g,readG,p,readP,first,second,third,canonical.inProcess,fifth⟩

end

end Dinkster.Install
