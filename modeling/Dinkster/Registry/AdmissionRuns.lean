import Dinkster.Registry.AdmissionSafety

/-! Every run of the registry: submissions, reviews, recordings, grants and transfers in any order. -/
namespace Dinkster.Publish
open Names Registry Grants

variable {V K : Type} {host : Host V K} {state : State}

/-- A submission, admitted and accepted by its review, of which a release is made. -/
def Vouched (host : Host V K) (cases_ : List Case) (release : Release) : Prop :=
  ∃ c ∈ cases_, versionText host c.submission.version = .ok c.submission.version ∧
    release = releaseOf host c.submission c.submission.version ∧
    (∃ t ∈ c.review.transitions, t.toState = .accepted) ∧ Covered host c.submission

structure Founded (host : Host V K) (index : ReleaseIndex) (cases_ : List Case) : Prop where
  admissible : ∀ c ∈ cases_, c.verdict.state ≠ .rejected → Admissible host index c.submission
  vouched : ∀ key release, index.get? key = some release →
    key = (release.pack,release.version) ∧ Vouched host cases_ release

/-- What an index holds stays in it. -/
def Grows (index index' : ReleaseIndex) : Prop :=
  ∀ key release, index.get? key = some release → index'.get? key = some release

theorem Admissible.grow {index index' : ReleaseIndex} {s : Submission} (grows : Grows index index')
    (admissible : Admissible host index s) : Admissible host index' s := by
  obtain ⟨read,covered | ⟨release,found,same⟩⟩ := admissible
  · exact ⟨read,.inl covered⟩
  · exact ⟨read,.inr ⟨release,grows _ _ found,same⟩⟩

theorem recorded {c : Case} {order : Order} (founded : Founded host state.index state.cases)
    (inside : c ∈ state.cases) : (recording host state order c).2.2 = state.index ∨
    Due host state.table c.submission c.verdict c.review ∧
      (∀ claim ∈ requiredNew host c.submission state.table,
        Grantable host state.table c.submission.publisher claim) ∧
      state.index.get? (keyOf host c.submission) = none ∧
      (recording host state order c).2.2 = state.index.set (keyOf host c.submission)
        (releaseOf host c.submission c.submission.version) ∧
      Vouched host state.cases (releaseOf host c.submission c.submission.version) := by
  by_cases rejected : c.verdict.state = .rejected
  · left
    simp [recording,recordAcceptance,rejected]
  · obtain ⟨read,covered⟩ := founded.admissible c inside rejected
    rcases record_index host order c.verdict c.review state.table state.index read with
      same | ⟨due,can,absent,added⟩
    · exact .inl same
    · refine .inr ⟨due,can,absent,added,c,inside,read,rfl,?_,?_⟩
      · exact ⟨_,List.getLast_mem (List.cons_ne_nil _ _),due.2.1⟩
      · refine covered.resolve_right fun held => ?_
        obtain ⟨release,found,_⟩ := held
        cases absent.symm.trans found

theorem step_grows (founded : Founded host state.index state.cases) (move : Move) :
    Grows state.index (step host state move).index := by
  intro key release found
  cases move with
  | submit submission actor at_ =>
    simp only [step]
    split <;> exact found
  | advance i toState actor at_ reason =>
    simp only [step]
    split
    · exact found
    · split <;> exact found
  | grants call => exact found
  | record i order =>
    simp only [step]
    cases listed : state.cases[i]? with
    | none => exact found
    | some c =>
      rcases @recorded _ _ _ _ _ order founded (List.mem_of_getElem? listed) with
        same | ⟨_,_,absent,added,_⟩
      · simpa only [same] using found
      · simp only [added]
        rw [Dict.get?_set_ne _ _ ?_,found]
        rintro rfl
        cases absent.symm.trans found

theorem Vouched.map {cases_ cases' : List Case} {release : Release}
    (kept : ∀ c ∈ cases_, ∃ c' ∈ cases', c'.submission = c.submission ∧
      c.review.transitions ⊆ c'.review.transitions) (vouched : Vouched host cases_ release) :
    Vouched host cases' release := by
  obtain ⟨c,inside,read,made,⟨t,reviewed,accepted⟩,covered⟩ := vouched
  obtain ⟨c',inside',same,more⟩ := kept c inside
  refine ⟨c',inside',?_,?_,⟨t,more reviewed,accepted⟩,?_⟩
  all_goals rw [same]; assumption

theorem step_founded (founded : Founded host state.index state.cases) (move : Move) :
    Founded host (step host state move).index (step host state move).cases := by
  cases move with
  | submit submission actor at_ =>
    simp only [step]
    split
    · rename_i verdict review admitted started
      refine ⟨fun c inside passed => ?_,fun key release found => ?_⟩
      · rcases List.mem_append.mp inside with old | new
        · exact founded.admissible c old passed
        · obtain rfl := List.mem_singleton.mp new
          exact admitRelease_ok admitted passed
      · refine ⟨(founded.vouched key release found).1,(founded.vouched key release found).2.map ?_⟩
        exact fun c inside => ⟨c,List.mem_append_left _ inside,rfl,List.Subset.refl _⟩
    · exact founded
  | advance i toState actor at_ reason =>
    simp only [step]
    cases listed : state.cases[i]? with
    | none => exact founded
    | some c =>
      dsimp only
      split
      · rename_i review advanced
        have grown : c.review.transitions ⊆ review.transitions := by
          unfold ReviewLog.advance at advanced
          split at advanced
          · simp at advanced
          · split at advanced
            · simp at advanced
            · split at advanced
              · simp at advanced
              · obtain rfl := Except.ok.inj advanced
                exact List.cons_subset_cons _ (List.subset_append_left _ _)
        refine ⟨fun c' inside passed => ?_,fun key release found => ?_⟩
        · rcases List.mem_or_eq_of_mem_set inside with old | rfl
          · exact founded.admissible c' old passed
          · exact founded.admissible c (List.mem_of_getElem? listed) passed
        · refine ⟨(founded.vouched key release found).1,(founded.vouched key release found).2.map ?_⟩
          intro c' inside
          obtain ⟨j,at_j,same⟩ := List.getElem_of_mem inside
          obtain ⟨at_i,here⟩ := List.getElem?_eq_some_iff.mp listed
          by_cases other : i = j
          · subst other
            obtain rfl := here.symm.trans same
            exact ⟨_,List.mem_set at_i _,rfl,grown⟩
          · refine ⟨c',?_,rfl,List.Subset.refl _⟩
            refine List.mem_iff_getElem.mpr ⟨j,by simpa using at_j,?_⟩
            rw [List.getElem_set_ne other]
            exact same
      · exact founded
  | grants call => exact founded
  | record i order =>
    have grows := step_grows founded (.record i order)
    simp only [step] at grows ⊢
    cases listed : state.cases[i]? with
    | none => exact founded
    | some c =>
      simp only [listed] at grows ⊢
      refine ⟨fun c' inside passed => (founded.admissible c' inside passed).grow grows,?_⟩
      rcases @recorded _ _ _ _ _ order founded (List.mem_of_getElem? listed) with
        same | ⟨_,_,_,added,vouched⟩
      · rw [same]
        exact founded.vouched
      · rw [added]
        intro key release found
        rw [Dict.get?_set] at found
        split at found
        · obtain rfl := Option.some.inj found
          rename_i same
          exact ⟨same,vouched⟩
        · exact founded.vouched key release found

theorem run_append (moves more : List Move) :
    run host (moves ++ more) = more.foldl (step host) (run host moves) := List.foldl_append

theorem run_founded (moves : List Move) : Founded host (run host moves).index (run host moves).cases := by
  induction moves using List.reverseRecOn with
  | nil =>
    refine ⟨List.forall_mem_nil _,?_⟩
    intro key release found
    cases found
  | append_singleton moves move ih =>
    rw [run_append]
    exact step_founded ih move

theorem run_grows (moves more : List Move) :
    Grows (run host moves).index (run host (moves ++ more)).index := by
  induction more using List.reverseRecOn with
  | nil =>
    rw [List.append_nil]
    exact fun _ _ found => found
  | append_singleton more move ih =>
    rw [← List.append_assoc,run_append (moves ++ more)]
    exact fun key release found => step_grows (run_founded _) move _ _ (ih key release found)

section

variable [LinearOrder K]

def Tied (packaging : Packaging V K) (a b : String) : Prop :=
  a ≠ b ∧ versionLt packaging a b = some false ∧ versionLt packaging b a = some false

/-- A recording that gets past its checks and grants finds no release of its pack with an equal
version in another spelling. -/
def Untied (host : Host V K) (state : State) (i : Nat) : Prop := ∀ c, state.cases[i]? = some c →
  Due host state.table c.submission c.verdict c.review →
  (∀ claim ∈ requiredNew host c.submission state.table,
    Grantable host state.table c.submission.publisher claim) →
  ∀ release ∈ state.index.releases, release.pack = canonicalName host.wide c.submission.packName →
    ¬ Tied host.packaging release.version c.submission.version

theorem told {packaging : Packaging V K} {a b : String} (other : a ≠ b)
    (untied : ¬ Tied packaging a b) {v w : V} (left : parseVersion packaging a = some v)
    (right : parseVersion packaging b = some w) :
    versionLt packaging a b = some true ∨ versionLt packaging b a = some true := by
  have forth : versionLt packaging a b = some (decide (packaging.key v < packaging.key w)) :=
    versionLt_some.mpr ⟨v,w,left,right,rfl⟩
  have back : versionLt packaging b a = some (decide (packaging.key w < packaging.key v)) :=
    versionLt_some.mpr ⟨w,v,right,left,rfl⟩
  rw [forth,back]
  by_contra neither
  simp only [Option.some.injEq,decide_eq_true_eq,not_or] at neither
  exact untied ⟨other,by simp [forth,neither.1],by simp [back,neither.2]⟩

theorem step_ranked (founded : Founded host state.index state.cases) (move : Move)
    (untied : ∀ i order, move = .record i order → Untied host state i)
    (ranked : state.index.releases.Pairwise (Ranked host.packaging)) :
    (step host state move).index.releases.Pairwise (Ranked host.packaging) := by
  cases move with
  | submit submission actor at_ =>
    simp only [step]
    split <;> exact ranked
  | advance i toState actor at_ reason =>
    simp only [step]
    split
    · exact ranked
    · split <;> exact ranked
  | grants call => exact ranked
  | record i order =>
    simp only [step]
    cases listed : state.cases[i]? with
    | none => exact ranked
    | some c =>
      rcases @recorded _ _ _ _ _ order founded (List.mem_of_getElem? listed) with
        same | ⟨due,can,absent,added,c',_,read,made,_⟩
      · simpa only [same] using ranked
      · have fresh := (Dict.get?_eq_none_iff _ _).mp absent
        have appended : ReleaseIndex.releases (state.index.set (keyOf host c.submission)
            (releaseOf host c.submission c.submission.version)) =
            state.index.releases ++ [releaseOf host c.submission c.submission.version] := by
          unfold ReleaseIndex.releases
          rw [Dict.entries_set_fresh _ fresh,List.map_append]
          rfl
        simp only [added,appended]
        refine List.pairwise_append.mpr ⟨ranked,List.pairwise_singleton _ _,?_⟩
        rintro r inside _ new pack
        obtain rfl := List.mem_singleton.mp new
        obtain ⟨⟨key,r⟩,held,rfl⟩ := List.mem_map.mp inside
        have found := (Dict.get?_eq_some_iff _ _ _).mpr held
        obtain ⟨rfl,c'',_,read',made',_⟩ := founded.vouched key r found
        have version : c'.submission.version = c.submission.version :=
          (congrArg Release.version made).symm
        obtain ⟨_,w,right⟩ := versionText_ok read
        obtain ⟨_,v,left⟩ := versionText_ok read'
        rw [version] at right
        have version' : r.version = c''.submission.version := congrArg Release.version made'
        rw [← version'] at left
        refine told (fun same => fresh ?_) (untied i order rfl c listed due can r inside pack)
          left right
        have key : keyOf host c.submission = (r.pack,r.version) := by rw [pack,same]; rfl
        rw [key]
        exact (Dict.mem_keys_iff _ _).mpr ⟨r,found⟩

theorem run_ranked (moves : List Move)
    (untied : ∀ before i order after, moves = before ++ .record i order :: after →
      Untied host (run host before) i) :
    (run host moves).index.releases.Pairwise (Ranked host.packaging) := by
  induction moves using List.reverseRecOn with
  | nil => exact .nil
  | append_singleton moves move ih =>
    rw [run_append]
    refine step_ranked (run_founded moves) move ?_ (ih ?_)
    · rintro i order rfl
      exact untied moves i order [] rfl
    · rintro before i order after rfl
      exact untied before i order (after ++ [move]) (by simp)

/-- In every run: a recording that raises changes nothing exactly where it is whole, one that
returns has granted every claim to its publisher, every release was accepted by its review and its
claims cover what it loads but does not execute, and releases stay as they are. Where no recording
lands a version that equals another one of its pack, equal versions are one release and the template
catalog does not depend on the order of publication. -/
theorem publishing_lands (host : Host V K) (moves : List Move) :
    (∀ c ∈ (run host moves).cases, ∀ order,
      ((∀ problem, (recording host (run host moves) order c).1 = .error problem →
          (recording host (run host moves) order c).2 =
            ((run host moves).table,(run host moves).index)) ↔
        Whole host (run host moves).table c.submission c.verdict c.review order
          (run host moves).index) ∧
      ∀ release, (recording host (run host moves) order c).1 = .ok release →
        ∀ claim ∈ claimsOf host c.submission,
          ownerOf host.wide (recording host (run host moves) order c).2.1 claim =
            some (canonicalName host.wide c.submission.publisher)) ∧
    (∀ release ∈ (run host moves).index.releases, Vouched host (run host moves).cases release) ∧
    (∀ more, Grows (run host moves).index (run host (moves ++ more)).index) ∧
    ((∀ before i order after, moves = before ++ .record i order :: after →
        Untied host (run host before) i) →
      (∀ r ∈ (run host moves).index.releases, ∀ r' ∈ (run host moves).index.releases,
        r.pack = r'.pack → ∀ v w, parseVersion host.packaging r.version = some v →
        parseVersion host.packaging r'.version = some w →
        host.packaging.key v = host.packaging.key w → r = r') ∧
      ∃ rows, ∀ releases', releases'.Perm (run host moves).index.releases →
        templateCatalog host.packaging releases' = some rows) := by
  have founded := @run_founded V K host moves
  refine ⟨fun c inside order => ?_,fun release inside => ?_,run_grows moves,fun untied => ?_⟩
  · by_cases rejected : c.verdict.state = .rejected
    · have refused : recording host (run host moves) order c =
          (.error .rejected,(run host moves).table,(run host moves).index) := by
        simp [recording,recordAcceptance,rejected]
      rw [refused]
      exact ⟨iff_of_true (fun _ _ => rfl) fun due => absurd rejected due.1,nofun⟩
    · have read := (founded.admissible c inside rejected).read
      exact ⟨raises_iff read,fun release => returns_owned read⟩
  · obtain ⟨⟨key,release⟩,held,rfl⟩ := List.mem_map.mp inside
    exact (founded.vouched key release ((Dict.get?_eq_some_iff _ _ _).mpr held)).2
  · have ranked := run_ranked moves untied
    constructor
    · intro r inside r' inside' pack v w left right same
      by_contra other
      have apart := ranked.forall inside inside' other pack
      have less (a b : String) (v w : V) (left : parseVersion host.packaging a = some v)
          (right : parseVersion host.packaging b = some w)
          (same : host.packaging.key v = host.packaging.key w) :
          versionLt host.packaging a b ≠ some true := by
        intro older
        obtain ⟨v',w',left',right',below⟩ := versionLt_some.mp older
        obtain rfl := Option.some.inj (left.symm.trans left')
        obtain rfl := Option.some.inj (right.symm.trans right')
        exact (of_decide_eq_true below.symm).ne same
      rcases apart with older | newer
      · exact less _ _ v w left right same older
      · exact less _ _ w v right left same.symm newer
    · obtain ⟨rows,_,every⟩ := catalog_perm ranked
      exact ⟨rows,every⟩

end

theorem publishing_lands_alpha :
    let host : Host String Nat := ⟨fun c => [c],⟨fun t => if t = "1.0" then some t else none,id,
      fun _ => false,fun _ => 0⟩,id⟩
    let order : Order := ⟨id,fun _ => .refl _⟩
    let submission : Submission := ⟨"a","alpha",["gamma"],"1.0",
      "blake3:" ++ String.ofList (List.replicate 64 '0'),⟨"alpha",true,["gamma.Blur"],[]⟩,[],[]⟩
    let state := run host [.submit submission "a" "",.advance 0 .accepted "b" "" ""]
    let state' := run host [.submit submission "a" "",.advance 0 .accepted "b" "" "",
      .record 0 order]
    (∀ c ∈ state.cases, ownerOf host.wide (recording host state order c).2.1 "gamma" = some "a") ∧
    state'.index.releases = [releaseOf host submission "1.0"] ∧
    ∃ rows, templateCatalog host.packaging state'.index.releases = some rows := by
  intro host order submission state state'
  refine ⟨fun c inside => ?_,by decide +kernel,?_⟩
  · have whole := (publishing_lands host
      [.submit submission "a" "",.advance 0 .accepted "b" "" ""]).1 c inside order
    have returned : ∀ c ∈ state.cases,
        (recording host state order c).1 = .ok (releaseOf host submission "1.0") ∧
        "gamma" ∈ claimsOf host c.submission ∧
        canonicalName host.wide c.submission.publisher = "a" := by
      decide +kernel
    obtain ⟨done,claimed,named⟩ := returned c inside
    rw [← named]
    exact whole.2 _ done "gamma" claimed
  · have untied : ∀ before i order' after, [.submit submission "a" "",
        .advance 0 .accepted "b" "" "",.record 0 order] = before ++ Move.record i order' :: after →
        Untied host (run host before) i := by
      rintro before i order' after split c _ _ _ release inside
      have short : before = [.submit submission "a" "",.advance 0 .accepted "b" "" ""] := by
        match before with
        | [] => simp at split
        | [_] => simp at split
        | [_,_] =>
          obtain ⟨rfl,rest⟩ := List.cons.inj split
          obtain ⟨rfl,_⟩ := List.cons.inj rest
          rfl
        | _ :: _ :: _ :: _ => simp at split
      rw [short] at inside
      have empty : (run host [.submit submission "a" "",
        .advance 0 .accepted "b" "" ""]).index.releases = [] := by decide +kernel
      rw [empty] at inside
      cases inside
    obtain ⟨rows,every⟩ := ((publishing_lands host _).2.2.2 untied).2
    exact ⟨rows,every _ (.refl _)⟩

/-- `gamma` is granted for a release that is then refused, and `1.0` and `1.0.0` are both published. -/
theorem half_landed :
    let host : Host String Nat := ⟨fun c => [c],⟨fun t => if t = "1.0" ∨ t = "1.0.0" then some t
      else none,id,fun _ => false,fun _ => 0⟩,id⟩
    let order : Order := ⟨id,fun _ => .refl _⟩
    let digest (digit : Char) := "blake3:" ++ String.ofList (List.replicate 64 digit)
    let submission (version : String) (namespaces : List String) (digit : Char) : Submission :=
      ⟨"a","alpha",namespaces,version,digest digit,⟨"alpha",true,[],[]⟩,[],[]⟩
    let competing (other : Submission) : List Move := [.grants (.grant "alpha" "a"),
      .submit (submission "1.0" [] '0') "a" "",.submit other "a" "",
      .advance 0 .accepted "b" "" "",.advance 1 .accepted "b" "" "",.record 0 order]
    let state := run host (competing (submission "1.0" ["gamma"] '1'))
    let state' := run host (competing (submission "1.0.0" [] '1') ++ [.record 1 order])
    (state.table = [⟨"alpha","a"⟩] ∧
      state.cases[1]?.map (fun c => ((recording host state order c).1,
        (recording host state order c).2.1)) =
        some (.error (.immutable ⟨"alpha","1.0",digest '0'⟩),[⟨"alpha","a"⟩,⟨"gamma","a"⟩])) ∧
    state'.index.releases.map (fun r => (r.pack,r.version,r.artifactDigest)) =
      [("alpha","1.0",digest '0'),("alpha","1.0.0",digest '1')] := by
  decide +kernel
end Dinkster.Publish
