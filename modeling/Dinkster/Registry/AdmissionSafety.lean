import Dinkster.Registry.Admission

/-! What an admission has checked, what a recording does to the grant table and the release index,
and what every run of the registry keeps. -/
namespace Dinkster.Publish
open Names Registry Grants

variable {V K : Type} {host : Host V K} {table table' : List Grant} {index : ReleaseIndex}

def Grantable (host : Host V K) (table : List Grant) (publisher claim : String) : Prop :=
  evaluate host.wide table claim publisher = .ok .granted ∨
    evaluate host.wide table claim publisher = .ok .grantable ∨
    evaluate host.wide table claim publisher = .ok .free

instance (publisher claim : String) : Decidable (Grantable host table publisher claim) := by
  unfold Grantable
  infer_instance

theorem grantable_iff {publisher claim : String} : Grantable host table publisher claim ↔
    validateClaim claim = none ∧ reservedRoot host.wide claim = none ∧ ∀ g ∈ table,
      Apart host.wide g ⟨canonicalClaim host.wide claim,canonicalName host.wide publisher⟩ := by
  unfold Grantable
  cases grammar : validateClaim claim with
  | some problem => simp [evaluate,grammar]
  | none =>
    by_cases free : reservedRoot host.wide claim = none
    · rcases @evaluate_cases host.wide table claim publisher grammar free with
        ⟨taken,g,inside,clash⟩ | ⟨apart,status⟩
      · refine iff_of_false (by simp [taken]) fun can => clash (can.2.2 g inside)
      · refine iff_of_true ?_ ⟨rfl,free,apart⟩
        rcases status with ⟨granted,_⟩ | ⟨grantable | free,_⟩
        · exact .inl granted
        · exact .inr (.inl grantable)
        · exact .inr (.inr free)
    · simp [evaluate,grammar,free]

theorem ownerOf_grown {publisher claim : String} (grown : table <+: table')
    (held : ownerOf host.wide table claim = some publisher) :
    ownerOf host.wide table' claim = some publisher := by
  obtain ⟨added,rfl⟩ := grown
  unfold ownerOf at held ⊢
  obtain ⟨g,found,same⟩ := Option.map_eq_some_iff.mp held
  rw [List.find?_append,found]
  exact congrArg some same

/-- A claim that can be granted is its publisher's afterwards; what else can be granted to the
publisher stays as it was. -/
theorem grant_grantable {publisher claim : String} (can : Grantable host table publisher claim) :
    ∃ g table', grant host.wide table claim publisher = (.ok g,table') ∧ table <+: table' ∧
      ownerOf host.wide table' claim = some (canonicalName host.wide publisher) ∧
      (ownerOf host.wide table claim ≠ some (canonicalName host.wide publisher) →
        table' ≠ table) ∧
      ∀ other, Grantable host table' publisher other ↔ Grantable host table publisher other := by
  obtain ⟨_,_,apart⟩ := grantable_iff.mp can
  rcases grant_cases host.wide table claim publisher with
    ⟨problem,failed⟩ | ⟨_,_,⟨g,inside,held,same⟩ | ⟨added,absent⟩⟩
  · unfold grant at failed
    rcases can with can | can | can
    · simp only [can] at failed
      split at failed <;> simp at failed
    all_goals simp [can] at failed
  · have owned : ownerOf host.wide table claim = some (canonicalName host.wide publisher) := by
      unfold ownerOf
      cases found : table.find? (·.claim == canonicalClaim host.wide claim) with
      | none =>
        have other := List.find?_eq_none.mp found g inside
        simp [same] at other
      | some h =>
        have named : h.claim = canonicalClaim host.wide claim := by
          simpa using List.find?_some found
        by_contra other
        have free := apart h (List.mem_of_find?_eq_some found) fun same => other (by simp [same])
        rw [named,conflict_self] at free
        contradiction
    exact ⟨g,table,held,List.prefix_rfl,owned,fun other => absurd owned other,fun _ => Iff.rfl⟩
  · refine ⟨_,_,added,List.prefix_append _ _,?_,?_,fun other => ?_⟩
    · unfold ownerOf
      rw [List.find?_append,List.find?_eq_none.mpr (by simpa using absent)]
      simp
    · intro _ same
      simpa using congrArg List.length same
    · rw [grantable_iff,grantable_iff]
      refine and_congr_right fun _ => and_congr_right fun _ => ?_
      constructor
      · exact fun free g inside => free g (List.mem_append_left _ inside)
      · intro free g inside
        rcases List.mem_append.mp inside with old | new
        · exact free g old
        · obtain rfl := List.mem_singleton.mp new
          exact fun other => absurd rfl other

theorem grant_refused {publisher claim : String} (cannot : ¬ Grantable host table publisher claim) :
    ∃ problem, grant host.wide table claim publisher = (.error problem,table) := by
  unfold Grantable at cannot
  unfold grant
  cases status : evaluate host.wide table claim publisher with
  | error problem => exact ⟨problem,rfl⟩
  | ok status' =>
    cases status' with
    | deniedReserved => exact ⟨_,rfl⟩
    | deniedTaken => exact ⟨_,rfl⟩
    | granted => simp [status] at cannot
    | grantable => simp [status] at cannot
    | free => simp [status] at cannot

theorem grantAll_all {publisher : String} {claims : List String}
    (can : ∀ claim ∈ claims, Grantable host table publisher claim) :
    ∃ table', grantAll host table publisher claims = (.ok (),table') ∧ table <+: table' ∧
      ∀ claim ∈ claims,
        ownerOf host.wide table' claim = some (canonicalName host.wide publisher) := by
  induction claims generalizing table with
  | nil => exact ⟨table,rfl,List.prefix_rfl,nofun⟩
  | cons claim claims ih =>
    obtain ⟨g,next,granted,grown,owned,_,others⟩ := grant_grantable (can claim List.mem_cons_self)
    obtain ⟨final,rest,grown',owned'⟩ := ih fun claim inside =>
      (others claim).mpr (can claim (List.mem_cons_of_mem _ inside))
    refine ⟨final,?_,grown.trans grown',List.forall_mem_cons.mpr ⟨ownerOf_grown grown' owned,owned'⟩⟩
    simp only [grantAll,granted]
    exact rest

theorem grantAll_some {publisher : String} {claims : List String}
    (cannot : ¬ ∀ claim ∈ claims, Grantable host table publisher claim) :
    ∃ problem table', grantAll host table publisher claims = (.error problem,table') ∧
      table <+: table' := by
  induction claims generalizing table with
  | nil => exact absurd nofun cannot
  | cons claim claims ih =>
    by_cases can : Grantable host table publisher claim
    · obtain ⟨g,next,granted,grown,_,_,others⟩ := grant_grantable can
      have cannot' : ¬ ∀ claim ∈ claims, Grantable host next publisher claim := fun all =>
        cannot (List.forall_mem_cons.mpr ⟨can,fun c inside => (others c).mp (all c inside)⟩)
      obtain ⟨problem,final,failed,grown'⟩ := ih cannot'
      refine ⟨problem,final,?_,grown.trans grown'⟩
      simp only [grantAll,granted]
      exact failed
    · obtain ⟨problem,refused⟩ := grant_refused can
      refine ⟨problem,table,?_,List.prefix_rfl⟩
      simp only [grantAll,refused]

theorem grantAll_grown (publisher : String) (claims : List String) :
    table <+: (grantAll host table publisher claims).2 := by
  by_cases can : ∀ claim ∈ claims, Grantable host table publisher claim
  · obtain ⟨_,granted,grown,_⟩ := grantAll_all can
    rwa [granted]
  · obtain ⟨_,_,refused,grown⟩ := grantAll_some can
    rwa [refused]

theorem grantAll_changed {publisher first : String} {rest : List String}
    (can : Grantable host table publisher first)
    (new : ownerOf host.wide table first ≠ some (canonicalName host.wide publisher)) :
    (grantAll host table publisher (first :: rest)).2 ≠ table := by
  obtain ⟨g,next,granted,grown,_,changed,_⟩ := grant_grantable can
  have grown' := @grantAll_grown V K host next publisher rest
  simp only [grantAll,granted]
  intro same
  rw [same] at grown'
  exact changed new (grown'.eq_of_length_le grown.length_le)

section

variable (host) (s : Submission) (verdict : Verdict) (review : ReviewLog) (table)

def Due : Prop := verdict.state ≠ .rejected ∧ review.state = .accepted ∧
  (verdict.newClaims.map (canonicalClaim host.wide)).toFinset = (requiredNew host s table).toFinset

def keyOf : String × String := (canonicalName host.wide s.packName,s.version)

/-- Nothing is left half done: there is nothing to grant, or the first claim is refused, or all of
them are granted and no other bytes are published as this version. -/
def Whole (order : Order) (index : ReleaseIndex) : Prop := Due host table s verdict review →
  ∀ first rest, order.arrange (requiredNew host s table) = first :: rest →
    Grantable host table s.publisher first →
    (∀ claim ∈ rest, Grantable host table s.publisher claim) ∧
    ∀ release, index.get? (keyOf host s) = some release → release.artifactDigest = s.artifactDigest

end

variable {s : Submission} {verdict : Verdict} {review : ReviewLog} {order : Order}

theorem versionText_ok {text version : String} (read : versionText host text = .ok version) :
    version = text ∧ ∃ v, parseVersion host.packaging text = some v := by
  unfold versionText at read
  cases parsed : parseVersion host.packaging text with
  | none => simp [parsed] at read
  | some v =>
    simp only [parsed,Except.ok.injEq] at read
    exact ⟨by rw [← read,parseVersion_text parsed],v,rfl⟩

theorem record_cases (host : Host V K) (order : Order) (s : Submission) (verdict : Verdict)
    (review : ReviewLog) (table : List Grant) (index : ReleaseIndex) :
    (¬ Due host table s verdict review ∧ ∃ problem,
      recordAcceptance host order s verdict review table index = (.error problem,table,index)) ∨
    Due host table s verdict review ∧
      ((¬ ∀ claim ∈ requiredNew host s table, Grantable host table s.publisher claim) ∧
        (∃ problem, recordAcceptance host order s verdict review table index = (.error problem,
          (grantAll host table s.publisher (order.arrange (requiredNew host s table))).2,index)) ∨
      (∀ claim ∈ requiredNew host s table, Grantable host table s.publisher claim) ∧
        recordAcceptance host order s verdict review table index = landRelease host s
          (grantAll host table s.publisher (order.arrange (requiredNew host s table))).2 index) := by
  unfold recordAcceptance Due
  by_cases rejected : verdict.state = .rejected
  · exact .inl ⟨fun due => due.1 rejected,.rejected,by simp [rejected]⟩
  · by_cases accepted : review.state = .accepted
    · by_cases same : (verdict.newClaims.map (canonicalClaim host.wide)).toFinset =
          (requiredNew host s table).toFinset
      · refine .inr ⟨⟨rejected,accepted,same⟩,?_⟩
        simp only [rejected,accepted,same,ne_eq,not_true_eq_false,if_false]
        by_cases can : ∀ claim ∈ requiredNew host s table, Grantable host table s.publisher claim
        · obtain ⟨final,granted,_⟩ := grantAll_all fun claim inside =>
            can claim ((order.perm (requiredNew host s table)).mem_iff.mp inside)
          exact .inr ⟨can,by simp only [granted]⟩
        · obtain ⟨problem,final,refused,_⟩ := grantAll_some fun all => can fun claim inside =>
            all claim ((order.perm (requiredNew host s table)).mem_iff.mpr inside)
          exact .inl ⟨can,.grants problem,by simp only [refused]⟩
      · refine .inl ⟨fun due => same due.2.2,.mismatch (requiredNew host s table).mergeSort
          (verdict.newClaims.map (canonicalClaim host.wide)).dedup.mergeSort,?_⟩
        simp only [rejected,accepted,same,ne_eq,not_true_eq_false,not_false_eq_true,if_false,if_true]
    · exact .inl ⟨fun due => accepted due.2.1,.review review.state,by simp [rejected,accepted]⟩

theorem landRelease_cases (table : List Grant) (index : ReleaseIndex)
    (read : versionText host s.version = .ok s.version) :
    (∃ release, index.get? (keyOf host s) = some release ∧
      (release.artifactDigest = s.artifactDigest ∧
          landRelease host s table index = (.ok release,table,index) ∨
        release.artifactDigest ≠ s.artifactDigest ∧
          ∃ problem, landRelease host s table index = (.error problem,table,index))) ∨
    index.get? (keyOf host s) = none ∧ landRelease host s table index =
      (.ok (releaseOf host s s.version),table,
        index.set (keyOf host s) (releaseOf host s s.version)) := by
  unfold landRelease ReleaseIndex.add
  simp only [read]
  change _ ∨ index.get? ((releaseOf host s s.version).pack,s.version) = none ∧ _
  cases found : index.get? (keyOf host s) with
  | none =>
    refine .inr ⟨found,?_⟩
    have absent : index.get? ((releaseOf host s s.version).pack,
        (releaseOf host s s.version).version) = none := found
    simp only [absent]
    rfl
  | some release =>
    refine .inl ⟨release,rfl,?_⟩
    have present : index.get? ((releaseOf host s s.version).pack,
        (releaseOf host s s.version).version) = some release := found
    simp only [present]
    by_cases same : release.artifactDigest = s.artifactDigest
    · exact .inl ⟨same,by simp [releaseOf,same]⟩
    · refine .inr ⟨same,.immutable ⟨canonicalName host.wide s.packName,s.version,
        release.artifactDigest⟩,?_⟩
      simp only [releaseOf,same,if_false]

theorem raises_iff (read : versionText host s.version = .ok s.version) :
    (∀ problem, (recordAcceptance host order s verdict review table index).1 = .error problem →
      (recordAcceptance host order s verdict review table index).2 = (table,index)) ↔
      Whole host table s verdict review order index := by
  rcases record_cases host order s verdict review table index with
    ⟨early,problem,same⟩ | ⟨due,⟨cannot,problem,same⟩ | ⟨can,same⟩⟩
  · exact iff_of_true (fun _ _ => by rw [same]) fun due => absurd due early
  · rw [same]
    have listed := order.perm (requiredNew host s table)
    cases arranged : order.arrange (requiredNew host s table) with
    | nil =>
      rw [arranged] at listed
      rw [← listed.nil_eq] at cannot
      exact absurd (List.forall_mem_nil _) cannot
    | cons first rest =>
      by_cases grantable : Grantable host table s.publisher first
      · have inside : first ∈ requiredNew host s table :=
          listed.mem_iff.mp (by rw [arranged]; exact List.mem_cons_self)
        have changed := @grantAll_changed _ _ _ _ _ _ rest grantable
          (of_decide_eq_true (List.mem_filter.mp inside).2)
        refine iff_of_false (fun kept => ?_) fun whole => cannot ?_
        · exact changed (congrArg Prod.fst (kept problem rfl))
        · intro claim required
          have later := listed.mem_iff.mpr required
          rw [arranged] at later
          rcases List.mem_cons.mp later with rfl | later
          · exact grantable
          · exact (whole due first rest arranged grantable).1 claim later
      · refine iff_of_true (fun _ _ => ?_) fun _ first' rest' arranged' can => ?_
        · obtain ⟨_,refused⟩ := grant_refused grantable
          simp only [grantAll,refused]
        · obtain ⟨rfl,rfl⟩ := List.cons.inj (arranged.symm.trans arranged')
          exact absurd can grantable
  · rw [same]
    have listed := order.perm (requiredNew host s table)
    cases arranged : order.arrange (requiredNew host s table) with
    | nil =>
      refine iff_of_true (fun problem failed => ?_) fun _ _ _ arranged' => ?_
      · rcases landRelease_cases (grantAll host table s.publisher []).2 index read with
          ⟨release,_,⟨_,landed⟩ | ⟨_,_,landed⟩⟩ | ⟨_,landed⟩
        · simp [landed] at failed
        · rw [landed]
          rfl
        · simp [landed] at failed
      · cases arranged.symm.trans arranged'
    | cons first rest =>
      have all : ∀ claim ∈ first :: rest, Grantable host table s.publisher claim := by
        rw [← arranged]
        exact fun claim inside => can claim (listed.mem_iff.mp inside)
      have inside : first ∈ requiredNew host s table :=
        listed.mem_iff.mp (by rw [arranged]; exact List.mem_cons_self)
      have changed := @grantAll_changed _ _ _ _ _ _ rest (all first List.mem_cons_self)
        (of_decide_eq_true (List.mem_filter.mp inside).2)
      have others := (List.forall_mem_cons.mp all).2
      rcases landRelease_cases (grantAll host table s.publisher (first :: rest)).2 index read with
        ⟨release,found,⟨digest,landed⟩ | ⟨digest,problem,landed⟩⟩ | ⟨absent,landed⟩
      · rw [landed]
        refine iff_of_true nofun fun _ first' rest' arranged' _ => ?_
        obtain ⟨rfl,rfl⟩ := List.cons.inj (arranged.symm.trans arranged')
        exact ⟨others,fun held found' => Option.some.inj (found.symm.trans found') ▸ digest⟩
      · rw [landed]
        refine iff_of_false (fun kept => ?_) fun whole => ?_
        · exact changed (congrArg Prod.fst (kept problem rfl))
        · exact digest ((whole due first rest arranged (all first List.mem_cons_self)).2 _ found)
      · rw [landed]
        refine iff_of_true nofun fun _ first' rest' arranged' _ => ?_
        obtain ⟨rfl,rfl⟩ := List.cons.inj (arranged.symm.trans arranged')
        exact ⟨others,fun held found => by cases absent.symm.trans found⟩

theorem returns_owned (read : versionText host s.version = .ok s.version) {release : Release}
    (done : (recordAcceptance host order s verdict review table index).1 = .ok release) :
    ∀ claim ∈ claimsOf host s, ownerOf host.wide
      (recordAcceptance host order s verdict review table index).2.1 claim =
        some (canonicalName host.wide s.publisher) := by
  rcases record_cases host order s verdict review table index with
    ⟨_,_,same⟩ | ⟨_,⟨_,_,same⟩ | ⟨can,same⟩⟩
  · simp [same] at done
  · simp [same] at done
  · have listed := order.perm (requiredNew host s table)
    obtain ⟨final,granted,grown,owned⟩ := grantAll_all fun claim inside =>
      can claim (listed.mem_iff.mp inside)
    rw [same] at done ⊢
    have landed : (landRelease host s final index).2.1 = final := by
      rcases landRelease_cases final index read with
        ⟨_,_,⟨_,landed⟩ | ⟨_,_,landed⟩⟩ | ⟨_,landed⟩
      all_goals rw [landed]
    rw [granted] at done ⊢
    rw [landed]
    intro claim inside
    by_cases held : ownerOf host.wide table claim = some (canonicalName host.wide s.publisher)
    · exact ownerOf_grown grown held
    · refine owned claim (listed.mem_iff.mpr ?_)
      exact List.mem_filter.mpr ⟨inside,decide_eq_true held⟩

theorem record_index (host : Host V K) (order : Order) (verdict : Verdict) (review : ReviewLog)
    (table : List Grant) (index : ReleaseIndex)
    (read : versionText host s.version = .ok s.version) :
    (recordAcceptance host order s verdict review table index).2.2 = index ∨
    Due host table s verdict review ∧
      (∀ claim ∈ requiredNew host s table, Grantable host table s.publisher claim) ∧
      index.get? (keyOf host s) = none ∧
      (recordAcceptance host order s verdict review table index).2.2 =
        index.set (keyOf host s) (releaseOf host s s.version) := by
  rcases record_cases host order s verdict review table index with
    ⟨_,_,same⟩ | ⟨due,⟨_,_,same⟩ | ⟨can,same⟩⟩
  · exact .inl (by rw [same])
  · exact .inl (by rw [same])
  · rcases landRelease_cases (grantAll host table s.publisher
      (order.arrange (requiredNew host s table))).2 index read with
      ⟨_,_,⟨_,landed⟩ | ⟨_,_,landed⟩⟩ | ⟨absent,landed⟩
    · exact .inl (by rw [same,landed])
    · exact .inl (by rw [same,landed])
    · exact .inr ⟨due,can,absent,by rw [same,landed]⟩

def Covered (host : Host V K) (s : Submission) : Prop :=
  ∀ nodeType ∈ s.evidence.nodeTypes, nodeType ∉ s.executes →
    ∃ claim ∈ claimsOf host s, claimCovers host.wide claim nodeType = true

structure Admissible (host : Host V K) (index : ReleaseIndex) (s : Submission) : Prop where
  read : versionText host s.version = .ok s.version
  covered : Covered host s ∨ ∃ release, index.get? (keyOf host s) = some release ∧
    release.artifactDigest = s.artifactDigest

theorem claimFinding_keeps {publisher claim : String} {claimed claimed' : Claimed}
    (done : claimFinding host table publisher claimed claim = .ok claimed') :
    claimed.findings ⊆ claimed'.findings := by
  unfold claimFinding at done
  split at done
  · simp at done
  all_goals
    obtain rfl := Except.ok.inj done
    simp

theorem judge_ok {findings : List AdmissionFinding}
    (done : judge host table s findings = .ok verdict) (passed : verdict.state ≠ .rejected) :
    ∀ finding ∈ findings, finding.severity ≠ .error := by
  unfold judge at done
  obtain ⟨claimed,folded,done⟩ := Fallible.bind_ok.mp done
  have kept := Fallible.foldlM_keeps (P := fun c : Claimed => findings ⊆ c.findings)
    (fun claim _ c c' kept stepped f inside => claimFinding_keeps stepped (kept inside))
    (List.Subset.refl _) folded
  obtain rfl := Except.ok.inj done
  intro finding inside error
  have failed : claimed.findings.any (·.severity == .error) = true :=
    List.any_eq_true.mpr ⟨finding,kept inside,beq_iff_eq.mpr error⟩
  exact passed (by simp [failed,rejectedFor])

theorem coverageFindings_free
    (free : ∀ finding ∈ coverageFindings host s, finding.severity ≠ .error) : Covered host s := by
  intro nodeType loaded unlisted
  by_contra uncovered
  refine free _ (List.mem_map_of_mem (List.mem_filter.mpr ⟨loaded,?_⟩)) rfl
  simpa [unlisted] using uncovered

theorem admitRelease_ok (done : admitRelease host s table index = .ok verdict)
    (passed : verdict.state ≠ .rejected) : Admissible host index s := by
  unfold admitRelease at done
  dsimp only at done
  split at done
  · obtain rfl := Except.ok.inj done
    exact absurd rfl passed
  · obtain ⟨version,read,done⟩ := Fallible.bind_ok.mp done
    obtain ⟨rfl,_⟩ := versionText_ok read
    split at done
    · obtain rfl := Except.ok.inj done
      exact absurd rfl passed
    · split at done
      · have free := judge_ok done passed
        exact ⟨read,.inl (coverageFindings_free fun f inside =>
          free f (List.mem_append_right _ inside))⟩
      · rename_i release found
        split at done
        · rename_i same
          exact ⟨read,.inr ⟨release,found,same⟩⟩
        · have free := judge_ok done passed
          exact ⟨read,.inl (coverageFindings_free fun f inside =>
            free f (List.mem_append_left _ (List.mem_append_right _ inside)))⟩

end Dinkster.Publish
