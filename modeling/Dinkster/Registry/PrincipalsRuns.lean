import Dinkster.Registry.PrincipalsSafety

/-! What holds of the principal directory after every sequence of calls: publishers have owners, the
tokens that verify are their minters' who never left, the audit log covers every change and the
directory can be restored. -/
namespace Dinkster.Principals
open Names Fallible

variable {runtime : Runtime} {d d' : Directory} {answer : Except RegistryError Answer}

theorem Kept.mono {publishers publishers' : Dict String String} {id : String} {t : TokenRecord}
    (kept : Kept runtime publishers id t) (names : ∀ p ∈ publishers.keys, p ∈ publishers'.keys) :
    Kept runtime publishers' id t :=
  ⟨kept.key,kept.hashed,names _ kept.publisher,kept.explained,kept.lasting⟩

theorem Placed.mono {publishers publishers' : Dict String String} {users users' : Finset String}
    {key : String × String} {m : Membership} (placed : Placed publishers users key m)
    (names : ∀ p ∈ publishers.keys, p ∈ publishers'.keys) (accounts : users ⊆ users') :
    Placed publishers' users' key m :=
  ⟨placed.key,names _ placed.publisher,accounts placed.user,placed.role⟩

theorem Sound.logged (sound : Sound runtime d) {rs : List AuditRecord}
    (logged : ∀ r ∈ rs, Logged runtime r) : ∀ r ∈ d.audit ++ rs, Logged runtime r := by
  intro r inside
  rcases List.mem_append.mp inside with old | new
  · exact sound.audit r old
  · exact logged r new

theorem logged_single {r : AuditRecord} (logged : Logged runtime r) :
    ∀ r' ∈ [r], Logged runtime r' := by
  intro r' inside
  rwa [List.mem_singleton.mp inside]

theorem publisher_sound (sound : Sound runtime d) {p owner : String} {r : AuditRecord}
    (valid : validateName p = none) (canonical : canonicalName runtime.wide p = p)
    (fresh : p ∉ d.publishers.keys) (known : owner ∈ d.users) (logged : Logged runtime r) :
    Sound runtime
      { d with
          publishers := d.publishers.set p p
          memberships := d.memberships.set (p,owner) ⟨owner,p,.owner⟩
          audit := d.audit ++ [r] } := by
  have names : ∀ q ∈ d.publishers.keys, q ∈ (d.publishers.set p p).keys :=
    fun q old => (Dict.mem_keys_set ..).mpr (.inr old)
  refine ⟨sound.named,?_,?_,?_,fun id t found => (sound.tokens id t found).mono names,?_,
    sound.logged (logged_single logged)⟩
  · intro q inside
    rcases (Dict.mem_keys_set ..).mp inside with rfl | old
    · exact ⟨valid,canonical⟩
    · exact sound.canonical q old
  · intro key m found
    rw [Dict.get?_set] at found
    split at found
    · rename_i same
      cases found
      exact ⟨same,(Dict.mem_keys_set ..).mpr (.inl rfl),known,rfl⟩
    · exact (sound.placed key m found).mono names subset_rfl
  · intro q inside
    rcases (Dict.mem_keys_set ..).mp inside with rfl | old
    · exact ⟨owner,⟨owner,q,.owner⟩,Dict.get?_set_self ..,rfl⟩
    · obtain ⟨user,m,found,owns⟩ := sound.owned q old
      refine ⟨user,m,?_,owns⟩
      rw [Dict.get?_set_ne]
      · exact found
      · rintro same
        exact fresh ((Prod.mk.inj same).1 ▸ old)
  · intro id t found usable
    exact (Dict.mem_keys_set ..).mpr (.inr (sound.minters id t found usable))

theorem display_sound (sound : Sound runtime d) {p name : String} {r : AuditRecord}
    (known : p ∈ d.publishers.keys) (logged : Logged runtime r) :
    Sound runtime { d with publishers := d.publishers.set p name, audit := d.audit ++ [r] } := by
  have keys := keys_set_present d.publishers name known
  have names : ∀ q ∈ d.publishers.keys, q ∈ (d.publishers.set p name).keys :=
    fun q old => keys ▸ old
  refine ⟨sound.named,fun q inside => sound.canonical q (keys ▸ inside),
    fun key m found => (sound.placed key m found).mono names subset_rfl,
    fun q inside => sound.owned q (keys ▸ inside),
    fun id t found => (sound.tokens id t found).mono names,sound.minters,
    sound.logged (logged_single logged)⟩

theorem member_sound (sound : Sound runtime d) {p user : String} {role : Role} {r : AuditRecord}
    (known : p ∈ d.publishers.keys) (account : user ∈ d.users) (valid : role.known = true)
    (fresh : (p,user) ∉ d.memberships.keys) (logged : Logged runtime r) :
    Sound runtime
      { d with memberships := d.memberships.set (p,user) ⟨user,p,role⟩, audit := d.audit ++ [r] } := by
  refine ⟨sound.named,sound.canonical,?_,?_,sound.tokens,?_,sound.logged (logged_single logged)⟩
  · intro key m found
    rw [Dict.get?_set] at found
    split at found
    · rename_i same
      cases found
      exact ⟨same,known,account,valid⟩
    · exact sound.placed key m found
  · intro q inside
    obtain ⟨user',m,found,owns⟩ := sound.owned q inside
    refine ⟨user',m,?_,owns⟩
    rw [Dict.get?_set_ne]
    · exact found
    · intro same
      exact fresh (same ▸ (Dict.mem_keys_iff _ _).mpr ⟨m,found⟩)
  · intro id t found usable
    exact (Dict.mem_keys_set ..).mpr (.inr (sound.minters id t found usable))

theorem role_sound (sound : Sound runtime d) {p user : String} {m : Membership} {role : Role}
    {r : AuditRecord} (found : d.memberships.get? (p,user) = some m) (valid : role.known = true)
    (guarded : m.role = .owner → role ≠ .owner → ∃ user' m',
      d.memberships.get? (p,user') = some m' ∧ m'.role = .owner ∧ user' ≠ user)
    (logged : Logged runtime r) :
    Sound runtime
      { d with
          memberships := d.memberships.set (p,user) { m with role := role }
          audit := d.audit ++ [r] } := by
  refine ⟨sound.named,sound.canonical,?_,?_,sound.tokens,?_,sound.logged (logged_single logged)⟩
  · intro key m' found'
    rw [Dict.get?_set] at found'
    split at found'
    · rename_i same
      cases found'
      have placed := sound.placed _ _ found
      exact ⟨same.trans placed.key,placed.publisher,placed.user,valid⟩
    · exact sound.placed key m' found'
  · intro q inside
    obtain ⟨user',m',found',owns⟩ := sound.owned q inside
    by_cases same : (q,user') = (p,user)
    · rw [same,found] at found'
      cases found'
      obtain ⟨rfl,rfl⟩ := Prod.mk.inj same
      by_cases stays : role = .owner
      · exact ⟨user',_,Dict.get?_set_self ..,stays⟩
      · obtain ⟨other,m',found',owns',different⟩ := guarded owns stays
        refine ⟨other,m',?_,owns'⟩
        rw [Dict.get?_set_ne]
        · exact found'
        · exact fun same => different (Prod.mk.inj same).2
    · refine ⟨user',m',?_,owns⟩
      rw [Dict.get?_set_ne _ _ same]
      exact found'
  · intro id t held usable
    exact (Dict.mem_keys_set ..).mpr (.inr (sound.minters id t held usable))

theorem removed_sound (sound : Sound runtime d) {p user reason : String} {m : Membership}
    {tokens : Dict String TokenRecord} {rs : List AuditRecord}
    (found : d.memberships.get? (p,user) = some m)
    (guarded : m.role = .owner → ∃ user' m',
      d.memberships.get? (p,user') = some m' ∧ m'.role = .owner ∧ user' ≠ user)
    (explained : reason ≠ "")
    (revoked : ∀ id, tokens.get? id = (d.tokens.get? id).map (orphan p user reason))
    (logged : ∀ r ∈ rs, Logged runtime r) :
    Sound runtime
      { d with
          memberships := d.memberships.erase (p,user)
          tokens := tokens
          audit := d.audit ++ rs } := by
  refine ⟨sound.named,sound.canonical,?_,?_,?_,?_,sound.logged logged⟩
  · intro key m' found'
    rw [Dict.get?_erase] at found'
    split at found'
    · contradiction
    · exact sound.placed key m' found'
  · intro q inside
    obtain ⟨user',m',found',owns⟩ := sound.owned q inside
    by_cases same : (q,user') = (p,user)
    · rw [same,found] at found'
      cases found'
      obtain ⟨rfl,rfl⟩ := Prod.mk.inj same
      obtain ⟨other,m',found',owns',different⟩ := guarded owns
      refine ⟨other,m',?_,owns'⟩
      rw [Dict.get?_erase,if_neg fun same => different (Prod.mk.inj same).2]
      exact found'
    · refine ⟨user',m',?_,owns⟩
      rw [Dict.get?_erase,if_neg same]
      exact found'
  · intro id t held
    rw [revoked] at held
    obtain ⟨t,stored,rfl⟩ := Option.map_eq_some_iff.mp held
    have kept := sound.tokens id t stored
    unfold orphan
    split
    · exact ⟨kept.key,kept.hashed,kept.publisher,fun _ => explained,kept.lasting⟩
    · exact kept.mono fun _ old => old
  · intro id t held usable
    rw [revoked] at held
    obtain ⟨t,stored,rfl⟩ := Option.map_eq_some_iff.mp held
    unfold orphan at usable ⊢
    split at usable
    · contradiction
    · rename_i other
      rw [if_neg other]
      refine (Dict.mem_keys_erase ..).mpr ⟨sound.minters id t stored usable,fun same => other ?_⟩
      obtain ⟨publisher,minter⟩ := Prod.mk.inj same
      exact ⟨publisher,minter,usable⟩

theorem Change.sound (sound : Sound runtime d) (change : Change runtime d answer d') :
    Sound runtime d' := by
  cases change with
  | failed | looked => exact sound
  | user user named =>
    refine ⟨?_,sound.canonical,fun key m found => ?_,sound.owned,sound.tokens,sound.minters,
      sound.audit⟩
    · rw [Finset.mem_insert,not_or]
      exact ⟨Ne.symm named,sound.named⟩
    · exact (sound.placed key m found).mono (fun _ old => old) (Finset.subset_insert ..)
  | publisher p owner r valid canonical fresh known logged =>
    exact publisher_sound sound valid canonical fresh known logged
  | display p name r known logged => exact display_sound sound known logged
  | member p user role r known account valid fresh logged =>
    exact member_sound sound known account valid fresh logged
  | role p user m role r found valid guarded logged =>
    exact role_sound sound found valid guarded logged
  | removed p user reason m tokens rs found guarded explained same revoked logged each =>
    exact removed_sound sound found guarded explained revoked logged
  | minted plaintext t r fresh kept usable member logged =>
    refine ⟨sound.named,sound.canonical,sound.placed,sound.owned,fun id t' found => ?_,
      fun id t' found usable' => ?_,sound.logged (logged_single logged)⟩
    · rw [Dict.get?_set] at found
      split at found
      · rename_i same
        cases found
        rw [same]
        exact kept
      · exact sound.tokens id t' found
    · rw [Dict.get?_set] at found
      split at found
      · cases found
        exact member
      · exact sound.minters id t' found usable'
  | revoked t reason r found explained logged =>
    have kept := sound.tokens _ _ found
    refine ⟨sound.named,sound.canonical,sound.placed,sound.owned,fun id t' found' => ?_,
      fun id t' found' usable => ?_,sound.logged (logged_single logged)⟩
    · rw [Dict.get?_set] at found'
      split at found'
      · rename_i same
        cases found'
        exact ⟨same,kept.hashed,kept.publisher,fun _ => explained,kept.lasting⟩
      · exact sound.tokens id t' found'
    · rw [Dict.get?_set] at found'
      split at found'
      · cases found'
        contradiction
      · exact sound.minters id t' found' usable
  | recorded r logged =>
    exact ⟨sound.named,sound.canonical,sound.placed,sound.owned,sound.tokens,sound.minters,
      sound.logged (logged_single logged)⟩

/-- Each changed entry of a table has a record of its own or one that it shares with another table's. -/
structure Audited (d d' : Directory) (rs : List AuditRecord) : Prop where
  grows : d'.audit = d.audit ++ rs
  publishers : (changed d.publishers d'.publishers).card ≤ rs.length
  memberships : (changed d.memberships d'.memberships).card ≤ rs.length
  tokens : (changed d.tokens d'.tokens).card ≤ rs.length

theorem unchanged {κ ν : Type} [DecidableEq κ] [DecidableEq ν] (d : Dict κ ν) (n : Nat) :
    (changed d d).card ≤ n := by
  rw [changed_self]
  exact Nat.zero_le n

theorem Change.audited (change : Change runtime d answer d') : ∃ rs, Audited d d' rs := by
  cases change with
  | failed | looked | user =>
    exact ⟨[],(List.append_nil _).symm,unchanged ..,unchanged ..,unchanged ..⟩
  | publisher p owner r => exact ⟨[r],rfl,changed_set ..,changed_set ..,unchanged ..⟩
  | display p name r => exact ⟨[r],rfl,changed_set ..,unchanged ..,unchanged ..⟩
  | member p user role r => exact ⟨[r],rfl,unchanged ..,changed_set ..,unchanged ..⟩
  | role p user m role r => exact ⟨[r],rfl,unchanged ..,changed_set ..,unchanged ..⟩
  | removed p user reason m tokens rs found guarded explained same revoked logged each =>
    exact ⟨rs,rfl,unchanged ..,(changed_erase ..).trans (Nat.one_le_of_lt each),each.le⟩
  | minted plaintext t r => exact ⟨[r],rfl,unchanged ..,unchanged ..,changed_set ..⟩
  | revoked t reason r => exact ⟨[r],rfl,unchanged ..,unchanged ..,changed_set ..⟩
  | recorded r => exact ⟨[r],rfl,unchanged ..,unchanged ..,unchanged ..⟩

theorem Change.failed_same {problem : RegistryError}
    (change : Change runtime d (.error problem) d') : d' = d := by
  cases change
  rfl

theorem Change.origin (change : Change runtime d answer d') {id : String} {t : TokenRecord}
    (found : d'.tokens.get? id = some t) (usable : t.revoked = false) :
    d.tokens.get? id = some t ∨ ∃ plaintext, answer = .ok (.minted plaintext t) := by
  cases change with
  | failed | looked | user | publisher | display | member | role | recorded => exact .inl found
  | removed p user reason m tokens rs found' guarded explained same revoked logged each =>
    rw [revoked] at found
    obtain ⟨t,stored,rfl⟩ := Option.map_eq_some_iff.mp found
    unfold orphan at usable ⊢
    split at usable
    · contradiction
    · rename_i other
      rw [if_neg other]
      exact .inl stored
  | minted plaintext t' r =>
    rw [Dict.get?_set] at found
    split at found
    · cases found
      exact .inr ⟨plaintext,rfl⟩
    · exact .inl found
  | revoked t' reason r found' =>
    rw [Dict.get?_set] at found
    split at found
    · cases found
      contradiction
    · exact .inl found

theorem Change.revoked_stays (change : Change runtime d answer d') {id : String} {t : TokenRecord}
    (found : d.tokens.get? id = some t) (gone : t.revoked = true) :
    ∃ t', d'.tokens.get? id = some t' ∧ t'.revoked = true := by
  cases change with
  | failed | looked | user | publisher | display | member | role | recorded => exact ⟨t,found,gone⟩
  | removed p user reason m tokens rs found' guarded explained same revoked logged each =>
    refine ⟨orphan p user reason t,?_,?_⟩
    · rw [revoked,found]
      rfl
    · unfold orphan
      split
      · rfl
      · exact gone
  | minted plaintext t' r fresh =>
    refine ⟨t,?_,gone⟩
    rw [Dict.get?_set_ne]
    · exact found
    · rintro rfl
      exact fresh ((Dict.mem_keys_iff _ _).mpr ⟨t,found⟩)
  | revoked t' reason r found' =>
    rw [Dict.get?_set]
    split
    · exact ⟨_,rfl,rfl⟩
    · exact ⟨t,found,gone⟩

theorem verifyToken_ok {presented at_ : String} {t : TokenRecord}
    (done : verifyToken runtime d presented at_ = .ok t) : (∃ id, d.tokens.get? id = some t) ∧
      t.revoked = false ∧ (∃ now expires, runtime.fromisoformat at_ = some now ∧
        runtime.fromisoformat t.expiresAt = some expires ∧ expires.le? now = some false) ∧
      (t.publisher,t.mintedBy) ∈ d.memberships.keys := by
  unfold verifyToken at done
  dsimp only at done
  split at done
  · contradiction
  · rename_i token found
    split at done
    · contradiction
    · split at done
      · contradiction
      · rename_i usable
        obtain ⟨now,read,done⟩ := bind_ok.mp done
        obtain ⟨expires,read',done⟩ := bind_ok.mp done
        split at done
        · contradiction
        · contradiction
        · rename_i later
          split at done
          · contradiction
          · rename_i member
            cases done
            exact ⟨⟨_,found⟩,by simpa using usable,
              ⟨now,expires,parseAt_ok.mp read,parseAt_ok.mp read',later⟩,not_not.mp member⟩

theorem run_snoc (calls : List Call) (call : Call) :
    run runtime (calls ++ [call]) = (perform runtime (run runtime calls) call).2 := by
  simp [run]

theorem run_sound (calls : List Call) : Sound runtime (run runtime calls) := by
  induction calls using List.reverseRecOn with
  | nil =>
    refine ⟨Finset.notMem_empty _,List.forall_mem_nil _,?_,List.forall_mem_nil _,?_,?_,
      List.forall_mem_nil _⟩
    · intro key m found
      cases found
    · intro id t found
      cases found
    · intro id t found
      cases found
  | append_singleton calls call ih =>
    rw [run_snoc]
    exact (perform_change ih call).sound ih

theorem run_minted (calls : List Call) {id : String} {t : TokenRecord}
    (found : (run runtime calls).tokens.get? id = some t) (usable : t.revoked = false) :
    ∃ before mint after plaintext, calls = before ++ mint :: after ∧
      (perform runtime (run runtime before) mint).1 = .ok (.minted plaintext t) ∧
      ∀ later, later <+: after →
        (t.publisher,t.mintedBy) ∈ (run runtime (before ++ mint :: later)).memberships.keys := by
  have member := (run_sound calls).minters id t found usable
  induction calls using List.reverseRecOn with
  | nil => cases found
  | append_singleton calls call ih =>
    rw [run_snoc] at found
    rcases (perform_change (run_sound calls) call).origin found usable with old | ⟨plaintext,answer⟩
    · obtain ⟨before,mint,after,plaintext,rfl,minted,stays⟩ :=
        ih old ((run_sound calls).minters id t old usable)
      refine ⟨before,mint,after ++ [call],plaintext,by simp,minted,fun later starts => ?_⟩
      rcases List.prefix_concat_iff.mp starts with rfl | starts
      · simpa using member
      · exact stays later starts
    · refine ⟨calls,call,[],plaintext,rfl,answer,fun later starts => ?_⟩
      rw [List.prefix_nil.mp starts]
      exact member

theorem run_revoked (calls later : List Call) {id : String} {t : TokenRecord}
    (found : (run runtime calls).tokens.get? id = some t) (gone : t.revoked = true) :
    ∃ t', (run runtime (calls ++ later)).tokens.get? id = some t' ∧ t'.revoked = true := by
  induction later using List.reverseRecOn with
  | nil =>
    rw [List.append_nil]
    exact ⟨t,found,gone⟩
  | append_singleton later call ih =>
    obtain ⟨t',found,gone⟩ := ih
    rw [← List.append_assoc,run_snoc]
    exact (perform_change (run_sound _) call).revoked_stays found gone

theorem restoreUsers_ok (users : List String) (named : "" ∉ users) : ∀ d : Directory,
    restoreUsers d users = .ok { d with users := users.toFinset ∪ d.users } := by
  induction users with
  | nil => exact fun d => by simp [restoreUsers]
  | cons user rest ih =>
    intro d
    rw [List.mem_cons,not_or] at named
    rw [restoreUsers,refuseIf,if_neg (Ne.symm named.1)]
    refine (ih named.2 _).trans ?_
    rw [List.toFinset_cons,Finset.union_insert,Finset.insert_union]

theorem Dict.eq_of_entries {κ ν : Type} {d e : Dict κ ν} (same : d.entries = e.entries) : d = e := by
  cases d
  cases e
  cases same
  rfl

theorem fresh_key {κ ν : Type} {whole part : Dict κ ν} {e : κ × ν} {rest : List (κ × ν)}
    (all : part.entries ++ e :: rest = whole.entries) : e.1 ∉ part.keys := by
  have distinct := whole.distinct
  rw [← all,List.map_append,List.map_cons] at distinct
  exact fun old => (List.nodup_append.mp distinct).2.2 _ old _ List.mem_cons_self rfl

theorem restorePublishers_ok (whole : Dict String String)
    (valid : ∀ p ∈ whole.keys, validateName p = none ∧ canonicalName runtime.wide p = p)
    (rest : List (String × String)) : ∀ publishers : Dict String String,
      publishers.entries ++ rest = whole.entries →
      restorePublishers runtime publishers rest = .ok whole := by
  induction rest with
  | nil =>
    intro publishers all
    rw [List.append_nil] at all
    exact congrArg _ (Dict.eq_of_entries all)
  | cons e rest ih =>
    intro publishers all
    have inside : e.1 ∈ whole.keys :=
      List.mem_map.mpr ⟨e,all ▸ List.mem_append_right _ List.mem_cons_self,rfl⟩
    have fresh := fresh_key all
    obtain ⟨name,canonical⟩ := valid e.1 inside
    have passed : requireName e.1 = .ok ⟨⟩ := by rw [requireName,name]
    refine bind_ok.mpr ⟨⟨⟩,passed,bind_ok.mpr ⟨⟨⟩,refuseIf_ok.mpr (not_not.mpr canonical),?_⟩⟩
    refine ih _ ?_
    rw [Dict.entries_set_fresh _ fresh,List.append_assoc]
    exact all

theorem restoreMemberships_ok (whole : Dict (String × String) Membership)
    (rest : List ((String × String) × Membership)) : ∀ d : Directory,
      (∀ key m, whole.get? key = some m → Placed d.publishers d.users key m) →
      d.memberships.entries ++ rest = whole.entries →
      restoreMemberships d (rest.map (·.2)) = .ok { d with memberships := whole } := by
  induction rest with
  | nil =>
    intro d _ all
    rw [List.append_nil] at all
    rw [List.map_nil,restoreMemberships,← Dict.eq_of_entries all]
  | cons e rest ih =>
    intro d placed all
    have inside : whole.get? e.1 = some e.2 := (Dict.get?_eq_some_iff whole e.1 e.2).mpr
      (all ▸ List.mem_append_right _ List.mem_cons_self)
    have place := placed _ _ inside
    have fresh := fresh_key all
    rw [place.key] at fresh
    refine bind_ok.mpr ⟨⟨⟩,refuseIf_ok.mpr (not_not.mpr place.publisher),bind_ok.mpr ⟨⟨⟩,
      refuseIf_ok.mpr (not_not.mpr place.user),bind_ok.mpr ⟨⟨⟩,
      refuseIf_ok.mpr (by simp [place.role]),bind_ok.mpr ⟨⟨⟩,refuseIf_ok.mpr fresh,?_⟩⟩⟩⟩
    refine ih _ placed ?_
    rw [Dict.entries_set_fresh _ fresh,List.append_assoc,← place.key]
    exact all

theorem restoreTokens_ok (whole : Dict String TokenRecord) (rest : List (String × TokenRecord)) :
    ∀ d : Directory, (∀ id t, whole.get? id = some t → Kept runtime d.publishers id t) →
      d.tokens.entries ++ rest = whole.entries →
      restoreTokens runtime d (rest.map (·.2)) = .ok { d with tokens := whole } := by
  induction rest with
  | nil =>
    intro d _ all
    rw [List.append_nil] at all
    rw [List.map_nil,restoreTokens,← Dict.eq_of_entries all]
  | cons e rest ih =>
    intro d kept all
    have inside : whole.get? e.1 = some e.2 := (Dict.get?_eq_some_iff whole e.1 e.2).mpr
      (all ▸ List.mem_append_right _ List.mem_cons_self)
    have keep := kept _ _ inside
    have fresh := fresh_key all
    rw [keep.key] at fresh
    obtain ⟨created,expires,read,read',later⟩ := keep.lasting
    refine bind_ok.mpr ⟨⟨⟩,refuseIf_ok.mpr (not_not.mpr keep.publisher),bind_ok.mpr ⟨⟨⟩,
      refuseIf_ok.mpr (not_not.mpr keep.hashed),bind_ok.mpr ⟨⟨⟩,refuseIf_ok.mpr fresh,bind_ok.mpr
      ⟨⟨⟩,refuseIf_ok.mpr fun blank => keep.explained blank.1 blank.2,bind_ok.mpr
      ⟨created,parseAt_ok.mpr read,bind_ok.mpr ⟨expires,parseAt_ok.mpr read',?_⟩⟩⟩⟩⟩⟩
    rw [later]
    refine ih _ kept ?_
    rw [Dict.entries_set_fresh _ fresh,List.append_assoc,← keep.key]
    exact all

theorem restoreAudit_ok (rest : List AuditRecord) (logged : ∀ r ∈ rest, Logged runtime r) :
    ∀ d : Directory, restoreAudit runtime d rest = .ok { d with audit := d.audit ++ rest } := by
  induction rest with
  | nil => exact fun d => by rw [restoreAudit,List.append_nil]
  | cons r rest ih =>
    intro d
    obtain ⟨named,parsed,read⟩ := logged r List.mem_cons_self
    refine bind_ok.mpr ⟨⟨⟩,refuseIf_ok.mpr named,bind_ok.mpr ⟨parsed,parseAt_ok.mpr read,?_⟩⟩
    rw [ih fun r' inside => logged r' (List.mem_cons_of_mem _ inside)]
    simp

theorem restore_sound (sound : Sound runtime d) {users : List String}
    (listed : users.toFinset = d.users) :
    restore runtime users d.publishers.entries (d.memberships.entries.map (·.2))
      (d.tokens.entries.map (·.2)) d.audit = .ok d := by
  have named : "" ∉ users := fun inside =>
    sound.named (listed ▸ List.mem_toFinset.mpr inside)
  refine bind_ok.mpr ⟨_,restoreUsers_ok users named .empty,?_⟩
  refine bind_ok.mpr ⟨d.publishers,restorePublishers_ok _ sound.canonical _ .empty rfl,?_⟩
  refine bind_ok.mpr ⟨_,restoreMemberships_ok d.memberships _ _ ?_ rfl,?_⟩
  · intro key m found
    have same : users.toFinset ∪ Directory.empty.users = d.users := by
      rw [listed]
      exact Finset.union_empty _
    simp only [same]
    exact sound.placed key m found
  refine bind_ok.mpr ⟨⟨⟩,?_,?_⟩
  · have owners : ∀ p ∈ d.publishers.keys, refuseIf (¬ (d.memberships.entries.map (·.2)).any
        fun member => member.publisher == p && member.role == .owner)
        (RegistryError.stored "publisher " p " restored without an owner") = .ok ⟨⟩ := by
      intro p inside
      obtain ⟨user,m,found,owns⟩ := sound.owned p inside
      refine refuseIf_ok.mpr (not_not.mpr (List.any_eq_true.mpr ⟨m,?_,?_⟩))
      · exact List.mem_map.mpr ⟨_,(Dict.get?_eq_some_iff _ _ _).mp found,rfl⟩
      · rw [← (Prod.mk.inj (sound.placed _ _ found).key).1,owns]
        simp
    revert owners
    induction d.publishers.keys with
    | nil => exact fun _ => rfl
    | cons p rest ih =>
      intro owners
      exact bind_ok.mpr ⟨⟨⟩,owners p List.mem_cons_self,
        ih fun q inside => owners q (List.mem_cons_of_mem _ inside)⟩
  · refine bind_ok.mpr ⟨_,restoreTokens_ok d.tokens _ _ sound.tokens rfl,?_⟩
    rw [restoreAudit_ok _ sound.audit,listed]
    simp [Directory.empty]

/-- For every sequence of calls: every publisher has an owner; a token that verifies was minted by
a call of a member who never left since, was never revoked and is not expired; the audit log grows
by a record for every change; a call that raises changes nothing; and the directory is restored from
its tables. -/
theorem directory_keeps (runtime : Runtime) (calls : List Call) :
    (∀ p ∈ (run runtime calls).publishers.keys, ∃ user m,
      (run runtime calls).memberships.get? (p,user) = some m ∧ m.role = .owner) ∧
    (∀ presented at_ t, (perform runtime (run runtime calls) (.verifyToken presented at_)).1 =
        .ok (.verified t) →
      (∃ before mint after plaintext, calls = before ++ mint :: after ∧
        (perform runtime (run runtime before) mint).1 = .ok (.minted plaintext t) ∧
        ∀ later, later <+: after →
          (t.publisher,t.mintedBy) ∈ (run runtime (before ++ mint :: later)).memberships.keys) ∧
      (t.publisher,t.mintedBy) ∈ (run runtime calls).memberships.keys ∧
      (∀ before, before <+: calls → ∀ t', (run runtime before).tokens.get? t.tokenId = some t' →
        t'.revoked = false) ∧
      ∃ now expires, runtime.fromisoformat at_ = some now ∧
        runtime.fromisoformat t.expiresAt = some expires ∧ expires.le? now = some false) ∧
    (∀ call, ∃ rs,
      Audited (run runtime calls) (perform runtime (run runtime calls) call).2 rs) ∧
    (∀ call problem, (perform runtime (run runtime calls) call).1 = .error problem →
      (perform runtime (run runtime calls) call).2 = run runtime calls) ∧
    ∀ users : List String, users.toFinset = (run runtime calls).users →
      restore runtime users (run runtime calls).publishers.entries
        ((run runtime calls).memberships.entries.map (·.2))
        ((run runtime calls).tokens.entries.map (·.2)) (run runtime calls).audit =
      .ok (run runtime calls) := by
  have sound := @run_sound runtime calls
  refine ⟨sound.owned,fun presented at_ t done => ?_,fun call => (perform_change sound call).audited,
    fun call problem failed => ?_,fun users listed => restore_sound sound listed⟩
  · have verified : verifyToken runtime (run runtime calls) presented at_ = .ok t := by
      obtain ⟨t',done,same⟩ := map_ok.mp done
      rwa [Answer.verified.inj same] at done
    obtain ⟨⟨id,found⟩,usable,time,member⟩ := verifyToken_ok verified
    refine ⟨run_minted calls found usable,member,?_,time⟩
    rintro before ⟨after,rfl⟩ t' found'
    by_contra gone
    rw [Bool.not_eq_false] at gone
    obtain ⟨t'',stored,gone'⟩ := run_revoked before after found' gone
    rw [(sound.tokens id t found).key] at found
    cases found.symm.trans stored
    rw [usable] at gone'
    contradiction
  · have change := perform_change sound call
    rw [failed] at change
    exact change.failed_same

/-- Times are told apart by their length, and a secret is its own hash. -/
def plain : Runtime where
  wide c := [c]
  fromisoformat time := some ⟨time.length,none⟩
  sha256 plaintext := plaintext
  repr text := text

theorem directory_keeps_verified :
    ("acme","u") ∈ (run plain [.registerUser "u",.registerPublisher "acme" "u" "1",
      .mintToken "acme" "u" "1" "111" none "s"]).memberships.keys :=
  ((directory_keeps plain _).2.1 "dinkster_pat_s" "11"
    ⟨"dinkster_pat","acme","u",none,"dinkster_pat_s","1","111",false,""⟩
    (by decide +kernel)).2.1

end Dinkster.Principals
