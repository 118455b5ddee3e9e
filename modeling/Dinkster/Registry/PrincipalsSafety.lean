import Dinkster.Registry.Principals

/-! What one call does to the principal directory, and what every directory keeps. -/
namespace Dinkster.Principals
open Names Fallible

def changed {κ ν : Type} [DecidableEq κ] [DecidableEq ν] (d e : Dict κ ν) : Finset κ :=
  (d.keys ++ e.keys).toFinset.filter fun k => d.get? k ≠ e.get? k

theorem changed_subset {κ ν : Type} [DecidableEq κ] [DecidableEq ν] {d e : Dict κ ν}
    {keys : Finset κ} (same : ∀ k, k ∉ keys → d.get? k = e.get? k) : changed d e ⊆ keys := by
  intro k inside
  by_contra outside
  exact (Finset.mem_filter.mp inside).2 (same k outside)

theorem mem_changed {κ ν : Type} [DecidableEq κ] [DecidableEq ν] {d e : Dict κ ν} {k : κ} :
    k ∈ changed d e ↔ d.get? k ≠ e.get? k := by
  refine ⟨fun inside => (Finset.mem_filter.mp inside).2,fun differ => ?_⟩
  refine Finset.mem_filter.mpr ⟨List.mem_toFinset.mpr (List.mem_append.mpr ?_),differ⟩
  by_contra outside
  rw [not_or,← Dict.get?_eq_none_iff,← Dict.get?_eq_none_iff] at outside
  exact differ (outside.1.trans outside.2.symm)

theorem changed_trans {κ ν : Type} [DecidableEq κ] [DecidableEq ν] (d e f : Dict κ ν) :
    (changed d f).card ≤ (changed d e).card + (changed e f).card := by
  refine (Finset.card_le_card fun k inside => ?_).trans (Finset.card_union_le _ _)
  rw [Finset.mem_union,mem_changed,mem_changed]
  by_contra same
  rw [not_or,not_not,not_not] at same
  exact mem_changed.mp inside (same.1.trans same.2)

theorem changed_self {κ ν : Type} [DecidableEq κ] [DecidableEq ν] (d : Dict κ ν) :
    changed d d = ∅ := by
  simp [changed]

theorem changed_set {κ ν : Type} [DecidableEq κ] [DecidableEq ν] (d : Dict κ ν) (k : κ) (v : ν) :
    (changed d (d.set k v)).card ≤ 1 := by
  refine (Finset.card_le_card (changed_subset fun k' outside => ?_)).trans
    (Finset.card_singleton k).le
  exact (Dict.get?_set_ne d v (Finset.notMem_singleton.mp outside)).symm

theorem changed_erase {κ ν : Type} [DecidableEq κ] [DecidableEq ν] (d : Dict κ ν) (k : κ) :
    (changed d (d.erase k)).card ≤ 1 := by
  refine (Finset.card_le_card (changed_subset fun k' outside => ?_)).trans
    (Finset.card_singleton k).le
  rw [Dict.get?_erase,if_neg (Finset.notMem_singleton.mp outside)]

theorem keys_set_present {κ ν : Type} [DecidableEq κ] (d : Dict κ ν) {k : κ} (v : ν)
    (present : k ∈ d.keys) : (d.set k v).keys = d.keys := by
  rw [Dict.set,dif_pos present,Dict.keys,Dict.keys,List.map_map]
  refine List.map_congr_left fun e _ => ?_
  rw [Function.comp_apply]
  split
  · exact Eq.symm ‹_›
  · rfl

variable {runtime : Runtime} {d : Directory}

structure Logged (runtime : Runtime) (r : AuditRecord) : Prop where
  actor : r.actor ≠ ""
  time : ∃ parsed, runtime.fromisoformat r.at_ = some parsed

/-- A token that is stored under its id. -/
structure Kept (runtime : Runtime) (publishers : Dict String String) (id : String)
    (t : TokenRecord) : Prop where
  key : id = t.tokenId
  hashed : t.tokenId = tokenId t.secretHash
  publisher : t.publisher ∈ publishers.keys
  explained : t.revoked = true → t.revokedReason ≠ ""
  lasting : ∃ created expires, runtime.fromisoformat t.createdAt = some created ∧
    runtime.fromisoformat t.expiresAt = some expires ∧ expires.le? created = some false

structure Placed (publishers : Dict String String) (users : Finset String)
    (key : String × String) (m : Membership) : Prop where
  key : key = (m.publisher,m.user)
  publisher : m.publisher ∈ publishers.keys
  user : m.user ∈ users
  role : m.role.known = true

structure Sound (runtime : Runtime) (d : Directory) : Prop where
  named : "" ∉ d.users
  canonical : ∀ p ∈ d.publishers.keys, validateName p = none ∧ canonicalName runtime.wide p = p
  placed : ∀ key m, d.memberships.get? key = some m → Placed d.publishers d.users key m
  owned : ∀ p ∈ d.publishers.keys, ∃ user m, d.memberships.get? (p,user) = some m ∧ m.role = .owner
  tokens : ∀ id t, d.tokens.get? id = some t → Kept runtime d.publishers id t
  minters : ∀ id t, d.tokens.get? id = some t → t.revoked = false →
    (t.publisher,t.mintedBy) ∈ d.memberships.keys
  audit : ∀ r ∈ d.audit, Logged runtime r

def orphan (publisher user reason : String) (t : TokenRecord) : TokenRecord :=
  if t.publisher = publisher ∧ t.mintedBy = user ∧ t.revoked = false then
    { t with revoked := true, revokedReason := reason }
  else t

/-- Everything that a call can answer and leave. -/
inductive Change (runtime : Runtime) (d : Directory) :
    Except RegistryError Answer → Directory → Prop
  | failed (problem : RegistryError) : Change runtime d (.error problem) d
  | looked (answer : Answer) (plain : ∀ plaintext t, answer ≠ .minted plaintext t) :
    Change runtime d (.ok answer) d
  | user (user : String) (named : user ≠ "") :
    Change runtime d (.ok .done) { d with users := insert user d.users }
  | publisher (p owner : String) (r : AuditRecord) (valid : validateName p = none)
    (canonical : canonicalName runtime.wide p = p) (fresh : p ∉ d.publishers.keys)
    (known : owner ∈ d.users) (logged : Logged runtime r) :
    Change runtime d (.ok (.publisher p))
      { d with
          publishers := d.publishers.set p p
          memberships := d.memberships.set (p,owner) ⟨owner,p,.owner⟩
          audit := d.audit ++ [r] }
  | display (p name : String) (r : AuditRecord) (known : p ∈ d.publishers.keys)
    (logged : Logged runtime r) :
    Change runtime d (.ok .done)
      { d with publishers := d.publishers.set p name, audit := d.audit ++ [r] }
  | member (p user : String) (role : Role) (r : AuditRecord) (known : p ∈ d.publishers.keys)
    (account : user ∈ d.users) (valid : role.known = true)
    (fresh : (p,user) ∉ d.memberships.keys) (logged : Logged runtime r) :
    Change runtime d (.ok .done)
      { d with memberships := d.memberships.set (p,user) ⟨user,p,role⟩, audit := d.audit ++ [r] }
  | role (p user : String) (m : Membership) (role : Role) (r : AuditRecord)
    (found : d.memberships.get? (p,user) = some m) (valid : role.known = true)
    (guarded : m.role = .owner → role ≠ .owner → ∃ user' m',
      d.memberships.get? (p,user') = some m' ∧ m'.role = .owner ∧ user' ≠ user)
    (logged : Logged runtime r) :
    Change runtime d (.ok .done)
      { d with
          memberships := d.memberships.set (p,user) { m with role := role }
          audit := d.audit ++ [r] }
  | removed (p user reason : String) (m : Membership) (tokens : Dict String TokenRecord)
    (rs : List AuditRecord) (found : d.memberships.get? (p,user) = some m)
    (guarded : m.role = .owner → ∃ user' m',
      d.memberships.get? (p,user') = some m' ∧ m'.role = .owner ∧ user' ≠ user)
    (explained : reason ≠ "") (same : tokens.keys = d.tokens.keys)
    (revoked : ∀ id, tokens.get? id = (d.tokens.get? id).map (orphan p user reason))
    (logged : ∀ r ∈ rs, Logged runtime r)
    (each : (changed d.tokens tokens).card < rs.length) :
    Change runtime d (.ok .done)
      { d with
          memberships := d.memberships.erase (p,user)
          tokens := tokens
          audit := d.audit ++ rs }
  | minted (plaintext : String) (t : TokenRecord) (r : AuditRecord)
    (fresh : t.tokenId ∉ d.tokens.keys) (kept : Kept runtime d.publishers t.tokenId t)
    (usable : t.revoked = false) (member : (t.publisher,t.mintedBy) ∈ d.memberships.keys)
    (logged : Logged runtime r) :
    Change runtime d (.ok (.minted plaintext t))
      { d with tokens := d.tokens.set t.tokenId t, audit := d.audit ++ [r] }
  | revoked (t : TokenRecord) (reason : String) (r : AuditRecord)
    (found : d.tokens.get? t.tokenId = some t) (explained : reason ≠ "")
    (logged : Logged runtime r) :
    Change runtime d (.ok .done)
      { d with
          tokens := d.tokens.set t.tokenId { t with revoked := true, revokedReason := reason }
          audit := d.audit ++ [r] }
  | recorded (r : AuditRecord) (logged : Logged runtime r) :
    Change runtime d (.ok .done) { d with audit := d.audit ++ [r] }
theorem checked_cases {α β : Type} (d : Directory) (checks : Except RegistryError α)
    (change : α → Outcome β) : (∃ problem, checked d checks change = (.error problem,d)) ∨
    ∃ a, checks = .ok a ∧ checked d checks change = change a := by
  cases checks with
  | error problem => exact .inl ⟨problem,rfl⟩
  | ok a => exact .inr ⟨a,rfl,rfl⟩

theorem parseAt_ok {time what : String} {parsed : Datetime} :
    parseAt runtime time what = .ok parsed ↔ runtime.fromisoformat time = some parsed := by
  unfold parseAt
  cases runtime.fromisoformat time with
  | none => simp
  | some found => simp

theorem notAfter_ok {a what b what' : String} {late : Bool}
    (done : notAfter runtime a what b what' = .ok late) : ∃ first second,
      runtime.fromisoformat a = some first ∧ runtime.fromisoformat b = some second ∧
      first.le? second = some late := by
  obtain ⟨first,read,done⟩ := bind_ok.mp done
  obtain ⟨second,read',done⟩ := bind_ok.mp done
  refine ⟨first,second,parseAt_ok.mp read,parseAt_ok.mp read',?_⟩
  split at done
  · rename_i answer compared
    rw [compared,Except.ok.inj done]
  · contradiction

theorem requirePublisher_ok {publisher canonical : String}
    (done : requirePublisher runtime d publisher = .ok canonical) :
    canonical = canonicalName runtime.wide publisher ∧ canonical ∈ d.publishers.keys := by
  unfold requirePublisher at done
  split at done
  · rename_i display found
    cases done
    exact ⟨rfl,(Dict.mem_keys_iff _ _).mpr ⟨display,found⟩⟩
  · contradiction

theorem requireMember_ok {publisher user : String} {m : Membership} :
    requireMember d publisher user = .ok m ↔ d.memberships.get? (publisher,user) = some m := by
  unfold requireMember
  cases d.memberships.get? (publisher,user) with
  | none => simp
  | some found => simp

theorem requireName_ok {publisher : String} {u : PUnit}
    (done : requireName publisher = .ok u) : validateName publisher = none := by
  unfold requireName at done
  split at done
  · contradiction
  · assumption

theorem authorize_ok (sound : Sound runtime d) {user canonical : String} {action : Action}
    {u : PUnit} (known : canonical ∈ d.publishers.keys)
    (done : authorize runtime d user canonical action = .ok u) :
    user ≠ "" ∧ (canonical,user) ∈ d.memberships.keys := by
  obtain ⟨again,required,done⟩ := bind_ok.mp done
  obtain ⟨m,member,done⟩ := bind_ok.mp done
  have same : again = canonical := by
    rw [(requirePublisher_ok required).1,(sound.canonical canonical known).2]
  rw [same] at member
  have found := requireMember_ok.mp member
  have placed := sound.placed _ _ found
  refine ⟨?_,(Dict.mem_keys_iff _ _).mpr ⟨m,found⟩⟩
  rintro rfl
  obtain ⟨_,same⟩ := Prod.mk.inj placed.key
  exact sound.named (same ▸ placed.user)

theorem guardLastOwner_ok (sound : Sound runtime d) {publisher user : String} {u : PUnit}
    (done : guardLastOwner d publisher user = .ok u) : ∃ user' m',
      d.memberships.get? (publisher,user') = some m' ∧ m'.role = .owner ∧ user' ≠ user := by
  have guarded := refuseIf_ok.mp done
  rw [not_not] at guarded
  obtain ⟨e,inside,holds⟩ := List.any_eq_true.mp guarded
  simp only [Bool.and_eq_true,beq_iff_eq,bne_iff_ne] at holds
  obtain ⟨⟨under,owner⟩,other⟩ := holds
  have found := (Dict.get?_eq_some_iff d.memberships e.1 e.2).mpr inside
  have key := (sound.placed _ _ found).key
  refine ⟨e.2.user,e.2,?_,owner,other⟩
  rw [← found,key,← under,key]

theorem onlyIf_ok {condition : Prop} [Decidable condition] {check : Except RegistryError PUnit}
    {u : PUnit} (done : onlyIf condition check = .ok u) (holds : condition) : check = .ok u := by
  rwa [onlyIf,if_pos holds] at done

theorem record_ok {α : Type} (d : Directory) {actor at_ : String} {parsed : Datetime}
    (named : actor ≠ "") (read : runtime.fromisoformat at_ = some parsed)
    (action subject details : String) (answer : α) :
    record runtime d actor action subject at_ details answer =
      (.ok answer,{ d with audit := d.audit ++ [⟨actor,action,subject,at_,details⟩] }) := by
  have passed : (do
      let _ ← parseAt runtime at_ "audit timestamp"
      refuseIf (actor = "") RegistryError.noActor) = .ok ⟨⟩ :=
    bind_ok.mpr ⟨parsed,parseAt_ok.mpr read,refuseIf_ok.mpr named⟩
  unfold record
  rw [passed]
  rfl

theorem Change.of_checked {α β : Type} {checks : Except RegistryError α} {change : α → Outcome β}
    {answer : β → Answer}
    (passed : ∀ a, checks = .ok a → Change runtime d ((change a).1.map answer) (change a).2) :
    Change runtime d (answered (checked d checks change) answer).1
      (answered (checked d checks change) answer).2 := by
  rcases checked_cases d checks change with ⟨problem,same⟩ | ⟨a,done,same⟩
  · rw [same]
    exact .failed problem
  · rw [same]
    exact passed a done

theorem registerUser_change (user : String) :
    Change runtime d (perform runtime d (.registerUser user)).1
      (perform runtime d (.registerUser user)).2 :=
  Change.of_checked fun _ done => .user user (refuseIf_ok.mp done)

theorem registerPublisher_change (sound : Sound runtime d) (publisher owner at_ : String) :
    Change runtime d (perform runtime d (.registerPublisher publisher owner at_)).1
      (perform runtime d (.registerPublisher publisher owner at_)).2 := by
  refine Change.of_checked fun _ done => ?_
  obtain ⟨parsed,read,done⟩ := bind_ok.mp done
  obtain ⟨_,name,done⟩ := bind_ok.mp done
  obtain ⟨_,fresh,done⟩ := bind_ok.mp done
  have valid := requireName_ok name
  have known : owner ∈ d.users := not_not.mp (refuseIf_ok.mp done)
  have named : owner ≠ "" := fun same => sound.named (same ▸ known)
  rw [record_ok _ named (parseAt_ok.mp read)]
  exact .publisher _ owner _ (canonical_valid valid) (canonicalName_idem valid)
    (refuseIf_ok.mp fresh) known ⟨named,parsed,parseAt_ok.mp read⟩

theorem setDisplayName_change (sound : Sound runtime d) (publisher name actor at_ : String) :
    Change runtime d (perform runtime d (.setDisplayName publisher name actor at_)).1
      (perform runtime d (.setDisplayName publisher name actor at_)).2 := by
  refine Change.of_checked fun _ done => ?_
  obtain ⟨parsed,read,done⟩ := bind_ok.mp done
  obtain ⟨canonical,required,done⟩ := bind_ok.mp done
  obtain ⟨_,authorized,done⟩ := bind_ok.mp done
  cases done
  have known := (requirePublisher_ok required).2
  have named := (authorize_ok sound known authorized).1
  dsimp only
  rw [record_ok _ named (parseAt_ok.mp read)]
  exact .display canonical name _ known ⟨named,parsed,parseAt_ok.mp read⟩

theorem addMember_change (sound : Sound runtime d) (publisher user : String) (role : Role)
    (actor at_ : String) :
    Change runtime d (perform runtime d (.addMember publisher user role actor at_)).1
      (perform runtime d (.addMember publisher user role actor at_)).2 := by
  refine Change.of_checked fun _ done => ?_
  obtain ⟨_,valid,done⟩ := bind_ok.mp done
  obtain ⟨parsed,read,done⟩ := bind_ok.mp done
  obtain ⟨canonical,required,done⟩ := bind_ok.mp done
  obtain ⟨_,authorized,done⟩ := bind_ok.mp done
  obtain ⟨_,account,done⟩ := bind_ok.mp done
  obtain ⟨_,fresh,done⟩ := bind_ok.mp done
  cases done
  have known := (requirePublisher_ok required).2
  have named := (authorize_ok sound known authorized).1
  rw [record_ok _ named (parseAt_ok.mp read)]
  exact .member _ user role _ known (not_not.mp (refuseIf_ok.mp account))
    (by simpa using refuseIf_ok.mp valid) (refuseIf_ok.mp fresh) ⟨named,parsed,parseAt_ok.mp read⟩

theorem setRole_change (sound : Sound runtime d) (publisher user : String) (role : Role)
    (actor at_ : String) :
    Change runtime d (perform runtime d (.setRole publisher user role actor at_)).1
      (perform runtime d (.setRole publisher user role actor at_)).2 := by
  refine Change.of_checked fun _ done => ?_
  obtain ⟨_,valid,done⟩ := bind_ok.mp done
  obtain ⟨parsed,read,done⟩ := bind_ok.mp done
  obtain ⟨canonical,required,done⟩ := bind_ok.mp done
  obtain ⟨_,authorized,done⟩ := bind_ok.mp done
  obtain ⟨m,found,done⟩ := bind_ok.mp done
  obtain ⟨_,guarded,done⟩ := bind_ok.mp done
  cases done
  have known := (requirePublisher_ok required).2
  have named := (authorize_ok sound known authorized).1
  dsimp only
  rw [record_ok _ named (parseAt_ok.mp read)]
  refine .role canonical user m role _ (requireMember_ok.mp found)
    (by simpa using refuseIf_ok.mp valid) (fun owner other => ?_)
    ⟨named,parsed,parseAt_ok.mp read⟩
  exact guardLastOwner_ok sound (onlyIf_ok guarded ⟨owner,other⟩)

theorem mintToken_change (sound : Sound runtime d) (publisher mintedBy at_ expiresAt : String)
    (pack : Option String) (entropy : String) :
    Change runtime d (perform runtime d (.mintToken publisher mintedBy at_ expiresAt pack entropy)).1
      (perform runtime d (.mintToken publisher mintedBy at_ expiresAt pack entropy)).2 := by
  refine Change.of_checked fun _ done => ?_
  obtain ⟨canonical,required,done⟩ := bind_ok.mp done
  obtain ⟨_,authorized,done⟩ := bind_ok.mp done
  obtain ⟨late,compared,done⟩ := bind_ok.mp done
  obtain ⟨_,later,done⟩ := bind_ok.mp done
  obtain ⟨_,fresh,done⟩ := bind_ok.mp done
  cases done
  have known := (requirePublisher_ok required).2
  obtain ⟨named,member⟩ := authorize_ok sound known authorized
  obtain ⟨expires,created,read,read',order⟩ := notAfter_ok compared
  rw [record_ok _ named read']
  refine .minted _ _ _ (refuseIf_ok.mp fresh) ⟨rfl,rfl,known,nofun,created,expires,read',read,?_⟩
    rfl member ⟨named,created,read'⟩
  rw [order]
  exact congrArg some (by simpa using refuseIf_ok.mp later)

theorem revokeToken_change (sound : Sound runtime d) (id actor at_ reason : String) :
    Change runtime d (perform runtime d (.revokeToken id actor at_ reason)).1
      (perform runtime d (.revokeToken id actor at_ reason)).2 := by
  refine Change.of_checked fun token done => ?_
  obtain ⟨parsed,read,done⟩ := bind_ok.mp done
  split at done
  · contradiction
  · rename_i t found
    obtain ⟨_,explained,done⟩ := bind_ok.mp done
    obtain ⟨_,authorized,done⟩ := bind_ok.mp done
    cases done
    have kept := sound.tokens _ _ found
    split
    · exact .looked _ (by simp)
    · rename_i usable
      have named : actor ≠ "" := by
        by_cases own : actor = token.mintedBy
        · have member := sound.minters _ _ found (by simpa using usable)
          obtain ⟨m,found'⟩ := (Dict.mem_keys_iff _ _).mp member
          have placed := sound.placed _ _ found'
          rintro rfl
          rw [← own] at placed
          exact sound.named ((Prod.mk.inj placed.key).2 ▸ placed.user)
        · exact (authorize_ok sound kept.publisher (onlyIf_ok authorized own)).1
      rw [revoke,record_ok _ named (parseAt_ok.mp read)]
      exact .revoked token reason _ (kept.key ▸ found) (refuseIf_ok.mp explained)
        ⟨named,parsed,parseAt_ok.mp read⟩

theorem record_change (actor action subject at_ details : String) :
    Change runtime d (perform runtime d (.record actor action subject at_ details)).1
      (perform runtime d (.record actor action subject at_ details)).2 := by
  refine Change.of_checked fun _ done => ?_
  obtain ⟨parsed,read,done⟩ := bind_ok.mp done
  exact .recorded _ ⟨refuseIf_ok.mp done,parsed,parseAt_ok.mp read⟩

theorem revokeAll_revokes {publisher user actor at_ : String} {parsed : Datetime} (named : actor ≠ "")
    (read : runtime.fromisoformat at_ = some parsed) (tokens : List TokenRecord) :
    ∀ d : Directory, (∀ t ∈ tokens, d.tokens.get? t.tokenId = some t) →
      (tokens.map (·.tokenId)).Nodup → ∃ revoked rs,
        revokeAll runtime d publisher user actor at_ tokens =
          (.ok (),{ d with tokens := revoked, audit := d.audit ++ rs }) ∧
        revoked.keys = d.tokens.keys ∧
        (∀ t ∈ tokens, revoked.get? t.tokenId = some (orphan publisher user (removal runtime user) t)) ∧
        (∀ id, id ∉ tokens.map (·.tokenId) → revoked.get? id = d.tokens.get? id) ∧
        (∀ r ∈ rs, Logged runtime r) ∧ (changed d.tokens revoked).card ≤ rs.length := by
  induction tokens with
  | nil =>
    intro d _ _
    refine ⟨d.tokens,[],?_,rfl,List.forall_mem_nil _,fun _ _ => rfl,List.forall_mem_nil _,?_⟩
    · rw [revokeAll,List.append_nil]
    · rw [changed_self]
      rfl
  | cons t rest ih =>
    intro d stored distinct
    obtain ⟨fresh,others⟩ := List.nodup_cons.mp distinct
    have apart : ∀ t' ∈ rest, t'.tokenId ≠ t.tokenId := fun t' inside same =>
      fresh (List.mem_map.mpr ⟨t',inside,same⟩)
    have found := stored t List.mem_cons_self
    by_cases matches_ : t.publisher = publisher ∧ t.mintedBy = user ∧ t.revoked = false
    · have orphaned : orphan publisher user (removal runtime user) t =
          { t with revoked := true, revokedReason := removal runtime user } := if_pos matches_
      obtain ⟨revoked,rs,done,keys,each,same,logged,count⟩ := ih
        { d with
            tokens := d.tokens.set t.tokenId (orphan publisher user (removal runtime user) t)
            audit := d.audit ++ [⟨actor,"revoke-token",t.publisher,at_,
              "token " ++ t.tokenId ++ ": " ++ removal runtime user⟩] }
        (fun t' inside => by
          rw [Dict.get?_set_ne _ _ (apart t' inside)]
          exact stored t' (List.mem_cons_of_mem _ inside)) others
      refine ⟨revoked,⟨actor,"revoke-token",t.publisher,at_,
        "token " ++ t.tokenId ++ ": " ++ removal runtime user⟩ :: rs,?_,?_,?_,?_,?_,?_⟩
      · rw [revokeAll,if_pos matches_,revoke,record_ok _ named read]
        dsimp only
        rw [← orphaned,done]
        simp
      · rw [keys]
        exact keys_set_present _ _ ((Dict.mem_keys_iff _ _).mpr ⟨t,found⟩)
      · intro t' inside
        rcases List.mem_cons.mp inside with rfl | inside
        · rw [same _ fresh]
          exact Dict.get?_set_self ..
        · exact each t' inside
      · intro id outside
        rw [List.map_cons,List.mem_cons,not_or] at outside
        rw [same id outside.2]
        exact Dict.get?_set_ne _ _ outside.1
      · intro r inside
        rcases List.mem_cons.mp inside with rfl | inside
        · exact ⟨named,parsed,read⟩
        · exact logged r inside
      · refine (changed_trans _ (d.tokens.set t.tokenId
          (orphan publisher user (removal runtime user) t)) _).trans ?_
        rw [List.length_cons,Nat.add_comm]
        exact Nat.add_le_add count (changed_set ..)
    · obtain ⟨revoked,rs,done,keys,each,same,logged,count⟩ :=
        ih d (fun t' inside => stored t' (List.mem_cons_of_mem _ inside)) others
      refine ⟨revoked,rs,?_,keys,?_,?_,logged,count⟩
      · rw [revokeAll,if_neg matches_,done]
      · intro t' inside
        rcases List.mem_cons.mp inside with rfl | inside
        · rw [same _ fresh,found,orphan,if_neg matches_]
        · exact each t' inside
      · intro id outside
        rw [List.map_cons,List.mem_cons,not_or] at outside
        exact same id outside.2

theorem removeMember_change (sound : Sound runtime d) (publisher user actor at_ : String) :
    Change runtime d (perform runtime d (.removeMember publisher user actor at_)).1
      (perform runtime d (.removeMember publisher user actor at_)).2 := by
  refine Change.of_checked fun canonical done => ?_
  obtain ⟨parsed,read,done⟩ := bind_ok.mp done
  obtain ⟨_,required,done⟩ := bind_ok.mp done
  obtain ⟨_,authorized,done⟩ := bind_ok.mp done
  obtain ⟨m,found,done⟩ := bind_ok.mp done
  obtain ⟨_,guarded,done⟩ := bind_ok.mp done
  cases done
  have known := (requirePublisher_ok required).2
  have named := (authorize_ok sound known authorized).1
  rw [record_ok _ named (parseAt_ok.mp read)]
  dsimp only
  have stored : ∀ t ∈ d.tokens.entries.map (·.2), d.tokens.get? t.tokenId = some t := by
    intro t inside
    obtain ⟨e,listed,rfl⟩ := List.mem_map.mp inside
    have held := (Dict.get?_eq_some_iff d.tokens e.1 e.2).mpr listed
    rw [← (sound.tokens _ _ held).key,held]
  have ids : (d.tokens.entries.map (·.2)).map (·.tokenId) = d.tokens.keys := by
    rw [List.map_map]
    refine List.map_congr_left fun e inside => ?_
    exact (sound.tokens _ _ ((Dict.get?_eq_some_iff d.tokens e.1 e.2).mpr inside)).key.symm
  obtain ⟨revoked,rs,done,keys,each,same,logged,count⟩ := revokeAll_revokes named
    (parseAt_ok.mp read) (d.tokens.entries.map (·.2))
    { d with
        memberships := d.memberships.erase (canonical,user)
        audit := d.audit ++ [⟨actor,"manage-members",canonical,at_,"removed " ++ runtime.repr user⟩] }
    stored (ids ▸ d.tokens.distinct)
  rw [done,List.append_assoc]
  refine .removed canonical user (removal runtime user) m revoked _ (requireMember_ok.mp found)
    (fun owner => guardLastOwner_ok sound (onlyIf_ok guarded owner)) ?_ keys ?_ ?_ ?_
  · exact fun blank => by simp [removal,String.append_eq_empty_iff] at blank
  · intro id
    by_cases inside : id ∈ d.tokens.keys
    · obtain ⟨t,held⟩ := (Dict.mem_keys_iff _ _).mp inside
      have key := (sound.tokens _ _ held).key
      rw [held,key]
      exact each t (List.mem_map.mpr ⟨_,(Dict.get?_eq_some_iff _ _ _).mp held,rfl⟩)
    · rw [same id (ids ▸ inside),(Dict.get?_eq_none_iff _ _).mpr inside]
      rfl
  · intro r inside
    rcases List.mem_cons.mp inside with rfl | inside
    · exact ⟨named,parsed,parseAt_ok.mp read⟩
    · exact logged r inside
  · exact Nat.lt_succ_of_le count

theorem perform_change (sound : Sound runtime d) (call : Call) :
    Change runtime d (perform runtime d call).1 (perform runtime d call).2 := by
  cases call with
  | registerUser user => exact registerUser_change user
  | registerPublisher publisher owner at_ => exact registerPublisher_change sound ..
  | setDisplayName publisher name actor at_ => exact setDisplayName_change sound ..
  | addMember publisher user role actor at_ => exact addMember_change sound ..
  | setRole publisher user role actor at_ => exact setRole_change sound ..
  | removeMember publisher user actor at_ => exact removeMember_change sound ..
  | mintToken publisher mintedBy at_ expiresAt pack entropy => exact mintToken_change sound ..
  | revokeToken id actor at_ reason => exact revokeToken_change sound ..
  | verifyToken presented at_ =>
    change Change runtime d ((verifyToken runtime d presented at_).map .verified) d
    cases verifyToken runtime d presented at_ with
    | error problem => exact .failed problem
    | ok token => exact .looked _ (by simp)
  | record actor action subject at_ details => exact record_change ..

end Dinkster.Principals
