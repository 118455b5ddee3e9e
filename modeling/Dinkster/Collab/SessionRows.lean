import Dinkster.Collab.Sessions
import Dinkster.Lib.Fallible

/-! The rows of one session and what each call of the store does to them; what each
operation of the service can do to the working set and to the store. -/
namespace Dinkster.Collab

@[ext] structure Rows where
  session : Option SessionRow
  ops : List SessionOp
  actor : String → Option String
  role : String → Option Role
  policy : Option Role

def Rows.none : Rows := ⟨Option.none,[],fun _ => Option.none,fun _ => Option.none,Option.none⟩

def SessionStore.rows (st : SessionStore) (id : SessionId) : Rows :=
  ⟨st.sessions.get? id,st.opsOf id,fun a => st.actors.get? (id,a),fun p => st.acl.get? (id,p),
    st.policy.get? id⟩

namespace Rows

def created (t : Rows) (session : DocumentSession) : Rows :=
  { t with
    session := some ⟨session.scope,session.documentId,session.documentKind,session.snapshot,
      session.snapshotRevision,session.createdAt⟩
    role := fun p => (session.acl.get? p).or (t.role p)
    policy := some session.defaultRole }

def ruled (role : Role) (entries : Dict String Role) (t : Rows) : Rows :=
  { t with
    role := entries.get?
    policy := t.policy.map fun _ => role }

def appended (op : SessionOp) (principalId : String) (t : Rows) : Rows :=
  { t with
    ops := t.ops ++ [{ op with principalId := principalId }]
    actor := fun a => if a = op.actorId then some ((t.actor a).getD principalId) else t.actor a }

def bound (actorId principalId : String) (t : Rows) : Rows :=
  { t with actor := fun a => if a = actorId then some principalId else t.actor a }

def checkpointed (snapshot : Json.Value) (revision : Nat) (t : Rows) : Rows :=
  { t with
    session := t.session.map fun row => { row with snapshot, snapshotRevision := revision }
    ops := t.ops.filter fun op => decide (revision < op.revision) }

end Rows

section Calls

variable {st st' : SessionStore} {id : SessionId}

theorem rows_putSession {session : DocumentSession}
    (done : st.putSession session = .ok st') (other : SessionId) :
    st'.rows other = if other = session.sessionId then
      (st.rows session.sessionId).created session else st.rows other := by
  unfold SessionStore.putSession at done
  dsimp only at done
  split at done
  · cases done
  obtain rfl := Except.ok.inj done
  by_cases same : other = session.sessionId
  · rw [if_pos same]
    subst same
    unfold Rows.created
    ext1
    · exact Dict.get?_set_self _ _ _
    · rfl
    · rfl
    · funext p
      exact (Dict.get?_setAll _ _ _ _ _).trans (if_pos rfl)
    · exact Dict.get?_set_self _ _ _
  · rw [if_neg same]
    ext1
    · exact Dict.get?_set_ne _ _ same
    · rfl
    · rfl
    · funext p
      exact (Dict.get?_setAll _ _ _ _ _).trans (if_neg same)
    · exact Dict.get?_set_ne _ _ same

theorem rows_replaceAcl {role : Role} {entries : Dict String Role}
    (done : st.replaceAcl id role entries = .ok st') (other : SessionId) :
    st'.rows other = if other = id then (st.rows id).ruled role entries else st.rows other := by
  obtain rfl := Except.ok.inj done
  by_cases same : other = id
  · rw [if_pos same]
    subst same
    unfold Rows.ruled
    ext1
    · rfl
    · rfl
    · rfl
    · funext p
      refine (Dict.get?_setAll _ _ _ _ _).trans ((if_pos rfl).trans ?_)
      rw [Dict.get?_filterKeys]
      simp
    · show Dict.get? (if other ∈ st.policy.keys then _ else _) other = _
      split
      · rename_i held
        obtain ⟨old,found⟩ := (Dict.mem_keys_iff _ _).mp held
        rw [Dict.get?_set_self]
        show _ = (st.policy.get? other).map _
        rw [found]
        rfl
      · rename_i absent
        have missing := (Dict.get?_eq_none_iff _ _).mpr absent
        show _ = (st.policy.get? other).map _
        rw [missing]
        rfl
  · rw [if_neg same]
    ext1
    · rfl
    · rfl
    · rfl
    · funext p
      refine (Dict.get?_setAll _ _ _ _ _).trans ((if_neg same).trans ?_)
      rw [Dict.get?_filterKeys]
      simp [same,SessionStore.rows]
    · show Dict.get? (if id ∈ st.policy.keys then _ else _) other = _
      split
      · exact Dict.get?_set_ne _ _ same
      · rfl

theorem rows_appendOp {op : SessionOp} {principalId : String}
    (done : st.appendOp id op principalId = .ok st') (other : SessionId) :
    st'.rows other = if other = id then (st.rows id).appended op principalId
      else st.rows other := by
  unfold SessionStore.appendOp at done
  split at done
  · cases done
  obtain rfl := Except.ok.inj done
  by_cases same : other = id
  · rw [if_pos same]
    subst same
    unfold Rows.appended
    ext1
    · rfl
    · simp [SessionStore.rows,SessionStore.opsOf]
    · funext a
      show Dict.get? (if (other,op.actorId) ∈ st.actors.keys then _ else _) (other,a) = _
      split
      · rename_i held
        obtain ⟨p,found⟩ := (Dict.mem_keys_iff _ _).mp held
        by_cases actor : a = op.actorId
        · subst actor
          simp [SessionStore.rows,found]
        · simp [SessionStore.rows,actor]
      · rename_i absent
        have missing := (Dict.get?_eq_none_iff _ _).mpr absent
        rw [Dict.get?_set]
        by_cases actor : a = op.actorId
        · subst actor
          simp [SessionStore.rows,missing]
        · simp [SessionStore.rows,actor]
    · rfl
    · rfl
  · rw [if_neg same]
    ext1
    · rfl
    · simp [SessionStore.rows,SessionStore.opsOf,Ne.symm same]
    · funext a
      show Dict.get? (if (id,op.actorId) ∈ st.actors.keys then _ else _) (other,a) = _
      split
      · rfl
      · rw [Dict.get?_set_ne]
        · rfl
        · simp [same]
    · rfl
    · rfl

theorem appendOp_fresh {op : SessionOp} {principalId : String}
    (done : st.appendOp id op principalId = .ok st') (old : SessionOp)
    (held : old ∈ (st.rows id).ops) : old.revision ≠ op.revision ∧ old.opId ≠ op.opId := by
  unfold SessionStore.appendOp at done
  split at done
  · cases done
  rename_i free
  obtain ⟨⟨id',old'⟩,inside,rfl⟩ := List.mem_map.mp held
  obtain ⟨inside,same⟩ := List.mem_filter.mp inside
  have mine : id' = id := of_decide_eq_true same
  constructor
  · intro clash
    exact free (List.any_eq_true.mpr ⟨_,inside,by simp [mine,show old'.revision = _ from clash]⟩)
  · intro clash
    exact free (List.any_eq_true.mpr ⟨_,inside,by simp [mine,show old'.opId = _ from clash]⟩)

theorem rows_putActor {actorId principalId : String}
    (done : st.putActor id actorId principalId = .ok st') (other : SessionId) :
    st'.rows other = if other = id then (st.rows id).bound actorId principalId
      else st.rows other := by
  unfold SessionStore.putActor at done
  split at done
  · cases done
  obtain rfl := Except.ok.inj done
  by_cases same : other = id
  · rw [if_pos same]
    subst same
    unfold Rows.bound
    ext1
    · rfl
    · rfl
    · funext a
      refine (Dict.get?_set _ _ _ _).trans ?_
      by_cases same : a = actorId <;> simp [SessionStore.rows,same]
    · rfl
    · rfl
  · rw [if_neg same]
    ext1
    · rfl
    · rfl
    · funext a
      refine Dict.get?_set_ne _ _ ?_
      simp [same]
    · rfl
    · rfl

theorem rows_checkpoint {snapshot : Json.Value} {revision : Nat}
    (done : st.checkpoint id snapshot revision = .ok st') (other : SessionId) :
    st'.rows other = if other = id then (st.rows id).checkpointed snapshot revision
      else st.rows other := by
  obtain rfl := Except.ok.inj done
  by_cases same : other = id
  · rw [if_pos same]
    subst same
    unfold Rows.checkpointed
    ext1
    · cases found : st.sessions.get? other with
      | none => simp [SessionStore.rows,found]
      | some row => simp [SessionStore.rows,found]
    · simp only [SessionStore.rows,SessionStore.opsOf,List.filter_map,List.filter_filter]
      congr 1
      refine List.filter_congr fun row _ => ?_
      by_cases mine : row.1 = other
      · rw [Bool.eq_iff_iff]
        simp [mine]
      · simp [mine]
    · rfl
    · rfl
    · rfl
  · rw [if_neg same]
    ext1
    · cases st.sessions.get? id with
      | none => simp [SessionStore.rows]
      | some row => simp [SessionStore.rows,Dict.get?_set_ne _ _ same]
    · simp only [SessionStore.rows,SessionStore.opsOf,List.filter_filter]
      refine congrArg _ (List.filter_congr fun row _ => ?_)
      by_cases theirs : row.1 = other <;> simp [theirs,same]
    · rfl
    · rfl
    · rfl

theorem rows_deleteSession (done : st.deleteSession id = .ok st') (other : SessionId) :
    st'.rows other = if other = id then Rows.none else st.rows other := by
  obtain rfl := Except.ok.inj done
  by_cases same : other = id
  · rw [if_pos same]
    subst same
    ext1
    · simp [SessionStore.rows,Rows.none,Dict.get?_erase]
    · simp [SessionStore.rows,SessionStore.opsOf,Rows.none]
    · funext a
      simp [SessionStore.rows,Rows.none,Dict.get?_filterKeys]
    · funext p
      simp [SessionStore.rows,Rows.none,Dict.get?_filterKeys]
    · simp [SessionStore.rows,Rows.none,Dict.get?_erase]
  · rw [if_neg same]
    ext1
    · simp [SessionStore.rows,Dict.get?_erase,same]
    · simp only [SessionStore.rows,SessionStore.opsOf,List.filter_filter]
      refine congrArg _ (List.filter_congr fun row _ => ?_)
      by_cases theirs : row.1 = other <;> simp [theirs,same]
    · funext a
      simp [SessionStore.rows,Dict.get?_filterKeys,same]
    · funext p
      simp [SessionStore.rows,Dict.get?_filterKeys,same]
    · simp [SessionStore.rows,Dict.get?_erase,same]

end Calls

/-- A store call that went through, or no store at all. -/
inductive Called (call : SessionStore → Except SessionError SessionStore) :
    Option SessionStore → Option SessionStore → Prop
  | absent : Called call none none
  | done {st st' : SessionStore} (ok : call st = .ok st') : Called call (some st) (some st')

theorem Called.of_some {call : SessionStore → Except SessionError SessionStore}
    {st : SessionStore} {store' : Option SessionStore} (called : Called call (some st) store') :
    ∃ st', call st = .ok st' ∧ store' = some st' := by
  cases called with
  | done ok => exact ⟨_,ok,rfl⟩

/-- Where the working set changes first, the store follows or its call raised. -/
inductive Followed (call : SessionStore → Except SessionError SessionStore) (fault : Bool) :
    Bool → Option SessionStore → Option SessionStore → Prop
  | called {store store' : Option SessionStore} (ok : Called call store store') :
      Followed call fault false store store'
  | raised {st : SessionStore} (why : fault = true ∨ ∃ e, call st = .error e) :
      Followed call fault true (some st) (some st)

theorem Followed.split {call : SessionStore → Except SessionError SessionStore} {fault raised : Bool}
    {store store' : Option SessionStore} (followed : Followed call fault raised store store') :
    store' = store ∨ Called call store store' := by
  cases followed with
  | called ok => exact .inr ok
  | raised why => exact .inl rfl

variable {cfg : Config} {sv sv' : Service} {fault : Bool}
  {call : SessionStore → Except SessionError SessionStore}

theorem stored_ok (done : sv.stored fault call = .ok sv') :
    ∃ store, Called call sv.store store ∧ sv' = { sv with store } := by
  unfold Service.stored at done
  split at done
  · rename_i absent
    obtain rfl := Except.ok.inj done
    exact ⟨none,by rw [absent]; exact .absent,by rw [← absent]⟩
  · rename_i st present
    split at done
    · cases done
    split at done
    · cases done
    · rename_i next ok
      obtain rfl := Except.ok.inj done
      exact ⟨some next,by rw [present]; exact .done ok,rfl⟩

theorem stored_error {e : SessionError} (failed : sv.stored fault call = .error e) :
    ∃ st, sv.store = some st ∧ (fault = true ∧ e = .store ∨ call st = .error e) := by
  unfold Service.stored at failed
  split at failed
  · cases failed
  · rename_i st present
    refine ⟨st,present,?_⟩
    split at failed
    · rename_i faulty
      exact .inl ⟨faulty,(Except.error.inj failed).symm⟩
    split at failed
    · rename_i refused
      exact .inr (refused.trans (congrArg _ (Except.error.inj failed)))
    · cases failed

def DocumentSession.withOp (session : DocumentSession) (op : SessionOp)
    (actorId principalId : String) : DocumentSession :=
  { session with
    ops := session.ops ++ [op]
    opsById := session.opsById.set op.opId op
    actorBindings := if (session.actorBindings.get? actorId).isSome then session.actorBindings
      else session.actorBindings.set actorId principalId }

/-- What an action can do, and whether the store call of one that changes the working set
first raised. -/
inductive Change (cfg : Config) (sv : Service) (fault : Bool) : Action → Bool → Service → Prop
  | unchanged (a : Action) : Change cfg sv fault a false sv
  | created {raised : Bool} {store : Option SessionStore}
      (scope documentId documentKind principalId : String) (snapshot document : Json.Value) (now : ℚ)
      (kind : documentKind ∈ documentKinds)
      (valid : Service.validatedSnapshot cfg documentKind documentId snapshot = .ok document)
      (session : DocumentSession)
      (made : session =
        { sessionId := sv.minted, scope, documentId, snapshot := document, createdAt := now,
          documentKind, acl := Dict.empty.set principalId .owner })
      (followed : Followed (fun st => st.putSession session) fault raised sv.store store) :
      Change cfg sv fault (.create scope documentId documentKind principalId snapshot now) raised
        ⟨sv.sessions.set session.sessionId session,store,sv.minted + 1⟩
  | appended {store : Option SessionStore} (id : SessionId) (session : DocumentSession)
      (found : sv.sessions.get? id = some session) (r : AppendRequest) (now : ℚ) (op : SessionOp)
      (ordered : Service.checkAppend cfg session r now = .ok (.ordered op))
      (called : Called (fun st => st.appendOp id op r.principalId) sv.store store) :
      Change cfg sv fault (.append id r now) false
        (({ sv with store } : Service).put (session.withOp op r.actorId r.principalId))
  | bound {store : Option SessionStore} (a : Action) (id : SessionId) (session : DocumentSession)
      (found : sv.sessions.get? id = some session) (actorId principalId : String)
      (unbound : session.actorBindings.get? actorId = none)
      (called : Called (fun st => st.putActor session.sessionId actorId principalId)
        sv.store store) :
      Change cfg sv fault a false (({ sv with store } : Service).put
        (session.bindActor actorId principalId))
  | ruled {store : Option SessionStore} (id : SessionId) (session : DocumentSession)
      (found : sv.sessions.get? id = some session) (principalId defaultRole : String)
      (entries : Dict String String) (role : Role) (acl : Dict String Role)
      (called : Called (fun st => st.replaceAcl id role acl) sv.store store) :
      Change cfg sv fault (.replaceAcl id principalId defaultRole entries) false
        (({ sv with store } : Service).put { session with defaultRole := role, acl })
  | checkpointed {raised : Bool} {store : Option SessionStore} (id : SessionId)
      (session : DocumentSession) (found : sv.sessions.get? id = some session)
      (revision : Int) (document snapshot : Json.Value) (principalId : String) (upTo : Nat)
      (checked : Service.checkCheckpoint cfg session revision document principalId =
        .ok (snapshot,upTo))
      (followed : Followed (fun st => st.checkpoint id snapshot upTo) fault raised
        sv.store store) :
      Change cfg sv fault (.checkpoint id revision document principalId) raised
        (({ sv with store } : Service).put (Service.pruned session snapshot upTo))
  | closed {raised : Bool} {store : Option SessionStore} (id : SessionId)
      (session : DocumentSession) (found : sv.sessions.get? id = some session)
      (principalId : String)
      (allowed : session.requireRole principalId (if session.hasOwner then .owner else .editor) =
        .ok ())
      (followed : Followed (fun st => st.deleteSession id) fault raised sv.store store) :
      Change cfg sv fault (.close id principalId) raised
        { sv with sessions := sv.sessions.erase id, store }

/-! What holds at every session id -/

def Service.rows (sv : Service) (id : SessionId) : Option Rows := sv.store.map (·.rows id)

def Service.Everywhere (P : Nat → SessionId → Option DocumentSession → Option Rows → Prop)
    (sv : Service) : Prop :=
  ∀ id, P sv.minted id (sv.sessions.get? id) (sv.rows id)

theorem called_rows {store store' : Option SessionStore} (called : Called call store store')
    {id : SessionId} (rewrite : Rows → Rows) (effect : ∀ st st', call st = .ok st' → ∀ other,
      st'.rows other = if other = id then rewrite (st.rows id) else st.rows other) :
    (∀ other, other ≠ id → store'.map (·.rows other) = store.map (·.rows other)) ∧
      store'.map (·.rows id) = (store.map (·.rows id)).map rewrite := by
  cases called with
  | absent => exact ⟨fun _ _ => rfl,rfl⟩
  | done ok =>
    constructor
    · intro other ne
      rw [Option.map_some,effect _ _ ok other,if_neg ne]
      rfl
    · rw [Option.map_some,effect _ _ ok id,if_pos rfl]
      rfl

variable {P : Nat → SessionId → Option DocumentSession → Option Rows → Prop}

theorem everywhere_of_target (holds : sv.Everywhere P) {id : SessionId}
    {store : Option SessionStore} {sessions : Dict SessionId DocumentSession}
    (others : ∀ other, other ≠ id → sessions.get? other = sv.sessions.get? other)
    (rows : ∀ other, other ≠ id → store.map (·.rows other) = sv.rows other)
    (target : P sv.minted id (sessions.get? id) (store.map (·.rows id))) :
    ({ sv with sessions, store } : Service).Everywhere P := by
  intro other
  by_cases same : other = id
  · rw [same]
    exact target
  · show P sv.minted other (sessions.get? other) (store.map (·.rows other))
    rw [others other same,rows other same]
    exact holds other

theorem everywhere_of_put (holds : sv.Everywhere P) {id : SessionId} {store : Option SessionStore}
    {session : DocumentSession} (named : session.sessionId = id)
    (rows : ∀ other, other ≠ id → store.map (·.rows other) = sv.rows other)
    (target : P sv.minted id (some session) (store.map (·.rows id))) :
    (({ sv with store } : Service).put session).Everywhere P := by
  subst named
  refine everywhere_of_target holds ?_ rows ?_
  · exact fun other ne => Dict.get?_set_ne _ _ ne
  · rw [Dict.get?_set_self]
    exact target

/-! The checks of `append` -/

theorem admit_replayed {session : DocumentSession} {r : AppendRequest} {now : ℚ}
    {existing : SessionOp} {unbound : Bool}
    (admitted : Service.checkAppend cfg session r now = .ok (.replayed existing unbound)) :
    session.opsById.get? r.opId = some existing ∧ existing.actorId = r.actorId ∧
      unbound = (session.actorBindings.get? r.actorId).isNone := by
  unfold Service.checkAppend at admitted
  obtain ⟨_,_,rest⟩ := Fallible.bind_ok.mp admitted
  obtain ⟨patch,_,rest⟩ := Fallible.bind_ok.mp rest
  dsimp only at rest
  split at rest
  · cases rest
  split at rest
  · rename_i found
    split at rest
    · cases rest
    · rename_i same
      obtain ⟨rfl,rfl⟩ := Service.Admission.replayed.inj (Except.ok.inj rest)
      exact ⟨found,not_not.mp same,rfl⟩
  · obtain ⟨_,_,rest⟩ := Fallible.bind_ok.mp rest
    split at rest
    · cases rest
    split at rest <;> cases rest

theorem admit_ordered {session : DocumentSession} {r : AppendRequest} {now : ℚ} {op : SessionOp}
    (admitted : Service.checkAppend cfg session r now = .ok (.ordered op)) :
    ∃ patch, normalizePatch r.patch = .ok patch ∧ r.baseRevision = session.revision ∧
      op = ⟨r.opId,r.actorId,session.revision,session.revision + 1,patch,now,r.principalId,
        r.actorKind⟩ ∧
      session.opsById.get? r.opId = none ∧
      (∀ p, session.actorBindings.get? r.actorId = some p → p = r.principalId) := by
  unfold Service.checkAppend at admitted
  obtain ⟨_,_,rest⟩ := Fallible.bind_ok.mp admitted
  obtain ⟨patch,normal,rest⟩ := Fallible.bind_ok.mp rest
  dsimp only at rest
  split at rest
  · cases rest
  rename_i agrees
  split at rest
  · split at rest <;> cases rest
  · rename_i fresh
    obtain ⟨_,_,rest⟩ := Fallible.bind_ok.mp rest
    split at rest
    · cases rest
    rename_i head
    split at rest
    · cases rest
    obtain rfl := Service.Admission.ordered.inj (Except.ok.inj rest)
    refine ⟨patch,normal,not_not.mp head,rfl,fresh,fun p bound => ?_⟩
    rw [bound] at agrees
    simpa using agrees

theorem checkCheckpoint_ok {session : DocumentSession} {revision : Int}
    {document snapshot : Json.Value} {principalId : String} {upTo : Nat}
    (checked : Service.checkCheckpoint cfg session revision document principalId =
      .ok (snapshot,upTo)) :
    session.snapshotRevision < upTo ∧ upTo ≤ session.revision := by
  unfold Service.checkCheckpoint at checked
  obtain ⟨_,_,rest⟩ := Fallible.bind_ok.mp checked
  split at rest
  · cases rest
  split at rest
  · cases rest
  obtain ⟨_,_,same⟩ := Fallible.bind_ok.mp rest
  obtain ⟨rfl,rfl⟩ := Prod.mk.inj (Except.ok.inj same)
  omega

private theorem followed_ok (done : sv.stored fault call = .ok sv') :
    ∃ store, Followed call fault false sv.store store ∧ sv' = { sv with store } := by
  obtain ⟨store,called,same⟩ := stored_ok done
  exact ⟨store,.called called,same⟩

private theorem followed_error {e : SessionError} (failed : sv.stored fault call = .error e) :
    Followed call fault true sv.store sv.store := by
  obtain ⟨st,present,why⟩ := stored_error failed
  rw [present]
  exact .raised (why.imp And.left fun refused => ⟨e,refused⟩)

private theorem create_change (scope documentId documentKind principalId : String)
    (snapshot : Json.Value) (now : ℚ) : ∃ raised, Change cfg sv fault
      (.create scope documentId documentKind principalId snapshot now) raised
      (sv.create cfg fault scope documentId documentKind principalId snapshot now).2 := by
  unfold Service.create
  split
  · exact ⟨_,.unchanged _⟩
  rename_i kind
  split
  · exact ⟨_,.unchanged _⟩
  rename_i document valid
  dsimp only
  split
  · rename_i failed
    have followed := followed_error failed
    exact ⟨true,.created _ _ _ _ _ _ _ (not_not.mp kind) valid _ rfl followed⟩
  · rename_i done
    obtain ⟨store,followed,rfl⟩ := followed_ok done
    exact ⟨false,.created _ _ _ _ _ _ _ (not_not.mp kind) valid _ rfl followed⟩

private theorem bound_change {a : Action} {id : SessionId} {session : DocumentSession}
    (found : sv.sessions.get? id = some session) {actorId principalId : String}
    (unbound : session.actorBindings.get? actorId = none)
    (done : sv.bound fault session actorId principalId = .ok sv') :
    Change cfg sv fault a false sv' := by
  unfold Service.bound at done
  split at done
  · cases done
  rename_i stored
  obtain rfl := Except.ok.inj done
  obtain ⟨store,called,rfl⟩ := stored_ok stored
  exact .bound a id session found actorId principalId unbound called

private theorem append_change (id : SessionId) (r : AppendRequest) (now : ℚ) :
    Change cfg sv fault (.append id r now) false (sv.append cfg fault id r now).2 := by
  unfold Service.append
  split
  · exact .unchanged _
  rename_i session found
  split
  · exact .unchanged _
  · exact .unchanged _
  · rename_i existing admitted
    split
    · exact .unchanged _
    · rename_i done
      refine bound_change found ?_ done
      exact Option.isNone_iff_eq_none.mp (admit_replayed admitted).2.2.symm
  · rename_i op admitted
    split
    · exact .unchanged _
    · rename_i done
      obtain ⟨store,called,rfl⟩ := stored_ok done
      exact .appended id session found r now op admitted called

private theorem bindActor_change (id : SessionId) (actorId principalId : String) :
    Change cfg sv fault (.bindActor id actorId principalId) false
      (sv.bindActor fault id actorId principalId).2 := by
  unfold Service.bindActor
  split
  · exact .unchanged _
  rename_i session found
  split
  · exact .unchanged _
  split
  · exact .unchanged _
  rename_i unbound
  split
  · exact .unchanged _
  rename_i done
  exact bound_change found (Option.not_isSome_iff_eq_none.mp unbound) done

private theorem replaceAcl_change (id : SessionId) (principalId defaultRole : String)
    (entries : Dict String String) :
    Change cfg sv fault (.replaceAcl id principalId defaultRole entries) false
      (sv.replaceAcl fault id principalId defaultRole entries).2 := by
  unfold Service.replaceAcl
  split
  · exact .unchanged _
  rename_i session found
  split
  · exact .unchanged _
  rename_i role acl checked
  split
  · exact .unchanged _
  rename_i done
  obtain ⟨store,called,rfl⟩ := stored_ok done
  exact .ruled id session found principalId defaultRole entries role acl called

private theorem checkpoint_change (id : SessionId) (revision : Int) (document : Json.Value)
    (principalId : String) : ∃ raised, Change cfg sv fault
      (.checkpoint id revision document principalId) raised
      (sv.checkpoint cfg fault id revision document principalId).2 := by
  unfold Service.checkpoint
  split
  · exact ⟨_,.unchanged _⟩
  rename_i session found
  split
  · exact ⟨_,.unchanged _⟩
  rename_i snapshot upTo checked
  dsimp only
  split
  · rename_i failed
    have followed := followed_error failed
    exact ⟨true,.checkpointed id session found revision document snapshot principalId upTo checked
      followed⟩
  · rename_i done
    obtain ⟨store,followed,rfl⟩ := followed_ok done
    exact ⟨false,.checkpointed id session found revision document snapshot principalId upTo checked
      followed⟩

private theorem close_change (id : SessionId) (principalId : String) : ∃ raised,
    Change cfg sv fault (.close id principalId) raised (sv.close fault id principalId).2 := by
  unfold Service.close
  split
  · exact ⟨_,.unchanged _⟩
  rename_i session found
  split
  · exact ⟨_,.unchanged _⟩
  rename_i allowed
  dsimp only
  split
  · rename_i failed
    have followed := followed_error failed
    exact ⟨true,.closed id session found principalId allowed followed⟩
  · rename_i done
    obtain ⟨store,followed,rfl⟩ := followed_ok done
    exact ⟨false,.closed id session found principalId allowed followed⟩

theorem perform_change (cfg : Config) (sv : Service) (fault : Bool) (a : Action) :
    ∃ raised, Change cfg sv fault a raised (sv.perform cfg fault a).2 := by
  cases a with
  | create scope documentId documentKind principalId snapshot now => exact create_change ..
  | append id r now => exact ⟨false,append_change ..⟩
  | bindActor id actorId principalId => exact ⟨false,bindActor_change ..⟩
  | replaceAcl id principalId defaultRole entries => exact ⟨false,replaceAcl_change ..⟩
  | checkpoint id revision document principalId => exact checkpoint_change ..
  | close id principalId => exact close_change ..

end Dinkster.Collab
