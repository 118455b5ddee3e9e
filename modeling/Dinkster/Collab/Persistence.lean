import Dinkster.Collab.SessionLog

/-! The working set and the tables. An append, a binding and a change of the rules call the store
first; a create, a checkpoint and a close change the working set first and keep the change when
the store call raises. Away from such a failure a restart finds exactly the sessions in memory. -/
namespace Dinkster.Collab

/-- The rows that record a session. -/
def DocumentSession.rows (s : DocumentSession) : Rows where
  session := some ⟨s.scope,s.documentId,s.documentKind,s.snapshot,s.snapshotRevision,s.createdAt⟩
  ops := s.ops
  actor := s.actorBindings.get?
  role := s.acl.get?
  policy := some s.defaultRole

def recorded : Option DocumentSession → Rows
  | none => .none
  | some s => s.rows

def Mirror (session : Option DocumentSession) (rows : Option Rows) : Prop :=
  ∀ t, rows = some t → t = recorded session

/-- The tables hold each session of the working set and nothing else. -/
abbrev Mirrored (sv : Service) : Prop :=
  sv.Everywhere fun _ _ => Mirror

/-- An action that passes its checks and then changes the working set before the store. -/
def Action.memoryFirst (cfg : Config) (sv : Service) : Action → Prop
  | .create _ documentId documentKind _ snapshot _ => documentKind ∈ documentKinds ∧
      ∃ document, Service.validatedSnapshot cfg documentKind documentId snapshot = .ok document
  | .checkpoint id revision document principalId => ∃ session checked,
      sv.sessions.get? id = some session ∧
        Service.checkCheckpoint cfg session revision document principalId = .ok checked
  | .close id principalId => ∃ session, sv.sessions.get? id = some session ∧
      session.requireRole principalId (if session.hasOwner then .owner else .editor) = .ok ()
  | _ => False

/-- The store call of no such action raises. -/
def Durable (cfg : Config) (sv : Service) : Event → Prop
  | .action a fault => fault = true → ¬ a.memoryFirst cfg sv
  | .reload => True

variable {cfg : Config} {sv sv' : Service} {fault : Bool}

theorem Change.memoryFirst_of_raised {a : Action} (change : Change cfg sv fault a true sv') :
    a.memoryFirst cfg sv := by
  cases change with
  | created _ _ _ _ _ document _ kind valid => exact ⟨kind,document,valid⟩
  | checkpointed id session found _ _ snapshot _ upTo checked => exact ⟨session,_,found,checked⟩
  | closed id session found _ allowed => exact ⟨session,found,allowed⟩

private theorem append_failed {id : SessionId} {r : AppendRequest} {now : ℚ} {e : SessionError}
    (failed : (sv.append cfg fault id r now).1 = .error e) :
    (sv.append cfg fault id r now).2 = sv := by
  unfold Service.append at failed ⊢
  split
  · rfl
  split
  · rfl
  · rfl
  · split
    · rfl
    · rename_i found _ _ admitted _ _ done
      simp only [found,admitted,done] at failed
      cases failed
  · split
    · rfl
    · rename_i found _ _ admitted _ _ done
      simp only [found,admitted,done] at failed
      cases failed

private theorem bindActor_failed {id : SessionId} {actorId principalId : String}
    {e : SessionError} (failed : (sv.bindActor fault id actorId principalId).1 = .error e) :
    (sv.bindActor fault id actorId principalId).2 = sv := by
  unfold Service.bindActor at failed ⊢
  split
  · rfl
  split
  · rfl
  split
  · rfl
  split
  · rfl
  · rename_i found _ checked unbound _ _ done
    simp only [found,checked,unbound,done] at failed
    cases failed

private theorem replaceAcl_failed {id : SessionId} {principalId defaultRole : String}
    {entries : Dict String String} {e : SessionError}
    (failed : (sv.replaceAcl fault id principalId defaultRole entries).1 = .error e) :
    (sv.replaceAcl fault id principalId defaultRole entries).2 = sv := by
  unfold Service.replaceAcl at failed ⊢
  split
  · rfl
  split
  · rfl
  split
  · rfl
  · rename_i found _ _ _ checked _ _ done
    simp only [found,checked,done] at failed
    cases failed

private theorem create_failed (sound : Sound sv) {scope documentId documentKind principalId : String}
    {snapshot : Json.Value} {now : ℚ} {e : SessionError}
    (failed : (sv.create cfg fault scope documentId documentKind principalId snapshot now).1 =
      .error e) :
    (sv.create cfg fault scope documentId documentKind principalId snapshot now).2.sessions =
        sv.sessions ↔
      ¬ Action.memoryFirst cfg sv
        (.create scope documentId documentKind principalId snapshot now) := by
  unfold Service.create at failed ⊢
  split
  · rename_i unknown
    exact iff_of_true rfl fun passes => unknown passes.1
  rename_i kind
  split
  · rename_i refused
    refine iff_of_true rfl fun passes => ?_
    obtain ⟨_,_,valid⟩ := passes
    rw [refused] at valid
    cases valid
  rename_i document valid
  refine iff_of_false ?_ (not_not.mpr ⟨not_not.mp kind,document,valid⟩)
  dsimp only
  split
  · intro same
    have fresh : sv.sessions.get? sv.minted = none := by
      rw [Option.eq_none_iff_forall_ne_some]
      intro s found
      exact Nat.lt_irrefl _ ((sound sv.minted).named s found).2
    have lookup := congrArg (Dict.get? · sv.minted) same
    dsimp only [Service.put] at lookup
    rw [Dict.get?_set_self,fresh] at lookup
    cases lookup
  · rename_i done
    simp only [if_neg kind,valid,done] at failed
    cases failed

private theorem checkpoint_failed (sound : Sound sv) {id : SessionId} {revision : Int}
    {document : Json.Value} {principalId : String} {e : SessionError}
    (failed : (sv.checkpoint cfg fault id revision document principalId).1 = .error e) :
    (sv.checkpoint cfg fault id revision document principalId).2.sessions = sv.sessions ↔
      ¬ Action.memoryFirst cfg sv (.checkpoint id revision document principalId) := by
  unfold Service.checkpoint at failed ⊢
  split
  · rename_i missing
    refine iff_of_true rfl fun passes => ?_
    obtain ⟨_,_,found,_⟩ := passes
    rw [missing] at found
    cases found
  rename_i session found
  split
  · rename_i refused
    refine iff_of_true rfl fun passes => ?_
    obtain ⟨_,_,found',checked⟩ := passes
    obtain rfl := Option.some.inj (found.symm.trans found')
    rw [refused] at checked
    cases checked
  rename_i snapshot upTo checked
  refine iff_of_false ?_ (not_not.mpr ⟨session,_,found,checked⟩)
  dsimp only
  split
  · intro same
    obtain rfl := ((sound id).named session found).1
    have lookup := congrArg (Dict.get? · session.sessionId) same
    dsimp only [Service.put] at lookup
    rw [found,Dict.get?_set] at lookup
    have kept := congrArg DocumentSession.snapshotRevision
      (Option.some.inj ((if_pos rfl).symm.trans lookup))
    have advances := (checkCheckpoint_ok checked).1
    exact Nat.lt_irrefl _ (kept ▸ advances)
  · rename_i done
    simp only [found,checked,done] at failed
    cases failed

private theorem close_failed {id : SessionId} {principalId : String} {e : SessionError}
    (failed : (sv.close fault id principalId).1 = .error e) :
    (sv.close fault id principalId).2.sessions = sv.sessions ↔
      ¬ Action.memoryFirst cfg sv (.close id principalId) := by
  unfold Service.close at failed ⊢
  split
  · rename_i missing
    refine iff_of_true rfl fun passes => ?_
    obtain ⟨_,found,_⟩ := passes
    rw [missing] at found
    cases found
  rename_i session found
  split
  · rename_i refused
    refine iff_of_true rfl fun passes => ?_
    obtain ⟨_,found',allowed⟩ := passes
    obtain rfl := Option.some.inj (found.symm.trans found')
    rw [refused] at allowed
    cases allowed
  rename_i allowed
  refine iff_of_false ?_ (not_not.mpr ⟨session,found,allowed⟩)
  dsimp only
  split
  · intro same
    have lookup := congrArg (Dict.get? · id) same
    dsimp only at lookup
    rw [found,Dict.get?_erase,if_pos rfl] at lookup
    cases lookup
  · rename_i done
    simp only [found,allowed,done] at failed
    cases failed

/-- A failed operation leaves the working set as it was exactly where it is not one that passed
its checks and then changed the working set before the store. -/
theorem perform_failed (sound : Sound sv) {a : Action} {e : SessionError}
    (failed : (sv.perform cfg fault a).1 = .error e) :
    (sv.perform cfg fault a).2.sessions = sv.sessions ↔ ¬ a.memoryFirst cfg sv := by
  cases a with
  | create scope documentId documentKind principalId snapshot now =>
    exact create_failed sound failed
  | append id r now => exact iff_of_true (congrArg _ (append_failed failed)) not_false
  | bindActor id actorId principalId => 
    exact iff_of_true (congrArg _ (bindActor_failed failed)) not_false
  | replaceAcl id principalId defaultRole entries =>
    exact iff_of_true (congrArg _ (replaceAcl_failed failed)) not_false
  | checkpoint id revision document principalId => exact checkpoint_failed sound failed
  | close id principalId => exact close_failed failed

theorem putSession_fresh {st : SessionStore} {session : DocumentSession}
    (free : st.rows session.sessionId = Rows.none) : ∃ st', st.putSession session = .ok st' := by
  refine ⟨_,if_neg ?_⟩
  rintro (held | held | held)
  · obtain ⟨row,found⟩ := (Dict.mem_keys_iff _ _).mp held
    exact nomatch found.symm.trans (congrArg Rows.session free)
  · obtain ⟨role,found⟩ := (Dict.mem_keys_iff _ _).mp held
    exact nomatch found.symm.trans (congrArg Rows.policy free)
  · obtain ⟨entry,_,found⟩ := List.any_eq_true.mp held
    obtain ⟨role,found⟩ := Option.isSome_iff_exists.mp found
    exact nomatch found.symm.trans (congrFun (congrArg Rows.role free) entry.1)

private theorem called_of_followed {call : SessionStore → Except SessionError SessionStore}
    {raised : Bool} {store store' : Option SessionStore}
    (followed : Followed call fault raised store store')
    (quiet : raised = true → fault = false) (accepted : ∀ st, store = some st → ∃ st', call st = .ok st') :
    Called call store store' := by
  cases followed with
  | called ok => exact ok
  | @raised st why =>
    rcases why with faulty | ⟨e,refused⟩
    · exact nomatch faulty.symm.trans (quiet rfl)
    · obtain ⟨st',ok⟩ := accepted st rfl
      exact nomatch refused.symm.trans ok

private theorem mirrored_at (mirrored : Mirrored sv) {id : SessionId} {session : DocumentSession}
    (found : sv.sessions.get? id = some session) (t : Rows) (held : sv.rows id = some t) :
    t = session.rows :=
  (mirrored id t held).trans (congrArg recorded found)

private theorem recorded_of {session session' : DocumentSession} {rows : Option Rows}
    (rewrite : Rows → Rows) (holds : ∀ t, rows = some t → t = session.rows)
    (same : rewrite session.rows = session'.rows) :
    Mirror (some session') (rows.map rewrite) := by
  intro t found
  obtain ⟨before,held,rfl⟩ := Option.map_eq_some_iff.mp found
  rw [holds before held,same]
  rfl

private theorem appended_rows {session : DocumentSession} {r : AppendRequest} {now : ℚ}
    {op : SessionOp} (ordered : Service.checkAppend cfg session r now = .ok (.ordered op)) :
    session.rows.appended op r.principalId =
      (session.withOp op r.actorId r.principalId).rows := by
  obtain ⟨patch,_,_,rfl,_,_⟩ := admit_ordered ordered
  ext1
  · rfl
  · rfl
  · funext a
    show (if a = r.actorId then some (((session.actorBindings.get? a)).getD r.principalId)
      else session.actorBindings.get? a) = Dict.get? (if _ then _ else _) a
    cases before : session.actorBindings.get? r.actorId with
    | none =>
      refine Eq.trans ?_ (Dict.get?_set _ _ _ _).symm
      split
      · rename_i same
        rw [same,before]
        rfl
      · rfl
    | some p =>
      show _ = Dict.get? session.actorBindings a
      split
      · rename_i same
        rw [same,before]
        rfl
      · rfl
  · rfl
  · rfl

theorem change_mirrored (sound : Sound sv) (mirrored : Mirrored sv) {a : Action} {raised : Bool}
    (durable : Durable cfg sv (.action a fault)) (change : Change cfg sv fault a raised sv') :
    Mirrored sv' := by
  have quiet : raised = true → fault = false := by
    rintro rfl
    exact Bool.eq_false_iff.mpr fun faulty => durable faulty change.memoryFirst_of_raised
  cases change with
  | unchanged => exact mirrored
  | @created _ store _ _ _ _ _ document _ kind valid session made followed =>
    have named : session.sessionId = sv.minted := by rw [made]
    have absent := (sound sv.minted).unborn (Nat.le_refl _)
    have called := called_of_followed followed quiet fun st present =>
      putSession_fresh (named ▸ absent _ (by rw [Service.rows,present]; rfl))
    obtain ⟨others,rows⟩ := called_rows called (Rows.created · session)
      fun st st' ok => rows_putSession ok
    rw [named] at others rows
    have later : Mirrored { sv with minted := sv.minted + 1 } := mirrored
    refine everywhere_of_put (P := fun _ _ => Mirror) later named others ?_
    rw [rows]
    intro t found
    obtain ⟨before,held,rfl⟩ := Option.map_eq_some_iff.mp found
    rw [absent before held,made]
    ext1
    · rfl
    · rfl
    · rfl
    · funext p
      exact Option.or_none
    · rfl
  | @appended store id session found r now op ordered called =>
    obtain ⟨others,rows⟩ := called_rows called (Rows.appended op r.principalId)
      fun st st' ok => rows_appendOp ok
    refine everywhere_of_put (P := fun _ _ => Mirror) mirrored ((sound id).named _ found).1 others ?_
    rw [rows]
    exact recorded_of _ (mirrored_at mirrored found) (appended_rows ordered)
  | @bound store _ id session found actorId principalId unbound called =>
    have named := ((sound id).named _ found).1
    obtain ⟨others,rows⟩ := called_rows called (Rows.bound actorId principalId)
      fun st st' ok => rows_putActor ok
    rw [named] at others rows
    refine everywhere_of_put (P := fun _ _ => Mirror) mirrored named others ?_
    rw [rows]
    refine recorded_of _ (mirrored_at mirrored found) ?_
    ext1
    · rfl
    · rfl
    · funext a
      exact (Dict.get?_set _ _ _ _).symm
    · rfl
    · rfl
  | @ruled store id session found _ _ _ role acl called =>
    obtain ⟨others,rows⟩ := called_rows called (Rows.ruled role acl)
      fun st st' ok => rows_replaceAcl ok
    refine everywhere_of_put (P := fun _ _ => Mirror) mirrored ((sound id).named _ found).1 others ?_
    rw [rows]
    exact recorded_of _ (mirrored_at mirrored found) (by rfl)
  | @checkpointed _ store id session found _ _ snapshot _ upTo checked followed =>
    have called := called_of_followed followed quiet fun st _ => ⟨_,rfl⟩
    obtain ⟨others,rows⟩ := called_rows called (Rows.checkpointed snapshot upTo)
      fun st st' ok => rows_checkpoint ok
    refine everywhere_of_put (P := fun _ _ => Mirror) mirrored ((sound id).named _ found).1 others ?_
    rw [rows]
    exact recorded_of _ (mirrored_at mirrored found) (by rfl)
  | @closed _ store id session found _ _ followed =>
    have called := called_of_followed followed quiet fun st _ => ⟨_,rfl⟩
    obtain ⟨others,rows⟩ := called_rows called (fun _ => Rows.none)
      fun st st' ok => rows_deleteSession ok
    refine everywhere_of_target (P := fun _ _ => Mirror) mirrored
      (fun other ne => by rw [Dict.get?_erase,if_neg ne]) others ?_
    rw [rows,Dict.get?_erase,if_pos rfl]
    intro t held
    obtain ⟨_,_,rfl⟩ := Option.map_eq_some_iff.mp held
    rfl

/-- Equal sessions; dictionaries are equal when their lookups are. -/
structure Same (a b : DocumentSession) : Prop where
  sessionId : a.sessionId = b.sessionId
  scope : a.scope = b.scope
  documentId : a.documentId = b.documentId
  documentKind : a.documentKind = b.documentKind
  snapshot : a.snapshot = b.snapshot
  snapshotRevision : a.snapshotRevision = b.snapshotRevision
  createdAt : a.createdAt = b.createdAt
  ops : a.ops = b.ops
  opsById : ∀ k, a.opsById.get? k = b.opsById.get? k
  actorBindings : ∀ k, a.actorBindings.get? k = b.actorBindings.get? k
  acl : ∀ k, a.acl.get? k = b.acl.get? k
  defaultRole : a.defaultRole = b.defaultRole

theorem loadSession_same {st : SessionStore} {id : SessionId} {row : SessionRow}
    {session : DocumentSession} (rows : st.rows id = session.rows)
    (present : st.sessions.get? id = some row) (named : session.sessionId = id)
    (sound : LogSound session) : Same (st.loadSession id row) session := by
  have row' := present.symm.trans (congrArg Rows.session rows)
  obtain rfl := Option.some.inj row'
  have held : (st.rows id).ops = session.ops := congrArg Rows.ops rows
  have actor (a : String) : st.actors.get? (id,a) = session.actorBindings.get? a :=
    congrFun (congrArg Rows.actor rows) a
  have kept : RowsSound (st.rows id) ⟨session.scope,session.documentId,session.documentKind,
      session.snapshot,session.snapshotRevision,session.createdAt⟩ := by
    refine ⟨held ▸ sound.ordered,fun op inside => ?_⟩
    exact (actor op.actorId).trans (sound.bound op (held ▸ inside))
  have ops (row : SessionRow) : (st.loadSession id row).ops = session.ops :=
    (loadSession_ops kept.ordered).trans held
  refine ⟨named.symm,rfl,rfl,rfl,rfl,rfl,rfl,ops _,fun k => ?_,fun k => ?_,fun k => ?_,?_⟩
  · refine Option.ext fun op => ?_
    rw [(loadSession_sound kept).indexed,sound.indexed,ops]
  · exact (Dict.get?_slice _ _ _).trans (actor k)
  · exact (Dict.get?_slice _ _ _).trans (congrFun (congrArg Rows.role rows) k)
  · exact congrArg (Option.getD · .editor) (congrArg Rows.policy rows)

private theorem session_of_row {st : SessionStore} (present : sv.store = some st)
    (mirrored : Mirrored sv) {id : SessionId} (held : st.rows id ≠ Rows.none) :
    ∃ session, sv.sessions.get? id = some session ∧ st.rows id = session.rows := by
  have rows := mirrored id (st.rows id) (by rw [Service.rows,present]; rfl)
  cases found : sv.sessions.get? id with
  | none =>
    rw [found] at rows
    exact absurd rows held
  | some session =>
    rw [found] at rows
    exact ⟨session,rfl,rows⟩

theorem loadAll_mirrored {st : SessionStore} (present : sv.store = some st) (sound : Sound sv)
    (mirrored : Mirrored sv) : ∃ loaded, st.loadAll = .ok loaded ∧
      ∀ id, Option.Rel Same (loaded.get? id) (sv.sessions.get? id) := by
  have kept {id : SessionId} (held : st.rows id ≠ Rows.none) :
      (st.sessions.get? id).isSome = true := by
    obtain ⟨session,_,rows⟩ := session_of_row present mirrored held
    exact congrArg Option.isSome (congrArg Rows.session rows)
  refine ⟨_,if_pos ?_,fun id => ?_⟩
  · simp only [Bool.and_eq_true,List.all_eq_true]
    refine ⟨⟨?_,?_⟩,?_⟩
    · intro key inside
      obtain ⟨p,found⟩ := (Dict.mem_keys_iff _ _).mp inside
      exact kept fun none => Option.some_ne_none p
        (found.symm.trans (congrFun (congrArg Rows.actor none) key.2))
    · intro id inside
      obtain ⟨role,found⟩ := (Dict.mem_keys_iff _ _).mp inside
      exact kept fun none => Option.some_ne_none role
        (found.symm.trans (congrArg Rows.policy none))
    · intro key inside
      obtain ⟨role,found⟩ := (Dict.mem_keys_iff _ _).mp inside
      exact kept fun none => Option.some_ne_none role
        (found.symm.trans (congrFun (congrArg Rows.role none) key.2))
  · rw [Dict.get?_mapWithKey]
    cases row : st.sessions.get? id with
    | none =>
      have rows := mirrored id (st.rows id) (by rw [Service.rows,present]; rfl)
      cases found : sv.sessions.get? id with
      | none => exact .none
      | some session =>
        rw [found] at rows
        exact absurd (row.symm.trans (congrArg Rows.session rows)) (Option.some_ne_none _).symm
    | some row' =>
      have held : st.rows id ≠ Rows.none :=
        fun none => Option.some_ne_none row' (row.symm.trans (congrArg Rows.session none))
      obtain ⟨session,found,rows⟩ := session_of_row present mirrored held
      rw [found]
      exact .some (loadSession_same rows row ((sound id).named _ found).1
        ((sound id).log _ found))

theorem reload_mirrored (sound : Sound sv) (mirrored : Mirrored sv)
    (reloaded : sv.reload = some sv') : Mirrored sv' := by
  unfold Service.reload at reloaded
  split at reloaded
  · cases reloaded
  rename_i st present
  obtain ⟨loaded,ok,same⟩ := loadAll_mirrored present sound mirrored
  rw [ok] at reloaded
  dsimp only at reloaded
  obtain rfl := Option.some.inj reloaded
  intro id t held
  have before := mirrored id t held
  have alike := same id
  show t = recorded (loaded.get? id)
  cases here : loaded.get? id with
  | none =>
    rw [here] at alike
    cases found : sv.sessions.get? id with
    | none => rwa [found] at before
    | some session => rw [found] at alike; cases alike
  | some session' =>
    rw [here] at alike
    cases found : sv.sessions.get? id with
    | none => rw [found] at alike; cases alike
    | some session =>
      rw [found] at alike before
      cases alike with
      | some alike =>
        rw [before]
        show session.rows = session'.rows
        unfold DocumentSession.rows
        rw [alike.scope,alike.documentId,alike.documentKind,alike.snapshot,
          alike.snapshotRevision,alike.createdAt,alike.ops,alike.defaultRole,
          funext alike.actorBindings,funext alike.acl]

theorem reload_store (reloaded : sv.reload = some sv') : sv'.store = sv.store := by
  unfold Service.reload at reloaded
  split at reloaded
  · cases reloaded
  split at reloaded
  · cases reloaded
  obtain rfl := Option.some.inj reloaded
  rfl

private theorem Called.isSome {call : SessionStore → Except SessionError SessionStore}
    {store store' : Option SessionStore} (called : Called call store store')
    (stored : store.isSome) : store'.isSome := by
  cases called with
  | absent => exact stored
  | done => rfl

private theorem Followed.isSome {call : SessionStore → Except SessionError SessionStore}
    {raised : Bool} {store store' : Option SessionStore}
    (followed : Followed call fault raised store store') (stored : store.isSome) :
    store'.isSome := by
  rcases followed.split with same | called
  · exact same ▸ stored
  · exact called.isSome stored

theorem Change.store_isSome {a : Action} {raised : Bool}
    (change : Change cfg sv fault a raised sv') (stored : sv.store.isSome) : sv'.store.isSome := by
  cases change with
  | unchanged => exact stored
  | created _ _ _ _ _ _ _ _ _ _ _ followed => exact followed.isSome stored
  | appended _ _ _ _ _ _ _ called => exact called.isSome stored
  | bound _ _ _ _ _ _ _ called => exact called.isSome stored
  | ruled _ _ _ _ _ _ _ _ called => exact called.isSome stored
  | checkpointed _ _ _ _ _ _ _ _ _ followed => exact followed.isSome stored
  | closed _ _ _ _ _ followed => exact followed.isSome stored

/-- An operation that fails leaves the working set unchanged exactly when it is not one that
changes it before its store call; and where no such store call raises, a restart at any point
finds the sessions that are in memory. -/
theorem persistence_atomic (cfg : Config) :
    (∀ persistent sv, Transition.Reachable (step cfg) (.start persistent) sv →
      ∀ a fault e, (sv.perform cfg fault a).1 = .error e →
        ((sv.perform cfg fault a).2.sessions = sv.sessions ↔ ¬ a.memoryFirst cfg sv)) ∧
    (∀ sv, Transition.Reach (step cfg) (Durable cfg) (.start true) sv →
      ∃ st loaded, sv.store = some st ∧ st.loadAll = .ok loaded ∧
        ∀ id, Option.Rel Same (loaded.get? id) (sv.sessions.get? id)) := by
  refine ⟨fun persistent sv reached a fault e failed =>
    perform_failed (reachable_sound reached) failed,fun sv reached => ?_⟩
  have kept : Sound sv ∧ Mirrored sv ∧ sv.store.isSome := by
    refine reached.invariant (fun sv => Sound sv ∧ Mirrored sv ∧ sv.store.isSome)
      ⟨start_sound true,fun id => (start_sound true id).unborn (Nat.zero_le _),rfl⟩
      fun t event u held allowed stepped => ?_
    obtain ⟨sound,mirrored,stored⟩ := held
    refine ⟨step_sound sound stepped,?_,?_⟩
    · cases event with
      | action a fault =>
        obtain rfl := Option.some.inj stepped
        obtain ⟨raised,change⟩ := perform_change cfg t fault a
        exact change_mirrored sound mirrored allowed change
      | reload => exact reload_mirrored sound mirrored stepped
    · cases event with
      | action a fault =>
        obtain rfl := Option.some.inj stepped
        obtain ⟨raised,change⟩ := perform_change cfg t fault a
        exact change.store_isSome stored
      | reload => exact (reload_store stepped).symm ▸ stored
  obtain ⟨sound,mirrored,stored⟩ := kept
  obtain ⟨st,present⟩ := Option.isSome_iff_exists.mp stored
  obtain ⟨loaded,ok,same⟩ := loadAll_mirrored present sound mirrored
  exact ⟨st,loaded,present,ok,same⟩

/-- A close whose `DELETE` raises: the session is gone from memory, and a restart finds it. -/
theorem failedClose_loses_session :
    let sv := editedOnce ⟨1,le_rfl,none⟩
    let closed := sv.perform ⟨1,le_rfl,none⟩ true (.close 0 "alice")
    Transition.Reachable (step ⟨1,le_rfl,none⟩) (.start true) sv ∧
      closed.1 = .error .store ∧ closed.2.sessions ≠ sv.sessions ∧
      ∃ st loaded, closed.2.store = some st ∧ st.loadAll = .ok loaded ∧
        ¬ Option.Rel Same (loaded.get? 0) (closed.2.sessions.get? 0) := by
  refine ⟨Transition.reachable_offer _,rfl,?_,_,_,rfl,rfl,?_⟩
  · intro same
    have keys := congrArg (fun d => d.keys.length) same
    exact absurd (show 0 = 1 from keys) (by decide)
  · intro alike
    cases alike

theorem persistence_atomic_editedOnce :
    ∃ st loaded, (editedOnce ⟨1,le_rfl,none⟩).store = some st ∧ st.loadAll = .ok loaded ∧
      Option.Rel Same (loaded.get? 0) ((editedOnce ⟨1,le_rfl,none⟩).sessions.get? 0) := by
  have reached : Transition.Reach (step ⟨1,le_rfl,none⟩) (Durable ⟨1,le_rfl,none⟩) (.start true)
      (editedOnce ⟨1,le_rfl,none⟩) := Transition.reach_offer _ (by simp [Durable])
  obtain ⟨st,loaded,present,ok,same⟩ := (persistence_atomic ⟨1,le_rfl,none⟩).2 _ reached
  exact ⟨st,loaded,present,ok,same 0⟩

end Dinkster.Collab
