import Dinkster.Collab.SessionRows

/-! The log of a session over whole runs: revisions without a gap, an index that names what is
retained, appends at the head only, resubmission and catch-up reads. A store call may raise at
any point, also after the working set has changed, and the service may restart over its store. -/
namespace Dinkster.Collab

structure Ordered (snapshotRevision : Nat) (ops : List SessionOp) : Prop where
  contiguous : ops.map (·.revision) = List.range' (snapshotRevision + 1) ops.length
  based : ∀ op ∈ ops, op.revision = op.baseRevision + 1
  distinct : (ops.map (·.opId)).Nodup

private theorem filter_range' {start count cut : Nat} (low : start ≤ cut)
    (high : cut ≤ start + count) : (List.range' (start + 1) count).filter (fun n => cut < n) =
      List.range' (cut + 1) (start + count - cut) := by
  obtain ⟨below,rfl⟩ := Nat.exists_eq_add_of_le low
  obtain ⟨above,rfl⟩ : ∃ above, count = below + above := ⟨count - below,by omega⟩
  rw [← List.range'_append_1,List.filter_append]
  have pruned : (List.range' (start + 1) below).filter (fun n => start + below < n) = [] := by
    refine List.filter_eq_nil_iff.mpr fun n inside => ?_
    have bounds := List.mem_range'_1.mp inside
    simp only [decide_eq_true_eq]
    omega
  have kept : (List.range' (start + 1 + below) above).filter (fun n => start + below < n) =
      List.range' (start + 1 + below) above := by
    refine List.filter_eq_self.mpr fun n inside => ?_
    have bounds := List.mem_range'_1.mp inside
    simp only [decide_eq_true_eq]
    omega
  rw [pruned,kept,List.nil_append]
  congr 1 <;> omega

namespace Ordered

variable {start : Nat} {ops : List SessionOp}

theorem nil : Ordered start [] := ⟨rfl,by simp,by simp⟩

theorem bounds (log : Ordered start ops) {op : SessionOp} (inside : op ∈ ops) :
    start < op.revision ∧ op.revision ≤ start + ops.length := by
  have listed : op.revision ∈ ops.map (·.revision) := List.mem_map_of_mem inside
  rw [log.contiguous,List.mem_range'_1] at listed
  omega

theorem append (log : Ordered start ops) {op : SessionOp}
    (next : op.revision = start + ops.length + 1) (based : op.revision = op.baseRevision + 1)
    (fresh : ∀ old ∈ ops, old.opId ≠ op.opId) : Ordered start (ops ++ [op]) where
  contiguous := by
    rw [List.map_append,log.contiguous,List.length_append,List.map_singleton,next,
      List.length_singleton,List.range'_1_concat]
    congr 2
    omega
  based := by
    intro old inside
    rcases List.mem_append.mp inside with held | new
    · exact log.based old held
    · rw [List.mem_singleton.mp new]
      exact based
  distinct := by
    rw [List.map_append,List.nodup_append]
    refine ⟨log.distinct,by simp,?_⟩
    intro k held k' new same
    obtain ⟨old,inside,rfl⟩ := List.mem_map.mp held
    obtain rfl : k' = op.opId := by simpa using new
    exact fresh old inside same

theorem after (log : Ordered start ops) {cut : Nat} (low : start ≤ cut)
    (high : cut ≤ start + ops.length) :
    (ops.filter fun op => decide (cut < op.revision)).map (·.revision) =
      List.range' (cut + 1) (start + ops.length - cut) := by
  rw [← filter_range' low high,← log.contiguous,List.filter_map]
  rfl

theorem after_length (log : Ordered start ops) {cut : Nat} (low : start ≤ cut)
    (high : cut ≤ start + ops.length) :
    (ops.filter fun op => decide (cut < op.revision)).length = start + ops.length - cut := by
  have listed := congrArg List.length (log.after low high)
  rwa [List.length_map,List.length_range'] at listed

theorem prune (log : Ordered start ops) {cut : Nat} (low : start ≤ cut)
    (high : cut ≤ start + ops.length) :
    Ordered cut (ops.filter fun op => decide (cut < op.revision)) where
  contiguous := by rw [log.after low high,log.after_length low high]
  based := fun op inside => log.based op (List.mem_of_mem_filter inside)
  distinct := log.distinct.sublist (List.filter_sublist.map _)

theorem sorted (log : Ordered start ops) :
    ops.mergeSort (fun a b => decide (a.revision ≤ b.revision)) = ops := by
  refine List.mergeSort_of_pairwise ?_
  have increasing : (ops.map (·.revision)).Pairwise (· < ·) := by
    rw [log.contiguous]
    exact List.pairwise_lt_range'
  refine (List.pairwise_map.mp increasing).imp fun less => ?_
  exact decide_eq_true (Nat.le_of_lt less)

end Ordered

theorem DocumentSession.revision_eq {session : DocumentSession}
    (log : Ordered session.snapshotRevision session.ops) :
    session.revision = session.snapshotRevision + session.ops.length := by
  unfold DocumentSession.revision
  cases last : session.ops.getLast? with
  | none =>
    rw [List.getLast?_eq_none_iff.mp last]
    rfl
  | some op =>
    obtain ⟨earlier,same⟩ := List.getLast?_eq_some_iff.mp last
    have listed := log.contiguous
    rw [same,List.map_append,List.length_append,List.map_singleton,List.length_singleton,
      List.range'_1_concat] at listed
    have final := (List.append_inj' listed rfl).2
    have number : op.revision = session.snapshotRevision + 1 + earlier.length := by
      simpa using final
    rw [same,List.length_append,List.length_singleton]
    dsimp only
    omega

structure LogSound (session : DocumentSession) : Prop where
  ordered : Ordered session.snapshotRevision session.ops
  indexed : ∀ k op, session.opsById.get? k = some op ↔ op ∈ session.ops ∧ op.opId = k
  bound : ∀ op ∈ session.ops, session.actorBindings.get? op.actorId = some op.principalId

structure RowsSound (rows : Rows) (row : SessionRow) : Prop where
  ordered : Ordered row.snapshotRevision rows.ops
  bound : ∀ op ∈ rows.ops, rows.actor op.actorId = some op.principalId

/-- The session holds the rows its own snapshot does not cover; a checkpoint whose store call
raised leaves the row's snapshot behind. -/
structure Linked (session : DocumentSession) (rows : Rows) (row : SessionRow) : Prop where
  behind : row.snapshotRevision ≤ session.snapshotRevision
  reached : session.snapshotRevision ≤ row.snapshotRevision + rows.ops.length
  ops : session.ops = rows.ops.filter fun op => decide (session.snapshotRevision < op.revision)
  actor : ∀ a, rows.actor a = session.actorBindings.get? a

structure Coherent (minted : Nat) (id : SessionId) (session : Option DocumentSession)
    (rows : Option Rows) : Prop where
  named : ∀ s, session = some s → s.sessionId = id ∧ id < minted
  log : ∀ s, session = some s → LogSound s
  unborn : minted ≤ id → ∀ r, rows = some r → r = Rows.none
  kept : ∀ r row, rows = some r → r.session = some row → RowsSound r row
  linked : ∀ s r row, session = some s → rows = some r → r.session = some row → Linked s r row

abbrev Sound (sv : Service) : Prop := sv.Everywhere Coherent

private theorem get?_foldl_erase (pruned : List SessionOp) (index : Dict String SessionOp)
    (k : String) : (pruned.foldl (fun index op => index.erase op.opId) index).get? k =
      if ∃ op ∈ pruned, op.opId = k then none else index.get? k := by
  induction pruned generalizing index with
  | nil => simp
  | cons op pruned ih =>
    rw [List.foldl_cons,ih,Dict.get?_erase]
    by_cases later : ∃ op ∈ pruned, op.opId = k
    · rw [if_pos later,if_pos ?_]
      obtain ⟨other,inside,same⟩ := later
      exact ⟨other,List.mem_cons_of_mem _ inside,same⟩
    · rw [if_neg later]
      by_cases first : k = op.opId
      · rw [if_pos first,if_pos ⟨op,List.mem_cons_self,first.symm⟩]
      · rw [if_neg first,if_neg ?_]
        rintro ⟨other,inside,same⟩
        rcases List.mem_cons.mp inside with rfl | inside
        · exact first same.symm
        · exact later ⟨other,inside,same⟩

private theorem pruned_sound {s : DocumentSession} (sound : LogSound s) (snapshot : Json.Value)
    {cut : Nat} (low : s.snapshotRevision ≤ cut)
    (high : cut ≤ s.snapshotRevision + s.ops.length) :
    LogSound (Service.pruned s snapshot cut) := by
  refine ⟨sound.ordered.prune low high,fun k op => ?_,fun op inside => ?_⟩
  · show (List.foldl _ s.opsById _).get? k = some op ↔ op ∈ s.ops.filter _ ∧ op.opId = k
    rw [get?_foldl_erase,List.mem_filter]
    split
    · rename_i erased
      obtain ⟨old,inside,same⟩ := erased
      obtain ⟨held,covered⟩ := List.mem_filter.mp inside
      simp only [reduceCtorEq,false_iff]
      rintro ⟨⟨member,later⟩,key⟩
      -- ids are distinct, so the id erased for a covered operation is no later one's
      obtain rfl : old = op :=
        List.inj_on_of_nodup_map sound.ordered.distinct held member (same.trans key.symm)
      have covered := of_decide_eq_true covered
      have later := of_decide_eq_true later
      omega
    · rename_i free
      rw [sound.indexed]
      constructor
      · rintro ⟨member,key⟩
        refine ⟨⟨member,decide_eq_true ?_⟩,key⟩
        by_contra covered
        exact free ⟨op,List.mem_filter.mpr ⟨member,decide_eq_true (Nat.not_lt.mp covered)⟩,key⟩
      · rintro ⟨⟨member,_⟩,key⟩
        exact ⟨member,key⟩
  · exact sound.bound op (List.mem_of_mem_filter inside)

namespace Coherent

variable {minted : Nat} {id : SessionId} {s : DocumentSession} {rows : Option Rows}

theorem later {session : Option DocumentSession} (c : Coherent minted id session rows) :
    Coherent (minted + 1) id session rows where
  named := fun s found => ⟨(c.named s found).1,Nat.lt_succ_of_lt (c.named s found).2⟩
  log := c.log
  unborn := fun beyond => c.unborn (Nat.le_of_succ_le beyond)
  kept := c.kept
  linked := c.linked

theorem append (c : Coherent minted id (some s) rows) {r : AppendRequest} {now : ℚ}
    {op : SessionOp} {cfg : Config} (ordered : Service.checkAppend cfg s r now = .ok (.ordered op))
    (fresh : ∀ t, rows = some t → ∀ old ∈ t.ops, old.opId ≠ op.opId) :
    Coherent minted id (some (s.withOp op r.actorId r.principalId))
      (rows.map (Rows.appended op r.principalId)) := by
  obtain ⟨patch,_,_,rfl,unindexed,agrees⟩ := admit_ordered ordered
  have sound := c.log s rfl
  have revision := DocumentSession.revision_eq sound.ordered
  -- what the actor is bound to once the operation is in
  have binding (a : String) : (s.withOp ⟨r.opId,r.actorId,s.revision,s.revision + 1,patch,now,
      r.principalId,r.actorKind⟩ r.actorId r.principalId).actorBindings.get? a =
      if a = r.actorId then some r.principalId else s.actorBindings.get? a := by
    unfold DocumentSession.withOp
    dsimp only
    cases before : s.actorBindings.get? r.actorId with
    | none => exact Dict.get?_set _ _ _ _
    | some p =>
      refine (congrArg (Dict.get? · a) (if_pos rfl)).trans ?_
      split
      · rename_i same
        rw [same,before,agrees p before]
      · rfl
  have stays (old : SessionOp) (p : String) (held : s.actorBindings.get? old.actorId = some p) :
      (if old.actorId = r.actorId then some r.principalId else s.actorBindings.get? old.actorId) =
        some p := by
    split
    · rename_i same
      rw [agrees p (same ▸ held)]
    · exact held
  refine ⟨?_,?_,?_,?_,?_⟩
  · intro t found
    obtain rfl := Option.some.inj found
    exact c.named s rfl
  · intro t found
    obtain rfl := Option.some.inj found
    refine ⟨?_,?_,?_⟩
    · refine sound.ordered.append (by dsimp only; omega) rfl fun old inside clash => ?_
      have listed := (sound.indexed r.opId old).mpr ⟨inside,clash⟩
      rw [unindexed] at listed
      cases listed
    · intro k other
      show (s.opsById.set r.opId _).get? k = some other ↔ other ∈ s.ops ++ [_] ∧ _
      rw [Dict.get?_set,List.mem_append,List.mem_singleton]
      split
      · rename_i same
        subst same
        constructor
        · intro new
          rw [← Option.some.inj new]
          exact ⟨.inr rfl,rfl⟩
        · rintro ⟨held | rfl,key⟩
          · have listed := (sound.indexed r.opId other).mpr ⟨held,key⟩
            rw [unindexed] at listed
            cases listed
          · rfl
      · rename_i different
        rw [sound.indexed]
        constructor
        · rintro ⟨held,key⟩
          exact ⟨.inl held,key⟩
        · rintro ⟨held | rfl,key⟩
          · exact ⟨held,key⟩
          · exact absurd key.symm different
    · intro old inside
      rw [binding]
      rcases List.mem_append.mp inside with held | new
      · exact stays old _ (sound.bound old held)
      · rw [List.mem_singleton.mp new]
        exact if_pos rfl
  · intro beyond
    exact absurd (c.named s rfl).2 (Nat.not_lt.mpr beyond)
  · rintro _ row found present
    obtain ⟨t,held,rfl⟩ := Option.map_eq_some_iff.mp found
    have kept := c.kept t row held present
    have link := c.linked s t row rfl held present
    have length := congrArg List.length link.ops
    rw [kept.ordered.after_length link.behind link.reached] at length
    refine ⟨kept.ordered.append (by dsimp only; have := link.reached; omega) rfl (fresh t held),?_⟩
    intro old inside
    unfold Rows.appended at inside ⊢
    rcases List.mem_append.mp inside with before | new
    · have bound := kept.bound old before
      dsimp only
      split
      · rw [bound]
        rfl
      · exact bound
    · rw [List.mem_singleton.mp new]
      dsimp only
      rw [if_pos rfl,link.actor]
      cases before : s.actorBindings.get? r.actorId with
      | none => rfl
      | some p => rw [agrees p before]; rfl
  · rintro _ _ row found stored present
    obtain rfl := Option.some.inj found
    obtain ⟨t,held,rfl⟩ := Option.map_eq_some_iff.mp stored
    have link := c.linked s t row rfl held present
    have reached := link.reached
    unfold Rows.appended
    refine ⟨link.behind,?_,?_,?_⟩
    · show s.snapshotRevision ≤ _
      rw [List.length_append]
      omega
    · show s.ops ++ [_] = _
      rw [List.filter_append,link.ops]
      congr 1
      refine (List.filter_eq_self.mpr fun op new => decide_eq_true ?_).symm
      rw [List.mem_singleton.mp new]
      show s.snapshotRevision < s.revision + 1
      omega
    · intro a
      rw [binding]
      dsimp only
      split
      · rename_i same
        subst same
        rw [link.actor]
        cases before : s.actorBindings.get? r.actorId with
        | none => rfl
        | some p => rw [agrees p before]; rfl
      · exact link.actor a

theorem bind (c : Coherent minted id (some s) rows) {actorId : String} (principalId : String)
    (unbound : s.actorBindings.get? actorId = none) :
    Coherent minted id (some (s.bindActor actorId principalId))
      (rows.map (Rows.bound actorId principalId)) := by
  have sound := c.log s rfl
  refine ⟨?_,?_,?_,?_,?_⟩
  · intro t found
    obtain rfl := Option.some.inj found
    exact c.named s rfl
  · intro t found
    obtain rfl := Option.some.inj found
    refine ⟨sound.ordered,sound.indexed,fun op inside => ?_⟩
    have bound := sound.bound op inside
    refine (Dict.get?_set_ne _ _ fun same => ?_).trans bound
    rw [same,unbound] at bound
    cases bound
  · intro beyond
    exact absurd (c.named s rfl).2 (Nat.not_lt.mpr beyond)
  · rintro _ row found present
    obtain ⟨t,held,rfl⟩ := Option.map_eq_some_iff.mp found
    have kept := c.kept t row held present
    have link := c.linked s t row rfl held present
    refine ⟨kept.ordered,fun op inside => ?_⟩
    have bound := kept.bound op inside
    refine (if_neg fun same => ?_).trans bound
    rw [link.actor,same,unbound] at bound
    cases bound
  · rintro _ _ row found stored present
    obtain rfl := Option.some.inj found
    obtain ⟨t,held,rfl⟩ := Option.map_eq_some_iff.mp stored
    have link := c.linked s t row rfl held present
    refine ⟨link.behind,link.reached,link.ops,fun a => ?_⟩
    rw [DocumentSession.bindActor,Dict.get?_set,← link.actor,Rows.bound]

theorem rule (c : Coherent minted id (some s) rows) (role : Role) (acl : Dict String Role) :
    Coherent minted id (some { s with defaultRole := role, acl })
      (rows.map (Rows.ruled role acl)) := by
  refine ⟨?_,?_,?_,?_,?_⟩
  · intro t found
    obtain rfl := Option.some.inj found
    exact c.named s rfl
  · intro t found
    obtain rfl := Option.some.inj found
    have sound := c.log s rfl
    exact ⟨sound.ordered,sound.indexed,sound.bound⟩
  · intro beyond
    exact absurd (c.named s rfl).2 (Nat.not_lt.mpr beyond)
  · rintro _ row found present
    obtain ⟨t,held,rfl⟩ := Option.map_eq_some_iff.mp found
    have kept := c.kept t row held present
    exact ⟨kept.ordered,kept.bound⟩
  · rintro _ _ row found stored present
    obtain rfl := Option.some.inj found
    obtain ⟨t,held,rfl⟩ := Option.map_eq_some_iff.mp stored
    have link := c.linked s t row rfl held present
    exact ⟨link.behind,link.reached,link.ops,link.actor⟩

theorem prune (c : Coherent minted id (some s) rows) (snapshot : Json.Value) {cut : Nat}
    (advances : s.snapshotRevision < cut) (reached : cut ≤ s.revision) :
    Coherent minted id (some (Service.pruned s snapshot cut)) rows := by
  have sound := c.log s rfl
  have revision := DocumentSession.revision_eq sound.ordered
  refine ⟨?_,?_,?_,c.kept,?_⟩
  · intro t found
    obtain rfl := Option.some.inj found
    exact c.named s rfl
  · intro t found
    obtain rfl := Option.some.inj found
    exact pruned_sound sound snapshot (Nat.le_of_lt advances) (by omega)
  · intro beyond
    exact absurd (c.named s rfl).2 (Nat.not_lt.mpr beyond)
  · intro _ t row found stored present
    obtain rfl := Option.some.inj found
    have link := c.linked s t row rfl stored present
    have kept := c.kept t row stored present
    have length := congrArg List.length link.ops
    rw [kept.ordered.after_length link.behind link.reached] at length
    refine ⟨Nat.le_trans link.behind (Nat.le_of_lt advances),?_,?_,link.actor⟩
    · show cut ≤ _
      have := link.reached
      omega
    · show s.ops.filter _ = _
      rw [link.ops,List.filter_filter]
      refine List.filter_congr fun op _ => ?_
      show (decide (cut < op.revision) && decide (s.snapshotRevision < op.revision)) =
        decide (cut < op.revision)
      rw [Bool.eq_iff_iff]
      simp only [Bool.and_eq_true,decide_eq_true_eq]
      omega

theorem settle (c : Coherent minted id (some s) rows) (snapshot : Json.Value) :
    Coherent minted id (some s) (rows.map (Rows.checkpointed snapshot s.snapshotRevision)) := by
  refine ⟨c.named,c.log,?_,?_,?_⟩
  · intro beyond
    exact absurd (c.named s rfl).2 (Nat.not_lt.mpr beyond)
  · rintro _ row found present
    obtain ⟨t,held,rfl⟩ := Option.map_eq_some_iff.mp found
    obtain ⟨row,before,rfl⟩ := Option.map_eq_some_iff.mp present
    have kept := c.kept t row held before
    have link := c.linked s t row rfl held before
    refine ⟨kept.ordered.prune link.behind link.reached,fun op inside => ?_⟩
    exact kept.bound op (List.mem_of_mem_filter inside)
  · rintro _ _ row found stored present
    obtain rfl := Option.some.inj found
    obtain ⟨t,held,rfl⟩ := Option.map_eq_some_iff.mp stored
    obtain ⟨row,before,rfl⟩ := Option.map_eq_some_iff.mp present
    have link := c.linked s t row rfl held before
    refine ⟨Nat.le_refl _,Nat.le_add_right _ _,?_,link.actor⟩
    rw [link.ops,Rows.checkpointed,List.filter_filter]
    simp

theorem close (c : Coherent minted id (some s) rows) : Coherent minted id none rows where
  named := by simp
  log := by simp
  unborn := fun beyond => absurd (c.named s rfl).2 (Nat.not_lt.mpr beyond)
  kept := c.kept
  linked := by simp

theorem gone : Coherent minted id none (rows.map fun _ => Rows.none) where
  named := by simp
  log := by simp
  unborn := by
    rintro _ r found
    obtain ⟨_,_,rfl⟩ := Option.map_eq_some_iff.mp found
    rfl
  kept := by
    rintro r row found present
    obtain ⟨_,_,rfl⟩ := Option.map_eq_some_iff.mp found
    cases present
  linked := by simp

end Coherent

variable {cfg : Config} {sv sv' : Service} {fault : Bool}

private theorem created_coherent {id minted : Nat} (older : id < minted) {session : DocumentSession}
    {rows : Option Rows} (named : session.sessionId = id) (ops : session.ops = [])
    (index : session.opsById = .empty) (actors : session.actorBindings = .empty)
    (absent : ∀ t, rows = some t → t = Rows.none) :
    Coherent minted id (some session) rows ∧
      Coherent minted id (some session) (rows.map (Rows.created · session)) := by
  have log : LogSound session := by
    refine ⟨ops ▸ .nil,fun k op => ?_,fun op inside => ?_⟩
    · rw [index,ops]
      simp
    · rw [ops] at inside
      cases inside
  refine ⟨⟨?_,?_,?_,?_,?_⟩,⟨?_,?_,?_,?_,?_⟩⟩
  · intro t found
    obtain rfl := Option.some.inj found
    exact ⟨named,older⟩
  · intro t found
    obtain rfl := Option.some.inj found
    exact log
  · intro beyond
    omega
  · intro t row held present
    rw [absent t held] at present
    cases present
  · intro _ t row _ held present
    rw [absent t held] at present
    cases present
  · intro t found
    obtain rfl := Option.some.inj found
    exact ⟨named,older⟩
  · intro t found
    obtain rfl := Option.some.inj found
    exact log
  · intro beyond
    omega
  · rintro _ row held present
    obtain ⟨t,before,rfl⟩ := Option.map_eq_some_iff.mp held
    rw [absent t before]
    exact ⟨.nil,by simp [Rows.created,Rows.none]⟩
  · rintro _ _ row found held present
    obtain rfl := Option.some.inj found
    obtain ⟨t,before,rfl⟩ := Option.map_eq_some_iff.mp held
    obtain rfl := Option.some.inj present
    rw [absent t before]
    refine ⟨Nat.le_refl _,Nat.le_add_right _ _,ops,fun a => ?_⟩
    rw [actors]
    rfl

theorem change_sound (sound : Sound sv) {a : Action} {raised : Bool}
    (change : Change cfg sv fault a raised sv') : Sound sv' := by
  cases change with
  | unchanged => exact sound
  | @created _ store _ _ _ _ _ document _ kind valid session made followed =>
    have named : session.sessionId = sv.minted := by rw [made]
    have absent := (sound sv.minted).unborn (Nat.le_refl _)
    obtain ⟨alone,stored⟩ := created_coherent (Nat.lt_succ_self sv.minted) named (by rw [made])
      (by rw [made]) (by rw [made]) absent
    have later : Sound { sv with minted := sv.minted + 1 } := fun other => (sound other).later
    rcases followed.split with same | called
    · exact everywhere_of_put later named (fun other _ => by rw [same]; rfl)
        (by rw [same]; exact alone)
    · obtain ⟨others,here⟩ := called_rows called (Rows.created · session)
        fun st st' ok => rows_putSession ok
      rw [named] at others here
      exact everywhere_of_put later named others (here ▸ stored)
  | @appended store id session found r now op ordered called =>
    have here := sound id
    rw [found] at here
    obtain ⟨others,rows⟩ := called_rows called (Rows.appended op r.principalId)
      fun st st' ok => rows_appendOp ok
    refine everywhere_of_put sound (here.named session rfl).1 others (rows ▸ ?_)
    refine here.append ordered fun t held old inside => ?_
    obtain ⟨st,present,rfl⟩ := Option.map_eq_some_iff.mp held
    obtain ⟨st',ok,_⟩ := Called.of_some (present ▸ called)
    exact (appendOp_fresh ok old inside).2
  | @bound store _ id session found actorId principalId unbound called =>
    have here := sound id
    rw [found] at here
    have named := (here.named session rfl).1
    obtain ⟨others,rows⟩ := called_rows called (Rows.bound actorId principalId)
      fun st st' ok => rows_putActor ok
    rw [named] at others rows
    exact everywhere_of_put sound named others (rows ▸ here.bind principalId unbound)
  | @ruled store id session found _ _ _ role acl called =>
    have here := sound id
    rw [found] at here
    obtain ⟨others,rows⟩ := called_rows called (Rows.ruled role acl)
      fun st st' ok => rows_replaceAcl ok
    exact everywhere_of_put sound (here.named session rfl).1 others (rows ▸ here.rule role acl)
  | @checkpointed _ store id session found _ _ snapshot _ upTo checked followed =>
    have here := sound id
    rw [found] at here
    obtain ⟨advances,reached⟩ := checkCheckpoint_ok checked
    have named := (here.named session rfl).1
    have pruned := here.prune snapshot advances reached
    rcases followed.split with same | called
    · exact everywhere_of_put sound named (fun other _ => by rw [same]; rfl) (by rw [same]; exact pruned)
    · obtain ⟨others,rows⟩ := called_rows called (Rows.checkpointed snapshot upTo)
        fun st st' ok => rows_checkpoint ok
      exact everywhere_of_put sound named others (rows ▸ pruned.settle snapshot)
  | @closed _ store id session found _ _ followed =>
    have here := sound id
    rw [found] at here
    have erased (other : SessionId) (ne : other ≠ id) :
        (sv.sessions.erase id).get? other = sv.sessions.get? other := by
      rw [Dict.get?_erase,if_neg ne]
    have missing : (sv.sessions.erase id).get? id = none := by rw [Dict.get?_erase,if_pos rfl]
    rcases followed.split with same | called
    · refine everywhere_of_target sound erased (fun other _ => by rw [same]; rfl) ?_
      rw [missing,same]
      exact here.close
    · obtain ⟨others,rows⟩ := called_rows called (fun _ => Rows.none)
        fun st st' ok => rows_deleteSession ok
      refine everywhere_of_target sound erased others ?_
      rw [missing,rows]
      exact .gone

/-! Restarts -/

theorem loadSession_ops {st : SessionStore} {id : SessionId} {row : SessionRow} {start : Nat}
    (log : Ordered start (st.rows id).ops) : (st.loadSession id row).ops = (st.rows id).ops :=
  log.sorted

theorem loadSession_sound {st : SessionStore} {id : SessionId} {row : SessionRow}
    (sound : RowsSound (st.rows id) row) : LogSound (st.loadSession id row) := by
  have ops : (st.loadSession id row).ops = _ := loadSession_ops sound.ordered
  refine ⟨?_,fun k op => ?_,fun op inside => ?_⟩
  · rw [ops]
    exact sound.ordered
  · rw [ops]
    show (Dict.ofList (List.map _ (st.loadSession id row).ops)).get? k = some op ↔ _
    rw [ops,Dict.get?_ofList (by rw [List.map_map]; exact sound.ordered.distinct)]
    constructor
    · intro listed
      obtain ⟨other,inside,same⟩ := List.mem_map.mp listed
      obtain ⟨key,rfl⟩ := Prod.mk.inj same
      exact ⟨inside,key⟩
    · rintro ⟨inside,rfl⟩
      exact List.mem_map_of_mem inside
  · rw [ops] at inside
    show (st.actors.slice id).get? op.actorId = _
    rw [Dict.get?_slice]
    exact sound.bound op inside

theorem loadAll_ok {st : SessionStore} {sessions : Dict SessionId DocumentSession}
    (loaded : st.loadAll = .ok sessions) : sessions = st.sessions.mapWithKey st.loadSession := by
  unfold SessionStore.loadAll at loaded
  split at loaded
  · exact (Except.ok.inj loaded).symm
  · cases loaded

theorem reload_sound (sound : Sound sv) (reloaded : sv.reload = some sv') : Sound sv' := by
  unfold Service.reload at reloaded
  split at reloaded
  · cases reloaded
  rename_i st present
  split at reloaded
  · cases reloaded
  rename_i sessions loaded
  obtain rfl := Option.some.inj reloaded
  obtain rfl := loadAll_ok loaded
  intro id
  have here := sound id
  have rows : sv.rows id = some (st.rows id) := by rw [Service.rows,present]; rfl
  show Coherent sv.minted id (Dict.get? _ id) (sv.rows id)
  rw [Dict.get?_mapWithKey]
  refine ⟨?_,?_,here.unborn,here.kept,?_⟩
  · intro s found
    obtain ⟨row,held,rfl⟩ := Option.map_eq_some_iff.mp found
    refine ⟨rfl,?_⟩
    by_contra beyond
    have none := here.unborn (Nat.not_lt.mp beyond) _ rows
    have missing := congrArg Rows.session none
    rw [show (st.rows id).session = some row from held] at missing
    cases missing
  · intro s found
    obtain ⟨row,held,rfl⟩ := Option.map_eq_some_iff.mp found
    exact loadSession_sound (here.kept _ row rows held)
  · intro s t row' found stored held'
    obtain ⟨row,held,rfl⟩ := Option.map_eq_some_iff.mp found
    obtain rfl := Option.some.inj (rows.symm.trans stored)
    obtain rfl := Option.some.inj (held'.symm.trans held)
    have kept := here.kept _ row' rows held
    refine ⟨Nat.le_refl _,Nat.le_add_right _ _,?_,fun a => ?_⟩
    · rw [loadSession_ops kept.ordered]
      refine (List.filter_eq_self.mpr fun op inside => decide_eq_true ?_).symm
      exact (kept.ordered.bounds inside).1
    · exact (Dict.get?_slice _ _ _).symm

/-- A service that has just started, with an empty store or without one. -/
def Service.start (persistent : Bool) : Service :=
  { store := if persistent then some {} else none }

theorem start_sound (persistent : Bool) : Sound (.start persistent) := by
  intro id
  have empty : ∀ t, (Service.start persistent).rows id = some t → t = Rows.none := by
    intro t found
    obtain ⟨st,present,rfl⟩ := Option.map_eq_some_iff.mp found
    cases persistent with
    | false => cases present
    | true =>
      obtain rfl := Option.some.inj present
      rfl
  refine ⟨?_,?_,fun _ => empty,?_,?_⟩
  · intro s found
    cases found
  · intro s found
    cases found
  · intro t row held present
    rw [empty t held] at present
    cases present
  · intro s t row found
    cases found

theorem step_sound {event : Event} (sound : Sound sv) (stepped : step cfg sv event = some sv') :
    Sound sv' := by
  cases event with
  | action a fault =>
    obtain rfl := Option.some.inj stepped
    obtain ⟨raised,change⟩ := perform_change cfg sv fault a
    exact change_sound sound change
  | reload => exact reload_sound sound stepped

theorem reachable_sound {persistent : Bool}
    (reached : Transition.Reachable (step cfg) (.start persistent) sv) : Sound sv :=
  reached.invariant Sound (start_sound persistent) fun _ _ _ sound _ stepped =>
    step_sound sound stepped

structure Editable (session : Option DocumentSession) (rows : Option Rows) : Prop where
  session : ∀ s, session = some s → ∀ p, Role.editor.rank ≤ (s.roleFor p).rank
  role : ∀ t, rows = some t → ∀ p r, t.role p = some r → Role.editor.rank ≤ r.rank
  policy : ∀ t, rows = some t → ∀ r, t.policy = some r → Role.editor.rank ≤ r.rank

def Unruled : Service → Event → Prop
  | _,.action (.replaceAcl ..) _ => False
  | _,_ => True

abbrev Opened (sv : Service) : Prop := sv.Everywhere fun _ _ => Editable

private theorem Editable.keep {s s' : DocumentSession} {rows rows' : Option Rows}
    (opened : Editable (some s) rows) (acl : s'.acl = s.acl)
    (defaultRole : s'.defaultRole = s.defaultRole)
    (tables : ∀ t', rows' = some t' → ∃ t, rows = some t ∧ t'.role = t.role ∧
      t'.policy = t.policy) : Editable (some s') rows' where
  session := by
    intro t found p
    obtain rfl := Option.some.inj found
    rw [DocumentSession.roleFor,acl,defaultRole]
    exact opened.session s rfl p
  role := by
    intro t' found p r held
    obtain ⟨t,before,role,_⟩ := tables t' found
    exact opened.role t before p r (role ▸ held)
  policy := by
    intro t' found r held
    obtain ⟨t,before,_,policy⟩ := tables t' found
    exact opened.policy t before r (policy ▸ held)

private theorem Editable.rewrite {s s' : DocumentSession} {rows : Option Rows}
    (opened : Editable (some s) rows) (acl : s'.acl = s.acl)
    (defaultRole : s'.defaultRole = s.defaultRole) (rewrite : Rows → Rows)
    (tables : ∀ t, (rewrite t).role = t.role ∧ (rewrite t).policy = t.policy) :
    Editable (some s') (rows.map rewrite) := by
  refine opened.keep acl defaultRole fun t' found => ?_
  obtain ⟨t,before,rfl⟩ := Option.map_eq_some_iff.mp found
  exact ⟨t,before,tables t⟩

private theorem created_editable {session : DocumentSession} {rows : Option Rows}
    {principalId : String} (acl : session.acl = Dict.empty.set principalId .owner)
    (defaultRole : session.defaultRole = .editor)
    (absent : ∀ t, rows = some t → t = Rows.none) :
    Editable (some session) rows ∧
      Editable (some session) (rows.map (Rows.created · session)) := by
  have granted (p : String) (r : Role) (held : session.acl.get? p = some r) :
      Role.editor.rank ≤ r.rank := by
    rw [acl,Dict.get?_set] at held
    split at held
    · rw [← Option.some.inj held]
      decide
    · cases held
  have everyone (p : String) : Role.editor.rank ≤ (session.roleFor p).rank := by
    unfold DocumentSession.roleFor
    cases held : session.acl.get? p with
    | none => exact Nat.le_of_eq (congrArg Role.rank defaultRole.symm)
    | some r => exact granted p r held
  refine ⟨⟨?_,?_,?_⟩,⟨?_,?_,?_⟩⟩
  · intro s found
    obtain rfl := Option.some.inj found
    exact everyone
  · intro t found p r held
    rw [absent t found] at held
    cases held
  · intro t found r held
    rw [absent t found] at held
    cases held
  · intro s found
    obtain rfl := Option.some.inj found
    exact everyone
  · intro t found p r held
    obtain ⟨t,before,rfl⟩ := Option.map_eq_some_iff.mp found
    rw [absent t before] at held
    exact granted p r (by simpa [Rows.created,Rows.none] using held)
  · intro t found r held
    obtain ⟨t,before,rfl⟩ := Option.map_eq_some_iff.mp found
    obtain rfl := Option.some.inj held
    exact Nat.le_of_eq (congrArg Role.rank defaultRole.symm)

theorem change_opened (sound : Sound sv) (opened : Opened sv) {a : Action} {raised : Bool}
    (unruled : Unruled sv (.action a fault)) (change : Change cfg sv fault a raised sv') :
    Opened sv' := by
  cases change with
  | unchanged => exact opened
  | @created _ store _ _ _ _ _ document _ kind valid session made followed =>
    have named : session.sessionId = sv.minted := by rw [made]
    have absent := (sound sv.minted).unborn (Nat.le_refl _)
    obtain ⟨alone,stored⟩ : Editable (some session) (sv.rows sv.minted) ∧
        Editable (some session) ((sv.rows sv.minted).map (Rows.created · session)) :=
      created_editable (by rw [made]) (by rw [made]) absent
    have later : Opened { sv with minted := sv.minted + 1 } := opened
    rcases followed.split with same | called
    · exact everywhere_of_put (P := fun _ _ => Editable) later named
        (fun other _ => by rw [same]; rfl) (by rw [same]; exact alone)
    · obtain ⟨others,here⟩ := called_rows called (Rows.created · session)
        fun st st' ok => rows_putSession ok
      rw [named] at others here
      exact everywhere_of_put (P := fun _ _ => Editable) later named others (here ▸ stored)
  | @appended store id session found r now op ordered called =>
    obtain ⟨others,rows⟩ := called_rows called (Rows.appended op r.principalId)
      fun st st' ok => rows_appendOp ok
    refine everywhere_of_put (P := fun _ _ => Editable) opened ((sound id).named _ found).1 others ?_
    rw [rows]
    have here : Editable (some session) (sv.rows id) := found ▸ opened id
    exact here.rewrite (by rfl) (by rfl) _ fun t => by exact ⟨rfl,rfl⟩
  | @bound store _ id session found actorId principalId unbound called =>
    have named := ((sound id).named _ found).1
    obtain ⟨others,rows⟩ := called_rows called (Rows.bound actorId principalId)
      fun st st' ok => rows_putActor ok
    rw [named] at others rows
    refine everywhere_of_put (P := fun _ _ => Editable) opened named others ?_
    rw [rows]
    have here : Editable (some session) (sv.rows id) := found ▸ opened id
    exact here.rewrite (by rfl) (by rfl) _ fun t => by exact ⟨rfl,rfl⟩
  | ruled => exact unruled.elim
  | @checkpointed _ store id session found _ _ snapshot _ upTo checked followed =>
    have named := ((sound id).named _ found).1
    have here : Editable (some session) (sv.rows id) := found ▸ opened id
    rcases followed.split with same | called
    · refine everywhere_of_put (P := fun _ _ => Editable) opened named
        (fun other _ => by rw [same]; rfl) ?_
      rw [same]
      exact here.keep rfl rfl fun t found => ⟨t,found,rfl,rfl⟩
    · obtain ⟨others,rows⟩ := called_rows called (Rows.checkpointed snapshot upTo)
        fun st st' ok => rows_checkpoint ok
      refine everywhere_of_put (P := fun _ _ => Editable) opened named others ?_
      rw [rows]
      exact here.rewrite (by rfl) (by rfl) _ fun t => by exact ⟨rfl,rfl⟩
  | @closed _ store id session found _ _ followed =>
    have erased (other : SessionId) (ne : other ≠ id) :
        (sv.sessions.erase id).get? other = sv.sessions.get? other := by
      rw [Dict.get?_erase,if_neg ne]
    have missing : (sv.sessions.erase id).get? id = none := by rw [Dict.get?_erase,if_pos rfl]
    rcases followed.split with same | called
    · refine everywhere_of_target (P := fun _ _ => Editable) opened erased
        (fun other _ => by rw [same]; rfl) ?_
      rw [missing,same]
      exact ⟨by simp,(opened id).role,(opened id).policy⟩
    · obtain ⟨others,rows⟩ := called_rows called (fun _ => Rows.none)
        fun st st' ok => rows_deleteSession ok
      refine everywhere_of_target (P := fun _ _ => Editable) opened erased others ?_
      rw [missing,rows]
      refine ⟨by simp,fun t found => ?_,fun t found => ?_⟩
      · obtain ⟨_,_,rfl⟩ := Option.map_eq_some_iff.mp found
        rintro p r ⟨⟩
      · obtain ⟨_,_,rfl⟩ := Option.map_eq_some_iff.mp found
        rintro r ⟨⟩

theorem reload_opened (opened : Opened sv) (reloaded : sv.reload = some sv') : Opened sv' := by
  unfold Service.reload at reloaded
  split at reloaded
  · cases reloaded
  rename_i st present
  split at reloaded
  · cases reloaded
  rename_i sessions loaded
  obtain rfl := Option.some.inj reloaded
  obtain rfl := loadAll_ok loaded
  intro id
  have here := opened id
  have rows : sv.rows id = some (st.rows id) := by rw [Service.rows,present]; rfl
  refine ⟨fun s found p => ?_,here.role,here.policy⟩
  obtain ⟨row,held,rfl⟩ := Option.map_eq_some_iff.mp ((Dict.get?_mapWithKey _ _ _).symm.trans found)
  show Role.editor.rank ≤ (((st.acl.slice id).get? p).getD ((st.policy.get? id).getD .editor)).rank
  rw [Dict.get?_slice]
  cases role : st.acl.get? (id,p) with
  | some r => exact here.role _ rows p r role
  | none =>
    cases policy : st.policy.get? id with
    | none => exact Nat.le_refl _
    | some r => exact here.policy _ rows r policy

theorem unruled_opened {persistent : Bool}
    (reached : Transition.Reach (step cfg) Unruled (.start persistent) sv) : Opened sv := by
  suffices both : Sound sv ∧ Opened sv from both.2
  refine reached.invariant (fun sv => Sound sv ∧ Opened sv) ⟨start_sound persistent,fun id => ?_⟩
    fun t event u held allowed stepped => ⟨step_sound held.1 stepped,?_⟩
  · show Editable none _
    refine ⟨by simp,fun t found => ?_,fun t found => ?_⟩
    · rw [(start_sound persistent id).unborn (Nat.zero_le _) t found]
      rintro p r ⟨⟩
    · rw [(start_sound persistent id).unborn (Nat.zero_le _) t found]
      rintro r ⟨⟩
  · cases event with
    | action a fault =>
      obtain rfl := Option.some.inj stepped
      obtain ⟨raised,change⟩ := perform_change cfg t fault a
      exact change_opened held.1 held.2 allowed change
    | reload => exact reload_opened held.2 stepped

theorem append_accepted {id : SessionId} {session : DocumentSession} {r : AppendRequest} {now : ℚ}
    {op : SessionOp} (found : sv.sessions.get? id = some session)
    (accepted : (sv.append cfg fault id r now).1 = .ok (.op op false)) :
    Service.checkAppend cfg session r now = .ok (.ordered op) ∧
      ∃ store, (sv.append cfg fault id r now).2 =
        ({ sv with store } : Service).put (session.withOp op r.actorId r.principalId) := by
  unfold Service.append at accepted ⊢
  rw [found] at accepted ⊢
  dsimp only at accepted ⊢
  split at accepted
  · cases accepted
  · cases accepted
  · split at accepted <;> cases accepted
  · rename_i admitted
    split at accepted
    · cases accepted
    rename_i done
    obtain ⟨store,_,rfl⟩ := stored_ok done
    cases accepted
    exact ⟨admitted,store,rfl⟩

theorem append_again {id : SessionId} {session : DocumentSession} {op : SessionOp}
    {r : AppendRequest} {now : ℚ} (sound : LogSound session)
    (found : sv.sessions.get? id = some session) (held : op ∈ session.ops)
    (opId : r.opId = op.opId) (actorId : r.actorId = op.actorId)
    (principalId : r.principalId = op.principalId) (content : normalizePatch r.patch = .ok op.patch)
    (role : session.requireRole r.principalId .editor = .ok ()) :
    sv.append cfg fault id r now = (.ok (.op op true),sv) := by
  have bound : session.actorBindings.get? r.actorId = some r.principalId := by
    rw [actorId,principalId]
    exact sound.bound op held
  have listed : session.opsById.get? r.opId = some op := (sound.indexed _ _).mpr ⟨held,opId.symm⟩
  have admitted : Service.checkAppend cfg session r now = .ok (.replayed op false) := by
    unfold Service.checkAppend
    rw [role,content]
    simp [bind,Except.bind,bound,listed,← actorId]
  unfold Service.append
  rw [found]
  dsimp only
  rw [admitted]

theorem opsAfter_served {id : SessionId} {session : DocumentSession} {after : Int}
    {principalId : String} (found : sv.sessions.get? id = some session)
    (log : Ordered session.snapshotRevision session.ops)
    (role : session.requireRole principalId .viewer = .ok ())
    (low : (session.snapshotRevision : Int) ≤ after) :
    sv.opsAfter id after principalId =
        .ok (session.ops.filter fun op => decide (after < op.revision)) ∧
      (session.ops.filter fun op => decide (after < op.revision)).map (·.revision) =
        List.range' (after.toNat + 1) (session.revision - after.toNat) := by
  constructor
  · unfold Service.opsAfter
    rw [found]
    dsimp only
    rw [role]
    simp [bind,Except.bind,Int.not_lt.mpr low]
  · rw [session.revision_eq log]
    obtain ⟨cut,rfl⟩ := Int.eq_ofNat_of_zero_le (Int.le_trans (Int.natCast_nonneg _) low)
    rw [Int.toNat_natCast]
    by_cases high : cut ≤ session.snapshotRevision + session.ops.length
    · simpa using log.after (Int.ofNat_le.mp low) high
    · have nothing : session.ops.filter (fun op => decide ((cut : Int) < op.revision)) = [] := by
        refine List.filter_eq_nil_iff.mpr fun op inside => ?_
        have := (log.bounds inside).2
        simp only [decide_eq_true_eq]
        omega
      rw [nothing,show session.snapshotRevision + session.ops.length - cut = 0 by omega]
      rfl

/-- What a client can rely on in every session that is reached, however often store calls raised
and the service was restarted. -/
theorem session_log (cfg : Config) (persistent : Bool) (sv : Service)
    (reached : Transition.Reachable (step cfg) (.start persistent) sv)
    (id : SessionId) (session : DocumentSession) (found : sv.sessions.get? id = some session) :
    session.ops.map (·.revision) =
        List.range' (session.snapshotRevision + 1) session.ops.length ∧
      session.revision = session.snapshotRevision + session.ops.length ∧
      (∀ k op, session.opsById.get? k = some op ↔ op ∈ session.ops ∧ op.opId = k) ∧
      (∀ fault r now op, (sv.append cfg fault id r now).1 = .ok (.op op false) →
        r.baseRevision = session.revision ∧ op.revision = session.revision + 1 ∧
        op.opId = r.opId ∧ op.actorId = r.actorId ∧ op.principalId = r.principalId ∧
        normalizePatch r.patch = .ok op.patch ∧
        ∃ after, (sv.append cfg fault id r now).2.sessions.get? id = some after ∧
          after.ops = session.ops ++ [op]) ∧
      (∀ op ∈ session.ops, ∀ fault r now, r.opId = op.opId → r.actorId = op.actorId →
        r.principalId = op.principalId → normalizePatch r.patch = .ok op.patch →
        session.requireRole r.principalId .editor = .ok () →
        sv.append cfg fault id r now = (.ok (.op op true),sv)) ∧
      (∀ after principalId, (session.snapshotRevision : Int) ≤ after →
        session.requireRole principalId .viewer = .ok () →
        sv.opsAfter id after principalId =
            .ok (session.ops.filter fun op => decide (after < op.revision)) ∧
          (session.ops.filter fun op => decide (after < op.revision)).map (·.revision) =
            List.range' (after.toNat + 1) (session.revision - after.toNat)) ∧
      (Transition.Reach (step cfg) Unruled (.start persistent) sv →
        ∀ principalId, session.requireRole principalId .editor = .ok () ∧
          session.requireRole principalId .viewer = .ok ()) := by
  have sound := reachable_sound reached
  have log := (sound id).log session found
  have named := ((sound id).named session found).1
  refine ⟨log.ordered.contiguous,session.revision_eq log.ordered,log.indexed,?_,?_,?_,?_⟩
  · intro fault r now op accepted
    obtain ⟨admitted,store,next⟩ := append_accepted found accepted
    obtain ⟨patch,content,head,rfl,_,_⟩ := admit_ordered admitted
    refine ⟨head,rfl,rfl,rfl,rfl,content,?_⟩
    rw [next]
    subst named
    exact ⟨_,Dict.get?_set_self _ _ _,rfl⟩
  · intro op held fault r now opId actorId principalId content role
    exact append_again log found held opId actorId principalId content role
  · intro after principalId low role
    exact opsAfter_served found log.ordered role low
  · intro unruled principalId
    have rank := (unruled_opened unruled id).session session found principalId
    constructor
    · exact if_neg (Nat.not_lt.mpr rank)
    · exact if_neg (Nat.not_lt.mpr (Nat.le_trans (by decide) rank))

/-- One session, created and edited once. -/
def editedOnce (cfg : Config) : Service :=
  Transition.offer (step cfg) (.start true)
    [.action (.create "scope" "doc" "workflow" "alice" .null 0) false,
      .action (.append 0 ⟨"op","tab",0,[[("op",.str "remove")]],"alice","human"⟩ 1) false]

theorem session_log_editedOnce : ∃ session,
    (editedOnce ⟨1,le_rfl,none⟩).sessions.get? 0 = some session ∧
      session.ops.map (·.revision) = [1] ∧
      ∀ k op, session.opsById.get? k = some op ↔ op ∈ session.ops ∧ op.opId = k := by
  have reached : Transition.Reachable (step ⟨1,le_rfl,none⟩) (.start true)
      (editedOnce ⟨1,le_rfl,none⟩) := Transition.reachable_offer _
  obtain ⟨session,found⟩ : ∃ session,
      (editedOnce ⟨1,le_rfl,none⟩).sessions.get? 0 = some session := ⟨_,rfl⟩
  obtain ⟨contiguous,_,index,_⟩ := session_log ⟨1,le_rfl,none⟩ true _ reached 0 session found
  refine ⟨session,found,contiguous.trans ?_,index⟩
  cases found
  rfl

end Dinkster.Collab
