import Dinkster.Lib.Dict
import Dinkster.Lib.Json
import Dinkster.Lib.Transition
import Mathlib

/-! Collaborative document sessions: an append-only log of patches over one document,
ordered by the server with optimistic concurrency on the base revision, and the SQLite
tables behind it. Every operation is one step of the event loop; the outside decides
where a call of the store raises. -/
namespace Dinkster.Collab

/-- `new_session_id()`: globally unique, so a counter stands for the minted text. -/
abbrev SessionId := Nat

/-- `SESSION_ROLES`, in the order of their ranks. -/
inductive Role
  | banned | viewer | editor | owner
  deriving DecidableEq

def Role.rank : Role → Nat
  | .banned => 0
  | .viewer => 1
  | .editor => 2
  | .owner => 3

def Role.ofString? : String → Option Role
  | "banned" => some .banned
  | "viewer" => some .viewer
  | "editor" => some .editor
  | "owner" => some .owner
  | _ => none

def documentKinds : List String := ["workflow","image"]

inductive SessionError
  | unknownSession
  | staleBase (revision : Nat)
  | snapshotRequired (revision snapshotRevision : Nat)
  | resyncRequired (snapshotRevision : Nat)
  | actorPrincipalMismatch
  | actorLimit
  | sessionRole
  | noSessionOwner
  | invalidSnapshot (problem : String)
  | value (message : String)
  | store
  deriving DecidableEq

mutual

/-- `_normalize_json`: a copy of JSON-shaped data, refusing what is not finite. -/
def normalizeJson (place : String) : Json.Value → Except SessionError Json.Value
  | .null => .ok .null
  | .bool b => .ok (.bool b)
  | .int n => .ok (.int n)
  | .str s => .ok (.str s)
  | .float t =>
    if t.finite then .ok (.float t)
    else .error (.value (place ++ " must contain only finite JSON numbers"))
  | .arr items => (normalizeItems (place ++ "[]") items).map .arr
  | .obj members => (normalizeMembers place members).map .obj

def normalizeItems (place : String) : List Json.Value → Except SessionError (List Json.Value)
  | [] => .ok []
  | item :: items => do
    let item ← normalizeJson place item
    let items ← normalizeItems place items
    return item :: items

def normalizeMembers (place : String) :
    List (String × Json.Value) → Except SessionError (List (String × Json.Value))
  | [] => .ok []
  | (key,item) :: members => do
    let item ← normalizeJson (place ++ "." ++ key) item
    let members ← normalizeMembers place members
    return (key,item) :: members

end

/-- A forward patch: its entries are JSON objects. -/
abbrev Patch := List (List (String × Json.Value))

def normalizePatch : Patch → Except SessionError Patch
  | [] => .ok []
  | entry :: entries => do
    let entry ← normalizeMembers "patch entry" entry
    let entries ← normalizePatch entries
    return entry :: entries

structure SessionOp where
  opId : String
  actorId : String
  baseRevision : Nat
  revision : Nat
  patch : Patch
  timestamp : ℚ
  principalId : String
  actorKind : String

structure DocumentSession where
  sessionId : SessionId
  scope : String
  documentId : String
  snapshot : Json.Value
  snapshotRevision : Nat := 0
  createdAt : ℚ
  ops : List SessionOp := []
  opsById : Dict String SessionOp := .empty
  actorBindings : Dict String String := .empty
  acl : Dict String Role := .empty
  defaultRole : Role := .editor
  documentKind : String

namespace DocumentSession

variable (session : DocumentSession)

def revision : Nat :=
  match session.ops.getLast? with
  | some op => op.revision
  | none => session.snapshotRevision

def roleFor (principalId : String) : Role :=
  (session.acl.get? principalId).getD session.defaultRole

def requireRole (principalId : String) (minimum : Role) : Except SessionError Unit :=
  if (session.roleFor principalId).rank < minimum.rank then .error .sessionRole else .ok ()

def hasOwner : Bool := session.acl.entries.any fun e => e.2 = .owner

def checkActorPrincipal (actorId principalId : String) : Except SessionError Unit :=
  match session.actorBindings.get? actorId with
  | some bound => if bound = principalId then .ok () else .error .actorPrincipalMismatch
  | none =>
    if 4096 ≤ session.actorBindings.entries.length ∨
        256 ≤ session.actorBindings.entries.countP (fun e => e.2 = principalId) then
      .error .actorLimit
    else .ok ()

def bindActor (actorId principalId : String) : DocumentSession :=
  { session with actorBindings := session.actorBindings.set actorId principalId }

end DocumentSession

structure SessionRow where
  scope : String
  documentId : String
  documentKind : String
  snapshot : Json.Value
  snapshotRevision : Nat
  createdAt : ℚ

structure SessionStore where
  sessions : Dict SessionId SessionRow := .empty
  ops : List (SessionId × SessionOp) := []
  actors : Dict (SessionId × String) String := .empty
  acl : Dict (SessionId × String) Role := .empty
  policy : Dict SessionId Role := .empty

namespace SessionStore

variable (st : SessionStore)

def opsOf (id : SessionId) : List SessionOp := (st.ops.filter fun row => row.1 = id).map (·.2)

def putSession (session : DocumentSession) : Except SessionError SessionStore :=
  let id := session.sessionId
  if id ∈ st.sessions.keys ∨ id ∈ st.policy.keys ∨
      (session.acl.entries.any fun e => (st.acl.get? (id,e.1)).isSome) then .error .store
  else .ok { st with
    sessions := st.sessions.set id ⟨session.scope,session.documentId,session.documentKind,
      session.snapshot,session.snapshotRevision,session.createdAt⟩
    policy := st.policy.set id session.defaultRole
    acl := st.acl.setAll id session.acl }

def replaceAcl (id : SessionId) (defaultRole : Role) (entries : Dict String Role) :
    Except SessionError SessionStore :=
  .ok { st with
    acl := (st.acl.filterKeys fun key => key.1 ≠ id).setAll id entries
    policy := if id ∈ st.policy.keys then st.policy.set id defaultRole else st.policy }

def appendOp (id : SessionId) (op : SessionOp) (principalId : String) :
    Except SessionError SessionStore :=
  if st.ops.any fun row => row.1 = id && (row.2.revision = op.revision || row.2.opId = op.opId)
  then .error .store
  else .ok { st with
    actors := if (id,op.actorId) ∈ st.actors.keys then st.actors
      else st.actors.set (id,op.actorId) principalId
    ops := st.ops ++ [(id,{ op with principalId := principalId })] }

def putActor (id : SessionId) (actorId principalId : String) : Except SessionError SessionStore :=
  if (id,actorId) ∈ st.actors.keys then .error .store
  else .ok { st with actors := st.actors.set (id,actorId) principalId }

def checkpoint (id : SessionId) (snapshot : Json.Value) (snapshotRevision : Nat) :
    Except SessionError SessionStore :=
  .ok { st with
    sessions := match st.sessions.get? id with
      | some row => st.sessions.set id { row with snapshot, snapshotRevision }
      | none => st.sessions
    ops := st.ops.filter fun row => !(row.1 = id && row.2.revision ≤ snapshotRevision) }

def deleteSession (id : SessionId) : Except SessionError SessionStore :=
  .ok {
    sessions := st.sessions.erase id
    ops := st.ops.filter fun row => row.1 ≠ id
    actors := st.actors.filterKeys fun key => key.1 ≠ id
    acl := st.acl.filterKeys fun key => key.1 ≠ id
    policy := st.policy.erase id }

def loadSession (id : SessionId) (row : SessionRow) : DocumentSession :=
  let ops := (st.opsOf id).mergeSort fun a b => decide (a.revision ≤ b.revision)
  { sessionId := id
    scope := row.scope
    documentId := row.documentId
    snapshot := row.snapshot
    snapshotRevision := row.snapshotRevision
    createdAt := row.createdAt
    ops
    opsById := .ofList (ops.map fun op => (op.opId,op))
    actorBindings := st.actors.slice id
    acl := st.acl.slice id
    defaultRole := (st.policy.get? id).getD .editor
    documentKind := row.documentKind }

/-- A row without its session is a `KeyError`. -/
def loadAll : Except SessionError (Dict SessionId DocumentSession) :=
  if (st.actors.keys.all fun key => (st.sessions.get? key.1).isSome) &&
      (st.policy.keys.all fun id => (st.sessions.get? id).isSome) &&
      (st.acl.keys.all fun key => (st.sessions.get? key.1).isSome) then
    .ok (st.sessions.mapWithKey st.loadSession)
  else .error .unknownSession

end SessionStore

structure Config where
  maxRetainedOps : Nat
  maxRetainedOps_pos : 1 ≤ maxRetainedOps
  snapshotValidator : Option (String → String → Json.Value → Option String)

structure Service where
  sessions : Dict SessionId DocumentSession := .empty
  store : Option SessionStore := none
  minted : Nat := 0

structure AppendRequest where
  opId : String
  actorId : String
  baseRevision : Int
  patch : Patch
  principalId : String
  actorKind : String

inductive Action
  | create (scope documentId documentKind principalId : String) (snapshot : Json.Value) (now : ℚ)
  | append (id : SessionId) (request : AppendRequest) (now : ℚ)
  | bindActor (id : SessionId) (actorId principalId : String)
  | replaceAcl (id : SessionId) (principalId defaultRole : String) (entries : Dict String String)
  | checkpoint (id : SessionId) (revision : Int) (document : Json.Value) (principalId : String)
  | close (id : SessionId) (principalId : String)

inductive Reply
  | session (session : DocumentSession)
  | op (op : SessionOp) (replayed : Bool)
  | done

namespace Service

variable (cfg : Config) (sv : Service) (fault : Bool)

/-- A call of the store, when there is one: it commits or, also where the outside says
so, raises and rolls back. -/
def stored (call : SessionStore → Except SessionError SessionStore) :
    Except SessionError Service :=
  match sv.store with
  | none => .ok sv
  | some st =>
    if fault then .error .store
    else match call st with
      | .error e => .error e
      | .ok st => .ok { sv with store := some st }

def put (session : DocumentSession) : Service :=
  { sv with sessions := sv.sessions.set session.sessionId session }

def validatedSnapshot (documentKind documentId : String) (snapshot : Json.Value) :
    Except SessionError Json.Value := do
  let normalized ← normalizeJson "snapshot" snapshot
  match cfg.snapshotValidator.bind fun validator => validator documentKind documentId normalized
    with
  | some problem => .error (.invalidSnapshot problem)
  | none => .ok normalized

def create (scope documentId documentKind principalId : String) (snapshot : Json.Value) (now : ℚ) :
    Except SessionError Reply × Service :=
  if documentKind ∉ documentKinds then
    (.error (.value "document_kind must be one of ['workflow', 'image']"),sv)
  else match validatedSnapshot cfg documentKind documentId snapshot with
    | .error e => (.error e,sv)
    | .ok snapshot =>
      let session : DocumentSession :=
        { sessionId := sv.minted, scope, documentId, snapshot, createdAt := now, documentKind,
          acl := Dict.empty.set principalId .owner }
      -- the working set changes before the store does
      let sv := { sv.put session with minted := sv.minted + 1 }
      match sv.stored fault fun st => st.putSession session with
      | .error e => (.error e,sv)
      | .ok sv => (.ok (.session session),sv)

/-- What `append` decides before it touches anything. -/
inductive Admission
  | replayed (existing : SessionOp) (unbound : Bool)
  | ordered (op : SessionOp)

def checkAppend (session : DocumentSession) (r : AppendRequest) (now : ℚ) :
    Except SessionError Admission := do
  session.requireRole r.principalId .editor
  let patch ← normalizePatch r.patch
  let bound := session.actorBindings.get? r.actorId
  if bound.any (· ≠ r.principalId) then .error .actorPrincipalMismatch
  else match session.opsById.get? r.opId with
    | some existing =>
      if existing.actorId ≠ r.actorId then .error .actorPrincipalMismatch
      else .ok (.replayed existing bound.isNone)
    | none => do
      session.checkActorPrincipal r.actorId r.principalId
      if r.baseRevision ≠ session.revision then .error (.staleBase session.revision)
      else if cfg.maxRetainedOps ≤ session.ops.length then
        .error (.snapshotRequired session.revision session.snapshotRevision)
      else .ok (.ordered ⟨r.opId,r.actorId,session.revision,session.revision + 1,patch,now,
        r.principalId,r.actorKind⟩)

/-- `_bind_actor`: the store first. -/
def bound (session : DocumentSession) (actorId principalId : String) :
    Except SessionError Service :=
  match sv.stored fault fun st => st.putActor session.sessionId actorId principalId with
  | .error e => .error e
  | .ok sv => .ok (sv.put (session.bindActor actorId principalId))

def append (id : SessionId) (r : AppendRequest) (now : ℚ) : Except SessionError Reply × Service :=
  match sv.sessions.get? id with
  | none => (.error .unknownSession,sv)
  | some session =>
    match checkAppend cfg session r now with
    | .error e => (.error e,sv)
    | .ok (.replayed existing false) => (.ok (.op existing true),sv)
    | .ok (.replayed existing true) =>
      match sv.bound fault session r.actorId r.principalId with
      | .error e => (.error e,sv)
      | .ok sv => (.ok (.op existing true),sv)
    | .ok (.ordered op) =>
      match sv.stored fault fun st => st.appendOp id op r.principalId with
      | .error e => (.error e,sv)
      | .ok sv => (.ok (.op op false),sv.put { session with
          ops := session.ops ++ [op]
          opsById := session.opsById.set op.opId op
          actorBindings := if (session.actorBindings.get? r.actorId).isSome
            then session.actorBindings
            else session.actorBindings.set r.actorId r.principalId })

def bindActor (id : SessionId) (actorId principalId : String) :
    Except SessionError Reply × Service :=
  match sv.sessions.get? id with
  | none => (.error .unknownSession,sv)
  | some session =>
    match (do
      session.requireRole principalId .viewer
      session.checkActorPrincipal actorId principalId) with
    | .error e => (.error e,sv)
    | .ok () =>
      if (session.actorBindings.get? actorId).isSome then (.ok .done,sv)
      else match sv.bound fault session actorId principalId with
        | .error e => (.error e,sv)
        | .ok sv => (.ok .done,sv)

def checkAcl (session : DocumentSession) (principalId defaultRole : String)
    (entries : Dict String String) : Except SessionError (Role × Dict String Role) := do
  if session.hasOwner then
    session.requireRole principalId .owner
    match Role.ofString? defaultRole with
    | some role =>
      if role ≠ .viewer ∧ role ≠ .editor then
        .error (.value "defaultRole must be 'viewer' or 'editor'")
      else if ¬ entries.entries.any (fun e => e.2 = "owner") then
        .error (.value "at least one owner is required")
      else if entries.entries.any (fun e => e.1 = "") then
        .error (.value "ACL principal ids must be non-empty strings")
      else if entries.entries.any (fun e => (Role.ofString? e.2).isNone) then
        .error (.value "ACL roles must be one of ['banned', 'viewer', 'editor', 'owner']")
      else .ok (role,entries.mapWithKey fun _ name => (Role.ofString? name).getD .banned)
    | none => .error (.value "defaultRole must be 'viewer' or 'editor'")
  else .error .noSessionOwner

def replaceAcl (id : SessionId) (principalId defaultRole : String)
    (entries : Dict String String) : Except SessionError Reply × Service :=
  match sv.sessions.get? id with
  | none => (.error .unknownSession,sv)
  | some session =>
    match checkAcl session principalId defaultRole entries with
    | .error e => (.error e,sv)
    | .ok (role,acl) =>
      match sv.stored fault fun st => st.replaceAcl id role acl with
      | .error e => (.error e,sv)
      | .ok sv =>
        let session := { session with defaultRole := role, acl }
        (.ok (.session session),sv.put session)

def opsAfter (id : SessionId) (after : Int) (principalId : String) :
    Except SessionError (List SessionOp) :=
  match sv.sessions.get? id with
  | none => .error .unknownSession
  | some session => do
    session.requireRole principalId .viewer
    if after < session.snapshotRevision then .error (.resyncRequired session.snapshotRevision)
    else .ok (session.ops.filter fun op => after < op.revision)

/-- The checks of `checkpoint`, which end in the snapshot to install and its revision. -/
def checkCheckpoint (session : DocumentSession) (revision : Int) (document : Json.Value)
    (principalId : String) : Except SessionError (Json.Value × Nat) := do
  session.requireRole principalId .editor
  if revision ≤ session.snapshotRevision then
    .error (.value ("snapshot revision " ++ toString revision ++ " does not advance the" ++
      " checkpoint (already at " ++ toString session.snapshotRevision ++ ")"))
  else if session.revision < revision then
    .error (.value ("snapshot revision " ++ toString revision ++
      " is ahead of the session (at " ++ toString session.revision ++ ")"))
  else do
    let snapshot ← validatedSnapshot cfg session.documentKind session.documentId document
    .ok (snapshot,revision.toNat)

def pruned (session : DocumentSession) (snapshot : Json.Value) (revision : Nat) :
    DocumentSession :=
  { session with
    snapshot
    snapshotRevision := revision
    ops := session.ops.filter fun op => decide (revision < op.revision)
    opsById := (session.ops.filter fun op => decide (op.revision ≤ revision)).foldl
      (fun index op => index.erase op.opId) session.opsById }

def checkpoint (id : SessionId) (revision : Int) (document : Json.Value) (principalId : String) :
    Except SessionError Reply × Service :=
  match sv.sessions.get? id with
  | none => (.error .unknownSession,sv)
  | some session =>
    match checkCheckpoint cfg session revision document principalId with
    | .error e => (.error e,sv)
    | .ok (snapshot,revision) =>
      -- the working set changes before the store does
      let session := pruned session snapshot revision
      let sv := sv.put session
      match sv.stored fault fun st => st.checkpoint id snapshot revision with
      | .error e => (.error e,sv)
      | .ok sv => (.ok (.session session),sv)

def close (id : SessionId) (principalId : String) : Except SessionError Reply × Service :=
  match sv.sessions.get? id with
  | none => (.error .unknownSession,sv)
  | some session =>
    match session.requireRole principalId (if session.hasOwner then .owner else .editor) with
    | .error e => (.error e,sv)
    | .ok () =>
      -- the working set changes before the store does
      let sv := { sv with sessions := sv.sessions.erase id }
      match sv.stored fault fun st => st.deleteSession id with
      | .error e => (.error e,sv)
      | .ok sv => (.ok (.session session),sv)

def perform : Action → Except SessionError Reply × Service
  | .create scope documentId documentKind principalId snapshot now =>
    sv.create cfg fault scope documentId documentKind principalId snapshot now
  | .append id request now => sv.append cfg fault id request now
  | .bindActor id actorId principalId => sv.bindActor fault id actorId principalId
  | .replaceAcl id principalId defaultRole entries =>
    sv.replaceAcl fault id principalId defaultRole entries
  | .checkpoint id revision document principalId =>
    sv.checkpoint cfg fault id revision document principalId
  | .close id principalId => sv.close fault id principalId

def reload : Option Service :=
  match sv.store with
  | none => none
  | some st =>
    match st.loadAll with
    | .error _ => none
    | .ok sessions => some { sv with sessions }

end Service

/-- An operation, with the outside's decision whether its store call raises, or a restart. -/
inductive Event
  | action (a : Action) (fault : Bool)
  | reload

def step (cfg : Config) (sv : Service) : Event → Option Service
  | .action a fault => some (sv.perform cfg fault a).2
  | .reload => sv.reload

end Dinkster.Collab
