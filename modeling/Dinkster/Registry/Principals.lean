import Dinkster.Lib.Dict
import Dinkster.Lib.Fallible
import Dinkster.Registry.Names

/-! The principal directory: users, publishers, memberships, publish tokens and the audit log. Every
operation checks first and changes the directory then; what it changed stays changed when a later
check fails. -/
namespace Dinkster.Principals
open Names Fallible

structure Datetime where
  local_ : Int
  offset : Option Int
  deriving DecidableEq

/-- `a <= b`; `none` is the `TypeError` of a naive time against an aware one. -/
def Datetime.le? (a b : Datetime) : Option Bool :=
  match a.offset,b.offset with
  | none,none => some (a.local_ ≤ b.local_)
  | some o,some o' => some (a.local_ - o ≤ b.local_ - o')
  | _,_ => none

/-- What the directory uses of the language's library. -/
structure Runtime where
  /-- `str.casefold` of a character that is not ASCII -/
  wide : Char → List Char
  fromisoformat : String → Option Datetime
  /-- `hashlib.sha256(..).hexdigest()` -/
  sha256 : String → String
  repr : String → String

inductive Role where
  | owner | member
  | other (text : String)
  deriving DecidableEq

def Role.text : Role → String
  | .owner => "owner"
  | .member => "member"
  | .other text => text

def Role.known : Role → Bool
  | .owner | .member => true
  | .other _ => false

inductive Action where
  | publish | mintToken | editMetadata | manageMembers | transfer
  deriving DecidableEq

/-- `_ROLE_ACTIONS`; `none` is its `KeyError`. -/
def Role.actions : Role → Option (List Action)
  | .owner => some [.publish,.mintToken,.editMetadata,.manageMembers,.transfer]
  | .member => some [.publish,.mintToken]
  | .other _ => none

structure AuditRecord where
  actor : String
  action : String
  subject : String
  at_ : String
  details : String
  deriving DecidableEq

structure Membership where
  user : String
  publisher : String
  role : Role
  deriving DecidableEq

structure TokenRecord where
  tokenId : String
  publisher : String
  mintedBy : String
  pack : Option String
  secretHash : String
  createdAt : String
  expiresAt : String
  revoked : Bool
  revokedReason : String
  deriving DecidableEq

structure Directory where
  users : Finset String
  publishers : Dict String String
  memberships : Dict (String × String) Membership
  tokens : Dict String TokenRecord
  audit : List AuditRecord
  deriving DecidableEq

def Directory.empty : Directory := ⟨∅,.empty,.empty,.empty,[]⟩

/-- `RegistryError`, with what its message is made of. -/
inductive RegistryError where
  /-- `{what} must be an ISO 8601 timestamp, got {time!r}` -/
  | timestamp (what time : String)
  /-- The `TypeError` of comparing times with and without an offset. -/
  | incomparable
  /-- `publisher id {publisher!r} {problem}` -/
  | publisherId (publisher problem : String)
  /-- `publisher id {publisher!r} is not canonical (expected {expected!r}); the directory stores
  canonical forms only` -/
  | uncanonical (publisher expected : String)
  /-- `publisher {publisher!r} already exists` -/
  | registered (publisher : String)
  /-- `unknown user {user!r}; register the account first` -/
  | unknownUser (user : String)
  /-- `unknown publisher {publisher!r}` -/
  | unknownPublisher (publisher : String)
  /-- `user ids must not be empty` -/
  | emptyUser
  /-- `user {user!r} is not a member of publisher {publisher!r}` -/
  | notMember (user publisher : String)
  /-- `user {user!r} has role {role!r} in publisher {publisher!r}; {action!r} requires ..` -/
  | forbidden (user : String) (role : Role) (publisher : String) (action : Action)
  /-- `unknown membership role {role!r}` -/
  | unknownRole (role : Role)
  /-- `user {user!r} is already a member of {publisher!r}; use set_role to change their role` -/
  | alreadyMember (user publisher : String)
  /-- `user {user!r} is the last owner of {publisher!r}; ..` -/
  | lastOwner (user publisher : String)
  /-- `token expiry {expires!r} must be after mint time {time!r}; ..` -/
  | expiry (expires time : String)
  /-- `token id {id!r} already exists; supply fresh entropy` -/
  | tokenExists (id : String)
  /-- `no token {id!r}` -/
  | noToken (id : String)
  /-- `revoking a token requires an explicit reason` -/
  | noReason
  /-- `unknown token` -/
  | unknownToken
  /-- `token {id} was revoked: {reason}` -/
  | revoked (id reason : String)
  /-- `token {id} expired at {time}` -/
  | expired (id time : String)
  /-- `token {id} was minted by {user!r}, who is no longer a member of {publisher!r}` -/
  | orphaned (id user publisher : String)
  /-- `every registry mutation records its individual actor` -/
  | noActor
  /-- A message of `restore` about a stored record. -/
  | stored (before subject after : String)
  deriving DecidableEq

variable (runtime : Runtime)

/-- `_parse_at` -/
def parseAt (time what : String) : Except RegistryError Datetime :=
  match runtime.fromisoformat time with
  | some parsed => .ok parsed
  | none => .error (.timestamp what time)

def notAfter (a : String) (what : String) (b : String) (what' : String) :
    Except RegistryError Bool := do
  let first ← parseAt runtime a what
  let second ← parseAt runtime b what'
  match first.le? second with
  | some answer => pure answer
  | none => .error .incomparable

def hashSecret (plaintext : String) : String := runtime.sha256 plaintext

def tokenPrefix : String := "dinkster_pat_"

/-- `secret_hash[:_TOKEN_ID_CHARS]` -/
def tokenId (secretHash : String) : String := String.ofList (secretHash.toList.take 12)

def requireName (publisher : String) : Except RegistryError PUnit :=
  match validateName publisher with
  | some problem => .error (.publisherId publisher problem)
  | none => .ok ⟨⟩

def onlyIf (condition : Prop) [Decidable condition] (check : Except RegistryError PUnit) :
    Except RegistryError PUnit :=
  if condition then check else .ok ⟨⟩

variable (d : Directory)

def requireUser (user : String) : Except RegistryError PUnit :=
  refuseIf (user ∉ d.users) (.unknownUser user)

def requirePublisher (publisher : String) : Except RegistryError String :=
  match d.publishers.get? (canonicalName runtime.wide publisher) with
  | some _ => .ok (canonicalName runtime.wide publisher)
  | none => .error (.unknownPublisher publisher)

def requireMember (publisher user : String) : Except RegistryError Membership :=
  match d.memberships.get? (publisher,user) with
  | some member => .ok member
  | none => .error (.notMember user publisher)

/-- `authorize` -/
def authorize (user publisher : String) (action : Action) : Except RegistryError PUnit := do
  let canonical ← requirePublisher runtime d publisher
  let member ← requireMember d canonical user
  match member.role.actions with
  | some actions =>
    refuseIf (action ∉ actions) (.forbidden user member.role canonical action)
  | none => .error (.unknownRole member.role)

/-- `_guard_last_owner` -/
def guardLastOwner (publisher user : String) : Except RegistryError PUnit :=
  refuseIf (¬ d.memberships.entries.any fun e =>
    e.1.1 == publisher && e.2.role == .owner && e.2.user != user) (.lastOwner user publisher)

/-- What an operation answers or raises, and the directory after it. -/
abbrev Outcome (α : Type) := Except RegistryError α × Directory

/-- The changes of an operation come after its checks. -/
def checked {α β : Type} (d : Directory) (checks : Except RegistryError α)
    (change : α → Outcome β) : Outcome β :=
  match checks with
  | .ok a => change a
  | .error problem => (.error problem,d)

/-- `_record` -/
def record {α : Type} (d : Directory) (actor action subject at_ details : String) (answer : α) :
    Outcome α :=
  checked d (do
    let _ ← parseAt runtime at_ "audit timestamp"
    refuseIf (actor = "") .noActor) fun _ =>
  (.ok answer,{ d with audit := d.audit ++ [⟨actor,action,subject,at_,details⟩] })

/-- `_revoke` -/
def revoke (d : Directory) (token : TokenRecord) (actor at_ reason : String) : Outcome Unit :=
  let revoked : TokenRecord := { token with revoked := true, revokedReason := reason }
  record runtime { d with tokens := d.tokens.set token.tokenId revoked } actor "revoke-token"
    token.publisher at_ ("token " ++ token.tokenId ++ ": " ++ reason) ()

def removal (user : String) : String := "minter " ++ runtime.repr user ++ " removed from publisher"

def revokeAll (d : Directory) (publisher user actor at_ : String) :
    List TokenRecord → Outcome Unit
  | [] => (.ok (),d)
  | token :: rest =>
    if token.publisher = publisher ∧ token.mintedBy = user ∧ token.revoked = false then
      match revoke runtime d token actor at_ (removal runtime user) with
      | (.ok _,d) => revokeAll d publisher user actor at_ rest
      | (.error problem,d) => (.error problem,d)
    else revokeAll d publisher user actor at_ rest

def registerUser (user : String) : Outcome Unit :=
  checked d (refuseIf (user = "") .emptyUser) fun _ =>
  (.ok (),{ d with users := insert user d.users })

def registerPublisher (publisher owner at_ : String) : Outcome String :=
  let canonical := canonicalName runtime.wide publisher
  checked d (do
    let _ ← parseAt runtime at_ "timestamp"
    requireName publisher
    refuseIf (canonical ∈ d.publishers.keys) (.registered canonical)
    requireUser d owner) fun _ =>
  record runtime
    { d with
        publishers := d.publishers.set canonical canonical
        memberships := d.memberships.set (canonical,owner) ⟨owner,canonical,.owner⟩ }
    owner "register-publisher" canonical at_ "" canonical

def setDisplayName (publisher name actor at_ : String) : Outcome Unit :=
  checked d (do
    let _ ← parseAt runtime at_ "timestamp"
    let canonical ← requirePublisher runtime d publisher
    authorize runtime d actor canonical .editMetadata
    return (canonical,(d.publishers.get? canonical).getD "")) fun (canonical,old) =>
  record runtime { d with publishers := d.publishers.set canonical name } actor "edit-metadata"
    canonical at_ ("display name " ++ runtime.repr old ++ " -> " ++ runtime.repr name) ()

def addMember (publisher user : String) (role : Role) (actor at_ : String) : Outcome Unit :=
  checked d (do
    refuseIf (role.known = false) (.unknownRole role)
    let _ ← parseAt runtime at_ "timestamp"
    let canonical ← requirePublisher runtime d publisher
    authorize runtime d actor canonical .manageMembers
    requireUser d user
    refuseIf ((canonical,user) ∈ d.memberships.keys) (.alreadyMember user canonical)
    return canonical) fun canonical =>
  record runtime
    { d with memberships := d.memberships.set (canonical,user) ⟨user,canonical,role⟩ }
    actor "manage-members" canonical at_
    ("added " ++ runtime.repr user ++ " as " ++ runtime.repr role.text) ()

def setRole (publisher user : String) (role : Role) (actor at_ : String) : Outcome Unit :=
  checked d (do
    refuseIf (role.known = false) (.unknownRole role)
    let _ ← parseAt runtime at_ "timestamp"
    let canonical ← requirePublisher runtime d publisher
    authorize runtime d actor canonical .manageMembers
    let member ← requireMember d canonical user
    onlyIf (member.role = .owner ∧ role ≠ .owner) (guardLastOwner d canonical user)
    return (canonical,member)) fun (canonical,member) =>
  record runtime
    { d with memberships := d.memberships.set (canonical,user) { member with role := role } }
    actor "manage-members" canonical at_ (runtime.repr user ++ " role " ++
      runtime.repr member.role.text ++ " -> " ++ runtime.repr role.text) ()

def removeMember (publisher user actor at_ : String) : Outcome Unit :=
  checked d (do
    let _ ← parseAt runtime at_ "timestamp"
    let canonical ← requirePublisher runtime d publisher
    authorize runtime d actor canonical .manageMembers
    let member ← requireMember d canonical user
    onlyIf (member.role = .owner) (guardLastOwner d canonical user)
    return canonical) fun canonical =>
  match record runtime { d with memberships := d.memberships.erase (canonical,user) } actor
      "manage-members" canonical at_ ("removed " ++ runtime.repr user) () with
  | (.ok _,d) => revokeAll runtime d canonical user actor at_ (d.tokens.entries.map (·.2))
  | (.error problem,d) => (.error problem,d)

/-- `mint_token`: the plaintext and the record. Without a secret the entropy is drawn by the host. -/
def mintToken (publisher mintedBy at_ expiresAt : String) (pack : Option String)
    (entropy : String) : Outcome (String × TokenRecord) :=
  let plaintext := tokenPrefix ++ entropy
  let secretHash := hashSecret runtime plaintext
  let id := tokenId secretHash
  checked d (do
    let canonical ← requirePublisher runtime d publisher
    authorize runtime d mintedBy canonical .mintToken
    let late ← notAfter runtime expiresAt "token expiry" at_ "mint time"
    refuseIf (late = true) (.expiry expiresAt at_)
    refuseIf (id ∈ d.tokens.keys) (.tokenExists id)
    return canonical) fun canonical =>
  let token : TokenRecord := ⟨id,canonical,mintedBy,pack.map (canonicalName runtime.wide),secretHash,
    at_,expiresAt,false,""⟩
  let scope := match token.pack with
    | some pack => "pack " ++ runtime.repr pack
    | none => "any pack"
  record runtime { d with tokens := d.tokens.set id token } mintedBy "mint-token" canonical at_
    ("token " ++ id ++ " (publish, " ++ scope ++ ")") (plaintext,token)

def revokeToken (id actor at_ reason : String) : Outcome Unit :=
  checked d (do
    let _ ← parseAt runtime at_ "timestamp"
    match d.tokens.get? id with
    | none => .error (.noToken id)
    | some token => do
      refuseIf (reason = "") .noReason
      onlyIf (actor ≠ token.mintedBy) (authorize runtime d actor token.publisher .manageMembers)
      return token) fun token =>
  if token.revoked then (.ok (),d) else revoke runtime d token actor at_ reason

def verifyToken (presented at_ : String) : Except RegistryError TokenRecord :=
  let secretHash := hashSecret runtime presented
  match d.tokens.get? (tokenId secretHash) with
  | none => .error .unknownToken
  | some token =>
    if ¬ tokenPrefix.toList.isPrefixOf presented.toList ∨ token.secretHash ≠ secretHash then
      .error .unknownToken
    else if token.revoked then .error (.revoked token.tokenId token.revokedReason)
    else do
      let now ← parseAt runtime at_ "verification time"
      let expires ← parseAt runtime token.expiresAt "token expiry"
      match expires.le? now with
      | none => .error .incomparable
      | some true => .error (.expired token.tokenId token.expiresAt)
      | some false =>
        if (token.publisher,token.mintedBy) ∉ d.memberships.keys then
          .error (.orphaned token.tokenId token.mintedBy token.publisher)
        else .ok token

def restorePublishers : Dict String String → List (String × String) →
    Except RegistryError (Dict String String)
  | publishers,[] => .ok publishers
  | publishers,(publisher,display) :: rest => do
    requireName publisher
    refuseIf (canonicalName runtime.wide publisher ≠ publisher)
      (.uncanonical publisher (canonicalName runtime.wide publisher))
    restorePublishers (publishers.set publisher display) rest

def restoreMemberships (d : Directory) : List Membership → Except RegistryError Directory
  | [] => .ok d
  | member :: rest => do
    refuseIf (member.publisher ∉ d.publishers.keys)
      (.stored "membership of " member.user " names unknown publisher")
    requireUser d member.user
    refuseIf (member.role.known = false) (.stored "membership of " member.user " has unknown role")
    refuseIf ((member.publisher,member.user) ∈ d.memberships.keys)
      (.stored "duplicate membership of " member.user " in publisher")
    restoreMemberships
      { d with memberships := d.memberships.set (member.publisher,member.user) member } rest

def restoreTokens (d : Directory) : List TokenRecord → Except RegistryError Directory
  | [] => .ok d
  | token :: rest => do
    refuseIf (token.publisher ∉ d.publishers.keys)
      (.stored "token " token.tokenId " names unknown publisher")
    refuseIf (token.tokenId ≠ tokenId token.secretHash)
      (.stored "token " token.tokenId " does not match its secret hash")
    refuseIf (token.tokenId ∈ d.tokens.keys) (.stored "duplicate token " token.tokenId "")
    refuseIf (token.revoked = true ∧ token.revokedReason = "")
      (.stored "token " token.tokenId " is revoked without a reason")
    let created ← parseAt runtime token.createdAt ("token " ++ token.tokenId ++ " created_at")
    let expires ← parseAt runtime token.expiresAt ("token " ++ token.tokenId ++ " expires_at")
    match expires.le? created with
    | none => .error .incomparable
    | some true => .error (.stored "token " token.tokenId " expires before it was minted")
    | some false => restoreTokens { d with tokens := d.tokens.set token.tokenId token } rest

def restoreAudit (d : Directory) : List AuditRecord → Except RegistryError Directory
  | [] => .ok d
  | entry :: rest => do
    refuseIf (entry.actor = "") .noActor
    let _ ← parseAt runtime entry.at_ "audit timestamp"
    restoreAudit { d with audit := d.audit ++ [entry] } rest

def restoreUsers (d : Directory) : List String → Except RegistryError Directory
  | [] => .ok d
  | user :: rest => do
    refuseIf (user = "") .emptyUser
    restoreUsers { d with users := insert user d.users } rest

/-- `restore` -/
def restore (users : List String) (publishers : List (String × String))
    (memberships : List Membership) (tokens : List TokenRecord) (audit : List AuditRecord) :
    Except RegistryError Directory := do
  let d ← restoreUsers .empty users
  let named ← restorePublishers runtime d.publishers publishers
  let d ← restoreMemberships { d with publishers := named } memberships
  named.keys.forM fun publisher =>
    refuseIf (¬ memberships.any fun member => member.publisher == publisher && member.role == .owner)
      (.stored "publisher " publisher " restored without an owner")
  let d ← restoreTokens runtime d tokens
  restoreAudit runtime d audit

inductive Call where
  | registerUser (user : String)
  | registerPublisher (publisher owner at_ : String)
  | setDisplayName (publisher name actor at_ : String)
  | addMember (publisher user : String) (role : Role) (actor at_ : String)
  | setRole (publisher user : String) (role : Role) (actor at_ : String)
  | removeMember (publisher user actor at_ : String)
  | mintToken (publisher mintedBy at_ expiresAt : String) (pack : Option String) (entropy : String)
  | revokeToken (id actor at_ reason : String)
  | verifyToken (presented at_ : String)
  | record (actor action subject at_ details : String)

inductive Answer where
  | done
  | publisher (id : String)
  | minted (plaintext : String) (token : TokenRecord)
  | verified (token : TokenRecord)
  deriving DecidableEq

def answered {α : Type} (outcome : Outcome α) (answer : α → Answer) : Outcome Answer :=
  (outcome.1.map answer,outcome.2)

/-- One call: what it answers or raises, and the directory after it. -/
def perform (d : Directory) : Call → Outcome Answer
  | .registerUser user => answered (registerUser d user) fun _ => .done
  | .registerPublisher publisher owner at_ =>
    answered (registerPublisher runtime d publisher owner at_) .publisher
  | .setDisplayName publisher name actor at_ =>
    answered (setDisplayName runtime d publisher name actor at_) fun _ => .done
  | .addMember publisher user role actor at_ =>
    answered (addMember runtime d publisher user role actor at_) fun _ => .done
  | .setRole publisher user role actor at_ =>
    answered (setRole runtime d publisher user role actor at_) fun _ => .done
  | .removeMember publisher user actor at_ =>
    answered (removeMember runtime d publisher user actor at_) fun _ => .done
  | .mintToken publisher mintedBy at_ expiresAt pack entropy =>
    answered (mintToken runtime d publisher mintedBy at_ expiresAt pack entropy) fun minted =>
      .minted minted.1 minted.2
  | .revokeToken id actor at_ reason =>
    answered (revokeToken runtime d id actor at_ reason) fun _ => .done
  | .verifyToken presented at_ => ((verifyToken runtime d presented at_).map .verified,d)
  | .record actor action subject at_ details =>
    answered (record runtime d actor action subject at_ details ()) fun _ => .done

/-- The directory after a sequence of calls, failing ones included. -/
def run (calls : List Call) : Directory :=
  calls.foldl (fun d call => (perform runtime d call).2) .empty

end Dinkster.Principals
