import Dinkster.Lib.Base64Url
import Dinkster.Lib.JsonRead
import Dinkster.Server.CatalogGeneration
import Mathlib.Data.Rat.Floor

/-! Requests for the catalog, the binding of their query, and the signed cursors that page through
the items which a request selects. The codec's own bound on a cursor's length lies outside. -/
namespace Dinkster.Federated
open Canonical Fallible Json Object

structure CatalogRequestV1 where
  scope : Option String
  query : Option String
  assetKind : Option String
  context : Option ResolveContextV1
  availability : Option (List Availability)
  compatibility : Option (List Compatibility)

structure ExpectedV1 where
  digest : Option String
  size : Option Int

structure CandidateSelectionV1 where
  logicalId : String
  variantId : String
  digest : String
  source : Option SourceIdentity

structure CandidatesRequestV1 where
  context : ResolveContextV1
  scope : Option String
  expected : Option ExpectedV1
  selection : Option CandidateSelectionV1

inductive Request
  | catalog (r : CatalogRequestV1)
  | candidates (r : CandidatesRequestV1)

/-- `sorted(set(values))` -/
def sortedSet (values : List String) : List String := sortedBy id values.dedup

def ResolveContextV1.bound (c : ResolveContextV1) : Value :=
  .obj [("assetKind",.str c.assetKind),
    ("schema",.obj (present [("nodeType",some (.str c.nodeType)),("inputId",some (.str c.inputId)),
      ("typeId",c.typeId.map .str)])),
    ("accept",strings (sortedSet c.accept))]

def boundQuery (lib : Library) (query : Option String) : Option String :=
  (query.map lib.casefold).filter (· ≠ "")

def boundFilter {α : Type} [DecidableEq α] (complete : List α) (text : α → String)
    (values : Option (List α)) : Option Value :=
  values.bind fun values =>
    if complete ⊆ values then none else some (strings (sortedSet (values.map text)))

def everyAvailability : List Availability := [.localRef,.downloadable,.unavailable]

def everyCompatibility : List Compatibility := [.compatible,.incompatible,.unknown]

def CatalogRequestV1.bound (lib : Library) (r : CatalogRequestV1) : List (String × Option Value) :=
  [("contractVersion",some (.int 1)),
    ("query",(boundQuery lib r.query).map .str),
    ("assetKind",r.assetKind.map .str),
    ("context",r.context.map (·.bound)),
    ("availability",boundFilter everyAvailability Availability.text r.availability),
    ("compatibility",boundFilter everyCompatibility Compatibility.text r.compatibility)]

def ExpectedV1.encode (e : ExpectedV1) : Value :=
  .obj (present [("digest",e.digest.map .str),("size",e.size.map .int)])

def CandidateSelectionV1.encode (s : CandidateSelectionV1) : Value :=
  .obj (present [("logicalId",some (.str s.logicalId)),("variantId",some (.str s.variantId)),
    ("digest",some (.str s.digest)),("source",s.source.map (·.encode))])

def CandidatesRequestV1.bound (r : CandidatesRequestV1) : List (String × Option Value) :=
  [("contractVersion",some (.int 1)),
    ("context",some r.context.bound),
    ("expected",r.expected.map (·.encode)),
    ("selection",r.selection.map (·.encode))]

def Request.bound (lib : Library) : Request → List (String × Option Value)
  | .catalog r => r.bound lib
  | .candidates r => r.bound

def Request.boundText (lib : Library) (r : Request) : List Char :=
  sortedText (.obj (present (r.bound lib)))

def queryBinding (lib : Library) (r : Request) : String := lib.sha256 (r.boundText lib)

/-- `query in value` -/
def occursIn (query value : String) : Bool := decide (query.toList <:+: value.toList)

def CatalogSnapshot.aliasesOf (s : CatalogSnapshot) (item : CandidateV1) : List String :=
  ((s.aliases.lookup (toLex (item.fields.logicalId,item.fields.variantId))).getD []) ++
    ((s.aliases.lookup (toLex (item.fields.logicalId,""))).getD [])

def catalogKeeps (lib : Library) (r : CatalogRequestV1) (s : CatalogSnapshot)
    (item : CandidateV1) : Bool :=
  r.assetKind.all (· = item.fields.assetKind) &&
    r.context.all (·.assetKind = item.fields.assetKind) &&
    r.availability.all (·.contains item.fields.availabilityStatus) &&
    r.compatibility.all (·.contains item.fields.compatibilityStatus) &&
    (r.query.map lib.casefold).all fun query =>
      (item.fields.logicalId :: item.fields.family :: s.aliasesOf item).any fun value =>
        occursIn query (lib.casefold value)

def catalogFilter (lib : Library) (r : CatalogRequestV1) (s : CatalogSnapshot) :
    List CandidateV1 :=
  s.items.filter (catalogKeeps lib r s)

/-- What a request pages through. -/
def Request.select (lib : Library) (r : Request) (s : CatalogSnapshot) : List CandidateV1 :=
  match r with
  | .catalog r => catalogFilter lib r s
  | .candidates r => s.items.filter (·.fields.assetKind = r.context.assetKind)

inductive CursorReason
  | malformed
  | queryMismatch
  | staleSnapshot
  | expired
  deriving DecidableEq

/-- The keyed digest of the server, whose length is that of SHA-256. -/
structure Signer where
  hmac : List UInt8 → List UInt8
  length : ∀ body, (hmac body).length = 32

structure CursorPayload where
  principal : String
  scope : String
  query : String
  generation : String
  offset : Nat
  expires : Int
  deriving DecidableEq

def CursorPayload.value (c : CursorPayload) : Value :=
  .obj [("v",.int 1),("p",.str c.principal),("s",.str c.scope),("q",.str c.query),
    ("g",.str c.generation),("o",.int c.offset),("e",.int c.expires)]

def utf8 (text : List Char) : List UInt8 := (String.ofList text).toUTF8.data.toList

def fromUtf8 (bytes : List UInt8) : Option (List Char) :=
  (String.fromUTF8? ⟨bytes.toArray⟩).map (·.toList)

def CursorPayload.body (c : CursorPayload) : List UInt8 := utf8 (sortedText c.value)

/-- `int(clock())` truncates. -/
def truncated (clock : ℚ) : Int := if 0 ≤ clock then ⌊clock⌋ else ⌈clock⌉

def cursorTtlSeconds : Int := 300

def signed (signer : Signer) (body : List UInt8) : String :=
  String.ofList (Base64Url.encode body ++ '.' :: Base64Url.encode (signer.hmac body))

def encodeCursor (signer : Signer) (clock : ℚ) (principal scope query generation : String)
    (offset : Nat) : String :=
  signed signer (CursorPayload.body ⟨principal,scope,query,generation,offset,
    truncated clock + cursorTtlSeconds⟩)

/-- `payload["v"] == 1` -/
def isOne : Value → Bool
  | .int n => n = 1
  | .bool b => b
  | .float t => t.chars = "1.0".toList
  | _ => false

def isText (text : String) : Value → Bool
  | .str s => s = text
  | _ => false

structure Decoded where
  principal : Value
  scope : Value
  query : Value
  generation : Value
  offset : Nat
  expires : Int

def payloadNames : List String := ["v","p","s","q","g","o","e"]

def natural : Value → Option Nat
  | .int n => if 0 ≤ n then some n.toNat else none
  | _ => none

def integral : Value → Option Int
  | .int n => some n
  | _ => none

def decodePayload : Value → Option Decoded
  | .obj members =>
    if payloadNames.all (fun name => (members.map (·.1)).contains name) &&
        members.all (fun m => payloadNames.contains m.1) then do
      let v ← get? members "v"
      let p ← get? members "p"
      let s ← get? members "s"
      let q ← get? members "q"
      let g ← get? members "g"
      let o ← (get? members "o").bind natural
      let e ← (get? members "e").bind integral
      if isOne v then some ⟨p,s,q,g,o,e⟩ else none
    else none
  | _ => none

/-- The two parts of a cursor with a valid signature. -/
def verified (signer : Signer) (cursor : String) : Option (List UInt8) :=
  match cursor.toList.splitOn '.' with
  | [bodyToken,signatureToken] => do
    let body ← Base64Url.decode bodyToken
    let signature ← Base64Url.decode signatureToken
    if signature = signer.hmac body then some body else none
  | _ => none

def readCursor (signer : Signer) (cursor : String) : Option Decoded := do
  let body ← verified signer cursor
  let text ← fromUtf8 body
  let payload ← loads .plain text
  decodePayload payload

def decodeCursor (signer : Signer) (clock : ℚ) (cursor : Option String)
    (principal scope query generation : String) : Except CursorReason Nat :=
  match cursor with
  | none => .ok 0
  | some cursor =>
    match readCursor signer cursor with
    | none => .error .malformed
    | some payload =>
      if (payload.expires : ℚ) ≤ clock then .error .expired
      else if ¬ (isText principal payload.principal && isText scope payload.scope &&
          isText query payload.query) then .error .queryMismatch
      else if ¬ isText generation payload.generation then .error .staleSnapshot
      else .ok payload.offset

/-- One page, with the clock as it is read for the cursor that came and for the one that goes. -/
def page (signer : Signer) (checked issued : ℚ) (items : List CandidateV1) (cursor : Option String)
    (limit : Nat) (principal scope query generation : String) :
    Except CursorReason (List CandidateV1 × Option String) := do
  let offset ← decodeCursor signer checked cursor principal scope query generation
  if items.length < offset then .error .queryMismatch
  else
    let page := (items.drop offset).take limit
    let next := offset + page.length
    return (page,if next < items.length then
      some (encodeCursor signer issued principal scope query generation next) else none)

end Dinkster.Federated
