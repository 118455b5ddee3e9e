import Dinkster.Lib.Canonical
import Dinkster.Lib.Dict
import Dinkster.Lib.PrefixCode
import Dinkster.Protocol.Attention
import Dinkster.Values.Model

/-! The cache key of one node invocation. The key hashes a flat list of byte parts:
the schema's signature, the sections that apply, each led by its marker, and the
supplied inputs in the order of their ids. -/
namespace Dinkster
open Json Canonical

/-- `len(..).to_bytes(8, "big")` -/
def toBytes8 (n : Nat) : ByteArray :=
  ⟨#[.ofNat (n / 2 ^ 56),.ofNat (n / 2 ^ 48),.ofNat (n / 2 ^ 40),.ofNat (n / 2 ^ 32),
    .ofNat (n / 2 ^ 24),.ofNat (n / 2 ^ 16),.ofNat (n / 2 ^ 8),.ofNat n]⟩

structure ExecutionSelection where
  target : String
  cacheTag : String
  attentionRouteToken : Option AttentionRouteToken
  target_present : target ≠ ""
  cacheTag_present : cacheTag ≠ ""

/-- What the key reads of an effective schema. -/
structure KeySchema where
  signature : String
  inputValues : Bool
  idempotent : Bool

structure UndemandedInputs where
  ids : List String
  addressable : ids.length < 2 ^ 63

/-- One call of `_cache_key`: the runtime's facts, the arguments and the bytes that
`uuid4` would return. -/
structure Invocation (Obj : Type) where
  extensionBehaviorHash : Option String
  assetFolders : Option AssetFolderContext
  inputs : Dict String (Value Obj)
  selection : Option ExecutionSelection
  connectedUndemandedInputs : Option UndemandedInputs
  cacheScope : Option String
  nonce : ByteArray

variable {Obj : Type}

def observed (schema : KeySchema) (value : Value Obj) : List ValueMeta :=
  if schema.inputValues then (iterValueTree value).map Value.info else []

def inputParts (schema : KeySchema) (e : String × Value Obj) : List ByteArray :=
  [utf8 e.1,utf8 e.2.typeId,utf8 e.2.fingerprint] ++
    (if schema.inputValues then
      utf8 "input-envelope-metadata" ::
        (iterValueTree e.2).map fun child => defaultEncode child.info
    else [])

def sortedInputs (call : Invocation Obj) : List (String × Value Obj) :=
  sortedBy (·.1) call.inputs.entries

end Dinkster
