import Dinkster.Lib.Dict
import Dinkster.Lib.Json

/-! Values as the caches keep them: an envelope with its metadata, and a payload that is either
one object or the envelopes of the children. Every payload has an identity of its own, which
copies of the envelope share; where identities do not matter they are of the unit type. -/
namespace Dinkster.Caches

/-- What stands under a metadata key. A `dict` is any mapping with text keys; an `object` is
whatever else a producer puts there. -/
inductive MetaValue (Obj : Type)
  | none
  | bool (b : Bool)
  | int (n : Int)
  | float (text : Json.FloatText)
  | str (s : String)
  | list (items : List (MetaValue Obj))
  | tuple (items : List (MetaValue Obj))
  | dict (members : List (String × MetaValue Obj))
  | object (o : Obj)

abbrev ValueMeta (Obj : Type) := Dict String (MetaValue Obj)

/-- The payload of a value without children: codec bytes under the type id they were written
for, or anything else that yields an object. -/
inductive LeafPayload (Obj : Type)
  | encoded (typeId : String) (data : ByteArray)
  | object (o : Obj)

structure Envelope (Obj : Type) (Id : Type := Nat) where
  typeId : String
  fingerprint : String
  info : ValueMeta Obj
  payload : Id

inductive Value (Obj : Type) (Id : Type := Nat)
  | leaf (envelope : Envelope Obj Id) (content : LeafPayload Obj)
  | list (envelope : Envelope Obj Id) (children : List (Value Obj Id))
  | tuple (envelope : Envelope Obj Id) (children : List (Value Obj Id))

variable {Obj Id : Type}

def Value.envelope : Value Obj Id → Envelope Obj Id
  | leaf e _ => e
  | list e _ => e
  | tuple e _ => e

mutual

/-- The envelopes of the value and every descendant, depth first in position order. -/
def iterValueTree : Value Obj Id → List (Envelope Obj Id)
  | .leaf e _ => [e]
  | .list e children => e :: iterValueTrees children
  | .tuple e children => e :: iterValueTrees children

def iterValueTrees : List (Value Obj Id) → List (Envelope Obj Id)
  | [] => []
  | child :: rest => iterValueTree child ++ iterValueTrees rest

end

def textOf : MetaValue Obj → Option String
  | .str s => some s
  | _ => none

/-- The identities an envelope names by itself, as `_local_resource_ids` reads them. -/
def Envelope.localResourceIds (e : Envelope Obj Id) : List String :=
  (match e.info.get? "resourceId" with
  | some (.str rid) => [rid]
  | _ => []) ++
  match e.info.get? "resourceRefs" with
  | some (.list refs) => refs.filterMap textOf
  | some (.tuple refs) => refs.filterMap textOf
  | _ => []

def valueResourceIds (v : Value Obj Id) : List String :=
  ((iterValueTree v).flatMap Envelope.localResourceIds).eraseDups

end Dinkster.Caches
