import Dinkster.Lib.Json

/-! The value envelope: type id, content fingerprint, metadata and payload. A list
or a tuple keeps the whole envelopes of its children. -/
namespace Dinkster
open Json

def utf8 (s : String) : ByteArray := s.toByteArray

theorem utf8_inj {s t : String} : utf8 s = utf8 t ↔ s = t := String.toByteArray_inj

/-- Metadata as `default_encode` sees it: a JSON object with its members in the order
of their keys, or the pickle of anything that JSON cannot write. -/
inductive ValueMeta
  | json (entries : List (String × Json.Value))
  | pickled (data : ByteArray)

def defaultEncode : ValueMeta → ByteArray
  | .json entries => utf8 "json:" ++ utf8 (dumps .compact (.obj entries))
  | .pickled data => utf8 "pickle:" ++ data

private theorem bytes_append_inj {a b c : ByteArray} (same : a ++ b = a ++ c) : b = c := by
  have lists := congrArg (fun bytes => bytes.data.toList) same
  simp only [ByteArray.data_append,Array.toList_append,List.append_cancel_left_eq] at lists
  exact ByteArray.ext (Array.toList_inj.mp lists)

private theorem json_ne_pickle (a b : ByteArray) : utf8 "json:" ++ a ≠ utf8 "pickle:" ++ b := by
  intro same
  have heads := congrArg (fun bytes => bytes.data.toList.head?) same
  simp only [ByteArray.data_append,Array.toList_append] at heads
  rw [show (utf8 "json:").data.toList = [106,115,111,110,58] from rfl,
    show (utf8 "pickle:").data.toList = [112,105,99,107,108,101,58] from rfl] at heads
  cases heads

theorem defaultEncode_injective : Function.Injective defaultEncode := by
  intro m m' same
  cases m with
  | json entries =>
    cases m' with
    | json entries' =>
      have texts := utf8_inj.mp (bytes_append_inj same)
      have objects : Json.Value.obj entries = .obj entries' := dumps_injective _ texts
      cases objects
      rfl
    | pickled data' => exact absurd same (json_ne_pickle _ _)
  | pickled data =>
    cases m' with
    | json entries' => exact absurd same.symm (json_ne_pickle _ _)
    | pickled data' => rw [bytes_append_inj same]

/-- `Obj` is the Python object behind a leaf. -/
inductive Value (Obj : Type)
  | leaf (typeId fingerprint : String) (info : ValueMeta) (obj : Obj)
  | list (typeId fingerprint : String) (info : ValueMeta) (children : List (Value Obj))
  | tuple (typeId fingerprint : String) (info : ValueMeta) (children : List (Value Obj))

namespace Value

variable {Obj : Type}

def typeId : Value Obj → String
  | leaf t _ _ _ => t
  | list t _ _ _ => t
  | tuple t _ _ _ => t

def fingerprint : Value Obj → String
  | leaf _ f _ _ => f
  | list _ f _ _ => f
  | tuple _ f _ _ => f

def info : Value Obj → ValueMeta
  | leaf _ _ m _ => m
  | list _ _ m _ => m
  | tuple _ _ m _ => m

end Value

mutual

/-- The value and every descendant, depth first in position order. -/
def iterValueTree {Obj : Type} : Value Obj → List (Value Obj)
  | .leaf t f m o => [.leaf t f m o]
  | .list t f m children => .list t f m children :: iterValueTrees children
  | .tuple t f m children => .tuple t f m children :: iterValueTrees children

def iterValueTrees {Obj : Type} : List (Value Obj) → List (Value Obj)
  | [] => []
  | child :: rest => iterValueTree child ++ iterValueTrees rest

end

def isMountChar (c : Char) : Bool :=
  (97 ≤ c.toNat && c.toNat ≤ 122) || (48 ≤ c.toNat && c.toNat ≤ 57)

/-- `[a-z0-9][a-z0-9-]*` -/
def isMountId (s : String) : Bool :=
  match s.toList with
  | [] => false
  | c :: cs => isMountChar c && cs.all fun d => isMountChar d || d == '-'

structure AssetFolderContext where
  mounts : List String
  outputMount : Option String
  mount_ids : mounts.all isMountId = true
  distinct : mounts.Nodup
  inside : ∀ m, outputMount = some m → m ∈ mounts

def AssetFolderContext.toWire (folders : AssetFolderContext) : Json.Value :=
  .obj [("mounts",.arr (folders.mounts.map .str)),
    ("outputMount",match folders.outputMount with
      | none => .null
      | some m => .str m)]

end Dinkster
