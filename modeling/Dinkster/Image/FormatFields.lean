import Dinkster.Image.Record

/-! The checks that the image document format makes of single values: JSON limits, object shapes,
integers, strings, identifier lists, rectangles and transforms. -/
namespace Dinkster.Image
open Fallible

def maxSafeInteger : Int := 9007199254740991
def maxDimension : Int := 16384
def maxPixels : Int := 100000000
def maxJsonNodes : Nat := 1000000
def maxJsonDepth : Nat := 64
def opacityMax : Int := 65535

def invalid {α : Type} (message : String) : Except Failure α := .error (.invalidDocument message)

mutual

/-- `visited` counts the values seen so far, this one not yet among them. -/
def checkJson (depth visited : Nat) : Json.Value → Except Failure Nat
  | .obj members => do
    refuseIf (maxJsonNodes < visited + 1)
      (.invalidDocument "JSON node count exceeds the supported limit")
    refuseIf (maxJsonDepth ≤ depth) (.invalidDocument "JSON nesting exceeds the supported limit")
    refuseIf ("__proto__" ∈ members.map (·.1))
      (.invalidDocument "JSON contains an invalid object key")
    checkMembers (depth + 1) (visited + 1) members
  | .arr items => do
    refuseIf (maxJsonNodes < visited + 1)
      (.invalidDocument "JSON node count exceeds the supported limit")
    refuseIf (maxJsonDepth ≤ depth) (.invalidDocument "JSON nesting exceeds the supported limit")
    checkItems (depth + 1) (visited + 1) items
  | .float text => do
    refuseIf (maxJsonNodes < visited + 1)
      (.invalidDocument "JSON node count exceeds the supported limit")
    refuseIf (text.finite = false) (.invalidDocument "JSON number is not finite")
    .ok (visited + 1)
  | _ => do
    refuseIf (maxJsonNodes < visited + 1)
      (.invalidDocument "JSON node count exceeds the supported limit")
    .ok (visited + 1)

def checkMembers (depth visited : Nat) : List (String × Json.Value) → Except Failure Nat
  | [] => .ok visited
  | (_,value) :: rest => do
    let visited ← checkJson depth visited value
    checkMembers depth visited rest

def checkItems (depth visited : Nat) : List Json.Value → Except Failure Nat
  | [] => .ok visited
  | value :: rest => do
    let visited ← checkJson depth visited value
    checkItems depth visited rest

end

def asObject (message : String) : Json.Value → Except Failure Fields
  | .obj members => .ok (.ofList members)
  | _ => invalid message

def shapeMessage : String := "document has an invalid or open object shape"

def object (required optional : List String) (value : Json.Value) : Except Failure Fields := do
  let fields ← asObject shapeMessage value
  refuseIf ((∃ key ∈ fields.keys, key ∉ required ∧ key ∉ optional) ∨
    ∃ key ∈ required, key ∉ fields.keys) (.invalidDocument shapeMessage)
  .ok fields

def integer (low high : Int) : Json.Value → Except Failure Int
  | .int n =>
    if low ≤ n ∧ n ≤ high then .ok n else invalid "integer is outside its allowed bounds"
  | _ => invalid "integer is outside its allowed bounds"

def string (nonempty : Bool) : Json.Value → Except Failure String
  | .str s =>
    if Char.ofNat 0 ∈ s.toList ∨ (nonempty = true ∧ s = "") then invalid "string is invalid"
    else .ok s
  | _ => invalid "string is invalid"

def isText (s : String) : Json.Value → Bool
  | .str t => t == s
  | _ => false

def isBool : Json.Value → Bool
  | .bool _ => true
  | _ => false

def oneOf (names : List String) : Json.Value → Except Failure Bool
  | .str s => .ok (decide (s ∈ names))
  | .arr _ => .error .typeError
  | .obj _ => .error .typeError
  | _ => .ok false

def named (names : List String) (message : String) (value : Json.Value) : Except Failure Unit := do
  let known ← oneOf names value
  refuseIf (known = false) (.invalidDocument message)

def sameNumber (n : Int) : Json.Value → Bool
  | .int m => m == n
  | .bool b => (if b then 1 else 0) == n
  | .float text => text.first :: text.rest == Json.intText n ++ ['.','0']
  | _ => false

def ids (maximum : Nat) : Json.Value → Except Failure (List String)
  | .arr items => do
    refuseIf (maximum < items.length)
      (.invalidDocument "identifier list exceeds its allowed shape")
    items.mapM (string true)
  | _ => invalid "identifier list exceeds its allowed shape"

structure Rect where
  x : Int
  y : Int
  width : Int
  height : Int

def rect (value : Json.Value) : Except Failure Rect := do
  let fields ← object ["x","y","width","height"] [] value
  let x ← item fields "x" >>= integer 0 maxDimension
  let y ← item fields "y" >>= integer 0 maxDimension
  let width ← item fields "width" >>= integer 1 maxDimension
  let height ← item fields "height" >>= integer 1 maxDimension
  .ok ⟨x,y,width,height⟩

def transformKeys : List String := ["a","b","c","d","tx","ty"]

def componentKeys : List String :=
  ["x","y","width","height","rotation","flipHorizontal","flipVertical","sourceWidth",
    "sourceHeight"]

def transformBound (key : String) : Int :=
  if key ∈ ["tx","ty"] then 1048576000000 else 1000000000

def componentAgrees (affine : Json.Object) (fields : Fields) (key : String) : Bool :=
  match affine.get? key,fields.get? key with
  | some (.int n),some value => sameNumber n value
  | _,_ => false

def Host.checkComponents (host : Host) (fields : Fields) : Except Failure Unit :=
  match fields.get? "components" with
  | none => .ok ()
  | some components => do
    let _ ← object componentKeys [] components
    let affine ← host.affineFromComponents components
    refuseIf (∃ key ∈ transformKeys, componentAgrees affine fields key = false)
      (.invalidDocument "transform components disagree with fixed-point affine")

def Host.checkTransform (host : Host) (value : Json.Value) :
    Except Failure (List (String × Int)) := do
  let fields ← object transformKeys ["components"] value
  host.checkComponents fields
  transformKeys.mapM fun key => do
    let n ← item fields key >>= integer (-(transformBound key)) (transformBound key)
    .ok (key,n)

/-- `image_color` of a canvas color; its `ValueError` becomes an invalid document. -/
def checkColor : Json.Value → Except Failure Unit
  | .null => .ok ()
  | .obj members => do
    let color : Fields := .ofList members
    refuseIf (∃ key ∈ color.keys,
      key ∉ ["primaries","transfer","range","matrix","bit_depth"])
      (.invalidDocument "unknown image color field")
    refuseIf (∃ key ∈ ["primaries","transfer","range"], key ∉ color.keys)
      (.invalidDocument "image color requires primaries, transfer and range")
    color.entries.forM fun e =>
      refuseIf ((integer? e.2).all (· < 0) = true)
        (.invalidDocument ("invalid image color " ++ e.1))
  | _ => invalid "image color must be an object"

end Dinkster.Image
