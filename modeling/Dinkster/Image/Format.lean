import Dinkster.Image.FormatFields
import Dinkster.Image.PaintOrder
import Dinkster.Lib.Base64

/-! The image document format: allocated identifiers, the checks of layers, masks and resources, and
the passes over the layer tree, the owners of masks and the references to resources. -/
namespace Dinkster.Image
open Fallible

structure Platform extends Host where
  digestBytes : List UInt8 → String

structure Coordinate where
  actor : Option String
  ordinal : Nat
  deriving DecidableEq

def isActorChar (c : Char) : Bool := c.isAlphanum || c == '_' || c == '-'

def isActor (s : String) : Bool := s != "" && s.toList.all isActorChar

def parseId (identifier : String) : Option (Char × Coordinate) :=
  match identifier.toList with
  | [] => none
  | letter :: rest =>
    let digits := rest.takeWhile Char.isDigit
    if letter ∉ ['l','m','r'] ∨ digits = [] ∨ (digits.head? = some '0' ∧ digits ≠ ['0']) then none
    else
      match rest.dropWhile Char.isDigit with
      | [] => some (letter,⟨none,Nat.ofDigitChars 10 digits 0⟩)
      | mark :: actor =>
        if mark = '-' ∧ isActor (String.ofList actor) = true then
          some (letter,⟨some (String.ofList actor),Nat.ofDigitChars 10 digits 0⟩)
        else none

structure Allocation where
  nextOrdinal : Nat
  actorCursors : Dict String Nat

def Allocation.cursor (allocation : Allocation) : Option String → Nat
  | none => allocation.nextOrdinal
  | some actor => (allocation.actorCursors.get? actor).getD 0

def Allocation.allocated (allocation : Allocation) (letter : Char) (coordinates : List Coordinate)
    (identifier : String) : Except Failure Coordinate :=
  match parseId identifier with
  | none => invalid "allocated id is not canonical"
  | some (found,coordinate) => do
    refuseIf (found ≠ letter) (.invalidDocument "allocated id is not canonical")
    refuseIf (maxSafeInteger < coordinate.ordinal ∨
      allocation.cursor coordinate.actor ≤ coordinate.ordinal ∨ coordinate ∈ coordinates)
      (.invalidDocument "allocated id conflicts with its cursor")
    .ok coordinate

def Allocation.scan {α : Type} (allocation : Allocation) (letter : Char)
    (check : String → Json.Value → Except Failure α) (coordinates : List Coordinate) :
    List (String × Json.Value) → Except Failure (List Coordinate × List (String × α))
  | [] => .ok (coordinates,[])
  | (identifier,raw) :: rest => do
    let coordinate ← allocation.allocated letter coordinates identifier
    let checked ← check identifier raw
    let (coordinates,later) ← allocation.scan letter check (coordinate :: coordinates) rest
    .ok (coordinates,(identifier,checked) :: later)

def layerKeys : List String :=
  ["id","kind","name","visible","opacity","transform","blendMode","clipping","maskIds"]

def blendModes : List String :=
  ["normal","dissolve","multiply","screen","overlay","darken","lighten","color_dodge",
    "color_burn","hard_light","soft_light","difference","exclusion","linear_dodge","linear_burn",
    "vivid_light","pin_light","linear_light","hard_mix","subtract","divide","grain_extract",
    "grain_merge","hue","saturation","color","luminosity"]

structure Source where
  resourceId : String
  rect : Rect

def checkSource (fields : Fields) : Except Failure Source := do
  let resourceId ← item fields "resourceId" >>= string true
  let rect ← item fields "sourceRect" >>= rect
  .ok ⟨resourceId,rect⟩

def optionalLayerKeys (version : Int) (group : Bool) : List String :=
  if version = 2 then "z_index" :: if group then ["isolation"] else [] else []

def memberOr (fields : Fields) (key : String) (standIn : Json.Value) : Json.Value :=
  (fields.get? key).getD standIn

def Host.checkLayerFields (host : Host) (layer : Fields) : Except Failure (List String) := do
  let _ ← integer (-maxSafeInteger) maxSafeInteger (memberOr layer "z_index" (.int 0))
  named ["isolated","pass-through"] "invalid group isolation"
    (memberOr layer "isolation" (.str "isolated"))
  let _ ← item layer "name" >>= string false
  let visible ← item layer "visible"
  refuseIf (isBool visible = false) (.invalidDocument "layer property is invalid")
  let _ ← item layer "opacity" >>= integer 0 opacityMax
  let _ ← item layer "transform" >>= host.checkTransform
  item layer "blendMode" >>= named blendModes "layer property is invalid"
  item layer "clipping" >>= named ["none","clip-to-previous"] "layer property is invalid"
  item layer "maskIds" >>= ids 32

def Host.checkLayer (host : Host) (version : Int) (identifier : String) (raw : Json.Value) :
    Except Failure (Layer × Option Source) := do
  let fields ← asObject "layer identity or kind is invalid" raw
  refuseIf (isText identifier (memberOr fields "id" .null) = false)
    (.invalidDocument "layer identity or kind is invalid")
  named ["group","raster"] "layer identity or kind is invalid" (memberOr fields "kind" .null)
  let group := isText "group" (memberOr fields "kind" .null)
  let layer ← object
    (layerKeys ++ if group then ["childLayerIds"] else ["resourceId","sourceRect"])
    (optionalLayerKeys version group) raw
  let maskIds ← host.checkLayerFields layer
  if group = true then do
    let children ← item layer "childLayerIds" >>= ids 4096
    .ok (⟨some children,maskIds,layer⟩,none)
  else do
    let source ← checkSource layer
    .ok (⟨none,maskIds,layer⟩,some source)

def Host.checkSiblings (host : Host) (layers : Dict String Layer) (children : List String) :
    Except Failure Unit := do
  refuseIf (¬ children.Nodup) (.invalidDocument "layer child is duplicated")
  refuseIf (∃ child ∈ children, child ∉ layers.keys)
    (.invalidDocument "layer reference is dangling")
  let ordered ← host.orderedLayerIds layers children
  match ordered with
  | [] => .ok ()
  | first :: _ => do
    let layer ← item layers first
    refuseIf (isText "clip-to-previous" (memberOr layer.fields "clipping" .null) = true)
      (.invalidDocument "clipped layer has no previous sibling")

/-- `visited` lists the layers that the walk has come to, the last one first. -/
def visit (children : String → List String) : Nat → List String → String →
    Except Failure (List String)
  | 0,_,_ => invalid "layer tree is cyclic or too deep"
  | depth + 1,visited,identifier =>
    if identifier ∈ visited then invalid "layer tree is cyclic or too deep"
    else (children identifier).foldlM (visit children depth) (identifier :: visited)

def maxLayerDepth : Nat := 64

def childrenOf (layers : Dict String Layer) (identifier : String) : List String :=
  ((layers.get? identifier).bind (·.childLayerIds)).getD []

def childLists (layers : Dict String Layer) : List (List String) :=
  layers.entries.filterMap (·.2.childLayerIds)

def Host.checkTree (host : Host) (roots : List String) (layers : Dict String Layer) :
    Except Failure Unit := do
  (roots :: childLists layers).forM (host.checkSiblings layers)
  refuseIf (∃ layer ∈ layers.keys, (roots :: childLists layers).flatten.count layer ≠ 1)
    (.invalidDocument "each layer must have exactly one parent")
  let visited ← roots.foldlM (visit (childrenOf layers) maxLayerDepth) []
  refuseIf ((∃ layer ∈ layers.keys, layer ∉ visited) ∨ ∃ layer ∈ visited, layer ∉ layers.keys)
    (.invalidDocument "layer is not rooted")

def ownerIs (owner : String) : Option Json.Value → Bool
  | some (.obj members) => isText owner (memberOr (Dict.ofList members) "ownerLayerId" .null)
  | _ => false

def checkOwned (masks : Fields) (e : String × Layer) : Except Failure Unit := do
  refuseIf (¬ e.2.maskIds.Nodup) (.invalidDocument "mask is duplicated")
  refuseIf (∃ mask ∈ e.2.maskIds, ownerIs e.1 (masks.get? mask) = false)
    (.invalidDocument "mask owner is invalid")

def maskKeys : List String :=
  ["id","kind","ownerLayerId","enabled","invert","opacity","transform","combineMode","channel",
    "resourceId","sourceRect"]

def Host.checkMaskFields (host : Host) (mask : Fields) : Except Failure Source := do
  let _ ← item mask "opacity" >>= integer 0 opacityMax
  let _ ← item mask "transform" >>= host.checkTransform
  item mask "combineMode" >>= named ["multiply","add","subtract","intersect"]
    "mask property is invalid"
  item mask "channel" >>= named ["alpha","luminance"] "mask property is invalid"
  checkSource mask

def Host.checkMask (host : Host) (layers : Dict String Layer) (owners : String → Nat)
    (identifier : String) (raw : Json.Value) : Except Failure (Fields × Source) := do
  let mask ← object maskKeys [] raw
  refuseIf (isText identifier (memberOr mask "id" .null) = false ∨
    isText "raster" (memberOr mask "kind" .null) = false ∨ owners identifier ≠ 1)
    (.invalidDocument "mask identity or ownership is invalid")
  let owned ← item mask "ownerLayerId" >>= oneOf layers.keys
  refuseIf (owned = false ∨ isBool (memberOr mask "enabled" .null) = false ∨
    isBool (memberOr mask "invert" .null) = false)
    (.invalidDocument "mask identity or ownership is invalid")
  let source ← host.checkMaskFields mask
  .ok (mask,source)

structure Dependency where
  resourceId : String
  digest : String
  byteSize : Int
  mediaType : String
  width : Int
  height : Int
  colorSpace : String
  channelDepth : Int
  alphaMode : String

def inlineResourceLimit : Nat := 4096

/-- The pattern is anchored with `$`, which stands in front of a final newline as well. -/
def isDigest (text : String) : Bool :=
  let plain := text.toList.take 71
  let hex (c : Char) := c.isDigit || (decide ('a' ≤ c) && decide (c ≤ 'f'))
  plain.take 7 == "blake3:".toList && plain.length == 71 && (plain.drop 7).all hex &&
    (text.toList.drop 71 == [] || text.toList.drop 71 == ['\n'])

def textOf : Json.Value → String
  | .str s => s
  | _ => ""

def resourceKeys : List String :=
  ["id","kind","digest","byteSize","mediaType","width","height","colorSpace","channelDepth",
    "alphaMode"]

def resourceMessage : String := "resource descriptor is invalid"

def Platform.checkInline (platform : Platform) (resource : Fields) (byteSize : Int)
    (digest : String) : Except Failure Unit :=
  match resource.get? "inline" with
  | none => .ok ()
  | some value => do
    let encoded ← string false value
    refuseIf ((inlineResourceLimit + 2) / 3 * 4 < encoded.length)
      (.invalidDocument "inline resource exceeds threshold")
    match Base64.decodeStrict encoded with
    | none => invalid "invalid inline resource"
    | some data =>
      refuseIf (inlineResourceLimit < data.size ∨ (data.size : Int) ≠ byteSize ∨
        platform.digestBytes data.data.toList ≠ digest)
        (.invalidDocument "inline resource does not match descriptor")

/-- A resource's descriptor, its size, and the dependency that one without its bytes makes. -/
structure CheckedResource where
  fields : Fields
  width : Int
  height : Int
  dependency : Option Dependency

def Platform.checkResource (platform : Platform) (version : Int) (identifier : String)
    (raw : Json.Value) : Except Failure CheckedResource := do
  let resource ← object resourceKeys (if version = 2 then ["inline"] else []) raw
  let width ← item resource "width" >>= integer 1 maxDimension
  let height ← item resource "height" >>= integer 1 maxDimension
  let digest := textOf (memberOr resource "digest" .null)
  refuseIf (isText identifier (memberOr resource "id" .null) = false ∨
    isText "raster" (memberOr resource "kind" .null) = false ∨ isDigest digest = false ∨
    maxPixels < width * height) (.invalidDocument resourceMessage)
  let mediaType := memberOr resource "mediaType" .null
  named ["image/png","image/jpeg","image/webp"] resourceMessage mediaType
  refuseIf (isText "srgb" (memberOr resource "colorSpace" .null) = false ∨
    sameNumber 8 (memberOr resource "channelDepth" .null) = false)
    (.invalidDocument resourceMessage)
  let alphaMode := memberOr resource "alphaMode" .null
  named ["straight","premultiplied","opaque"] resourceMessage alphaMode
  refuseIf (isText "image/jpeg" mediaType = true ∧ isText "opaque" alphaMode = false)
    (.invalidDocument resourceMessage)
  let byteSize ← item resource "byteSize" >>= integer 1 maxSafeInteger
  platform.checkInline resource byteSize digest
  let dependency : Dependency :=
    ⟨identifier,digest,byteSize,textOf mediaType,width,height,"srgb",8,textOf alphaMode⟩
  .ok ⟨resource,width,height,
    if (resource.get? "inline").isSome then none else some dependency⟩

def checkBackground (canvas : Fields) : Except Failure Unit :=
  match canvas.get? "background" with
  | none => .ok ()
  | some (.arr components) => do
    refuseIf (components.length ≠ 4)
      (.invalidDocument "canvas background must be straight RGBA16")
    components.forM fun component => do
      let _ ← integer 0 opacityMax component
      .ok ()
  | some _ => invalid "canvas background must be straight RGBA16"

def checkCanvas (version : Int) (value : Json.Value) : Except Failure Fields := do
  let canvas ← object ["width","height","colorSpace","channelDepth","compositing"]
    (if version = 2 then ["color","background"] else []) value
  checkBackground canvas
  let width ← item canvas "width" >>= integer 1 maxDimension
  let height ← item canvas "height" >>= integer 1 maxDimension
  refuseIf (maxPixels < width * height ∨
    isText "srgb" (memberOr canvas "colorSpace" .null) = false ∨
    sameNumber 8 (memberOr canvas "channelDepth" .null) = false)
    (.invalidDocument "canvas facts are unsupported")
  named ["premultiplied-alpha","linear-premultiplied-alpha"] "canvas facts are unsupported"
    (memberOr canvas "compositing" .null)
  match canvas.get? "color" with
  | none => .ok canvas
  | some color => do
    checkColor color
    .ok canvas

def readCursor (e : String × Json.Value) : Except Failure (String × Nat) := do
  refuseIf (e.1 = "__proto__" ∨ isActor e.1 = false) (.invalidDocument "actor id is invalid")
  let cursor ← integer 0 maxSafeInteger e.2
  .ok (e.1,cursor.toNat)

def readCursors : Option Json.Value → Except Failure (Dict String Nat)
  | none => .ok .empty
  | some (.obj members) => do
    let cursors ← (Dict.ofList members).entries.mapM readCursor
    .ok (.ofList cursors)
  | some _ => invalid "actor cursors must be an object"

def readAllocation (value : Json.Value) : Except Failure Allocation := do
  let allocation ← object ["nextOrdinal"] ["actorCursors"] value
  let nextOrdinal ← item allocation "nextOrdinal" >>= integer 0 maxSafeInteger
  let actorCursors ← readCursors (allocation.get? "actorCursors")
  .ok ⟨nextOrdinal.toNat,actorCursors⟩

def collectionMessage : String := "document collection exceeds its allowed shape"

/-- The parts of a document that have been read, the tree of layers not yet looked at. -/
structure Document where
  version : Int
  canvas : Fields
  allocation : Allocation
  roots : List String
  layers : Fields
  masks : Fields
  resources : Fields

def isObject : Json.Value → Bool
  | .obj _ => true
  | _ => false

def documentKeys : List String :=
  ["format","formatVersion","lineage","canvas","allocation","rootLayerIds","layers","masks",
    "resources"]

def readDocument (value : Json.Value) : Except Failure Document := do
  let _ ← checkJson 0 0 value
  let doc ← object documentKeys ["extensions"] value
  refuseIf (isText "dinkster-image" (memberOr doc "format" .null) = false)
    (.invalidDocument "unsupported image document format or version")
  let version ← item doc "formatVersion" >>= integer 1 2
  let _ ← item doc "lineage" >>= string true
  refuseIf (isObject (memberOr doc "extensions" (.obj [])) = false)
    (.invalidDocument "extensions must be an object")
  let canvas ← item doc "canvas" >>= checkCanvas version
  let allocation ← item doc "allocation" >>= readAllocation
  let roots ← item doc "rootLayerIds" >>= ids 4096
  let layers ← item doc "layers" >>= asObject collectionMessage
  let masks ← item doc "masks" >>= asObject collectionMessage
  let resources ← item doc "resources" >>= asObject collectionMessage
  refuseIf (4096 < layers.keys.length ∨ 131072 < masks.keys.length ∨ 8192 < resources.keys.length)
    (.invalidDocument collectionMessage)
  .ok ⟨version,canvas,allocation,roots,layers,masks,resources⟩

structure Checked where
  record : Record
  dependencies : List Dependency

def Source.inside (resources : Dict String CheckedResource) (source : Source) : Bool :=
  match resources.get? source.resourceId with
  | none => false
  | some resource =>
    source.rect.x + source.rect.width ≤ resource.width &&
      source.rect.y + source.rect.height ≤ resource.height

def Platform.checkDocument (platform : Platform) (document : Document) :
    Except Failure Checked := do
  let allocation := document.allocation
  let (coordinates,layers) ← allocation.scan 'l' (platform.checkLayer document.version) []
    document.layers.entries
  let tree := Dict.ofList (layers.map fun e => (e.1,e.2.1))
  platform.checkTree document.roots tree
  tree.entries.forM (checkOwned document.masks)
  let owners (mask : String) := (tree.entries.flatMap (·.2.maskIds)).count mask
  let (coordinates,masks) ← allocation.scan 'm' (platform.checkMask tree owners) coordinates
    document.masks.entries
  let (_,resources) ← allocation.scan 'r' (platform.checkResource document.version) coordinates
    document.resources.entries
  let sources := layers.filterMap (·.2.2) ++ masks.map (·.2.2)
  refuseIf (∃ source ∈ sources, source.inside (.ofList resources) = false)
    (.invalidDocument "source rectangle exceeds its resource")
  let record : Record := ⟨document.canvas,allocation.nextOrdinal,allocation.actorCursors,
    document.roots,tree,.ofList (masks.map fun e => (e.1,e.2.1)),
    .ofList (resources.map fun e => (e.1,e.2.fields))⟩
  let dependencies := resources.filterMap (·.2.dependency)
  .ok ⟨record,Canonical.sortedBy (·.resourceId) dependencies⟩

def Platform.validateDocument (platform : Platform) (value : Json.Value) :
    Except Failure Checked :=
  readDocument value >>= platform.checkDocument

end Dinkster.Image
