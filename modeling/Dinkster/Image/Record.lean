import Dinkster.Lib.Dict
import Dinkster.Lib.Fallible
import Dinkster.Lib.Forest
import Dinkster.Lib.JsonObject

/-! Image document records: layers under a list of roots and under each group, the order in which
siblings are painted, and the structural edit commands. A layer keeps the members that tie it to
other layers apart from its open ones. -/
namespace Dinkster.Image
open Fallible

abbrev Fields := Dict String Json.Value

inductive Failure
  | invalidDocument (message : String)
  | keyError
  | typeError
  | valueError
  | recursionError
  deriving DecidableEq

/-- A group has `childLayerIds`, a raster layer has none. -/
structure Layer where
  childLayerIds : Option (List String)
  maskIds : List String
  fields : Fields

structure Record where
  canvas : Fields
  nextOrdinal : Nat
  actorCursors : Dict String Nat
  rootLayerIds : List String
  layers : Dict String Layer
  masks : Dict String Fields
  resources : Dict String Fields

/-- What the interpreter and the fixed-point arithmetic decide: the order of keys that are not
integers, and the affine transform of given components. -/
structure Host where
  sorted : List (String × Json.Value) → Except Failure (List String)
  affineFromComponents : Json.Value → Except Failure Json.Object

/-- `d[key]` -/
def item {ν : Type} (d : Dict String ν) (key : String) : Except Failure ν :=
  match d.get? key with
  | some v => .ok v
  | none => .error .keyError

theorem item_ok {ν : Type} {d : Dict String ν} {key : String} {v : ν} :
    item d key = .ok v ↔ d.get? key = some v := by
  rw [item]
  cases d.get? key with
  | none => simp
  | some w => simp

def Layer.zIndex (layer : Layer) (position : Nat) : Json.Value :=
  (layer.fields.get? "z_index").getD (.int position)

def integer? : Json.Value → Option Int
  | .int n => some n
  | _ => none

/-- `sorted(identifiers, key=...)` -/
def Host.sortedIds (host : Host) (keyed : List (String × Json.Value)) :
    Except Failure (List String) :=
  match keyed.mapM fun e => (integer? e.2).map fun n => (e.1,n) with
  | some ranked => .ok ((Canonical.sortedBy (·.2) ranked).map (·.1))
  | none => host.sorted keyed

def Host.orderedLayerIds (host : Host) (layers : Dict String Layer) (identifiers : List String) :
    Except Failure (List String) := do
  let positions := Dict.ofList identifiers.zipIdx
  let keyed ← identifiers.mapM fun identifier => do
    let layer ← item layers identifier
    .ok (identifier,layer.zIndex ((positions.get? identifier).getD 0))
  host.sortedIds keyed

/-- The list of siblings at the roots or in a group. -/
def Record.listed (record : Record) : Option String → Option (List String)
  | none => some record.rootLayerIds
  | some group => (record.layers.get? group).bind (·.childLayerIds)

def Record.listAt (record : Record) (parent : Option String) : Except Failure (List String) :=
  match record.listed parent with
  | some siblings => .ok siblings
  | none => .error .keyError

def Record.relist (record : Record) : Option String → List String → Record
  | none,identifiers => { record with rootLayerIds := identifiers }
  | some group,identifiers =>
    match record.layers.get? group with
    | some layer =>
      let layer := { layer with childLayerIds := some identifiers }
      { record with layers := record.layers.set group layer }
    | none => record

def Record.siblings (record : Record) (identifier : String) :
    Except Failure (Option String × List String) :=
  if identifier ∈ record.rootLayerIds then .ok (none,record.rootLayerIds)
  else
    match record.layers.entries.find? fun e => identifier ∈ e.2.childLayerIds.getD [] with
    | some e => .ok (some e.1,e.2.childLayerIds.getD [])
    | none => .error (.invalidDocument "layer does not exist")

def Record.allocate (record : Record) (letter : String) : String × Record :=
  (letter ++ toString record.nextOrdinal,{ record with nextOrdinal := record.nextOrdinal + 1 })

def Record.updateLayer (record : Record) (identifier : String) (change : Layer → Layer) :
    Except Failure Record := do
  let layer ← item record.layers identifier
  .ok { record with layers := record.layers.set identifier (change layer) }

def Layer.setField (key : String) (value : Json.Value) (layer : Layer) : Layer :=
  { layer with fields := layer.fields.set key value }

/-- Each sibling's `z_index` becomes its place. -/
def Record.number (record : Record) (identifiers : List String) : Except Failure Record :=
  identifiers.zipIdx.foldlM
    (fun record e => record.updateLayer e.1 (.setField "z_index" (.int e.2))) record

def Record.dropMask (record : Record) (mask : String) : Except Failure Record := do
  let _ ← item record.masks mask
  .ok { record with masks := record.masks.erase mask }

/-- A layer goes with everything below it and their masks. -/
def Record.remove : Nat → Record → String → Except Failure Record
  | 0,_,_ => .error .recursionError
  | depth + 1,record,identifier => do
    let layer ← item record.layers identifier
    let popped := { record with layers := record.layers.erase identifier }
    let below ← (layer.childLayerIds.getD []).foldlM (Record.remove depth) popped
    layer.maskIds.foldlM Record.dropMask below

def identity : Json.Value :=
  .obj [("a",.int 1000000),("b",.int 0),("c",.int 0),("d",.int 1000000),("tx",.int 0),
    ("ty",.int 0)]

def groupLayer (name : Json.Value) (identifiers : List String) : Layer where
  childLayerIds := some identifiers
  maskIds := []
  fields := .ofList [("name",name),("visible",.bool true),("opacity",.int 65535),
    ("transform",identity),("blendMode",.str "normal"),("clipping",.str "none")]

def forbidden : List String := ["id","kind","childLayerIds","maskIds","ownerLayerId"]

def Host.transform (host : Host) (components : Json.Value) : Except Failure Json.Value := do
  let affine ← host.affineFromComponents components
  .ok (.obj (affine ++ [("components",components)]))

/-- The key under which `record["layers"]` is asked for a mask's owner. -/
def ownerOf (mask : Fields) : Except Failure String :=
  match mask.get? "ownerLayerId" with
  | some (.str owner) => .ok owner
  | some (.arr _) => .error .typeError
  | some (.obj _) => .error .typeError
  | _ => .error .keyError

inductive Command
  | canvas (changes : Fields)
  | remove (identifier : String)
  | reorder (parent : Option String) (identifiers : List String)
  | group (identifiers : List String) (name : Option Json.Value)
  | layer (identifier : String) (changes : Fields)
  | mask (identifier : String) (changes : Fields)
  | transformLayer (identifier : String) (components : Json.Value)
  | transformMask (identifier : String) (components : Json.Value)
  | addMask (owner : String) (mask : Fields)
  | removeMask (identifier : String)

namespace Record

variable (host : Host) (record : Record)

def applyRemove (identifier : String) : Except Failure Record := do
  let (parent,siblings) ← record.siblings identifier
  let shorter := record.relist parent (siblings.erase identifier)
  shorter.remove (record.layers.keys.length + 1) identifier

def applyReorder (parent : Option String) (identifiers : List String) :
    Except Failure Record := do
  let siblings ← record.listAt parent
  refuseIf (¬ (siblings ⊆ identifiers ∧ identifiers ⊆ siblings) ∨
    siblings.length ≠ identifiers.length) (.invalidDocument "reorder must be a sibling permutation")
  (record.relist parent identifiers).number identifiers

def applyGroup (identifiers : List String) (name : Json.Value) : Except Failure Record := do
  refuseIf (identifiers = [] ∨ ¬ identifiers.Nodup)
    (.invalidDocument "group needs distinct siblings")
  let (parent,siblings) ← record.siblings (identifiers.headD "")
  refuseIf (∃ identifier ∈ identifiers, identifier ∉ siblings)
    (.invalidDocument "group members must be siblings")
  let siblings ← host.orderedLayerIds record.layers siblings
  let position := ((identifiers.map fun identifier => siblings.idxOf identifier).min?).getD 0
  let left := siblings.filter (· ∉ identifiers)
  let (identifier,record) := record.allocate "l"
  let siblings := left.insertIdx position identifier
  let record := record.relist parent siblings
  let layer := groupLayer name identifiers
  let record := { record with layers := record.layers.set identifier layer }
  record.number siblings

def applyAddMask (owner : String) (mask : Fields) : Except Failure Record := do
  let (identifier,record) := record.allocate "m"
  let fields : Fields := .ofList [("id",.str identifier),("kind",.str "raster"),
    ("ownerLayerId",.str owner),("enabled",.bool true),("invert",.bool false),
    ("opacity",.int 65535),("transform",identity),("combineMode",.str "multiply"),
    ("channel",.str "alpha")]
  let record := { record with masks := record.masks.set identifier (fields.update mask) }
  record.updateLayer owner fun layer => { layer with maskIds := layer.maskIds ++ [identifier] }

def applyRemoveMask (identifier : String) : Except Failure Record := do
  let mask ← item record.masks identifier
  let record := { record with masks := record.masks.erase identifier }
  let owner ← ownerOf mask
  let layer ← item record.layers owner
  refuseIf (identifier ∉ layer.maskIds) .valueError
  record.updateLayer owner fun layer => { layer with maskIds := layer.maskIds.erase identifier }

end Record

def Host.apply (host : Host) (record : Record) : Command → Except Failure Record
  | .canvas changes => .ok { record with canvas := record.canvas.update changes }
  | .remove identifier => record.applyRemove identifier
  | .reorder parent identifiers => record.applyReorder parent identifiers
  | .group identifiers name => record.applyGroup host identifiers (name.getD (.str "Group"))
  | .layer identifier changes => do
    refuseIf (∃ key ∈ forbidden, key ∈ changes.keys)
      (.invalidDocument "use structural commands to change ownership")
    record.updateLayer identifier fun layer => { layer with fields := layer.fields.update changes }
  | .mask identifier changes => do
    refuseIf (∃ key ∈ forbidden, key ∈ changes.keys)
      (.invalidDocument "use structural commands to change ownership")
    let mask ← item record.masks identifier
    .ok { record with masks := record.masks.set identifier (mask.update changes) }
  | .transformLayer identifier components => do
    let transform ← host.transform components
    record.updateLayer identifier (.setField "transform" transform)
  | .transformMask identifier components => do
    let transform ← host.transform components
    let mask ← item record.masks identifier
    .ok { record with masks := record.masks.set identifier (mask.set "transform" transform) }
  | .addMask owner mask => record.applyAddMask owner mask
  | .removeMask identifier => record.applyRemoveMask identifier

/-- The loop of `apply_commands`. The document that it ends in is validated after it. -/
def Host.applyCommands (host : Host) (record : Record) (commands : List Command) :
    Except Failure Record :=
  commands.foldlM host.apply record

end Dinkster.Image
