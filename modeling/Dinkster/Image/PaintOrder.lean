import Dinkster.Image.Record

/-! The order in which an image document paints its layers. Siblings are sorted by their `z_index`,
their place in the list standing in for a missing one, and the walk from the sorted roots shows the
raster layers. -/
namespace Dinkster.Image
open Fallible Canonical Forest

def Record.children (record : Record) (identifier : String) : Option (List String) :=
  (record.layers.get? identifier).map fun layer => layer.childLayerIds.getD []

def Record.zIndex? (record : Record) (identifier : String) : Option Json.Value :=
  (record.layers.get? identifier).bind fun layer => layer.fields.get? "z_index"

/-- Walking from the roots comes to each layer once, the indices are integers and the next
allocation is not taken. -/
structure Record.Valid (record : Record) : Prop where
  forest : ∃ seen, Walk record.children record.rootLayerIds seen ∧ seen.Perm record.layers.keys
  indices : ∀ identifier v, record.zIndex? identifier = some v → ∃ n, v = .int n
  fresh : (record.allocate "l").1 ∉ record.layers.keys

def Record.below (host : Host) (record : Record) (identifier : String) : Option (List String) :=
  (record.layers.get? identifier).bind fun layer =>
    match layer.childLayerIds with
    | none => some []
    | some children => (host.orderedLayerIds record.layers children).toOption

def Record.isRaster (record : Record) (identifier : String) : Bool :=
  (record.layers.get? identifier).any fun layer => layer.childLayerIds.isNone

/-- The siblings of one list, in order. -/
def Record.order (host : Host) (record : Record) (parent : Option String) : Option (List String) :=
  (record.listed parent).bind fun siblings =>
    (host.orderedLayerIds record.layers siblings).toOption

def PaintOrder (host : Host) (record : Record) (painted : List String) : Prop :=
  ∃ roots seen, record.order host none = some roots ∧ Walk (record.below host) roots seen ∧
    painted = seen.filter record.isRaster

/-- A raster layer, or a group with one somewhere below it. -/
def Record.Holds (host : Host) (record : Record) (identifier : String) : Prop :=
  ∃ seen, Walk (record.below host) [identifier] seen ∧ ∃ d ∈ seen, record.isRaster d

section Sorting

variable {host : Host} {record record' : Record} {siblings : List String}

def Record.rank (record : Record) (siblings : List String) (identifier : String) : Int :=
  ((record.zIndex? identifier).bind integer?).getD (siblings.idxOf identifier)

theorem position {identifier : String} (distinct : siblings.Nodup)
    (member : identifier ∈ siblings) :
    (Dict.ofList siblings.zipIdx).get? identifier = some (siblings.idxOf identifier) := by
  rw [Dict.get?_ofList (by simpa using distinct),List.mem_zipIdx_iff_getElem?]
  exact List.getElem?_idxOf member

private theorem ranked_ids (f : String → Int) (identifiers : List String) :
    ((identifiers.map fun identifier => (identifier,Json.Value.int (f identifier))).mapM fun e =>
      (integer? e.2).map fun n => (e.1,n)) =
        some (identifiers.map fun identifier => (identifier,f identifier)) := by
  induction identifiers with
  | nil => rfl
  | cons identifier rest ih =>
    rw [List.map_cons,List.mapM_cons,ih]
    rfl

variable (host) in
theorem ordered_eq (distinct : siblings.Nodup) (known : siblings ⊆ record.layers.keys)
    (indices : ∀ identifier ∈ siblings, ∀ v, record.zIndex? identifier = some v →
      ∃ n, v = .int n) :
    host.orderedLayerIds record.layers siblings =
      .ok (sortedBy (record.rank siblings) siblings) := by
  have read : (siblings.mapM fun identifier => do
      let layer ← item record.layers identifier
      .ok (identifier,layer.zIndex
        (((Dict.ofList siblings.zipIdx).get? identifier).getD 0))) =
      .ok (siblings.map fun identifier =>
        (identifier,Json.Value.int (record.rank siblings identifier))) := by
    refine mapM_ok.mpr (List.forall₂_map_right_iff.mpr (List.forall₂_same.mpr ?_))
    intro identifier member
    obtain ⟨layer,found⟩ := (record.layers.mem_keys_iff identifier).mp (known member)
    have index : record.zIndex? identifier = layer.fields.get? "z_index" := by
      rw [Record.zIndex?,found,Option.bind_some]
    rw [position distinct member,item,found]
    refine congrArg (fun v => Except.ok (identifier,v)) ?_
    rw [Layer.zIndex,Record.rank,← index,Option.getD_some]
    cases given : record.zIndex? identifier with
    | none => rfl
    | some v =>
      obtain ⟨n,rfl⟩ := indices identifier member v given
      rfl
  refine bind_ok.mpr ⟨_,read,?_⟩
  rw [Host.sortedIds,ranked_ids]
  dsimp only
  rw [sortedBy_map,List.map_map]
  exact congrArg Except.ok (List.map_id _)

end Sorting

end Dinkster.Image
