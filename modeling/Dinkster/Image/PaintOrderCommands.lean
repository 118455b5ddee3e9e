import Dinkster.Image.Grouping
import Dinkster.Image.Reordering

/-! What the structural commands do to the paint order of a valid document. -/
namespace Dinkster.Image
open Fallible Canonical Forest

variable {host : Host} {record record' : Record} {identifiers : List String} {name : Json.Value}

/-- The layers are siblings, and none comes between them in paint order. -/
def Consecutive (host : Host) (record : Record) (identifiers : List String) : Prop :=
  ∃ parent left members right, record.order host parent = some (left ++ members ++ right) ∧
    members.Perm identifiers

/-- Members that hold raster layers stand among themselves, sorted as the command lists them, as
they do among their siblings. -/
def MembersAgree (host : Host) (record : Record) (identifiers : List String) : Prop :=
  ∀ parent siblings own, record.order host parent = some siblings → identifiers ⊆ siblings →
    host.orderedLayerIds record.layers identifiers = .ok own →
    ∀ x ∈ identifiers, ∀ y ∈ identifiers, record.Holds host x → record.Holds host y →
      [x,y].Sublist siblings → [x,y].Sublist own

def SamePaint (host : Host) (record record' : Record) : Prop :=
  ∀ painted, PaintOrder host record painted ↔ PaintOrder host record' painted

theorem below_known {d : String} {children : List String}
    (known : record.below host d = some children) : d ∈ record.layers.keys := by
  obtain ⟨layer,found,-⟩ := Option.bind_eq_some_iff.mp known
  exact (Dict.mem_keys_iff _ _).mpr ⟨layer,found⟩

theorem order_listed {parent : Option String} {siblings : List String} (valid : record.Valid)
    (ordered : record.order host parent = some siblings) :
    ∃ listed, record.listed parent = some listed ∧ siblings.Perm listed := by
  obtain ⟨listed,found,-⟩ := Option.bind_eq_some_iff.mp ordered
  rw [valid.order_eq found] at ordered
  exact ⟨listed,found,Option.some.inj ordered ▸ sortedBy_perm _ _⟩

theorem painted_eq_iff {members own mid mid' : List String} (listed : own.Perm members)
    (distinct : members.Nodup) (once : mid.Nodup) (walk : Walk (record.below host) members mid)
    (walk' : Walk (record.below host) own mid') :
    mid'.filter record.isRaster = mid.filter record.isRaster ↔
      ∀ x ∈ members, ∀ y ∈ members, record.Holds host x → record.Holds host y →
        [x,y].Sublist members → [x,y].Sublist own := by
  obtain ⟨part,single,rfl⟩ := walk.parts
  have single' : ∀ d ∈ own, Walk (record.below host) [d] (part d) := fun d member =>
    single d (listed.mem_iff.mp member)
  obtain rfl := walk'.unique (Walk.of_parts single')
  have holds {d : String} (member : d ∈ members) :
      record.Holds host d ↔ (part d).filter record.isRaster ≠ [] := by
    rw [Record.Holds,Ne,List.filter_eq_nil_iff]
    push Not
    constructor
    · rintro ⟨seen,walk,leaf⟩
      rwa [walk.unique (single d member)] at leaf
    · exact fun leaf => ⟨_,single d member,leaf⟩
  rw [List.filter_flatMap,List.filter_flatMap,flatMap_eq_iff listed distinct (by
    rw [← List.filter_flatMap]
    exact once.filter _)]
  constructor
  · intro agree x first y second full full' before
    exact agree x y ((holds first).mp full) ((holds second).mp full') before
  · intro agree x y full full' before
    have first : x ∈ members := before.subset (by simp)
    have second : y ∈ members := before.subset (by simp)
    exact agree x first y second ((holds first).mpr full) ((holds second).mpr full') before

theorem samePaint_iff (valid : record.Valid)
    (done : record.applyGroup host identifiers name = .ok record')
    (together : Consecutive host record identifiers) :
    SamePaint host record record' ↔ MembersAgree host record identifiers := by
  obtain ⟨parent,siblings,ordered,listed,some_member,distinct,inside,sorted,done⟩ := group_ok done
  obtain ⟨parent',left,members,right,ordered',permuted⟩ := together
  -- both ways of finding the list find the same one
  have order : record.order host parent = some ordered := by
    rw [Record.order,listed,Option.bind_some,sorted]
    rfl
  obtain ⟨siblings',listed',perm'⟩ := order_listed valid ordered'
  obtain ⟨first,member⟩ := List.exists_mem_of_ne_nil _ some_member
  have member' : first ∈ left ++ members ++ right := by
    simp [permuted.mem_iff.mpr member]
  obtain rfl := valid.unique listed listed' (inside member) (perm'.mem_iff.mp member')
  obtain rfl := Option.some.inj (order.symm.trans ordered')
  have whole := perm'.nodup_iff.mpr (valid.nodup listed')
  rw [regrouped_eq whole permuted some_member] at done
  obtain ⟨own,own_eq⟩ : ∃ own, host.orderedLayerIds record.layers identifiers = .ok own :=
    ⟨_,ordered_eq host distinct (fun d member => valid.known listed (inside member))
      fun d _ => valid.indices d⟩
  have own_perm : own.Perm members := by
    have own_eq' := ordered_eq host distinct
      (fun d member => valid.known listed (inside member)) fun d _ => valid.indices d
    obtain rfl := Except.ok.inj (own_eq.symm.trans own_eq')
    exact (sortedBy_perm _ _).trans permuted.symm
  obtain ⟨roots,seen,top,walk,keys,once⟩ := valid.paintWalk host
  obtain ⟨front,mid,mid',back,roots',rfl,before,after,top',walk'⟩ :=
    grouped_walk valid listed order permuted distinct done own_eq top walk keys
  -- the raster layers that the new walk shows
  have raster {part : List String} (known : part ⊆ record.layers.keys) :
      part.filter record'.isRaster = part.filter record.isRaster :=
    List.filter_congr fun d member => grouped_raster valid listed order done (known member)
  have known' : mid' ⊆ record.layers.keys := fun d member => by
    obtain ⟨children,known⟩ := after.known member
    exact below_known known
  have shown : (front ++ (record.allocate "l").1 :: mid' ++ back).filter record'.isRaster =
      front.filter record.isRaster ++ mid'.filter record.isRaster ++
        back.filter record.isRaster := by
    have known : front ++ mid ++ back ⊆ record.layers.keys := fun d member =>
      keys.mem_iff.mp member
    rw [List.filter_append,List.filter_append,
      List.filter_cons_of_neg (by simp [group_not_raster valid listed order done]),
      raster (fun d member => known (by simp [member])),raster known',
      raster (fun d member => known (by simp [member]))]
  have same : SamePaint host record record' ↔
      mid'.filter record.isRaster = mid.filter record.isRaster := by
    have painted : PaintOrder host record
        (front.filter record.isRaster ++ mid.filter record.isRaster ++
          back.filter record.isRaster) :=
      ⟨roots,_,top,walk,by rw [List.filter_append,List.filter_append]⟩
    have painted' : PaintOrder host record' (front.filter record.isRaster ++
        mid'.filter record.isRaster ++ back.filter record.isRaster) :=
      ⟨roots',_,top',walk',shown.symm⟩
    constructor
    · intro same
      have equal := painted'.unique ((same _).mp painted)
      exact List.append_cancel_left (List.append_cancel_right equal)
    · intro equal order
      rw [equal] at painted'
      exact ⟨fun here => here.unique painted ▸ painted',fun here => here.unique painted' ▸ painted⟩
  obtain ⟨whole',-,-⟩ := List.nodup_append.mp whole
  obtain ⟨-,distinct',-⟩ := List.nodup_append.mp whole'
  obtain ⟨once',-,-⟩ := List.nodup_append.mp once
  obtain ⟨-,once',-⟩ := List.nodup_append.mp once'
  rw [same,painted_eq_iff own_perm distinct' once' before after]
  -- two members stand among their siblings as they stand in the block
  have block : members.Sublist (left ++ members ++ right) :=
    (List.sublist_append_right left members).trans (List.sublist_append_left _ right)
  constructor
  · intro agree parent' siblings' own' order' inside' own_eq' x member y member' full full' pair
    obtain ⟨listing,found,perm''⟩ := order_listed valid order'
    obtain rfl := valid.unique listed found (inside member) (perm''.mem_iff.mp (inside' member))
    obtain rfl := Option.some.inj (order.symm.trans order')
    obtain rfl := Except.ok.inj (own_eq.symm.trans own_eq')
    have here := permuted.mem_iff.mpr member
    have here' := permuted.mem_iff.mpr member'
    refine agree x here y here' full full' ?_
    refine (before_or_after here here' (before_ne whole pair)).resolve_right fun swapped => ?_
    exact not_before_and_after whole pair (swapped.trans block)
  · intro agree x member y member' full full' pair
    exact agree parent _ own order
      (fun d member => block.subset (permuted.mem_iff.mpr member)) own_eq x
      (permuted.mem_iff.mp member) y (permuted.mem_iff.mp member') full full' (pair.trans block)

/-- A reorder makes the order of its siblings the list given and keeps all other orders; a group of
siblings that stand together keeps the paint order exactly where its members that hold raster layers
stand among themselves as among their siblings; and a removal keeps the order of the remaining
layers exactly in a steady list. -/
theorem commands_paint (valid : record.Valid) :
    (∀ parent identifiers record', host.apply record (.reorder parent identifiers) = .ok record' →
      Reordered host record record' parent identifiers) ∧
    (∀ identifiers name record', host.apply record (.group identifiers name) = .ok record' →
      Consecutive host record identifiers →
      (SamePaint host record record' ↔ MembersAgree host record identifiers)) ∧
    (∀ identifier record', host.apply record (.remove identifier) = .ok record' →
      (Remaining host record record' identifier ↔ Steady record identifier)) :=
  ⟨fun _ _ _ done => reorder_reordered valid done,
    fun _ _ _ done together => samePaint_iff valid done together,
    fun _ _ done => remaining_iff valid done⟩

def rasterLayer (resource : String) (index : Fields) : Layer where
  childLayerIds := none
  maskIds := []
  fields := .update (.ofList [("name",.str "Layer"),("visible",.bool true),("opacity",.int 65535),
    ("transform",identity),("blendMode",.str "normal"),("clipping",.str "none"),
    ("resourceId",.str resource),("sourceRect",.obj [("x",.int 0),("y",.int 0),("width",.int 4),
      ("height",.int 4)])]) index

def rasterResource (resource : String) : Fields :=
  .ofList [("id",.str resource),("kind",.str "raster"),
    ("digest",.str "blake3:4c9bd68d7f0baa2e167cef98295eb1ec99a3ec8f0656b33dbae943b387f31d5d"),
    ("byteSize",.int 64),("mediaType",.str "image/png"),("width",.int 4),("height",.int 4),
    ("colorSpace",.str "srgb"),("channelDepth",.int 8),("alphaMode",.str "opaque")]

def flat (layers : List (String × Layer)) (distinct : (layers.map (·.1)).Nodup) : Record where
  canvas := .ofList [("width",.int 4),("height",.int 4),("colorSpace",.str "srgb"),
    ("channelDepth",.int 8),("compositing",.str "premultiplied-alpha")]
  nextOrdinal := 4
  actorCursors := .empty
  rootLayerIds := layers.map (·.1)
  layers := ⟨layers,distinct⟩
  masks := .empty
  resources := .ofList [("r3",rasterResource "r3")]

def pair : Record :=
  flat [("l0",rasterLayer "r3" .empty),("l1",rasterLayer "r3" .empty)] (by decide)

/-- The last layer shares its number with the place of the second one once the first one is gone. -/
def triple : Record :=
  flat [("l0",rasterLayer "r3" .empty),("l1",rasterLayer "r3" .empty),
    ("l2",rasterLayer "r3" (.ofList [("z_index",.int 0)]))] (by decide)

def closedHost : Host := ⟨fun _ => .error .typeError,fun _ => .error .valueError⟩

private theorem flat_valid {layers : List (String × Layer)}
    {distinct : (layers.map (·.1)).Nodup} (leaves : ∀ e ∈ layers, e.2.childLayerIds = none)
    (indices : ∀ e ∈ layers, ∀ v, e.2.fields.get? "z_index" = some v → ∃ n, v = .int n)
    (fresh : "l" ++ toString 4 ∉ layers.map (·.1)) : (flat layers distinct).Valid := by
  refine ⟨⟨layers.map (·.1),?_,.refl _⟩,fun identifier v given => ?_,fresh⟩
  · have each : ∀ d ∈ layers.map (·.1), Walk (flat layers distinct).children [d] [d] := by
      intro d member
      obtain ⟨e,held,rfl⟩ := List.mem_map.mp member
      have found := ((flat layers distinct).layers.get?_eq_some_iff e.1 e.2).mpr held
      have leaf : (flat layers distinct).children e.1 = some [] := by
        rw [Record.children,found,Option.map_some,leaves e held]
        rfl
      exact .cons leaf .nil .nil
    have walk := Walk.of_parts each
    rwa [List.flatMap_singleton'] at walk
  · obtain ⟨layer,found,given⟩ := Option.bind_eq_some_iff.mp given
    exact indices _ (((flat layers distinct).layers.get?_eq_some_iff _ _).mp found) v given

private theorem unindexed : (rasterLayer "r3" .empty).fields.get? "z_index" = none := by
  decide +kernel

theorem pair_valid : pair.Valid := by
  refine flat_valid (by simp [rasterLayer]) ?_ (by decide)
  simp [unindexed]

theorem triple_valid : triple.Valid := by
  have indexed : (rasterLayer "r3" (.ofList [("z_index",.int 0)])).fields.get? "z_index" =
      some (.int 0) := rfl
  refine flat_valid (by simp [rasterLayer]) ?_ (by decide)
  simp [unindexed,indexed]

private theorem accepted (record : Record) (command : Command)
    (runs : (closedHost.apply record command).toOption.isSome = true) :
    ∃ record', closedHost.apply record command = .ok record' := by
  cases done : closedHost.apply record command with
  | error e =>
    rw [done] at runs
    cases runs
  | ok record' => exact ⟨record',rfl⟩

/-- The commands at the document with two layers. -/
theorem commands_paint_pair :
    (∃ record', closedHost.apply pair (.reorder none ["l1","l0"]) = .ok record' ∧
      Reordered closedHost pair record' none ["l1","l0"]) ∧
    (∃ record', closedHost.apply pair (.group ["l0","l1"] none) = .ok record' ∧
      (SamePaint closedHost pair record' ↔ MembersAgree closedHost pair ["l0","l1"])) ∧
    (∃ record', closedHost.apply pair (.remove "l0") = .ok record' ∧
      (Remaining closedHost pair record' "l0" ↔ Steady pair "l0")) := by
  obtain ⟨reorders,groups,removes⟩ := @commands_paint closedHost pair pair_valid
  have together : Consecutive closedHost pair ["l0","l1"] :=
    ⟨none,[],["l0","l1"],[],by decide +kernel,.refl _⟩
  obtain ⟨reordered,done⟩ := accepted pair (.reorder none ["l1","l0"])
    (by decide +kernel)
  obtain ⟨grouped,done'⟩ := accepted pair (.group ["l0","l1"] none)
    (by decide +kernel)
  obtain ⟨removed,done''⟩ := accepted pair (.remove "l0")
    (by decide +kernel)
  exact ⟨⟨reordered,done,reorders _ _ _ done⟩,⟨grouped,done',groups _ _ _ done' together⟩,
    ⟨removed,done'',removes _ _ done''⟩⟩

/-- Listing two layers against their order swaps them, and with the first of three layers gone the
place of the second is the number of the third. -/
theorem paint_order_broken :
    (∃ record', pair.Valid ∧ closedHost.apply pair (.group ["l1","l0"] none) = .ok record' ∧
      Consecutive closedHost pair ["l1","l0"] ∧ ¬ SamePaint closedHost pair record') ∧
    (∃ record', triple.Valid ∧ closedHost.apply triple (.remove "l0") = .ok record' ∧
      ¬ Remaining closedHost triple record' "l0") := by
  have together : Consecutive closedHost pair ["l1","l0"] :=
    ⟨none,[],["l0","l1"],[],by decide +kernel,.swap _ _ _⟩
  constructor
  · obtain ⟨record',done⟩ := accepted pair (.group ["l1","l0"] none)
      (by decide +kernel)
    refine ⟨record',pair_valid,done,together,?_⟩
    rw [samePaint_iff pair_valid done together]
    intro agree
    have holds {d : String} (raster : pair.isRaster d = true) : pair.Holds closedHost d :=
      ⟨[d],.cons (below_raster raster) .nil .nil,d,by simp,raster⟩
    have swapped := agree none ["l0","l1"] ["l1","l0"] (by decide +kernel) (by simp) rfl
      "l0" (by simp) "l1" (by simp) (holds (by decide +kernel)) (holds (by decide +kernel))
      (.refl _)
    exact absurd swapped (by decide)
  · obtain ⟨record',done⟩ := accepted triple (.remove "l0")
      (by decide +kernel)
    refine ⟨record',triple_valid,done,?_⟩
    rw [remaining_iff triple_valid done]
    intro steady
    have index : triple.zIndex? "l2" = some (.int 0) := rfl
    have moved := steady none ["l0","l1","l2"] rfl (by simp) "l1" (by simp) "l2" (by simp)
      (by decide) (by decide) rfl 0 index
    exact moved.2 ⟨by decide,by decide⟩

end Dinkster.Image
