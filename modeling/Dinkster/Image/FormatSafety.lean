import Dinkster.Image.LayerTree

/-! What the image document format accepts: members within their bounds, identifiers below their
cursors with no coordinate twice, a rooted tree of layers, masks with one owner each, and sources
inside of existing resources. -/
namespace Dinkster.Image
open Fallible Forest

variable {platform : Platform} {allocation : Allocation} {letter : Char}

structure Allocation.Gives (allocation : Allocation) (letter : Char) (identifier : String)
    (coordinate : Coordinate) : Prop where
  parsed : parseId identifier = some (letter,coordinate)
  safe : (coordinate.ordinal : Int) ≤ maxSafeInteger
  below : coordinate.ordinal < allocation.cursor coordinate.actor

theorem allocated_ok {coordinates : List Coordinate} {identifier : String}
    {coordinate : Coordinate} :
    allocation.allocated letter coordinates identifier = .ok coordinate ↔
      allocation.Gives letter identifier coordinate ∧ coordinate ∉ coordinates := by
  rw [Allocation.allocated]
  cases parsed : parseId identifier with
  | none =>
    constructor
    · exact nofun
    · rintro ⟨gives,-⟩
      cases parsed.symm.trans gives.parsed
  | some found =>
    obtain ⟨letter',coordinate'⟩ := found
    dsimp only
    rw [refuse_then,refuse_then,not_not,not_or,not_or,Except.ok.injEq]
    push Not
    constructor
    · rintro ⟨rfl,⟨safe,below,fresh⟩,rfl⟩
      exact ⟨⟨parsed,safe,below⟩,fresh⟩
    · rintro ⟨gives,fresh⟩
      obtain ⟨rfl,rfl⟩ := Prod.mk.inj (Option.some.inj (parsed.symm.trans gives.parsed))
      exact ⟨rfl,⟨gives.safe,gives.below,fresh⟩,rfl⟩

theorem scan_ok {α : Type} {check : String → Json.Value → Except Failure α}
    {entries : List (String × Json.Value)} {coordinates coordinates' : List Coordinate}
    {checked : List (String × α)} :
    allocation.scan letter check coordinates entries = .ok (coordinates',checked) ↔
      (∃ given, coordinates' = given.reverse ++ coordinates ∧
        List.Forall₂ (fun e c => allocation.Gives letter e.1 c) entries given ∧ given.Nodup ∧
        given.Disjoint coordinates) ∧
      List.Forall₂ (fun e c => c.1 = e.1 ∧ check e.1 e.2 = .ok c.2) entries checked := by
  induction entries generalizing coordinates checked with
  | nil =>
    rw [Allocation.scan,Except.ok.injEq,Prod.mk.injEq,List.forall₂_nil_left_iff]
    constructor
    · rintro ⟨rfl,rfl⟩
      exact ⟨⟨[],rfl,.nil,.nil,List.disjoint_nil_left _⟩,rfl⟩
    · rintro ⟨⟨given,rfl,none,-⟩,rfl⟩
      cases none
      exact ⟨rfl,rfl⟩
  | cons e rest ih =>
    obtain ⟨identifier,raw⟩ := e
    rw [Allocation.scan]
    constructor
    · intro done
      obtain ⟨coordinate,allocated,done⟩ := bind_ok.mp done
      obtain ⟨entry,passed,done⟩ := bind_ok.mp done
      obtain ⟨⟨coordinates'',later⟩,scanned,done⟩ := bind_ok.mp done
      obtain ⟨rfl,rfl⟩ := Prod.mk.inj (Except.ok.inj done)
      obtain ⟨⟨given,rfl,gives,distinct,apart⟩,checked⟩ := ih.mp scanned
      obtain ⟨first,fresh⟩ := allocated_ok.mp allocated
      obtain ⟨new,apart⟩ := List.disjoint_cons_right.mp apart
      refine ⟨⟨coordinate :: given,by simp,.cons first gives,List.nodup_cons.mpr ⟨new,distinct⟩,
        List.disjoint_cons_left.mpr ⟨fresh,apart⟩⟩,.cons ⟨rfl,passed⟩ checked⟩
    · rintro ⟨⟨given,rfl,gives,distinct,apart⟩,checked⟩
      cases gives with
      | @cons _ coordinate _ given first gives =>
        cases checked with
        | @cons _ entry _ later passed checked =>
          obtain ⟨name,entry⟩ := entry
          obtain ⟨rfl,passed⟩ := passed
          obtain ⟨fresh,apart⟩ := List.disjoint_cons_left.mp apart
          obtain ⟨new,distinct⟩ := List.nodup_cons.mp distinct
          refine bind_ok.mpr ⟨coordinate,allocated_ok.mpr ⟨first,fresh⟩,
            bind_ok.mpr ⟨entry,passed,bind_ok.mpr ⟨_,ih.mpr ⟨⟨given,by simp,gives,
              distinct,List.disjoint_cons_right.mpr ⟨new,apart⟩⟩,checked⟩,rfl⟩⟩⟩

structure Host.MaskFields (host : Host) (identifier : String) (raw : Json.Value)
    (checked : Fields × Source) : Prop where
  shape : object maskKeys [] raw = .ok checked.1
  name : isText identifier (memberOr checked.1 "id" .null) = true
  kind : isText "raster" (memberOr checked.1 "kind" .null) = true
  enabled : isBool (memberOr checked.1 "enabled" .null) = true
  invert : isBool (memberOr checked.1 "invert" .null) = true
  fields : host.checkMaskFields checked.1 = .ok checked.2

theorem oneOf_true {names : List String} {value : Json.Value} :
    oneOf names value = .ok true ↔ ∃ s ∈ names, value = .str s := by
  cases value with
  | str s =>
    rw [oneOf,Except.ok.injEq,decide_eq_true_eq]
    simp
  | null | bool | int | float | arr | obj => simp [oneOf]

theorem checkMask_ok {host : Host} {layers : Dict String Layer} {owners : String → Nat}
    {identifier : String} {raw : Json.Value} {checked : Fields × Source} :
    host.checkMask layers owners identifier raw = .ok checked ↔
      host.MaskFields identifier raw checked ∧ owners identifier = 1 ∧
        ∃ owner ∈ layers.keys, checked.1.get? "ownerLayerId" = some (.str owner) := by
  rw [Host.checkMask]
  constructor
  · intro done
    obtain ⟨mask,shape,done⟩ := bind_ok.mp done
    obtain ⟨same,done⟩ := refuse_then.mp done
    obtain ⟨owned,asked,done⟩ := bind_ok.mp done
    obtain ⟨kept,done⟩ := refuse_then.mp done
    obtain ⟨source,fields,done⟩ := bind_ok.mp done
    obtain rfl := Except.ok.inj done
    simp only [not_or,Bool.not_eq_false,not_not] at same kept
    obtain ⟨rfl,enabled,invert⟩ := kept
    obtain ⟨value,found,known⟩ := bind_ok.mp asked
    obtain ⟨owner,member,rfl⟩ := oneOf_true.mp known
    exact ⟨⟨shape,same.1,same.2.1,enabled,invert,fields⟩,same.2.2,owner,member,item_ok.mp found⟩
  · rintro ⟨fields,single,owner,member,found⟩
    refine bind_ok.mpr ⟨checked.1,fields.shape,refuse_then.mpr ⟨?_,bind_ok.mpr ⟨true,
      bind_ok.mpr ⟨_,item_ok.mpr found,oneOf_true.mpr ⟨owner,member,rfl⟩⟩,refuse_then.mpr ⟨?_,
        bind_ok.mpr ⟨checked.2,fields.fields,rfl⟩⟩⟩⟩⟩
    · simp [fields.name,fields.kind,single]
    · simp [fields.enabled,fields.invert]

/-- Every mask belongs to one layer that lists it once and that it names as its owner. -/
structure Owned (layers : Dict String Layer) (masks : Fields) : Prop where
  listed : ∀ layer held, layers.get? layer = some held → held.maskIds.Nodup ∧
    ∀ mask ∈ held.maskIds, ownerIs layer (masks.get? mask) = true
  owned : ∀ mask ∈ masks.keys, ∃! layer, ∃ held, layers.get? layer = some held ∧
    mask ∈ held.maskIds

theorem ownerIs_iff {owner : String} {value : Option Json.Value} : ownerIs owner value = true ↔
    ∃ members, value = some (.obj members) ∧
      (Dict.ofList members).get? "ownerLayerId" = some (.str owner) := by
  have named (standIn : Option Json.Value) :
      isText owner (standIn.getD .null) = true ↔ standIn = some (.str owner) := by
    cases standIn with
    | none => simp [isText]
    | some v =>
      cases v with
      | str s => simp [isText]
      | null | bool | int | float | arr | obj => simp [isText]
  cases value with
  | none => simp [ownerIs]
  | some v =>
    cases v with
    | obj members => simpa [ownerIs,memberOr] using named _
    | null | bool | int | float | arr | str => simp [ownerIs]

theorem ownerIs_unique {owner owner' : String} {value : Option Json.Value}
    (same : ownerIs owner value = true) (same' : ownerIs owner' value = true) : owner = owner' := by
  obtain ⟨members,rfl,named⟩ := ownerIs_iff.mp same
  obtain ⟨members',again,named'⟩ := ownerIs_iff.mp same'
  obtain rfl := Json.Value.obj.inj (Option.some.inj again)
  exact Json.Value.str.inj (Option.some.inj (named.symm.trans named'))

theorem checkOwned_ok {masks : Fields} {e : String × Layer} {u : Unit} :
    checkOwned masks e = .ok u ↔ e.2.maskIds.Nodup ∧
      ∀ mask ∈ e.2.maskIds, ownerIs e.1 (masks.get? mask) = true := by
  rw [checkOwned,refuse_then,refuseIf_ok,not_not]
  push Not
  simp only [ne_eq,Bool.not_eq_false]

theorem owned_iff {layers : Dict String Layer} {masks : Fields} :
    (∀ e ∈ layers.entries, checkOwned masks e = .ok ()) ∧
      (∀ mask ∈ masks.keys, (layers.entries.flatMap (·.2.maskIds)).count mask = 1) ↔
    Owned layers masks := by
  have entry (layer : String) (held : Layer) :
      layers.get? layer = some held ↔ (layer,held) ∈ layers.entries :=
    Dict.get?_eq_some_iff _ _ _
  -- a mask is listed once at most where each layer lists its own masks once
  have once (each : ∀ e ∈ layers.entries, checkOwned masks e = .ok ()) :
      (layers.entries.flatMap (·.2.maskIds)).Nodup := by
    refine List.nodup_flatMap.mpr ⟨fun e member => (checkOwned_ok.mp (each e member)).1,?_⟩
    have apart := List.pairwise_map.mp layers.distinct
    refine apart.imp_of_mem fun member member' other mask inside inside' => other ?_
    exact ownerIs_unique ((checkOwned_ok.mp (each _ member)).2 mask inside)
      ((checkOwned_ok.mp (each _ member')).2 mask inside')
  constructor
  · rintro ⟨each,counted⟩
    refine ⟨fun layer held found => checkOwned_ok.mp (each _ ((entry _ _).mp found)),?_⟩
    intro mask here
    have inside := List.count_pos_iff.mp ((counted mask here).symm ▸ Nat.one_pos)
    obtain ⟨e,member,listed⟩ := List.mem_flatMap.mp inside
    refine ⟨e.1,⟨e.2,(entry _ _).mpr member,listed⟩,?_⟩
    rintro layer ⟨held,found,listed'⟩
    exact ownerIs_unique ((checkOwned_ok.mp (each _ ((entry _ _).mp found))).2 mask listed')
      ((checkOwned_ok.mp (each e member)).2 mask listed)
  · intro owned
    have each : ∀ e ∈ layers.entries, checkOwned masks e = .ok () := fun e member =>
      checkOwned_ok.mpr (owned.listed e.1 e.2 ((entry _ _).mpr member))
    refine ⟨each,fun mask here => ?_⟩
    obtain ⟨layer,⟨held,found,listed⟩,-⟩ := owned.owned mask here
    exact List.count_eq_one_of_mem (once each)
      (List.mem_flatMap.mpr ⟨_,(entry _ _).mp found,listed⟩)

/-- What the passes read of the entries of a document. -/
structure Parts where
  layers : List (String × Layer × Option Source)
  masks : List (String × Fields × Source)
  resources : List (String × CheckedResource)

def Parts.tree (parts : Parts) : Dict String Layer :=
  .ofList (parts.layers.map fun e => (e.1,e.2.1))

def Parts.sources (parts : Parts) : List Source :=
  parts.layers.filterMap (·.2.2) ++ parts.masks.map (·.2.2)

structure Parts.Read (parts : Parts) (platform : Platform) (document : Document) : Prop where
  layers : List.Forall₂ (fun e c => c.1 = e.1 ∧
    platform.checkLayer document.version e.1 e.2 = .ok c.2) document.layers.entries parts.layers
  masks : List.Forall₂ (fun e c => c.1 = e.1 ∧ platform.MaskFields e.1 e.2 c.2)
    document.masks.entries parts.masks
  resources : List.Forall₂ (fun e c => c.1 = e.1 ∧
    platform.checkResource document.version e.1 e.2 = .ok c.2) document.resources.entries
    parts.resources

def Document.Identified (document : Document) : Prop :=
  ∃ layers masks resources,
    List.Forall₂ (document.allocation.Gives 'l') document.layers.keys layers ∧
    List.Forall₂ (document.allocation.Gives 'm') document.masks.keys masks ∧
    List.Forall₂ (document.allocation.Gives 'r') document.resources.keys resources ∧
    (layers ++ masks ++ resources).Nodup

def Parts.Resolved (parts : Parts) : Prop :=
  ∀ source ∈ parts.sources, ∃ resource,
    (Dict.ofList parts.resources).get? source.resourceId = some resource ∧
      source.rect.x + source.rect.width ≤ resource.width ∧
      source.rect.y + source.rect.height ≤ resource.height

/-- The structure of a document as the format means it. -/
structure Parts.Structured (parts : Parts) (platform : Platform) (document : Document) :
    Prop where
  read : parts.Read platform document
  identified : document.Identified
  rooted : Rooted document.roots parts.tree
  owned : Owned parts.tree document.masks
  resolved : parts.Resolved

/-- What the format asks for besides: layers nest at most 64 deep, and no list of siblings has a
clipped layer first. -/
structure Parts.Paintable (parts : Parts) (platform : Platform) (document : Document) :
    Prop where
  shallow : Within (childrenIn parts.tree) maxLayerDepth document.roots
  unclipped : Unclipped platform.toHost document.roots parts.tree

/-- The document as a record. -/
def Parts.record (parts : Parts) (document : Document) : Record :=
  ⟨document.canvas,document.allocation.nextOrdinal,document.allocation.actorCursors,
    document.roots,parts.tree,.ofList (parts.masks.map fun e => (e.1,e.2.1)),
    .ofList (parts.resources.map fun e => (e.1,e.2.fields))⟩

theorem related {α β : Type} {R S : α → β → Prop} {l : List α} {l' : List β}
    (pairs : List.Forall₂ R l l') (stronger : ∀ a ∈ l, ∀ b ∈ l', R a b → S a b) :
    List.Forall₂ S l l' := by
  induction pairs with
  | nil => exact .nil
  | cons first _ ih =>
    refine .cons (stronger _ List.mem_cons_self _ List.mem_cons_self first) (ih ?_)
    exact fun a member b member' =>
      stronger a (List.mem_cons_of_mem _ member) b (List.mem_cons_of_mem _ member')

theorem partner {α β : Type} {R : α → β → Prop} {l : List α} {l' : List β}
    (pairs : List.Forall₂ R l l') : (∀ a ∈ l, ∃ b ∈ l', R a b) ∧ ∀ b ∈ l', ∃ a ∈ l, R a b := by
  induction pairs with
  | nil => simp
  | cons first _ ih =>
    refine ⟨List.forall_mem_cons.mpr ⟨⟨_,List.mem_cons_self,first⟩,fun a member => ?_⟩,
      List.forall_mem_cons.mpr ⟨⟨_,List.mem_cons_self,first⟩,fun b member => ?_⟩⟩
    · obtain ⟨b,member',holds⟩ := ih.1 a member
      exact ⟨b,List.mem_cons_of_mem _ member',holds⟩
    · obtain ⟨a,member',holds⟩ := ih.2 b member
      exact ⟨a,List.mem_cons_of_mem _ member',holds⟩

private theorem keys_eq {β : Type} {R : String × Json.Value → String × β → Prop}
    {entries : List (String × Json.Value)} {checked : List (String × β)}
    (pairs : List.Forall₂ R entries checked) (same : ∀ e c, R e c → c.1 = e.1) :
    checked.map (·.1) = entries.map (·.1) := by
  induction pairs with
  | nil => rfl
  | cons first _ ih => rw [List.map_cons,List.map_cons,ih,same _ _ first]

section Read

variable {parts : Parts} {document : Document}

theorem Parts.Read.tree_entries (read : parts.Read platform document) :
    parts.tree.entries = parts.layers.map fun e => (e.1,e.2.1) := by
  refine Dict.entries_ofList ?_
  rw [List.map_map]
  exact (keys_eq read.layers fun _ _ both => both.1) ▸ document.layers.distinct

theorem Parts.Read.tree_keys (read : parts.Read platform document) :
    parts.tree.keys = document.layers.keys := by
  rw [Dict.keys,read.tree_entries,List.map_map]
  exact keys_eq read.layers fun _ _ both => both.1

theorem checkLayer_index {host : Host} {version : Int} {identifier : String} {raw : Json.Value}
    {checked : Layer × Option Source}
    (done : host.checkLayer version identifier raw = .ok checked) {v : Json.Value}
    (given : checked.1.fields.get? "z_index" = some v) : ∃ n, v = .int n := by
  obtain ⟨fields,-,done⟩ := bind_ok.mp done
  obtain ⟨-,done⟩ := refuse_then.mp done
  obtain ⟨_,-,done⟩ := bind_ok.mp done
  obtain ⟨layer,-,done⟩ := bind_ok.mp done
  obtain ⟨maskIds,members,done⟩ := bind_ok.mp done
  have kept : checked.1.fields = layer := by
    split at done
    · obtain ⟨children,-,done⟩ := bind_ok.mp done
      rw [← Except.ok.inj done]
    · obtain ⟨source,-,done⟩ := bind_ok.mp done
      rw [← Except.ok.inj done]
  obtain ⟨n,index,-⟩ := bind_ok.mp members
  rw [memberOr,← kept,given,Option.getD_some] at index
  cases v with
  | int n => exact ⟨n,rfl⟩
  | null | bool | float | str | arr | obj => cases index

theorem Parts.Read.ranked (read : parts.Read platform document) : Ranked parts.tree := by
  intro identifier layer v found given
  have member := (Dict.get?_eq_some_iff _ _ _).mp found
  rw [read.tree_entries] at member
  obtain ⟨c,inside,same⟩ := List.mem_map.mp member
  obtain ⟨e,-,-,checked⟩ := (partner read.layers).2 c inside
  obtain ⟨-,rfl⟩ := Prod.mk.inj same
  exact checkLayer_index checked given

theorem resolved_iff {sources : List Source} {resources : Dict String CheckedResource} :
    (¬ ∃ source ∈ sources, source.inside resources = false) ↔
      ∀ source ∈ sources, ∃ resource, resources.get? source.resourceId = some resource ∧
        source.rect.x + source.rect.width ≤ resource.width ∧
        source.rect.y + source.rect.height ≤ resource.height := by
  push Not
  refine forall₂_congr fun source _ => ?_
  rw [Source.inside]
  cases resources.get? source.resourceId with
  | none => simp
  | some resource => simp

theorem mask_owner {host : Host} {masks : Fields} {owner identifier : String} {raw : Json.Value}
    {checked : Fields × Source} (fields : host.MaskFields identifier raw checked)
    (found : masks.get? identifier = some raw)
    (named : ownerIs owner (masks.get? identifier) = true) :
    checked.1.get? "ownerLayerId" = some (.str owner) := by
  obtain ⟨members,same,owned⟩ := ownerIs_iff.mp named
  obtain rfl := Option.some.inj (found.symm.trans same)
  obtain ⟨read,asked,done⟩ := bind_ok.mp fields.shape
  obtain ⟨-,done⟩ := refuse_then.mp done
  obtain rfl := Except.ok.inj asked
  rw [← Except.ok.inj done,owned]

end Read

theorem checkDocument_ok {document : Document} {checked : Checked} :
    platform.checkDocument document = .ok checked ↔ ∃ parts : Parts,
      parts.Structured platform document ∧ parts.Paintable platform document ∧
      checked = ⟨parts.record document,Canonical.sortedBy (·.resourceId)
        (parts.resources.filterMap (·.2.dependency))⟩ := by
  constructor
  · intro done
    obtain ⟨⟨coordinates,layers⟩,first,done⟩ := bind_ok.mp done
    obtain ⟨_,tree,done⟩ := bind_ok.mp done
    obtain ⟨_,owned,done⟩ := bind_ok.mp done
    obtain ⟨⟨coordinates',masks⟩,second,done⟩ := bind_ok.mp done
    obtain ⟨⟨coordinates'',resources⟩,third,done⟩ := bind_ok.mp done
    obtain ⟨resolved,last⟩ := refuse_then.mp done
    obtain ⟨⟨given,rfl,gives,distinct,-⟩,layers_read⟩ := scan_ok.mp first
    obtain ⟨⟨given',rfl,gives',distinct',apart'⟩,masks_read⟩ := scan_ok.mp second
    obtain ⟨⟨given'',-,gives'',distinct'',apart''⟩,resources_read⟩ := scan_ok.mp third
    let parts : Parts := ⟨layers,masks,resources⟩
    have masks_checked : ∀ e ∈ document.masks.entries, ∃ c, platform.MaskFields e.1 e.2 c ∧
        (parts.tree.entries.flatMap (·.2.maskIds)).count e.1 = 1 := fun e member => by
      obtain ⟨c,-,-,checked⟩ := (partner masks_read).1 e member
      obtain ⟨fields,single,-⟩ := checkMask_ok.mp checked
      exact ⟨c.2,fields,single⟩
    have read : parts.Read platform document := by
      refine ⟨layers_read,related masks_read fun e _ c _ both => ?_,resources_read⟩
      exact ⟨both.1,(checkMask_ok.mp both.2).1⟩
    obtain ⟨rooted,shallow,unclipped⟩ := (checkTree_ok read.ranked).mp tree
    refine ⟨parts,⟨read,⟨given,given',given'',?_,?_,?_,?_⟩,rooted,?_,resolved_iff.mp resolved⟩,
      ⟨shallow,unclipped⟩,(Except.ok.inj last).symm⟩
    · exact List.forall₂_map_left_iff.mpr gives
    · exact List.forall₂_map_left_iff.mpr gives'
    · exact List.forall₂_map_left_iff.mpr gives''
    · rw [List.append_nil] at apart' apart''
      rw [List.disjoint_append_right] at apart''
      rw [List.nodup_append',List.nodup_append']
      refine ⟨⟨distinct,distinct',fun c member member' => ?_⟩,distinct'',fun c member member' => ?_⟩
      · exact apart' member' (List.mem_reverse.mpr member)
      · rcases List.mem_append.mp member with member | member
        · exact apart''.2 member' (List.mem_reverse.mpr member)
        · exact apart''.1 member' (List.mem_reverse.mpr member)
    · refine owned_iff.mp ⟨forM_ok owned,fun mask here => ?_⟩
      obtain ⟨e,member,rfl⟩ := List.mem_map.mp here
      obtain ⟨_,-,single⟩ := masks_checked e member
      exact single
  · rintro ⟨parts,⟨read,⟨given,given',given'',gives,gives',gives'',distinct⟩,rooted,owned,resolved⟩,
      ⟨shallow,unclipped⟩,rfl⟩
    rw [List.nodup_append',List.nodup_append'] at distinct
    obtain ⟨⟨distinct,distinct',apart⟩,distinct'',apart'⟩ := distinct
    obtain ⟨apart',apart''⟩ := List.disjoint_append_left.mp apart'
    obtain ⟨each,counted⟩ := owned_iff.mpr owned
    have masks_read : List.Forall₂ (fun e c => c.1 = e.1 ∧ platform.checkMask parts.tree
        (fun mask => (parts.tree.entries.flatMap (·.2.maskIds)).count mask) e.1 e.2 = .ok c.2)
        document.masks.entries parts.masks := by
      refine related read.masks fun e member c _ both => ⟨both.1,checkMask_ok.mpr ⟨both.2,?_,?_⟩⟩
      · exact counted e.1 (List.mem_map_of_mem member)
      · obtain ⟨layer,⟨held,found,listed⟩,-⟩ := owned.owned e.1 (List.mem_map_of_mem member)
        have named := (owned.listed layer held found).2 _ listed
        exact ⟨layer,(Dict.mem_keys_iff _ _).mpr ⟨held,found⟩,
          mask_owner both.2 ((Dict.get?_eq_some_iff _ e.1 e.2).mpr member) named⟩
    refine bind_ok.mpr ⟨(given.reverse ++ [],parts.layers),scan_ok.mpr
      ⟨⟨given,rfl,List.forall₂_map_left_iff.mp gives,distinct,by simp⟩,read.layers⟩,
      bind_ok.mpr ⟨(),(checkTree_ok read.ranked).mpr ⟨rooted,shallow,unclipped⟩,
      bind_ok.mpr ⟨(),forM_all each,
      bind_ok.mpr ⟨(given'.reverse ++ (given.reverse ++ []),parts.masks),scan_ok.mpr
        ⟨⟨given',rfl,List.forall₂_map_left_iff.mp gives',distinct',?_⟩,masks_read⟩,
      bind_ok.mpr ⟨(given''.reverse ++ (given'.reverse ++ (given.reverse ++ [])),parts.resources),
        scan_ok.mpr ⟨⟨given'',rfl,List.forall₂_map_left_iff.mp gives'',distinct'',?_⟩,
          read.resources⟩,refuse_then.mpr ⟨resolved_iff.mpr resolved,rfl⟩⟩⟩⟩⟩⟩
    · rw [List.append_nil]
      exact fun c member member' => apart (List.mem_reverse.mp member') member
    · rw [List.append_nil,List.disjoint_append_right]
      exact ⟨fun c member member' => apart'' (List.mem_reverse.mp member') member,
        fun c member member' => apart' (List.mem_reverse.mp member') member⟩

end Dinkster.Image
