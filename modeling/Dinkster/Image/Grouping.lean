import Dinkster.Image.Siblings

/-! Grouping siblings. The group takes the place of its members among their siblings, and its
members are painted by their own `z_index`, with their place in the command's list standing in for a missing
one. For members that stand together, the paint order stays exactly where this does not swap two of
them that hold raster layers. -/
namespace Dinkster.Image
open Fallible Canonical Forest

variable {host : Host} {record record' : Record} {parent other : Option String}
variable {siblings identifiers : List String} {identifier : String} {name : Json.Value}

def Record.withGroup (record : Record) (parent : Option String) (siblings : List String)
    (name : Json.Value) (identifiers : List String) : Record :=
  let allocated := (record.allocate "l").2.relist parent siblings
  { allocated with
    layers := allocated.layers.set (record.allocate "l").1 (groupLayer name identifiers) }

def regrouped (siblings identifiers : List String) (group : String) : List String :=
  (siblings.filter (· ∉ identifiers)).insertIdx
    (((identifiers.map fun identifier => siblings.idxOf identifier).min?).getD 0) group

theorem group_ok (done : record.applyGroup host identifiers name = .ok record') :
    ∃ parent siblings ordered, record.listed parent = some siblings ∧ identifiers ≠ [] ∧
      identifiers.Nodup ∧ identifiers ⊆ siblings ∧
      host.orderedLayerIds record.layers siblings = .ok ordered ∧
      (record.withGroup parent (regrouped ordered identifiers (record.allocate "l").1) name
        identifiers).number (regrouped ordered identifiers (record.allocate "l").1) =
          .ok record' := by
  obtain ⟨_,allowed,done⟩ := bind_ok.mp done
  obtain ⟨⟨parent,siblings⟩,found,done⟩ := bind_ok.mp done
  obtain ⟨_,inside,done⟩ := bind_ok.mp done
  obtain ⟨ordered,sorted,done⟩ := bind_ok.mp done
  have allowed := refuseIf_ok.mp allowed
  have inside := refuseIf_ok.mp inside
  rw [not_or,not_not] at allowed
  push Not at inside
  exact ⟨parent,siblings,ordered,(siblings_ok found).1,allowed.1,allowed.2,inside,sorted,done⟩

theorem regrouped_eq {left members right : List String} {group : String}
    (distinct : (left ++ members ++ right).Nodup) (permuted : members.Perm identifiers)
    (some_member : identifiers ≠ []) :
    regrouped (left ++ members ++ right) identifiers group = left ++ group :: right := by
  obtain ⟨distinct',-,apart⟩ := List.nodup_append.mp distinct
  obtain ⟨-,-,apart'⟩ := List.nodup_append.mp distinct'
  have outside {d : String} (member : d ∈ identifiers) : d ∉ left ∧ d ∉ right := by
    have member := permuted.mem_iff.mpr member
    exact ⟨fun inside => apart' d inside d member rfl,
      fun inside => apart d (List.mem_append_right _ member) d inside rfl⟩
  have rest : (left ++ members ++ right).filter (· ∉ identifiers) = left ++ right := by
    have none_left : members.filter (· ∉ identifiers) = [] := by
      simp [List.filter_eq_nil_iff,permuted.mem_iff]
    have all (part : List String) (free : ∀ d ∈ part, d ∉ identifiers) :
        part.filter (· ∉ identifiers) = part := by
      simpa [List.filter_eq_self] using free
    rw [List.filter_append,List.filter_append,none_left,List.append_nil,
      all left fun d inside member => (outside member).1 inside,
      all right fun d inside member => (outside member).2 inside]
  -- the first member stands right after what comes before the group
  have place : (identifiers.map fun d => (left ++ members ++ right).idxOf d).min? =
      some left.length := by
    rw [List.min?_eq_some_iff]
    constructor
    · obtain ⟨first,rest,rfl⟩ := List.exists_cons_of_ne_nil (l := members) fun empty =>
        some_member (List.nil_perm.mp (empty ▸ permuted))
      have member : first ∈ identifiers := permuted.mem_iff.mp (by simp)
      refine List.mem_map.mpr ⟨first,member,?_⟩
      rw [List.append_assoc,List.idxOf_append_of_notMem (outside member).1,List.cons_append,
        List.idxOf_cons_self,Nat.add_zero]
    · intro n inside
      obtain ⟨d,member,rfl⟩ := List.mem_map.mp inside
      rw [List.append_assoc,List.idxOf_append_of_notMem (outside member).1]
      exact Nat.le_add_right _ _
  rw [regrouped,rest,place,Option.getD_some]
  clear rest place outside apart apart' distinct distinct'
  induction left with
  | nil => simp
  | cons d left ih => simpa using ih

section WithGroup

variable (fresh : (record.allocate "l").1 ∉ record.layers.keys)
  (listed : record.listed parent = some siblings)

theorem withGroup_layers (d : String) :
    (record.withGroup parent siblings name identifiers).layers.get? d =
      if d = (record.allocate "l").1 then some (groupLayer name identifiers)
      else (record.relist parent siblings).layers.get? d := by
  rw [Record.withGroup,Dict.get?_set,relist_layers,relist_layers]
  rfl

theorem withGroup_keys (d : String) :
    d ∈ (record.withGroup parent siblings name identifiers).layers.keys ↔
      d = (record.allocate "l").1 ∨ d ∈ record.layers.keys := by
  rw [Record.withGroup,Dict.mem_keys_set,relist_keys]
  rfl

include fresh

theorem withGroup_zIndex {d : String} (known : d ∈ record.layers.keys) :
    (record.withGroup parent siblings name identifiers).zIndex? d = record.zIndex? d := by
  have other : d ≠ (record.allocate "l").1 := fun same => fresh (same ▸ known)
  have moved : (record.relist parent siblings).zIndex? d = record.zIndex? d := relist_zIndex d
  rw [← moved,Record.zIndex?,Record.zIndex?,withGroup_layers,if_neg other]

include listed

omit fresh in
theorem withGroup_listed {siblings' : List String} :
    (record.withGroup parent siblings' name identifiers).listed other =
      if other = some (record.allocate "l").1 then some identifiers
      else if other = parent then some siblings' else record.listed other := by
  have moved : (record.relist parent siblings').listed other =
      if other = parent then some siblings' else record.listed other := relist_listed listed
  cases other with
  | none =>
    rw [if_neg (by simp),← moved,Record.listed,Record.listed,Record.withGroup,relist_roots,
      relist_roots]
    rfl
  | some d =>
    rw [← moved,Record.listed,Record.listed,withGroup_layers]
    by_cases same : d = (record.allocate "l").1
    · simp [same,groupLayer]
    · simp [same]

theorem withGroup_raster {siblings' : List String} {d : String} (known : d ∈ record.layers.keys) :
    (record.withGroup parent siblings' name identifiers).isRaster d = record.isRaster d := by
  have other : d ≠ (record.allocate "l").1 := fun same => fresh (same ▸ known)
  rw [Record.isRaster,Record.isRaster,withGroup_layers,if_neg other,relist_layers,Option.any_map]
  by_cases same : some d = parent
  · subst same
    obtain ⟨layer,found,children⟩ := Option.bind_eq_some_iff.mp listed
    simp [found,children]
  · simp [same]

end WithGroup

theorem below_listed (listed : record.listed (some identifier) = some siblings) :
    record.below host identifier = record.order host (some identifier) := by
  obtain ⟨layer,found,children⟩ := Option.bind_eq_some_iff.mp listed
  rw [Record.below,Record.order,listed,found,Option.bind_some,Option.bind_some,children]

theorem below_raster (raster : record.isRaster identifier = true) :
    record.below host identifier = some [] := by
  obtain ⟨layer,found,leaf⟩ := (Option.any_eq_true _ _).mp raster
  rw [Record.below,found,Option.bind_some,Option.isNone_iff_eq_none.mp leaf]

theorem layer_cases (known : identifier ∈ record.layers.keys) :
    record.isRaster identifier = true ∨
      ∃ children, record.listed (some identifier) = some children := by
  obtain ⟨layer,found⟩ := (Dict.mem_keys_iff _ _).mp known
  rw [Record.isRaster,Record.listed,found,Option.bind_some]
  cases held : layer.childLayerIds with
  | none => exact .inl (by simp [held])
  | some children => exact .inr ⟨children,rfl⟩

theorem listed_not_fresh (valid : record.Valid) (listed : record.listed other = some siblings) :
    other ≠ some (record.allocate "l").1 := by
  rintro rfl
  obtain ⟨layer,found,-⟩ := Option.bind_eq_some_iff.mp listed
  exact valid.fresh ((Dict.mem_keys_iff _ _).mpr ⟨layer,found⟩)

section Grouped

variable {left members right own : List String}
variable (valid : record.Valid) (listed : record.listed parent = some siblings)
  (ordered : record.order host parent = some (left ++ members ++ right))
  (permuted : members.Perm identifiers) (distinct : identifiers.Nodup)
  (done : (record.withGroup parent (left ++ (record.allocate "l").1 :: right) name
    identifiers).number (left ++ (record.allocate "l").1 :: right) = .ok record')
include valid listed ordered

theorem ordered_perm : (left ++ members ++ right).Perm siblings := by
  rw [valid.order_eq listed] at ordered
  exact Option.some.inj ordered ▸ sortedBy_perm _ _

theorem line_nodup : (left ++ (record.allocate "l").1 :: right).Nodup := by
  have perm := ordered_perm valid listed ordered
  have whole := perm.nodup_iff.mpr (valid.nodup listed)
  have outside (d : String) (inside : d ∈ left ++ right) : d ≠ (record.allocate "l").1 := by
    rintro rfl
    exact valid.fresh (valid.known listed (perm.mem_iff.mp (by
      rcases List.mem_append.mp inside with inside | inside <;> simp [inside])))
  refine List.nodup_middle.mpr (List.nodup_cons.mpr ⟨fun inside => outside _ inside rfl,?_⟩)
  exact whole.sublist ((List.sublist_append_left _ _).append (.refl _))

theorem line_known : left ++ (record.allocate "l").1 :: right ⊆
    (record.withGroup parent (left ++ (record.allocate "l").1 :: right) name
      identifiers).layers.keys := by
  have perm := ordered_perm valid listed ordered
  intro d inside
  rw [withGroup_keys]
  by_cases same : d = (record.allocate "l").1
  · exact .inl same
  · refine .inr (valid.known listed (perm.mem_iff.mp ?_))
    simp only [List.mem_append,List.mem_cons,same,false_or] at inside ⊢
    tauto

include done

theorem grouped_zIndex {d : String} (known : d ∈ record.layers.keys)
    (outside : d ∉ left ∧ d ∉ right) :
    d ∈ record'.layers.keys ∧ record'.zIndex? d = record.zIndex? d := by
  have nodup := line_nodup valid listed ordered
  have other : d ≠ (record.allocate "l").1 := fun same => valid.fresh (same ▸ known)
  refine ⟨(number_keys nodup done d).mpr ((withGroup_keys d).mpr (.inr known)),?_⟩
  rw [number_zIndex nodup done,if_neg (by simp [other,outside]),
    withGroup_zIndex valid.fresh known]

theorem grouped_listed : record'.listed other =
    if other = some (record.allocate "l").1 then some identifiers
    else if other = parent then some (left ++ (record.allocate "l").1 :: right)
    else record.listed other :=
  (number_listed (line_nodup valid listed ordered) done).trans (withGroup_listed listed)

theorem grouped_raster {d : String} (known : d ∈ record.layers.keys) :
    record'.isRaster d = record.isRaster d :=
  (number_raster (line_nodup valid listed ordered) done d).trans
    (withGroup_raster valid.fresh listed known)

theorem group_not_raster : record'.isRaster (record.allocate "l").1 = false := by
  have inside : record'.listed (some (record.allocate "l").1) = some identifiers :=
    (grouped_listed valid listed ordered done).trans (if_pos rfl)
  obtain ⟨layer,found,children⟩ := Option.bind_eq_some_iff.mp inside
  rw [Record.isRaster,found,Option.any_some,children]
  rfl

theorem grouped_line :
    record'.order host parent = some (left ++ (record.allocate "l").1 :: right) := by
  rw [Record.order,grouped_listed valid listed ordered done,
    if_neg (listed_not_fresh valid listed),if_pos rfl,Option.bind_some,
    number_ordered (line_nodup valid listed ordered) done host (line_known valid listed ordered)]
  rfl

theorem grouped_other {children : List String} (apart : other ≠ parent)
    (held : record.listed other = some children) :
    record'.order host other = record.order host other := by
  have perm := ordered_perm valid listed ordered
  refine order_kept valid held ?_ fun d member =>
    grouped_zIndex valid listed ordered done (valid.known held member) ?_
  · rw [grouped_listed valid listed ordered done,if_neg (listed_not_fresh valid held),
      if_neg apart,held]
  · have outside : d ∉ left ++ members ++ right := fun inside =>
      apart (valid.unique held listed member (perm.mem_iff.mp inside))
    simp only [List.mem_append,not_or] at outside
    exact ⟨outside.1.1,outside.2⟩

theorem grouped_below {d : String} (known : d ∈ record.layers.keys) (apart : some d ≠ parent) :
    record'.below host d = record.below host d := by
  rcases layer_cases known with raster | ⟨children,held⟩
  · rw [below_raster raster,
      below_raster ((grouped_raster valid listed ordered done known).trans raster)]
  · have held' : record'.listed (some d) = some children := by
      rw [grouped_listed valid listed ordered done,if_neg (listed_not_fresh valid held),
        if_neg apart,held]
    rw [below_listed held,below_listed held',grouped_other valid listed ordered done apart held]

include permuted distinct

theorem grouped_members : record'.order host (some (record.allocate "l").1) =
    (host.orderedLayerIds record.layers identifiers).toOption := by
  have perm := ordered_perm valid listed ordered
  have whole := perm.nodup_iff.mpr (valid.nodup listed)
  obtain ⟨whole',-,apart⟩ := List.nodup_append.mp whole
  obtain ⟨-,-,apart'⟩ := List.nodup_append.mp whole'
  rw [Record.order,grouped_listed valid listed ordered done,if_pos rfl,Option.bind_some]
  refine congrArg Except.toOption (ordered_same valid distinct fun d member => ?_)
  have member := permuted.mem_iff.mpr member
  have known : d ∈ record.layers.keys :=
    valid.known listed (perm.mem_iff.mp (by simp [member]))
  exact ⟨known,grouped_zIndex valid listed ordered done known
    ⟨fun inside => apart' d inside d member rfl,
      fun inside => apart d (List.mem_append_right _ member) d inside rfl⟩⟩

theorem grouped_walk (sorted : host.orderedLayerIds record.layers identifiers = .ok own)
    {roots seen : List String} (top : record.order host none = some roots)
    (walk : Walk (record.below host) roots seen) (keys : seen.Perm record.layers.keys) :
    ∃ front mid mid' back roots', seen = front ++ mid ++ back ∧
      Walk (record.below host) members mid ∧ Walk (record.below host) own mid' ∧
      record'.order host none = some roots' ∧
      Walk (record'.below host) roots' (front ++ (record.allocate "l").1 :: mid' ++ back) := by
  have once := keys.nodup_iff.mpr record.layers.distinct
  have inside : record'.listed (some (record.allocate "l").1) = some identifiers :=
    (grouped_listed valid listed ordered done).trans (if_pos rfl)
  have known : members ⊆ record.layers.keys := fun d member =>
    valid.known listed ((ordered_perm valid listed ordered).mem_iff.mp (by simp [member]))
  have grouping : Grouped (record'.below host) (record.allocate "l").1 members own := by
    have own_eq := ordered_eq host distinct
      (fun d member => known (permuted.mem_iff.mpr member)) fun d _ => valid.indices d
    obtain rfl := Except.ok.inj (sorted.symm.trans own_eq)
    refine ⟨permuted.trans (sortedBy_perm _ _).symm,?_⟩
    rw [below_listed inside,grouped_members valid listed ordered permuted distinct done,sorted]
    rfl
  cases parent with
  | none =>
    obtain rfl := Option.some.inj (top.symm.trans ordered)
    obtain ⟨front,mid,mid',back,rfl,before,after,walk'⟩ := grouping.here walk fun d member =>
      grouped_below valid listed ordered done (keys.mem_iff.mp member) (by simp)
    exact ⟨front,mid,mid',back,_,rfl,before,after,grouped_line valid listed ordered done,walk'⟩
  | some group =>
    obtain ⟨layer,found,-⟩ := Option.bind_eq_some_iff.mp listed
    have reached : group ∈ seen := keys.mem_iff.mpr ((Dict.mem_keys_iff _ _).mpr ⟨layer,found⟩)
    have held' : record'.listed (some group) =
        some (left ++ (record.allocate "l").1 :: right) := by
      rw [grouped_listed valid listed ordered done,if_neg (listed_not_fresh valid listed),
        if_pos rfl]
    obtain ⟨front,mid,mid',back,rfl,before,after,walk'⟩ := grouping.under walk once reached
      ((below_listed listed).trans ordered)
      ((below_listed held').trans (grouped_line valid listed ordered done))
      fun d member apart => grouped_below valid listed ordered done
        (keys.mem_iff.mp member) (by simpa using apart)
    refine ⟨front,mid,mid',back,roots,rfl,before,after,?_,walk'⟩
    rw [grouped_other valid listed ordered done (by simp) rfl,top]

end Grouped

end Dinkster.Image
