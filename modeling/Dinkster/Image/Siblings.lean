import Dinkster.Image.RecordEdits

/-! The lists of siblings of a valid document: no layer is in two of them, each is sorted by the
numbers of its members, and the sorted walk comes to every layer once. -/
namespace Dinkster.Image
open Fallible Canonical Forest

variable {host : Host} {record record' : Record} {parent other : Option String}
variable {siblings siblings' : List String} {identifier : String}

theorem listed_children {group : String} (listed : record.listed (some group) = some siblings) :
    record.children group = some siblings := by
  obtain ⟨layer,found,children⟩ := Option.bind_eq_some_iff.mp listed
  rw [Record.children,found,Option.map_some,children,Option.getD_some]

namespace Record.Valid

theorem walk (valid : record.Valid) : ∃ seen, Walk record.children record.rootLayerIds seen ∧
    seen.Perm record.layers.keys ∧ seen.Nodup := by
  obtain ⟨seen,walk,listed⟩ := valid.forest
  exact ⟨seen,walk,listed,listed.nodup_iff.mpr record.layers.distinct⟩

private theorem reached {seen : List String} (listed : seen.Perm record.layers.keys)
    {children : List String} (known : record.children identifier = some children) :
    identifier ∈ seen := by
  obtain ⟨layer,found,-⟩ := Option.map_eq_some_iff.mp known
  exact listed.mem_iff.mpr ((Dict.mem_keys_iff _ _).mpr ⟨layer,found⟩)

theorem nodup (valid : record.Valid) (listed : record.listed parent = some siblings) :
    siblings.Nodup := by
  obtain ⟨seen,walk,keys,once⟩ := valid.walk
  cases parent with
  | none => exact Option.some.inj listed ▸ starts_nodup walk once
  | some group =>
    have known := listed_children listed
    exact children_nodup walk once (reached keys known) known

theorem known (valid : record.Valid) (listed : record.listed parent = some siblings) :
    siblings ⊆ record.layers.keys := by
  obtain ⟨seen,walk,keys,-⟩ := valid.walk
  intro d member
  cases parent with
  | none =>
    obtain rfl := Option.some.inj listed
    exact keys.mem_iff.mp (walk.starts_sublist.subset member)
  | some group =>
    have known := listed_children listed
    exact keys.mem_iff.mp (walk.closed (reached keys known) known member)

theorem unique (valid : record.Valid) (listed : record.listed parent = some siblings)
    (listed' : record.listed other = some siblings') (member : identifier ∈ siblings)
    (member' : identifier ∈ siblings') : parent = other := by
  obtain ⟨seen,walk,keys,once⟩ := valid.walk
  cases parent with
  | none =>
    cases other with
    | none => rfl
    | some group =>
      have known := listed_children listed'
      obtain rfl := Option.some.inj listed
      exact (child_not_start walk once (reached keys known) known member' member).elim
  | some group =>
    have known := listed_children listed
    cases other with
    | none =>
      obtain rfl := Option.some.inj listed'
      exact (child_not_start walk once (reached keys known) known member member').elim
    | some group' =>
      have known' := listed_children listed'
      exact congrArg some (parent_unique walk once (reached keys known) (reached keys known')
        known known' member member')

theorem ordered (valid : record.Valid) (listed : record.listed parent = some siblings) :
    host.orderedLayerIds record.layers siblings =
      .ok (sortedBy (record.rank siblings) siblings) :=
  ordered_eq host (valid.nodup listed) (valid.known listed) fun d _ => valid.indices d

theorem order_eq (valid : record.Valid) (listed : record.listed parent = some siblings) :
    record.order host parent = some (sortedBy (record.rank siblings) siblings) := by
  rw [Record.order,listed,Option.bind_some,valid.ordered listed]
  rfl

theorem paintWalk (valid : record.Valid) (host : Host) : ∃ roots seen,
    record.order host none = some roots ∧ Walk (record.below host) roots seen ∧
      seen.Perm record.layers.keys ∧ seen.Nodup := by
  obtain ⟨seen,walk,keys,once⟩ := valid.walk
  have roots : record.listed none = some record.rootLayerIds := rfl
  have sorted : ∀ d children, record.children d = some children →
      ∃ children', record.below host d = some children' ∧ children.Perm children' := by
    intro d children known
    obtain ⟨layer,found,rfl⟩ := Option.map_eq_some_iff.mp known
    rw [Record.below,found,Option.bind_some]
    cases members : layer.childLayerIds with
    | none => exact ⟨[],rfl,.nil⟩
    | some children =>
      have listed : record.listed (some d) = some children := by
        rw [Record.listed,found,Option.bind_some,members]
      refine ⟨_,congrArg Except.toOption (valid.ordered listed),?_⟩
      exact (sortedBy_perm _ _).symm
  obtain ⟨seen',walk',listed⟩ := walk.relist
    (sortedBy_perm (record.rank record.rootLayerIds) record.rootLayerIds).symm sorted
  exact ⟨_,seen',valid.order_eq roots,walk',listed.symm.trans keys,
    (listed.symm.trans keys).nodup_iff.mpr record.layers.distinct⟩

theorem paintOrder (valid : record.Valid) : ∃ painted, PaintOrder host record painted := by
  obtain ⟨roots,seen,order,walk,-⟩ := valid.paintWalk host
  exact ⟨_,roots,seen,order,walk,rfl⟩

end Record.Valid

theorem PaintOrder.unique {painted painted' : List String} (order : PaintOrder host record painted)
    (order' : PaintOrder host record painted') : painted = painted' := by
  obtain ⟨roots,seen,listed,walk,rfl⟩ := order
  obtain ⟨roots',seen',listed',walk',rfl⟩ := order'
  obtain rfl := Option.some.inj (listed.symm.trans listed')
  rw [walk.unique walk']

theorem ordered_same (valid : record.Valid) (distinct : siblings.Nodup)
    (same : ∀ d ∈ siblings, d ∈ record.layers.keys ∧ d ∈ record'.layers.keys ∧
      record'.zIndex? d = record.zIndex? d) :
    host.orderedLayerIds record'.layers siblings = host.orderedLayerIds record.layers siblings := by
  rw [ordered_eq host distinct (fun d member => (same d member).1) fun d _ => valid.indices d,
    ordered_eq host distinct (fun d member => (same d member).2.1) fun d member v given =>
      valid.indices d v ((same d member).2.2 ▸ given)]
  refine congrArg Except.ok ((sortedBy_eq_iff distinct).mpr fun x y before => ?_)
  have first := (same x (before.subset (by simp))).2.2
  have second := (same y (before.subset (by simp))).2.2
  rw [Record.rank,Record.rank,first,second]
  rfl

theorem order_kept (valid : record.Valid) (listed : record.listed parent = some siblings)
    (listed' : record'.listed parent = some siblings)
    (same : ∀ d ∈ siblings, d ∈ record'.layers.keys ∧ record'.zIndex? d = record.zIndex? d) :
    record'.order host parent = record.order host parent := by
  rw [Record.order,Record.order,listed,listed',Option.bind_some,Option.bind_some,
    ordered_same valid (valid.nodup listed) fun d member =>
      ⟨valid.known listed member,same d member⟩]

end Dinkster.Image
