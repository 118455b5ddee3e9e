import Dinkster.Image.Siblings

/-! Reordering siblings and removing a layer. A reorder makes its list the order of the siblings. A
removal keeps the order of the other siblings unless the place that stood in for a missing `z_index`
moves past the `z_index` of another sibling. -/
namespace Dinkster.Image
open Fallible Canonical Forest

variable {host : Host} {record record' : Record} {parent other : Option String}
variable {siblings identifiers : List String} {identifier : String}

theorem reorder_ok (done : record.applyReorder parent identifiers = .ok record') :
    ∃ siblings, record.listed parent = some siblings ∧ siblings ⊆ identifiers ∧
      siblings.length = identifiers.length ∧
      (record.relist parent identifiers).number identifiers = .ok record' := by
  obtain ⟨siblings,listed,done⟩ := bind_ok.mp done
  obtain ⟨_,permuted,done⟩ := bind_ok.mp done
  have permuted := refuseIf_ok.mp permuted
  rw [not_or,not_not,not_not] at permuted
  refine ⟨siblings,?_,permuted.1.1,permuted.2,done⟩
  rw [Record.listAt] at listed
  split at listed
  · rename_i found
    rw [found,Except.ok.inj listed]
  · cases listed

/-- The siblings are in the order given, all others in the order they were in. -/
def Reordered (host : Host) (record record' : Record) (parent : Option String)
    (identifiers : List String) : Prop :=
  record'.order host parent = some identifiers ∧
    ∀ other, other ≠ parent → record'.order host other = record.order host other

theorem reorder_reordered (valid : record.Valid)
    (done : record.applyReorder parent identifiers = .ok record') :
    Reordered host record record' parent identifiers := by
  obtain ⟨siblings,listed,inside,length,done⟩ := reorder_ok done
  have permuted : siblings.Perm identifiers :=
    (List.subperm_of_subset (valid.nodup listed) inside).perm_of_length_le length.ge
  have distinct := permuted.nodup_iff.mp (valid.nodup listed)
  have present (d : String) : d ∈ record'.layers.keys ↔ d ∈ record.layers.keys :=
    (number_keys distinct done d).trans (relist_keys d)
  have known : identifiers ⊆ (record.relist parent identifiers).layers.keys := fun d member =>
    (relist_keys d).mpr (valid.known listed (permuted.mem_iff.mpr member))
  have listed' (other : Option String) : record'.listed other =
      if other = parent then some identifiers else record.listed other :=
    (number_listed distinct done).trans (relist_listed listed)
  constructor
  · rw [Record.order,listed',if_pos rfl,Option.bind_some,number_ordered distinct done host known]
    rfl
  · intro other apart
    cases held : record.listed other with
    | none => rw [Record.order,Record.order,listed',if_neg apart,held]; rfl
    | some siblings' =>
      refine order_kept valid held ((listed' other).trans ((if_neg apart).trans held))
        fun d member => ⟨(present d).mpr (valid.known held member),?_⟩
      have elsewhere : ¬ (d ∈ identifiers ∧ d ∈ (record.relist parent identifiers).layers.keys) :=
        fun both => apart (valid.unique held listed member (permuted.mem_iff.mpr both.1))
      rw [number_zIndex distinct done,if_neg elsewhere,relist_zIndex]

theorem applyRemove_ok (done : record.applyRemove identifier = .ok record') :
    ∃ parent siblings, record.listed parent = some siblings ∧ identifier ∈ siblings ∧
      Taken [identifier] (record.relist parent (siblings.erase identifier)) record' := by
  obtain ⟨⟨parent,siblings⟩,found,done⟩ := bind_ok.mp done
  obtain ⟨listed,member⟩ := siblings_ok found
  exact ⟨parent,siblings,listed,member,(remove_taken done).1⟩

theorem kept_zIndex
    (taken : Taken [identifier] (record.relist parent (siblings.erase identifier)) record')
    {d : String} (here : d ∈ record'.layers.keys) :
    record'.zIndex? d = record.zIndex? d := by
  obtain ⟨layer,held⟩ := (Dict.mem_keys_iff _ _).mp here
  have moved : (record.relist parent (siblings.erase identifier)).zIndex? d = record.zIndex? d :=
    relist_zIndex d
  rw [← moved,Record.zIndex?,Record.zIndex?,held,taken.layers d layer held]

section Removal

variable (valid : record.Valid) (listed : record.listed parent = some siblings)
  (member : identifier ∈ siblings)
  (taken : Taken [identifier] (record.relist parent (siblings.erase identifier)) record')
include valid listed taken

omit valid in
theorem lost_under {d : String} (here : d ∈ record.layers.keys) (gone : d ∉ record'.layers.keys) :
    d = identifier ∨ ∃ group children, group ∉ record'.layers.keys ∧
      record.listed (some group) = some children ∧ d ∈ children := by
  rcases taken.under d ((relist_keys d).mpr here) gone with
    start | ⟨group,children,lost,known,child⟩
  · exact .inl (List.mem_singleton.mp start)
  · refine .inr ⟨group,?_⟩
    obtain ⟨layer,found,rfl⟩ := Option.map_eq_some_iff.mp known
    rw [relist_layers] at found
    obtain ⟨layer,held,rfl⟩ := Option.map_eq_some_iff.mp found
    rw [Record.listed,held,Option.bind_some]
    by_cases same : some group = parent
    · subst same
      rw [Record.listed,held,Option.bind_some] at listed
      rw [if_pos rfl] at child
      exact ⟨siblings,lost,listed,List.mem_of_mem_erase child⟩
    · rw [if_neg same] at child
      cases held : layer.childLayerIds with
      | none =>
        rw [held] at child
        cases child
      | some children =>
        rw [held] at child
        exact ⟨children,lost,rfl,child⟩

include member in
theorem kept_parent : record'.listed parent = some (siblings.erase identifier) := by
  have relisted : (record.relist parent (siblings.erase identifier)).listed parent =
      some (siblings.erase identifier) := (relist_listed listed).trans (if_pos rfl)
  cases parent with
  | none =>
    rw [← relisted,Record.listed,Record.listed,taken.same]
  | some group =>
    obtain ⟨seen,walk,keys,once⟩ := valid.walk
    have inside {group : String} {children : List String}
        (listed : record.listed (some group) = some children) : group ∈ seen := by
      obtain ⟨layer,found,-⟩ := Option.bind_eq_some_iff.mp listed
      exact keys.mem_iff.mpr ((Dict.mem_keys_iff _ _).mpr ⟨layer,found⟩)
    have below {group d : String} {children : List String}
        (listed : record.listed (some group) = some children) (child : d ∈ children) :
        seen.idxOf group < seen.idxOf d := by
      have before := walk.before (inside listed) (listed_children listed) child
      exact (before_iff once (inside listed) (before.subset (by simp))).mp before
    -- what is lost comes no earlier in the walk than the layer removed
    have later (n : Nat) : ∀ d ∈ record.layers.keys, seen.idxOf d = n → d ∉ record'.layers.keys →
        seen.idxOf identifier ≤ n := by
      induction n using Nat.strong_induction_on with
      | _ n ih =>
        rintro d here rfl gone
        rcases lost_under listed taken here gone with
          rfl | ⟨group',children,lost,listed',child⟩
        · exact le_rfl
        · have first := below listed' child
          exact (ih _ first group' (keys.mem_iff.mp (inside listed')) rfl lost).trans first.le
    have here : group ∈ record'.layers.keys := by
      by_contra gone
      have before := later _ group (keys.mem_iff.mp (inside listed)) rfl gone
      exact absurd (below listed member) (not_lt.mpr before)
    obtain ⟨layer,held⟩ := (Dict.mem_keys_iff _ _).mp here
    rw [← relisted,Record.listed,Record.listed,held,taken.layers group layer held]

theorem kept_members {siblings' : List String} (held : record.listed other = some siblings')
    (held' : (record'.listed other).isSome) {d : String} (inside : d ∈ siblings')
    (stays : d ≠ identifier) : d ∈ record'.layers.keys := by
  by_contra gone
  rcases lost_under listed taken (valid.known held inside) gone with
    same | ⟨group,children,lost,listed',child⟩
  · exact stays same
  · obtain rfl := valid.unique held listed' inside child
    obtain ⟨children,found⟩ := Option.isSome_iff_exists.mp held'
    obtain ⟨layer,here,-⟩ := Option.bind_eq_some_iff.mp found
    exact lost ((Dict.mem_keys_iff _ _).mpr ⟨layer,here⟩)

end Removal

/-- Every list of siblings that is left has its members in the order they were in. -/
def Remaining (host : Host) (record record' : Record) (identifier : String) : Prop :=
  ∀ other siblings, record'.listed other = some siblings → record'.order host other =
    (record.order host other).map fun ordered => ordered.filter (· ≠ identifier)

/-- No sibling stands in by its place after the removed layer, where a sibling that stands before it
has this place as its `z_index`, or one that stands after it has the place before this one. -/
def Steady (record : Record) (identifier : String) : Prop :=
  ∀ parent siblings, record.listed parent = some siblings → identifier ∈ siblings →
    ∀ x ∈ siblings, ∀ y ∈ siblings, y ≠ identifier →
      siblings.idxOf identifier < siblings.idxOf x → record.zIndex? x = none →
      ∀ n, record.zIndex? y = some (.int n) →
        ¬ (siblings.idxOf y < siblings.idxOf x ∧ n = siblings.idxOf x) ∧
        ¬ (siblings.idxOf x < siblings.idxOf y ∧ n = siblings.idxOf x - 1)

theorem listed_before {starts : List String} (taken : Taken starts record record')
    (listed : record'.listed other = some siblings) : record.listed other = some siblings := by
  cases other with
  | none =>
    rw [Record.listed,taken.same] at listed
    exact listed
  | some group =>
    obtain ⟨layer,held,children⟩ := Option.bind_eq_some_iff.mp listed
    rw [Record.listed,taken.layers group layer held,Option.bind_some,children]

theorem steady_iff (valid : record.Valid) (listed : record.listed parent = some siblings)
    (member : identifier ∈ siblings) :
    (∀ x y, [x,y].Sublist (siblings.erase identifier) →
      (record.rank (siblings.erase identifier) x ≤ record.rank (siblings.erase identifier) y ↔
        record.rank siblings x ≤ record.rank siblings y)) ↔ Steady record identifier := by
  have distinct := valid.nodup listed
  have distinct' := distinct.erase identifier
  have left {d : String} : d ∈ siblings.erase identifier ↔ d ≠ identifier ∧ d ∈ siblings :=
    distinct.mem_erase_iff
  have before {x y : String} (first : x ∈ siblings.erase identifier)
      (second : y ∈ siblings.erase identifier) (below : siblings.idxOf x < siblings.idxOf y) :
      [x,y].Sublist (siblings.erase identifier) := by
    refine (before_iff distinct' first second).mpr ?_
    rw [idxOf_erase distinct member (left.mp first).1,
      idxOf_erase distinct member (left.mp second).1]
    have apart : siblings.idxOf x ≠ siblings.idxOf identifier := fun same =>
      (left.mp first).1 ((List.idxOf_inj (left.mp first).2).mp same)
    split <;> split <;> omega
  constructor
  · intro agree parent' siblings' listed' member' x inside y inside' stays after missing n given
    obtain rfl := valid.unique listed listed' member member'
    obtain rfl := Option.some.inj (listed.symm.trans listed')
    have other : x ≠ identifier := by
      rintro rfl
      exact absurd after (lt_irrefl _)
    have first := left.mpr ⟨other,inside⟩
    have second := left.mpr ⟨stays,inside'⟩
    constructor
    · rintro ⟨below,rfl⟩
      have same := agree y x (before second first below)
      simp only [Record.rank,missing,given,integer?,Option.bind_some,Option.bind_none,
        Option.getD_some,Option.getD_none,idxOf_erase distinct member other,if_pos after] at same
      omega
    · rintro ⟨below,rfl⟩
      have same := agree x y (before first second below)
      simp only [Record.rank,missing,given,integer?,Option.bind_some,Option.bind_none,
        Option.getD_some,Option.getD_none,idxOf_erase distinct member other,if_pos after] at same
      omega
  · intro steady x y pair
    have first := left.mp (pair.subset (by simp : x ∈ [x,y]))
    have second := left.mp (pair.subset (by simp : y ∈ [x,y]))
    have below : siblings.idxOf x < siblings.idxOf y :=
      (before_iff distinct first.2 second.2).mp (pair.trans List.erase_sublist)
    have apart : siblings.idxOf x ≠ siblings.idxOf identifier := fun same =>
      first.1 ((List.idxOf_inj first.2).mp same)
    have apart' : siblings.idxOf y ≠ siblings.idxOf identifier := fun same =>
      second.1 ((List.idxOf_inj second.2).mp same)
    have moved := idxOf_erase distinct member first.1
    have moved' := idxOf_erase distinct member second.1
    have steady := steady parent siblings listed member
    simp only [Record.rank,moved,moved']
    cases given : record.zIndex? x with
    | none =>
      cases given' : record.zIndex? y with
      | none =>
        simp only [Option.bind_none,Option.getD_none]
        split <;> split <;> omega
      | some v =>
        obtain ⟨n,rfl⟩ := valid.indices y v given'
        simp only [integer?,Option.bind_none,Option.bind_some,Option.getD_none,Option.getD_some]
        split
        · rename_i after
          have := (steady x first.2 y second.2 second.1 after given n given').2
          omega
        · rfl
    | some v =>
      obtain ⟨n,rfl⟩ := valid.indices x v given
      cases given' : record.zIndex? y with
      | none =>
        simp only [integer?,Option.bind_none,Option.bind_some,Option.getD_none,Option.getD_some]
        split
        · rename_i after
          have := (steady y second.2 x first.2 first.1 after given' n given).1
          omega
        · rfl
      | some w =>
        obtain ⟨m,rfl⟩ := valid.indices y w given'
        simp only [integer?,Option.bind_some,Option.getD_some]

theorem remaining_iff (valid : record.Valid) (done : record.applyRemove identifier = .ok record') :
    Remaining host record record' identifier ↔ Steady record identifier := by
  obtain ⟨parent,siblings,listed,member,taken⟩ := applyRemove_ok done
  have distinct := valid.nodup listed
  have listed' := kept_parent valid listed member taken
  -- the list that has lost its member
  have here : record'.order host parent = some (sortedBy
      (record.rank (siblings.erase identifier)) (siblings.erase identifier)) := by
    have inside {d : String} (member : d ∈ siblings.erase identifier) :
        d ∈ record'.layers.keys :=
      kept_members valid listed taken listed (by rw [listed']; rfl)
        (List.mem_of_mem_erase member) (distinct.mem_erase_iff.mp member).1
    rw [Record.order,listed',Option.bind_some,ordered_same valid (distinct.erase identifier)
      fun d member => ⟨valid.known listed (List.mem_of_mem_erase member),inside member,
        kept_zIndex taken (inside member)⟩,
      ordered_eq host (distinct.erase identifier)
        (fun d member => valid.known listed (List.mem_of_mem_erase member))
        fun d _ => valid.indices d]
    rfl
  have there : (record.order host parent).map (fun ordered => ordered.filter (· ≠ identifier)) =
      some (sortedBy (record.rank siblings) (siblings.erase identifier)) := by
    rw [valid.order_eq listed,Option.map_some,← sortedBy_filter distinct,distinct.erase_eq_filter]
    congr 2
    refine List.filter_congr fun d _ => ?_
    by_cases same : d = identifier <;> simp [same]
  have same : record'.order host parent = (record.order host parent).map
      (fun ordered => ordered.filter (· ≠ identifier)) ↔ Steady record identifier := by
    rw [here,there,Option.some_inj,sortedBy_eq_iff (distinct.erase identifier)]
    exact steady_iff valid listed member
  refine ⟨fun remaining => same.mp (remaining parent _ listed'),
    fun steady other siblings' held => ?_⟩
  by_cases at_parent : other = parent
  · subst at_parent
    exact same.mpr steady
  · -- no other list had the member
    have held' : record.listed other = some siblings' := by
      have before := listed_before taken held
      rwa [relist_listed listed,if_neg at_parent] at before
    have absent {d : String} (inside : d ∈ siblings') : d ≠ identifier := by
      rintro rfl
      exact at_parent (valid.unique held' listed inside member)
    have inside {d : String} (member : d ∈ siblings') : d ∈ record'.layers.keys :=
      kept_members valid listed taken held' (by rw [held]; rfl) member (absent member)
    rw [order_kept valid held' held fun d member =>
      ⟨inside member,kept_zIndex taken (inside member)⟩,valid.order_eq held',Option.map_some,
      List.filter_eq_self.mpr]
    intro d member
    exact decide_eq_true (absent ((mem_sortedBy _ _ d).mp member))

end Dinkster.Image
