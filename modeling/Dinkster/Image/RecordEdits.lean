import Dinkster.Image.PaintOrder

/-! What the parts of the structural commands do to a record: finding a list of siblings, writing it
back, numbering siblings and taking a layer out with everything below it. -/
namespace Dinkster.Image
open Fallible

variable {record record' : Record} {parent other : Option String}
variable {identifier : String} {identifiers siblings : List String}

theorem siblings_ok (found : record.siblings identifier = .ok (parent,siblings)) :
    record.listed parent = some siblings ∧ identifier ∈ siblings := by
  rw [Record.siblings] at found
  split at found
  · rename_i member
    obtain ⟨rfl,rfl⟩ := Prod.mk.inj (Except.ok.inj found)
    exact ⟨rfl,member⟩
  · split at found
    · rename_i e held
      obtain ⟨rfl,rfl⟩ := Prod.mk.inj (Except.ok.inj found)
      have member := List.find?_some held
      simp only [decide_eq_true_eq] at member
      have present := (record.layers.get?_eq_some_iff e.1 e.2).mpr (List.mem_of_find?_eq_some held)
      refine ⟨?_,member⟩
      rw [Record.listed,present,Option.bind_some]
      cases children : e.2.childLayerIds with
      | none =>
        rw [children] at member
        cases member
      | some children => rfl
    · cases found

theorem relist_layers (d : String) : (record.relist parent siblings).layers.get? d =
    (record.layers.get? d).map fun layer =>
      if some d = parent then { layer with childLayerIds := some siblings } else layer := by
  cases parent with
  | none => simp [Record.relist]
  | some group =>
    rw [Record.relist]
    cases found : record.layers.get? group with
    | none =>
      dsimp only
      by_cases same : d = group
      · subst same
        rw [found,Option.map_none]
      · simp [same]
    | some layer =>
      dsimp only
      rw [Dict.get?_set]
      by_cases same : d = group
      · subst same
        simp [found]
      · simp [same]

theorem relist_roots : (record.relist parent siblings).rootLayerIds =
    if parent = none then siblings else record.rootLayerIds := by
  cases parent with
  | none => rfl
  | some group =>
    rw [Record.relist]
    split <;> rfl

theorem relist_listed (listed : record.listed parent = some identifiers) :
    (record.relist parent siblings).listed other =
      if other = parent then some siblings else record.listed other := by
  cases other with
  | none =>
    rw [Record.listed,relist_roots]
    by_cases same : parent = none
    · simp [same]
    · simp [same,Ne.symm same,Record.listed]
  | some d =>
    rw [Record.listed,relist_layers]
    by_cases same : some d = parent
    · subst same
      obtain ⟨layer,found,-⟩ := Option.bind_eq_some_iff.mp listed
      simp [found]
    · simp [same,Record.listed]

theorem relist_keys (d : String) :
    d ∈ (record.relist parent siblings).layers.keys ↔ d ∈ record.layers.keys := by
  rw [Dict.mem_keys_iff,Dict.mem_keys_iff,relist_layers]
  simp

theorem relist_zIndex (d : String) :
    (record.relist parent siblings).zIndex? d = record.zIndex? d := by
  rw [Record.zIndex?,Record.zIndex?,relist_layers,Option.bind_map]
  refine Option.bind_congr fun layer _ => ?_
  rw [Function.comp_apply]
  split <;> rfl

private theorem number_from (distinct : identifiers.Nodup) (start : Nat)
    (done : (identifiers.zipIdx start).foldlM (fun record e =>
      record.updateLayer e.1 (.setField "z_index" (.int e.2))) record = .ok record') :
    record' = { record with layers := record'.layers } ∧
      ∀ d, record'.layers.get? d = (record.layers.get? d).map fun layer =>
        if d ∈ identifiers then
          layer.setField "z_index" (.int (start + identifiers.idxOf d : Nat)) else layer := by
  induction identifiers generalizing start record with
  | nil =>
    obtain rfl := Except.ok.inj done
    exact ⟨rfl,by simp⟩
  | cons first rest ih =>
    obtain ⟨fresh,distinct⟩ := List.nodup_cons.mp distinct
    obtain ⟨middle,updated,later⟩ := bind_ok.mp done
    obtain ⟨layer,found,same⟩ := bind_ok.mp updated
    obtain rfl := Except.ok.inj same
    obtain ⟨kept,layers⟩ := ih distinct _ later
    refine ⟨kept,fun d => ?_⟩
    rw [layers,Dict.get?_set]
    by_cases here : d = first
    · subst here
      simp [fresh,item_ok.mp found]
    · rw [if_neg here,List.idxOf_cons_ne _ (Ne.symm here)]
      simp only [List.mem_cons,here,false_or,Nat.succ_eq_add_one]
      refine Option.map_congr fun layer _ => ?_
      rw [Nat.add_right_comm,Nat.add_assoc]

theorem number_ok (distinct : identifiers.Nodup) (done : record.number identifiers = .ok record') :
    record' = { record with layers := record'.layers } ∧
      ∀ d, record'.layers.get? d = (record.layers.get? d).map fun layer =>
        if d ∈ identifiers then layer.setField "z_index" (.int (identifiers.idxOf d : Nat))
        else layer := by
  simpa using number_from distinct 0 done

section Numbered

variable (distinct : identifiers.Nodup) (done : record.number identifiers = .ok record')
include distinct done

theorem number_keys (d : String) : d ∈ record'.layers.keys ↔ d ∈ record.layers.keys := by
  rw [Dict.mem_keys_iff,Dict.mem_keys_iff,(number_ok distinct done).2]
  simp

theorem number_zIndex (d : String) : record'.zIndex? d =
    if d ∈ identifiers ∧ d ∈ record.layers.keys then some (.int (identifiers.idxOf d : Nat))
    else record.zIndex? d := by
  rw [Record.zIndex?,Record.zIndex?,(number_ok distinct done).2]
  cases found : record.layers.get? d with
  | none =>
    have absent := (Dict.get?_eq_none_iff _ _).mp found
    simp [absent]
  | some layer =>
    have present : d ∈ record.layers.keys := (Dict.mem_keys_iff _ _).mpr ⟨layer,found⟩
    by_cases member : d ∈ identifiers
    · simp [member,present,Layer.setField]
    · simp [member]

theorem number_listed : record'.listed other = record.listed other := by
  cases other with
  | none =>
    rw [Record.listed,Record.listed,(number_ok distinct done).1]
  | some group =>
    rw [Record.listed,Record.listed,(number_ok distinct done).2,Option.bind_map]
    refine Option.bind_congr fun layer _ => ?_
    rw [Function.comp_apply]
    split <;> rfl

theorem number_raster (d : String) : record'.isRaster d = record.isRaster d := by
  rw [Record.isRaster,Record.isRaster,(number_ok distinct done).2,Option.any_map]
  refine congrArg (Option.any · _) (funext fun layer => ?_)
  split <;> rfl

theorem number_ordered (host : Host) (known : identifiers ⊆ record.layers.keys) :
    host.orderedLayerIds record'.layers identifiers = .ok identifiers := by
  have index (d : String) (member : d ∈ identifiers) :
      record'.zIndex? d = some (.int (identifiers.idxOf d : Nat)) := by
    rw [number_zIndex distinct done,if_pos ⟨member,known member⟩]
  rw [ordered_eq host distinct (fun d member => (number_keys distinct done d).mpr (known member))
    fun d member v given => ⟨_,Option.some.inj (given.symm.trans (index d member))⟩]
  refine congrArg Except.ok (Canonical.sortedBy_of_pairwise _ ?_)
  rw [List.pairwise_iff_getElem]
  intro i j left right before
  rw [Record.rank,Record.rank,index _ (List.getElem_mem left),index _ (List.getElem_mem right),
    distinct.idxOf_getElem,distinct.idxOf_getElem]
  simpa [integer?] using before.le

end Numbered

/-- `record'` lacks some layers and masks; a layer is missing only as one of `starts` or with the
group that has it. -/
structure Taken (starts : List String) (record record' : Record) : Prop where
  same : record' = { record with layers := record'.layers, masks := record'.masks }
  layers : ∀ d layer, record'.layers.get? d = some layer → record.layers.get? d = some layer
  masks : ∀ d mask, record'.masks.get? d = some mask → record.masks.get? d = some mask
  under : ∀ d ∈ record.layers.keys, d ∉ record'.layers.keys → d ∈ starts ∨
    ∃ group children, group ∉ record'.layers.keys ∧ record.children group = some children ∧
      d ∈ children

theorem Taken.refl (record : Record) : Taken [] record record :=
  ⟨rfl,fun _ _ held => held,fun _ _ held => held,fun _ here gone => absurd here gone⟩

theorem Taken.present {starts : List String} (taken : Taken starts record record') {d : String}
    (here : d ∈ record'.layers.keys) : d ∈ record.layers.keys := by
  obtain ⟨layer,held⟩ := (Dict.mem_keys_iff _ _).mp here
  exact (Dict.mem_keys_iff _ _).mpr ⟨layer,taken.layers d layer held⟩

theorem Taken.children {starts : List String} (taken : Taken starts record record') {d : String}
    {children : List String} (listed : record'.children d = some children) :
    record.children d = some children := by
  obtain ⟨layer,held,rfl⟩ := Option.map_eq_some_iff.mp listed
  rw [Record.children,taken.layers d layer held,Option.map_some]

theorem Taken.trans {first second : List String} {middle : Record}
    (taken : Taken first record middle) (taken' : Taken second middle record') :
    Taken (first ++ second) record record' := by
  refine ⟨?_,fun d layer held => taken.layers d layer (taken'.layers d layer held),
    fun d mask held => taken.masks d mask (taken'.masks d mask held),fun d here gone => ?_⟩
  · rw [taken'.same,taken.same]
  · by_cases between : d ∈ middle.layers.keys
    · rcases taken'.under d between gone with start | ⟨group,children,lost,listed,inside⟩
      · exact .inl (List.mem_append_right _ start)
      · exact .inr ⟨group,children,lost,taken.children listed,inside⟩
    · rcases taken.under d here between with start | ⟨group,children,lost,listed,inside⟩
      · exact .inl (List.mem_append_left _ start)
      · exact .inr ⟨group,children,fun here => lost (taken'.present here),listed,inside⟩

theorem dropMask_taken {mask : String} (done : record.dropMask mask = .ok record') :
    Taken [] record record' := by
  obtain ⟨held,-,same⟩ := bind_ok.mp done
  obtain rfl := Except.ok.inj same
  refine ⟨rfl,fun _ _ held => held,fun d m held => ?_,fun _ here gone => absurd here gone⟩
  dsimp only at held
  rw [Dict.get?_erase] at held
  split at held
  · cases held
  · exact held

private theorem fold_taken (f : Record → String → Except Failure Record)
    (starts : String → List String) (each : ∀ {record record' : Record} {d : String},
      f record d = .ok record' → Taken (starts d) record record') {ids : List String}
    (done : ids.foldlM f record = .ok record') : Taken (ids.flatMap starts) record record' := by
  induction ids generalizing record with
  | nil =>
    obtain rfl := Except.ok.inj done
    exact .refl record
  | cons d rest ih =>
    obtain ⟨middle,first,later⟩ := bind_ok.mp done
    exact (each first).trans (ih later)

theorem remove_taken {depth : Nat} (done : Record.remove depth record identifier = .ok record') :
    Taken [identifier] record record' ∧ identifier ∉ record'.layers.keys := by
  induction depth generalizing record record' identifier with
  | zero => cases done
  | succ depth ih =>
    obtain ⟨layer,found,done⟩ := bind_ok.mp done
    obtain ⟨middle,below,masks⟩ := bind_ok.mp done
    have found := item_ok.mp found
    have popped : Taken [identifier] record
        { record with layers := record.layers.erase identifier } := by
      refine ⟨rfl,fun d layer held => ?_,fun _ _ held => held,fun d here gone => .inl ?_⟩
      · dsimp only at held
        rw [Dict.get?_erase] at held
        split at held
        · cases held
        · exact held
      · rw [Dict.mem_keys_erase] at gone
        simpa [here] using gone
    have taken := (fold_taken (Record.remove depth) (fun d => [d]) (fun done => (ih done).1) below)
      |>.trans (fold_taken Record.dropMask (fun _ => []) dropMask_taken masks)
    have lost : identifier ∉ record'.layers.keys := fun here => by
      have here := taken.present here
      rw [Dict.mem_keys_erase] at here
      exact here.2 rfl
    obtain ⟨same,layers,masks,under⟩ := popped.trans taken
    refine ⟨⟨same,layers,masks,fun d here gone => ?_⟩,lost⟩
    rcases under d here gone with start | below
    · rcases List.mem_append.mp start with start | child
      · exact .inl start
      · refine .inr ⟨identifier,layer.childLayerIds.getD [],lost,?_,?_⟩
        · rw [Record.children,found,Option.map_some]
        · simpa using child
    · exact .inr below

theorem Taken.size {starts : List String} (taken : Taken starts record record') :
    record'.layers.keys.length ≤ record.layers.keys.length :=
  (List.subperm_of_subset record'.layers.distinct fun _ here => taken.present here).length_le

private theorem fold_ends {f : Record → String → Except Failure Record} {bound : Nat}
    (each : ∀ record d, record.layers.keys.length ≤ bound →
      FailsWith (· ≠ .recursionError) (f record d))
    (shrinks : ∀ record d record', f record d = .ok record' →
      record'.layers.keys.length ≤ record.layers.keys.length)
    (ids : List String) (small : record.layers.keys.length ≤ bound) :
    FailsWith (· ≠ .recursionError) (ids.foldlM f record) := by
  induction ids generalizing record with
  | nil => exact failsWith_ok
  | cons d rest ih =>
    rw [List.foldlM_cons]
    cases first : f record d with
    | error e => exact failsWith_error.mpr (each record d small e first)
    | ok middle => exact ih ((shrinks record d middle first).trans small)

theorem item_fails {ν : Type} (d : Dict String ν) (key : String) :
    FailsWith (· ≠ .recursionError) (item d key) := by
  rw [item]
  split
  · exact failsWith_ok
  · exact failsWith_error.mpr (by decide)

theorem remove_ends {depth : Nat} (enough : record.layers.keys.length < depth) :
    FailsWith (· ≠ .recursionError) (Record.remove depth record identifier) := by
  induction depth generalizing record identifier with
  | zero => omega
  | succ depth ih =>
    rw [Record.remove]
    cases found : item record.layers identifier with
    | error e => exact failsWith_error.mpr (item_fails _ _ e found)
    | ok layer =>
      have shorter := (Dict.entries_perm_erase (item_ok.mp found)).length_eq
      have fewer : (record.layers.erase identifier).keys.length < depth := by
        rw [Dict.keys,List.length_map] at enough ⊢
        rw [List.length_cons] at shorter
        omega
      refine FailsWith.bind (x := .ok layer) failsWith_ok fun layer => ?_
      refine FailsWith.bind ?_ fun middle => ?_
      · exact fold_ends (fun record d small => ih (lt_of_le_of_lt small fewer))
          (fun _ _ _ done => (remove_taken done).1.size) _ le_rfl
      · refine fold_ends (fun record mask _ => ?_)
          (fun _ _ _ done => (dropMask_taken done).size) _ le_rfl
        exact (item_fails _ _).bind fun _ => failsWith_ok

end Dinkster.Image
