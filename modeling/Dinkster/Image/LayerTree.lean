import Dinkster.Image.Format

/-! The passes over the layer tree. Counting parents and marking layers accept exactly the forests
in which the walk from the roots comes to each layer once. -/
namespace Dinkster.Image
open Fallible Forest

variable {children : String → List String} {host : Host} {layers : Dict String Layer}
variable {roots : List String}

theorem visit_ok {depth : Nat} {l visited visited' : List String} :
    l.foldlM (visit children depth) visited = .ok visited' ↔
      ∃ seen, Walk (fun d => some (children d)) l seen ∧
        Within (fun d => some (children d)) depth l ∧ seen.Nodup ∧ seen.Disjoint visited ∧
        visited' = seen.reverse ++ visited := by
  induction depth generalizing l visited visited' with
  | zero =>
    cases l with
    | nil =>
      constructor
      · intro done
        obtain rfl := Except.ok.inj done
        exact ⟨[],.nil,rfl,.nil,by simp,rfl⟩
      · rintro ⟨seen,walk,-,-,-,rfl⟩
        cases walk
        rfl
    | cons a rest =>
      constructor
      · intro done
        cases done
      · rintro ⟨_,_,shallow,_⟩
        cases shallow
  | succ depth ih =>
    induction l generalizing visited visited' with
    | nil =>
      constructor
      · intro done
        obtain rfl := Except.ok.inj done
        exact ⟨[],.nil,by simp [Within],.nil,by simp,rfl⟩
      · rintro ⟨seen,walk,-,-,-,rfl⟩
        cases walk
        rfl
    | cons a rest ih' =>
      rw [List.foldlM_cons,bind_ok]
      constructor
      · rintro ⟨middle,first,later⟩
        rw [visit] at first
        split at first
        · cases first
        · rename_i fresh
          obtain ⟨inner,inside,shallow,once,apart,rfl⟩ := ih.mp first
          obtain ⟨after,walk,shallow',once',apart',rfl⟩ := ih'.mp later
          have apart := List.disjoint_cons_right.mp apart
          rw [List.disjoint_append_right,List.disjoint_cons_right] at apart'
          refine ⟨a :: (inner ++ after),.cons rfl inside walk,?_,?_,?_,by simp⟩
          · intro b member _ known
            rcases List.mem_cons.mp member with rfl | member
            · obtain rfl := Option.some.inj known
              exact shallow
            · exact shallow' b member _ known
          · have disjoint : inner.Disjoint after := fun b member member' =>
              apart'.1 member' (List.mem_reverse.mpr member)
            rw [List.nodup_cons,List.nodup_append']
            refine ⟨?_,once,once',disjoint⟩
            rw [List.mem_append]
            exact fun member => member.elim apart.1 apart'.2.1
          · rw [List.disjoint_cons_left,List.disjoint_append_left]
            exact ⟨fresh,apart.2,apart'.2.2⟩
      · rintro ⟨seen,walk,shallow,once,apart,rfl⟩
        cases walk with
        | @cons _ kids _ inner after known inside later =>
          obtain rfl := Option.some.inj known
          obtain ⟨fresh,apart⟩ := List.disjoint_cons_left.mp apart
          obtain ⟨apart,apart'⟩ := List.disjoint_append_left.mp apart
          obtain ⟨new,once⟩ := List.nodup_cons.mp once
          rw [List.mem_append,not_or] at new
          obtain ⟨once,once',disjoint⟩ := List.nodup_append'.mp once
          refine ⟨inner.reverse ++ (a :: visited),?_,ih'.mpr ⟨after,later,?_,once',?_,by simp⟩⟩
          · rw [visit,if_neg fresh]
            refine ih.mpr ⟨inner,inside,shallow a List.mem_cons_self _ rfl,once,?_,rfl⟩
            exact List.disjoint_cons_right.mpr ⟨new.1,apart⟩
          · exact fun b member => shallow b (List.mem_cons_of_mem _ member)
          · rw [List.disjoint_append_right,List.disjoint_cons_right]
            exact ⟨fun b member member' => disjoint (List.mem_reverse.mp member') member,new.2,
              apart'⟩

def childrenIn (layers : Dict String Layer) (identifier : String) : Option (List String) :=
  (layers.get? identifier).map fun layer => layer.childLayerIds.getD []

def Rooted (roots : List String) (layers : Dict String Layer) : Prop :=
  ∃ seen, Walk (childrenIn layers) roots seen ∧ seen.Perm layers.keys

def Unclipped (host : Host) (roots : List String) (layers : Dict String Layer) : Prop :=
  ∀ siblings ∈ roots :: childLists layers, ∀ first rest layer,
    host.orderedLayerIds layers siblings = .ok (first :: rest) → layers.get? first = some layer →
      isText "clip-to-previous" (memberOr layer.fields "clipping" .null) = false

/-- Every `z_index` is an integer. -/
def Ranked (layers : Dict String Layer) : Prop :=
  ∀ identifier layer v, layers.get? identifier = some layer →
    layer.fields.get? "z_index" = some v → ∃ n, v = .int n

theorem childrenIn_eq {d : String} (known : d ∈ layers.keys) :
    childrenIn layers d = some (childrenOf layers d) := by
  obtain ⟨layer,found⟩ := (Dict.mem_keys_iff _ _).mp known
  rw [childrenIn,childrenOf,found,Option.map_some,Option.bind_some]

theorem mem_childLists {siblings : List String} :
    siblings ∈ childLists layers ↔
      ∃ group layer, layers.get? group = some layer ∧ layer.childLayerIds = some siblings := by
  rw [childLists,List.mem_filterMap]
  constructor
  · rintro ⟨e,member,listed⟩
    exact ⟨e.1,e.2,(Dict.get?_eq_some_iff _ _ _).mpr member,listed⟩
  · rintro ⟨group,layer,found,listed⟩
    exact ⟨(group,layer),(Dict.get?_eq_some_iff _ _ _).mp found,listed⟩

theorem childLists_flatten : (childLists layers).flatten = layers.keys.flatMap
    fun d => (childrenIn layers d).getD [] := by
  rw [childLists,Dict.keys,List.flatMap_map]
  have each : ∀ e ∈ layers.entries, (childrenIn layers e.1).getD [] =
      (e.2.childLayerIds).getD [] := fun e member => by
    rw [childrenIn,(Dict.get?_eq_some_iff _ e.1 e.2).mpr member,Option.map_some,Option.getD_some]
  rw [List.flatMap_congr each]
  generalize layers.entries = entries
  clear each
  induction entries with
  | nil => rfl
  | cons e rest ih =>
    rw [List.flatMap_cons,← ih,List.filterMap_cons]
    cases e.2.childLayerIds with
    | none => rfl
    | some children => rfl

variable (host) in
theorem ordered_known (ranked : Ranked layers) {siblings : List String} (distinct : siblings.Nodup)
    (known : siblings ⊆ layers.keys) :
    ∃ ordered, host.orderedLayerIds layers siblings = .ok ordered ∧ ordered.Perm siblings := by
  let record : Record := ⟨.empty,0,.empty,[],layers,.empty,.empty⟩
  refine ⟨_,@ordered_eq host record siblings distinct known fun d _ v given => ?_,
    Canonical.sortedBy_perm _ _⟩
  obtain ⟨layer,found,given⟩ := Option.bind_eq_some_iff.mp given
  exact ranked d layer v found given

theorem checkSiblings_ok (ranked : Ranked layers) {siblings : List String} {u : Unit} :
    host.checkSiblings layers siblings = .ok u ↔ siblings.Nodup ∧ siblings ⊆ layers.keys ∧
      ∀ first rest layer, host.orderedLayerIds layers siblings = .ok (first :: rest) →
        layers.get? first = some layer →
          isText "clip-to-previous" (memberOr layer.fields "clipping" .null) = false := by
  rw [Host.checkSiblings,refuse_then,refuse_then,bind_ok,not_not]
  push Not
  refine and_congr_right fun distinct => and_congr_right fun known => ?_
  obtain ⟨ordered,sorted,perm⟩ := ordered_known host ranked distinct known
  constructor
  · rintro ⟨ordered',sorted',done⟩ first rest layer listed found
    obtain rfl := Except.ok.inj (listed.symm.trans sorted')
    obtain ⟨layer',found',done⟩ := bind_ok.mp done
    obtain rfl := Option.some.inj (found.symm.trans (item_ok.mp found'))
    simpa using refuseIf_ok.mp done
  · intro unclipped
    refine ⟨ordered,sorted,?_⟩
    cases ordered with
    | nil => rfl
    | cons first rest =>
      obtain ⟨layer,found⟩ := (Dict.mem_keys_iff _ _).mp
        (known first (perm.mem_iff.mp (List.mem_cons_self (l := rest))))
      refine bind_ok.mpr ⟨layer,item_ok.mpr found,refuseIf_ok.mpr ?_⟩
      simpa using unclipped first rest layer sorted found

theorem checkTree_ok (ranked : Ranked layers) {u : Unit} : host.checkTree roots layers = .ok u ↔
    Rooted roots layers ∧ Within (childrenIn layers) maxLayerDepth roots ∧
      Unclipped host roots layers := by
  rw [Host.checkTree]
  constructor
  · intro done
    obtain ⟨_,lists,done⟩ := bind_ok.mp done
    obtain ⟨-,done⟩ := refuse_then.mp done
    obtain ⟨visited,marked,done⟩ := bind_ok.mp done
    have all := refuseIf_ok.mp done
    push Not at all
    obtain ⟨seen,walk,shallow,once,-,rfl⟩ := visit_ok.mp marked
    rw [List.append_nil] at all
    have known : ∀ d ∈ seen, d ∈ layers.keys := fun d member =>
      all.2 d (List.mem_reverse.mpr member)
    refine ⟨⟨seen,walk.congr fun d member => childrenIn_eq (known d member),?_⟩,?_,?_⟩
    · refine (List.perm_ext_iff_of_nodup once layers.distinct).mpr fun d => ⟨known d,fun here => ?_⟩
      exact List.mem_reverse.mp (all.1 d here)
    · refine shallow.mono fun d children listed => ?_
      obtain ⟨layer,found,-⟩ := Option.map_eq_some_iff.mp listed
      rw [← listed,childrenIn_eq ((Dict.mem_keys_iff _ _).mpr ⟨layer,found⟩)]
    · intro siblings member
      exact ((checkSiblings_ok ranked).mp (forM_ok lists siblings member)).2.2
  · rintro ⟨⟨seen,walk,perm⟩,shallow,unclipped⟩
    have once := perm.nodup_iff.mpr layers.distinct
    have total : ∀ d ∈ seen, some (childrenOf layers d) = childrenIn layers d := fun d member =>
      (childrenIn_eq (perm.mem_iff.mp member)).symm
    refine bind_ok.mpr ⟨(),forM_all fun siblings member => ?_,refuse_then.mpr ⟨?_,?_⟩⟩
    · have sound : siblings.Nodup ∧ siblings ⊆ seen := by
        rcases List.mem_cons.mp member with rfl | member
        · exact ⟨starts_nodup walk once,walk.starts_sublist.subset⟩
        · obtain ⟨group,layer,found,listed⟩ := mem_childLists.mp member
          have known : childrenIn layers group = some siblings := by
            rw [childrenIn,found,Option.map_some,listed,Option.getD_some]
          have reached := perm.mem_iff.mpr ((Dict.mem_keys_iff _ _).mpr ⟨layer,found⟩)
          exact ⟨children_nodup walk once reached known,walk.closed reached known⟩
      exact (checkSiblings_ok ranked).mpr ⟨sound.1,fun d inside => perm.mem_iff.mp (sound.2 inside),
        unclipped siblings member⟩
    · -- the roots and all children are the layers, each once
      have listed : (roots :: childLists layers).flatten.Perm layers.keys := by
        rw [List.flatten_cons,childLists_flatten]
        exact ((perm.symm.flatMap_right _).append_left roots).trans
          (walk.listed.symm.trans perm)
      push Not
      exact fun d here => List.count_eq_one_of_mem (listed.nodup_iff.mpr layers.distinct)
        (listed.mem_iff.mpr here)
    · refine bind_ok.mpr ⟨_,visit_ok.mpr ⟨seen,walk.congr total,
        shallow.congr walk total walk.starts_sublist.subset,once,by simp,rfl⟩,refuseIf_ok.mpr ?_⟩
      simp [perm.mem_iff]

end Dinkster.Image
