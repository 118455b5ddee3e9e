import Dinkster.Memory.ResidentPaths

/-! The links of the resident pool: the owner and the dependent maps invert one another, and a key
names a held resident. A removal takes exactly what is attached to it and leaves the rest. -/
namespace Dinkster.Memory.ResidentPool

variable {uuids : Uuids} {p q : ResidentPool}

def ownersOf (p : ResidentPool) (rid : String) : List String :=
  (p.dependentOwners.get? rid).getD []

/-- The owner map and the dependent map are each other's inverse. -/
def Inverse (p : ResidentPool) : Prop :=
  ∀ owner rid, p.Dependent owner rid ↔ owner ∈ p.ownersOf rid

/-- Every keyed name resolves to a resident. -/
def KeysResolve (p : ResidentPool) : Prop :=
  ∀ key rid, p.keyed.get? key = some rid → rid ∈ p.objects.keys

structure Linked (p : ResidentPool) : Prop where
  inverse : p.Inverse
  keyed : p.KeysResolve
  distinct : ∀ owner, ((p.ownerDependents.get? owner).getD []).Nodup

theorem empty_linked : empty.Linked where
  inverse := by
    intro owner rid
    simp [Dependent,ownersOf,empty]
  keyed := by
    intro key rid named
    simp [empty] at named
  distinct := by
    intro owner
    simp [empty]

private theorem linked_of_same (linked : p.Linked) (owners : q.dependentOwners = p.dependentOwners)
    (dependents : q.ownerDependents = p.ownerDependents) (keyed : q.keyed = p.keyed)
    (held : ∀ rid ∈ p.objects.keys, rid ∈ q.objects.keys) : q.Linked where
  inverse := by
    intro owner rid
    rw [Dependent,ownersOf,owners,dependents]
    exact linked.inverse owner rid
  keyed := by
    intro key rid named
    rw [keyed] at named
    exact held rid (linked.keyed key rid named)
  distinct := by
    rw [dependents]
    exact linked.distinct

theorem dependent_addDependent (rid owner : String) (p : ResidentPool) (a b : String) :
    (addDependent rid p owner).Dependent a b ↔ p.Dependent a b ∨ (b = rid ∧ a = owner) := by
  unfold Dependent addDependent
  dsimp only
  rw [Dict.get?_set]
  by_cases same : a = owner
  · subst same
    by_cases known : rid ∈ (p.ownerDependents.get? a).getD []
    · simp only [if_pos,if_pos known,Option.getD_some,and_true]
      refine ⟨.inl,?_⟩
      rintro (inside | rfl)
      · exact inside
      · exact known
    · simp [known]
  · simp [same]

theorem dependent_addDependents (rid : String) (owners : List String) (p : ResidentPool)
    (a b : String) : (owners.foldl (addDependent rid) p).Dependent a b ↔
      p.Dependent a b ∨ (b = rid ∧ a ∈ owners) := by
  induction owners generalizing p with
  | nil => simp
  | cons owner rest ih =>
    rw [List.foldl_cons,ih,dependent_addDependent,List.mem_cons]
    tauto

private theorem distinct_addDependents (rid : String) (owners : List String)
    (distinct : ∀ owner, ((p.ownerDependents.get? owner).getD []).Nodup) (a : String) :
    (((owners.foldl (addDependent rid) p).ownerDependents.get? a).getD []).Nodup := by
  induction owners generalizing p with
  | nil => exact distinct a
  | cons owner rest ih =>
    apply ih
    intro other
    unfold addDependent
    dsimp only
    rw [Dict.get?_set]
    split
    · rename_i same
      rw [Option.getD_some]
      split
      · exact distinct owner
      · rename_i fresh
        exact List.nodup_append.mpr ⟨distinct owner,List.nodup_singleton rid,by
          intro x inside y single
          obtain rfl := List.mem_singleton.mp single
          rintro rfl
          exact fresh inside⟩
    · exact distinct other

private theorem addDependents_kept (rid : String) (owners : List String) (p : ResidentPool) :
    (owners.foldl (addDependent rid) p).dependentOwners = p.dependentOwners ∧
      (owners.foldl (addDependent rid) p).objects = p.objects ∧
      (owners.foldl (addDependent rid) p).keyed = p.keyed := by
  induction owners generalizing p with
  | nil => exact ⟨rfl,rfl,rfl⟩
  | cons owner rest ih => exact ih (addDependent rid p owner)

theorem depend_cases {rid : String} {owners : List String}
    (recorded : p.depend rid owners = some q) :
    q = p ∨ ((∀ owner ∈ p.ownersOf rid, owner ∈ owners) ∧ q = owners.foldl (addDependent rid)
      { p with dependentOwners := p.dependentOwners.set rid owners }) := by
  unfold depend at recorded
  split at recorded
  · exact .inl (Option.some.inj recorded).symm
  · split at recorded
    · rename_i previous found
      split at recorded
      · cases recorded
      · rename_i same
        refine .inr ⟨?_,(Option.some.inj recorded).symm⟩
        intro owner inside
        rw [ownersOf,found,Option.getD_some] at inside
        have there := not_not.mp same ▸ List.mem_toFinset.mpr inside
        exact List.mem_toFinset.mp there
    · rename_i found
      refine .inr ⟨?_,(Option.some.inj recorded).symm⟩
      intro owner inside
      rw [ownersOf,found] at inside
      cases inside

theorem depend_linked (linked : p.Linked) {rid : String} {owners : List String}
    (recorded : p.depend rid owners = some q) : q.Linked := by
  obtain rfl | ⟨known,rfl⟩ := depend_cases recorded
  · exact linked
  · have kept := addDependents_kept rid owners
      { p with dependentOwners := p.dependentOwners.set rid owners }
    constructor
    · intro owner other
      rw [dependent_addDependents,ownersOf,kept.1,Dict.get?_set]
      have before := linked.inverse owner other
      unfold Dependent at before ⊢
      split
      · rename_i same
        subst same
        rw [Option.getD_some,before]
        exact ⟨fun h => h.elim (known owner) (·.2),fun h => .inr ⟨rfl,h⟩⟩
      · rename_i different
        rw [before]
        exact ⟨fun h => h.elim id fun h => absurd h.1 different,.inl⟩
    · intro key other named
      rw [kept.2.2] at named
      rw [kept.2.1]
      exact linked.keyed key other named
    · exact distinct_addDependents rid owners linked.distinct

private theorem mem_discard_iff {d : Dict String (List String)} {owner : String} (rid a b : String)
    (distinct : ((d.get? owner).getD []).Nodup) :
    b ∈ ((discard rid d owner).get? a).getD [] ↔
      b ∈ (d.get? a).getD [] ∧ ¬(b = rid ∧ a = owner) := by
  unfold discard
  cases found : d.get? owner with
  | none =>
    dsimp only
    refine ⟨fun inside => ⟨inside,?_⟩,(·.1)⟩
    rintro ⟨rfl,rfl⟩
    rw [found] at inside
    cases inside
  | some dependents =>
    rw [found,Option.getD_some] at distinct
    dsimp only
    by_cases same : a = owner
    · subst same
      have erased := distinct.mem_erase_iff (a := b) (b := rid)
      split
      · rename_i none_left
        rw [none_left] at erased
        simp only [List.not_mem_nil,false_iff] at erased
        simp only [Dict.get?_erase,if_pos,Option.getD_none,List.not_mem_nil,found,
          Option.getD_some,and_true,false_iff]
        tauto
      · simp only [Dict.get?_set_self,Option.getD_some,erased,found,and_true]
        tauto
    · have other : ¬(b = rid ∧ a = owner) := fun h => same h.2
      split
      · rw [Dict.get?_erase,if_neg same]
        exact ⟨fun inside => ⟨inside,other⟩,(·.1)⟩
      · rw [Dict.get?_set_ne _ _ same]
        exact ⟨fun inside => ⟨inside,other⟩,(·.1)⟩

private theorem discard_distinct {d : Dict String (List String)} (rid owner : String)
    (distinct : ∀ a, ((d.get? a).getD []).Nodup) (a : String) :
    (((discard rid d owner).get? a).getD []).Nodup := by
  unfold discard
  cases found : d.get? owner with
  | none => exact distinct a
  | some dependents =>
    have there := distinct owner
    rw [found,Option.getD_some] at there
    dsimp only
    split
    · rw [Dict.get?_erase]
      split
      · exact List.nodup_nil
      · exact distinct a
    · rw [Dict.get?_set]
      split
      · exact there.erase rid
      · exact distinct a

private theorem mem_discards_iff (owners : List String) {d : Dict String (List String)}
    (rid a b : String) (distinct : ∀ a, ((d.get? a).getD []).Nodup) :
    b ∈ ((owners.foldl (discard rid) d).get? a).getD [] ↔
      b ∈ (d.get? a).getD [] ∧ ¬(b = rid ∧ a ∈ owners) := by
  induction owners generalizing d with
  | nil => simp
  | cons owner rest ih =>
    rw [List.foldl_cons,ih (discard_distinct rid owner distinct),
      mem_discard_iff rid a b (distinct owner),List.mem_cons]
    tauto

private theorem discards_distinct (owners : List String) {d : Dict String (List String)}
    (rid : String) (distinct : ∀ a, ((d.get? a).getD []).Nodup) (a : String) :
    (((owners.foldl (discard rid) d).get? a).getD []).Nodup := by
  induction owners generalizing d with
  | nil => exact distinct a
  | cons owner rest ih => exact ih (discard_distinct rid owner distinct)

/-- In the middle of a removal: a resident whose owner is gone is still to be removed, and what
was removed has no links left. -/
structure Removing (removing pending : List String) (p : ResidentPool) : Prop where
  forward : ∀ owner rid, p.Dependent owner rid → owner ∈ p.ownersOf rid
  backward : ∀ owner rid, owner ∈ p.ownersOf rid → p.Dependent owner rid ∨ rid ∈ pending
  keyed : p.KeysResolve
  distinct : ∀ owner, ((p.ownerDependents.get? owner).getD []).Nodup
  removed : ∀ rid ∈ removing, rid ∉ p.objects.keys ∧ p.ownersOf rid = [] ∧
    ∀ other, ¬ p.Dependent rid other

variable {removing pending : List String}

theorem ownersOf_dropOne (p : ResidentPool) (rid other : String) :
    (p.dropOne rid).ownersOf other = if other = rid then [] else p.ownersOf other := by
  unfold ownersOf dropOne
  dsimp only
  rw [Dict.get?_erase]
  split <;> rfl

theorem dependent_dropOne (state : Removing removing pending p) (rid a b : String) :
    (p.dropOne rid).Dependent a b ↔ p.Dependent a b ∧ a ≠ rid ∧ b ≠ rid := by
  have forward := state.forward a b
  unfold Dependent dropOne at *
  dsimp only
  rw [Dict.get?_erase]
  by_cases same : a = rid
  · simp [same]
  · rw [if_neg same,mem_discards_iff _ _ _ _ state.distinct]
    refine ⟨fun ⟨inside,kept⟩ => ⟨inside,same,?_⟩,fun ⟨inside,_,different⟩ =>
      ⟨inside,fun h => different h.1⟩⟩
    rintro rfl
    exact kept ⟨rfl,forward inside⟩

theorem mem_dependentsOf (state : Removing removing pending p) (rid other : String) :
    other ∈ p.dependentsOf rid ↔ p.Dependent rid other ∧ other ≠ rid := by
  have forward := state.forward rid other
  unfold dependentsOf
  dsimp only
  rw [mem_discards_iff _ _ _ _ state.distinct]
  unfold Dependent at *
  refine ⟨fun ⟨inside,kept⟩ => ⟨inside,?_⟩,fun ⟨inside,different⟩ =>
    ⟨inside,fun h => different h.1⟩⟩
  rintro rfl
  exact kept ⟨rfl,forward inside⟩

theorem dropOne_removing {rid : String} {rest : List String}
    (state : Removing removing (rid :: rest) p) :
    Removing (rid :: removing) (p.dependentsOf rid ++ rest) (p.dropOne rid) where
  forward := by
    intro a b inside
    obtain ⟨before,_,different⟩ := (dependent_dropOne state rid a b).mp inside
    rw [ownersOf_dropOne,if_neg different]
    exact state.forward a b before
  backward := by
    intro a b inside
    rw [ownersOf_dropOne] at inside
    split at inside
    · cases inside
    · rename_i different
      rw [dependent_dropOne state,List.mem_append,mem_dependentsOf state]
      obtain before | waiting := state.backward a b inside
      · by_cases same : a = rid
        · subst same
          exact .inr (.inl ⟨before,different⟩)
        · exact .inl ⟨before,same,different⟩
      · obtain same | later := List.mem_cons.mp waiting
        · exact absurd same different
        · exact .inr (.inr later)
  keyed := by
    intro key other named
    obtain ⟨before,kept⟩ := (Dict.get?_filterValues _ _ _ _).mp named
    exact (Dict.mem_keys_erase _ _ _).mpr ⟨state.keyed key other before,of_decide_eq_true kept⟩
  distinct := by
    intro owner
    unfold dropOne
    dsimp only
    rw [Dict.get?_erase]
    split
    · exact List.nodup_nil
    · exact discards_distinct _ rid state.distinct owner
  removed := by
    intro other inside
    rw [ownersOf_dropOne]
    obtain rfl | before := List.mem_cons.mp inside
    · refine ⟨fun held => ((Dict.mem_keys_erase _ _ _).mp held).2 rfl,if_pos rfl,?_⟩
      intro b linked
      exact ((dependent_dropOne state other other b).mp linked).2.1 rfl
    · obtain ⟨gone,none_left,alone⟩ := state.removed other before
      refine ⟨fun held => gone ((Dict.mem_keys_erase _ _ _).mp held).1,?_,?_⟩
      · rw [none_left,ite_self]
      · intro b linked
        exact alone b ((dependent_dropOne state rid other b).mp linked).1

theorem removing_skip {rid : String} {rest : List String}
    (state : Removing removing (rid :: rest) p) (known : rid ∈ removing) :
    Removing removing rest p where
  forward := state.forward
  backward := by
    intro a b inside
    obtain before | waiting := state.backward a b inside
    · exact .inl before
    · obtain rfl | later := List.mem_cons.mp waiting
      · rw [(state.removed b known).2.1] at inside
        cases inside
      · exact .inr later
  keyed := state.keyed
  distinct := state.distinct
  removed := state.removed

theorem linked_of_removing (state : Removing removing [] p) : p.Linked where
  inverse := fun a b => ⟨state.forward a b,fun inside =>
    (state.backward a b inside).resolve_right List.not_mem_nil⟩
  keyed := state.keyed
  distinct := state.distinct

theorem removing_of_linked (linked : p.Linked) (rid : String) : Removing [] [rid] p where
  forward := fun a b => (linked.inverse a b).mp
  backward := fun a b inside => .inl ((linked.inverse a b).mpr inside)
  keyed := linked.keyed
  distinct := linked.distinct
  removed := fun _ inside => absurd inside List.not_mem_nil

theorem removeTree_linked (removing pending : List String) (p : ResidentPool)
    (state : Removing removing pending p) : (p.removeTree removing pending).Linked := by
  fun_induction removeTree p removing pending with
  | case1 => exact linked_of_removing state
  | case2 p removing rid rest known ih => exact ih (removing_skip state known)
  | case3 p removing rid rest fresh ih => exact ih (dropOne_removing state)

theorem remove_linked (linked : p.Linked) (rid : String) : (p.remove rid).Linked :=
  removeTree_linked [] [rid] p (removing_of_linked linked rid)

private theorem attached_avoiding (state : Removing removing pending p) (rid : String)
    {a x : String} (attached : p.Attached a x) :
    x = rid ∨ (p.dropOne rid).Attached a x ∨
      ∃ next ∈ p.dependentsOf rid, (p.dropOne rid).Attached next x := by
  induction attached using Relation.ReflTransGen.head_induction_on with
  | refl => exact .inr (.inl .refl)
  | head edge rest ih =>
    rename_i a b
    obtain same | path | later := ih
    · exact .inl same
    · by_cases itself : b = rid
      · obtain same | ⟨next,first,_⟩ := Relation.ReflTransGen.cases_head path
        · exact .inl (same.symm.trans itself)
        · exact absurd itself ((dependent_dropOne state rid b next).mp first).2.1
      · by_cases leaves : a = rid
        · subst leaves
          exact .inr (.inr ⟨b,(mem_dependentsOf state a b).mpr ⟨edge,itself⟩,path⟩)
        · exact .inr (.inl (.head ((dependent_dropOne state rid a b).mpr
            ⟨edge,leaves,itself⟩) path))
    · exact .inr (.inr later)

theorem removeTree_closed (removing pending : List String) (p : ResidentPool)
    (state : Removing removing pending p) {owner x : String} (waiting : owner ∈ pending)
    (attached : p.Attached owner x) : x ∉ (p.removeTree removing pending).objects.keys := by
  fun_induction removeTree p removing pending generalizing owner with
  | case1 => cases waiting
  | case2 p removing rid rest known ih =>
    obtain rfl | later := List.mem_cons.mp waiting
    · obtain ⟨gone,_,alone⟩ := state.removed owner known
      obtain rfl | ⟨next,first,_⟩ := Relation.ReflTransGen.cases_head attached
      · exact fun held => gone ((removeTree_shrinks _ _ _).objects owner held)
      · exact absurd first (alone next)
    · exact ih (removing_skip state known) later attached
  | case3 p removing rid rest fresh ih =>
    have after := dropOne_removing state
    obtain rfl | path | ⟨next,listed,path⟩ := attached_avoiding state rid attached
    · intro held
      have dropped := (removeTree_shrinks _ _ _).objects x held
      exact ((Dict.mem_keys_erase _ _ _).mp dropped).2 rfl
    · obtain rfl | later := List.mem_cons.mp waiting
      · obtain rfl | ⟨next,first,_⟩ := Relation.ReflTransGen.cases_head path
        · intro held
          have dropped := (removeTree_shrinks _ _ _).objects owner held
          exact ((Dict.mem_keys_erase _ _ _).mp dropped).2 rfl
        · exact absurd rfl ((dependent_dropOne state owner owner next).mp first).2.1
      · exact ih after (List.mem_append_right _ later) path
    · exact ih after (List.mem_append_left _ listed) path

theorem removeTree_spares (removing pending : List String) (p : ResidentPool)
    (state : Removing removing pending p) {a : String}
    (spared : ∀ owner ∈ pending, ¬ p.Attached owner a) :
    (p.removeTree removing pending).objects.get? a = p.objects.get? a ∧
    (p.removeTree removing pending).entries.get? a = p.entries.get? a ∧
    ∀ b, (∀ owner ∈ pending, ¬ p.Attached owner b) →
      p.Dependent a b → (p.removeTree removing pending).Dependent a b := by
  fun_induction removeTree p removing pending with
  | case1 => exact ⟨rfl,rfl,fun _ _ edge => edge⟩
  | case2 p removing rid rest known ih =>
    obtain ⟨object,entry,links⟩ := ih (removing_skip state known) fun owner inside =>
      spared owner (List.mem_cons_of_mem _ inside)
    exact ⟨object,entry,fun b safe edge => links b (fun owner inside =>
      safe owner (List.mem_cons_of_mem _ inside)) edge⟩
  | case3 p removing rid rest fresh ih =>
    have outlives : ∀ x, (∀ owner ∈ rid :: rest, ¬ p.Attached owner x) →
        x ≠ rid ∧ ∀ owner ∈ p.dependentsOf rid ++ rest, ¬ (p.dropOne rid).Attached owner x := by
      intro x safe
      refine ⟨fun same => safe rid List.mem_cons_self (same ▸ .refl),?_⟩
      intro owner inside path
      have before : p.Attached owner x :=
        Relation.ReflTransGen.mono (fun _ _ => dependent_of_dropOne) owner x path
      obtain next | later := List.mem_append.mp inside
      · exact safe rid List.mem_cons_self (.head (dependent_of_dependentsOf next) before)
      · exact safe owner (List.mem_cons_of_mem _ later) before
    obtain ⟨different,safe⟩ := outlives a spared
    obtain ⟨object,entry,links⟩ := ih (dropOne_removing state) safe
    refine ⟨?_,?_,?_⟩
    · rw [object,dropOne,Dict.get?_erase,if_neg different]
    · rw [entry,dropOne,Dict.get?_erase,if_neg different]
    · intro b kept edge
      obtain ⟨other,safely⟩ := outlives b kept
      exact links b safely ((dependent_dropOne state rid a b).mpr ⟨edge,different,other⟩)

theorem remove_held_iff (linked : p.Linked) (rid other : String) :
    other ∈ (p.remove rid).objects.keys ↔ other ∈ p.objects.keys ∧ ¬ p.Attached rid other := by
  constructor
  · intro held
    refine ⟨(remove_shrinks p rid).objects other held,?_⟩
    intro attached
    have state := removing_of_linked linked rid
    exact removeTree_closed [] [rid] p state List.mem_cons_self attached held
  · rintro ⟨held,loose⟩
    by_contra dropped
    exact loose (remove_attached held dropped)

theorem remove_spares (linked : p.Linked) {rid a : String} (loose : ¬ p.Attached rid a) :
    (p.remove rid).objects.get? a = p.objects.get? a ∧
    (p.remove rid).entries.get? a = p.entries.get? a ∧
    ∀ b, ¬ p.Attached rid b → p.Dependent a b → (p.remove rid).Dependent a b := by
  have state := removing_of_linked linked rid
  obtain ⟨object,entry,links⟩ := removeTree_spares [] [rid] p state (a := a) (by
    intro owner inside
    obtain rfl := List.mem_singleton.mp inside
    exact loose)
  refine ⟨object,entry,fun b safe edge => links b ?_ edge⟩
  intro owner inside
  obtain rfl := List.mem_singleton.mp inside
  exact safe

theorem remove_attaches (linked : p.Linked) {rid a x : String} (loose : ¬ p.Attached rid x)
    (attached : p.Attached a x) : (p.remove rid).Attached a x := by
  induction attached using Relation.ReflTransGen.head_induction_on with
  | refl => exact .refl
  | head edge rest ih =>
    rename_i a b
    have first : ¬ p.Attached rid a := fun h => loose (h.trans (.head edge rest))
    have second : ¬ p.Attached rid b := fun h => loose (h.trans rest)
    exact .head ((remove_spares linked first).2.2 b second edge) ih

theorem change_linked (change : Change uuids p q) (linked : p.Linked) : q.Linked := by
  cases change with
  | table identity =>
    have grows := (tableRidFor_grows uuids p identity).1.objects
    unfold tableRidFor at grows ⊢
    split
    · rename_i rid known
      rw [known] at grows
      split
      · exact linked
      · rename_i other
        dsimp only at grows
        rw [if_neg other] at grows
        exact linked_of_same linked rfl rfl rfl grows
    · rename_i unknown
      rw [unknown] at grows
      exact linked_of_same linked rfl rfl rfl grows
  | linked recorded => exact depend_linked linked recorded
  | touched rid cost => exact linked_of_same linked rfl rfl rfl fun _ held => held
  | used found => exact linked_of_same linked rfl rfl rfl fun _ held => held
  | placed found unused => exact linked_of_same linked rfl rfl rfl fun _ held => held
  | named key held =>
    refine ⟨linked.inverse,?_,linked.distinct⟩
    intro other rid found
    rw [Dict.get?_set] at found
    split at found
    · obtain rfl := Option.some.inj found
      exact held
    · exact linked.keyed other rid found
  | removed rid => exact remove_linked linked rid

theorem run_linked (uuids : Uuids) (calls : List Call) : (run uuids calls).Linked :=
  acts_keep (fun _ _ change linked => change_linked change linked) calls empty_linked

end Dinkster.Memory.ResidentPool
