import Dinkster.Lib.StableSort
import Mathlib.Data.List.Perm.Basic
import Mathlib.Data.List.Flatten

/-! Forests given by the children of each node: the depth-first walk from a list of nodes, what
relisting siblings does to it, and what putting siblings under a new node does. -/
namespace Forest

variable {α : Type*}

/-- `seen` is the walk from the nodes in turn: a node, then what is below it. -/
inductive Walk (below : α → Option (List α)) : List α → List α → Prop
  | nil : Walk below [] []
  | cons {a : α} {children rest inner after : List α} (known : below a = some children)
      (inside : Walk below children inner) (later : Walk below rest after) :
      Walk below (a :: rest) (a :: (inner ++ after))

variable {below below' : α → Option (List α)} {l l' seen seen' : List α}

theorem Walk.unique (walk : Walk below l seen) (walk' : Walk below l seen') : seen = seen' := by
  induction walk generalizing seen' with
  | nil =>
    cases walk'
    rfl
  | cons known _ _ inner after =>
    cases walk' with
    | cons known' inside' later' =>
      obtain rfl := Option.some.inj (known.symm.trans known')
      rw [inner inside',after later']

theorem Walk.append (walk : Walk below l seen) (walk' : Walk below l' seen') :
    Walk below (l ++ l') (seen ++ seen') := by
  induction walk with
  | nil => exact walk'
  | cons known inside _ _ ih =>
    rw [List.cons_append,List.cons_append,List.append_assoc]
    exact .cons known inside ih

theorem Walk.split (walk : Walk below (l ++ l') seen) :
    ∃ first second, seen = first ++ second ∧ Walk below l first ∧ Walk below l' second := by
  induction l generalizing seen with
  | nil => exact ⟨[],seen,rfl,.nil,walk⟩
  | cons a rest ih =>
    cases walk with
    | cons known inside later =>
      obtain ⟨first,second,rfl,walk,walk'⟩ := ih later
      exact ⟨_,second,by rw [List.cons_append,List.append_assoc],.cons known inside walk,walk'⟩

theorem Walk.parts (walk : Walk below l seen) :
    ∃ part : α → List α, (∀ a ∈ l, Walk below [a] (part a)) ∧ seen = l.flatMap part := by
  classical
  have each : ∀ a ∈ l, ∃ piece, Walk below [a] piece := by
    intro a member
    obtain ⟨front,back,rfl⟩ := List.append_of_mem member
    obtain ⟨_,second,-,-,walk'⟩ := walk.split
    obtain ⟨piece,_,-,single,-⟩ := Walk.split (l := [a]) walk'
    exact ⟨piece,single⟩
  choose! part single using each
  refine ⟨part,single,walk.unique ?_⟩
  clear walk
  induction l with
  | nil => exact .nil
  | cons a rest ih =>
    obtain ⟨first,others⟩ := List.forall_mem_cons.mp single
    exact first.append (ih others)

theorem Walk.of_parts {part : α → List α} (single : ∀ a ∈ l, Walk below [a] (part a)) :
    Walk below l (l.flatMap part) := by
  induction l with
  | nil => exact .nil
  | cons a rest ih =>
    obtain ⟨first,others⟩ := List.forall_mem_cons.mp single
    exact first.append (ih others)

theorem Walk.congr (walk : Walk below l seen) (same : ∀ a ∈ seen, below' a = below a) :
    Walk below' l seen := by
  induction walk with
  | nil => exact .nil
  | cons known _ _ inner after =>
    obtain ⟨here,others⟩ := List.forall_mem_cons.mp same
    refine .cons (here.trans known) (inner fun a inside => others a ?_)
      (after fun a inside => others a ?_)
    · exact List.mem_append_left _ inside
    · exact List.mem_append_right _ inside

theorem Walk.starts_sublist (walk : Walk below l seen) : l.Sublist seen := by
  induction walk with
  | nil => exact .slnil
  | cons _ _ _ _ after => exact .cons_cons _ (after.trans (List.sublist_append_right _ _))

theorem Walk.listed (walk : Walk below l seen) :
    seen.Perm (l ++ seen.flatMap fun a => (below a).getD []) := by
  induction walk with
  | nil => exact .nil
  | @cons a children rest inner after known _ _ ih ih' =>
    rw [List.cons_append,List.flatMap_cons,known,Option.getD_some,List.flatMap_append]
    refine .cons a ?_
    calc (inner ++ after).Perm
          ((children ++ inner.flatMap fun a => (below a).getD []) ++
            (rest ++ after.flatMap fun a => (below a).getD [])) := ih.append ih'
      _ |>.Perm ((rest ++ after.flatMap fun a => (below a).getD []) ++
            (children ++ inner.flatMap fun a => (below a).getD [])) := List.perm_append_comm
      _ |>.Perm (rest ++ (children ++ ((inner.flatMap fun a => (below a).getD []) ++
            after.flatMap fun a => (below a).getD []))) := by
          rw [List.append_assoc]
          refine List.Perm.append_left rest (List.perm_append_comm.trans ?_)
          rw [List.append_assoc]

theorem Walk.known (walk : Walk below l seen) {a : α} (member : a ∈ seen) :
    ∃ children, below a = some children := by
  induction walk with
  | nil => cases member
  | cons known _ _ inner after =>
    rcases List.mem_cons.mp member with rfl | member
    · exact ⟨_,known⟩
    · exact (List.mem_append.mp member).elim inner after

theorem Walk.closed (walk : Walk below l seen) {a : α} (member : a ∈ seen) {children : List α}
    (known : below a = some children) : children ⊆ seen := by
  intro b child
  refine walk.listed.mem_iff.mpr (List.mem_append_right _ ?_)
  exact List.mem_flatMap.mpr ⟨a,member,by rwa [known]⟩

theorem Walk.before (walk : Walk below l seen) {a b : α} (member : a ∈ seen) {children : List α}
    (known : below a = some children) (child : b ∈ children) : [a,b].Sublist seen := by
  induction walk with
  | nil => cases member
  | @cons c children' rest inner after known' inside _ ih ih' =>
    rcases List.mem_cons.mp member with rfl | member
    · obtain rfl := Option.some.inj (known.symm.trans known')
      refine .cons_cons _ (List.singleton_sublist.mpr (List.mem_append_left _ ?_))
      exact inside.starts_sublist.subset child
    · refine .cons _ ?_
      rcases List.mem_append.mp member with member | member
      · exact (ih member).trans (List.sublist_append_left _ _)
      · exact (ih' member).trans (List.sublist_append_right _ _)

theorem Walk.relist (walk : Walk below l seen) (listed : l.Perm l')
    (same : ∀ a children, below a = some children →
      ∃ children', below' a = some children' ∧ children.Perm children') :
    ∃ seen', Walk below' l' seen' ∧ seen.Perm seen' := by
  induction walk generalizing l' with
  | nil =>
    obtain rfl := List.nil_perm.mp listed
    exact ⟨[],.nil,.nil⟩
  | @cons a children rest inner after known _ _ ih ih' =>
    obtain ⟨front,back,rfl⟩ := List.append_of_mem (listed.mem_iff.mp List.mem_cons_self)
    have others : rest.Perm (front ++ back) :=
      (List.perm_cons a).mp (listed.trans List.perm_middle)
    obtain ⟨children',known',listed'⟩ := same a children known
    obtain ⟨inner',inside',perm⟩ := ih listed'
    obtain ⟨after',later',perm'⟩ := ih' others
    obtain ⟨first,second,rfl,walk,walk'⟩ := later'.split
    refine ⟨first ++ (a :: (inner' ++ second)),walk.append (.cons known' inside' walk'),?_⟩
    refine (List.Perm.cons a ?_).trans List.perm_middle.symm
    calc (inner ++ after).Perm (inner' ++ (first ++ second)) := perm.append perm'
      _ |>.Perm ((first ++ second) ++ inner') := List.perm_append_comm
      _ |>.Perm (first ++ (inner' ++ second)) := by
          rw [List.append_assoc]
          exact List.perm_append_comm.append_left first

def Within (below : α → Option (List α)) : Nat → List α → Prop
  | 0,l => l = []
  | depth + 1,l => ∀ a ∈ l, ∀ children, below a = some children → Within below depth children

theorem Within.congr (walk : Walk below l seen) (same : ∀ a ∈ seen, below' a = below a)
    {depth : Nat} (inside : l' ⊆ seen) (shallow : Within below depth l') :
    Within below' depth l' := by
  induction depth generalizing l' with
  | zero => exact shallow
  | succ depth ih =>
    intro a member children known
    have member' := inside member
    rw [same a member'] at known
    exact ih (walk.closed member' known) (shallow a member children known)

theorem Within.mono (fewer : ∀ a children, below' a = some children → below a = some children)
    {depth : Nat} (shallow : Within below depth l) : Within below' depth l := by
  induction depth generalizing l with
  | zero => exact shallow
  | succ depth ih =>
    intro a member children known
    exact ih (shallow a member children (fewer a children known))

section Once

variable (walk : Walk below l seen) (once : seen.Nodup)
include walk once

theorem starts_nodup : l.Nodup := once.sublist walk.starts_sublist

private theorem listed_nodup : (l ++ seen.flatMap fun a => (below a).getD []).Nodup :=
  walk.listed.nodup_iff.mp once

theorem children_nodup {a : α} (member : a ∈ seen) {children : List α}
    (known : below a = some children) : children.Nodup := by
  have whole := (List.nodup_append.mp (listed_nodup walk once)).2.1
  have each := (List.nodup_flatMap.mp whole).1 a member
  rwa [known] at each

theorem child_not_start {a b : α} (member : a ∈ seen) {children : List α}
    (known : below a = some children) (child : b ∈ children) : b ∉ l := by
  intro start
  have apart := (List.nodup_append.mp (listed_nodup walk once)).2.2
  exact apart b start b (List.mem_flatMap.mpr ⟨a,member,by rwa [known]⟩) rfl

theorem parent_unique {a a' b : α} (member : a ∈ seen) (member' : a' ∈ seen)
    {children children' : List α} (known : below a = some children)
    (known' : below a' = some children') (child : b ∈ children) (child' : b ∈ children') :
    a = a' := by
  by_contra other
  have whole := (List.nodup_append.mp (listed_nodup walk once)).2.1
  have apart := (List.nodup_flatMap.mp whole).2
  have meet : b ∈ (below a).getD [] ∧ b ∈ (below a').getD [] := by
    rw [known,known']
    exact ⟨child,child'⟩
  rcases Canonical.before_or_after member member' other with before | before
  · exact List.pairwise_pair.mp (apart.sublist before) meet.1 meet.2
  · exact List.pairwise_pair.mp (apart.sublist before) meet.2 meet.1

end Once

section Grouping

variable {parent group : α} {left members right members' : List α}

/-- The siblings of one list lose some for a new node, under which they stand in another order. -/
structure Grouped (below' : α → Option (List α)) (group : α) (members members' : List α) :
    Prop where
  listed : members.Perm members'
  inside : below' group = some members'

theorem Grouped.here (grouped : Grouped below' group members members')
    (walk : Walk below (left ++ members ++ right) seen)
    (same : ∀ a ∈ seen, below' a = below a) :
    ∃ front mid mid' back, seen = front ++ mid ++ back ∧ Walk below members mid ∧
      Walk below members' mid' ∧
      Walk below' (left ++ group :: right) (front ++ group :: mid' ++ back) := by
  obtain ⟨first,back,rfl,walk,after⟩ := walk.split
  obtain ⟨front,mid,rfl,before,middle⟩ := walk.split
  obtain ⟨mid',middle',perm⟩ := middle.relist grouped.listed fun a children known =>
    ⟨children,known,.refl children⟩
  refine ⟨front,mid,mid',back,rfl,middle,middle',?_⟩
  have inside : Walk below' members' mid' := middle'.congr fun a member =>
    same a (by simp [perm.mem_iff.mpr member])
  have before' : Walk below' left front := before.congr fun a member => same a (by simp [member])
  have after' : Walk below' right back := after.congr fun a member => same a (by simp [member])
  have walk' := before'.append (.cons grouped.inside inside after')
  rwa [List.append_assoc,List.cons_append]

theorem Grouped.under (grouped : Grouped below' group members members')
    (walk : Walk below l seen) (once : seen.Nodup) (reached : parent ∈ seen)
    (known : below parent = some (left ++ members ++ right))
    (known' : below' parent = some (left ++ group :: right))
    (same : ∀ a ∈ seen, a ≠ parent → below' a = below a) :
    ∃ front mid mid' back, seen = front ++ mid ++ back ∧ Walk below members mid ∧
      Walk below members' mid' ∧ Walk below' l (front ++ group :: mid' ++ back) := by
  induction walk with
  | nil => cases reached
  | @cons a children rest inner after found inside later ih ih' =>
    obtain ⟨fresh,distinct⟩ := List.nodup_cons.mp once
    obtain ⟨distinct,distinct',apart⟩ := List.nodup_append.mp distinct
    obtain ⟨here,others⟩ := List.forall_mem_cons.mp same
    -- what does not hold the parent is walked as before
    have unchanged {b : α} (member : b ∈ inner ++ after) (other : b ≠ parent) :
        below' b = below b := others b member other
    by_cases top : a = parent
    · subst top
      obtain rfl := Option.some.inj (found.symm.trans known)
      have kept : ∀ b ∈ inner ++ after, below' b = below b := fun b member =>
        unchanged member fun equal => fresh (equal ▸ member)
      obtain ⟨front,mid,mid',back,rfl,middle,middle',walk'⟩ :=
        grouped.here inside fun b member => kept b (List.mem_append_left _ member)
      have after' := later.congr fun b member => kept b (List.mem_append_right _ member)
      refine ⟨a :: front,mid,mid',back ++ after,by simp,middle,middle',?_⟩
      simpa using Walk.cons known' walk' after'
    · have found' : below' a = some children := (here top).trans found
      rcases List.mem_append.mp ((List.mem_cons.mp reached).resolve_left (Ne.symm top)) with
        down | aside
      · obtain ⟨front,mid,mid',back,rfl,middle,middle',walk'⟩ := ih distinct down
          fun b member => unchanged (List.mem_append_left _ member)
        have after' := later.congr fun b member => unchanged (List.mem_append_right _ member)
          fun equal => apart _ down _ (equal ▸ member) rfl
        refine ⟨a :: front,mid,mid',back ++ after,by simp,middle,middle',?_⟩
        simpa using Walk.cons found' walk' after'
      · obtain ⟨front,mid,mid',back,rfl,middle,middle',walk'⟩ := ih' distinct' aside
          fun b member => unchanged (List.mem_append_right _ member)
        have inside' := inside.congr fun b member => unchanged (List.mem_append_left _ member)
          fun equal => apart _ (equal ▸ member) _ aside rfl
        refine ⟨a :: (inner ++ front),mid,mid',back,by simp,middle,middle',?_⟩
        simpa using Walk.cons found' inside' walk'

end Grouping

/-- Two listings of the same nodes show what the nodes hold in one order exactly when the nodes that
hold anything are listed in one order. -/
theorem flatMap_eq_iff {β : Type*} {holds : α → List β} (listed : l'.Perm l) (distinct : l.Nodup)
    (apart : (l.flatMap holds).Nodup) : l'.flatMap holds = l.flatMap holds ↔
      ∀ a b, holds a ≠ [] → holds b ≠ [] → [a,b].Sublist l → [a,b].Sublist l' := by
  have distinct' := listed.nodup_iff.mpr distinct
  constructor
  · intro same a b full full' before
    have pairs {k : List α} {a b : α} {x y : β} (before : [a,b].Sublist k) (first : x ∈ holds a)
        (second : y ∈ holds b) : [x,y].Sublist (k.flatMap holds) := by
      refine List.Sublist.trans ?_ (before.flatMap holds)
      simpa using (List.singleton_sublist.mpr first).append (List.singleton_sublist.mpr second)
    obtain ⟨x,inside⟩ := List.exists_mem_of_ne_nil _ full
    obtain ⟨y,inside'⟩ := List.exists_mem_of_ne_nil _ full'
    have member : a ∈ l' := listed.mem_iff.mpr (before.subset (by simp))
    have member' : b ∈ l' := listed.mem_iff.mpr (before.subset (by simp))
    have other := Canonical.before_ne distinct before
    refine (Canonical.before_or_after member member' other).resolve_right fun after => ?_
    have shown := pairs after inside' inside
    rw [same] at shown
    exact Canonical.not_before_and_after apart (pairs before inside inside') shown
  · intro agree
    -- the nodes that hold nothing show nothing
    let full (a : α) : Bool := !(holds a).isEmpty
    have shown (k : List α) : (k.filter full).flatMap holds = k.flatMap holds := by
      induction k with
      | nil => rfl
      | cons a rest ih =>
        by_cases empty : holds a = []
        · rw [List.filter_cons_of_neg (by simp [full,empty]),ih,List.flatMap_cons,empty,
            List.nil_append]
        · rw [List.filter_cons_of_pos (by simp [full,empty]),List.flatMap_cons,ih,
            List.flatMap_cons]
    have same : l.filter full = l'.filter full := by
      refine Canonical.eq_of_before (distinct.filter _) (listed.symm.filter _) fun a b before => ?_
      have full_a : full a = true := (List.mem_filter.mp (before.subset (by simp))).2
      have full_b : full b = true := (List.mem_filter.mp (before.subset (by simp))).2
      have kept := (agree a b (by simpa [full] using full_a) (by simpa [full] using full_b)
        (before.trans List.filter_sublist)).filter full
      rwa [List.filter_cons_of_pos full_a,List.filter_cons_of_pos full_b,List.filter_nil] at kept
    rw [← shown l',← same,shown]

end Forest
