import Mathlib

/-! Insertion-ordered dictionaries with distinct keys, kept as association lists.
Assignment to a present key keeps its place; a new key goes to the end. -/

universe u v

structure Dict (κ : Type u) (ν : Type v) where
  entries : List (κ × ν)
  distinct : (entries.map (·.1)).Nodup

namespace Dict

variable {κ : Type u} {ν : Type v}

def empty : Dict κ ν := ⟨[],by simp⟩

def keys (d : Dict κ ν) : List κ := d.entries.map (·.1)

@[simp] theorem keys_empty : (empty : Dict κ ν).keys = [] := rfl

variable [DecidableEq κ]

instance [DecidableEq ν] : DecidableEq (Dict κ ν) := fun a b =>
  decidable_of_iff (a.entries = b.entries) ⟨fun h => by cases a; cases b; simpa using h,
    fun h => h ▸ rfl⟩

def get? (d : Dict κ ν) (k : κ) : Option ν := (d.entries.find? (·.1 = k)).map (·.2)

private theorem keys_map (entries : List (κ × ν)) (k : κ) (v : ν) :
    (entries.map fun e => if e.1 = k then (k,v) else e).map (·.1) = entries.map (·.1) := by
  rw [List.map_map]
  refine List.map_congr_left fun e _ => ?_
  by_cases same : e.1 = k <;> simp [same]

/-- `d[k] = v`. -/
def set (d : Dict κ ν) (k : κ) (v : ν) : Dict κ ν :=
  if present : k ∈ d.keys then
    ⟨d.entries.map fun e => if e.1 = k then (k,v) else e,
      by rw [keys_map]; exact d.distinct⟩
  else
    ⟨d.entries ++ [(k,v)],by
      rw [List.map_append,List.nodup_append]
      refine ⟨d.distinct,by simp,?_⟩
      rintro a ha b hb rfl
      simp only [List.map_cons,List.map_nil,List.mem_singleton] at hb
      exact present (hb ▸ ha)⟩

/-- `d.pop(k, None)`. -/
def erase (d : Dict κ ν) (k : κ) : Dict κ ν :=
  ⟨d.entries.filter (·.1 ≠ k),d.distinct.sublist (List.filter_sublist.map _)⟩

/-- `dict(pairs)`: later pairs overwrite earlier ones. -/
def ofList (pairs : List (κ × ν)) : Dict κ ν :=
  pairs.foldl (fun d e => d.set e.1 e.2) empty

@[simp] theorem get?_empty (k : κ) : (empty : Dict κ ν).get? k = none := rfl

theorem get?_eq_some_iff (d : Dict κ ν) (k : κ) (v : ν) :
    d.get? k = some v ↔ (k,v) ∈ d.entries := by
  constructor
  · intro found
    obtain ⟨e,he,rfl⟩ := Option.map_eq_some_iff.mp found
    have key := List.find?_some he
    simp only [decide_eq_true_eq] at key
    exact key ▸ List.mem_of_find?_eq_some he
  · intro member
    obtain ⟨e,he⟩ : ∃ e, d.entries.find? (·.1 = k) = some e := by
      rw [← Option.isSome_iff_exists,List.find?_isSome]
      exact ⟨_,member,by simp⟩
    have key := List.find?_some he
    simp only [decide_eq_true_eq] at key
    have same : e = (k,v) :=
      List.inj_on_of_nodup_map d.distinct (List.mem_of_find?_eq_some he) member key
    simp [get?,he,same]

theorem mem_keys_iff (d : Dict κ ν) (k : κ) : k ∈ d.keys ↔ ∃ v, d.get? k = some v := by
  simp only [get?_eq_some_iff,keys,List.mem_map]
  constructor
  · rintro ⟨⟨k',v⟩,member,rfl⟩
    exact ⟨v,member⟩
  · rintro ⟨v,member⟩
    exact ⟨_,member,rfl⟩

theorem get?_eq_none_iff (d : Dict κ ν) (k : κ) : d.get? k = none ↔ k ∉ d.keys := by
  rw [mem_keys_iff,Option.eq_none_iff_forall_ne_some]
  simp

@[simp] theorem mem_keys_set (d : Dict κ ν) (k k' : κ) (v : ν) :
    k' ∈ (d.set k v).keys ↔ k' = k ∨ k' ∈ d.keys := by
  unfold set
  split
  · rename_i present
    simp only [keys,keys_map]
    constructor
    · exact Or.inr
    · rintro (rfl | old)
      · exact present
      · exact old
  · simp [keys,or_comm]

@[simp] theorem get?_set_self (d : Dict κ ν) (k : κ) (v : ν) : (d.set k v).get? k = some v := by
  rw [get?_eq_some_iff]
  unfold set
  split
  · rename_i present
    obtain ⟨e,he,rfl⟩ := List.mem_map.mp present
    exact List.mem_map.mpr ⟨e,he,by simp⟩
  · simp

theorem get?_set_ne (d : Dict κ ν) {k k' : κ} (v : ν) (ne : k' ≠ k) :
    (d.set k v).get? k' = d.get? k' := by
  refine Option.ext fun w => ?_
  simp only [get?_eq_some_iff]
  unfold set
  split
  · simp only [List.mem_map]
    constructor
    · rintro ⟨e,he,same⟩
      by_cases key : e.1 = k
      · rw [if_pos key] at same
        exact absurd (congrArg Prod.fst same).symm ne
      · rw [if_neg key] at same
        exact same ▸ he
    · intro member
      exact ⟨_,member,if_neg ne⟩
  · simp [ne]

@[grind =] theorem get?_set (d : Dict κ ν) (k k' : κ) (v : ν) :
    (d.set k v).get? k' = if k' = k then some v else d.get? k' := by
  by_cases same : k' = k
  · simp [same]
  · simp [same,get?_set_ne]

@[simp] theorem set_set (d : Dict κ ν) (k : κ) (v w : ν) : (d.set k v).set k w = d.set k w := by
  have present : k ∈ (d.set k v).keys := by simp
  rw [set,dif_pos present]
  by_cases old : k ∈ d.keys
  · simp only [set,dif_pos old,List.map_map,mk.injEq]
    refine List.map_congr_left fun e _ => ?_
    by_cases same : e.1 = k <;> simp [same]
  · simp only [set,dif_neg old,List.map_append,List.map_cons,List.map_nil,if_true,mk.injEq]
    congr 1
    refine (List.map_congr_left fun e he => if_neg ?_).trans (List.map_id _)
    rintro rfl
    exact old (List.mem_map_of_mem he)

theorem exists_get?_set {P : κ → ν → Prop} (d : Dict κ ν) (k : κ) (v : ν) :
    (∃ k' v', (d.set k v).get? k' = some v' ∧ P k' v') ↔
      P k v ∨ ∃ k' v', k' ≠ k ∧ d.get? k' = some v' ∧ P k' v' := by
  constructor
  · rintro ⟨k',v',found,holds⟩
    rw [get?_set] at found
    split at found
    · rename_i same
      exact .inl (same ▸ Option.some.inj found ▸ holds)
    · rename_i other
      exact .inr ⟨k',v',other,found,holds⟩
  · rintro (holds | ⟨k',v',other,found,holds⟩)
    · exact ⟨k,v,get?_set_self d k v,holds⟩
    · exact ⟨k',v',(get?_set_ne d v other).trans found,holds⟩

@[grind =] theorem get?_erase (d : Dict κ ν) (k k' : κ) :
    (d.erase k).get? k' = if k' = k then none else d.get? k' := by
  refine Option.ext fun w => ?_
  by_cases same : k' = k <;> simp [get?_eq_some_iff,erase,same]

@[simp] theorem mem_keys_erase (d : Dict κ ν) (k k' : κ) :
    k' ∈ (d.erase k).keys ↔ k' ∈ d.keys ∧ k' ≠ k := by
  simp only [mem_keys_iff,get?_erase]
  by_cases same : k' = k <;> simp [same]

theorem mem_entries_of_set {d : Dict κ ν} {k : κ} {v : ν} {e : κ × ν}
    (member : e ∈ (d.set k v).entries) : e = (k,v) ∨ e ∈ d.entries := by
  obtain ⟨k',v'⟩ := e
  rw [← get?_eq_some_iff,get?_set] at member
  split at member
  · rename_i same
    exact .inl (by rw [same,Option.some.inj member])
  · exact .inr ((get?_eq_some_iff d k' v').mp member)

private theorem mem_entries_of_foldl {e : κ × ν} (pairs : List (κ × ν)) (d : Dict κ ν)
    (member : e ∈ (pairs.foldl (fun d e => d.set e.1 e.2) d).entries) :
    e ∈ d.entries ∨ e ∈ pairs := by
  induction pairs generalizing d with
  | nil => exact .inl member
  | cons p ps ih =>
    rcases ih (d.set p.1 p.2) member with old | later
    · rcases mem_entries_of_set old with rfl | old
      · exact .inr (List.mem_cons_self ..)
      · exact .inl old
    · exact .inr (List.mem_cons_of_mem _ later)

theorem mem_entries_of_ofList {pairs : List (κ × ν)} {e : κ × ν}
    (member : e ∈ (ofList pairs).entries) : e ∈ pairs :=
  (mem_entries_of_foldl pairs empty member).resolve_left (by simp [empty])

theorem entries_set_fresh {d : Dict κ ν} {k : κ} (v : ν) (fresh : k ∉ d.keys) :
    (d.set k v).entries = d.entries ++ [(k,v)] := by
  rw [set,dif_neg fresh]

theorem entries_perm_erase {d : Dict κ ν} {k : κ} {v : ν} (found : d.get? k = some v) :
    d.entries.Perm ((k,v) :: (d.erase k).entries) := by
  refine (List.perm_ext_iff_of_nodup d.distinct.of_map ?_).mpr fun e => ?_
  · refine List.nodup_cons.mpr ⟨fun inside => ?_,(d.erase k).distinct.of_map⟩
    exact absurd rfl (of_decide_eq_true (List.mem_filter.mp inside).2)
  · rw [List.mem_cons]
    constructor
    · intro inside
      by_cases same : e.1 = k
      · refine .inl (Prod.ext same ?_)
        have held := (get?_eq_some_iff d e.1 e.2).mpr inside
        rw [same,found] at held
        exact (Option.some.inj held).symm
      · exact .inr (List.mem_filter.mpr ⟨inside,decide_eq_true same⟩)
    · rintro (rfl | inside)
      · exact (get?_eq_some_iff d k v).mp found
      · exact List.mem_of_mem_filter inside

theorem erase_absent {d : Dict κ ν} {k : κ} (absent : d.get? k = none) : d.erase k = d := by
  obtain ⟨entries,distinct⟩ := d
  rw [get?_eq_none_iff] at absent
  simp only [erase,mk.injEq,List.filter_eq_self,decide_eq_true_eq]
  intro e inside same
  exact absent (same ▸ List.mem_map_of_mem inside)

private theorem filter_assigned (entries : List (κ × ν)) (k : κ) (v : ν) :
    (entries.map fun e => if e.1 = k then (k,v) else e).filter (·.1 ≠ k) =
      entries.filter (·.1 ≠ k) := by
  induction entries with
  | nil => rfl
  | cons e rest ih =>
    by_cases same : e.1 = k
    · simpa [same] using ih
    · simpa [same] using ih

theorem erase_set (d : Dict κ ν) (k : κ) (v : ν) : (d.set k v).erase k = d.erase k := by
  unfold set erase
  split
  · simp only [filter_assigned]
  · simp

theorem perm_of_get? {d d' : Dict κ ν} (same : ∀ k, d.get? k = d'.get? k) :
    d.entries.Perm d'.entries := by
  refine (List.perm_ext_iff_of_nodup d.distinct.of_map d'.distinct.of_map).mpr ?_
  rintro ⟨k,v⟩
  rw [← get?_eq_some_iff,← get?_eq_some_iff,same k]

/-- A weight summed over the values. -/
def total (d : Dict κ ν) (weight : ν → Nat) : Nat := (d.entries.map fun e => weight e.2).sum

theorem total_erase (d : Dict κ ν) (weight : ν → Nat) (k : κ) :
    (d.erase k).total weight + ((d.get? k).map weight).getD 0 = d.total weight := by
  cases found : d.get? k with
  | none =>
    rw [erase_absent found]
    rfl
  | some v =>
    have permuted := (entries_perm_erase found).map fun e => weight e.2
    rw [total,total,permuted.sum_nat,List.map_cons,List.sum_cons,Nat.add_comm]
    rfl

theorem total_set (d : Dict κ ν) (weight : ν → Nat) (k : κ) (v : ν) :
    (d.set k v).total weight = (d.erase k).total weight + weight v := by
  rw [← total_erase (d.set k v) weight k,erase_set,get?_set_self]
  rfl

theorem total_keys (d : Dict κ ν) (weight : ν → Nat) :
    (d.keys.map fun k => ((d.get? k).map weight).getD 0).sum = d.total weight := by
  rw [keys,List.map_map,total]
  congr 1
  refine List.map_congr_left fun e inside => ?_
  rw [Function.comp_apply,(get?_eq_some_iff d e.1 e.2).mpr inside]
  rfl

theorem total_congr (d : Dict κ ν) {weight weight' : ν → Nat}
    (same : ∀ k v, d.get? k = some v → weight v = weight' v) :
    d.total weight = d.total weight' := by
  unfold total
  congr 1
  refine List.map_congr_left fun e inside => ?_
  exact same e.1 e.2 ((get?_eq_some_iff d e.1 e.2).mpr inside)

def filterKeys (d : Dict κ ν) (p : κ → Bool) : Dict κ ν :=
  ⟨d.entries.filter fun e => p e.1,d.distinct.sublist (List.filter_sublist.map _)⟩

@[grind =] theorem get?_filterKeys (d : Dict κ ν) (p : κ → Bool) (k : κ) :
    (d.filterKeys p).get? k = if p k then d.get? k else none := by
  refine Option.ext fun w => ?_
  by_cases passes : p k = true <;> simp [get?_eq_some_iff,filterKeys,passes]

def filterValues (d : Dict κ ν) (p : ν → Bool) : Dict κ ν :=
  ⟨d.entries.filter fun e => p e.2,d.distinct.sublist (List.filter_sublist.map _)⟩

theorem get?_filterValues (d : Dict κ ν) (p : ν → Bool) (k : κ) (v : ν) :
    (d.filterValues p).get? k = some v ↔ d.get? k = some v ∧ p v = true := by
  simp [get?_eq_some_iff,filterValues]

def mapWithKey {ω : Type*} (d : Dict κ ν) (f : κ → ν → ω) : Dict κ ω :=
  ⟨d.entries.map fun e => (e.1,f e.1 e.2),by
    rw [List.map_map]
    exact d.distinct⟩

@[grind =] theorem get?_mapWithKey {ω : Type*} (d : Dict κ ν) (f : κ → ν → ω) (k : κ) :
    (d.mapWithKey f).get? k = (d.get? k).map (f k) := by
  refine Option.ext fun w => ?_
  rw [get?_eq_some_iff,Option.map_eq_some_iff]
  constructor
  · intro member
    obtain ⟨e,inside,same⟩ := List.mem_map.mp member
    obtain ⟨rfl,rfl⟩ := Prod.mk.inj same
    exact ⟨e.2,(get?_eq_some_iff d e.1 e.2).mpr inside,rfl⟩
  · rintro ⟨v,found,rfl⟩
    exact List.mem_map.mpr ⟨(k,v),(get?_eq_some_iff d k v).mp found,rfl⟩

def slice {ι : Type*} [DecidableEq ι] (d : Dict (ι × κ) ν) (i : ι) : Dict κ ν :=
  ⟨(d.entries.filter fun e => e.1.1 = i).map fun e => (e.1.2,e.2),by
    rw [List.map_map]
    refine (List.nodup_map_iff_inj_on (d.distinct.of_map _ |>.filter _)).mpr ?_
    intro e he e' he' same
    obtain ⟨inside,key⟩ := List.mem_filter.mp he
    obtain ⟨inside',key'⟩ := List.mem_filter.mp he'
    refine List.inj_on_of_nodup_map d.distinct inside inside' (Prod.ext ?_ same)
    rw [of_decide_eq_true key,of_decide_eq_true key']⟩

@[grind =] theorem get?_slice {ι : Type*} [DecidableEq ι] (d : Dict (ι × κ) ν) (i : ι) (k : κ) :
    (d.slice i).get? k = d.get? (i,k) := by
  refine Option.ext fun w => ?_
  rw [get?_eq_some_iff,get?_eq_some_iff]
  constructor
  · intro member
    obtain ⟨⟨⟨j,k'⟩,v⟩,inside,same⟩ := List.mem_map.mp member
    obtain ⟨rfl,rfl⟩ := Prod.mk.inj same
    obtain ⟨held,key⟩ := List.mem_filter.mp inside
    obtain rfl : j = i := of_decide_eq_true key
    exact held
  · intro member
    exact List.mem_map.mpr ⟨_,List.mem_filter.mpr ⟨member,decide_eq_true rfl⟩,rfl⟩

def setAll {ι : Type*} [DecidableEq ι] (t : Dict (ι × κ) ν) (i : ι) (d : Dict κ ν) :
    Dict (ι × κ) ν :=
  d.entries.foldl (fun t e => t.set (i,e.1) e.2) t

private theorem get?_foldl_set {ι : Type*} [DecidableEq ι] (i : ι) (entries : List (κ × ν))
    (distinct : (entries.map (·.1)).Nodup) (t : Dict (ι × κ) ν) (j : ι) (k : κ) :
    (entries.foldl (fun t e => t.set (i,e.1) e.2) t).get? (j,k) =
      if j = i then (entries.find? (·.1 = k)).map (·.2) |>.or (t.get? (j,k))
      else t.get? (j,k) := by
  induction entries generalizing t with
  | nil => by_cases same : j = i <;> simp [same]
  | cons e rest ih =>
    obtain ⟨fresh,others⟩ := List.nodup_cons.mp distinct
    rw [List.foldl_cons,ih others,get?_set,List.find?_cons]
    by_cases same : j = i
    · subst same
      by_cases key : e.1 = k
      · have gone : rest.find? (·.1 = k) = none := by
          refine List.find?_eq_none.mpr fun e' inside match' => fresh ?_
          exact List.mem_map.mpr ⟨e',inside,(of_decide_eq_true match').trans key.symm⟩
        simp [key,gone]
      · simp [key,Ne.symm key]
    · simp [same]

@[grind =] theorem get?_setAll {ι : Type*} [DecidableEq ι] (t : Dict (ι × κ) ν) (i j : ι)
    (d : Dict κ ν) (k : κ) : (t.setAll i d).get? (j,k) =
      if j = i then (d.get? k).or (t.get? (j,k)) else t.get? (j,k) :=
  get?_foldl_set i d.entries d.distinct t j k

theorem get?_ofList {pairs : List (κ × ν)} (distinct : (pairs.map (·.1)).Nodup) (k : κ) (v : ν) :
    (ofList pairs).get? k = some v ↔ (k,v) ∈ pairs := by
  constructor
  · intro found
    exact mem_entries_of_ofList ((get?_eq_some_iff _ k v).mp found)
  · intro member
    unfold ofList
    suffices general : ∀ d : Dict κ ν, (pairs.foldl (fun d e => d.set e.1 e.2) d).get? k = some v
      from general empty
    induction pairs with
    | nil => cases member
    | cons e rest ih =>
      intro d
      obtain ⟨fresh,others⟩ := List.nodup_cons.mp distinct
      rw [List.foldl_cons]
      rcases List.mem_cons.mp member with rfl | later
      · -- no later pair has the key, so the assignment stands
        have stands (t : Dict κ ν) (held : t.get? k = some v) :
            (rest.foldl (fun d e => d.set e.1 e.2) t).get? k = some v := by
          clear ih member distinct others
          induction rest generalizing t with
          | nil => exact held
          | cons e' rest' step =>
            have other : k ≠ e'.1 := fun same => fresh (same ▸ List.mem_cons_self)
            refine step (fun inside => fresh (List.mem_cons_of_mem _ inside)) _ ?_
            rw [get?_set_ne _ _ other]
            exact held
        exact stands _ (get?_set_self _ _ _)
      · exact ih others later _

theorem entries_ofList {pairs : List (κ × ν)} (distinct : (pairs.map (·.1)).Nodup) :
    (ofList pairs).entries = pairs := by
  unfold ofList
  suffices general : ∀ d : Dict κ ν, (∀ e ∈ pairs, e.1 ∉ d.keys) →
      (pairs.foldl (fun d e => d.set e.1 e.2) d).entries = d.entries ++ pairs by
    simpa [empty] using general empty (by simp [empty,keys])
  induction pairs with
  | nil => simp
  | cons e rest ih =>
    intro d fresh
    obtain ⟨first,others⟩ := List.nodup_cons.mp distinct
    obtain ⟨new,later⟩ := List.forall_mem_cons.mp fresh
    have appended : (d.set e.1 e.2).entries = d.entries ++ [e] := entries_set_fresh e.2 new
    rw [List.foldl_cons,ih others,appended,List.append_assoc,List.singleton_append]
    intro f inside
    rw [keys,appended,List.map_append,List.mem_append,List.map_cons,List.map_nil,
      List.mem_singleton]
    rintro (old | same)
    · exact later f inside old
    · exact first (List.mem_map.mpr ⟨f,inside,same⟩)

theorem get?_ofList_perm {pairs pairs' : List (κ × ν)} (distinct : (pairs.map (·.1)).Nodup)
    (listed : pairs.Perm pairs') (k : κ) : (ofList pairs).get? k = (ofList pairs').get? k := by
  apply Option.ext
  intro v
  rw [get?_ofList distinct,get?_ofList ((listed.map _).nodup_iff.mp distinct),listed.mem_iff]

/-- `{**d, **e}` -/
def update (d e : Dict κ ν) : Dict κ ν := e.entries.foldl (fun d p => d.set p.1 p.2) d

private theorem get?_foldl_update (entries : List (κ × ν)) (distinct : (entries.map (·.1)).Nodup)
    (d : Dict κ ν) (k : κ) : (entries.foldl (fun d p => d.set p.1 p.2) d).get? k =
      ((entries.find? (·.1 = k)).map (·.2)).or (d.get? k) := by
  induction entries generalizing d with
  | nil => simp
  | cons p rest ih =>
    obtain ⟨fresh,others⟩ := List.nodup_cons.mp distinct
    rw [List.foldl_cons,ih others,get?_set,List.find?_cons]
    by_cases key : p.1 = k
    · have gone : rest.find? (·.1 = k) = none := by
        refine List.find?_eq_none.mpr fun q inside match' => fresh ?_
        exact List.mem_map.mpr ⟨q,inside,(of_decide_eq_true match').trans key.symm⟩
      simp [key,gone]
    · simp [key,Ne.symm key]

@[grind =] theorem get?_update (d e : Dict κ ν) (k : κ) :
    (d.update e).get? k = (e.get? k).or (d.get? k) :=
  get?_foldl_update e.entries e.distinct d k

@[simp] theorem mem_keys_update (d e : Dict κ ν) (k : κ) :
    k ∈ (d.update e).keys ↔ k ∈ e.keys ∨ k ∈ d.keys := by
  simp only [mem_keys_iff,get?_update]
  cases e.get? k with
  | none => simp
  | some v => simp

end Dict
