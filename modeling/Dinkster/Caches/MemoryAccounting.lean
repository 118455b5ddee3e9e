import Dinkster.Caches.Memory

/-! What the memory cache's footprint counts, and what evictions do to it: every retained payload
counts once with its largest declared cost, so whatever shrinks the entries shrinks the footprint,
and an oversized cache always has a victim. -/
namespace Dinkster.Caches

variable {Obj : Type} {device : String}

theorem mem_iterValueTrees {values : List (Value Obj)} {e : Envelope Obj} :
    e ∈ iterValueTrees values ↔ ∃ v ∈ values, e ∈ iterValueTree v := by
  induction values with
  | nil => simp [iterValueTrees]
  | cons v values ih => rw [iterValueTrees,List.mem_append,ih,List.exists_mem_cons_iff]

theorem iterValueTrees_append (values more : List (Value Obj)) :
    iterValueTrees (values ++ more) = iterValueTrees values ++ iterValueTrees more := by
  induction values with
  | nil => rfl
  | cons v values ih => rw [List.cons_append,iterValueTrees,iterValueTrees,ih,List.append_assoc]

theorem charges_append (values more : List (Value Obj)) :
    charges device (values ++ more) = charges device values ++ charges device more := by
  rw [charges,iterValueTrees_append,List.map_append]
  rfl

theorem charges_subset {values more : List (Value Obj)} (sub : values ⊆ more) :
    charges device values ⊆ charges device more := by
  refine List.map_subset _ fun e inside => ?_
  obtain ⟨v,held,below⟩ := mem_iterValueTrees.mp inside
  exact mem_iterValueTrees.mpr ⟨v,sub held,below⟩

theorem valuesCost_eq (values : List (Value Obj)) :
    valuesCost values device = Peaks.total (charges device values) := Peaks.total_charged _

namespace MemoryLRUCache

def Within (small large : Dict String (Entry Obj)) : Prop :=
  ∀ k e, small.get? k = some e → large.get? k = some e

variable {small middle large t : Dict String (Entry Obj)} {k : String} {e : Entry Obj}

theorem Within.refl (t : Dict String (Entry Obj)) : Within t t := fun _ _ held => held

theorem Within.trans (first : Within small middle) (second : Within middle large) :
    Within small large := fun k e held => second k e (first k e held)

theorem within_empty : Within Dict.empty large := nofun

theorem within_erase : Within (t.erase k) t := by
  intro k' e held
  rw [Dict.get?_erase] at held
  split at held
  · cases held
  · exact held

theorem Within.erase (within : Within small large) (k : String) :
    Within (small.erase k) (large.erase k) := by
  intro k' e held
  rw [Dict.get?_erase] at held ⊢
  split at held
  · cases held
  · rename_i other
    rw [if_neg other]
    exact within k' e held

theorem Within.insert (within : Within (small.erase k) large) (present : large.get? k = some e) :
    Within ((small.erase k).set k e) large := by
  intro k' e' held
  rw [Dict.get?_set] at held
  split at held
  · rename_i here
    rw [here,← Option.some.inj held]
    exact present
  · exact within k' e' held

theorem get?_touched (present : t.get? k = some e) (k' : String) :
    ((t.erase k).set k e).get? k' = t.get? k' := by
  rw [Dict.get?_set]
  split
  · rename_i here
    rw [here,present]
  · rename_i other
    rw [Dict.get?_erase,if_neg other]

theorem Within.subset (within : Within small large) : small.entries ⊆ large.entries := by
  intro e inside
  exact (Dict.get?_eq_some_iff _ _ _).mp
    (within e.1 e.2 ((Dict.get?_eq_some_iff _ _ _).mpr inside))

theorem Within.length (within : Within small large) :
    small.entries.length ≤ large.entries.length :=
  (small.distinct.of_map.subperm within.subset).length_le

theorem Within.footprint (within : Within small large) :
    footprintOf small device ≤ footprintOf large device := by
  rw [footprintOf,footprintOf,valuesCost_eq,valuesCost_eq]
  refine Peaks.total_mono (charges_subset fun v held => ?_)
  obtain ⟨e,inside,below⟩ := List.mem_flatMap.mp held
  exact List.mem_flatMap.mpr ⟨e,within.subset inside,below⟩

theorem exists_costed (positive : 0 < footprintOf t device) :
    ∃ e ∈ t.entries, 0 < entryCost e.2 device := by
  rw [footprintOf,valuesCost_eq] at positive
  obtain ⟨w,charged,costly⟩ := Peaks.exists_of_total_pos positive
  obtain ⟨envelope,below,rfl⟩ := List.mem_map.mp charged
  obtain ⟨v,held,inside⟩ := mem_iterValueTrees.mp below
  obtain ⟨e,listed,among⟩ := List.mem_flatMap.mp held
  refine ⟨e,listed,?_⟩
  rw [entryCost,valuesCost_eq]
  refine Peaks.total_pos (w := (envelope.payload,envelope.declared device)) ?_ costly
  exact List.mem_map.mpr ⟨envelope,mem_iterValueTrees.mpr ⟨v,among,inside⟩,rfl⟩

def Unshared (t : Dict String (Entry Obj)) (device : String) : Prop :=
  t.entries.Pairwise fun a b => ∀ w ∈ charges device a.2.values, ∀ w' ∈ charges device b.2.values,
    w.1 = w'.1 → w.2 = 0 ∨ w'.2 = 0

private theorem listed_eq {entries : List (String × Entry Obj)}
    (apart : entries.Pairwise fun a b => ∀ w ∈ charges device a.2.values,
      ∀ w' ∈ charges device b.2.values, w.1 = w'.1 → w.2 = 0 ∨ w'.2 = 0) :
    valuesCost (entries.flatMap fun e => e.2.values) device =
      (entries.map fun e => entryCost e.2 device).sum := by
  induction entries with
  | nil => rfl
  | cons e entries ih =>
    obtain ⟨first,rest⟩ := List.pairwise_cons.mp apart
    rw [List.flatMap_cons,List.map_cons,List.sum_cons,← ih rest,valuesCost_eq,charges_append,
      Peaks.total_append,← valuesCost_eq,← valuesCost_eq]
    · rfl
    · intro w charged w' charged'
      obtain ⟨envelope,below,rfl⟩ := List.mem_map.mp charged'
      obtain ⟨v,held,inside⟩ := mem_iterValueTrees.mp below
      obtain ⟨other,listed,among⟩ := List.mem_flatMap.mp held
      refine first other listed w charged _ (List.mem_map.mpr ⟨envelope,?_,rfl⟩)
      exact mem_iterValueTrees.mpr ⟨v,among,inside⟩

theorem footprintOf_eq_total (unshared : Unshared t device) :
    footprintOf t device = t.total fun e => entryCost e device := listed_eq unshared

structure Losses (before after : Dict String (Entry Obj)) (new : List (Departure Obj)) : Prop where
  within : Within after before
  gone : ∀ k e, before.get? k = some e → after.get? k = some e ∨ .evicted k e ∈ new
  spilled : ∀ d ∈ new, ∃ k e, d = .evicted k e ∧ before.get? k = some e

theorem Losses.refl (t : Dict String (Entry Obj)) : Losses t t [] :=
  ⟨.refl t,fun _ _ held => .inl held,fun _ inside => absurd inside List.not_mem_nil⟩

theorem Losses.trans {new more : List (Departure Obj)} (first : Losses large middle new)
    (second : Losses middle small more) : Losses large small (new ++ more) := by
  refine ⟨second.within.trans first.within,fun k e held => ?_,fun d inside => ?_⟩
  · rcases first.gone k e held with kept | left
    · exact (second.gone k e kept).imp_right (List.mem_append_right _)
    · exact .inr (List.mem_append_left _ left)
  · rcases List.mem_append.mp inside with early | late
    · exact first.spilled d early
    · obtain ⟨k,e,rfl,held⟩ := second.spilled d late
      exact ⟨k,e,rfl,first.within k e held⟩

variable {c c' : MemoryLRUCache Obj} {a : Admission Obj} {previous : Option (Entry Obj)}
  {call limit : Nat} {loop : Excess} {spilled : Entry Obj} {victim : String}

theorem evict_spec (c : MemoryLRUCache Obj) (victim : String) (spilled : Entry Obj) :
    ∃ t clean new, c.evict victim spilled =
      { c with entries := t, clean := clean, departed := c.departed ++ new } ∧
      Losses c.entries t new := by
  unfold evict
  cases found : c.entries.get? victim with
  | none => exact ⟨c.entries,c.clean,[],by rw [List.append_nil],.refl _⟩
  | some e =>
    dsimp only
    split
    · refine ⟨_,_,_,rfl,within_erase,fun k e' held => ?_,fun d inside => ?_⟩
      · change (c.entries.erase victim).get? k = some e' ∨ _
        rw [Dict.get?_erase]
        split
        · rename_i here
          obtain rfl := Option.some.inj (found.symm.trans (here ▸ held))
          exact .inr (List.mem_singleton.mpr (by rw [here]))
        · exact .inl held
      · exact ⟨victim,e,List.mem_singleton.mp inside,found⟩
    · exact ⟨c.entries,c.clean,[],by rw [List.append_nil],.refl _⟩

theorem evict_shrinks (found : c.entries.get? victim = some spilled) :
    (c.evict victim spilled).entries.entries.length < c.entries.entries.length := by
  unfold evict
  rw [found]
  dsimp only
  rw [if_pos rfl,(Dict.entries_perm_erase found).length_eq,List.length_cons]
  exact Nat.lt_succ_self _

/-- Without its lock-free readers the cache may hold at most this much. -/
def Bounded (c : MemoryLRUCache Obj) (t : Dict String (Entry Obj)) : Prop :=
  footprintOf t "ram" ≤ c.maxBytes ∧ t.entries.length ≤ c.maxEntries

theorem Bounded.within (bounded : Bounded c large) (within : Within small large) :
    Bounded c small := ⟨within.footprint.trans bounded.1,within.length.trans bounded.2⟩

theorem round_cases (c : MemoryLRUCache Obj) (ready : loop = .count → c.footprint "ram" ≤ c.maxBytes) :
    (c.round loop = .done ∧ Bounded c c.entries) ∨
      ∃ loop' k e, c.round loop = .victim loop' k e ∧ c.entries.get? k = some e ∧
        (loop' = .count → c.footprint "ram" ≤ c.maxBytes) := by
  unfold round
  split
  · rename_i excess
    obtain ⟨e,inside,costly⟩ := exists_costed (pos_of_gt excess.2)
    cases found : c.entries.entries.find? fun e => 0 < entryCost e.2 "ram" with
    | none => exact absurd (List.find?_eq_none.mp found e inside) (by simpa using costly.ne')
    | some first =>
      refine .inr ⟨_,_,_,rfl,?_,nofun⟩
      exact (Dict.get?_eq_some_iff _ _ _).mpr (List.mem_of_find?_eq_some found)
  · rename_i fits
    have light : c.footprint "ram" ≤ c.maxBytes := by
      cases loop with
      | bytes => exact Nat.le_of_not_lt fun heavy => fits ⟨rfl,heavy⟩
      | count => exact ready rfl
    split
    · rename_i crowded
      cases first : c.entries.entries.head? with
      | none =>
        rw [List.head?_eq_none_iff.mp first] at crowded
        exact absurd crowded (Nat.not_lt_zero _)
      | some e =>
        refine .inr ⟨_,_,_,rfl,?_,fun _ => light⟩
        exact (Dict.get?_eq_some_iff _ _ _).mpr (List.mem_of_mem_head? first)
    · rename_i few
      exact .inl ⟨rfl,light,Nat.le_of_not_lt few⟩

theorem evictAll_spec (enough : c.entries.entries.length < limit)
    (ready : loop = .count → c.footprint "ram" ≤ c.maxBytes) :
    ∃ t clean new, Losses c.entries t new ∧
      let left := { c with entries := t, clean := clean, departed := c.departed ++ new }
      (evictAll call a previous limit c loop = left.finish call .returned ∧ Bounded c t) ∨
      ∃ loop' k e, evictAll call a previous limit c loop =
          { left with holder := some (call,.evicting a previous loop' k e) } ∧
        t.get? k = some e ∧ (loop' = .count → footprintOf t "ram" ≤ c.maxBytes) := by
  induction limit generalizing c loop with
  | zero => exact absurd enough (Nat.not_lt_zero _)
  | succ limit ih =>
    unfold evictAll
    rcases round_cases c ready with ⟨settled,bounded⟩ | ⟨loop',k,e,chosen,found,ready'⟩
    · rw [settled]
      exact ⟨c.entries,c.clean,[],.refl _,.inl ⟨by rw [List.append_nil],bounded⟩⟩
    · rw [chosen]
      dsimp only
      split
      · exact ⟨c.entries,c.clean,[],.refl _,.inr ⟨loop',k,e,by rw [List.append_nil],found,ready'⟩⟩
      · obtain ⟨t,clean,new,evicted,losses⟩ := evict_spec c k e
        have shorter := evict_shrinks found
        rw [evicted] at shorter ⊢
        obtain ⟨t',clean',more,losses',outcome⟩ := ih (by dsimp only at shorter ⊢; omega)
          (c := { c with entries := t, clean := clean, departed := c.departed ++ new })
          fun last => losses.within.footprint.trans (ready' last)
        refine ⟨t',clean',new ++ more,losses.trans losses',?_⟩
        rw [← List.append_assoc]
        exact outcome

theorem evictOn_spec (c : MemoryLRUCache Obj) (call : Nat) (a : Admission Obj)
    (previous : Option (Entry Obj)) (ready : loop = .count → c.footprint "ram" ≤ c.maxBytes) :
    ∃ t clean new, Losses c.entries t new ∧
      let left := { c with entries := t, clean := clean, departed := c.departed ++ new }
      (c.evictOn call a previous loop = left.finish call .returned ∧ Bounded c t) ∨
      ∃ loop' k e, c.evictOn call a previous loop =
          { left with holder := some (call,.evicting a previous loop' k e) } ∧
        t.get? k = some e ∧ (loop' = .count → footprintOf t "ram" ≤ c.maxBytes) :=
  evictAll_spec (Nat.lt_succ_self _) ready

theorem shedOn_spec (c : MemoryLRUCache Obj) (call : Nat) (pressure : PressureSignal)
    (freed : Nat) (keys : List String) :
    ∃ t clean new sum, Losses c.entries t new ∧
      sum + footprintOf t pressure.device = freed + c.footprint pressure.device ∧
      let left := { c with entries := t, clean := clean, departed := c.departed ++ new }
      (shedOn call pressure c freed keys = left.finish call (.freed sum)) ∨
      ∃ k e rest, shedOn call pressure c freed keys =
        { left with holder := some (call,.shedding pressure sum k e rest) } := by
  have here : c = { c with
      entries := c.entries, clean := c.clean, departed := c.departed ++ [] } := by
    rw [List.append_nil]
  induction keys generalizing c freed with
  | nil => exact ⟨_,_,[],freed,.refl _,rfl,.inl (congrArg (finish · call _) here)⟩
  | cons key rest ih =>
    unfold shedOn
    split
    · exact ⟨_,_,[],freed,.refl _,rfl,.inl (congrArg (finish · call _) here)⟩
    · split
      · exact ih c freed here
      · rename_i e found
        split
        · split
          · exact ⟨c.entries,c.clean,[],freed,.refl _,rfl,.inr ⟨key,e,rest,by rw [List.append_nil]⟩⟩
          · obtain ⟨t,clean,new,evicted,losses⟩ := evict_spec c key e
            dsimp only
            rw [evicted]
            obtain ⟨t',clean',more,sum,losses',balance,outcome⟩ := ih
              { c with entries := t, clean := clean, departed := c.departed ++ new }
              (freed + (c.footprint pressure.device - footprintOf t pressure.device))
              (by rw [List.append_nil])
            refine ⟨t',clean',new ++ more,sum,losses.trans losses',?_,?_⟩
            · have smaller : footprintOf t pressure.device ≤ c.footprint pressure.device :=
                losses.within.footprint
              have added : sum + footprintOf t' pressure.device =
                  freed + (c.footprint pressure.device - footprintOf t pressure.device) +
                    footprintOf t pressure.device := balance
              omega
            · rw [← List.append_assoc]
              exact outcome
        · exact ih c freed here

end MemoryLRUCache
end Dinkster.Caches
