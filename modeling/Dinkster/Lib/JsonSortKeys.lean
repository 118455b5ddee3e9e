import Dinkster.Lib.Canonical
import Dinkster.Lib.JsonRead
import Mathlib.Data.String.Basic

/-! `json.dumps` with sorted keys. Objects that list the same members in another order have the
same text, and from the text every member is found again. -/
namespace Json
open Canonical Object

mutual

def sortKeys : Value → Value
  | .arr vs => .arr (sortItems vs)
  | .obj ms => .obj (sortedBy (·.1) (sortMembers ms))
  | .null => .null
  | .bool b => .bool b
  | .int n => .int n
  | .float t => .float t
  | .str s => .str s

def sortItems : List Value → List Value
  | [] => []
  | v :: vs => sortKeys v :: sortItems vs

def sortMembers : Object → Object
  | [] => []
  | (k,v) :: ms => (k,sortKeys v) :: sortMembers ms

end

def sortedText (v : Value) : List Char := text .compact (sortKeys v)

theorem sortItems_eq (vs : List Value) : sortItems vs = vs.map sortKeys := by
  induction vs with
  | nil => rfl
  | cons v vs ih => rw [sortItems,ih,List.map_cons]

theorem sortMembers_eq (ms : Object) : sortMembers ms = ms.map fun m => (m.1,sortKeys m.2) := by
  induction ms with
  | nil => rfl
  | cons m ms ih => rw [sortMembers,ih,List.map_cons]

theorem text_injective {style : Style} {v v' : Value} (same : text style v = text style v') :
    v = v' :=
  dumps_injective style (congrArg String.ofList same)

theorem sortedText_injective {v v' : Value} (same : sortedText v = sortedText v') :
    sortKeys v = sortKeys v' :=
  text_injective same

private theorem get?_sortMembers (ms : Object) (key : String) :
    get? (sortMembers ms) key = (get? ms key).map sortKeys := by
  induction ms with
  | nil => rfl
  | cons m ms ih =>
    obtain ⟨k,v⟩ := m
    rw [sortMembers,get?_cons,get?_cons,ih]
    split <;> rfl

private theorem names_sortMembers (ms : Object) : (sortMembers ms).map (·.1) = ms.map (·.1) := by
  rw [sortMembers_eq,List.map_map]
  rfl

theorem member_of_sorted {ms ms' : Object} (distinct : (ms.map (·.1)).Nodup)
    (distinct' : (ms'.map (·.1)).Nodup) (same : sortKeys (.obj ms) = sortKeys (.obj ms'))
    (key : String) : (get? ms key).map sortKeys = (get? ms' key).map sortKeys := by
  have listed : (sortMembers ms).Perm (sortMembers ms') := by
    have sorted : sortedBy (·.1) (sortMembers ms) = sortedBy (·.1) (sortMembers ms') := by
      simpa only [sortKeys,Value.obj.injEq] using same
    have behind : (sortedBy (·.1) (sortMembers ms)).Perm (sortMembers ms') :=
      sorted ▸ sortedBy_perm (·.1) (sortMembers ms')
    exact (sortedBy_perm (·.1) (sortMembers ms)).symm.trans behind
  rw [← get?_sortMembers,← get?_sortMembers]
  apply Option.ext
  intro v
  rw [get?_eq_some_iff (by rwa [names_sortMembers]),get?_eq_some_iff (by rwa [names_sortMembers]),
    listed.mem_iff]

theorem sortKeys_arr_inj {vs vs' : List Value} (same : sortKeys (.arr vs) = sortKeys (.arr vs')) :
    vs.map sortKeys = vs'.map sortKeys := by
  simpa only [sortKeys,Value.arr.injEq,sortItems_eq] using same

theorem get?_sorted {ms : Object} (distinct : (ms.map (·.1)).Nodup) (key : String) :
    get? (sortedBy (·.1) (sortMembers ms)) key = (get? ms key).map sortKeys := by
  have listed := sortedBy_perm (fun m : String × Value => m.1) (sortMembers ms)
  have names : ((sortMembers ms).map (·.1)).Nodup := by rwa [names_sortMembers]
  rw [← get?_sortMembers]
  apply Option.ext
  intro v
  rw [get?_eq_some_iff ((listed.map _).nodup_iff.mpr names),get?_eq_some_iff names,listed.mem_iff]

theorem names_sorted (ms : Object) :
    ((sortedBy (·.1) (sortMembers ms)).map (·.1)).Perm (ms.map (·.1)) := by
  have listed := (sortedBy_perm (fun m : String × Value => m.1) (sortMembers ms)).map (·.1)
  rwa [names_sortMembers] at listed

mutual

@[simp] theorem sortKeys_sortKeys : ∀ v : Value, sortKeys (sortKeys v) = sortKeys v
  | .null | .bool _ | .int _ | .str _ | .float _ => rfl
  | .arr vs => by rw [sortKeys,sortKeys,sortItems_sortItems vs]
  | .obj ms => by
    have values : ∀ m ∈ sortedBy (·.1) (sortMembers ms), (m.1,sortKeys m.2) = m := by
      intro m inside
      exact sortMembers_fixed ms m ((mem_sortedBy _ _ m).mp inside)
    have fixed : sortMembers (sortedBy (·.1) (sortMembers ms)) =
        sortedBy (·.1) (sortMembers ms) := by
      rw [sortMembers_eq]
      exact (List.map_congr_left values).trans (List.map_id' _)
    rw [sortKeys,sortKeys,fixed,sortedBy_sortedBy]

theorem sortItems_sortItems : ∀ vs : List Value, sortItems (sortItems vs) = sortItems vs
  | [] => rfl
  | v :: vs => by rw [sortItems,sortItems,sortKeys_sortKeys v,sortItems_sortItems vs]

theorem sortMembers_fixed : ∀ ms : Object, ∀ m ∈ sortMembers ms, (m.1,sortKeys m.2) = m
  | [],_,inside => nomatch inside
  | (k,v) :: ms,m,inside => by
    rw [sortMembers] at inside
    rcases List.mem_cons.mp inside with rfl | later
    · rw [sortKeys_sortKeys v]
    · exact sortMembers_fixed ms m later

end

theorem sortKeys_strict {ms : Object} (strict : ms.Pairwise fun a b => a.1 < b.1) :
    sortKeys (.obj ms) = .obj (ms.map fun m => (m.1,sortKeys m.2)) := by
  rw [sortKeys,sortMembers_eq,sortedBy_of_strict]
  exact List.pairwise_map.mpr strict

theorem distinct_of_plain {ms : Object} (plain : Hooks.plain.pairs ms = some ms) :
    (ms.map (·.1)).Nodup := by
  have same : (Dict.ofList ms).entries = ms := Option.some.inj plain
  exact same ▸ (Dict.ofList ms).distinct

mutual

theorem readable_sortKeys : ∀ {v : Value}, v.Readable .plain → (sortKeys v).Readable .plain
  | .null,readable | .bool _,readable | .int _,readable | .str _,readable
  | .float _,readable => readable
  | .arr vs,readable => by
    rw [Value.Readable] at readable
    rw [sortKeys,Value.Readable]
    exact readable_sortItems readable
  | .obj ms,readable => by
    rw [Value.Readable] at readable
    rw [sortKeys,Value.Readable]
    have members := membersReadable_iff.mp (readable_sortMembers readable.2)
    refine ⟨plain_pairs ((names_sorted ms).nodup_iff.mpr (distinct_of_plain readable.1)),?_⟩
    exact membersReadable_iff.mpr fun m inside => members m ((mem_sortedBy _ _ m).mp inside)

theorem readable_sortItems : ∀ {vs : List Value}, ItemsReadable .plain vs →
    ItemsReadable .plain (sortItems vs)
  | [],_ => trivial
  | _ :: _,readable => ⟨readable_sortKeys readable.1,readable_sortItems readable.2⟩

theorem readable_sortMembers : ∀ {ms : Object}, MembersReadable .plain ms →
    MembersReadable .plain (sortMembers ms)
  | [],_ => trivial
  | (_,_) :: _,readable => ⟨readable_sortKeys readable.1,readable_sortMembers readable.2⟩

end

theorem loads_sortedText {v : Value} (readable : v.Readable .plain) :
    loads .plain (sortedText v) = some (sortKeys v) :=
  loads_compact (readable_sortKeys readable)

def present (members : List (String × Option Value)) : Object :=
  members.filterMap fun m => m.2.map (m.1,·)

theorem names_present (members : List (String × Option Value)) :
    ((present members).map (·.1)).Sublist (members.map (·.1)) := by
  induction members with
  | nil => exact .refl _
  | cons m rest ih =>
    obtain ⟨name,value⟩ := m
    cases value with
    | none => simpa [present] using ih.cons name
    | some v => simpa [present] using ih.cons_cons name

theorem get?_present {members : List (String × Option Value)}
    (distinct : (members.map (·.1)).Nodup) (key : String) :
    get? (present members) key = (members.lookup key).join := by
  induction members with
  | nil => rfl
  | cons m rest ih =>
    obtain ⟨name,value⟩ := m
    obtain ⟨fresh,others⟩ := List.nodup_cons.mp distinct
    by_cases same : key = name
    · subst same
      cases value with
      | none =>
        have absent : get? (present rest) key = none := by
          rw [← Option.not_isSome_iff_eq_none,get?_isSome_iff]
          exact fun inside => fresh ((names_present rest).subset inside)
        simpa [present,List.lookup_cons] using absent
      | some v => simp [present,get?_cons]
    · have other : (key == name) = false := beq_eq_false_iff_ne.mpr same
      rw [List.lookup_cons,other]
      cases value with
      | none => exact ih others
      | some v =>
        rw [← ih others]
        simp [present,get?_cons,same]

theorem present_sorted {members members' : List (String × Option Value)}
    (distinct : (members.map (·.1)).Nodup) (distinct' : (members'.map (·.1)).Nodup)
    (same : sortKeys (.obj (present members)) = sortKeys (.obj (present members'))) (key : String) :
    (members.lookup key).join.map sortKeys = (members'.lookup key).join.map sortKeys := by
  rw [← get?_present distinct,← get?_present distinct']
  exact member_of_sorted (distinct.sublist (names_present members))
    (distinct'.sublist (names_present members')) same key

end Json
