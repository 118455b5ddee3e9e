import Dinkster.Assets.Writer
import Dinkster.Lib.Fallible

/-! The names of the asset writer. A numbered name has an underscore and an exact one does not
start like the writer's own files, whose names have no underscore. -/
namespace Dinkster.Writer
open Fallible

variable {host : Host}

/-- What the platform documents: `uuid4` gives hexadecimal names that do not repeat, and folding
case leaves lower case, `.` and `-` alone. -/
structure Host.Documented (host : Host) : Prop where
  distinct : Function.Injective host.uuid
  hexadecimal : ∀ n, ∀ c ∈ (host.uuid n).toList, c ∈ "0123456789abcdef".toList
  folded : ∀ c ∈ ".dinkster-".toList, host.fold c = [c]

def FinalName (name : String) : Prop :=
  '_' ∈ name.toList ∨ ¬ ".dinkster-".toList <+: name.toList

def ServiceName (name : String) : Prop :=
  name = lockName ∨ name = sidecarName ∨ name = sidecarLockName

theorem numbered_final (stem : String) (counter : Int) (suffix : String) :
    FinalName (numbered stem counter suffix) := by
  refine .inl ?_
  simp [numbered]

theorem portable_final (documented : host.Documented) {segment : String}
    (passes : portable host segment) : FinalName segment := by
  refine .inr fun ⟨rest,whole⟩ => passes.2.2.1 ?_
  have same : ".dinkster-".toList.flatMap host.fold = ".dinkster-".toList := by
    rw [List.flatMap_congr documented.folded]
    simp
  refine ⟨rest.flatMap host.fold,?_⟩
  rw [casefold,← whole,List.flatMap_append,same]
  exact String.toList_ofList.symm

theorem tempName_not_final (documented : host.Documented) (n : Nat) :
    ¬ FinalName (tempName host n) := by
  rintro (underscore | other)
  · rw [tempName,String.toList_append,List.mem_append] at underscore
    rcases underscore with own | drawn
    · simp at own
    · have hex := documented.hexadecimal n _ drawn
      simp at hex
  · refine other ⟨"save-".toList ++ (host.uuid n).toList,?_⟩
    rw [tempName,String.toList_append,← List.append_assoc]
    rfl

theorem service_not_final {name : String} (service : ServiceName name) : ¬ FinalName name := by
  rcases service with rfl | rfl | rfl <;> unfold FinalName <;> decide

theorem service_not_temp {name : String} (service : ServiceName name) (n : Nat) :
    name ≠ tempName host n := by
  intro same
  have start : (tempName host n).toList.take 15 = ".dinkster-save-".toList := by
    rw [tempName,String.toList_append]
    rfl
  rw [← same] at start
  rcases service with rfl | rfl | rfl <;> exact absurd start (by decide)

theorem tempName_injective (documented : host.Documented) {n m : Nat}
    (same : tempName host n = tempName host m) : n = m := by
  refine documented.distinct (String.toList_inj.mp ?_)
  have parts := congrArg String.toList same
  simpa [tempName] using parts

theorem pathSuffix_suffix (stem : String) : pathSuffix stem <:+ stem.toList := by
  unfold pathSuffix
  dsimp only
  split
  · rename_i inside
    obtain ⟨_,short⟩ := inside
    have split := List.takeWhile_append_dropWhile (p := (· ≠ '.')) (l := stem.toList.reverse)
    cases rest : stem.toList.reverse.dropWhile (· ≠ '.') with
    | nil =>
      rw [rest,List.append_nil] at split
      rw [split] at short
      rw [List.reverse_reverse,String.length_toList] at short
      omega
    | cons c others =>
      have dot : c = '.' := by
        have head := List.head_dropWhile_not (p := fun c => decide (c ≠ '.'))
          (l := stem.toList.reverse) (by rw [rest]; exact List.cons_ne_nil c others)
        simp only [rest,List.head_cons] at head
        simpa using head
      subst dot
      rw [rest] at split
      refine ⟨others.reverse,?_⟩
      have turned := congrArg List.reverse split
      simpa using turned
  · exact List.nil_suffix

theorem pathBase_suffix (stem : String) :
    pathBase stem ++ String.ofList (pathSuffix stem) = stem := by
  obtain ⟨start,whole⟩ := pathSuffix_suffix stem
  apply String.toList_inj.mp
  rw [String.toList_append,pathBase,String.toList_ofList,String.toList_ofList]
  have size : stem.length = start.length + (pathSuffix stem).length := by
    rw [← String.length_toList,← whole,List.length_append]
  rw [size,Nat.add_sub_cancel]
  nth_rewrite 1 [← whole]
  rw [List.take_left]
  exact whole

theorem make_ok {mount : String} {segments : List String} {t : SaveTarget}
    (made : SaveTarget.make mount segments = .ok t) : t.mount = mount ∧ t.segments = segments := by
  unfold SaveTarget.make at made
  split at made
  · split at made
    · cases made
    · split at made
      · cases made
        exact ⟨rfl,rfl⟩
      · cases made
  · cases made

theorem named_stem {t base : SaveTarget} (made : named t = .ok base) :
    base.stem ++ String.ofList (pathSuffix t.stem) = t.stem := by
  have stem : base.stem = pathBase t.stem := by
    obtain ⟨_,segments⟩ := make_ok made
    have last : base.segments.getLast? = some (pathBase t.stem) := by simp [segments]
    exact Option.some.inj ((List.getLast?_eq_some_getLast base.named).symm.trans last)
  rw [stem]
  exact pathBase_suffix t.stem

theorem validatedNamedTarget_ok {segments : List String} {limit : Int} {u : Unit}
    (passed : validatedNamedTarget host segments limit = .ok u) :
    ∀ segment ∈ segments, portable host segment := by
  unfold validatedNamedTarget at passed
  split at passed
  · cases passed
  · split at passed
    · assumption
    · cases passed

theorem member_ok {limit : Int} {seen after : Seen} {name : List String}
    (passed : Seen.member host limit seen name = .ok after) :
    name ≠ [] ∧ ∀ segment ∈ name, portable host segment := by
  unfold Seen.member at passed
  split at passed
  · rename_i resource
    obtain ⟨_,portable,_⟩ := bind_ok.mp passed
    exact ⟨resource.1,validatedNamedTarget_ok portable⟩
  · cases passed

theorem validatedGroup_ok {names : List (List String)} {limit : Int} {u : Unit}
    (passed : validatedGroup host names limit = .ok u) :
    ∀ name ∈ names, name ≠ [] ∧ ∀ segment ∈ name, portable host segment := by
  unfold validatedGroup at passed
  split at passed
  · cases passed
  · obtain ⟨_,folded,_⟩ := bind_ok.mp passed
    intro name inside
    obtain ⟨_,_,member⟩ := foldlM_each folded name inside
    exact member_ok member

theorem last_of_place {folder : Path} {name : String} :
    (place host folder name).getLast? = some name := by
  simp [place]

def names (documented : host.Documented) : Publication.Names Path where
  temp p n := p.getLast? = some (tempName host n)
  service p := ∃ name, p.getLast? = some name ∧ ServiceName name
  final p := ∃ name, p.getLast? = some name ∧ FinalName name
  temp_call first second :=
    tempName_injective documented (Option.some.inj (first.symm.trans second))
  final_temp := by
    rintro p n ⟨name,last,final⟩ temp
    obtain rfl := Option.some.inj (last.symm.trans temp)
    exact tempName_not_final documented n final
  service_temp := by
    rintro p n ⟨name,last,service⟩ temp
    exact service_not_temp service n (Option.some.inj (last.symm.trans temp))
  final_service := by
    rintro p ⟨name,last,final⟩ ⟨name',last',service⟩
    obtain rfl := Option.some.inj (last.symm.trans last')
    exact service_not_final service final

end Dinkster.Writer
