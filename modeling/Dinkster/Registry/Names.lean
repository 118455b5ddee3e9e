import Dinkster.Lib.Separated
import Mathlib

/-! The shared name grammar: pack names, publisher ids and namespace claims. A claim in the name
grammar is a namespace, any other one names an exact id. -/
namespace Dinkster.Names
open Separated (words separators)

def nameMax : Nat := 64

def reservedNamespaces : List String := ["std","comfy","core","dinkster"]

def isSep (c : Char) : Bool := c == '-' || c == '_' || c == '.'

/-- One character of `str.casefold`; `wide` is its table for the characters that are not ASCII. -/
def foldChar (wide : Char → List Char) (c : Char) : List Char :=
  if c.toNat < 128 then [c.toLower] else wide c

variable (wide : Char → List Char)

def casefold (word : List Char) : List Char := word.flatMap (foldChar wide)

def atoms (name : String) : List (List Char) := words isSep name.toList

def foldedAtoms (name : String) : List (List Char) := (atoms name).map (casefold wide)

def segmented (sep letter rest : Char → Bool) (name : String) : Bool :=
  (words sep name.toList).all (fun word => word ≠ [] && word.all rest) &&
    (name.toList.head?).any letter

def lowerDigit (c : Char) : Bool := c.isLower || c.isDigit

/-- `validate_name`: the problem, if there is one. -/
def validateName (name : String) : Option String :=
  if name.toList = [] then some "must not be empty"
  else if nameMax < name.toList.length then
    some ("must be at most 64 characters, got " ++ name.toList.length.repr)
  else if segmented isSep Char.isLower lowerDigit name then none
  else some ("must be lowercase ASCII letters/digits in segments separated " ++
    "by single '-', '_' or '.', starting with a letter (e.g. 'my-pack' or 'img.filters')")

/-- `validate_claim` -/
def validateClaim (claim : String) : Option String :=
  if claim.toList = [] then some "must not be empty"
  else if nameMax < claim.toList.length then
    some ("must be at most 64 characters, got " ++ claim.toList.length.repr)
  else if segmented (fun c => isSep c || c == ' ') Char.isAlpha Char.isAlphanum claim then none
  else some "must be ASCII letters/digits separated by single '-', '_', '.' or space"

/-- `"-".join(atom.casefold() for atom in atoms)` -/
def canonicalName (name : String) : String :=
  String.ofList (List.intercalate ['-'] (foldedAtoms wide name))

def canonicalClaim (claim : String) : String :=
  if validateName claim = none then canonicalName wide claim else claim

/-- `claim_covers` -/
def claimCovers (claim nodeType : String) : Bool :=
  if validateName claim ≠ none then claim == nodeType
  else
    let edge := (atoms claim).length
    if (atoms nodeType).length ≤ edge then false
    else if foldedAtoms wide claim ≠ (foldedAtoms wide nodeType).take edge then false
    else (separators isSep nodeType.toList)[edge - 1]? == some '.'

/-- `claims_conflict` -/
def claimsConflict (a b : String) : Bool :=
  if validateName a ≠ none ∧ validateName b ≠ none then a == b
  else if validateName a ≠ none then claimCovers wide b a
  else if validateName b ≠ none then claimCovers wide a b
  else
    let (short,long) := if (foldedAtoms wide b).length < (foldedAtoms wide a).length
      then (foldedAtoms wide b,foldedAtoms wide a) else (foldedAtoms wide a,foldedAtoms wide b)
    long.take short.length == short

/-- `reserved_root`; which of several roots is found first does not matter, as they exclude each
other. -/
def reservedRoot (claim : String) : Option String :=
  reservedNamespaces.find? fun root => claim == root || claimsConflict wide root claim

variable {wide} {a b n : String}

theorem covers_exact (exact_ : validateName a ≠ none) : claimCovers wide a n = true ↔ a = n := by
  simp [claimCovers,exact_]

theorem covers_namespace (namespace_ : validateName a = none) :
    claimCovers wide a n = true ↔ foldedAtoms wide a <+: foldedAtoms wide n ∧
      (atoms a).length < (atoms n).length ∧
      (separators isSep n.toList)[(atoms a).length - 1]? = some '.' := by
  unfold claimCovers
  simp only [namespace_,ne_eq,not_true_eq_false,if_false]
  rw [List.prefix_iff_eq_take]
  have size : (foldedAtoms wide a).length = (atoms a).length := by simp [foldedAtoms]
  rw [size]
  by_cases longer : (atoms n).length ≤ (atoms a).length
  · simp [longer,Nat.not_lt.mpr longer]
  · by_cases same : foldedAtoms wide a = (foldedAtoms wide n).take (atoms a).length
    · simp [longer,Nat.not_le.mp longer,same.symm]
    · simp [longer,same]

theorem conflict_namespaces (first : validateName a = none) (second : validateName b = none) :
    claimsConflict wide a b = true ↔ foldedAtoms wide a <+: foldedAtoms wide b ∨
      foldedAtoms wide b <+: foldedAtoms wide a := by
  unfold claimsConflict
  simp only [first,second,ne_eq,not_true_eq_false,and_self,if_false]
  split
  · rename_i shorter
    rw [beq_iff_eq,List.prefix_iff_eq_take,List.prefix_iff_eq_take,eq_comm]
    constructor
    · exact .inr
    · rintro (other | other)
      · have sizes := congrArg List.length other
        simp at sizes
        omega
      · exact other
  · rename_i shorter
    rw [beq_iff_eq,List.prefix_iff_eq_take,List.prefix_iff_eq_take,eq_comm]
    constructor
    · exact .inl
    · rintro (other | other)
      · exact other
      · have sizes : (foldedAtoms wide b).length = (foldedAtoms wide a).length := by
          have := congrArg List.length other
          simp at this
          omega
        rw [sizes,List.take_length] at other
        rw [other,List.take_of_length_le (by simp [← sizes])]

theorem conflict_comm (a b : String) : claimsConflict wide a b = claimsConflict wide b a := by
  rw [Bool.eq_iff_iff]
  by_cases first : validateName a = none
  · by_cases second : validateName b = none
    · rw [conflict_namespaces first second,conflict_namespaces second first,or_comm]
    · simp [claimsConflict,first,second]
  · by_cases second : validateName b = none
    · simp [claimsConflict,first,second]
    · unfold claimsConflict
      simp only [first,second,ne_eq,not_false_eq_true,and_self,if_true,beq_iff_eq]
      exact eq_comm

theorem conflict_exact (first : validateName a ≠ none) (second : validateName b ≠ none) :
    claimsConflict wide a b = true ↔ a = b := by
  simp [claimsConflict,first,second]

theorem conflict_mixed (first : validateName a = none) (second : validateName b ≠ none) :
    claimsConflict wide a b = claimCovers wide a b := by
  simp [claimsConflict,first,second]

theorem conflict_self (a : String) : claimsConflict wide a a = true := by
  by_cases namespace_ : validateName a = none
  · exact (conflict_namespaces namespace_ namespace_).mpr (.inl List.prefix_rfl)
  · exact (conflict_exact namespace_ namespace_).mpr rfl

theorem covered_conflict (first : claimCovers wide a n = true) (second : claimCovers wide b n = true) :
    claimsConflict wide a b = true := by
  by_cases namespace_ : validateName a = none
  · by_cases namespace' : validateName b = none
    · obtain ⟨under,_⟩ := (covers_namespace namespace_).mp first
      obtain ⟨under',_⟩ := (covers_namespace namespace').mp second
      exact (conflict_namespaces namespace_ namespace').mpr
        (List.prefix_or_prefix_of_prefix under under')
    · obtain rfl := (covers_exact namespace').mp second
      rwa [conflict_mixed namespace_ namespace']
  · obtain rfl := (covers_exact namespace_).mp first
    by_cases namespace' : validateName b = none
    · rwa [conflict_comm,conflict_mixed namespace' namespace_]
    · obtain rfl := (covers_exact namespace').mp second
      exact conflict_self _

def below (name : String) : String :=
  String.ofList (Separated.join (Separated.split isSep name.toList).1
    ((Separated.split isSep name.toList).2.map (fun e => ('.',e.2)) ++ [('.',['x'])]))

theorem split_below (name : String) : Separated.split isSep (below name).toList =
    ((Separated.split isSep name.toList).1,
      (Separated.split isSep name.toList).2.map (fun e => ('.',e.2)) ++ [('.',['x'])]) := by
  have plain {word : List Char} (inside : word ∈ words isSep name.toList) :
      ∀ c ∈ word, isSep c = false := Separated.word_inside isSep inside
  rw [below,String.toList_ofList]
  refine Separated.split_join isSep (plain List.mem_cons_self) fun e inside => ?_
  rcases List.mem_append.mp inside with old | new
  · obtain ⟨e',inside',rfl⟩ := List.mem_map.mp old
    exact ⟨rfl,plain (List.mem_cons_of_mem _ (List.mem_map.mpr ⟨e',inside',rfl⟩))⟩
  · obtain rfl := List.mem_singleton.mp new
    refine ⟨rfl,fun c inside => ?_⟩
    rw [List.mem_singleton.mp inside]
    rfl

theorem atoms_below (name : String) : atoms (below name) = atoms name ++ [['x']] := by
  simp [atoms,words,split_below,Function.comp_def]

theorem separators_below (name : String) :
    separators isSep (below name).toList = List.replicate (atoms name).length '.' := by
  rw [Separated.separators,split_below]
  have dots : ((Separated.split isSep name.toList).2.map fun e => ('.',e.2)).map (·.1) =
      List.replicate (Separated.split isSep name.toList).2.length '.' := by
    rw [List.map_map]
    exact List.map_const' ..
  rw [List.map_append,dots]
  simp [atoms,words,List.replicate_succ']

theorem covers_below (namespace_ : validateName a = none)
    (starts : foldedAtoms wide a <+: foldedAtoms wide b) : claimCovers wide a (below b) = true := by
  have shorter : (atoms a).length ≤ (atoms b).length := by
    simpa [foldedAtoms] using starts.length_le
  have positive : 0 < (atoms a).length := by simp [atoms,words]
  refine (covers_namespace namespace_).mpr ⟨?_,?_,?_⟩
  · refine starts.trans ?_
    simp [foldedAtoms,atoms_below]
  · rw [atoms_below,List.length_append,List.length_singleton]
    omega
  · rw [separators_below,List.getElem?_replicate,if_pos (by omega)]

theorem conflict_covered (first : validateName a = none) (second : validateName b = none)
    (conflict : claimsConflict wide a b = true) :
    ∃ n, claimCovers wide a n = true ∧ claimCovers wide b n = true := by
  rcases (conflict_namespaces first second).mp conflict with under | under
  · exact ⟨below b,covers_below first under,covers_below second List.prefix_rfl⟩
  · exact ⟨below a,covers_below first List.prefix_rfl,covers_below second under⟩

/-- The claims that two owners may hold cover no id in common, and every conflict of namespaces is
over some id. -/
theorem claims_agree (wide : Char → List Char) :
    (∀ a b n, claimCovers wide a n = true → claimCovers wide b n = true →
      claimsConflict wide a b = true ∧ claimsConflict wide b a = true) ∧
    ∀ a b, validateName a = none → validateName b = none → claimsConflict wide a b = true →
      ∃ n, claimCovers wide a n = true ∧ claimCovers wide b n = true :=
  ⟨fun _ _ _ first second => ⟨covered_conflict first second,covered_conflict second first⟩,
    fun _ _ => conflict_covered⟩

theorem claims_agree_blur : claimsConflict (fun c => [c]) "img" "img.blur" = true ∧
    claimsConflict (fun c => [c]) "img.blur" "img" = true :=
  (claims_agree _).1 "img" "img.blur" "img.blur.X" (by decide +kernel) (by decide +kernel)

theorem validateName_none : validateName a = none ↔ a.toList ≠ [] ∧ a.toList.length ≤ nameMax ∧
    (∀ word ∈ atoms a, word ≠ [] ∧ ∀ c ∈ word, lowerDigit c = true) ∧
    (a.toList.head?).any Char.isLower = true := by
  unfold validateName segmented
  by_cases empty : a.toList = []
  · simp [empty]
  · by_cases long : nameMax < a.toList.length
    · simp [empty,long,Nat.not_le.mpr long]
    · simp only [empty,long,if_false,ite_eq_left_iff,reduceCtorEq,imp_false,not_not,ne_eq,
        not_false_eq_true,true_and,Nat.not_lt.mp long,Bool.and_eq_true,List.all_eq_true,
        decide_not,Bool.not_eq_true',decide_eq_false_iff_not,atoms]

theorem casefold_lower {word : List Char} (lower : ∀ c ∈ word, lowerDigit c = true) :
    casefold wide word = word := by
  unfold casefold
  have each : ∀ c ∈ word, foldChar wide c = [c] := by
    intro c inside
    have named := lower c inside
    simp only [lowerDigit,Char.isLower,Char.isDigit,Bool.or_eq_true,Bool.and_eq_true,
      decide_eq_true_eq,ge_iff_le,UInt32.le_iff_toNat_le] at named
    have ranges : (97 ≤ c.val.toNat ∧ c.val.toNat ≤ 122) ∨
        (48 ≤ c.val.toNat ∧ c.val.toNat ≤ 57) := named
    have small : c.toNat < 128 := by
      show c.val.toNat < 128
      omega
    have not_upper : ¬ (c.val ≥ 'A'.val ∧ c.val ≤ 'Z'.val) := by
      simp only [ge_iff_le,UInt32.le_iff_toNat_le]
      intro upper
      have range : 65 ≤ c.val.toNat ∧ c.val.toNat ≤ 90 := upper
      omega
    rw [foldChar,if_pos small,Char.toLower,dif_neg not_upper]
  rw [List.flatMap_congr each]
  simp

theorem foldedAtoms_valid (valid : validateName a = none) : foldedAtoms wide a = atoms a := by
  obtain ⟨_,_,each,_⟩ := validateName_none.mp valid
  have same : (atoms a).map (casefold wide) = (atoms a).map id :=
    List.map_congr_left fun word inside => casefold_lower (each word inside).2
  rw [foldedAtoms,same,List.map_id]

theorem split_canonical (valid : validateName a = none) :
    Separated.split isSep (canonicalName wide a).toList =
      ((Separated.split isSep a.toList).1,
        (Separated.split isSep a.toList).2.map fun e => ('-',e.2)) := by
  have plain {word : List Char} (inside : word ∈ atoms a) : ∀ c ∈ word, isSep c = false :=
    Separated.word_inside isSep inside
  rw [canonicalName,String.toList_ofList,foldedAtoms_valid valid,atoms,words,
    Separated.intercalate_eq,List.map_map]
  refine Separated.split_join isSep (plain List.mem_cons_self) fun e inside => ?_
  obtain ⟨e',inside',rfl⟩ := List.mem_map.mp inside
  exact ⟨rfl,plain (List.mem_cons_of_mem _ (List.mem_map.mpr ⟨e',inside',rfl⟩))⟩

theorem atoms_canonical (valid : validateName a = none) :
    atoms (canonicalName wide a) = atoms a := by
  simp [atoms,words,split_canonical valid,Function.comp_def]

theorem separators_canonical (valid : validateName a = none) :
    ∀ c ∈ separators isSep (canonicalName wide a).toList, c = '-' := by
  rw [Separated.separators,split_canonical valid,List.map_map]
  intro c inside
  obtain ⟨_,_,rfl⟩ := List.mem_map.mp inside
  rfl

theorem length_canonical (valid : validateName a = none) :
    (canonicalName wide a).toList.length = a.toList.length := by
  have size (name : String) := congrArg List.length (Separated.join_split isSep name.toList)
  rw [← size,← size a,split_canonical valid,Separated.length_join,Separated.length_join,
    List.map_map]
  rfl

theorem head_atoms (name : String) (word : (atoms name).head (Separated.words_ne_nil _ _) ≠ []) :
    name.toList.head? = ((atoms name).head (Separated.words_ne_nil _ _)).head? := by
  conv_lhs => rw [← Separated.join_split isSep name.toList]
  have first : (Separated.split isSep name.toList).1 ≠ [] := word
  rw [Separated.join,List.head?_append_of_ne_nil _ first]
  rfl

theorem canonical_valid (valid : validateName a = none) :
    validateName (canonicalName wide a) = none := by
  have facts := validateName_none.mp valid
  obtain ⟨nonempty,short,each,letter⟩ := facts
  have same := @atoms_canonical wide a valid
  have word (name : String) (words_ : atoms name = atoms a) :
      (atoms name).head (Separated.words_ne_nil _ _) ≠ [] :=
    (each _ (words_ ▸ List.head_mem _)).1
  refine validateName_none.mpr ⟨?_,?_,?_,?_⟩
  · rw [← List.length_pos_iff,length_canonical valid]
    exact List.length_pos_iff.mpr nonempty
  · rw [length_canonical valid]
    exact short
  · rw [same]
    exact each
  · rw [head_atoms _ (word _ same)]
    rw [head_atoms _ (word a rfl)] at letter
    simpa only [same] using letter

theorem canonicalName_idem (valid : validateName a = none) :
    canonicalName wide (canonicalName wide a) = canonicalName wide a := by
  have valid' := @canonical_valid wide _ valid
  rw [canonicalName,foldedAtoms_valid valid',atoms_canonical valid,canonicalName,
    foldedAtoms_valid valid]

/-- A claim is held in canonical form: an exact id as it stands, a namespace with hyphens. -/
def Canonical (wide : Char → List Char) (claim : String) : Prop := canonicalClaim wide claim = claim

theorem canonicalClaim_canonical (claim : String) : Canonical wide (canonicalClaim wide claim) := by
  unfold Canonical canonicalClaim
  split
  · rename_i valid
    rw [if_pos (canonical_valid valid)]
    exact canonicalName_idem valid
  · rfl

theorem canonical_separators (valid : validateName a = none) (canonical : Canonical wide a) :
    ∀ c ∈ separators isSep a.toList, c = '-' := by
  have same : canonicalName wide a = a := by
    simpa [Canonical,canonicalClaim,valid] using canonical
  have hyphens := @separators_canonical wide _ valid
  rwa [same] at hyphens

theorem canonical_alike (claim : String) :
    (validateName (canonicalClaim wide claim) = none ↔ validateName claim = none) ∧
    foldedAtoms wide (canonicalClaim wide claim) = foldedAtoms wide claim ∧
    (atoms (canonicalClaim wide claim)).length = (atoms claim).length := by
  unfold canonicalClaim
  split
  · rename_i valid
    have valid' := @canonical_valid wide _ valid
    refine ⟨⟨fun _ => valid,fun _ => valid'⟩,?_,?_⟩
    · rw [foldedAtoms_valid valid',foldedAtoms_valid valid,atoms_canonical valid]
    · rw [atoms_canonical valid]
  · exact ⟨.rfl,rfl,rfl⟩

theorem covers_alike {a a' : String} (alike : validateName a = none ↔ validateName a' = none)
    (valid : validateName a = none) (folded : foldedAtoms wide a = foldedAtoms wide a') (n : String) :
    claimCovers wide a n = claimCovers wide a' n := by
  have size : (atoms a).length = (atoms a').length := by
    simpa [foldedAtoms] using congrArg List.length folded
  rw [Bool.eq_iff_iff,covers_namespace valid,covers_namespace (alike.mp valid),folded,size]

theorem conflict_canonical (a b : String) :
    claimsConflict wide a (canonicalClaim wide b) = claimsConflict wide a b := by
  obtain ⟨alike,folded,_⟩ := @canonical_alike wide b
  by_cases valid : validateName b = none
  · have valid' := alike.mpr valid
    by_cases first : validateName a = none
    · rw [Bool.eq_iff_iff,conflict_namespaces first valid',conflict_namespaces first valid,folded]
    · rw [conflict_comm,conflict_mixed valid' first,conflict_comm,conflict_mixed valid first]
      exact covers_alike alike valid' folded a
  · simp [canonicalClaim,valid]

theorem canonical_ext (first : validateName a = none) (second : validateName b = none)
    (canonical : Canonical wide a) (canonical' : Canonical wide b)
    (same : foldedAtoms wide a = foldedAtoms wide b) : a = b := by
  rw [foldedAtoms_valid first,foldedAtoms_valid second] at same
  exact String.toList_inj.mp (Separated.text_ext_uniform isSep same
    (canonical_separators first canonical) (canonical_separators second canonical'))

/-- The prefix test of a suite: a canonical namespace starts with the root and a hyphen if and only
if it lies below the root. -/
theorem starts_iff (first : validateName a = none) (second : validateName b = none)
    (canonical : Canonical wide a) (canonical' : Canonical wide b) :
    (a ++ "-").toList <+: b.toList ↔ foldedAtoms wide a <+: foldedAtoms wide b ∧ a ≠ b := by
  have cut : (a ++ "-").toList = a.toList ++ ['-'] := by simp
  rw [cut,Separated.cut_prefix_iff isSep rfl (canonical_separators first canonical)
    (canonical_separators second canonical'),foldedAtoms_valid first,foldedAtoms_valid second]
  refine and_congr_right fun under => ⟨?_,fun other => ?_⟩
  · rintro longer rfl
    exact Nat.lt_irrefl _ longer
  · refine lt_of_le_of_ne under.length_le fun sizes => other ?_
    refine canonical_ext first second canonical canonical' ?_
    rw [foldedAtoms_valid first,foldedAtoms_valid second]
    exact under.eq_of_length sizes

end Dinkster.Names
