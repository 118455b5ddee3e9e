import Dinkster.Registry.Names
import Mathlib.Data.List.Nodup
import Mathlib.Data.List.Pairwise

/-! The namespace grant table: which publisher holds which claim, and how claims are granted and
change hands. A transfer that fails leaves the table as it was. -/
namespace Dinkster.Grants
open Names

structure Grant where
  claim : String
  publisher : String
  deriving DecidableEq, Repr

inductive ClaimStatus where
  | granted | grantable | free | deniedReserved | deniedTaken
  deriving DecidableEq, Repr

/-- `RegistryError`, with what its message is made of. -/
inductive RegistryError where
  /-- `claim {claim!r} {problem}` -/
  | grammar (claim problem : String)
  /-- `namespace {claim!r} is reserved ({root!r}) and never granted by the public registry` -/
  | reserved (claim : String) (root : Option String)
  /-- `namespace {claim!r} conflicts with grants held by {', '.join(owners)}` -/
  | taken (claim : String) (owners : List String)
  /-- `no grant exists for namespace {claim!r}` -/
  | missing (claim : String)
  /-- `transferring {claim!r} to {publisher!r} would split nested grants {first!r} and {second!r}
  across publishers; use transfer_suite on the suite root` -/
  | split (claim publisher first second : String)
  /-- `transferring the {claim!r} suite to {publisher!r} would still split {first!r} and {second!r}
  across publishers; transfer from the enclosing root instead` -/
  | suiteSplit (claim publisher first second : String)
  deriving DecidableEq, Repr

variable (wide : Char → List Char)

/-- `owner_of` -/
def ownerOf (table : List Grant) (claim : String) : Option String :=
  (table.find? (·.claim == canonicalClaim wide claim)).map (·.publisher)

def conflicting (table : List Grant) (canonical : String) : List Grant :=
  table.filter fun g => claimsConflict wide g.claim canonical

def evaluate (table : List Grant) (claim publisher : String) : Except RegistryError ClaimStatus :=
  match validateClaim claim with
  | some problem => .error (.grammar claim problem)
  | none =>
    if reservedRoot wide claim ≠ none then .ok .deniedReserved
    else
      let canonical := canonicalClaim wide claim
      if (conflicting wide table canonical).any (·.publisher ≠ canonicalName wide publisher)
      then .ok .deniedTaken
      else if (conflicting wide table canonical).any (·.claim == canonical) then .ok .granted
      else if conflicting wide table canonical ≠ [] then .ok .grantable
      else .ok .free

/-- `sorted` over the set of the other publishers that a claim conflicts with. -/
def otherOwners (table : List Grant) (claim publisher : String) : List String :=
  (((conflicting wide table (canonicalClaim wide claim)).map (·.publisher)).filter
    (· ≠ canonicalName wide publisher)).dedup.mergeSort

def grant (table : List Grant) (claim publisher : String) :
    Except RegistryError Grant × List Grant :=
  let canonical := canonicalClaim wide claim
  let added : Grant := ⟨canonical,canonicalName wide publisher⟩
  match evaluate wide table claim publisher with
  | .error problem => (.error problem,table)
  | .ok .deniedReserved => (.error (.reserved claim (reservedRoot wide claim)),table)
  | .ok .deniedTaken => (.error (.taken claim (otherOwners wide table claim publisher)),table)
  | .ok .granted =>
    match table.find? (·.claim == canonical) with
    | some held => (.ok held,table)
    | none => (.ok added,table ++ [added])
  | .ok .grantable => (.ok added,table ++ [added])
  | .ok .free => (.ok added,table ++ [added])

/-- The first pair of grants, in the order of the two loops, that two publishers hold against each
other. -/
def firstSplit : List Grant → Option (Grant × Grant)
  | [] => none
  | a :: rest =>
    match rest.find? fun b => a.publisher ≠ b.publisher && claimsConflict wide a.claim b.claim with
    | some b => some (a,b)
    | none => firstSplit rest

def transfer (table : List Grant) (claim toPublisher : String) :
    Except RegistryError Grant × List Grant :=
  let canonical := canonicalClaim wide claim
  let replacement : Grant := ⟨canonical,canonicalName wide toPublisher⟩
  match table.findIdx? (·.claim == canonical) with
  | none => (.error (.missing claim),table)
  | some index =>
    let proposed := table.set index replacement
    match firstSplit wide proposed with
    | some (a,b) => (.error (.split claim toPublisher a.claim b.claim),table)
    | none => (.ok replacement,proposed)

/-- The suite's own test of what lies in it: the root, the namespaces that continue it after a
hyphen and the exact ids that it covers. -/
def nested (canonical claim : String) : Bool :=
  claim == canonical || (validateName canonical == none &&
    if validateName claim = none then (canonical ++ "-").toList.isPrefixOf claim.toList
    else claimCovers wide canonical claim)

def transferSuite (table : List Grant) (rootClaim toPublisher : String) :
    Except RegistryError (List Grant) × List Grant :=
  let canonical := canonicalClaim wide rootClaim
  match ownerOf wide table canonical with
  | none => (.error (.missing rootClaim),table)
  | some owner =>
    let moves (g : Grant) := g.publisher == owner && nested wide canonical g.claim
    let replacement (g : Grant) : Grant := ⟨g.claim,canonicalName wide toPublisher⟩
    let proposed := table.map fun g => if moves g then replacement g else g
    match firstSplit wide proposed with
    | some (a,b) => (.error (.suiteSplit rootClaim toPublisher a.claim b.claim),table)
    | none => (.ok ((table.filter moves).map replacement),proposed)

inductive Call where
  | grant (claim publisher : String)
  | transfer (claim toPublisher : String)
  | transferSuite (rootClaim toPublisher : String)

/-- One call: the grants it returns or the error it raises, and the table after it. -/
def perform (table : List Grant) : Call → Except RegistryError (List Grant) × List Grant
  | .grant claim publisher =>
    ((grant wide table claim publisher).1.map ([·]),(grant wide table claim publisher).2)
  | .transfer claim publisher =>
    ((transfer wide table claim publisher).1.map ([·]),(transfer wide table claim publisher).2)
  | .transferSuite root publisher => transferSuite wide table root publisher

/-- The table after a sequence of calls, failing ones included. -/
def run (calls : List Call) : List Grant :=
  calls.foldl (fun table call => (perform wide table call).2) []

def Apart (g h : Grant) : Prop :=
  g.publisher ≠ h.publisher → claimsConflict wide g.claim h.claim = false

instance apart_symm : Std.Symm (Apart wide) where
  symm g h apart other := by
    rw [conflict_comm]
    exact apart other.symm

def Exclusive (table : List Grant) : Prop := ∀ g ∈ table, ∀ h ∈ table, Apart wide g h

/-- What holds of the claims held, whoever holds them. -/
structure Sound (claims : List String) : Prop where
  once : claims.Nodup
  canonical : ∀ claim ∈ claims, Canonical wide claim
  unreserved : ∀ claim ∈ claims, ∀ root ∈ reservedNamespaces,
    claimsConflict wide root claim = false

variable {wide} {table table' : List Grant} {claim root publisher : String}

theorem firstSplit_none : firstSplit wide table = none ↔ Exclusive wide table := by
  have pairs : firstSplit wide table = none ↔ table.Pairwise (Apart wide) := by
    induction table with
    | nil => simp [firstSplit]
    | cons a rest ih =>
      rw [List.pairwise_cons,← ih,firstSplit]
      cases found : rest.find? fun b =>
          a.publisher ≠ b.publisher && claimsConflict wide a.claim b.claim with
      | none =>
        rw [List.find?_eq_none] at found
        simp only [iff_and_self]
        intro _ b inside other
        simpa [other] using found b inside
      | some b =>
        have clash := List.find?_some found
        simp only [Bool.and_eq_true,decide_eq_true_eq] at clash
        refine iff_of_false nofun fun apart => ?_
        have free := apart.1 b (List.mem_of_find?_eq_some found) clash.1
        rw [clash.2] at free
        contradiction
  rw [pairs]
  refine ⟨fun apart g inside h inside' => ?_,List.pairwise_of_forall_mem_list⟩
  exact apart.forall_of_forall (fun _ _ other => absurd rfl other) inside inside'

theorem reservedRoot_none : reservedRoot wide claim = none ↔
    ∀ root ∈ reservedNamespaces, claimsConflict wide root claim = false := by
  rw [reservedRoot,List.find?_eq_none]
  refine forall₂_congr fun root _ => ?_
  rw [Bool.or_eq_true,not_or,beq_iff_eq,Bool.not_eq_true]
  refine and_iff_right_of_imp fun free same => ?_
  rw [same,conflict_self] at free
  contradiction

/-- A claim outside the reserved roots is taken where a grant stands against it, and else granted
where it is held already. -/
theorem evaluate_cases (grammar : validateClaim claim = none)
    (free : reservedRoot wide claim = none) :
    (evaluate wide table claim publisher = .ok .deniedTaken ∧ ∃ g ∈ table,
      ¬ Apart wide g ⟨canonicalClaim wide claim,canonicalName wide publisher⟩) ∨
    (∀ g ∈ table, Apart wide g ⟨canonicalClaim wide claim,canonicalName wide publisher⟩) ∧
    ((evaluate wide table claim publisher = .ok .granted ∧
        ∃ g ∈ table, g.claim = canonicalClaim wide claim) ∨
      (evaluate wide table claim publisher = .ok .grantable ∨
        evaluate wide table claim publisher = .ok .free) ∧
        ∀ g ∈ table, g.claim ≠ canonicalClaim wide claim) := by
  unfold evaluate
  simp only [grammar,free,ne_eq,not_true_eq_false,if_false]
  by_cases taken : (conflicting wide table (canonicalClaim wide claim)).any
      fun g => decide ¬g.publisher = canonicalName wide publisher
  · left
    rw [if_pos taken]
    obtain ⟨g,inside,other⟩ := List.any_eq_true.mp taken
    obtain ⟨inside,clash⟩ := List.mem_filter.mp inside
    refine ⟨rfl,g,inside,fun apart => ?_⟩
    rw [apart (of_decide_eq_true other)] at clash
    contradiction
  · right
    rw [if_neg taken]
    constructor
    · intro g inside other
      by_contra clash
      refine taken (List.any_eq_true.mpr ⟨g,List.mem_filter.mpr ⟨inside,?_⟩,decide_eq_true other⟩)
      simpa using clash
    by_cases held : (conflicting wide table (canonicalClaim wide claim)).any
        (·.claim == canonicalClaim wide claim)
    · left
      rw [if_pos held]
      obtain ⟨g,inside,same⟩ := List.any_eq_true.mp held
      exact ⟨rfl,g,(List.mem_filter.mp inside).1,beq_iff_eq.mp same⟩
    · right
      rw [if_neg held]
      constructor
      · split
        · exact .inl rfl
        · exact .inr rfl
      · intro g inside same
        refine held (List.any_eq_true.mpr ⟨g,List.mem_filter.mpr ⟨inside,?_⟩,beq_iff_eq.mpr same⟩)
        rw [same]
        exact conflict_self _

theorem grant_cases (wide : Char → List Char) (table : List Grant) (claim publisher : String) :
    (∃ problem, grant wide table claim publisher = (.error problem,table)) ∨
    reservedRoot wide claim = none ∧
    (∀ g ∈ table, Apart wide g ⟨canonicalClaim wide claim,canonicalName wide publisher⟩) ∧
    ((∃ g ∈ table, grant wide table claim publisher = (.ok g,table) ∧
        g.claim = canonicalClaim wide claim) ∨
      grant wide table claim publisher =
        (.ok ⟨canonicalClaim wide claim,canonicalName wide publisher⟩,
          table ++ [⟨canonicalClaim wide claim,canonicalName wide publisher⟩]) ∧
        ∀ g ∈ table, g.claim ≠ canonicalClaim wide claim) := by
  cases grammar : validateClaim claim with
  | some problem => exact .inl ⟨.grammar claim problem,by simp [grant,evaluate,grammar]⟩
  | none =>
    by_cases free : reservedRoot wide claim = none
    · rcases @evaluate_cases wide table claim publisher grammar free with
        ⟨taken,_⟩ | ⟨apart,⟨granted,g,inside,same⟩ | ⟨status,absent⟩⟩
      · exact .inl ⟨.taken claim (otherOwners wide table claim publisher),by simp [grant,taken]⟩
      · cases found : table.find? (·.claim == canonicalClaim wide claim) with
        | none =>
          have other := List.find?_eq_none.mp found g inside
          simp [same] at other
        | some held =>
          refine .inr ⟨free,apart,.inl ⟨held,List.mem_of_find?_eq_some found,?_,?_⟩⟩
          · simp [grant,granted,found]
          · simpa using List.find?_some found
      · refine .inr ⟨free,apart,.inr ⟨?_,absent⟩⟩
        rcases status with status | status
        all_goals simp [grant,status]
    · refine .inl ⟨.reserved claim (reservedRoot wide claim),?_⟩
      simp [grant,evaluate,grammar,free]

theorem transfer_cases (wide : Char → List Char) (table : List Grant) (claim publisher : String) :
    (∃ problem, transfer wide table claim publisher = (.error problem,table)) ∨
    ∃ moved proposed, transfer wide table claim publisher = (.ok moved,proposed) ∧
      proposed.map (·.claim) = table.map (·.claim) ∧ Exclusive wide proposed := by
  unfold transfer
  cases found : table.findIdx? (·.claim == canonicalClaim wide claim) with
  | none => exact .inl ⟨.missing claim,by simp [found]⟩
  | some index =>
    simp only [found]
    cases apart : firstSplit wide (table.set index
        ⟨canonicalClaim wide claim,canonicalName wide publisher⟩) with
    | some pair => exact .inl ⟨_,rfl⟩
    | none =>
      refine .inr ⟨_,_,rfl,?_,firstSplit_none.mp apart⟩
      obtain ⟨inside,same,_⟩ := List.findIdx?_eq_some_iff_getElem.mp found
      have sized : index < (table.map (·.claim)).length := by simpa using inside
      have kept : (table.map (·.claim))[index] = canonicalClaim wide claim := by
        simpa using same
      rw [List.map_set,← kept,List.set_getElem_self]

theorem transferSuite_cases (wide : Char → List Char) (table : List Grant) (root publisher : String) :
    (∃ problem, transferSuite wide table root publisher = (.error problem,table)) ∨
    ∃ moved proposed, transferSuite wide table root publisher = (.ok moved,proposed) ∧
      proposed.map (·.claim) = table.map (·.claim) ∧ Exclusive wide proposed := by
  unfold transferSuite
  cases held : ownerOf wide table (canonicalClaim wide root) with
  | none => exact .inl ⟨.missing root,by simp [held]⟩
  | some owner =>
    simp only [held]
    split
    · exact .inl ⟨_,rfl⟩
    · rename_i apart
      refine .inr ⟨_,_,rfl,?_,firstSplit_none.mp apart⟩
      rw [List.map_map]
      refine List.map_congr_left fun g _ => ?_
      simp only [Function.comp_apply]
      split <;> rfl

theorem conflict_reserved (free : reservedRoot wide claim = none) : ∀ root ∈ reservedNamespaces,
    claimsConflict wide root (canonicalClaim wide claim) = false := by
  intro root inside
  rw [conflict_canonical]
  exact reservedRoot_none.mp free root inside

theorem perform_failed (table : List Grant) (call : Call) {problem : RegistryError}
    (failed : (perform wide table call).1 = .error problem) :
    (perform wide table call).2 = table := by
  cases call with
  | grant claim publisher =>
    rcases grant_cases wide table claim publisher with
      ⟨_,same⟩ | ⟨_,_,⟨_,_,same,_⟩ | ⟨same,_⟩⟩
    all_goals simp_all [perform,Except.map]
  | transfer claim publisher =>
    rcases transfer_cases wide table claim publisher with ⟨_,same⟩ | ⟨_,_,same,_⟩
    all_goals simp_all [perform,Except.map]
  | transferSuite root publisher =>
    rcases transferSuite_cases wide table root publisher with ⟨_,same⟩ | ⟨_,_,same,_⟩
    all_goals simp_all [perform]

theorem grant_keeps (exclusive : Exclusive wide table) (sound : Sound wide (table.map (·.claim)))
    (claim publisher : String) : Exclusive wide (grant wide table claim publisher).2 ∧
      Sound wide ((grant wide table claim publisher).2.map (·.claim)) := by
  rcases grant_cases wide table claim publisher with
    ⟨_,same⟩ | ⟨free,apart,⟨_,_,same,_⟩ | ⟨same,absent⟩⟩
  · rw [same]
    exact ⟨exclusive,sound⟩
  · rw [same]
    exact ⟨exclusive,sound⟩
  · rw [same]
    constructor
    · intro g inside h inside'
      rcases List.mem_append.mp inside with old | new
      · rcases List.mem_append.mp inside' with old' | new'
        · exact exclusive g old h old'
        · obtain rfl := List.mem_singleton.mp new'
          exact apart g old
      · obtain rfl := List.mem_singleton.mp new
        rcases List.mem_append.mp inside' with old' | new'
        · exact Std.Symm.symm _ _ (apart h old')
        · obtain rfl := List.mem_singleton.mp new'
          exact fun other => absurd rfl other
    · rw [List.map_append]
      refine ⟨?_,?_,?_⟩
      · refine List.Nodup.append sound.once (List.nodup_singleton _) ?_
        rintro _ old new
        obtain ⟨g,inside,rfl⟩ := List.mem_map.mp old
        exact absent g inside (by simpa using new)
      · intro held inside
        rcases List.mem_append.mp inside with old | new
        · exact sound.canonical held old
        · obtain rfl : held = canonicalClaim wide claim := by simpa using new
          exact canonicalClaim_canonical claim
      · intro held inside
        rcases List.mem_append.mp inside with old | new
        · exact sound.unreserved held old
        · obtain rfl : held = canonicalClaim wide claim := by simpa using new
          exact conflict_reserved free

theorem perform_keeps (exclusive : Exclusive wide table) (sound : Sound wide (table.map (·.claim)))
    (call : Call) : Exclusive wide (perform wide table call).2 ∧
      Sound wide ((perform wide table call).2.map (·.claim)) := by
  cases call with
  | grant claim publisher => exact grant_keeps exclusive sound claim publisher
  | transfer claim publisher =>
    rcases transfer_cases wide table claim publisher with ⟨_,same⟩ | ⟨_,_,same,claims,apart⟩
    · simp only [perform,same]
      exact ⟨exclusive,sound⟩
    · simp only [perform,same,claims]
      exact ⟨apart,sound⟩
  | transferSuite root publisher =>
    rcases transferSuite_cases wide table root publisher with ⟨_,same⟩ | ⟨_,_,same,claims,apart⟩
    · simp only [perform,same]
      exact ⟨exclusive,sound⟩
    · simp only [perform,same,claims]
      exact ⟨apart,sound⟩

theorem run_sound (calls : List Call) : Exclusive wide (run wide calls) ∧
    Sound wide ((run wide calls).map (·.claim)) := by
  have keeps : ∀ table, Exclusive wide table ∧ Sound wide (table.map (·.claim)) →
      Exclusive wide (calls.foldl (fun table call => (perform wide table call).2) table) ∧
      Sound wide ((calls.foldl (fun table call => (perform wide table call).2) table).map
        (·.claim)) := by
    induction calls with
    | nil => exact fun _ kept => kept
    | cons call calls ih => exact fun _ kept => ih _ (perform_keeps kept.1 kept.2 call)
  exact keeps [] ⟨nofun,List.nodup_nil,nofun,nofun⟩

/-- A namespace above a claim. -/
def Encloses (wide : Char → List Char) (claim root : String) : Prop :=
  claim ≠ root ∧ validateName claim = none ∧
    if validateName root = none then foldedAtoms wide claim <+: foldedAtoms wide root
    else claimCovers wide claim root = true

instance (claim root : String) : Decidable (Encloses wide claim root) := by
  unfold Encloses
  infer_instance

/-- Some exact id held is covered by a namespace nested in the root, and not by the root, as it
continues the root after a separator that is not a dot. -/
def Stranded (wide : Char → List Char) (table : List Grant) (root : String) : Prop :=
  validateName root = none ∧ ∃ g ∈ table, ∃ e ∈ table, validateName g.claim = none ∧
    validateName e.claim ≠ none ∧ foldedAtoms wide root <+: foldedAtoms wide g.claim ∧
    claimCovers wide g.claim e.claim = true ∧ claimCovers wide root e.claim = false

instance (table : List Grant) (root : String) : Decidable (Stranded wide table root) := by
  unfold Stranded
  infer_instance

theorem nested_iff (canonical : Canonical wide root) (canonical' : Canonical wide claim) :
    nested wide root claim = true ↔
      claimsConflict wide root claim = true ∧ ¬ Encloses wide claim root := by
  unfold nested Encloses
  by_cases first : validateName root = none
  · by_cases second : validateName claim = none
    · simp only [first,second,beq_self_eq_true,Bool.true_and,if_true,Bool.or_eq_true,beq_iff_eq,
        List.isPrefixOf_iff_prefix,starts_iff first second canonical canonical',
        conflict_namespaces first second,ne_eq,true_and]
      constructor
      · rintro (rfl | ⟨under,other⟩)
        · exact ⟨.inl List.prefix_rfl,fun above => above.1 rfl⟩
        · refine ⟨.inl under,fun above => other ?_⟩
          refine canonical_ext first second canonical canonical' ?_
          exact under.eq_of_length_le above.2.length_le
      · rintro ⟨under | above,apart⟩
        · by_cases same : claim = root
          · exact .inl same
          · exact .inr ⟨under,Ne.symm same⟩
        · by_contra outside
          exact apart ⟨fun same => outside (.inl same),above⟩
    · have other : claim ≠ root := fun same => second (same ▸ first)
      simp [first,second,other,conflict_mixed first second]
  · simp only [first,if_false,ne_eq,beq_iff_eq,Bool.or_eq_true]
    by_cases second : validateName claim = none
    · have other : claim ≠ root := fun same => first (same ▸ second)
      rw [conflict_comm,conflict_mixed second first]
      simp [second,other,first]
    · rw [conflict_exact first second]
      simp [second,first,@eq_comm _ root]

/-- A grant in another publisher's hands. -/
def Grant.give (wide : Char → List Char) (publisher : String) (g : Grant) : Grant :=
  ⟨g.claim,canonicalName wide publisher⟩

/-- The table with everything that conflicts with the root in another publisher's hands. -/
def handed (wide : Char → List Char) (table : List Grant) (root publisher : String) : List Grant :=
  table.map fun g => if claimsConflict wide root g.claim then g.give wide publisher else g

theorem same_owner (exclusive : Exclusive wide table) {g h : Grant} (inside : g ∈ table)
    (inside' : h ∈ table) (clash : claimsConflict wide g.claim h.claim = true) :
    h.publisher = g.publisher := by
  by_contra other
  have free := exclusive g inside h inside' (Ne.symm other)
  rw [clash] at free
  contradiction

theorem parted {m h : String} (canonical : Canonical wide root) (canonical' : Canonical wide m)
    (leaves : claimsConflict wide root m = true) (outside : ¬ Encloses wide m root)
    (stays : claimsConflict wide root h = false)
    (covered : validateName root = none → validateName m = none → validateName h ≠ none →
      foldedAtoms wide root <+: foldedAtoms wide m → claimCovers wide m h = true →
      claimCovers wide root h = true) : claimsConflict wide m h = false := by
  by_contra clash
  rw [Bool.not_eq_false] at clash
  have inside := (nested_iff canonical canonical').mpr ⟨leaves,outside⟩
  have away : ∀ {h' : Prop}, claimsConflict wide root h = true → h' := fun {_} conflict => by
    rw [stays] at conflict
    contradiction
  by_cases root_ : validateName root = none
  · by_cases name : validateName m = none
    · have under : foldedAtoms wide root <+: foldedAtoms wide m := by
        rcases (conflict_namespaces root_ name).mp leaves with under | above
        · exact under
        · by_cases same : m = root
          · rw [same]
          · exact absurd ⟨same,name,by rwa [if_pos root_]⟩ outside
      by_cases other : validateName h = none
      · apply away
        rw [conflict_namespaces root_ other]
        rcases (conflict_namespaces name other).mp clash with longer | shorter
        · exact .inl (under.trans longer)
        · exact List.prefix_or_prefix_of_prefix under shorter
      · rw [conflict_mixed name other] at clash
        apply away
        rw [conflict_mixed root_ other]
        exact covered root_ name other under clash
    · rw [conflict_mixed root_ name] at leaves
      by_cases other : validateName h = none
      · rw [conflict_comm,conflict_mixed other name] at clash
        exact away (covered_conflict leaves clash)
      · obtain rfl := (conflict_exact name other).mp clash
        exact away (by rwa [conflict_mixed root_ name])
  · obtain rfl : m = root := by simpa [nested,root_] using inside
    exact away clash

theorem handed_exclusive (exclusive : Exclusive wide table) (sound : Sound wide (table.map (·.claim)))
    {held : Grant} (inside : held ∈ table) (top : ∀ g ∈ table, ¬ Encloses wide g.claim held.claim) :
    Exclusive wide (handed wide table held.claim publisher) ↔
      canonicalName wide publisher = held.publisher ∨ ¬ Stranded wide table held.claim := by
  have canonical {g : Grant} (inside : g ∈ table) : Canonical wide g.claim :=
    sound.canonical _ (List.mem_map_of_mem inside)
  constructor
  · intro kept
    by_contra neither
    obtain ⟨other,stranded⟩ := not_or.mp neither
    obtain ⟨root_,g,inside_g,e,inside_e,name,exact_,under,covered,uncovered⟩ :=
      not_not.mp stranded
    have leaves : claimsConflict wide held.claim g.claim = true :=
      (conflict_namespaces root_ name).mpr (.inl under)
    have stays : claimsConflict wide held.claim e.claim = false := by
      rwa [conflict_mixed root_ exact_]
    have clash : claimsConflict wide g.claim e.claim = true := by
      rwa [conflict_mixed name exact_]
    have owner := same_owner exclusive inside inside_g leaves
    have owner' := same_owner exclusive inside_g inside_e clash
    have moved : g.give wide publisher ∈ handed wide table held.claim publisher :=
      List.mem_map.mpr ⟨g,inside_g,if_pos leaves⟩
    have left_ : e ∈ handed wide table held.claim publisher :=
      List.mem_map.mpr ⟨e,inside_e,if_neg (by simp [stays])⟩
    have free := kept _ moved _ left_ fun same => other (same.trans (owner'.trans owner))
    simp only [Grant.give] at free
    rw [clash] at free
    contradiction
  · intro safe a moved b moved'
    obtain ⟨g,inside_g,rfl⟩ := List.mem_map.mp moved
    obtain ⟨h,inside_h,rfl⟩ := List.mem_map.mp moved'
    have part {g h : Grant} (inside_g : g ∈ table) (inside_h : h ∈ table)
        (leaves : claimsConflict wide held.claim g.claim = true)
        (stays : claimsConflict wide held.claim h.claim = false) :
        Apart wide (g.give wide publisher) h := by
      intro other
      have owner := same_owner exclusive inside inside_g leaves
      rcases safe with same | stranded
      · refine exclusive g inside_g h inside_h ?_
        rw [owner,← same]
        exact other
      · change claimsConflict wide g.claim h.claim = false
        refine parted (canonical inside) (canonical inside_g) leaves (top g inside_g) stays ?_
        intro root_ name exact_ under covered
        by_contra uncovered
        rw [Bool.not_eq_true] at uncovered
        exact stranded
          ⟨root_,g,inside_g,h,inside_h,name,exact_,under,covered,uncovered⟩
    by_cases leaves : claimsConflict wide held.claim g.claim = true
    · rw [if_pos leaves]
      by_cases leaves' : claimsConflict wide held.claim h.claim = true
      · rw [if_pos leaves']
        exact fun other => absurd rfl other
      · rw [if_neg leaves']
        exact part inside_g inside_h leaves (by simpa using leaves')
    · rw [if_neg leaves]
      by_cases leaves' : claimsConflict wide held.claim h.claim = true
      · rw [if_pos leaves']
        exact Std.Symm.symm _ _ (part inside_h inside_g leaves' (by simpa using leaves))
      · rw [if_neg leaves']
        exact exclusive g inside_g h inside_h

theorem ownerOf_canonical (claim : String) :
    ownerOf wide table (canonicalClaim wide claim) = ownerOf wide table claim := by
  unfold ownerOf
  rw [canonicalClaim_canonical claim]

theorem transferSuite_handed (exclusive : Exclusive wide table)
    (sound : Sound wide (table.map (·.claim))) {held : Grant} (inside : held ∈ table)
    (same : held.claim = canonicalClaim wide root)
    (owned : ownerOf wide table root = some held.publisher)
    (top : ∀ g ∈ table, ¬ Encloses wide g.claim held.claim) :
    transferSuite wide table root publisher =
        (.ok ((conflicting wide table held.claim).map (·.give wide publisher)),
          handed wide table held.claim publisher) ↔
      Exclusive wide (handed wide table held.claim publisher) := by
  have canonical {g : Grant} (inside : g ∈ table) : Canonical wide g.claim :=
    sound.canonical _ (List.mem_map_of_mem inside)
  have moves : ∀ g ∈ table, (g.publisher == held.publisher && nested wide held.claim g.claim) =
      claimsConflict wide held.claim g.claim := by
    intro g inside'
    rw [Bool.eq_iff_iff,Bool.and_eq_true,beq_iff_eq,
      nested_iff (canonical inside) (canonical inside'),and_iff_left (top g inside')]
    exact and_iff_right_of_imp (same_owner exclusive inside inside')
  have proposed : (table.map fun g => if (g.publisher == held.publisher &&
      nested wide held.claim g.claim) = true then g.give wide publisher else g) =
      handed wide table held.claim publisher := by
    refine List.map_congr_left fun g inside' => ?_
    rw [moves g inside']
  have moved : (table.filter fun g => g.publisher == held.publisher &&
      nested wide held.claim g.claim) = conflicting wide table held.claim := by
    refine List.filter_congr fun g inside' => ?_
    rw [moves g inside',conflict_comm]
  have owned' : ownerOf wide table held.claim = some held.publisher := by
    rw [same,ownerOf_canonical,owned]
  rw [← firstSplit_none]
  unfold transferSuite
  simp only [← same,owned']
  unfold Grant.give at proposed
  rw [proposed,moved]
  split
  · rename_i split_
    simp [split_]
  · rename_i whole
    simp [whole,Grant.give]

/-- For every history of calls: no two publishers hold claims that conflict, no claim is held twice
or under a reserved root, and a call that fails changes nothing. A suite that nothing encloses
changes hands as a whole exactly where it goes to its own publisher or strands no id. -/
theorem suites_move (wide : Char → List Char) (calls : List Call) :
    (∀ g ∈ run wide calls, ∀ h ∈ run wide calls, g.publisher ≠ h.publisher →
      claimsConflict wide g.claim h.claim = false) ∧
    ((run wide calls).map (·.claim)).Nodup ∧
    (∀ g ∈ run wide calls, Canonical wide g.claim ∧ ∀ root ∈ reservedNamespaces,
      claimsConflict wide root g.claim = false) ∧
    (∀ call problem, (perform wide (run wide calls) call).1 = .error problem →
      (perform wide (run wide calls) call).2 = run wide calls) ∧
    ∀ root publisher owner, ownerOf wide (run wide calls) root = some owner →
      (∀ g ∈ run wide calls, ¬ Encloses wide g.claim (canonicalClaim wide root)) →
      (perform wide (run wide calls) (.transferSuite root publisher) =
          (.ok ((conflicting wide (run wide calls) (canonicalClaim wide root)).map
              (·.give wide publisher)),
            handed wide (run wide calls) (canonicalClaim wide root) publisher) ↔
        canonicalName wide publisher = owner ∨
          ¬ Stranded wide (run wide calls) (canonicalClaim wide root)) := by
  obtain ⟨exclusive,sound⟩ := @run_sound wide calls
  refine ⟨exclusive,sound.once,fun g inside => ?_,fun call problem => perform_failed _ call,?_⟩
  · exact ⟨sound.canonical _ (List.mem_map_of_mem inside),
      sound.unreserved _ (List.mem_map_of_mem inside)⟩
  · intro root publisher owner owned top
    obtain ⟨held,found,rfl⟩ := Option.map_eq_some_iff.mp owned
    have inside := List.mem_of_find?_eq_some found
    have same : held.claim = canonicalClaim wide root := by simpa using List.find?_some found
    rw [← same] at top ⊢
    exact (transferSuite_handed exclusive sound inside same owned top).trans
      (handed_exclusive exclusive sound inside top)

theorem suites_move_blur :
    let calls : List Call := [.grant "img" "a",.grant "img.blur" "a",.grant "sound" "c"]
    perform (fun c => [c]) (run (fun c => [c]) calls) (.transferSuite "img" "b") =
      (.ok [⟨"img","b"⟩,⟨"img-blur","b"⟩],[⟨"img","b"⟩,⟨"img-blur","b"⟩,⟨"sound","c"⟩]) := by
  refine Eq.trans (((suites_move (fun c => [c]) _).2.2.2.2 "img" "b" "a" ?_ ?_).mpr ?_) ?_
  all_goals decide +kernel

/-- `img-extra.Blur` is covered by `img-extra`, which is nested in `img`, and not by `img`. -/
theorem stranded_suite :
    let table := run (fun c => [c])
      [.grant "img" "a",.grant "img-extra" "a",.grant "img-extra.Blur" "a"]
    ownerOf (fun c => [c]) table "img" = some "a" ∧
    (∀ g ∈ table, ¬ Encloses (fun c => [c]) g.claim (canonicalClaim (fun c => [c]) "img")) ∧
    perform (fun c => [c]) table (.transferSuite "img" "b") =
      (.error (.suiteSplit "img" "b" "img-extra" "img-extra.Blur"),table) := by
  decide +kernel

end Dinkster.Grants
