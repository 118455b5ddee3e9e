import Dinkster.Workers.Dispatch

/-! Residency never crosses arms: bodies see, and results carry, only references of the selected
arm; and what one arm returned is accepted later for that arm alone, unless no producer was ever
stamped, which makes it the state of every default body of its session. -/
namespace Dinkster.Dispatch
open Caches (MetaValue Envelope)

variable {Obj Domain : Type}

mutual

theorem tree_qualify (owner arm : String) : ∀ v : Value Obj,
    Caches.iterValueTree (qualifyProducerArm owner arm v) =
      (Caches.iterValueTree v).map (stampArm owner arm)
  | .leaf e content => by
    rw [qualifyProducerArm,Caches.iterValueTree,Caches.iterValueTree]
    rfl
  | .list e children => by
    rw [qualifyProducerArm,Caches.iterValueTree,Caches.iterValueTree,List.map_cons,
      trees_qualify owner arm children]
  | .tuple e children => by
    rw [qualifyProducerArm,Caches.iterValueTree,Caches.iterValueTree,List.map_cons,
      trees_qualify owner arm children]

theorem trees_qualify (owner arm : String) : ∀ children : List (Value Obj),
    Caches.iterValueTrees (qualifyChildren owner arm children) =
      (Caches.iterValueTrees children).map (stampArm owner arm)
  | [] => by
    rw [qualifyChildren,Caches.iterValueTrees]
    rfl
  | child :: rest => by
    rw [qualifyChildren,Caches.iterValueTrees,Caches.iterValueTrees,List.map_append,
      tree_qualify owner arm child,trees_qualify owner arm rest]

end

theorem heldBy_stampArm (owner arm : String) (e : Envelope Obj Unit) :
    heldBy owner (stampArm owner arm e) = heldBy owner e := by
  unfold stampArm
  split
  · unfold heldBy
    dsimp only
    rw [Dict.get?_set_ne _ _ (by decide),Dict.get?_set_ne _ _ (by decide)]
  · rfl

theorem producer_stampArm {owner arm : String} {e : Envelope Obj Unit}
    (held : heldBy owner e = true) :
    (stampArm owner arm e).info.get? "resourceProducerArm" = some (.str arm) := by
  unfold stampArm
  rw [if_pos held]
  exact Dict.get?_set_self ..

variable [DecidableEq Domain]

namespace DispatchWorker

variable (d : DispatchWorker Domain) {resolveOwner : String → Option Domain} {target : String}
  {values : List (String × Value Obj)} {value : Value Obj} {ref : Reference Obj}

def OwnedBy (resolveOwner : String → Option Domain) (target : String) (ref : Reference Obj) :
    Prop :=
  ∃ owner domain, ref.owner = .str owner ∧ resolveOwner owner = some domain ∧
    d.armDomains.get? target = some domain

/-- Every reference of the value belongs to the arm's session and to its body. -/
def Admitted (resolveOwner : String → Option Domain) (target : String) (value : Value Obj) :
    Prop :=
  ∀ ref ∈ provenanceRefs value,
    d.OwnedBy resolveOwner target ref ∧ d.producerArm target ref = some target

theorem textOf_eq_some {m : MetaValue Obj} {s : String} :
    Caches.textOf m = some s ↔ m = .str s := by
  cases m <;> simp [Caches.textOf]

theorem referenceProblem_eq_none {required : Bool} :
    d.referenceProblem resolveOwner target required ref = none ↔
      d.OwnedBy resolveOwner target ref ∧
        (required = true → d.producerArm target ref = some target) := by
  unfold referenceProblem OwnedBy
  cases text : Caches.textOf ref.owner with
  | none =>
    have noText (owner : String) : ref.owner ≠ .str owner := fun same =>
      absurd (textOf_eq_some.mpr same) (by simp [text])
    simp [noText]
  | some owner =>
    have same := textOf_eq_some.mp text
    simp only [same,MetaValue.str.injEq,exists_and_left,exists_eq_left']
    cases resolved : resolveOwner owner with
    | none => simp
    | some domain =>
      simp only [Option.some.injEq,exists_eq_left']
      by_cases home : d.armDomains.get? target = some domain
      · cases required with
        | false => simp [home]
        | true =>
          unfold producerProblem
          cases mapped : d.producerArm target ref with
          | none => simp [home]
          | some arm => simp [home]
      · simp [home]

theorem ownershipProblem_eq_none {required : Bool} :
    d.ownershipProblem resolveOwner values target required = none ↔
      ∀ e ∈ values, ∀ ref ∈ provenanceRefs e.2, d.OwnedBy resolveOwner target ref ∧
        (required = true → d.producerArm target ref = some target) := by
  unfold ownershipProblem
  simp only [List.findSome?_eq_none_iff,List.mem_flatMap,List.mem_map,Option.map_eq_none_iff,
    referenceProblem_eq_none]
  constructor
  · intro clear e inside ref found
    exact clear (e.1,ref) ⟨e,inside,ref,found,rfl⟩
  · rintro admitted _ ⟨e,inside,ref,found,rfl⟩
    exact admitted e inside ref found

theorem admitted_iff : d.ownershipProblem resolveOwner values target true = none ↔
    ∀ e ∈ values, d.Admitted resolveOwner target e.2 := by
  simp [ownershipProblem_eq_none,Admitted]

section Invoke

variable (quote : String → String) (quoteValue : MetaValue Obj → String)
  (resolveBefore resolveAfter : String → Option Domain) (bodies : String → Body Obj)
  (invocation : Invocation Obj)

theorem invoked_iff (arm : String) (seen : Invocation Obj) :
    (d.invoke quote quoteValue resolveBefore resolveAfter bodies invocation).invoked =
        some (arm,seen) ↔
      seen = invocation ∧ invocation.executor = some arm ∧ arm ∈ d.arms ∧
        ∀ e ∈ invocation.inputs, d.Admitted resolveBefore arm e.2 := by
  unfold invoke
  cases selected : invocation.executor with
  | none => simp
  | some target =>
    dsimp only
    by_cases known : target ∈ d.arms
    · rw [if_neg (not_not.mpr known)]
      cases problem : d.ownershipProblem resolveBefore invocation.inputs target true with
      | some found =>
        have refused : ¬ ∀ e ∈ invocation.inputs, d.Admitted resolveBefore target e.2 := by
          rw [← admitted_iff,problem]
          simp
        constructor
        · intro ran
          cases ran
        · rintro ⟨_,same,_,admitted⟩
          rw [Option.some.inj same] at refused
          exact absurd admitted refused
      | none =>
        have admitted := d.admitted_iff.mp problem
        constructor
        · intro same
          obtain ⟨rfl,rfl⟩ := Prod.mk.inj (Option.some.inj same)
          exact ⟨rfl,rfl,known,admitted⟩
        · rintro ⟨rfl,same,_,_⟩
          rw [Option.some.inj same]
    · rw [if_pos known]
      constructor
      · intro ran
        cases ran
      · rintro ⟨_,same,inside,_⟩
        exact absurd (Option.some.inj same ▸ inside) known

theorem returned {outputs : List (String × Value Obj)}
    (came : (d.invoke quote quoteValue resolveBefore resolveAfter bodies
      invocation).result.outputs = some outputs) :
    ∃ arm, invocation.executor = some arm ∧ arm ∈ d.arms ∧
      (bodies arm invocation).outputs = some outputs ∧
      ∀ e ∈ outputs, d.Admitted resolveAfter arm e.2 := by
  unfold invoke at came
  split at came
  · cases came
  · rename_i target selected
    split at came
    · cases came
    · rename_i known
      split at came
      · cases came
      · rename_i admitted
        dsimp only at came
        unfold deliver at came
        split at came
        · rename_i nothing
          rw [nothing] at came
          cases came
        · rename_i found answered
          split at came
          · cases came
          · rename_i clear
            rw [answered] at came
            obtain rfl := Option.some.inj came
            exact ⟨target,selected,not_not.mp known,answered,d.admitted_iff.mp clear⟩

end Invoke

omit [DecidableEq Domain]

/-- No reference of the value has a producer stamp. -/
def Unstamped (value : Value Obj) : Prop := ∀ ref ∈ provenanceRefs value, ref.producer = none

/-- What an arm has returned is admitted for an arm exactly when it is the same arm, or when no
producer was stamped and the other arm is a default body of the same domain. -/
theorem admitted_again {arm other : String} (resident : provenanceRefs value ≠ [])
    (admitted : d.Admitted resolveOwner arm value) :
    d.Admitted resolveOwner other value ↔
      other = arm ∨ (Unstamped value ∧ d.armDomains.get? other = d.armDomains.get? arm ∧
        d.defaultArms.get? other = some other) := by
  obtain ⟨first,listed⟩ := List.exists_mem_of_ne_nil _ resident
  constructor
  · intro again
    by_cases same : other = arm
    · exact .inl same
    · have plain : Unstamped value := by
        intro ref found
        have mapped := (admitted ref found).2
        have mapped' := (again ref found).2
        unfold producerArm at mapped mapped'
        cases producer : ref.producer with
        | none => rfl
        | some stamp =>
          rw [producer] at mapped mapped'
          cases stamp with
          | str name => exact absurd (Option.some.inj (mapped'.symm.trans mapped)) same
          | none | bool | int | float | list | tuple | dict | object => cases mapped
      refine .inr ⟨plain,?_,?_⟩
      · obtain ⟨owner,domain,text,resolved,home⟩ := (admitted first listed).1
        obtain ⟨owner',domain',text',resolved',home'⟩ := (again first listed).1
        rw [text] at text'
        obtain rfl := MetaValue.str.inj text'
        rw [resolved] at resolved'
        rw [home,home',Option.some.inj resolved']
      · have mapped := (again first listed).2
        unfold producerArm at mapped
        rwa [plain first listed] at mapped
  · rintro (rfl | ⟨plain,home,default_⟩)
    · exact admitted
    · intro ref found
      obtain ⟨owner,domain,text,resolved,there⟩ := (admitted ref found).1
      refine ⟨⟨owner,domain,text,resolved,home.trans there⟩,?_⟩
      unfold producerArm
      rw [plain ref found]
      exact default_

end DispatchWorker

theorem ArmWorker.stamped {w : ArmWorker} {worker : Body Obj} {invocation : Invocation Obj}
    {owner producer name : String} {value : Value Obj} {outputs : List (String × Value Obj)}
    {e : Envelope Obj Unit} (token : w.instanceToken = some owner)
    (qualifies : w.producerArm = some producer)
    (came : (w.invoke worker invocation).outputs = some outputs) (listed : (name,value) ∈ outputs)
    (inside : e ∈ Caches.iterValueTree value) (held : heldBy owner e = true) :
    e.info.get? "resourceProducerArm" = some (.str producer) := by
  unfold ArmWorker.invoke at came
  rw [token,qualifies] at came
  cases answered : (worker { invocation with arm := w.arm }).outputs with
  | none => simp [answered] at came
  | some raw =>
    simp only [answered,Option.some.injEq] at came
    subst came
    obtain ⟨⟨_,bare⟩,_,same⟩ := List.mem_map.mp listed
    obtain ⟨_,rfl⟩ := Prod.mk.inj same
    rw [tree_qualify] at inside
    obtain ⟨before,_,rfl⟩ := List.mem_map.mp inside
    rw [heldBy_stampArm] at held
    exact producer_stampArm held

theorem reference_of_held {owner : String} {value : Value Obj} {e : Envelope Obj Unit}
    (inside : e ∈ Caches.iterValueTree value) (held : heldBy owner e = true) :
    ∃ ref ∈ provenanceRefs value, ref.producer = e.info.get? "resourceProducerArm" := by
  unfold heldBy at held
  obtain ⟨rid,text⟩ := Option.isSome_iff_exists.mp (Bool.and_eq_true_iff.mp held).1
  obtain ⟨m,found,same⟩ := Option.bind_eq_some_iff.mp text
  rw [DispatchWorker.textOf_eq_some] at same
  subst same
  have named : rid ∈ e.localResourceIds := by
    unfold Envelope.localResourceIds
    rw [found]
    exact List.mem_append_left _ (List.mem_singleton.mpr rfl)
  exact ⟨_,List.mem_flatMap.mpr ⟨e,inside,List.mem_map.mpr ⟨rid,named,rfl⟩⟩,rfl⟩

/-- Bodies run on admitted inputs alone and only admitted outputs come back. In a run over one
session a resident output of an arm is accepted later for that arm and, unless a producer is
stamped on it, for the default bodies of its domain; what a qualifying arm returns is stamped. -/
theorem residency (d : DispatchWorker Domain) (quote : String → String)
    (quoteValue : MetaValue Obj → String) :
    (∀ before after bodies invocation arm seen,
      (d.invoke quote quoteValue before after bodies invocation).invoked = some (arm,seen) ↔
        seen = invocation ∧ invocation.executor = some arm ∧ arm ∈ d.arms ∧
          ∀ e ∈ invocation.inputs, d.Admitted before arm e.2) ∧
    (∀ before after bodies invocation outputs,
      (d.invoke quote quoteValue before after bodies invocation).result.outputs = some outputs →
        ∃ arm, invocation.executor = some arm ∧ arm ∈ d.arms ∧
          ∀ e ∈ outputs, d.Admitted after arm e.2) ∧
    (∀ (session : Session Domain) (calls : List (Call Obj)) (first later : Call Obj) (i j : Nat)
        arm other name value outputs, i < j → calls[i]? = some first → calls[j]? = some later →
      first.invocation.executor = some arm → later.invocation.executor = some other →
      (session.outcome d quote quoteValue first).result.outputs = some outputs →
      (name,value) ∈ outputs → provenanceRefs value ≠ [] →
      (d.Admitted session.resolveOwner other value ↔
        other = arm ∨ (DispatchWorker.Unstamped value ∧
          d.armDomains.get? other = d.armDomains.get? arm ∧
          d.defaultArms.get? other = some other)) ∧
      ∀ producer, (session.workers arm).producerArm = some producer →
        (∃ e ∈ Caches.iterValueTree value, heldBy session.token e = true) →
        d.producerTargets.get? producer = some arm ∧
        (d.Admitted session.resolveOwner other value ↔ other = arm)) := by
  refine ⟨fun before after bodies invocation => d.invoked_iff quote quoteValue before after bodies
    invocation,?_,?_⟩
  · intro before after bodies invocation outputs came
    obtain ⟨arm,selected,known,_,admitted⟩ := d.returned quote quoteValue before after bodies
      invocation came
    exact ⟨arm,selected,known,admitted⟩
  · intro session calls first later i j arm other name value outputs _ _ _ selected _ came
      listed resident
    obtain ⟨arm',same,_,answered,each⟩ := d.returned quote quoteValue _ _ _ _ came
    obtain rfl : arm = arm' := Option.some.inj (selected.symm.trans same)
    have admitted := each _ listed
    have again := @DispatchWorker.admitted_again _ _ d _ _ _ other resident admitted
    refine ⟨again,?_⟩
    rintro producer qualifies ⟨e,inside,held⟩
    have stamp := ArmWorker.stamped (session.shared arm) qualifies answered listed inside held
    obtain ⟨ref,found,stamped⟩ := reference_of_held inside held
    rw [stamp] at stamped
    have mapped := (admitted ref found).2
    unfold DispatchWorker.producerArm at mapped
    rw [stamped] at mapped
    refine ⟨mapped,again.trans ?_⟩
    constructor
    · rintro (same | ⟨plain,_⟩)
      · exact same
      · rw [plain ref found] at stamped
        cases stamped
    · exact .inl

/-- Two packs whose default bodies share one session. -/
def twoDefaults : DispatchWorker Unit where
  arms := ["a","b"]
  armDomains := .ofList [("a",()),("b",())]
  defaultArms := .ofList [("a","a"),("b","b")]
  producerTargets := .ofList [("a","a"),("b","b")]
  nonempty := by decide
  named := by decide
  affinity := by decide
  domains := by decide
  defaults := by decide
  sameDomain := by decide

def sharedSession : Session Unit where
  token := "session"
  domain := ()
  workers := fun _ => ⟨some "session",none,none⟩
  resolveOwner := fun token => if token = "session" then some () else none
  shared := fun _ => rfl
  live := rfl

/-- A resident stub without a producer stamp. -/
def plainStub : Value Unit :=
  .leaf ⟨"handle","f",.ofList [("resourceId",.str "r"),("resourceOwner",.str "session")],()⟩
    (.object ())

/-- The body of `a` returns the stub and the body of `b` gets it. -/
def handOver : List (Call Unit) :=
  [⟨⟨"n","t",[],some "a",none⟩,fun _ => ⟨some [("out",plainStub)],none⟩⟩,
    ⟨⟨"m","t",[("in",plainStub)],some "b",none⟩,fun _ => ⟨none,none⟩⟩]

/-- A resident output of one arm runs the body of another. -/
theorem unstamped_crosses : ∃ (first later : Call Unit) (outputs : List (String × Value Unit)),
    handOver = [first,later] ∧
    (sharedSession.outcome twoDefaults id (fun _ => "") first).result.outputs = some outputs ∧
    ("out",plainStub) ∈ outputs ∧ provenanceRefs plainStub ≠ [] ∧
    (sharedSession.outcome twoDefaults id (fun _ => "") later).invoked =
      some ("b",later.invocation) ∧
    twoDefaults.producerArm "a" (⟨"r",.str "session",none⟩ : Reference Unit) = some "a" := by
  have refs : provenanceRefs plainStub = [⟨"r",.str "session",none⟩] := rfl
  have admitted (arm : String) (inside : arm = "a" ∨ arm = "b") :
      twoDefaults.Admitted sharedSession.resolveOwner arm plainStub := by
    intro ref found
    rw [refs,List.mem_singleton] at found
    subst found
    rcases inside with rfl | rfl
    · exact ⟨⟨"session",(),rfl,rfl,rfl⟩,rfl⟩
    · exact ⟨⟨"session",(),rfl,rfl,rfl⟩,rfl⟩
  refine ⟨_,_,[("out",plainStub)],rfl,rfl,by simp,by simp [refs],?_,rfl⟩
  apply (twoDefaults.invoked_iff id (fun _ => "") _ _ _ _ _ _).mpr
  refine ⟨rfl,rfl,by decide,?_⟩
  intro e inside
  rw [List.mem_singleton.mp inside]
  exact admitted "b" (.inr rfl)

end Dinkster.Dispatch
