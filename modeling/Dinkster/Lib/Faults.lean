import Mathlib.Data.List.Infix

/-! Programs over a durable state, every operation of which a fault may befall: the process stops
before it, or it raises before or after taking effect. A schedule names the faults in the order
the operations are performed, so one schedule is one interrupted run. -/
namespace Faults

universe u v w
variable {σ : Type u} {ε : Type v} {α β : Type w}

inductive Fault (ε : Type v)
  | stop
  | early (error : ε)
  | late (error : ε)
  deriving DecidableEq

abbrev Schedule (ε : Type v) := List (Option (Fault ε))

inductive Ending (ε : Type v) (α : Type w)
  | returned (a : α)
  | raised (error : ε)
  | stopped
  deriving DecidableEq

structure Run (σ : Type u) (ε : Type v) (α : Type w) where
  ending : Ending ε α
  state : σ
  rest : Schedule ε

def Prog (σ : Type u) (ε : Type v) (α : Type w) := σ → Schedule ε → Run σ ε α

/-- One operation; what it refuses by itself it refuses before taking effect. -/
def act (f : σ → Except ε (α × σ)) : Prog σ ε α := fun s faults =>
  match faults.head?.join,f s with
  | some .stop,_ => ⟨.stopped,s,faults.tail⟩
  | some (.early error),_ => ⟨.raised error,s,faults.tail⟩
  | some (.late error),.ok (_,next) => ⟨.raised error,next,faults.tail⟩
  | some (.late error),.error _ => ⟨.raised error,s,faults.tail⟩
  | none,.error error => ⟨.raised error,s,faults.tail⟩
  | none,.ok (a,next) => ⟨.returned a,next,faults.tail⟩

def look (f : σ → Except ε α) : Prog σ ε α := act fun s => (f s).map fun a => (a,s)

def put (f : σ → σ) : Prog σ ε PUnit := act fun s => .ok (⟨⟩,f s)

def raise (error : ε) : Prog σ ε α := fun s faults => ⟨.raised error,s,faults⟩

instance : Monad (Prog σ ε) where
  pure a := fun s faults => ⟨.returned a,s,faults⟩
  bind p next := fun s faults =>
    let first := p s faults
    match first.ending with
    | .returned a => next a first.state first.rest
    | .raised error => ⟨.raised error,first.state,first.rest⟩
    | .stopped => ⟨.stopped,first.state,first.rest⟩

def handling (body : Prog σ ε α) (handler : ε → Prog σ ε α) : Prog σ ε α := fun s faults =>
  let first := body s faults
  match first.ending with
  | .raised error => handler error first.state first.rest
  | _ => first

def forEach {γ : Type*} (items : List γ) (body : γ → Prog σ ε PUnit) : Prog σ ε PUnit :=
  match items with
  | [] => pure ⟨⟩
  | item :: rest => do
    body item
    forEach rest body

def onSome {γ : Type*} (value : Option γ) (body : γ → Prog σ ε PUnit) : Prog σ ε PUnit :=
  match value with
  | none => pure ⟨⟩
  | some c => body c

def onlyIf (condition : Prop) [Decidable condition] (body : Prog σ ε PUnit) : Prog σ ε PUnit :=
  if condition then body else pure ⟨⟩

def Quiet (faults : Schedule ε) : Prop := ∀ fault ∈ faults, fault = none

/-- From `pre` a run that returns ends in `post` and any other ends in `mid`; where `sure`
holds only a fault keeps the run from returning. -/
structure Ends (sure : Prop) (faults : Schedule ε) (r : Run σ ε α) (post : α → σ → Prop)
    (mid : σ → Prop) : Prop where
  suffix : r.rest <:+ faults
  returned : ∀ a, r.ending = .returned a → post a r.state
  other : (∀ a, r.ending ≠ .returned a) → mid r.state ∧ (sure → ¬ Quiet faults)

def Meets (sure : Prop) (p : Prog σ ε α) (pre : σ → Prop) (post : α → σ → Prop)
    (mid : σ → Prop) : Prop :=
  ∀ s faults, pre s → Ends sure faults (p s faults) post mid

variable {sure : Prop} {p : Prog σ ε α} {pre pre' mid mid' : σ → Prop} {post post' : α → σ → Prop}

theorem Quiet.suffix {faults rest : Schedule ε} (quiet : Quiet faults) (inside : rest <:+ faults) :
    Quiet rest := fun fault member => quiet fault (inside.subset member)

theorem Meets.weaken (meets : Meets sure p pre post mid) (before : ∀ s, pre' s → pre s)
    (after : ∀ a s, post a s → post' a s) (between : ∀ s, mid s → mid' s) :
    Meets sure p pre' post' mid' := by
  intro s faults start
  obtain ⟨suffix,returned,other⟩ := meets s faults (before s start)
  refine ⟨suffix,?_,?_⟩
  · intro a ended
    exact after a _ (returned a ended)
  · intro unreturned
    obtain ⟨left,blamed⟩ := other unreturned
    exact ⟨between _ left,blamed⟩

theorem Meets.known {fact : Prop} (meets : fact → Meets sure p pre post mid) :
    Meets sure p (fun s => fact ∧ pre s) post mid := by
  rintro s faults ⟨known,start⟩
  exact meets known s faults start

theorem meets_pure {a : α} (between : ∀ s, pre s → post a s) :
    Meets sure (pure a : Prog σ ε α) pre post mid := by
  intro s faults start
  refine ⟨List.suffix_refl _,?_,?_⟩
  · rintro _ ⟨⟩
    exact between s start
  · intro unreturned
    exact absurd rfl (unreturned a)

theorem meets_raise {error : ε} (left : ∀ s, pre s → mid s) :
    Meets False (raise error : Prog σ ε α) pre post mid := by
  intro s faults start
  refine ⟨List.suffix_refl _,?_,?_⟩
  · rintro _ ⟨⟩
  · intro _
    exact ⟨left s start,False.elim⟩

theorem Meets.bind {q : α → Prog σ ε β} {between : α → σ → Prop} {goal : β → σ → Prop}
    (first : Meets sure p pre between mid) (second : ∀ a, Meets sure (q a) (between a) goal mid) :
    Meets sure (p >>= q) pre goal mid := by
  intro s faults start
  obtain ⟨suffix,returned,other⟩ := first s faults start
  change Ends sure faults (match (p s faults).ending with
    | .returned a => q a (p s faults).state (p s faults).rest
    | .raised error => ⟨.raised error,(p s faults).state,(p s faults).rest⟩
    | .stopped => ⟨.stopped,(p s faults).state,(p s faults).rest⟩) goal mid
  cases ended : (p s faults).ending with
  | returned a =>
    obtain ⟨suffix',returned',other'⟩ := second a _ (p s faults).rest (returned a ended)
    refine ⟨suffix'.trans suffix,returned',?_⟩
    intro unreturned
    obtain ⟨left,blamed⟩ := other' unreturned
    exact ⟨left,fun holds quiet => blamed holds (quiet.suffix suffix)⟩
  | raised error => exact ⟨suffix,nofun,fun _ => other (by simp [ended])⟩
  | stopped => exact ⟨suffix,nofun,fun _ => other (by simp [ended])⟩

/-- The rule for one operation: nothing before it and nothing it does may leave `mid`, and what
it refuses it may refuse only where the run need not return. -/
theorem meets_act {f : σ → Except ε (α × σ)} (left : ∀ s, pre s → mid s)
    (done : ∀ s a next, pre s → f s = .ok (a,next) → post a next ∧ mid next)
    (refused : ∀ s error, pre s → f s = .error error → ¬ sure) :
    Meets sure (act f) pre post mid := by
  intro s faults start
  have tail : faults.tail <:+ faults := List.tail_suffix _
  have loud : ∀ fault, faults.head?.join = some fault → ¬ Quiet faults := by
    intro fault first quiet
    cases faults with
    | nil => cases first
    | cons head rest =>
      rw [quiet head List.mem_cons_self] at first
      cases first
  unfold act
  cases first : faults.head?.join with
  | none =>
    cases result : f s with
    | error error => exact ⟨tail,nofun,fun _ => ⟨left s start,fun holds => absurd holds (refused s error start result)⟩⟩
    | ok pair =>
      obtain ⟨a,next⟩ := pair
      refine ⟨tail,?_,fun unreturned => absurd rfl (unreturned a)⟩
      rintro _ ⟨⟩
      exact (done s a next start result).1
  | some fault =>
    cases fault with
    | stop => exact ⟨tail,nofun,fun _ => ⟨left s start,fun _ => loud _ first⟩⟩
    | early error => exact ⟨tail,nofun,fun _ => ⟨left s start,fun _ => loud _ first⟩⟩
    | late error =>
      cases result : f s with
      | error other => exact ⟨tail,nofun,fun _ => ⟨left s start,fun _ => loud _ first⟩⟩
      | ok pair =>
        obtain ⟨a,next⟩ := pair
        exact ⟨tail,nofun,fun _ => ⟨(done s a next start result).2,fun _ => loud _ first⟩⟩

theorem meets_look {f : σ → Except ε α} (left : ∀ s, pre s → mid s)
    (done : ∀ s a, pre s → f s = .ok a → post a s)
    (refused : ∀ s error, pre s → f s = .error error → ¬ sure) :
    Meets sure (look f) pre post mid := by
  apply meets_act left
  · intro s a next start result
    cases read : f s with
    | error error => rw [read] at result; cases result
    | ok b =>
      rw [read] at result
      cases result
      exact ⟨done s a start read,left s start⟩
  · intro s error start result
    cases read : f s with
    | error other => exact refused s other start read
    | ok b => rw [read] at result; cases result

theorem meets_put {f : σ → σ} {goal : PUnit → σ → Prop} (left : ∀ s, pre s → mid s)
    (done : ∀ s, pre s → goal ⟨⟩ (f s) ∧ mid (f s)) :
    Meets sure (put f : Prog σ ε PUnit) pre goal mid := by
  apply meets_act left
  · rintro s _ _ start ⟨⟩
    exact done s start
  · rintro s error start ⟨⟩

theorem Meets.handling {handler : ε → Prog σ ε α} {broken : σ → Prop}
    (body : Meets sure p pre post broken) (handled : ∀ error, Meets sure (handler error) broken post mid)
    (left : ∀ s, broken s → mid s) : Meets sure (handling p handler) pre post mid := by
  intro s faults start
  obtain ⟨suffix,returned,other⟩ := body s faults start
  change Ends sure faults (match (p s faults).ending with
    | .raised error => handler error (p s faults).state (p s faults).rest
    | _ => p s faults) post mid
  cases ended : (p s faults).ending with
  | returned a => exact ⟨suffix,returned,fun unreturned => absurd ended (unreturned a)⟩
  | stopped =>
    refine ⟨suffix,returned,?_⟩
    intro unreturned
    obtain ⟨state,blamed⟩ := other unreturned
    exact ⟨left _ state,blamed⟩
  | raised error =>
    obtain ⟨state,_⟩ := other (by simp [ended])
    obtain ⟨suffix',returned',other'⟩ := handled error _ (p s faults).rest state
    refine ⟨suffix'.trans suffix,returned',?_⟩
    intro unreturned
    obtain ⟨state',blamed⟩ := other' unreturned
    exact ⟨state',fun holds quiet => blamed holds (quiet.suffix suffix)⟩

theorem meets_forEach {γ : Type*} {body : γ → Prog σ ε PUnit} (inv : List γ → σ → Prop)
    (items : List γ) (step : ∀ item rest, (item :: rest) <:+ items →
      Meets sure (body item) (inv (item :: rest)) (fun _ => inv rest) mid) :
    Meets sure (forEach items body) (inv items) (fun _ => inv []) mid := by
  induction items with
  | nil => exact meets_pure fun _ start => start
  | cons item rest ih =>
    apply Meets.bind (step item rest (List.suffix_refl _))
    intro _
    exact ih fun next later inside => step next later (inside.trans (List.suffix_cons _ _))

theorem meets_forEach_same {γ : Type*} {body : γ → Prog σ ε PUnit} {items : List γ}
    (step : ∀ item ∈ items, Meets sure (body item) pre (fun _ => pre) mid) :
    Meets sure (forEach items body) pre (fun _ => pre) mid :=
  meets_forEach (fun _ => pre) items fun item _ inside => step item (inside.subset List.mem_cons_self)

theorem meets_onSome {γ : Type*} {value : Option γ} {body : γ → Prog σ ε PUnit}
    {goal : PUnit → σ → Prop} (absent : value = none → ∀ s, pre s → goal ⟨⟩ s)
    (present : ∀ c, value = some c → Meets sure (body c) pre goal mid) :
    Meets sure (onSome value body) pre goal mid := by
  cases value with
  | none => exact meets_pure (absent rfl)
  | some c => exact present c rfl

theorem meets_onlyIf {condition : Prop} [Decidable condition] {body : Prog σ ε PUnit}
    {goal : PUnit → σ → Prop} (holds : condition → Meets sure body pre goal mid)
    (fails : ¬ condition → ∀ s, pre s → goal ⟨⟩ s) :
    Meets sure (onlyIf condition body) pre goal mid := by
  unfold onlyIf
  split
  · rename_i yes
    exact holds yes
  · rename_i no
    exact meets_pure (fails no)

theorem Meets.within (meets : Meets sure p pre post mid) (whole : ∀ a s, post a s → mid s) {s : σ}
    (start : pre s) (faults : Schedule ε) : mid (p s faults).state := by
  obtain ⟨_,returned,other⟩ := meets s faults start
  cases ended : (p s faults).ending with
  | returned a => exact whole a _ (returned a ended)
  | raised error => exact (other (by simp [ended])).1
  | stopped => exact (other (by simp [ended])).1

end Faults
