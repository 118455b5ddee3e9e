import Mathlib.Data.List.Induction

/-! Runs of a partial step function and the invariant rule.
An action carries every choice of the environment, so one list of actions is
one interleaving and a quantifier over lists covers all of them. -/
namespace Transition

universe u v
variable {σ : Type u} {α : Type v}

/-- Takes the actions in order and stops with `none` at the first refused one. -/
def run (step : σ → α → Option σ) : σ → List α → Option σ
  | s, [] => some s
  | s, a :: as => (step s a).bind fun t => run step t as

/-- Offers the actions in order; a refused action leaves the state unchanged. -/
def offer (step : σ → α → Option σ) (s : σ) (as : List α) : σ :=
  as.foldl (fun t a => (step t a).getD t) s

/-- States reached by steps that `ok` allows in the state they are taken from. -/
inductive Reach (step : σ → α → Option σ) (ok : σ → α → Prop) (s : σ) : σ → Prop
  | refl : Reach step ok s s
  | step {t u : σ} {a : α} (before : Reach step ok s t) (allowed : ok t a)
      (taken : step t a = some u) : Reach step ok s u

/-- Every action the step function accepts is allowed. -/
abbrev Reachable (step : σ → α → Option σ) (s : σ) : σ → Prop :=
  Reach step (fun _ _ => True) s

variable {step : σ → α → Option σ} {ok : σ → α → Prop} {s t u : σ}

theorem Reach.invariant (inv : σ → Prop) (base : inv s)
    (preserved : ∀ t a u, inv t → ok t a → step t a = some u → inv u)
    (reached : Reach step ok s t) : inv t := by
  induction reached with
  | refl => exact base
  | step _ allowed taken ih => exact preserved _ _ _ ih allowed taken

theorem Reach.trans (first : Reach step ok s t) (rest : Reach step ok t u) :
    Reach step ok s u := by
  induction rest with
  | refl => exact first
  | step _ allowed taken ih => exact .step ih allowed taken

theorem Reach.mono {wider : σ → α → Prop} (sub : ∀ t a, ok t a → wider t a)
    (reached : Reach step ok s t) : Reach step wider s t := by
  induction reached with
  | refl => exact .refl
  | step _ allowed taken ih => exact .step ih (sub _ _ allowed) taken

theorem reachable_of_run {as : List α} (ran : run step s as = some t) :
    Reachable step s t := by
  induction as generalizing s with
  | nil => rw [Option.some.inj ran]; exact .refl
  | cons a as ih =>
    obtain ⟨next,taken,rest⟩ := Option.bind_eq_some_iff.mp ran
    exact (Reach.step .refl trivial taken).trans (ih rest)

@[simp] theorem offer_nil : offer step s [] = s := rfl

theorem offer_concat (as : List α) (a : α) :
    offer step s (as ++ [a]) = (step (offer step s as) a).getD (offer step s as) := by
  simp [offer]

theorem offer_invariant (inv : List α → σ → Prop) (base : inv [] s)
    (accepted : ∀ as t a u, inv as t → step t a = some u → inv (as ++ [a]) u)
    (refused : ∀ as t a, inv as t → step t a = none → inv (as ++ [a]) t)
    (as : List α) : inv as (offer step s as) := by
  induction as using List.reverseRecOn with
  | nil => exact base
  | append_singleton as a ih =>
    rw [offer_concat]
    cases taken : step (offer step s as) a with
    | none => exact refused as _ a ih taken
    | some next => exact accepted as _ a next ih taken

theorem Reach.offered {a : α} (before : Reach step ok s t) (allowed : ok t a) :
    Reach step ok s (offer step t [a]) := by
  cases taken : step t a with
  | none => simpa [offer,taken] using before
  | some next => simpa [offer,taken] using Reach.step before allowed taken

theorem reach_offer (as : List α) (allowed : ∀ a ∈ as, ∀ t, ok t a) :
    Reach step ok s (offer step s as) := by
  induction as using List.reverseRecOn with
  | nil => exact .refl
  | append_singleton as a ih =>
    have before := ih fun b inside => allowed b (List.mem_append_left _ inside)
    rw [offer_concat]
    cases taken : step (offer step s as) a with
    | none => exact before
    | some next => exact .step before (allowed a (by simp) _) taken

theorem reachable_offer (as : List α) : Reachable step s (offer step s as) :=
  reach_offer as fun _ _ _ => trivial

end Transition
