import Mathlib.Tactic.Common

/-!
# Computations that do the same

Two computations are related when both return, and what they return is related, or when both fail
with the same error.  Then so are two that go on with related results.
-/

namespace Lib

variable {ε ε' α α' β β' : Type} {R R' : α → α' → Prop} {S : β → β' → Prop} {x : Except ε α}
  {x' : Except ε α'} {f : α → Except ε β} {f' : α' → Except ε β'}

inductive Related (R : α → α' → Prop) : Except ε α → Except ε α' → Prop
  | ok {a : α} {a' : α'} : R a a' → Related R (.ok a) (.ok a')
  | error (e : ε) : Related R (.error e) (.error e)

namespace Related

theorem bind (h : Related R x x') (hf : ∀ a a', R a a' → Related S (f a) (f' a')) :
    Related S (x >>= f) (x' >>= f') := by
  cases h with
  | ok h => exact hf _ _ h
  | error e => exact .error e

theorem mapError (h : Related R x x') (g : ε → ε') : Related R (x.mapError g) (x'.mapError g) := by
  cases h with
  | ok h => exact .ok h
  | error e => exact .error (g e)

theorem same (x : Except ε α) : Related Eq x x := by
  cases x with
  | ok a => exact .ok rfl
  | error e => exact .error e

/-- The same, with what it returned. -/
theorem ran (x : Except ε α) : Related (fun a a' => x = .ok a ∧ a' = a) x x := by
  cases x with
  | ok a => exact .ok ⟨rfl, rfl⟩
  | error e => exact .error e

theorem imp (h : Related R x x') (himp : ∀ a a', x = .ok a → R a a' → R' a a') :
    Related R' x x' := by
  cases h with
  | ok h => exact .ok (himp _ _ rfl h)
  | error e => exact .error e

/-- Tests that come out the same. -/
theorem ite {p p' : Prop} [Decidable p] [Decidable p'] {y : Except ε α} {y' : Except ε α'}
    (hp : p' ↔ p) (ht : p → Related R x x') (he : ¬ p → Related R y y') :
    Related R (if p then x else y) (if p' then x' else y') := by
  by_cases h : p
  · rw [if_pos h, if_pos (hp.mpr h)]
    exact ht h
  · rw [if_neg h, if_neg (mt hp.mp h)]
    exact he h

end Related

end Lib
