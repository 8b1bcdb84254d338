import Mathlib.Data.List.Basic

/-!
# Runs of a step relation

`Trace step s tr t`: a run from `s` to `t`; `tr` lists its steps in order, each as the
state the step began in and the operation it performed.  `Trace.invariant` packages the
induction over a run once.  `Trace.holds_iff` is for a property that one step may break:
if a step from a good state keeps the property exactly when a condition on that state
and operation holds, a run keeps it in every state exactly when all its steps meet the
condition.
-/

namespace Lib

variable {σ ο : Type}

inductive Trace (step : σ → ο → σ → Prop) (s : σ) : List (σ × ο) → σ → Prop
  | start : Trace step s [] s
  | next {tr : List (σ × ο)} {t u : σ} {o : ο} :
      Trace step s tr t → step t o u → Trace step s (tr ++ [(t, o)]) u

namespace Trace

variable {step : σ → ο → σ → Prop} {s t : σ} {tr : List (σ × ο)}

theorem invariant {I : σ → Prop} (htr : Trace step s tr t) (h0 : I s)
    (hstep : ∀ t o u, I t → step t o u → I u) : I t ∧ ∀ e ∈ tr, I e.1 := by
  induction htr with
  | start => exact ⟨h0, by simp⟩
  | @next tr t u o _ hs ih =>
    refine ⟨hstep t o u ih.1 hs, ?_⟩
    intro e he
    rcases List.mem_append.mp he with he | he
    · exact ih.2 e he
    · obtain rfl := List.mem_singleton.mp he
      exact ih.1

/-- A step simulated under an invariant makes a run simulated, with the same operations. -/
theorem refines {τ : Type} {step' : τ → ο → τ → Prop} {I : σ → Prop} (f : σ → τ)
    (htr : Trace step s tr t) (h0 : I s) (hI : ∀ t o u, I t → step t o u → I u)
    (hsim : ∀ t o u, I t → step t o u → step' (f t) o (f u)) :
    Trace step' (f s) (tr.map fun e => (f e.1, e.2)) (f t) := by
  induction htr with
  | start => exact .start
  | @next tr t u o htr hs ih =>
    have hIt := (htr.invariant h0 hI).1
    rw [List.map_append]
    exact .next ih (hsim t o u hIt hs)

/-- A property holds in every state of a run exactly when every step meets `C`. -/
theorem holds_iff {I P : σ → Prop} {C : σ → ο → Prop} (htr : Trace step s tr t) (h0 : I s)
    (hI : ∀ t o u, I t → step t o u → I u) (hP0 : P s)
    (hP : ∀ t o u, I t → P t → step t o u → (P u ↔ C t o)) :
    (P t ∧ ∀ e ∈ tr, P e.1) ↔ ∀ e ∈ tr, C e.1 e.2 := by
  induction htr with
  | start => simp [hP0]
  | @next tr t u o htr hs ih =>
    have hIt := (htr.invariant h0 hI).1
    simp only [List.mem_append, List.mem_singleton, or_imp, forall_and, forall_eq]
    constructor
    · rintro ⟨hu, htr', ht⟩
      exact ⟨ih.mp ⟨ht, htr'⟩, (hP t o u hIt ht hs).mp hu⟩
    · rintro ⟨hC, hCt⟩
      obtain ⟨ht, htr'⟩ := ih.mpr hC
      exact ⟨(hP t o u hIt ht hs).mpr hCt, htr', ht⟩

end Trace

end Lib
