import KoizOs.Lib.Run

/-!
# Runs that differ in silent steps

`see` says what an operation shows, if anything.  States are related when a silent step of either
of them keeps the relation and two steps that show the same do: then two runs that show the same
end in related states, wherever the silent steps are.
-/

namespace Lib

variable {σ ο κ : Type} {step : σ → ο → σ → Prop} {see : ο → Option κ} {s₁ s₂ t₁ t₂ : σ}
  {tr₁ tr₂ : List (σ × ο)}

/-- What a run shows. -/
def visible (see : ο → Option κ) (tr : List (σ × ο)) : List κ := tr.filterMap fun x => see x.2

@[simp] theorem visible_nil : visible see ([] : List (σ × ο)) = [] := rfl

theorem visible_silent {o : ο} (h : see o = none) (tr : List (σ × ο)) (t : σ) :
    visible see (tr ++ [(t, o)]) = visible see tr := by
  simp [visible, h]

theorem visible_concat {o : ο} {c : κ} (h : see o = some c) (tr : List (σ × ο)) (t : σ) :
    visible see (tr ++ [(t, o)]) = visible see tr ++ [c] := by
  simp [visible, h]

theorem visible_append (see : ο → Option κ) (tr tr' : List (σ × ο)) :
    visible see (tr ++ tr') = visible see tr ++ visible see tr' := List.filterMap_append

theorem visible_eq (see : ο → Option κ) (tr : List (σ × ο)) :
    visible see tr = (tr.map Prod.snd).filterMap see := by
  rw [List.filterMap_map]
  rfl

/-- One run, and another from where it ended. -/
theorem Trace.append {s t u : σ} {tr tr' : List (σ × ο)} (h : Trace step s tr t)
    (h' : Trace step t tr' u) : Trace step s (tr ++ tr') u := by
  induction h' with
  | start =>
    rw [List.append_nil]
    exact h
  | next _ hs ih =>
    rw [← List.append_assoc]
    exact .next ih hs

/-- A relation that runs keep when they show the same, between states that `I` holds of. -/
structure Unseen (step : σ → ο → σ → Prop) (see : ο → Option κ) (I : σ → Prop)
    (R : σ → σ → Prop) : Prop where
  inv : ∀ t o u, I t → step t o u → I u
  left : ∀ t o u t', I t → step t o u → see o = none → R t t' → R u t'
  right : ∀ t t' o u', I t' → step t' o u' → see o = none → R t t' → R t u'
  both : ∀ t o u t' o' u' c, I t → I t' → R t t' → see o = some c → see o' = some c →
    step t o u → step t' o' u' → R u u'

variable {I : σ → Prop} {R : σ → σ → Prop}

/-- A run that shows nothing. -/
theorem Unseen.right_run (h : Unseen step see I R) (htr : Trace step s₂ tr₂ t₂) (hI : I s₂)
    (hR : R t₁ s₂) (hnone : visible see tr₂ = []) : R t₁ t₂ := by
  induction htr with
  | start => exact hR
  | @next tr t u o htr hs ih =>
    cases hsee : see o with
    | none =>
      rw [visible_silent hsee] at hnone
      exact h.right _ _ _ _ (htr.invariant hI h.inv).1 hs hsee (ih hnone)
    | some c =>
      rw [visible_concat hsee] at hnone
      exact absurd hnone (List.append_ne_nil_of_right_ne_nil _ (List.cons_ne_nil _ _))

/-- **Silent steps are not seen.** -/
theorem Unseen.runs (h : Unseen step see I R) (htr₁ : Trace step s₁ tr₁ t₁)
    (htr₂ : Trace step s₂ tr₂ t₂) (hI₁ : I s₁) (hI₂ : I s₂) (hR : R s₁ s₂)
    (hsame : visible see tr₁ = visible see tr₂) : R t₁ t₂ := by
  induction htr₁ generalizing tr₂ t₂ with
  | start => exact h.right_run htr₂ hI₂ hR hsame.symm
  | @next tr t u o htr hs ih =>
    have hIt := (htr.invariant hI₁ h.inv).1
    cases hsee : see o with
    | none =>
      rw [visible_silent hsee] at hsame
      exact h.left _ _ _ _ hIt hs hsee (ih htr₂ hsame)
    | some c =>
      rw [visible_concat hsee] at hsame
      -- the second run up to the step that shows `c` too
      induction htr₂ with
      | start => exact absurd hsame (List.append_ne_nil_of_right_ne_nil _ (List.cons_ne_nil _ _))
      | @next tr' t' u' o' htr' hs' ih' =>
        have hIt' := (htr'.invariant hI₂ h.inv).1
        cases hsee' : see o' with
        | none =>
          rw [visible_silent hsee'] at hsame
          exact h.right _ _ _ _ hIt' hs' hsee' (ih' hsame)
        | some c' =>
          rw [visible_concat hsee'] at hsame
          obtain ⟨hbefore, hlast⟩ := List.append_inj' hsame rfl
          obtain rfl := List.singleton_inj.mp hlast
          exact h.both _ _ _ _ _ _ _ hIt hIt' (ih htr' hbefore) hsee hsee' hs hs'

end Lib
