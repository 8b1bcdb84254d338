import Mathlib.Tactic.Common

/-!
# Linear search with 0 for "not found"

`firstFrom p n i` is the first index of `[i, i + n)` at which `p` holds, and 0 when there
is none.  The result 0 is ambiguous only if `p 0` can hold (`firstFrom_eq_zero_iff`).
`IsFirst` says the same without a search, for ranges that leave 0 out.
`findSome?_range_cases` is for a search that tells what it found.
-/

namespace Lib

def firstFrom (p : Nat → Prop) [DecidablePred p] : (n i : Nat) → Nat
  | 0, _ => 0
  | n + 1, i => if p i then i else firstFrom p n (i + 1)

/-- `k` is the first index of `[i, i + n)` with `p`, or it is 0 and there is none. -/
def IsFirst (p : Nat → Prop) (n i k : Nat) : Prop :=
  ((i ≤ k ∧ k < i + n) ∧ p k ∧ ∀ j, i ≤ j → j < k → ¬ p j) ∨
    (k = 0 ∧ ∀ j, i ≤ j → j < i + n → ¬ p j)

variable {p q : Nat → Prop} [DecidablePred p] [DecidablePred q] {n i k : Nat}

theorem firstFrom_eq_iff (hk : k ≠ 0) :
    firstFrom p n i = k ↔ (i ≤ k ∧ k < i + n) ∧ p k ∧ ∀ j, i ≤ j → j < k → ¬ p j := by
  induction n generalizing i with
  | zero =>
    simp only [firstFrom]
    omega
  | succ n ih =>
    unfold firstFrom
    split
    · next hi =>
      constructor
      · rintro rfl
        exact ⟨by omega, hi, by omega⟩
      · rintro ⟨hik, -, hbefore⟩
        by_contra hne
        exact hbefore i (Nat.le_refl i) (by omega) hi
    · next hi =>
      rw [ih]
      constructor
      · rintro ⟨hik, hp, hbefore⟩
        refine ⟨by omega, hp, ?_⟩
        intro j hj hjk
        rcases Nat.eq_or_lt_of_le hj with rfl | hj
        · exact hi
        · exact hbefore j hj hjk
      · rintro ⟨hik, hp, hbefore⟩
        have hne : i ≠ k := by
          rintro rfl
          exact hi hp
        exact ⟨by omega, hp, fun j hj => hbefore j (by omega)⟩

theorem firstFrom_eq_zero_iff (h0 : i = 0 → ¬ p 0) :
    firstFrom p n i = 0 ↔ ∀ j, i ≤ j → j < i + n → ¬ p j := by
  induction n generalizing i with
  | zero =>
    simp only [firstFrom, true_iff]
    omega
  | succ n ih =>
    unfold firstFrom
    split
    · next hi =>
      constructor
      · rintro rfl
        exact absurd hi (h0 rfl)
      · intro h
        exact absurd hi (h i (Nat.le_refl i) (by omega))
    · next hi =>
      rw [ih (by omega)]
      constructor
      · intro h j hj hjn
        rcases Nat.eq_or_lt_of_le hj with rfl | hj
        · exact hi
        · exact h j hj (by omega)
      · intro h j hj hjn
        exact h j (by omega) (by omega)

theorem firstFrom_lt (h : 0 < i + n) : firstFrom p n i < i + n := by
  by_cases h0 : firstFrom p n i = 0
  · rw [h0]
    exact h
  · exact ((firstFrom_eq_iff h0).mp rfl).1.2

/-- The search only looks at the range it is given. -/
theorem firstFrom_congr (h : ∀ j, i ≤ j → j < i + n → (p j ↔ q j)) :
    firstFrom p n i = firstFrom q n i := by
  induction n generalizing i with
  | zero => rfl
  | succ n ih =>
    unfold firstFrom
    rw [ih fun j hj hjn => h j (by omega) (by omega)]
    simp only [h i (Nat.le_refl i) (by omega)]

/-! ## Ranges that leave 0 out -/

theorem isFirst_iff (hi : i ≠ 0) : IsFirst p n i k ↔ firstFrom p n i = k := by
  by_cases hk : k = 0
  · subst hk
    rw [firstFrom_eq_zero_iff fun h => absurd h hi]
    constructor
    · rintro (⟨hrange, -⟩ | ⟨-, hnone⟩)
      · omega
      · exact hnone
    · exact fun hnone => .inr ⟨rfl, hnone⟩
  · rw [firstFrom_eq_iff hk]
    constructor
    · rintro (hfound | ⟨h0, -⟩)
      · exact hfound
      · exact absurd h0 hk
    · exact .inl

/-- A search for `p` answers for the narrower `q` exactly when behind no index with `q` is it
misled by one with `p` alone. -/
theorem isFirst_firstFrom_iff (hi : i ≠ 0) (hqp : ∀ j, q j → p j) :
    IsFirst q n i (firstFrom p n i) ↔
      ∀ j, i ≤ j → j < i + n → p j → ¬ q j → ∃ k, i ≤ k ∧ k < j ∧ q k := by
  rw [isFirst_iff hi]
  by_cases h0 : firstFrom p n i = 0
  · rw [h0, firstFrom_eq_zero_iff fun h => absurd h hi]
    have hnone := (firstFrom_eq_zero_iff fun h => absurd h hi).mp h0
    constructor
    · intro _ j hij hj hp
      exact absurd hp (hnone j hij hj)
    · intro _ j hij hj hq
      exact hnone j hij hj (hqp j hq)
  · obtain ⟨hrange, hp, hbefore⟩ := (firstFrom_eq_iff h0).mp rfl
    generalize firstFrom p n i = k at h0 hrange hp hbefore
    rw [firstFrom_eq_iff h0]
    constructor
    · rintro ⟨-, hq, -⟩ j hij _ hpj hnq
      refine ⟨k, hrange.1, ?_, hq⟩
      by_contra hle
      rcases Nat.eq_or_lt_of_le (Nat.not_lt.mp hle) with rfl | hlt
      · exact hnq hq
      · exact hbefore j hij hlt hpj
    · intro hmisled
      refine ⟨hrange, ?_, fun j hij hj hq => hbefore j hij hj (hqp j hq)⟩
      by_contra hnq
      obtain ⟨j, hij, hjk, hq⟩ := hmisled k hrange.1 hrange.2 hp hnq
      exact hbefore j hij hjk (hqp j hq)

/-- A search of the first `n` places answers for `m` of them exactly when it finds something,
or there is nothing to find. -/
theorem isFirst_firstFrom_of_le {m : Nat} (hi : i ≠ 0) (hnm : n ≤ m) :
    IsFirst p m i (firstFrom p n i) ↔
      (∃ j, i ≤ j ∧ j < i + n ∧ p j) ∨ ∀ j, i ≤ j → j < i + m → ¬ p j := by
  by_cases h0 : firstFrom p n i = 0
  · have hnone := (firstFrom_eq_zero_iff fun h => absurd h hi).mp h0
    rw [h0]
    constructor
    · rintro (⟨hrange, -⟩ | ⟨-, hall⟩)
      · omega
      · exact .inr hall
    · rintro (⟨j, hij, hj, hp⟩ | hall)
      · exact absurd hp (hnone j hij hj)
      · exact .inr ⟨rfl, hall⟩
  · obtain ⟨hrange, hp, hbefore⟩ := (firstFrom_eq_iff h0).mp rfl
    constructor
    · intro _
      exact .inl ⟨_, hrange.1, hrange.2, hp⟩
    · intro _
      exact .inl ⟨⟨hrange.1, by omega⟩, hp, hbefore⟩

/-- The first of `f 0`, …, `f (n - 1)` that is something, and what it is. -/
theorem findSome?_range_cases {α : Type} (f : Nat → Option α) (n : Nat) :
    ((List.range n).findSome? f = none ∧ ∀ i, i < n → f i = none) ∨
    ∃ j a, j < n ∧ (List.range n).findSome? f = some a ∧ f j = some a ∧ ∀ i, i < j → f i = none := by
  induction n with
  | zero => exact .inl ⟨rfl, fun i hi => absurd hi (Nat.not_lt_zero i)⟩
  | succ n ih =>
    rw [List.range_succ, List.findSome?_append]
    rcases ih with ⟨hnone, hbefore⟩ | ⟨j, a, hj, hsome, hfj, hbefore⟩
    · rw [hnone, Option.none_or, List.findSome?_singleton]
      cases hfn : f n with
      | none =>
        refine .inl ⟨rfl, fun i hi => ?_⟩
        rcases Nat.lt_succ_iff_lt_or_eq.mp hi with hi | rfl
        · exact hbefore i hi
        · exact hfn
      | some a => exact .inr ⟨n, a, Nat.lt_succ_self n, rfl, hfn, hbefore⟩
    · rw [hsome]
      exact .inr ⟨j, a, Nat.lt_succ_of_lt hj, rfl, hfj, hbefore⟩

end Lib
