import Mathlib.Data.Nat.Find
import Mathlib.Tactic.Common

/-!
# The first difference of two sequences

`FirstDiff a b i`: the sequences agree before `i` and differ there.  The lexicographic order
goes by it: `LexBelow` for the first `n` elements, and for lists that end in an element
below all others `list_lt_iff`.
-/

namespace Lib

variable {α : Type} {a b : Nat → α} {i j n : Nat}

structure FirstDiff (a b : Nat → α) (i : Nat) : Prop where
  ne : a i ≠ b i
  before : ∀ j, j < i → a j = b j

namespace FirstDiff

theorem symm (h : FirstDiff a b i) : FirstDiff b a i where
  ne := Ne.symm h.ne
  before j hj := (h.before j hj).symm

theorem unique (hi : FirstDiff a b i) (hj : FirstDiff a b j) : i = j := by
  rcases Nat.lt_trichotomy i j with hlt | heq | hlt
  · exact absurd (hj.before i hlt) hi.ne
  · exact heq
  · exact absurd (hi.before j hlt) hj.ne

theorem zero_iff : FirstDiff a b 0 ↔ a 0 ≠ b 0 :=
  ⟨fun h => h.ne, fun hne => ⟨hne, fun j hj => absurd hj (Nat.not_lt_zero j)⟩⟩

/-- Behind an element that is the same the difference is one of the rests. -/
theorem succ_iff : FirstDiff a b (i + 1) ↔
    a 0 = b 0 ∧ FirstDiff (fun j => a (j + 1)) (fun j => b (j + 1)) i := by
  constructor
  · intro h
    exact ⟨h.before 0 (Nat.succ_pos i), h.ne, fun j hj => h.before (j + 1) (Nat.succ_lt_succ hj)⟩
  · rintro ⟨h0, hne, hbefore⟩
    refine ⟨hne, ?_⟩
    intro j hj
    cases j with
    | zero => exact h0
    | succ j => exact hbefore j (Nat.lt_of_succ_lt_succ hj)

end FirstDiff

/-- Sequences that are not the same have a first difference. -/
theorem exists_firstDiff (h : a j ≠ b j) : ∃ i, i ≤ j ∧ FirstDiff a b i := by
  classical
  have hex : ∃ i, a i ≠ b i := ⟨j, h⟩
  refine ⟨Nat.find hex, Nat.find_min' hex h, Nat.find_spec hex, ?_⟩
  intro i hi
  exact not_not.mp (Nat.find_min hex hi)

theorem agree_or_firstDiff (a b : Nat → α) (n : Nat) :
    (∀ j, j < n → a j = b j) ∨ ∃ i, i < n ∧ FirstDiff a b i := by
  by_cases hall : ∀ j, j < n → a j = b j
  · exact .inl hall
  · push Not at hall
    obtain ⟨j, hj, hne⟩ := hall
    obtain ⟨i, hi, hdiff⟩ := exists_firstDiff hne
    exact .inr ⟨i, Nat.lt_of_le_of_lt hi hj, hdiff⟩

/-- The first `n` elements of `a` come before those of `b` in lexicographic order. -/
def LexBelow [LT α] (n : Nat) (a b : Nat → α) : Prop := ∃ i, i < n ∧ FirstDiff a b i ∧ a i < b i

/-! ## Lists -/

section Lists

variable {z : α} {l l' : List α}

theorem getD_inj (hl : z ∉ l) (hl' : z ∉ l') (h : ∀ i, l.getD i z = l'.getD i z) : l = l' := by
  induction l generalizing l' with
  | nil =>
    cases l' with
    | nil => rfl
    | cons d l' =>
      obtain rfl : z = d := h 0
      exact absurd List.mem_cons_self hl'
  | cons c l ih =>
    rw [List.mem_cons, not_or] at hl
    cases l' with
    | nil => exact absurd (h 0).symm hl.1
    | cons d l' =>
      rw [List.mem_cons, not_or] at hl'
      obtain rfl : c = d := h 0
      rw [ih hl.2 hl'.2 fun i => h (i + 1)]

/-- Lists without `z` that differ have a first difference when each is continued by `z`. -/
theorem exists_firstDiff_of_ne (hl : z ∉ l) (hl' : z ∉ l') (hne : l ≠ l') :
    ∃ i, FirstDiff (l.getD · z) (l'.getD · z) i := by
  by_contra hnone
  apply hne
  apply getD_inj hl hl'
  intro i
  by_contra hi
  obtain ⟨j, -, hj⟩ := exists_firstDiff (a := (l.getD · z)) (b := (l'.getD · z)) hi
  exact hnone ⟨j, hj⟩

variable [LT α]

/-- With `z` below all others the order of lists goes by the first difference. -/
theorem list_lt_iff (hasymm : ∀ c d : α, c < d → ¬ d < c) (hz : ∀ c : α, c ≠ z → z < c)
    (hl : z ∉ l) (hl' : z ∉ l') :
    l < l' ↔ ∃ i, FirstDiff (l.getD · z) (l'.getD · z) i ∧ l.getD i z < l'.getD i z := by
  induction l generalizing l' with
  | nil =>
    cases l' with
    | nil =>
      refine iff_of_false (List.not_lt_nil _) ?_
      rintro ⟨i, hdiff, -⟩
      exact hdiff.ne rfl
    | cons d l' =>
      have hd : d ≠ z := fun heq => hl' (heq ▸ List.mem_cons_self)
      refine iff_of_true (List.nil_lt_cons d l') ⟨0, ?_, hz d hd⟩
      exact FirstDiff.zero_iff.mpr (Ne.symm hd)
  | cons c l ih =>
    rw [List.mem_cons, not_or] at hl
    cases l' with
    | nil =>
      refine iff_of_false (List.not_lt_nil _) ?_
      rintro ⟨i, hdiff, hlt⟩
      cases i with
      | zero => exact hasymm z c (hz c (Ne.symm hl.1)) hlt
      | succ i => exact hl.1 (hdiff.before 0 (Nat.succ_pos i)).symm
    | cons d l' =>
      rw [List.mem_cons, not_or] at hl'
      rw [List.cons_lt_cons_iff, ih hl.2 hl'.2]
      constructor
      · rintro (hlt | ⟨rfl, i, hdiff, hlt⟩)
        · have hcd : c ≠ d := by
            rintro rfl
            exact hasymm c c hlt hlt
          exact ⟨0, FirstDiff.zero_iff.mpr hcd, hlt⟩
        · exact ⟨i + 1, FirstDiff.succ_iff.mpr ⟨rfl, hdiff⟩, hlt⟩
      · rintro ⟨i, hdiff, hlt⟩
        cases i with
        | zero => exact .inl hlt
        | succ i =>
          obtain ⟨heq, hrest⟩ := FirstDiff.succ_iff.mp hdiff
          exact .inr ⟨heq, i, hrest, hlt⟩

end Lists

end Lib
