import KoizOs.Libc.String
import Mathlib.Data.List.Infix

/-!
# `strcpy` and its bound

`strcpy` copies up to `dst_size` characters and stores the NUL behind them.  A source that
does not fit takes all of `dst` for its characters, and the NUL lands behind the array.

    CopiesWithin dst src dstSize ↔ strlen(src) < dstSize          (strcpy_bound_iff)
-/

namespace KoizOs

open Function

/-- `w` is the longest prefix of `cs` that fits into `size` bytes together with its NUL. -/
structure LongestFitting (cs : List UInt8) (size : Nat) (w : List UInt8) : Prop where
  isPrefix : w <+: cs
  fits : w.length < size
  longest : ∀ v, v <+: cs → v.length < size → v.length ≤ w.length

/-- `strcpy` changes nothing outside of `dst` and leaves as much of `src` there as fits. -/
structure CopiesWithin (dst : Buffer) (src : CString) (dstSize : Nat) : Prop where
  frame : ∀ k, dstSize ≤ k → strcpy dst src dstSize k = dst k
  string : ∃ w, LongestFitting src.chars dstSize w ∧ StringIn (strcpy dst src dstSize) 0 w

variable {src : CString} {dst : Buffer} {n i k : Nat}

/-- The copy stops at the end of the source or of the array, whichever comes first. -/
theorem strcpyLoop_fst (hi : i ≤ src.chars.length) :
    (strcpyLoop src n i dst).1 = min src.chars.length (i + n) := by
  induction n generalizing i dst with
  | zero =>
    rw [Nat.add_zero, Nat.min_eq_right hi]
    rfl
  | succ n ih =>
    unfold strcpyLoop
    by_cases hend : i < src.chars.length
    · rw [if_neg (CString.get_ne_zero hend), ih hend]
      congr 1
      omega
    · rw [if_pos (CString.get_of_le (Nat.not_lt.mp hend))]
      show i = _
      omega

theorem strcpyLoop_snd (hi : i ≤ src.chars.length) : (strcpyLoop src n i dst).2 k =
    if i ≤ k ∧ k < min src.chars.length (i + n) then src.get k else dst k := by
  induction n generalizing i dst with
  | zero =>
    rw [if_neg (by omega)]
    rfl
  | succ n ih =>
    unfold strcpyLoop
    by_cases hend : i < src.chars.length
    · rw [if_neg (CString.get_ne_zero hend), ih hend, update_apply]
      by_cases hki : k = i
      · subst hki
        rw [if_neg (by omega), if_pos rfl, if_pos (by omega)]
      · rw [if_neg hki]
        congr 1
        simp only [eq_iff_iff]
        omega
    · rw [if_pos (CString.get_of_le (Nat.not_lt.mp hend)), if_neg (by omega)]

/-- What `strcpy` leaves, byte by byte. -/
theorem strcpy_apply (dst : Buffer) (src : CString) (n k : Nat) : strcpy dst src n k =
    if k < min src.chars.length n then src.get k
    else if k = min src.chars.length n then 0 else dst k := by
  show update (strcpyLoop src n 0 dst).2 (strcpyLoop src n 0 dst).1 0 k = _
  rw [strcpyLoop_fst (Nat.zero_le _), Nat.zero_add, update_apply, strcpyLoop_snd (Nat.zero_le _)]
  rw [Nat.zero_add]
  by_cases hstop : k = min src.chars.length n
  · rw [if_pos hstop, if_neg (by omega), if_pos hstop]
  · rw [if_neg hstop, if_neg hstop]
    simp only [Nat.zero_le, true_and]

/-- Behind an array of `n` bytes, `strcpy` reaches the first byte, and only with a source that
does not fit. -/
theorem strcpy_behind (hk : n ≤ k) :
    strcpy dst src n k = if n ≤ src.chars.length ∧ k = n then 0 else dst k := by
  rw [strcpy_apply, if_neg (by omega)]
  congr 1
  simp only [eq_iff_iff]
  omega

theorem longestFitting_self (h : src.chars.length < n) :
    LongestFitting src.chars n src.chars where
  isPrefix := List.prefix_refl _
  fits := h
  longest _ hv _ := hv.length_le

/-- A source that fits is copied with its NUL. -/
theorem stringIn_strcpy (dst : Buffer) (h : src.chars.length < n) :
    StringIn (strcpy dst src n) 0 src.chars where
  chars j hj := by
    rw [Nat.zero_add, strcpy_apply, if_pos (by omega), CString.get_eq hj]
  nul := by
    rw [Nat.zero_add, strcpy_apply, if_neg (by omega), if_pos (by omega)]
  no_nul := src.no_nul

/-- A source that does not fit leaves no NUL among the bytes of the array. -/
theorem strcpy_ne_zero (h : n ≤ src.chars.length) (hk : k < n) : strcpy dst src n k ≠ 0 := by
  rw [strcpy_apply, if_pos (by omega)]
  exact CString.get_ne_zero (Nat.lt_of_lt_of_le hk h)

/-- **The bound.** `strcpy` keeps to an array of `dst_size` bytes, whatever it holds, exactly
when the source is shorter than that. -/
theorem strcpy_bound_iff (dst : Buffer) (src : CString) (dstSize : Nat) :
    CopiesWithin dst src dstSize ↔ src.chars.length < dstSize := by
  constructor
  · rintro ⟨-, w, hw, hstring⟩
    by_contra hlong
    have hnul := hstring.nul
    rw [Nat.zero_add] at hnul
    exact strcpy_ne_zero (Nat.not_lt.mp hlong) hw.fits hnul
  · intro hfits
    refine ⟨?_, src.chars, longestFitting_self hfits, stringIn_strcpy dst hfits⟩
    intro k hk
    rw [strcpy_behind hk, if_neg (by omega)]

/-- Four characters into four bytes: the byte behind them is lost. -/
theorem strcpy_overrun :
    strcpy (fun _ => 0x7A) ⟨[0x61, 0x62, 0x63, 0x64], by decide⟩ 4 4 = 0 ∧
    ¬ CopiesWithin (fun _ => 0x7A) ⟨[0x61, 0x62, 0x63, 0x64], by decide⟩ 4 := by
  have hlost : strcpy (fun _ => 0x7A) ⟨[0x61, 0x62, 0x63, 0x64], by decide⟩ 4 4 = 0 := rfl
  refine ⟨hlost, ?_⟩
  intro h
  have hframe := h.frame 4 (Nat.le_refl 4)
  rw [hlost] at hframe
  exact absurd hframe (by decide)

end KoizOs
