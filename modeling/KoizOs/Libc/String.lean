import KoizOs.Kernel.Basic
import Mathlib.Logic.Function.Basic

/-!
# String and memory functions of the kernel's libc

Each function works on the memory seen from its pointer arguments (`Buffer`), `strcmp` on the
part of it that may be read.
-/

namespace KoizOs

open Function

/-- The byte at index `i`, the terminating NUL included. -/
def CString.get (s : CString) (i : Nat) : UInt8 := s.chars.getD i 0

/-- `n` rounds of the copy loop are left, the next one at index `i`. -/
def strcpyLoop (src : CString) : (n i : Nat) → Buffer → Nat × Buffer
  | 0, i, dst => (i, dst)
  | n + 1, i, dst =>
    if src.get i = 0 then (i, dst) else strcpyLoop src n (i + 1) (update dst i (src.get i))

/-- `strcpy` into a `dst` that is not null.  The NUL is stored after the loop, at the index
where the loop stopped: that is `dst[dst_size]` when `src` does not fit. -/
def strcpy (dst : Buffer) (src : CString) (dstSize : Nat) : Buffer :=
  let (i, dst) := strcpyLoop src dstSize 0 dst
  update dst i 0

/-- `n` bytes are left that may be read, the next one is `len`. -/
def strlenLoop (str : Buffer) : (n len : Nat) → Option Nat
  | 0, _ => none
  | n + 1, len => if str len ≠ 0 then strlenLoop str n (len + 1) else some len

/-- `strlen` of an array of `size` bytes; `none` when there is no NUL in it. -/
def strlen (str : Buffer) (size : Nat) : Option Nat := strlenLoop str size 0

/-- `n` bytes are left to copy, the next one is `i`. -/
def memcpyLoop (src : Buffer) : (n i : Nat) → Buffer → Buffer
  | 0, _, dst => dst
  | n + 1, i, dst => memcpyLoop src n (i + 1) (update dst i (src i))

def memcpy (dst src : Buffer) (dataSize : Nat) : Buffer := memcpyLoop src dataSize 0 dst

def memcmpLoop (a b : Buffer) : (n i : Nat) → Int
  | 0, _ => 0
  | n + 1, i =>
    if a i < b i then -1
    else if b i > a i then 1
    else memcmpLoop a b n (i + 1)

/-- Both tests compare the same way round, so the result is never 1. -/
def memcmp (a b : Buffer) (dataSize : Nat) : Int := memcmpLoop a b dataSize 0

/-- `len` bytes are left to set, the next one is `i`. -/
def memsetLoop (value : UInt8) : (len i : Nat) → Buffer → Buffer
  | 0, _, ptr => ptr
  | len + 1, i, ptr => memsetLoop value len (i + 1) (update ptr i value)

/-- `memset` of a `ptr` that is not null. -/
def memset (ptr : Buffer) (value : UInt8) (len : Nat) : Buffer := memsetLoop value len 0 ptr

/-- The loop compares `char`s, which are signed, the result is the difference of `unsigned
char`s.  The arguments are the bytes that may be read from the two pointers on; `none` when a
byte behind them is read. -/
def strcmp : (strA strB : List UInt8) → Option Int
  | a :: strA, b :: strB =>
    if a.toInt8 ≠ 0 ∧ a.toInt8 = b.toInt8 then strcmp strA strB
    else some ((a.toNat : Int) - b.toNat)
  | _, _ => none

/-! ## Characters and lengths -/

theorem CString.eq_of_chars {s t : CString} (h : s.chars = t.chars) : s = t := by
  obtain ⟨cs, hcs⟩ := s
  obtain ⟨ds, hds⟩ := t
  obtain rfl : cs = ds := h
  rfl

theorem CString.get_eq {s : CString} {i : Nat} (h : i < s.chars.length) : s.get i = s.chars[i] := by
  rw [CString.get, List.getD_eq_getElem?_getD, List.getElem?_eq_getElem h, Option.getD_some]

theorem CString.get_ne_zero {s : CString} {i : Nat} (h : i < s.chars.length) : s.get i ≠ 0 := by
  rw [CString.get_eq h]
  intro h0
  exact s.no_nul (h0 ▸ List.getElem_mem h)

theorem CString.get_of_le {s : CString} {i : Nat} (h : s.chars.length ≤ i) : s.get i = 0 := by
  rw [CString.get, List.getD_eq_getElem?_getD, List.getElem?_eq_none h, Option.getD_none]

theorem strlenLoop_eq {str : Buffer} {n i len : Nat} (hi : i ≤ len) (hlen : len < i + n)
    (hne : ∀ j, j < len → str j ≠ 0) (h0 : str len = 0) : strlenLoop str n i = some len := by
  induction n generalizing i with
  | zero => omega
  | succ n ih =>
    unfold strlenLoop
    by_cases heq : i = len
    · subst heq
      rw [if_neg (not_not.mpr h0)]
    · rw [if_pos (hne i (by omega))]
      exact ih (by omega) (by omega)

/-- The first NUL is at the length. -/
theorem strlen_eq {str : Buffer} {size len : Nat} (hlen : len < size)
    (hne : ∀ j, j < len → str j ≠ 0) (h0 : str len = 0) : strlen str size = some len :=
  strlenLoop_eq (Nat.zero_le _) (by omega) hne h0

theorem strlenLoop_lt {str : Buffer} {n i len : Nat} (h : strlenLoop str n i = some len) :
    len < i + n := by
  induction n generalizing i with
  | zero => cases h
  | succ n ih =>
    unfold strlenLoop at h
    split at h
    · have := ih h
      omega
    · obtain rfl := Option.some.inj h
      omega

theorem strlenLoop_congr {str str' : Buffer} {n i : Nat}
    (h : ∀ j, j < i + n → str' j = str j) : strlenLoop str' n i = strlenLoop str n i := by
  induction n generalizing i with
  | zero => rfl
  | succ n ih =>
    unfold strlenLoop
    rw [h i (by omega), ih fun j hj => h j (by omega)]

/-! ## Copying and comparing memory -/

theorem memcpyLoop_apply (dst src : Buffer) (n i j : Nat) :
    memcpyLoop src n i dst j = if i ≤ j ∧ j < i + n then src j else dst j := by
  induction n generalizing i dst with
  | zero =>
    rw [if_neg (by omega)]
    rfl
  | succ n ih =>
    rw [memcpyLoop, ih, update_apply]
    by_cases hji : j = i
    · subst hji
      rw [if_neg (by omega), if_pos rfl, if_pos (by omega)]
    · by_cases hin : i + 1 ≤ j ∧ j < i + 1 + n
      · rw [if_pos hin, if_pos (by omega)]
      · rw [if_neg hin, if_neg hji, if_neg (by omega)]

theorem memcpy_apply (dst src : Buffer) (n j : Nat) :
    memcpy dst src n j = if j < n then src j else dst j := by
  rw [memcpy, memcpyLoop_apply]
  simp only [Nat.zero_le, true_and, Nat.zero_add]

theorem memcpy_of_lt {dst src : Buffer} {n j : Nat} (hj : j < n) : memcpy dst src n j = src j := by
  rw [memcpy_apply, if_pos hj]

theorem memsetLoop_eq_memcpyLoop (ptr : Buffer) (value : UInt8) (n i : Nat) :
    memsetLoop value n i ptr = memcpyLoop (fun _ => value) n i ptr := by
  induction n generalizing i ptr with
  | zero => rfl
  | succ n ih => exact ih (update ptr i value) (i + 1)

theorem memset_of_lt {ptr : Buffer} {value : UInt8} {n j : Nat} (hj : j < n) :
    memset ptr value n j = value := by
  rw [memset, memsetLoop_eq_memcpyLoop]
  exact memcpy_of_lt hj

theorem memcmpLoop_eq_zero_iff (a b : Buffer) (n i : Nat) :
    memcmpLoop a b n i = 0 ↔ ∀ j, i ≤ j → j < i + n → b j ≤ a j := by
  induction n generalizing i with
  | zero => simp [memcmpLoop]; omega
  | succ n ih =>
    unfold memcmpLoop
    split
    · next hlt =>
      simp only [Int.reduceNeg, reduceCtorEq, false_iff]
      intro h
      exact absurd hlt (UInt8.not_lt.mpr (h i (Nat.le_refl i) (by omega)))
    · next hlt =>
      rw [ih]
      constructor
      · intro h j hij hj
        rcases Nat.eq_or_lt_of_le hij with rfl | hij
        · exact UInt8.not_lt.mp hlt
        · exact h j hij (by omega)
      · intro h j hij hj
        exact h j (by omega) (by omega)

/-- `memcmp` returns 0 when no byte of `a` is below that of `b`, not only when they are equal. -/
theorem memcmp_eq_zero_iff (a b : Buffer) (n : Nat) : memcmp a b n = 0 ↔ ∀ j < n, b j ≤ a j := by
  simp [memcmp, memcmpLoop_eq_zero_iff]

/-! ## Strings in a buffer -/

/-- The characters of `w` from index `p` on, and a NUL behind them. -/
structure StringIn (buf : Buffer) (p : Nat) (w : List UInt8) : Prop where
  chars : ∀ j (h : j < w.length), buf (p + j) = w[j]
  nul : buf (p + w.length) = 0
  no_nul : 0 ∉ w

variable {buf buf' : Buffer} {p n : Nat} {w : List UInt8} {c : UInt8}

theorem StringIn.congr (h : StringIn buf p w)
    (heq : ∀ j, j ≤ w.length → buf' (p + j) = buf (p + j)) : StringIn buf' p w where
  chars j hj := (heq j (Nat.le_of_lt hj)).trans (h.chars j hj)
  nul := (heq _ (Nat.le_refl _)).trans h.nul
  no_nul := h.no_nul

theorem StringIn.tail (h : StringIn buf p (c :: w)) : StringIn buf (p + 1) w where
  chars j hj := by
    rw [show p + 1 + j = p + (j + 1) by omega]
    exact h.chars (j + 1) (Nat.succ_lt_succ hj)
  nul := by
    rw [show p + 1 + w.length = p + (w.length + 1) by omega]
    exact h.nul
  no_nul hmem := h.no_nul (List.mem_cons_of_mem _ hmem)

theorem StringIn.getElem_eq (h : StringIn buf 0 w) {j : Nat} (hj : j < w.length) :
    buf j = w[j] := by
  have hchar := h.chars j hj
  rwa [Nat.zero_add] at hchar

theorem StringIn.strlen_eq (h : StringIn buf 0 w) (hn : w.length < n) :
    strlen buf n = some w.length := by
  have hnul := h.nul
  rw [Nat.zero_add] at hnul
  apply KoizOs.strlen_eq hn _ hnul
  intro j hj h0
  apply h.no_nul
  rw [← h0, h.getElem_eq hj]
  exact List.getElem_mem hj

end KoizOs
