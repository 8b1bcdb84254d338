import KoizOs.Lib.FirstDiff
import KoizOs.Libc.String

/-!
# Comparing bytes and strings

Both comparisons are meant to go by the first difference.  `strcmp` does, and reads nothing
behind it.  The two tests of `memcmp` are one and the same, so it passes over a difference
where the first array is above the second.

| result | content |
|--------|---------|
| `memcmp_cases` | what `memcmp` computes |
| `memcmp_orders_iff` | when that is the order of the arrays |
| `strcmp_stops` | `strcmp` ends at the first difference, or at a NUL |
| `strcmp_orders` | it is the order of strings |
-/

namespace KoizOs

open Lib

variable {a b : Buffer} {n : Nat}

/-! ## memcmp -/

/-- The result of `memcmp` tells the order of the two arrays. -/
structure MemcmpOrders (a b : Buffer) (n : Nat) : Prop where
  equal : memcmp a b n = 0 ↔ ∀ j, j < n → a j = b j
  below : memcmp a b n = -1 ↔ LexBelow n a b
  above : memcmp a b n = 1 ↔ LexBelow n b a

theorem memcmpLoop_range (a b : Buffer) (n i : Nat) :
    memcmpLoop a b n i = 0 ∨ memcmpLoop a b n i = -1 := by
  induction n generalizing i with
  | zero => exact .inl rfl
  | succ n ih =>
    unfold memcmpLoop
    by_cases hlt : a i < b i
    · exact .inr (if_pos hlt)
    · rw [if_neg hlt, if_neg hlt]
      exact ih (i + 1)

/-- One byte of `a` that is below that of `b` decides, wherever it is. -/
theorem memcmp_cases (a b : Buffer) (n : Nat) :
    memcmp a b n = 0 ∧ (∀ j, j < n → b j ≤ a j) ∨
      memcmp a b n = -1 ∧ ∃ j, j < n ∧ a j < b j := by
  rcases memcmpLoop_range a b n 0 with h0 | h1
  · exact .inl ⟨h0, (memcmp_eq_zero_iff a b n).mp h0⟩
  · refine .inr ⟨h1, ?_⟩
    by_contra hnone
    have h0 : memcmp a b n = 0 := (memcmp_eq_zero_iff a b n).mpr fun j hj =>
      UInt8.not_lt.mp fun hlt => hnone ⟨j, hj, hlt⟩
    exact absurd (h0.symm.trans h1) (by decide)

theorem memcmp_ne_one (a b : Buffer) (n : Nat) : memcmp a b n ≠ 1 := by
  rcases memcmp_cases a b n with ⟨h0, -⟩ | ⟨h1, -⟩
  · rw [h0]
    decide
  · rw [h1]
    decide

theorem lexBelow_ne (h : LexBelow n a b) : ¬ ∀ j, j < n → a j = b j := by
  obtain ⟨i, hi, hdiff, -⟩ := h
  exact fun hall => hdiff.ne (hall i hi)

theorem memcmp_orders_of_not_above (h : ¬ LexBelow n b a) : MemcmpOrders a b n := by
  have habove : memcmp a b n = 1 ↔ LexBelow n b a := iff_of_false (memcmp_ne_one a b n) h
  rcases agree_or_firstDiff a b n with hall | ⟨i, hi, hdiff⟩
  · have h0 : memcmp a b n = 0 := (memcmp_eq_zero_iff a b n).mpr fun j hj =>
      UInt8.le_of_eq (hall j hj).symm
    have hbelow : ¬ LexBelow n a b := fun hlt => lexBelow_ne hlt hall
    refine ⟨iff_of_true h0 hall, iff_of_false ?_ hbelow, habove⟩
    rw [h0]
    decide
  · have hlt : a i < b i := by
      rcases UInt8.lt_or_lt_of_ne hdiff.ne with hlt | hlt
      · exact hlt
      · exact absurd ⟨i, hi, hdiff.symm, hlt⟩ h
    have h1 : memcmp a b n = -1 := by
      rcases memcmp_cases a b n with ⟨-, hle⟩ | ⟨h1, -⟩
      · exact absurd hlt (UInt8.not_lt.mpr (hle i hi))
      · exact h1
    have hbelow : LexBelow n a b := ⟨i, hi, hdiff, hlt⟩
    refine ⟨iff_of_false ?_ (lexBelow_ne hbelow), iff_of_true h1 hbelow, habove⟩
    rw [h1]
    decide

theorem memcmp_neg_iff (a b : Buffer) (n : Nat) :
    memcmp b a n = -memcmp a b n ↔ ∀ j, j < n → a j = b j := by
  constructor
  · intro h j hj
    have h0 : memcmp a b n = 0 ∧ memcmp b a n = 0 := by
      rcases memcmp_cases a b n with ⟨hab, -⟩ | ⟨hab, -⟩
      · rw [hab] at h
        exact ⟨hab, h⟩
      · rw [hab] at h
        exact absurd h (memcmp_ne_one b a n)
    exact UInt8.le_antisymm ((memcmp_eq_zero_iff b a n).mp h0.2 j hj)
      ((memcmp_eq_zero_iff a b n).mp h0.1 j hj)
  · intro hall
    have hab := (memcmp_eq_zero_iff a b n).mpr fun j hj => UInt8.le_of_eq (hall j hj).symm
    have hba := (memcmp_eq_zero_iff b a n).mpr fun j hj => UInt8.le_of_eq (hall j hj)
    rw [hab, hba]
    rfl

/-- **Arrays.** The result is the order of two arrays exactly when the first one does not come
after the second; and the two ways to compare them tell the same only of equal ones. -/
theorem memcmp_orders_iff (a b : Buffer) (n : Nat) :
    (MemcmpOrders a b n ↔ ¬ LexBelow n b a) ∧
      (memcmp b a n = -memcmp a b n ↔ ∀ j, j < n → a j = b j) := by
  refine ⟨⟨?_, memcmp_orders_of_not_above⟩, memcmp_neg_iff a b n⟩
  intro h habove
  exact memcmp_ne_one a b n (h.above.mpr habove)

/-- `b` against `a`: the result is that for equal arrays. -/
theorem memcmp_not_orders :
    memcmp (fun _ => 0x62) (fun _ => 0x61) 1 = 0 ∧
    ¬ MemcmpOrders (fun _ => 0x62) (fun _ => 0x61) 1 := by
  have h0 : memcmp (fun _ => 0x62) (fun _ => 0x61) 1 = 0 := rfl
  refine ⟨h0, ?_⟩
  intro h
  exact absurd (h.equal.mp h0 0 Nat.zero_lt_one) (by decide)

/-! ## strcmp -/

/-- `k` is the first place where the strings differ, or where both end. -/
structure StopsAt (s t : CString) (k : Nat) : Prop where
  stop : s.get k ≠ t.get k ∨ s.get k = 0
  before : ∀ j, j < k → s.get j = t.get j ∧ s.get j ≠ 0

/-- The bytes of `s` may be read up to index `k`; whether there are any more is left open. -/
def ReadableTo (str : List UInt8) (s : CString) (k : Nat) : Prop :=
  ∀ i, i ≤ k → str[i]? = some (s.get i)

theorem toInt8_inj {c d : UInt8} : c.toInt8 = d.toInt8 ↔ c = d := by
  constructor
  · intro h
    have hback := congrArg Int8.toUInt8 h
    rwa [UInt8.toUInt8_toInt8, UInt8.toUInt8_toInt8] at hback
  · rintro rfl
    rfl

theorem exists_cons_of_getElem? {str : List UInt8} {c : UInt8} (h : str[0]? = some c) :
    ∃ rest, str = c :: rest :=
  List.head?_eq_some_iff.mp (List.head?_eq_getElem?.trans h)

/-- Characters that are equal are passed over, whatever their sign; the first difference, or a
NUL in both strings, ends the loop. -/
theorem strcmp_stops {f g : Nat → UInt8} {k : Nat} {strA strB : List UInt8}
    (hstop : f k ≠ g k ∨ f k = 0) (hbefore : ∀ j, j < k → f j = g j ∧ f j ≠ 0)
    (hA : ∀ i, i ≤ k → strA[i]? = some (f i)) (hB : ∀ i, i ≤ k → strB[i]? = some (g i)) :
    strcmp strA strB = some ((f k).toNat - (g k).toNat : Int) := by
  induction k generalizing f g strA strB with
  | zero =>
    obtain ⟨strA, rfl⟩ := exists_cons_of_getElem? (hA 0 (Nat.le_refl 0))
    obtain ⟨strB, rfl⟩ := exists_cons_of_getElem? (hB 0 (Nat.le_refl 0))
    rw [strcmp, if_neg]
    rintro ⟨hne, heq⟩
    rcases hstop with hdiff | hnul
    · exact hdiff (toInt8_inj.mp heq)
    · exact hne (toInt8_inj.mpr hnul)
  | succ k ih =>
    obtain ⟨strA, rfl⟩ := exists_cons_of_getElem? (hA 0 (Nat.zero_le _))
    obtain ⟨strB, rfl⟩ := exists_cons_of_getElem? (hB 0 (Nat.zero_le _))
    obtain ⟨heq, hne⟩ := hbefore 0 (Nat.succ_pos k)
    rw [strcmp, if_pos ⟨fun h0 => hne (toInt8_inj.mp h0), toInt8_inj.mpr heq⟩]
    exact @ih (fun i => f (i + 1)) (fun i => g (i + 1)) strA strB hstop
      (fun j hj => hbefore (j + 1) (Nat.succ_lt_succ hj))
      (fun i hi => hA (i + 1) (Nat.succ_le_succ hi)) (fun i hi => hB (i + 1) (Nat.succ_le_succ hi))

theorem StopsAt.strcmp_eq {s t : CString} {k : Nat} {strA strB : List UInt8} (h : StopsAt s t k)
    (hA : ReadableTo strA s k) (hB : ReadableTo strB t k) :
    strcmp strA strB = some ((s.get k).toNat - (t.get k).toNat : Int) :=
  strcmp_stops h.stop h.before hA hB

theorem stopsAt_self (s : CString) : StopsAt s s s.chars.length where
  stop := .inr (CString.get_of_le (Nat.le_refl _))
  before _ hj := ⟨rfl, CString.get_ne_zero hj⟩

/-- Before the first difference neither string has ended. -/
theorem stopsAt_of_firstDiff {s t : CString} {k : Nat} (h : FirstDiff s.get t.get k) :
    StopsAt s t k where
  stop := .inl h.ne
  before j hj := by
    have heq := h.before j hj
    refine ⟨heq, ?_⟩
    intro h0
    have hs : s.chars.length ≤ j := Nat.not_lt.mp fun hlt => CString.get_ne_zero hlt h0
    have ht : t.chars.length ≤ j := Nat.not_lt.mp fun hlt => CString.get_ne_zero hlt (heq ▸ h0)
    apply h.ne
    rw [CString.get_of_le (by omega), CString.get_of_le (by omega)]

theorem chars_lt_iff_exists {s t : CString} :
    s.chars < t.chars ↔ ∃ i, FirstDiff s.get t.get i ∧ s.get i < t.get i :=
  list_lt_iff (fun _ _ => UInt8.lt_asymm) (fun _ => UInt8.pos_iff_ne_zero.mpr) s.no_nul t.no_nul

theorem chars_lt_iff {s t : CString} {k : Nat} (h : FirstDiff s.get t.get k) :
    s.chars < t.chars ↔ (s.get k).toNat < (t.get k).toNat := by
  rw [chars_lt_iff_exists, ← UInt8.lt_iff_toNat_lt]
  constructor
  · rintro ⟨i, hi, hlt⟩
    obtain rfl := hi.unique h
    exact hlt
  · exact fun hlt => ⟨k, h, hlt⟩

theorem not_chars_lt_self (s : CString) : ¬ s.chars < s.chars := by
  rw [chars_lt_iff_exists]
  rintro ⟨i, hdiff, -⟩
  exact hdiff.ne rfl

/-- **Strings.** `strcmp` is negative, zero or positive as the first string comes before the
second, is equal to it or comes after it.  It needs no byte behind the first difference or
the common NUL: they need not be readable, and do not matter. -/
theorem strcmp_orders (s t : CString) : ∃ (k : Nat) (d : Int), StopsAt s t k ∧
    (∀ strA strB, ReadableTo strA s k → ReadableTo strB t k → strcmp strA strB = some d) ∧
    (d = 0 ↔ s = t) ∧ (d < 0 ↔ s.chars < t.chars) ∧ (0 < d ↔ t.chars < s.chars) := by
  by_cases heq : s = t
  · subst heq
    have hstop := stopsAt_self s
    refine ⟨_, _, hstop, fun _ _ hA hB => hstop.strcmp_eq hA hB, ?_, ?_, ?_⟩
    · exact iff_of_true (Int.sub_self _) rfl
    · exact iff_of_false (by omega) (not_chars_lt_self s)
    · exact iff_of_false (by omega) (not_chars_lt_self s)
  · have hchars : s.chars ≠ t.chars := fun hsame => heq (CString.eq_of_chars hsame)
    obtain ⟨k, hdiff⟩ : ∃ k, FirstDiff s.get t.get k :=
      exists_firstDiff_of_ne s.no_nul t.no_nul hchars
    have hstop := stopsAt_of_firstDiff hdiff
    have hne : (s.get k).toNat ≠ (t.get k).toNat := fun h => hdiff.ne (UInt8.toNat_inj.mp h)
    refine ⟨k, _, hstop, fun _ _ hA hB => hstop.strcmp_eq hA hB, ?_, ?_, ?_⟩
    · exact iff_of_false (by omega) heq
    · rw [chars_lt_iff hdiff]
      omega
    · rw [chars_lt_iff hdiff.symm]
      omega

/-- A byte above 0x7F comes after the letters.  Nothing behind it is there to be read. -/
theorem strcmp_orders_two : ∃ d, strcmp [0x61, 0xC3] [0x61, 0x7A] = some d ∧ 0 < d := by
  obtain ⟨k, d, hstop, hread, -, -, hpos⟩ :=
    strcmp_orders ⟨[0x61, 0xC3, 0x62], by decide⟩ ⟨[0x61, 0x7A], by decide⟩
  obtain rfl : k = 1 := by
    rcases Nat.lt_trichotomy k 1 with hk | hk | hk
    · obtain rfl := Nat.lt_one_iff.mp hk
      exact absurd hstop.stop (by decide)
    · exact hk
    · exact absurd (hstop.before 1 hk).1 (by decide)
  refine ⟨d, hread _ _ ?_ ?_, hpos.mpr (by decide)⟩
  · unfold ReadableTo
    decide
  · unfold ReadableTo
    decide

end KoizOs
