import KoizOs.Libc.Printf
import Mathlib.Data.Nat.Digits.Lemmas

/-!
# Numbers and their digits

What `print_uint_to_string` emits is a numeral of its number: read from left to right in its
base it has that value, and no zero stands in front (`NumeralOf`).
-/

namespace KoizOs

/-- The value of one of the characters 0-9A-F. -/
def digitValue (c : UInt8) : Nat := numtochar.idxOf c

/-- Digits read from left to right. -/
def digitsValue (base : Nat) (digits : List UInt8) : Nat :=
  digits.foldl (fun v c => base * v + digitValue c) 0

/-- Digits of the base that have the value `n`, with no zero in front but that of `0`. -/
structure NumeralOf (base n : Nat) (digits : List UInt8) : Prop where
  nonempty : digits ≠ []
  digit : ∀ c ∈ digits, c ∈ numtochar ∧ digitValue c < base
  value : digitsValue base digits = n
  zero : n = 0 → digits = [0x30]
  lead : n ≠ 0 → digits.head? ≠ some 0x30

variable {base n : Nat} {ds : List Nat}

theorem digitValue_digitChar : ∀ d, d < 16 → digitValue (digitChar d) = d := by decide

theorem digitChar_mem : ∀ d, d < 16 → digitChar d ∈ numtochar := by decide

/-- `print_uint_to_string` finds the digits in reverse, as `Nat.digits` does. -/
theorem digitsValue_reverse (hds : ∀ d ∈ ds, d < 16) :
    digitsValue base (ds.reverse.map digitChar) = Nat.ofDigits base ds := by
  induction ds with
  | nil => rfl
  | cons d ds ih =>
    have hrest := ih fun e he => hds e (List.mem_cons_of_mem d he)
    unfold digitsValue at hrest ⊢
    rw [List.reverse_cons, List.map_append, List.foldl_append, hrest, Nat.ofDigits_cons]
    show base * Nat.ofDigits base ds + digitValue (digitChar d) = d + base * Nat.ofDigits base ds
    rw [digitValue_digitChar d (hds d List.mem_cons_self), Nat.add_comm]

theorem numeral_of_ne_zero (hn : n ≠ 0) :
    numeral base n = (Nat.digits base n).reverse.map digitChar :=
  if_neg hn

/-- The last digit that is found is not 0. -/
theorem numeral_head (hbase : 2 ≤ base) (hbase' : base ≤ 16) (hn : n ≠ 0) :
    (numeral base n).head? ≠ some 0x30 := by
  rw [numeral_of_ne_zero hn, List.head?_map, List.head?_reverse,
    List.getLast?_eq_getLast_of_ne_nil (Nat.digits_ne_nil_iff_ne_zero.mpr hn)]
  intro hzero
  have hlast := Nat.getLast_digit_ne_zero base hn
  have hlt : (Nat.digits base n).getLast (Nat.digits_ne_nil_iff_ne_zero.mpr hn) < 16 :=
    Nat.lt_of_lt_of_le (Nat.digits_lt_base hbase (List.getLast_mem _)) hbase'
  have hvalue := congrArg digitValue (Option.some.inj hzero)
  rw [digitValue_digitChar _ hlt] at hvalue
  exact hlast hvalue

theorem numeralOf_numeral (hbase : 2 ≤ base) (hbase' : base ≤ 16) (n : Nat) :
    NumeralOf base n (numeral base n) := by
  by_cases hn : n = 0
  · subst hn
    refine ⟨List.cons_ne_nil _ _, ?_, rfl, fun _ => rfl, fun h => absurd rfl h⟩
    intro c hc
    obtain rfl := List.mem_singleton.mp hc
    exact ⟨by decide, Nat.lt_of_lt_of_le Nat.two_pos hbase⟩
  · have hdigit : ∀ d ∈ Nat.digits base n, d < base := fun d hd => Nat.digits_lt_base hbase hd
    have hdigit' : ∀ d ∈ Nat.digits base n, d < 16 :=
      fun d hd => Nat.lt_of_lt_of_le (hdigit d hd) hbase'
    refine ⟨?_, ?_, ?_, fun h0 => absurd h0 hn, fun _ => numeral_head hbase hbase' hn⟩
    · rw [numeral_of_ne_zero hn, ne_eq, List.map_eq_nil_iff, List.reverse_eq_nil_iff]
      exact Nat.digits_ne_nil_iff_ne_zero.mpr hn
    · intro c hc
      rw [numeral_of_ne_zero hn] at hc
      obtain ⟨d, hd, rfl⟩ := List.mem_map.mp hc
      have hd := List.mem_reverse.mp hd
      rw [digitValue_digitChar d (hdigit' d hd)]
      exact ⟨digitChar_mem d (hdigit' d hd), hdigit d hd⟩
    · rw [numeral_of_ne_zero hn, digitsValue_reverse hdigit', Nat.ofDigits_digits]

/-- **Numbers.** For every base from 2 to 16 the digits that are emitted are those of the
number.  A store behind the 32 bytes of the buffer would have ended in a fault. -/
theorem print_uint_exact {base : UInt32} (hbase : 2 ≤ base.toNat) (hbase' : base.toNat ≤ 16)
    (number : UInt32) (out : Output) : ∃ digits,
    printUintToString number base out = .ok (stdPrint (numeralPrefix base ++ digits) out) ∧
      NumeralOf base.toNat number.toNat digits :=
  ⟨_, printUintToString_spec hbase hbase', numeralOf_numeral hbase hbase' number.toNat⟩

/-- The longest one: 32 ones. -/
theorem print_uint_exact_ones : ∃ digits,
    printUintToString 0xFFFFFFFF 2 [] = .ok (stdPrint ([0x30, 0x62] ++ digits) []) ∧
      digitsValue 2 digits = 2 ^ 32 - 1 := by
  obtain ⟨digits, hok, hdigits⟩ :=
    @print_uint_exact 2 (by decide) (by decide) 0xFFFFFFFF []
  exact ⟨digits, hok, hdigits.value⟩

end KoizOs
