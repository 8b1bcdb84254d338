import KoizOs.Kernel.Basic
import Mathlib.Logic.Function.Basic
import Mathlib.Tactic.Common

/-!
# Words and pages in physical memory

Addresses are 32-bit and wrap.  An address in a page is written `p + UInt32.ofNat o`, with
`p` 4096-aligned and `o < 4096`; then page and offset are determined by the address
(`page_add_inj`), so a store into one page is not seen in another.
-/

namespace KoizOs

open Function Lib

def Mem.load32 (m : Mem) (a : UInt32) : UInt32 := le32 (m a) (m (a + 1)) (m (a + 2)) (m (a + 3))

def Mem.store32 (m : Mem) (a v : UInt32) : Mem :=
  update (update (update (update m a (byte32 v 0)) (a + 1) (byte32 v 1)) (a + 2) (byte32 v 2))
    (a + 3) (byte32 v 3)

/-! ## Addresses -/

def PageAligned (p : UInt32) : Prop := p.toNat % 4096 = 0

theorem page_add_toNat {p : UInt32} (hp : PageAligned p) {o : Nat} (ho : o < 4096) :
    (p + UInt32.ofNat o).toNat = p.toNat + o := by
  have := p.toNat_lt
  unfold PageAligned at hp
  rw [UInt32.toNat_add, UInt32.toNat_ofNat']
  omega

theorem page_add_inj {p q : UInt32} (hp : PageAligned p) (hq : PageAligned q) {o o' : Nat}
    (ho : o < 4096) (ho' : o' < 4096) :
    p + UInt32.ofNat o = q + UInt32.ofNat o' ↔ p = q ∧ o = o' := by
  constructor
  · intro h
    have := congrArg UInt32.toNat h
    rw [page_add_toNat hp ho, page_add_toNat hq ho'] at this
    unfold PageAligned at hp hq
    exact ⟨UInt32.toNat_inj.mp (by omega), by omega⟩
  · rintro ⟨rfl, rfl⟩
    rfl

theorem add_ofNat_add (p : UInt32) (o c : Nat) :
    p + UInt32.ofNat o + UInt32.ofNat c = p + UInt32.ofNat (o + c) := by
  rw [UInt32.ofNat_add, UInt32.add_assoc]

/-- A word inside a page, byte by byte. -/
theorem load32_page (m : Mem) (p : UInt32) (o : Nat) :
    m.load32 (p + UInt32.ofNat o) =
      le32 (m (p + UInt32.ofNat o)) (m (p + UInt32.ofNat (o + 1))) (m (p + UInt32.ofNat (o + 2)))
        (m (p + UInt32.ofNat (o + 3))) := by
  rw [← add_ofNat_add, ← add_ofNat_add, ← add_ofNat_add]
  rfl

theorem store32_page (m : Mem) (p v : UInt32) (o : Nat) :
    m.store32 (p + UInt32.ofNat o) v =
      update (update (update (update m (p + UInt32.ofNat o) (byte32 v 0))
        (p + UInt32.ofNat (o + 1)) (byte32 v 1)) (p + UInt32.ofNat (o + 2)) (byte32 v 2))
        (p + UInt32.ofNat (o + 3)) (byte32 v 3) := by
  rw [← add_ofNat_add, ← add_ofNat_add, ← add_ofNat_add]
  rfl

/-- A store inside one page, read at an address of any page. -/
theorem store32_apply {m : Mem} {p q v : UInt32} {o o' : Nat} (hp : PageAligned p)
    (hq : PageAligned q) (ho : o + 3 < 4096) (ho' : o' < 4096) :
    m.store32 (p + UInt32.ofNat o) v (q + UInt32.ofNat o') =
      if p = q ∧ o ≤ o' ∧ o' < o + 4 then byte32 v (o' - o) else m (q + UInt32.ofNat o') := by
  have hb : ∀ c, c < 4 → (q + UInt32.ofNat o' = p + UInt32.ofNat (o + c) ↔ q = p ∧ o' = o + c) :=
    fun c hc => page_add_inj hq hp ho' (by omega)
  have hb0 : q + UInt32.ofNat o' = p + UInt32.ofNat o ↔ q = p ∧ o' = o := hb 0 (by decide)
  rw [store32_page]
  simp only [update_apply, hb0, hb 1 (by decide), hb 2 (by decide), hb 3 (by decide)]
  by_cases hpq : p = q
  · subst hpq
    simp only [true_and]
    by_cases h : o ≤ o' ∧ o' < o + 4
    · obtain ⟨c, hc, rfl⟩ : ∃ c, c < 4 ∧ o' = o + c := ⟨o' - o, by omega, by omega⟩
      obtain rfl | rfl | rfl | rfl : c = 0 ∨ c = 1 ∨ c = 2 ∨ c = 3 := by omega
      all_goals simp
    · rw [if_neg (by omega), if_neg (by omega), if_neg (by omega), if_neg (by omega), if_neg (by omega)]
  · have hqp : q ≠ p := fun h => hpq h.symm
    simp [hpq, hqp]

/-- A store leaves all but its four bytes alone. -/
theorem store32_of_ne {m : Mem} {p v x : UInt32} {o : Nat}
    (h : ∀ c, c < 4 → x ≠ p + UInt32.ofNat (o + c)) : m.store32 (p + UInt32.ofNat o) v x = m x := by
  have h0 := h 0 (by decide)
  rw [Nat.add_zero] at h0
  rw [store32_page, update_of_ne (h 3 (by decide)), update_of_ne (h 2 (by decide)),
    update_of_ne (h 1 (by decide)), update_of_ne h0]

theorem load32_store32_same {m : Mem} {p v : UInt32} {o : Nat} (hp : PageAligned p)
    (ho : o + 3 < 4096) :
    (m.store32 (p + UInt32.ofNat o) v).load32 (p + UInt32.ofNat o) = v := by
  rw [load32_page, store32_apply hp hp ho (by omega), store32_apply hp hp ho (by omega),
    store32_apply hp hp ho (by omega), store32_apply hp hp ho (by omega)]
  simp

/-- A word keeps its value when its four bytes do. -/
theorem load32_congr {m m' : Mem} {p : UInt32} {o : Nat}
    (h : ∀ c, c < 4 → m' (p + UInt32.ofNat (o + c)) = m (p + UInt32.ofNat (o + c))) :
    m'.load32 (p + UInt32.ofNat o) = m.load32 (p + UInt32.ofNat o) := by
  have h0 := h 0 (by decide)
  rw [Nat.add_zero] at h0
  rw [load32_page, load32_page, h0, h 1 (by decide), h 2 (by decide), h 3 (by decide)]

/-! ## Masks -/

theorem toNat_and_mask (a : UInt32) : (a &&& ~~~0xFFF).toNat = a.toNat / 4096 * 4096 := by
  have hmask : (~~~0xFFF : UInt32).toNat = 2 ^ 12 * (2 ^ 20 - 1) := rfl
  rw [UInt32.toNat_and, hmask, Nat.mul_comm (a.toNat / 4096)]
  apply Nat.eq_of_testBit_eq
  intro i
  rw [Nat.testBit_and, Nat.testBit_two_pow_mul, Nat.testBit_two_pow_sub_one,
    show (4096 : Nat) = 2 ^ 12 from rfl, Nat.testBit_two_pow_mul, Nat.testBit_div_two_pow]
  by_cases hlow : 12 ≤ i
  · rw [Nat.sub_add_cancel hlow]
    by_cases hhigh : i < 32
    · simp [hlow, show i - 12 < 20 by omega]
    · have hzero : a.toNat.testBit i = false := by
        apply Nat.testBit_lt_two_pow
        exact Nat.lt_of_lt_of_le a.toNat_lt (Nat.pow_le_pow_right (by decide) (by omega))
      simp [hzero]
  · simp [hlow]

theorem toNat_and_offset (a : UInt32) : (a &&& 0xFFF).toNat = a.toNat % 4096 := by
  rw [UInt32.toNat_and]
  exact Nat.and_two_pow_sub_one_eq_mod a.toNat 12

end KoizOs
