import Mathlib.Algebra.Group.Nat.Defs
import Mathlib.Tactic.Common

/-!
# Little-endian words and byte memories

Words of 16 and 32 bits as their bytes, low byte first, with the round trips
`le16_bytes` and `le32_bytes`; and the byte-wise update of a memory by a block
(`patch`).
-/

namespace Lib

/-! ## Words -/

def le16 (b0 b1 : UInt8) : UInt16 := b0.toUInt16 ||| (b1.toUInt16 <<< 8)

def byte16 (v : UInt16) : Nat → UInt8
  | 0 => v.toUInt8
  | _ => (v >>> 8).toUInt8

def le32 (b0 b1 b2 b3 : UInt8) : UInt32 :=
  b0.toUInt32 ||| (b1.toUInt32 <<< 8) ||| (b2.toUInt32 <<< 16) ||| (b3.toUInt32 <<< 24)

def byte32 (v : UInt32) : Nat → UInt8
  | 0 => v.toUInt8
  | 1 => (v >>> 8).toUInt8
  | 2 => (v >>> 16).toUInt8
  | _ => (v >>> 24).toUInt8

@[simp] theorem le16_bytes (v : UInt16) : le16 (byte16 v 0) (byte16 v 1) = v := by
  apply UInt16.eq_of_toBitVec_eq
  ext i hi
  simp [le16, byte16, -UInt16.toUInt16_toUInt8]
  grind

@[simp] theorem byte16_le16_zero (b0 b1 : UInt8) : byte16 (le16 b0 b1) 0 = b0 := by
  apply UInt8.eq_of_toBitVec_eq
  ext i hi
  simp [le16, byte16]

@[simp] theorem byte16_le16_one (b0 b1 : UInt8) : byte16 (le16 b0 b1) 1 = b1 := by
  apply UInt8.eq_of_toBitVec_eq
  ext i hi
  simp [le16, byte16]
  grind

theorem le16_inj {a0 a1 b0 b1 : UInt8} : le16 a0 a1 = le16 b0 b1 ↔ a0 = b0 ∧ a1 = b1 := by
  constructor
  · intro h
    have h0 := congrArg (byte16 · 0) h
    have h1 := congrArg (byte16 · 1) h
    simpa using And.intro h0 h1
  · rintro ⟨rfl, rfl⟩
    rfl

@[simp] theorem le32_bytes (v : UInt32) :
    le32 (byte32 v 0) (byte32 v 1) (byte32 v 2) (byte32 v 3) = v := by
  apply UInt32.eq_of_toBitVec_eq
  ext i hi
  simp [le32, byte32, -UInt32.toUInt32_toUInt8]
  grind

@[simp] theorem byte32_le32_zero (b0 b1 b2 b3 : UInt8) : byte32 (le32 b0 b1 b2 b3) 0 = b0 := by
  apply UInt8.eq_of_toBitVec_eq
  ext i hi
  simp [le32, byte32]

/-! ## Byte memories -/

variable {α : Type} [DecidableEq α]

/-- `m` with the bytes `data 0 … data (n - 1)` stored at `[a, a + n)`. -/
def patch (m : Nat → UInt8) (a n : Nat) (data : Nat → UInt8) : Nat → UInt8 :=
  fun x => if a ≤ x ∧ x < a + n then data (x - a) else m x

theorem patch_of_mem {m : Nat → UInt8} {a n x : Nat} {data : Nat → UInt8} (hx : a ≤ x)
    (hx' : x < a + n) : patch m a n data x = data (x - a) :=
  if_pos ⟨hx, hx'⟩

theorem patch_of_not_mem {m : Nat → UInt8} {a n x : Nat} {data : Nat → UInt8}
    (hx : x < a ∨ a + n ≤ x) : patch m a n data x = m x :=
  if_neg (by omega)

theorem patch_congr {m : Nat → UInt8} {a n : Nat} {data data' : Nat → UInt8}
    (h : ∀ k, k < n → data k = data' k) : patch m a n data = patch m a n data' := by
  funext x
  unfold patch
  split
  · exact h _ (by omega)
  · rfl

end Lib
