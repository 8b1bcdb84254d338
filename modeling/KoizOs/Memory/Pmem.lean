import KoizOs.Kernel.Basic
import Mathlib.Logic.Function.Basic
import Mathlib.Tactic.Common

/-!
# The physical page allocator

`pmemAlloc` is a wrapping next-fit search over one byte per page, kept in memory at
`pmemMainMemoryStart`; pages are named by their address.  What one call can do is said
once, by `pmemAlloc_cases` and `pmemFree_cases`; later proofs use these and never unfold
the functions.
-/

namespace KoizOs

open Function

structure Pmem where
  pmemInitialized : Bool
  pmemMainMemoryStart : UInt32
  pmemMainMemoryLength : UInt32
  pmemAllocStart : UInt32
  pmemMgrReservedSize : UInt32
  pmemCurrAllocRecord : UInt32
  /-- the memory that holds the records -/
  mem : Mem

/-! ## Algorithm -/

def pmemPtrToEntry (pm : Pmem) (ptr : UInt32) : Kern UInt32 :=
  if pm.pmemAllocStart > ptr then panic "pmem_ptr_to_entry: underflow error!"
  else if pm.pmemAllocStart + pm.pmemMainMemoryLength < ptr then
    panic "pmem_ptr_to_entry: overflow error!"
  else .ok ((ptr - pm.pmemAllocStart) / physBlockSize)

def pmemEntryToPtr (pm : Pmem) (entry : UInt32) : Kern UInt32 :=
  if entry > pm.pmemMgrReservedSize then panic "pmem_entry_to_ptr: entry out of bounds!"
  else .ok (physBlockSize * entry + pm.pmemAllocStart)

/-- `++pmem_curr_alloc_record`, wrapping at the end of the records. -/
def Pmem.nextRecord (pm : Pmem) : Pmem :=
  let c := pm.pmemCurrAllocRecord + 1
  { pm with pmemCurrAllocRecord := if c ≥ pm.pmemMgrReservedSize then 0 else c }

def Pmem.recordPtr (pm : Pmem) (record : UInt32) : UInt32 := pm.pmemMainMemoryStart + record

def pmemAllocLoop (startRecord : UInt32) : (fuel : Nat) → Pmem → Kern (UInt32 × Pmem)
  | 0, _ => .error .hang
  | fuel + 1, pm =>
    if startRecord = pm.pmemCurrAllocRecord then panic "out of memory!"
    else
      let recordPtr := pm.recordPtr pm.pmemCurrAllocRecord
      if pm.mem recordPtr = 0x00 then do
        let pm := { pm with mem := update pm.mem recordPtr 0x1 }
        let pmemAddr ← pmemEntryToPtr pm pm.pmemCurrAllocRecord
        return (pmemAddr, pm)
      else pmemAllocLoop startRecord fuel pm.nextRecord

/-- The search meets every record once before it is back at its start, so one round more
than there are records is enough. -/
def pmemAlloc (pm : Pmem) : Kern (UInt32 × Pmem) :=
  if pm.pmemInitialized = false then panic "Call to pmem_alloc before initialized!"
  else pmemAllocLoop pm.pmemCurrAllocRecord (pm.pmemMgrReservedSize.toNat + 1) pm.nextRecord

def pmemFree (pm : Pmem) (ptr : UInt32) : Kern (Int × Pmem) := do
  let record ← pmemPtrToEntry pm ptr
  let recordPtr := pm.recordPtr record
  if pm.mem recordPtr = 0x0 then panic "attempted to free memory that's already free!"
  else return (0, { pm with mem := update pm.mem recordPtr 0x0 })

/-! ## Records and pages -/

namespace Pmem

variable (pm : Pmem)

/-- The byte that record `e` holds. -/
def record (e : UInt32) : UInt8 := pm.mem (pm.recordPtr e)

/-- The address of page `e`. -/
def pageAddr (e : UInt32) : UInt32 := physBlockSize * e + pm.pmemAllocStart

/-- Record `e` set to `v`. -/
def setRecord (e : UInt32) (v : UInt8) : Pmem := { pm with mem := update pm.mem (pm.recordPtr e) v }

/-- The cursor moved to `e`. -/
def setCursor (e : UInt32) : Pmem := { pm with pmemCurrAllocRecord := e }

/-- The pool as `pmem_initialize` leaves it, whatever the records hold. -/
structure Initialised : Prop where
  initialized : pm.pmemInitialized = true
  size : pm.pmemMgrReservedSize = pm.pmemMainMemoryLength / physBlockSize
  cursor : pm.pmemCurrAllocRecord < pm.pmemMgrReservedSize

variable {pm} {e f : UInt32} {v : UInt8}

theorem Initialised.store (h : pm.Initialised) (m : Mem) : Initialised { pm with mem := m } :=
  ⟨h.initialized, h.size, h.cursor⟩

theorem record_setRecord : (pm.setRecord e v).record f = if f = e then v else pm.record f := by
  simp [record, setRecord, recordPtr, update_apply]

theorem Initialised.size_le (h : pm.Initialised) : pm.pmemMgrReservedSize.toNat < 2 ^ 20 := by
  rw [h.size, UInt32.toNat_div]
  have := pm.pmemMainMemoryLength.toNat_lt
  simp only [toNat_physBlockSize]
  omega

/-- Different records name different pages: the addresses of fewer than `2 ^ 20` pages do
not wrap onto each other. -/
theorem Initialised.pageAddr_inj (h : pm.Initialised) (he : e < pm.pmemMgrReservedSize)
    (hf : f < pm.pmemMgrReservedSize) (hef : pm.pageAddr e = pm.pageAddr f) : e = f := by
  have hsz := h.size_le
  rw [UInt32.lt_iff_toNat_lt] at he hf
  have h4 : physBlockSize * e = physBlockSize * f := by simpa [pageAddr] using hef
  apply UInt32.toNat_inj.mp
  have := congrArg UInt32.toNat h4
  simp only [UInt32.toNat_mul, toNat_physBlockSize] at this
  omega

theorem pageAddr_sub (he : e.toNat < 2 ^ 20) :
    (pm.pageAddr e - pm.pmemAllocStart) / physBlockSize = e := by
  have h : pm.pageAddr e - pm.pmemAllocStart = physBlockSize * e := by simp [pageAddr]
  rw [h]
  apply UInt32.toNat_inj.mp
  simp only [UInt32.toNat_div, UInt32.toNat_mul, toNat_physBlockSize]
  omega

end Pmem

/-! ## What one call can do -/

variable {pm pm' : Pmem} {p : UInt32}

theorem Pmem.nextRecord_lt (h : 0 < pm.pmemMgrReservedSize) :
    pm.nextRecord.pmemCurrAllocRecord < pm.pmemMgrReservedSize := by
  simp only [Pmem.nextRecord]
  split
  · exact h
  · next hc => exact UInt32.not_le.mp hc

theorem pmemAllocLoop_cases {start : UInt32} {fuel : Nat}
    (hc : pm.pmemCurrAllocRecord < pm.pmemMgrReservedSize)
    (h : pmemAllocLoop start fuel pm = .ok (p, pm')) :
    ∃ e, e < pm.pmemMgrReservedSize ∧ pm.record e = 0 ∧ p = pm.pageAddr e ∧
      pm' = (pm.setCursor e).setRecord e 1 := by
  induction fuel generalizing pm with
  | zero => cases h
  | succ fuel ih =>
    have h0 : 0 < pm.pmemMgrReservedSize := by
      rw [UInt32.lt_iff_toNat_lt] at hc ⊢
      exact Nat.zero_lt_of_lt hc
    unfold pmemAllocLoop at h
    split at h
    · cases h
    · simp only at h
      split at h
      · next hr =>
        rw [pmemEntryToPtr, if_neg (UInt32.lt_asymm hc)] at h
        obtain ⟨rfl, rfl⟩ := Prod.mk.inj (Except.ok.inj h)
        exact ⟨_, hc, hr, rfl, rfl⟩
      · obtain ⟨e, he, hr, rfl, rfl⟩ := ih (Pmem.nextRecord_lt h0) h
        exact ⟨e, he, hr, rfl, rfl⟩

/-- A call that returns hands out a page whose record was 0 and sets that record to 1. -/
theorem pmemAlloc_cases (hi : pm.Initialised) (h : pmemAlloc pm = .ok (p, pm')) :
    ∃ e, e < pm.pmemMgrReservedSize ∧ pm.record e = 0 ∧ p = pm.pageAddr e ∧
      pm' = (pm.setCursor e).setRecord e 1 := by
  have h0 : 0 < pm.pmemMgrReservedSize := by
    have := hi.cursor
    rw [UInt32.lt_iff_toNat_lt] at this ⊢
    exact Nat.zero_lt_of_lt this
  unfold pmemAlloc at h
  rw [if_neg (by simp [hi.initialized])] at h
  obtain ⟨e, he, hr, rfl, rfl⟩ := pmemAllocLoop_cases (Pmem.nextRecord_lt h0) h
  exact ⟨e, he, hr, rfl, rfl⟩

/-- Freeing page `e` clears record `e` and no other. -/
theorem pmemFree_cases {res : Int} {e : UInt32} (hi : pm.Initialised)
    (he : e < pm.pmemMgrReservedSize) (h : pmemFree pm (pm.pageAddr e) = .ok (res, pm')) :
    res = 0 ∧ pm.record e ≠ 0 ∧ pm' = pm.setRecord e 0 := by
  have hlt : e.toNat < 2 ^ 20 := Nat.lt_trans (UInt32.lt_iff_toNat_lt.mp he) hi.size_le
  obtain ⟨record, hrec, hset⟩ := bind_eq_ok.mp h
  have hre : record = e := by
    unfold pmemPtrToEntry at hrec
    split at hrec
    · cases hrec
    · split at hrec
      · cases hrec
      · rw [← Except.ok.inj hrec, Pmem.pageAddr_sub hlt]
  subst hre
  simp only at hset
  split at hset
  · cases hset
  · next hr =>
    obtain ⟨rfl, rfl⟩ := Prod.mk.inj (Except.ok.inj hset)
    exact ⟨rfl, hr, rfl⟩

end KoizOs
