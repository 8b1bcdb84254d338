import KoizOs.Kernel.Basic
import Mathlib.Logic.Function.Basic
import Mathlib.Tactic.Common

/-!
# The slab allocator

Seven slabs, of entries of 4096, 2048, … 64 bytes.  A slab grows a page at a time, up to
100 pages and 1000 entries; `malloc` hands out the first free entry from `currentEntry`
on, `free` looks an address up from the last entry down.  Counters and indices are natural
numbers; addresses wrap like `UInt32`.
-/

namespace KoizOs

open Function

def slabEntryCount : Nat := 1000
def slabMaxPageCount : Nat := 100
def slabCount : Nat := 7

structure KmemslabEntry where
  memAddr : UInt32
  memFree : UInt8

structure Kmemslab where
  entries : Nat → KmemslabEntry
  freeEntries : Nat
  currentEntry : Nat
  maxEntries : Nat
  pages : Nat → UInt32
  currentPage : Nat

structure Heap (σ : Type) where
  slabs : Nat → Kmemslab
  pmem : σ

variable {σ : Type}

/-- `slabs` is static memory, so all of it is 0 at first. -/
def Heap.boot (s : σ) : Heap σ where
  slabs _ := ⟨fun _ => ⟨0, 0⟩, 0, 0, 0, fun _ => 0, 0⟩
  pmem := s

/-! ## Algorithm -/

/-- `n` entries are left to make; the address is moved on before it is stored. -/
def splitPageLoop (slabSize : UInt32) : (n : Nat) → (cAddr : UInt32) → Kmemslab →
    UInt32 × Kmemslab
  | 0, cAddr, slab => (cAddr, slab)
  | n + 1, cAddr, slab =>
    let cAddr := cAddr + slabSize
    splitPageLoop slabSize n cAddr
      { slab with
        entries := update slab.entries slab.maxEntries ⟨cAddr, 1⟩
        maxEntries := slab.maxEntries + 1
        freeEntries := slab.freeEntries + 1 }

section PageSource

variable (pmemAlloc : σ → Kern (UInt32 × σ))

def allocNewPageIfNeeded (slabSize : Nat) (slab : Kmemslab) (pmem : σ) : Kern (Kmemslab × σ) :=
  if slab.freeEntries > 0 then .ok (slab, pmem)
  else
    let additionalEntries := physBlockSize.toNat / slabSize
    let additionalEntries :=
      if slab.maxEntries + additionalEntries > slabEntryCount then slabEntryCount - slab.maxEntries
      else additionalEntries
    if additionalEntries * slabSize > physBlockSize.toNat then
      panic "alloc_new_page_if_needed overflow"
    else if additionalEntries ≤ 0 then .ok (slab, pmem)
    else if slab.currentPage = slabMaxPageCount then .ok (slab, pmem)
    else do
      let (cPage, pmem) ← pmemAlloc pmem
      let slab := { slab with
        pages := update slab.pages slab.currentPage cPage
        currentPage := slab.currentPage + 1 }
      let (cAddr, slab) := splitPageLoop (UInt32.ofNat slabSize) additionalEntries cPage slab
      if slab.maxEntries > slabEntryCount then panic "Max entry overflow!"
      else if cAddr > cAddr + physBlockSize then
        panic "Malloc allocated more entries than availiable!"
      else .ok (slab, pmem)

/-- `n` slabs are left to look at, the next is `i`; the last one that fits is kept. -/
def mallocClassLoop (size : UInt32) : (n i currentSize : Nat) → Option (Nat × Nat) →
    Option (Nat × Nat)
  | 0, _, _, c => c
  | n + 1, i, currentSize, c =>
    mallocClassLoop size n (i + 1) (currentSize / 2)
      (if size.toNat ≤ currentSize then some (i, currentSize) else c)

/-- The slab that serves a request, and the size of its entries. -/
def mallocClass (size : UInt32) : Option (Nat × Nat) :=
  mallocClassLoop size slabCount 0 physBlockSize.toNat none

/-- The do-while loop over the entries, for at most `n` rounds. -/
def mallocLoop (slab : Kmemslab) : (n cPtr : Nat) → Kern Nat
  | 0, _ => .error .hang
  | n + 1, cPtr =>
    if (slab.entries cPtr).memFree ≠ 0 then .ok cPtr
    else
      let cPtr := (cPtr + 1) % slab.maxEntries
      if cPtr ≠ slab.currentEntry then mallocLoop slab n cPtr
      else panic "Cannot malloc! Out of memory!"

/-- Entry `k` marked as used. -/
def Kmemslab.take (slab : Kmemslab) (k : Nat) : Kmemslab :=
  { slab with
    entries := update slab.entries k { slab.entries k with memFree := 0 }
    currentEntry := k
    freeEntries := slab.freeEntries - 1 }

def malloc (size : UInt32) (hp : Heap σ) : Kern (UInt32 × Heap σ) :=
  match mallocClass size with
  | none => panic "Cannot malloc an entry larger than 4096 bytes!"
  | some (i, cSize) => do
    let (cSlab, pmem) ← allocNewPageIfNeeded pmemAlloc cSize (hp.slabs i) hp.pmem
    if cSlab.freeEntries ≤ 0 then panic "malloc failed! no free memory exists!"
    else do
      let cPtr ← mallocLoop cSlab (cSlab.maxEntries + 1) cSlab.currentEntry
      return ((cSlab.entries cPtr).memAddr,
        { slabs := update hp.slabs i (cSlab.take cPtr), pmem := pmem })

end PageSource

/-- Entry `k` marked as free. -/
def Kmemslab.give (slab : Kmemslab) (k : Nat) : Kmemslab :=
  { slab with
    entries := update slab.entries k { slab.entries k with memFree := 1 }
    currentEntry := k
    freeEntries := slab.freeEntries + 1 }

/-- Entries below `n` are left to look at. -/
def freePtrSlabLoop (slab : Kmemslab) (ptr : UInt32) : (n : Nat) → Option Kmemslab
  | 0 => none
  | n + 1 =>
    if (slab.entries n).memAddr = ptr then some (slab.give n) else freePtrSlabLoop slab ptr n

def freePtrSlab (slab : Kmemslab) (ptr : UInt32) : Option Kmemslab :=
  freePtrSlabLoop slab ptr slab.maxEntries

def freeLoop (ptr : UInt32) : (n i : Nat) → (Nat → Kmemslab) → Kern (Nat → Kmemslab)
  | 0, _, _ => panic "failed to free address"
  | n + 1, i, slabs =>
    match freePtrSlab (slabs i) ptr with
    | some slab => .ok (update slabs i slab)
    | none => freeLoop ptr n (i + 1) slabs

def free (ptr : UInt32) (hp : Heap σ) : Kern (Heap σ) := do
  let slabs ← freeLoop ptr slabCount 0 hp.slabs
  return { hp with slabs := slabs }

/-! ## What each part does -/

/-- The size of the entries of slab `i`. -/
def slabSize (i : Nat) : Nat := physBlockSize.toNat / 2 ^ i

theorem mallocClassLoop_cases {size : UInt32} {n i j c : Nat} {o : Option (Nat × Nat)}
    (h : mallocClassLoop size n i (slabSize i) o = some (j, c)) :
    o = some (j, c) ∨ i ≤ j ∧ j < i + n ∧ c = slabSize j ∧ size.toNat ≤ c := by
  induction n generalizing i o with
  | zero => exact .inl h
  | succ n ih =>
    have hhalf : slabSize i / 2 = slabSize (i + 1) := by
      unfold slabSize
      rw [Nat.div_div_eq_div_mul, ← Nat.pow_succ]
    rw [mallocClassLoop, hhalf] at h
    rcases ih h with ho | ⟨hij, hjn, hc, hle⟩
    · split at ho
      · next hle =>
        obtain ⟨rfl, rfl⟩ := Prod.mk.inj (Option.some.inj ho)
        exact .inr ⟨Nat.le_refl i, by omega, rfl, hle⟩
      · exact .inl ho
    · exact .inr ⟨by omega, by omega, hc, hle⟩

theorem mallocClass_spec {size : UInt32} {i c : Nat} (h : mallocClass size = some (i, c)) :
    i < slabCount ∧ c = slabSize i ∧ size.toNat ≤ c := by
  rcases mallocClassLoop_cases (i := 0) h with ho | ⟨-, hi, hc, hle⟩
  · cases ho
  · exact ⟨by omega, hc, hle⟩

theorem splitPageLoop_eq (c n : Nat) (a : UInt32) (slab : Kmemslab) :
    (splitPageLoop (UInt32.ofNat c) n a slab).2 =
      { slab with
        entries := fun k => if slab.maxEntries ≤ k ∧ k < slab.maxEntries + n then
          ⟨a + UInt32.ofNat (c * (k - slab.maxEntries + 1)), 1⟩ else slab.entries k
        maxEntries := slab.maxEntries + n
        freeEntries := slab.freeEntries + n } := by
  induction n generalizing a slab with
  | zero =>
    have hno : ∀ k, ¬ (slab.maxEntries ≤ k ∧ k < slab.maxEntries) := by omega
    simp only [splitPageLoop, Nat.add_zero, hno, if_false]
  | succ n ih =>
    rw [splitPageLoop, ih]
    simp only [Kmemslab.mk.injEq, and_true, true_and]
    refine ⟨funext ?_, by omega, by omega⟩
    intro k
    by_cases hk : k = slab.maxEntries
    · subst hk
      rw [if_neg (by omega), if_pos (by omega), update_self, Nat.sub_self, Nat.zero_add, Nat.mul_one]
    · rw [update_of_ne hk]
      by_cases hin : slab.maxEntries + 1 ≤ k ∧ k < slab.maxEntries + 1 + n
      · rw [if_pos hin, if_pos (by omega), UInt32.add_assoc, ← UInt32.ofNat_add]
        congr 3
        rw [show k - slab.maxEntries + 1 = (k - (slab.maxEntries + 1) + 1) + 1 by omega,
          Nat.mul_succ c (k - (slab.maxEntries + 1) + 1), Nat.add_comm]
      · rw [if_neg hin, if_neg (by omega)]

end KoizOs
