import KoizOs.Heap.Capacity

/-!
# What `free` accepts

`free_ptr_slab` compares addresses only.  It does not look at `mem_free`, so an entry that
is free already is freed once more and counted twice, and `free` reports success.  Here a
run may free any pointer: its calls are those that returned, whatever they were given.

    RejectsUnallocated hp p ↔ ¬ FreeEntryAt hp p          (heap_free_iff)
-/

namespace KoizOs

open Function Lib

variable {σ : Type}

/-- One call that returned.  Unlike in `HeapStep`, any pointer may be freed. -/
inductive HeapCall (pmemAlloc : σ → Kern (UInt32 × σ)) : Heap σ → HeapOp → Heap σ → Prop
  | malloc {hp hp' : Heap σ} {size p : UInt32} :
      malloc pmemAlloc size hp = .ok (p, hp') → HeapCall pmemAlloc hp (.malloc size) hp'
  | free {hp hp' : Heap σ} {ptr : UInt32} :
      free ptr hp = .ok hp' → HeapCall pmemAlloc hp (.free ptr) hp'

/-- Entry `k` of slab `i` has the address `p`. -/
structure Heap.EntryAt (hp : Heap σ) (i k : Nat) (p : UInt32) : Prop where
  slab : i < slabCount
  entry : k < (hp.slabs i).maxEntries
  addr : ((hp.slabs i).entries k).memAddr = p

/-- Entry `k` of slab `i` is handed out. -/
def Heap.Used (hp : Heap σ) (i k : Nat) : Prop := ((hp.slabs i).entries k).memFree = 0

/-- `free` returns only when `p` is the address of an entry that is handed out, and marks
that entry as free; for any other pointer it panics. -/
def RejectsUnallocated (hp : Heap σ) (p : UInt32) : Prop :=
  (∀ hp', free p hp = .ok hp' →
    ∃ i k, hp.EntryAt i k p ∧ hp.Used i k ∧ hp' = hp.setSlab i ((hp.slabs i).give k)) ∧
  ((¬ ∃ i k, hp.EntryAt i k p ∧ hp.Used i k) → ∃ message, free p hp = panic message)

/-- `p` is the address of an entry that is free. -/
def FreeEntryAt (hp : Heap σ) (p : UInt32) : Prop := ∃ i k, hp.EntryAt i k p ∧ ¬ hp.Used i k

variable {pmemAlloc : σ → Kern (UInt32 × σ)} {s : σ} {hp hp' : Heap σ} {i k : Nat} {p : UInt32}

/-! ## Runs -/

theorem HeapLayout.makesRoom {hp₁ : Heap σ} (h : HeapLayout pmemAlloc s hp)
    (hfresh : FreshPages pmemAlloc s) (hroom : MakesRoom pmemAlloc i hp hp₁) :
    HeapLayout pmemAlloc s hp₁ := by
  cases hroom with
  | had _ => exact h
  | page _ _ hq hS => exact h.grow hfresh hS hq

/-- The layout of the heap does not depend on what is freed. -/
theorem HeapLayout.call {op : HeapOp} (h : HeapLayout pmemAlloc s hp)
    (hfresh : FreshPages pmemAlloc s) (hs : HeapCall pmemAlloc hp op hp') :
    HeapLayout pmemAlloc s hp' := by
  cases hs with
  | malloc hm =>
    obtain ⟨i, hp₁, k, -, hi, hroom, hnext, -, rfl⟩ := malloc_cases h hm
    have h₁ := h.makesRoom hfresh hroom
    exact h₁.setSlab ((h₁.slab i hi).take hnext.lt hnext.free) rfl rfl
  | free hf =>
    obtain ⟨i, k, hi, hk, -, rfl⟩ := free_cases hf
    exact h.setSlab ((h.slab i hi).give hk) rfl rfl

theorem heap_call_layout {tr : List (Heap σ × HeapOp)} (hfresh : FreshPages pmemAlloc s)
    (htr : Trace (HeapCall pmemAlloc) (Heap.boot s) tr hp) : HeapLayout pmemAlloc s hp :=
  (htr.invariant (I := HeapLayout pmemAlloc s) (.boot pmemAlloc s)
    fun _ _ _ h hs => h.call hfresh hs).1

/-! ## The lookup -/

/-- A lookup that finds nothing ends in a panic. -/
theorem freeLoop_total (ptr : UInt32) (n i : Nat) (slabs : Nat → Kmemslab) :
    (∃ slabs', freeLoop ptr n i slabs = .ok slabs') ∨
      freeLoop ptr n i slabs = panic "failed to free address" := by
  induction n generalizing i with
  | zero => exact .inr rfl
  | succ n ih =>
    unfold freeLoop
    cases freePtrSlab (slabs i) ptr with
    | some slab => exact .inl ⟨_, rfl⟩
    | none => exact ih (i + 1)

theorem free_panics (hno : ¬ ∃ i k, hp.EntryAt i k p) :
    free p hp = panic "failed to free address" := by
  rcases freeLoop_total p slabCount 0 hp.slabs with ⟨slabs, hok⟩ | hpanic
  · have hfree : free p hp = .ok { hp with slabs := slabs } := by
      unfold free
      rw [hok]
      rfl
    obtain ⟨i, k, hi, hk, haddr, -⟩ := free_cases hfree
    exact absurd ⟨i, k, hi, hk, haddr⟩ hno
  · unfold free
    rw [hpanic]
    rfl

theorem HeapLayout.entryAt_unique {i' k' : Nat} (h : HeapLayout pmemAlloc s hp)
    (hfresh : FreshPages pmemAlloc s) (he : hp.EntryAt i k p) (he' : hp.EntryAt i' k' p) :
    i = i' ∧ k = k' :=
  h.entry_inj hfresh he.slab he'.slab he.entry he'.entry (he.addr.trans he'.addr.symm)

/-- `free` accepts the address of any entry, free or not. -/
theorem HeapLayout.free_entryAt (h : HeapLayout pmemAlloc s hp) (hfresh : FreshPages pmemAlloc s)
    (he : hp.EntryAt i k p) : free p hp = .ok (hp.setSlab i ((hp.slabs i).give k)) := by
  rw [← he.addr]
  exact h.free_ok hfresh he.slab he.entry

theorem HeapLayout.rejects_iff (h : HeapLayout pmemAlloc s hp) (hfresh : FreshPages pmemAlloc s)
    (p : UInt32) : RejectsUnallocated hp p ↔ ¬ FreeEntryAt hp p := by
  constructor
  · rintro ⟨hreturns, -⟩ ⟨i, k, he, hfree⟩
    obtain ⟨i', k', he', hused, -⟩ := hreturns _ (h.free_entryAt hfresh he)
    obtain ⟨rfl, rfl⟩ := h.entryAt_unique hfresh he he'
    exact hfree hused
  · intro hno
    have hused : ∀ i k, hp.EntryAt i k p → hp.Used i k :=
      fun i k he => by_contra fun hfree => hno ⟨i, k, he, hfree⟩
    constructor
    · intro hp' hok
      obtain ⟨i, k, hi, hk, haddr, rfl⟩ := free_cases hok
      exact ⟨i, k, ⟨hi, hk, haddr⟩, hused i k ⟨hi, hk, haddr⟩, rfl⟩
    · intro hnone
      refine ⟨_, free_panics ?_⟩
      rintro ⟨i, k, he⟩
      exact hnone ⟨i, k, he, hused i k he⟩

/-- **What `free` rejects.** After any calls of `malloc` and `free` that returned, `free`
is right about a pointer exactly when that is not the address of a free entry. -/
theorem heap_free_iff {tr : List (Heap σ × HeapOp)} (hfresh : FreshPages pmemAlloc s)
    (htr : Trace (HeapCall pmemAlloc) (Heap.boot s) tr hp) (p : UInt32) :
    RejectsUnallocated hp p ↔ ¬ FreeEntryAt hp p :=
  (heap_call_layout hfresh htr).rejects_iff hfresh p

theorem heap_free_iff_one : ∃ hp : Heap Nat,
    malloc pagesUpward 2048 (Heap.boot 1) = .ok (6144, hp) ∧ RejectsUnallocated hp 6144 := by
  obtain ⟨hp, hm, hused⟩ : ∃ hp : Heap Nat,
      malloc pagesUpward 2048 (Heap.boot 1) = .ok (6144, hp) ∧
      ∀ i < slabCount, ∀ k < (hp.slabs i).maxEntries,
        ((hp.slabs i).entries k).memAddr = 6144 → ((hp.slabs i).entries k).memFree = 0 :=
    ⟨_, rfl, by decide⟩
  refine ⟨hp, hm,
    (heap_free_iff (pagesUpward_fresh 1) (Trace.start.next (.malloc hm)) 6144).mpr ?_⟩
  rintro ⟨i, k, ⟨hi, hk, haddr⟩, hfree⟩
  exact hfree (hused i hi k hk haddr)

/-- A block is freed twice, and nothing is reported. -/
theorem heap_double_free : ∃ hp hp' hp'' : Heap Nat,
    malloc pagesUpward 2048 (Heap.boot 1) = .ok (6144, hp) ∧
    free 6144 hp = .ok hp' ∧ free 6144 hp' = .ok hp'' ∧
    Trace (HeapCall pagesUpward) (Heap.boot 1)
      [(Heap.boot 1, .malloc 2048), (hp, .free 6144)] hp' ∧
    FreeEntryAt hp' 6144 ∧ ¬ RejectsUnallocated hp' 6144 := by
  obtain ⟨hp, hp', hp'', hm, hf, hf', hentry, hfree⟩ : ∃ hp hp' hp'' : Heap Nat,
      malloc pagesUpward 2048 (Heap.boot 1) = .ok (6144, hp) ∧
      free 6144 hp = .ok hp' ∧ free 6144 hp' = .ok hp'' ∧
      hp'.EntryAt 1 0 6144 ∧ ((hp'.slabs 1).entries 0).memFree = 1 :=
    ⟨_, _, _, rfl, rfl, rfl, ⟨by decide, Nat.zero_lt_two, rfl⟩, rfl⟩
  have htr := (Trace.start.next (HeapCall.malloc hm)).next (.free hf)
  have hat : FreeEntryAt hp' 6144 := by
    refine ⟨1, 0, hentry, ?_⟩
    unfold Heap.Used
    rw [hfree]
    decide
  refine ⟨hp, hp', hp'', hm, hf, hf', htr, hat, ?_⟩
  intro hrejects
  have hfresh := pagesUpward_fresh 1
  exact ((heap_call_layout hfresh htr).rejects_iff hfresh 6144).mp hrejects hat

end KoizOs
