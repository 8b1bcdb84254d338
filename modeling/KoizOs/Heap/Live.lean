import KoizOs.Heap.Free
import Mathlib.Data.Set.Insert

/-!
# The live blocks as a set

`malloc` adds one address to the live blocks, `free` takes one away.  A slab with a free
entry serves a request.
-/

namespace KoizOs

open Function Lib

variable {σ : Type}

/-- The addresses of the entries that are handed out. -/
def Heap.live (hp : Heap σ) : Set UInt32 := {p | ∃ i k, hp.EntryAt i k p ∧ hp.Used i k}

/-- `malloc` has memory for a request of `size` bytes. -/
def Heap.CanMalloc (pmemAlloc : σ → Kern (UInt32 × σ)) (size : UInt32) (hp : Heap σ) : Prop :=
  ∃ p hp', malloc pmemAlloc size hp = .ok (p, hp')

variable {pmemAlloc : σ → Kern (UInt32 × σ)} {s : σ} {hp hp' : Heap σ} {i j k m : Nat} {p : UInt32}
  {S : Kmemslab}

/-- What `take` and `give` leave alone. -/
theorem entryAt_setSlab (hmax : S.maxEntries = (hp.slabs i).maxEntries)
    (haddr : ∀ m, (S.entries m).memAddr = ((hp.slabs i).entries m).memAddr) :
    (hp.setSlab i S).EntryAt j m p ↔ hp.EntryAt j m p := by
  have hmax' : ((hp.setSlab i S).slabs j).maxEntries = (hp.slabs j).maxEntries :=
    setSlab_congr Kmemslab.maxEntries hmax j
  have haddr' : (((hp.setSlab i S).slabs j).entries m).memAddr =
      ((hp.slabs j).entries m).memAddr :=
    setSlab_congr (fun S => (S.entries m).memAddr) (haddr m) j
  constructor
  · rintro ⟨hj, hm, hp⟩
    exact ⟨hj, hmax' ▸ hm, haddr'.symm.trans hp⟩
  · rintro ⟨hj, hm, hp⟩
    exact ⟨hj, hmax'.symm ▸ hm, haddr'.trans hp⟩

theorem used_take : (hp.setSlab i ((hp.slabs i).take k)).Used j m ↔
    (j = i ∧ m = k) ∨ hp.Used j m := by
  unfold Heap.Used
  by_cases hj : j = i
  · subst hj
    rw [setSlab_self, take_memFree]
    by_cases hm : m = k
    · simp [hm]
    · simp [hm]
  · rw [setSlab_of_ne hj]
    simp [hj]

theorem used_give : (hp.setSlab i ((hp.slabs i).give k)).Used j m ↔
    ¬ (j = i ∧ m = k) ∧ hp.Used j m := by
  unfold Heap.Used
  by_cases hj : j = i
  · subst hj
    rw [setSlab_self, give_memFree]
    by_cases hm : m = k
    · simp [hm]
    · simp [hm]
  · rw [setSlab_of_ne hj]
    simp [hj]

/-- A page adds entries that are free. -/
theorem live_entry_grow {n : Nat} {q : UInt32} {t : σ} :
    (hp.grow i n q t).EntryAt j m p ∧ (hp.grow i n q t).Used j m ↔
      hp.EntryAt j m p ∧ hp.Used j m := by
  by_cases hj : j = i
  · subst hj
    by_cases hnew : (hp.slabs j).maxEntries ≤ m ∧ m < (hp.slabs j).maxEntries + n
    · have hentry : (((hp.slabs j).grow j n q).entries m).memFree = 1 :=
        congrArg KmemslabEntry.memFree (if_pos hnew)
      refine iff_of_false ?_ fun hat => Nat.not_lt.mpr hnew.1 hat.1.entry
      rintro ⟨-, hused⟩
      rw [Heap.Used, grow_self, hentry] at hused
      exact absurd hused (by decide)
    · have hentry : ((hp.slabs j).grow j n q).entries m = (hp.slabs j).entries m := if_neg hnew
      have hmax : m < ((hp.slabs j).grow j n q).maxEntries ↔ m < (hp.slabs j).maxEntries := by
        show m < (hp.slabs j).maxEntries + n ↔ _
        omega
      unfold Heap.Used
      rw [grow_self, hentry]
      refine and_congr_left' ⟨?_, ?_⟩
      · rintro ⟨hj, hm, haddr⟩
        rw [grow_self] at hm haddr
        exact ⟨hj, hmax.mp hm, hentry ▸ haddr⟩
      · rintro ⟨hj, hm, haddr⟩
        refine ⟨hj, ?_, ?_⟩
        · rw [grow_self]
          exact hmax.mpr hm
        · rw [grow_self, hentry]
          exact haddr
  · have hsame : (hp.grow i n q t).slabs j = hp.slabs j := setSlab_of_ne hj
    unfold Heap.Used
    rw [hsame]
    refine and_congr_left' ⟨?_, ?_⟩
    · rintro ⟨hj, hm, haddr⟩
      exact ⟨hj, hsame ▸ hm, hsame ▸ haddr⟩
    · rintro ⟨hj, hm, haddr⟩
      exact ⟨hj, hsame.symm ▸ hm, hsame.symm ▸ haddr⟩

theorem MakesRoom.live_eq {hp₁ : Heap σ} (hroom : MakesRoom pmemAlloc i hp hp₁) :
    hp₁.live = hp.live := by
  cases hroom with
  | had _ => rfl
  | page _ _ _ _ =>
    unfold Heap.live
    simp only [live_entry_grow]

namespace HeapLayout

/-- A free entry is no live block, and becomes one. -/
theorem take_live (h : HeapLayout pmemAlloc s hp) (hfresh : FreshPages pmemAlloc s)
    (he : hp.EntryAt i k p) (hfree : ¬ hp.Used i k) :
    (hp.setSlab i ((hp.slabs i).take k)).live = insert p hp.live ∧ p ∉ hp.live := by
  constructor
  · ext a
    unfold Heap.live
    simp only [Set.mem_ofPred_eq, Set.mem_insert_iff, used_take,
      entryAt_setSlab (S := (hp.slabs i).take k) rfl (take_memAddr (hp.slabs i) k)]
    constructor
    · rintro ⟨j, m, hat, ⟨rfl, rfl⟩ | hused⟩
      · exact .inl (hat.addr.symm.trans he.addr)
      · exact .inr ⟨j, m, hat, hused⟩
    · rintro (rfl | ⟨j, m, hat, hused⟩)
      · exact ⟨i, k, he, .inl ⟨rfl, rfl⟩⟩
      · exact ⟨j, m, hat, .inr hused⟩
  · rintro ⟨j, m, hat, hused⟩
    obtain ⟨rfl, rfl⟩ := h.entryAt_unique hfresh hat he
    exact hfree hused

theorem give_live (h : HeapLayout pmemAlloc s hp) (hfresh : FreshPages pmemAlloc s)
    (he : hp.EntryAt i k p) : (hp.setSlab i ((hp.slabs i).give k)).live = hp.live \ {p} := by
  ext a
  unfold Heap.live
  simp only [Set.mem_ofPred_eq, Set.mem_sdiff, Set.mem_singleton_iff, used_give,
    entryAt_setSlab (S := (hp.slabs i).give k) rfl (give_memAddr (hp.slabs i) k)]
  constructor
  · rintro ⟨j, m, hat, hother, hused⟩
    refine ⟨⟨j, m, hat, hused⟩, ?_⟩
    rintro rfl
    exact hother (h.entryAt_unique hfresh hat he)
  · rintro ⟨⟨j, m, hat, hused⟩, hne⟩
    refine ⟨j, m, hat, ?_, hused⟩
    rintro ⟨rfl, rfl⟩
    exact hne (hat.addr.symm.trans he.addr)

/-- **A block from `malloc`** is at the address of an entry that was not live. -/
theorem malloc_live {size : UInt32} (h : HeapLayout pmemAlloc s hp)
    (hfresh : FreshPages pmemAlloc s) (hm : malloc pmemAlloc size hp = .ok (p, hp')) :
    HeapLayout pmemAlloc s hp' ∧ hp'.live = insert p hp.live ∧ p ∉ hp.live ∧
      ∃ i k, mallocClass size = some (i, slabSize i) ∧ hp'.EntryAt i k p := by
  obtain ⟨i, hp₁, k, hclass, hi, hroom, hnext, rfl, rfl⟩ := malloc_cases h hm
  have h₁ := h.makesRoom hfresh hroom
  have he : hp₁.EntryAt i k ((hp₁.slabs i).entries k).memAddr := ⟨hi, hnext.lt, rfl⟩
  have htake := h₁.take_live hfresh he hnext.free
  rw [hroom.live_eq] at htake
  have hl := h₁.setSlab ((h₁.slab i hi).take hnext.lt hnext.free) rfl rfl
  refine ⟨hl, htake.1, htake.2, i, k, hclass, ?_⟩
  exact (entryAt_setSlab (S := (hp₁.slabs i).take k) rfl (take_memAddr (hp₁.slabs i) k)).mpr he

/-- A slab with a free entry serves its requests. -/
theorem canMalloc {size : UInt32} (h : HeapLayout pmemAlloc s hp)
    (hclass : mallocClass size = some (i, slabSize i)) (hk : k < (hp.slabs i).maxEntries)
    (hfree : ¬ hp.Used i k) : hp.CanMalloc pmemAlloc size := by
  obtain ⟨hi, -, -⟩ := mallocClass_spec hclass
  have hslab := h.slab i hi
  have hpos : 0 < (hp.slabs i).freeEntries :=
    Nat.lt_of_lt_of_le (Finset.card_pos.mpr ⟨k, mem_freeSet.mpr ⟨hk, hfree⟩⟩) hslab.free_le
  have hcur : (hp.slabs i).currentEntry < (hp.slabs i).maxEntries := by
    rcases hslab.current with hcur | ⟨-, h0, -⟩
    · exact hcur
    · omega
  obtain ⟨e, he, rfl⟩ := exists_round hcur hk
  obtain ⟨m, hm⟩ := mallocLoop_ok (d := 0) hcur he (Nat.zero_le e)
    (show e < 0 + ((hp.slabs i).maxEntries + 1) by omega) hfree
  have hstart : ((hp.slabs i).currentEntry + 0) % (hp.slabs i).maxEntries =
      (hp.slabs i).currentEntry := Nat.mod_eq_of_lt hcur
  rw [hstart] at hm
  have halloc : allocNewPageIfNeeded pmemAlloc (slabSize i) (hp.slabs i) hp.pmem =
      .ok (hp.slabs i, hp.pmem) := if_pos hpos
  refine ⟨((hp.slabs i).entries m).memAddr, hp.setSlab i ((hp.slabs i).take m), ?_⟩
  simp only [malloc, hclass, halloc, ok_bind]
  rw [if_neg (Nat.not_le.mpr hpos), hm]
  rfl

end HeapLayout

end KoizOs
