import KoizOs.Kernel.Pages

/-!
# Pages that are kept

`Housed G k`: the pages of `G`, the disk's among them, are allocated, and the standard input has
another one.  `Kept G k k'`: that still holds of `k'`, and the pages of `G` hold the same bytes.
There is a lemma for each thing the kernel does with memory.
-/

namespace KoizOs

open Function Lib

/-! ## The largest slab -/

section Largest

variable {σ : Type} {pmemAlloc : σ → Kern (UInt32 × σ)} {p : UInt32} {H H' : Heap σ}
  {S : Kmemslab} {k : Nat}

/-- Its entries are a page long, and a page behind the page they were made from. -/
theorem SlabOk.memAddr_largest (h : SlabOk 0 S) (hk : k < S.maxEntries) :
    k < S.currentPage ∧ (S.entries k).memAddr = S.pages k + 4096 := by
  have hone : perPage 0 = 1 := rfl
  have hpage := h.page_lt hk
  have haddr := h.memAddr_eq k hk
  rw [hone, Nat.div_one] at hpage haddr
  rw [Nat.mod_one] at haddr
  exact ⟨hpage, haddr⟩

/-- A block of it: the page that the slab took, if it took one, and the page behind one of its
pages. -/
theorem malloc_largest (hS : SlabOk 0 (H.slabs 0))
    (h : malloc pmemAlloc 4096 H = .ok (p, H')) :
    SlabOk 0 (H'.slabs 0) ∧
      (∃ j, j < (H'.slabs 0).currentPage ∧ p = (H'.slabs 0).pages j + 4096) ∧
      ((H'.pmem = H.pmem ∧ (H'.slabs 0).currentPage = (H.slabs 0).currentPage ∧
          (H'.slabs 0).pages = (H.slabs 0).pages) ∨
        ∃ q, pmemAlloc H.pmem = .ok (q, H'.pmem) ∧
          (H'.slabs 0).currentPage = (H.slabs 0).currentPage + 1 ∧
          (H'.slabs 0).pages = update (H.slabs 0).pages (H.slabs 0).currentPage q) := by
  have hclass : mallocClass 4096 = some (0, slabSize 0) := by decide
  unfold malloc at h
  rw [hclass] at h
  obtain ⟨⟨S, t⟩, halloc, h⟩ := bind_eq_ok.mp h
  dsimp only at h
  split at h
  · exact absurd h (panic_ne_ok _ _)
  · next hfree =>
    obtain ⟨k, hloop, h⟩ := bind_eq_ok.mp h
    obtain ⟨rfl, rfl⟩ := Prod.mk.inj (Except.ok.inj h)
    dsimp only
    rw [update_self]
    have hblock : SlabOk 0 S → SlabOk 0 (S.take k) ∧
        ∃ j, j < (S.take k).currentPage ∧ (S.entries k).memAddr = (S.take k).pages j + 4096 := by
      intro hS'
      have hcur := hS'.current.resolve_right fun h => hfree (Nat.le_of_eq h.2.2)
      have hnext : NextFree S k := by
        refine mallocLoop_spec (n := S.maxEntries + 1) (d := 0) hcur (by omega)
          (fun e he => absurd he (Nat.not_lt_zero e)) ?_
        show mallocLoop S (S.maxEntries + 1) (S.currentEntry % S.maxEntries) = .ok k
        rw [Nat.mod_eq_of_lt hcur]
        exact hloop
      exact ⟨hS'.take hnext.lt hnext.free, k, hS'.memAddr_largest hnext.lt⟩
    rcases allocNewPageIfNeeded_cases (by decide) hS halloc with ⟨-, rfl, rfl⟩ |
      ⟨h0, hlt, hpage, q, hq, rfl⟩
    · obtain ⟨hok, hbehind⟩ := hblock hS
      exact ⟨hok, hbehind, .inl ⟨rfl, rfl, rfl⟩⟩
    · obtain ⟨hok, hbehind⟩ := hblock (hS.grow h0 hlt hpage q rfl)
      exact ⟨hok, hbehind, .inr ⟨q, hq, rfl, rfl⟩⟩

theorem free_largest (hS : SlabOk 0 (H.slabs 0)) (h : free p H = .ok H') :
    SlabOk 0 (H'.slabs 0) ∧ H'.pmem = H.pmem ∧
      (H'.slabs 0).currentPage = (H.slabs 0).currentPage ∧
      (H'.slabs 0).pages = (H.slabs 0).pages := by
  obtain ⟨i, k, -, hk, -, rfl⟩ := free_cases h
  by_cases hi : i = 0
  · subst hi
    rw [setSlab_self]
    exact ⟨hS.give hk, rfl, rfl, rfl⟩
  · rw [setSlab_of_ne (Ne.symm hi)]
    exact ⟨hS, rfl, rfl, rfl⟩

end Largest

namespace Kernel

variable {k k' k₁ : Kernel} {p q : UInt32} {pm : Pmem} {m : Mem} {G : UInt32 → Prop}

/-- The pages of `G`, the disk's among them, and the standard input's. -/
structure Housed (G : UInt32 → Prop) (k : Kernel) : Prop where
  sound : k.pmem.Sound
  guarded : ∀ q, G q → k.pmem.Allocated q
  input : k.stdin.isInit = true → k.pmem.Allocated k.stdin.bAddr ∧ ¬ G k.stdin.bAddr
  slab : SlabOk 0 (k.slabs 0)
  pages : ∀ j, j < (k.slabs 0).currentPage → k.pmem.Allocated ((k.slabs 0).pages j)
  disk : FatOk k.rd
  uses : ∀ q, k.rd.Uses 1024 q → G q

/-- No page of the largest slab is right before a page of `G`. -/
def Clear (G : UInt32 → Prop) (k : Kernel) : Prop :=
  ∀ j, j < (k.slabs 0).currentPage → ¬ G ((k.slabs 0).pages j + 4096)

/-- `k'` is housed too, and holds the same bytes on the pages of `G`. -/
structure Kept (G : UInt32 → Prop) (k k' : Kernel) : Prop where
  housed : k'.Housed G
  grows : k.pmem.Grows k'.pmem
  same : ∀ q, G q → Mem.SamePage k.pmem.mem k'.pmem.mem q
  size : k'.ramdiskBlockSize = k.ramdiskBlockSize
  pointers : k'.ramdiskBlockPointers = k.ramdiskBlockPointers

namespace Kept

theorem trans (h : Kept G k k₁) (h' : Kept G k₁ k') : Kept G k k' where
  housed := h'.housed
  grows := h.grows.trans h'.grows
  same q hq := (h.same q hq).trans (h'.same q hq)
  size := h'.size.trans h.size
  pointers := h'.pointers.trans h.pointers

theorem refl (h : k.Housed G) : Kept G k k where
  housed := h
  grows := .refl h.sound.initialised
  same q _ := .refl _ q
  size := rfl
  pointers := rfl

end Kept

namespace Housed

theorem aligned (h : k.Housed G) (hq : G q) : PageAligned q :=
  h.sound.allocated_aligned (h.guarded q hq)

/-- A disk whose pages hold the same bytes. -/
theorem fatOk_congr (h : k.Housed G) (hsize : k'.ramdiskBlockSize = k.ramdiskBlockSize)
    (hpointers : k'.ramdiskBlockPointers = k.ramdiskBlockPointers)
    (hsame : ∀ q, G q → Mem.SamePage k.pmem.mem k'.pmem.mem q) :
    FatOk k'.rd ∧ k'.rd.image = k.rd.image ∧
      ∀ q, k'.rd.Uses 1024 q ↔ k.rd.Uses 1024 q := by
  have hdisk : Ramdisk.SameDisk 1024 k.rd k'.rd :=
    Ramdisk.sameDisk_of_pages hsize hpointers fun q hq => hsame q (h.uses q hq)
  have himage := hdisk.image_eq h.disk.valid
  refine ⟨⟨hdisk.valid h.disk.valid, ?_⟩, himage, fun q => ?_⟩
  · rw [himage]
    exact h.disk.inv
  · exact h.disk.valid.uses_congr hdisk.pointers hdisk.table

/-- What is not in memory. -/
theorem kept_of_eq (h : k.Housed G) (hpmem : k'.pmem = k.pmem) (hstdin : k'.stdin = k.stdin)
    (hslabs : k'.slabs = k.slabs) (hsize : k'.ramdiskBlockSize = k.ramdiskBlockSize)
    (hpointers : k'.ramdiskBlockPointers = k.ramdiskBlockPointers) : Kept G k k' := by
  obtain ⟨pmem, stdin, shell, slabs, size, pointers, processes, sched, count, out⟩ := k'
  subst hpmem hstdin hslabs hsize hpointers
  exact ⟨⟨h.sound, h.guarded, h.input, h.slab, h.pages, h.disk, h.uses⟩,
    .refl h.sound.initialised, fun q _ => .refl _ q, rfl, rfl⟩

theorem kept_printed (h : k.Housed G) (hprint : k.Printed k') : Kept G k k' := by
  rw [hprint]
  exact h.kept_of_eq rfl rfl rfl rfl rfl

theorem kept_alloc (h : k.Housed G) (ha : pmemAlloc k.pmem = .ok (p, pm)) :
    Kept G k { k with pmem := pm } ∧ pm.Allocated p ∧ ¬ G p := by
  obtain ⟨hgrows, hp, hnew, hsame⟩ := h.sound.alloc ha
  have hsame' : ∀ q, G q → Mem.SamePage k.pmem.mem pm.mem q :=
    fun q hq => hsame q (h.guarded q hq)
  obtain ⟨hdisk, -, huses⟩ := @fatOk_congr k { k with pmem := pm } G h rfl rfl hsame'
  refine ⟨⟨⟨h.sound.grows hgrows, ?_, ?_, h.slab, ?_, hdisk, ?_⟩, hgrows, hsame', rfl, rfl⟩, hp,
    fun hG => hnew (h.guarded p hG)⟩
  · exact fun q hq => hgrows.allocated q (h.guarded q hq)
  · exact fun hinit => ⟨hgrows.allocated _ (h.input hinit).1, (h.input hinit).2⟩
  · exact fun j hj => hgrows.allocated _ (h.pages j hj)
  · exact fun q hq => h.uses q ((huses q).mp hq)

/-- Stores on a page that is not one of `G`. -/
theorem kept_store (h : k.Housed G) (hp : k.pmem.InRoom p) (hoff : ¬ G p)
    (hm : Mem.SameOutside k.pmem.mem m p) :
    Kept G k { k with pmem := { k.pmem with mem := m } } := by
  have hgrows := h.sound.grows_of_store hp hm
  have hsame : ∀ q, G q → Mem.SamePage k.pmem.mem m q := fun q hq =>
    hm.samePage (h.sound.aligned hp) (h.aligned hq) fun heq => hoff (heq ▸ hq)
  obtain ⟨hdisk, -, huses⟩ :=
    @fatOk_congr k { k with pmem := { k.pmem with mem := m } } G h rfl rfl hsame
  refine ⟨⟨h.sound.grows hgrows, ?_, ?_, h.slab, ?_, hdisk, ?_⟩, hgrows, hsame, rfl, rfl⟩
  · exact fun q hq => hgrows.allocated q (h.guarded q hq)
  · exact fun hinit => ⟨hgrows.allocated _ (h.input hinit).1, (h.input hinit).2⟩
  · exact fun j hj => hgrows.allocated _ (h.pages j hj)
  · exact fun q hq => h.uses q ((huses q).mp hq)

theorem kept_malloc {heap : Heap Pmem} (h : k.Housed G)
    (hmalloc : malloc pmemAlloc 4096 k.heap = .ok (p, heap)) :
    Kept G k (k.setHeap heap) ∧
      ∃ j, j < (heap.slabs 0).currentPage ∧ p = (heap.slabs 0).pages j + 4096 := by
  obtain ⟨hslab, hbehind, hpage⟩ := malloc_largest (H := k.heap) h.slab hmalloc
  refine ⟨?_, hbehind⟩
  have hgot : Kept G k { k with pmem := heap.pmem } ∧ ∀ j, j < (heap.slabs 0).currentPage →
      heap.pmem.Allocated ((heap.slabs 0).pages j) := by
    rcases hpage with ⟨hpmem, hcur, hpages⟩ | ⟨q, hq, hcur, hpages⟩
    · refine ⟨h.kept_of_eq hpmem rfl rfl rfl rfl, ?_⟩
      rw [hpmem, hcur, hpages]
      exact h.pages
    · obtain ⟨hkept, hnew, -⟩ := h.kept_alloc hq
      refine ⟨hkept, fun j hj => ?_⟩
      rw [hcur] at hj
      rw [hpages, show k.heap.slabs = k.slabs from rfl]
      by_cases hlast : j = (k.slabs 0).currentPage
      · rw [hlast, update_self]
        exact hnew
      · rw [update_of_ne hlast]
        exact hkept.housed.pages j (Nat.lt_of_le_of_ne (Nat.le_of_lt_succ hj) hlast)
  obtain ⟨hkept, hpages⟩ := hgot
  exact ⟨⟨hkept.housed.sound, hkept.housed.guarded, hkept.housed.input, hslab, hpages,
    hkept.housed.disk, hkept.housed.uses⟩, hkept.grows, hkept.same, rfl, rfl⟩

theorem kept_free {heap : Heap Pmem} (h : k.Housed G) (hfree : free p k.heap = .ok heap) :
    Kept G k (k.setHeap heap) ∧ (heap.slabs 0).currentPage = (k.slabs 0).currentPage ∧
      (heap.slabs 0).pages = (k.slabs 0).pages := by
  obtain ⟨hslab, hpmem, hcur, hpages⟩ := free_largest (H := k.heap) h.slab hfree
  refine ⟨?_, hcur, hpages⟩
  obtain ⟨slabs, pmem⟩ := heap
  obtain rfl : pmem = k.pmem := hpmem
  refine ⟨⟨h.sound, h.guarded, h.input, hslab, ?_, h.disk, h.uses⟩, .refl h.sound.initialised,
    fun q _ => .refl _ q, rfl, rfl⟩
  intro j hj
  show k.pmem.Allocated ((slabs 0).pages j)
  rw [show (slabs 0).pages = (k.slabs 0).pages from hpages]
  exact h.pages j (hcur ▸ hj)

end Housed

end Kernel

end KoizOs
