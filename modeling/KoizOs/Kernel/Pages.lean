import KoizOs.Kernel.Service

/-!
# Who stores into which page

The disk, the standard input and the processes have pages of the pool, and all of them share one
memory with its records.  What is to be kept is a set `G` of pages.

| store | where |
|-------|-------|
| `pmem_alloc` | a record |
| a key | the page of the standard input |
| `write` | blocks of the disk |
| `execbg` | the page of the new process |
| `read` | the page *behind* a page of the largest slab |

An entry of the largest slab is a whole page too far, so a `read` reaches a page that was given
to somebody else (`Kernel.Clear` says of which pages this is not so).
-/

namespace KoizOs

open Function Lib

variable {pm pm' : Pmem} {m m' m'' : Mem} {p q : UInt32} {rd rd' : Ramdisk} {n o : Nat} {v : UInt8}
  {data : Buffer}

/-! ## Pages -/

/-- The page `q` holds the same bytes. -/
def Mem.SamePage (m m' : Mem) (q : UInt32) : Prop :=
  ∀ o, o < 4096 → m' (q + UInt32.ofNat o) = m (q + UInt32.ofNat o)

/-- No byte changed that is not on the page `p`. -/
def Mem.SameOutside (m m' : Mem) (p : UInt32) : Prop :=
  ∀ x, (∀ o, o < 4096 → x ≠ p + UInt32.ofNat o) → m' x = m x

theorem Mem.SamePage.refl (m : Mem) (q : UInt32) : m.SamePage m q := fun _ _ => rfl

theorem Mem.SamePage.trans (h : Mem.SamePage m m' q) (h' : Mem.SamePage m' m'' q) :
    Mem.SamePage m m'' q :=
  fun o ho => (h' o ho).trans (h o ho)

theorem Mem.SameOutside.samePage (h : Mem.SameOutside m m' p) (hp : PageAligned p)
    (hq : PageAligned q) (hne : q ≠ p) : Mem.SamePage m m' q := by
  intro o ho
  apply h
  intro i hi heq
  exact hne ((page_add_inj hq hp ho hi).mp heq).1

theorem update_sameOutside (m : Mem) (p : UInt32) (ho : o < 4096) (v : UInt8) :
    Mem.SameOutside m (update m (p + UInt32.ofNat o) v) p :=
  fun _ hx => update_of_ne (hx o ho) _ _

theorem storeBytes_sameOutside (m : Mem) (p : UInt32) (hn : n ≤ 4096) (data : Buffer) :
    Mem.SameOutside m (m.storeBytes p n data) p :=
  fun _ hx => Mem.storeBytes_of_ne (by omega) fun i hi => hx i (by omega)

/-! ## The pool -/

namespace Pmem

/-- The records lie before the pages, and behind the last page there is room for one more. -/
structure Sound (pm : Pmem) : Prop where
  initialised : pm.Initialised
  apart : pm.Apart
  top : pm.pmemAllocStart.toNat + 4096 * pm.pmemMgrReservedSize.toNat < 2 ^ 32

/-- The same pool, with all that was allocated. -/
structure Grows (pm pm' : Pmem) : Prop where
  layout : pm.SameLayout pm'
  initialised : pm'.Initialised
  allocated : ∀ q, pm.Allocated q → pm'.Allocated q

theorem Grows.refl (h : pm.Initialised) : pm.Grows pm := ⟨.refl pm, h, fun _ hq => hq⟩

theorem Grows.trans {pm₁ : Pmem} (h : pm.Grows pm₁) (h' : pm₁.Grows pm') : pm.Grows pm' :=
  ⟨h.layout.trans h'.layout, h'.initialised, fun q hq => h'.allocated q (h.allocated q hq)⟩

theorem Sound.grows (h : pm.Sound) (hg : pm.Grows pm') : pm'.Sound where
  initialised := hg.initialised
  apart := h.apart.congr hg.layout
  top := by
    rw [hg.layout.allocStart, hg.layout.size]
    exact h.top

/-- A page of the pool, or the one behind a page of the pool. -/
def InRoom (pm : Pmem) (p : UInt32) : Prop :=
  ∃ i, i ≤ pm.pmemMgrReservedSize.toNat ∧ p.toNat = pm.pmemAllocStart.toNat + 4096 * i

theorem Sound.inRoom_of_allocated (h : pm.Sound) (hp : pm.Allocated p) : pm.InRoom p := by
  obtain ⟨e, he, rfl, -⟩ := hp
  exact ⟨e.toNat, Nat.le_of_lt (UInt32.lt_iff_toNat_lt.mp he), h.apart.pageAddr_toNat he⟩

theorem Sound.inRoom_behind (h : pm.Sound) (hp : pm.Allocated p) : pm.InRoom (p + 4096) := by
  obtain ⟨e, he, rfl, -⟩ := hp
  have hlt := UInt32.lt_iff_toNat_lt.mp he
  have htop := h.top
  refine ⟨e.toNat + 1, hlt, ?_⟩
  rw [UInt32.toNat_add, h.apart.pageAddr_toNat he, show (4096 : UInt32).toNat = 4096 from rfl]
  omega

theorem Sound.aligned (h : pm.Sound) (hp : pm.InRoom p) : PageAligned p := by
  obtain ⟨i, -, heq⟩ := hp
  have hal : pm.pmemAllocStart.toNat % 4096 = 0 := h.apart.aligned
  show p.toNat % 4096 = 0
  omega

theorem Sound.allocated_aligned (h : pm.Sound) (hp : pm.Allocated p) : PageAligned p :=
  h.aligned (h.inRoom_of_allocated hp)

theorem Sound.allocated_ne_zero (h : pm.Sound) (hp : pm.Allocated p) : p ≠ 0 := by
  obtain ⟨e, he, rfl, -⟩ := hp
  exact h.apart.pageAddr_ne_zero he

/-- The records come before all of that. -/
theorem Sound.recordPtr_ne (h : pm.Sound) {f : UInt32} (hf : f < pm.pmemMgrReservedSize)
    (hp : pm.InRoom p) (ho : o < 4096) : pm.recordPtr f ≠ p + UInt32.ofNat o := by
  intro heq
  have htoNat := page_add_toNat (h.aligned hp) ho
  obtain ⟨i, -, hi⟩ := hp
  have hbefore := h.apart.before
  have hf := UInt32.lt_iff_toNat_lt.mp hf
  rw [← heq, Pmem.recordPtr, UInt32.toNat_add] at htoNat
  omega

/-- Stores that leave the records alone. -/
theorem Sound.grows_of_records (h : pm.Sound)
    (hm : ∀ f, f < pm.pmemMgrReservedSize → m (pm.recordPtr f) = pm.mem (pm.recordPtr f)) :
    pm.Grows { pm with mem := m } where
  layout := .store pm m
  initialised := h.initialised.store m
  allocated q hq := (allocated_store hm q).mpr hq

theorem Sound.grows_of_store (h : pm.Sound) (hp : pm.InRoom p)
    (hm : Mem.SameOutside pm.mem m p) : pm.Grows { pm with mem := m } :=
  h.grows_of_records fun _ hf => hm _ fun _ ho => h.recordPtr_ne hf hp ho

theorem Sound.alloc (h : pm.Sound) (ha : pmemAlloc pm = .ok (p, pm')) :
    pm.Grows pm' ∧ pm'.Allocated p ∧ ¬ pm.Allocated p ∧
      ∀ q, pm.Allocated q → Mem.SamePage pm.mem pm'.mem q := by
  obtain ⟨hi, hnew, hall⟩ := pmemAlloc_allocated h.initialised ha
  obtain ⟨e, -, -, htaken, hmem⟩ := (Taken.start h.initialised).alloc ha
  refine ⟨⟨htaken.layout, hi, fun q hq => (hall q).mpr (.inl hq)⟩, (hall p).mpr (.inr rfl),
    hnew, ?_⟩
  intro q hq o ho
  apply hmem
  exact (h.recordPtr_ne (htaken.free e (List.mem_singleton_self e)).1
    (h.inRoom_of_allocated hq) ho).symm

end Pmem

/-! ## The disk -/

namespace Ramdisk

/-- The pages of a disk of `b` blocks. -/
def Uses (rd : Ramdisk) (b : Nat) (q : UInt32) : Prop :=
  q = rd.ramdiskBlockPointers ∨ ∃ i, i < b ∧ q = rd.blockPointer (UInt32.ofNat i)

variable {b : Nat}

theorem sameDisk_of_pages (hsize : rd'.ramdiskBlockSize = rd.ramdiskBlockSize)
    (hpointers : rd'.ramdiskBlockPointers = rd.ramdiskBlockPointers)
    (hpages : ∀ q, rd.Uses b q → Mem.SamePage rd.mem rd'.mem q) : SameDisk b rd rd' where
  size := hsize
  pointers := hpointers
  table o ho := hpages _ (.inl rfl) o ho
  block a ha := hpages _ (.inr ⟨a / 4096, by omega, rfl⟩) (a % 4096) (by omega)

/-- The table tells which pages are the disk's. -/
theorem Valid.uses_congr (h : rd.Valid b)
    (hpointers : rd'.ramdiskBlockPointers = rd.ramdiskBlockPointers)
    (htable : ∀ o, o < 4096 → rd'.mem (rd.ramdiskBlockPointers + UInt32.ofNat o) =
      rd.mem (rd.ramdiskBlockPointers + UInt32.ofNat o)) : rd'.Uses b q ↔ rd.Uses b q := by
  have hle := h.le
  have hblock : ∀ i, i < b → rd'.blockPointer (UInt32.ofNat i) = rd.blockPointer (UInt32.ofNat i) :=
    fun i hi => blockPointer_congr (by omega) hpointers htable
  unfold Uses
  rw [hpointers]
  constructor
  · rintro (hq | ⟨i, hi, rfl⟩)
    · exact .inl hq
    · exact .inr ⟨i, hi, hblock i hi⟩
  · rintro (hq | ⟨i, hi, rfl⟩)
    · exact .inl hq
    · exact .inr ⟨i, hi, (hblock i hi).symm⟩

theorem Valid.addr_ne (h : rd.Valid b) (hq : PageAligned q) (hoff : ¬ rd.Uses b q) {a : Nat}
    (ha : a < b * 4096) (ho : o < 4096) : rd.addr a ≠ q + UInt32.ofNat o := by
  have hi : a / 4096 < b := by omega
  intro heq
  rw [addr, page_add_inj (h.block _ hi) hq (by omega) ho] at heq
  exact hoff (.inr ⟨a / 4096, hi, heq.1.symm⟩)

/-- A page that is not the disk's. -/
theorem Valid.off (h : rd.Valid b) (hq : PageAligned q) (hoff : ¬ rd.Uses b q) :
    rd.Off b q 4096 where
  block _ ho _ ha := h.addr_ne hq hoff ha ho
  table i hi o ho heq := by
    rw [page_add_inj h.table hq ho hi] at heq
    exact hoff (.inl heq.1.symm)

theorem Frame.samePage (h : Frame b rd rd') (hv : rd.Valid b) (hq : PageAligned q)
    (hoff : ¬ rd.Uses b q) : Mem.SamePage rd.mem rd'.mem q :=
  fun _ ho => h.mem _ fun _ ha => (hv.addr_ne hq hoff ha ho).symm

/-- What changes bytes of the disk leaves the records of the pool. -/
theorem Frame.records (h : Frame b rd rd') (hs : pm.Sound) (hmem : rd.mem = pm.mem)
    (hpages : ∀ q, rd.Uses b q → pm.Allocated q) {f : UInt32} (hf : f < pm.pmemMgrReservedSize) :
    rd'.mem (pm.recordPtr f) = pm.mem (pm.recordPtr f) := by
  rw [← hmem]
  apply h.mem
  intro a ha
  rw [addr]
  exact hs.recordPtr_ne hf (hs.inRoom_of_allocated (hpages _ (.inr ⟨a / 4096, by omega, rfl⟩)))
    (by omega)

theorem Frame.grows (h : Frame b rd rd') (hs : pm.Sound) (hmem : rd.mem = pm.mem)
    (hpages : ∀ q, rd.Uses b q → pm.Allocated q) : pm.Grows { pm with mem := rd'.mem } :=
  hs.grows_of_records fun _ hf => h.records hs hmem hpages hf

end Ramdisk

end KoizOs
