import KoizOs.Kernel.Frontier
import KoizOs.Memory.Vmem

/-!
# Paging in the memory of the pool

`vmem_init` once more, where the directory, the tables and the records of the pool share one
memory (`vmemInit_joined`: it does the same there).  The pages it takes are `Mem.Paging`; as long
as they hold the same bytes, every address is mapped to itself (`Pmem.Maps.translates`), which is
what lets all other parts of the kernel work on physical memory.
-/

namespace KoizOs

open Function Lib

/-! ## Algorithm -/

namespace Pmem

def vmemPtableNew (pm : Pmem) : Kern (UInt32 × Pmem) := do
  let (ptr, pm) ← pmemAlloc pm
  if ptr &&& 0xFFF ≠ 0 then panic "vmem_alloc_pmem: page directory needs to be 4096 aligned!"
  else if physBlockSize < 4 * 1024 then
    panic "vmem_alloc_pmem: physical block page size isn't large enough"
  else return (ptr, { pm with mem := tableFill ptr (fun _ => 0) 1024 0 pm.mem })

/-- The body of the loop. -/
def vmemInitTable (basePtr : UInt32) (i : Nat) (pm : Pmem) : Kern Pmem := do
  let (kernelPt, pm) ← vmemPtableNew pm
  let mem := pm.mem.store32 (basePtr + UInt32.ofNat (4 * i)) (kernelPt ||| 7)
  return { pm with mem := tableFill kernelPt (fun j => virtAddrEntry i j ||| 7) 1024 0 mem }

/-- `n` tables are left to make, the next is table `i`. -/
def vmemInitLoop (basePtr : UInt32) : (n i : Nat) → Pmem → Kern Pmem
  | 0, _, pm => .ok pm
  | n + 1, i, pm => do
    let pm ← vmemInitTable basePtr i pm
    vmemInitLoop basePtr n (i + 1) pm

/-- It returns `vmem_page_directory`. -/
def vmemInit (pm : Pmem) : Kern (UInt32 × Pmem) := do
  let (basePtr, pm) ← vmemPtableNew pm
  let pm ← vmemInitLoop basePtr 1024 0 pm
  return (basePtr, pm)

end Pmem

/-! ## Stores on a page -/

variable {pm pm' : Pmem} {m m' m'' : Mem} {p q d : UInt32} {c i j n k o : Nat} {f : Nat → UInt32}

theorem Mem.SameOutside.trans (h : Mem.SameOutside m m' p) (h' : Mem.SameOutside m' m'' p) :
    Mem.SameOutside m m'' p :=
  fun x hx => (h' x hx).trans (h x hx)

theorem store32_sameOutside (m : Mem) (p v : UInt32) (ho : o + 3 < 4096) :
    Mem.SameOutside m (m.store32 (p + UInt32.ofNat o) v) p :=
  fun _ hx => store32_of_ne fun c hc => hx (o + c) (by omega)

theorem tableFill_sameOutside (m : Mem) (p : UInt32) (f : Nat → UInt32) (hn : j + n ≤ 1024) :
    Mem.SameOutside m (tableFill p f n j m) p := by
  induction n generalizing j m with
  | zero => exact fun _ _ => rfl
  | succ n ih => exact (store32_sameOutside m p _ (by omega)).trans (ih _ (by omega))

theorem Mem.SamePage.load32 (h : Mem.SamePage m m' p) (hj : j < 1024) :
    m'.load32 (p + UInt32.ofNat (4 * j)) = m.load32 (p + UInt32.ofNat (4 * j)) :=
  load32_congr fun c hc => h (4 * j + c) (by omega)

/-! ## What is mapped -/

/-- The directory and the tables. -/
def Mem.Paging (m : Mem) (d q : UInt32) : Prop :=
  q = d ∨ ∃ i, i < 1024 ∧ q = m.load32 (d + UInt32.ofNat (4 * i)) &&& ~~~0xFFF

theorem Mem.SamePage.paging (h : Mem.SamePage m m' d) : m'.Paging d q ↔ m.Paging d q := by
  unfold Mem.Paging
  refine or_congr_right (exists_congr fun i => and_congr_right fun hi => ?_)
  rw [h.load32 hi]

namespace Pmem

/-- Table `i` is on an allocated page, and maps each of its pages to the page of the same
number. -/
def Maps (pm : Pmem) (d : UInt32) (i : Nat) : Prop :=
  ∃ p, pm.Allocated p ∧ p ≠ d ∧ pm.mem.load32 (d + UInt32.ofNat (4 * i)) = p ||| 7 ∧
    ∀ j, j < 1024 → pm.mem.load32 (p + UInt32.ofNat (4 * j)) = virtAddrEntry i j ||| 7

theorem Maps.grows (h : pm.Maps d i) (hg : pm.Grows pm')
    (hdir : pm'.mem.load32 (d + UInt32.ofNat (4 * i)) = pm.mem.load32 (d + UInt32.ofNat (4 * i)))
    (hsame : ∀ q, pm.Allocated q → q ≠ d → Mem.SamePage pm.mem pm'.mem q) : pm'.Maps d i := by
  obtain ⟨p, hp, hne, hentry, htable⟩ := h
  refine ⟨p, hg.allocated p hp, hne, hdir.trans hentry, fun j hj => ?_⟩
  rw [(hsame p hp hne).load32 hj]
  exact htable j hj

/-- The pages of the directory and the tables are allocated. -/
theorem Maps.allocated (hs : pm.Sound) (hd : pm.Allocated d) (h : ∀ i, i < 1024 → pm.Maps d i)
    (hq : pm.mem.Paging d q) : pm.Allocated q := by
  rcases hq with rfl | ⟨i, hi, rfl⟩
  · exact hd
  · obtain ⟨p, hp, -, hentry, -⟩ := h i hi
    rw [hentry, or_flags_and_mask (hs.allocated_aligned hp)]
    exact hp

/-- Every address is mapped to itself, as long as those pages hold the same bytes. -/
theorem Maps.translates (hs : pm.Sound) (hd : pm.Allocated d) (h : ∀ i, i < 1024 → pm.Maps d i)
    (hsame : ∀ q, pm.mem.Paging d q → Mem.SamePage pm.mem m q) (v : UInt32) :
    vmemGetPhysAddr m d v = .ok v := by
  refine vmemGetPhysAddr_mapped (hs.allocated_ne_zero hd) (fun i hi => ?_) v
  obtain ⟨p, hp, -, hentry, htable⟩ := h i hi
  have haligned := hs.allocated_aligned hp
  have hpaging : pm.mem.Paging d p := by
    refine .inr ⟨i, hi, ?_⟩
    rw [hentry, or_flags_and_mask haligned]
  refine ⟨p, haligned, ?_, fun j hj => ?_⟩
  · rw [(hsame d (.inl rfl)).load32 hi, hentry]
  · rw [(hsame p hpaging).load32 hj, htable j hj]

/-! ## Building the tables -/

namespace Open

theorem vmemPtableNew (h : pm.Open c) (hroom : c + 1 < pm.pmemMgrReservedSize.toNat) : ∃ p pm',
    Pmem.vmemPtableNew pm = .ok (p, pm') ∧ pm'.Open (c + 1) ∧ pm.Grows pm' ∧ pm'.Allocated p ∧
      ¬ pm.Allocated p ∧ ∀ q, pm.Allocated q → Mem.SamePage pm.mem pm'.mem q := by
  obtain ⟨p, pm₁, halloc, -, hopen, hgrows, hp, hnew, hsame⟩ := h.take hroom
  have haligned := hopen.sound.allocated_aligned hp
  have hfill := tableFill_sameOutside pm₁.mem p (fun _ => 0) (show 0 + 1024 ≤ 1024 by decide)
  obtain ⟨hgrows', hopen'⟩ := hopen.store (hopen.sound.inRoom_of_allocated hp) hfill
  refine ⟨p, _, ?_, hopen', hgrows.trans hgrows', hgrows'.allocated p hp, hnew, ?_⟩
  · have hoff : p &&& 0xFFF = 0 := by
      apply UInt32.toNat_inj.mp
      rw [toNat_and_offset]
      exact haligned
    unfold Pmem.vmemPtableNew
    rw [halloc, ok_bind]
    dsimp only
    rw [if_neg (not_not.mpr hoff), if_neg (by decide)]
    rfl
  · intro q hq
    have hqp : q ≠ p := by
      rintro rfl
      exact hnew hq
    dsimp only
    exact (hsame q hq).trans (hfill.samePage haligned (h.sound.allocated_aligned hq) hqp)

/-- One table more. -/
theorem vmemInitTable (h : pm.Open c) (hroom : c + 1 < pm.pmemMgrReservedSize.toNat)
    (hd : pm.Allocated d) (hi : i < 1024) : ∃ pm', Pmem.vmemInitTable d i pm = .ok pm' ∧
      pm'.Open (c + 1) ∧ pm.Grows pm' ∧ pm'.Maps d i ∧
      (∀ k, k < 1024 → k ≠ i →
        pm'.mem.load32 (d + UInt32.ofNat (4 * k)) = pm.mem.load32 (d + UInt32.ofNat (4 * k))) ∧
      ∀ q, pm.Allocated q → q ≠ d → Mem.SamePage pm.mem pm'.mem q := by
  obtain ⟨p, pm₁, hnewtable, hopen₁, hgrows₁, hp, hnew, hsame₁⟩ := h.vmemPtableNew hroom
  have hne : p ≠ d := by
    rintro rfl
    exact hnew hd
  have hd₁ := hgrows₁.allocated d hd
  have hdal := hopen₁.sound.allocated_aligned hd₁
  have hpal := hopen₁.sound.allocated_aligned hp
  have hentry := store32_sameOutside pm₁.mem d (p ||| 7) (show 4 * i + 3 < 4096 by omega)
  obtain ⟨hgrows₂, hopen₂⟩ := hopen₁.store (hopen₁.sound.inRoom_of_allocated hd₁) hentry
  have hfill := tableFill_sameOutside (pm₁.mem.store32 (d + UInt32.ofNat (4 * i)) (p ||| 7)) p
    (fun j => virtAddrEntry i j ||| 7) (show 0 + 1024 ≤ 1024 by decide)
  obtain ⟨hgrows₃, hopen₃⟩ := hopen₂.store
    (hopen₂.sound.inRoom_of_allocated (hgrows₂.allocated p hp)) hfill
  -- the directory, but for entry `i`
  have hdir : ∀ k, k < 1024 → (tableFill p (fun j => virtAddrEntry i j ||| 7) 1024 0
      (pm₁.mem.store32 (d + UInt32.ofNat (4 * i)) (p ||| 7))).load32 (d + UInt32.ofNat (4 * k)) =
      if i = k then p ||| 7 else pm₁.mem.load32 (d + UInt32.ofNat (4 * k)) := by
    intro k hk
    rw [(hfill.samePage hpal hdal hne.symm).load32 hk, load32_store32_word hdal hdal hi hk]
    simp only [true_and]
  refine ⟨_, ?_, hopen₃, (hgrows₁.trans hgrows₂).trans hgrows₃, ⟨p, ?_, hne, ?_, ?_⟩, ?_, ?_⟩
  · unfold Pmem.vmemInitTable
    rw [hnewtable]
    rfl
  · exact hgrows₃.allocated p (hgrows₂.allocated p hp)
  · rw [hdir i hi, if_pos rfl]
  · intro j hj
    rw [tableFill_load hpal hpal (by omega) hj, if_pos ⟨rfl, Nat.zero_le j, by omega⟩]
  · intro k hk hki
    rw [hdir k hk, if_neg (Ne.symm hki)]
    exact (hsame₁ d hd).load32 hk
  · intro q hq hqd
    have hqal := h.sound.allocated_aligned hq
    have hqp : q ≠ p := by
      rintro rfl
      exact hnew hq
    dsimp only
    exact ((hsame₁ q hq).trans (hentry.samePage hdal hqal hqd)).trans
      (hfill.samePage hpal hqal hqp)

theorem vmemInitLoop (h : pm.Open c) (hroom : c + n < pm.pmemMgrReservedSize.toNat)
    (hd : pm.Allocated d) (hi : i + n ≤ 1024) : ∃ pm', Pmem.vmemInitLoop d n i pm = .ok pm' ∧
      pm'.Open (c + n) ∧ pm.Grows pm' ∧ (∀ k, i ≤ k → k < i + n → pm'.Maps d k) ∧
      (∀ k, k < i →
        pm'.mem.load32 (d + UInt32.ofNat (4 * k)) = pm.mem.load32 (d + UInt32.ofNat (4 * k))) ∧
      ∀ q, pm.Allocated q → q ≠ d → Mem.SamePage pm.mem pm'.mem q := by
  induction n generalizing c i pm with
  | zero =>
    exact ⟨pm, rfl, h, .refl h.sound.initialised, fun k hik hk => absurd hk (by omega),
      fun _ _ => rfl, fun q _ _ => .refl _ q⟩
  | succ n ih =>
    obtain ⟨pm₁, htable, hopen₁, hgrows₁, hmaps, hdir₁, hsame₁⟩ :=
      h.vmemInitTable (by omega) hd (show i < 1024 by omega)
    obtain ⟨pm₂, hloop, hopen₂, hgrows₂, hmaps₂, hdir₂, hsame₂⟩ := ih (i := i + 1) hopen₁
      (by rw [hgrows₁.layout.size]; omega) (hgrows₁.allocated d hd) (by omega)
    refine ⟨pm₂, ?_, ?_, hgrows₁.trans hgrows₂, ?_, ?_, ?_⟩
    · rw [Pmem.vmemInitLoop, htable]
      exact hloop
    · rwa [show c + (n + 1) = c + 1 + n by omega]
    · intro k hik hk
      by_cases hki : k = i
      · subst hki
        exact hmaps.grows hgrows₂ (hdir₂ k (by omega)) hsame₂
      · exact hmaps₂ k (by omega) (by omega)
    · intro k hk
      exact (hdir₂ k (by omega)).trans (hdir₁ k (by omega) (by omega))
    · intro q hq hqd
      exact (hsame₁ q hq hqd).trans (hsame₂ q (hgrows₁.allocated q hq) hqd)

/-- `vmem_init` returns, and takes 1025 pages. -/
theorem vmemInit (h : pm.Open c) (hroom : c + 1025 < pm.pmemMgrReservedSize.toNat) : ∃ d pm',
    Pmem.vmemInit pm = .ok (d, pm') ∧ pm'.Open (c + 1025) ∧ pm.Grows pm' ∧ pm'.Allocated d ∧
      ∀ i, i < 1024 → pm'.Maps d i := by
  obtain ⟨d, pm₁, hdir, hopen₁, hgrows₁, hd, -, -⟩ := h.vmemPtableNew (by omega)
  obtain ⟨pm₂, hloop, hopen₂, hgrows₂, hmaps, -, -⟩ := hopen₁.vmemInitLoop (n := 1024) (i := 0)
    (by rw [hgrows₁.layout.size]; omega) hd (by decide)
  refine ⟨d, pm₂, ?_, hopen₂, hgrows₁.trans hgrows₂, hgrows₂.allocated d hd,
    fun i hi => hmaps i (Nat.zero_le i) (by omega)⟩
  unfold Pmem.vmemInit
  rw [hdir, ok_bind]
  dsimp only
  rw [hloop]
  rfl

end Open

end Pmem

end KoizOs
