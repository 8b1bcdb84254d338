import KoizOs.Memory.Mem
import KoizOs.Memory.Pmem

/-!
# Setting up the page pool

`pmem_initialize` selects a region `[S, S + L)` from the memory map (`pmemSelect`), moves
it past the kernel, puts the records at its start `M` and the pages behind them, from the
next page boundary `A` on (`pmemSetUp`).  Its checks come after all the subtractions: where
the region above the kernel has no room up to that boundary, the length has wrapped by then
and is taken for almost 4 GiB.

    NoRoom:  S + L < A,  with  M = max S K,  0x100000 ≤ M ≤ S + L

| result | content |
|--------|---------|
| `pmemSetUp_layout`, `pmemSetUp_no_room` | the pool in the two cases |
| `pmem_layout_iff` | the pool lies in the region exactly when there is room |
-/

namespace KoizOs

open Function Lib

/-- The fields of `multiboot_info_t` that are read. -/
structure MultibootInfo where
  flags : UInt32
  mmapLength : UInt32
  mmapAddr : UInt32

/-- `multiboot_memory_map_t`, 24 bytes. -/
structure MultibootMmapEntry where
  size : UInt32
  addrLow : UInt32
  addrHigh : UInt32
  lenLow : UInt32
  lenHigh : UInt32
  type : UInt32
deriving DecidableEq

def multibootMemoryAvailable : UInt32 := 1
def memReservedSectionMin : UInt32 := 0x100000
def minMemSize : UInt32 := 0xFFFF

/-! ## Algorithm -/

/-- The entry at address `p`. -/
def Mem.mmapEntry (m : Mem) (p : UInt32) : MultibootMmapEntry where
  size := m.load32 p
  addrLow := m.load32 (p + 4)
  addrHigh := m.load32 (p + 8)
  lenLow := m.load32 (p + 12)
  lenHigh := m.load32 (p + 16)
  type := m.load32 (p + 20)

/-- One round of the search for the largest region; `r` is its start and length so far. -/
def largerRegion (r : UInt32 × UInt32) (cs : MultibootMmapEntry) : UInt32 × UInt32 :=
  if cs.type = multibootMemoryAvailable ∧ cs.lenLow > r.2 then (cs.addrLow, cs.lenLow) else r

/-- The index advances by the size of an entry, whatever its `size` field says. -/
def pmemSelectLoop (mbd : MultibootInfo) (m : Mem) : (fuel : Nat) → (i : UInt32) →
    (r : UInt32 × UInt32) → Kern (UInt32 × UInt32)
  | 0, _, _ => .error .hang
  | fuel + 1, i, r =>
    if i < mbd.mmapLength then
      pmemSelectLoop mbd m fuel (i + 24) (largerRegion r (m.mmapEntry (mbd.mmapAddr + i)))
    else .ok r

/-- The checks and the search of `pmem_initialize`: the region it selects. -/
def pmemSelect (pmemMbd : Option MultibootInfo) (pmemKernelReservedEndAddr : UInt32) (m : Mem) :
    Kern (UInt32 × UInt32) :=
  match pmemMbd with
  | none => panic "pmem: MBD was never set!"
  | some mbd =>
    if pmemKernelReservedEndAddr = 0 then panic "pmem: kernel reserved end addr is 0!"
    else if physBlockSize &&& (physBlockSize - 1) ≠ 0 then
      panic "physical block size needs to be a power of 2!"
    else if (mbd.flags >>> 6) &&& 0x1 = 0 then
      panic "invalid memory map given by GRUB bootloader"
    else pmemSelectLoop mbd m (mbd.mmapLength.toNat + 1) 0 (0x00, 0x00)

/-- `n` records are left to clear, the next is record `i`. -/
def clearRecords (start : UInt32) : (n i : Nat) → Mem → Mem
  | 0, _, m => m
  | n + 1, i, m => clearRecords start n (i + 1) (update m (start + UInt32.ofNat i) 0x00)

/-- "Offset so it's out of our reserved kernel space". -/
def pmemAboveKernel (pmemKernelReservedEndAddr start length : UInt32) :
    Kern (UInt32 × UInt32) :=
  if start < pmemKernelReservedEndAddr then
    let spaceToAlloc := pmemKernelReservedEndAddr - start
    if spaceToAlloc > length then panic "Not enough free space outside kernel!"
    else .ok (pmemKernelReservedEndAddr, length - spaceToAlloc)
  else .ok (start, length)

/-- The records at the start of the memory and the pages behind them. -/
def Pmem.layOut (start length : UInt32) (pm : Pmem) : Pmem :=
  let endAddr := start + length
  let reservedSize := length / physBlockSize
  let m := clearRecords start reservedSize.toNat 0 pm.mem
  let startAddrAlloc := (start + (reservedSize + physBlockSize)) &&& ~~~(physBlockSize - 1)
  let length := endAddr - startAddrAlloc
  { pm with
    pmemMainMemoryStart := start
    pmemMainMemoryLength := length
    pmemAllocStart := startAddrAlloc
    pmemMgrReservedSize := length / physBlockSize
    mem := m }

/-- What `pmem_initialize` does with the region it selected. -/
def pmemSetUp (pmemKernelReservedEndAddr start length : UInt32) (pm : Pmem) : Kern Pmem := do
  let (start, length) ← pmemAboveKernel pmemKernelReservedEndAddr start length
  let pm := pm.layOut start length
  if pm.pmemMainMemoryStart < memReservedSectionMin then panic "invalid memory start region!"
  else if pm.pmemMainMemoryLength = 0x00 then panic "cannot have a memory of length 0!"
  else if pm.pmemMainMemoryLength < minMemSize then panic "not enough memory!"
  else return { pm with pmemInitialized := true }

def pmemInitialize (pmemMbd : Option MultibootInfo) (pmemKernelReservedEndAddr : UInt32)
    (pm : Pmem) : Kern Pmem := do
  let (start, length) ← pmemSelect pmemMbd pmemKernelReservedEndAddr pm.mem
  pmemSetUp pmemKernelReservedEndAddr start length pm

/-! ## The layout in natural numbers -/

/-- The start of the region above the kernel. -/
def poolStart (S K : UInt32) : Nat := max S.toNat K.toNat

/-- The page boundary behind the records of `l` bytes of memory from `M` on. -/
def poolBoundary (M l : Nat) : Nat := (M + l / 4096 + 4096) / 4096 * 4096

/-- The region above the kernel ends before the first page boundary behind its records. -/
def NoRoom (S L K : UInt32) : Prop :=
  0x100000 ≤ poolStart S K ∧ poolStart S K ≤ S.toNat + L.toNat ∧
    S.toNat + L.toNat <
      poolBoundary (poolStart S K) (S.toNat + L.toNat - poolStart S K)

instance (S L K : UInt32) : Decidable (NoRoom S L K) :=
  inferInstanceAs (Decidable (_ ∧ _ ∧ _))

/-- The records begin at or after `K`, are cleared and end before the pages; the pages are
aligned, there is one at least, and all lie in the region. -/
structure PoolLayout (S L K : UInt32) (pm : Pmem) : Prop where
  aligned : PageAligned pm.pmemAllocStart
  pos : 1 ≤ pm.pmemMgrReservedSize.toNat
  above : K.toNat ≤ pm.pmemMainMemoryStart.toNat
  cleared : ∀ e, e < pm.pmemMgrReservedSize → pm.record e = 0
  before : pm.pmemMainMemoryStart.toNat + pm.pmemMgrReservedSize.toNat ≤ pm.pmemAllocStart.toNat
  inside : S.toNat ≤ pm.pmemAllocStart.toNat ∧
    pm.pmemAllocStart.toNat + 4096 * pm.pmemMgrReservedSize.toNat ≤ S.toNat + L.toNat

variable {S L K M l : UInt32} {pm pm' : Pmem} {m : Mem} {n i : Nat}

theorem clearRecords_apply (start : UInt32) {k : Nat} (hk : k < 2 ^ 32) (hn : i + n ≤ 2 ^ 32) :
    clearRecords start n i m (start + UInt32.ofNat k) =
      if i ≤ k ∧ k < i + n then 0 else m (start + UInt32.ofNat k) := by
  induction n generalizing i m with
  | zero =>
    rw [if_neg (by omega)]
    rfl
  | succ n ih =>
    rw [clearRecords, ih (by omega)]
    by_cases hik : k = i
    · subst hik
      rw [if_neg (by omega), update_self, if_pos (by omega)]
    · have hne : start + UInt32.ofNat k ≠ start + UInt32.ofNat i := by
        intro heq
        have := congrArg UInt32.toNat ((UInt32.add_right_inj start).mp heq)
        rw [UInt32.toNat_ofNat', UInt32.toNat_ofNat', Nat.mod_eq_of_lt hk,
          Nat.mod_eq_of_lt (by omega)] at this
        exact hik this
      have hrange : i + 1 ≤ k ∧ k < i + 1 + n ↔ i ≤ k ∧ k < i + (n + 1) := by omega
      rw [update_of_ne hne]
      simp only [hrange]

/-! ## What the set-up computes -/

theorem pmemAboveKernel_eq (S L K : UInt32) :
    if poolStart S K ≤ S.toNat + L.toNat then
      ∃ M l, pmemAboveKernel K S L = .ok (M, l) ∧ M.toNat = poolStart S K ∧
        M.toNat + l.toNat = S.toNat + L.toNat
    else pmemAboveKernel K S L = panic "Not enough free space outside kernel!" := by
  unfold pmemAboveKernel poolStart
  by_cases hlt : S < K
  · have hlt' := UInt32.lt_iff_toNat_lt.mp hlt
    have hsub : (K - S).toNat = K.toNat - S.toNat :=
      UInt32.toNat_sub_of_le K S (UInt32.le_iff_toNat_le.mpr (by omega))
    rw [if_pos hlt, Nat.max_eq_right (by omega)]
    dsimp only
    have hspace : K - S > L ↔ L.toNat < K.toNat - S.toNat := by
      rw [gt_iff_lt, UInt32.lt_iff_toNat_lt, hsub]
    by_cases hfits : K.toNat ≤ S.toNat + L.toNat
    · have hle : K - S ≤ L := by
        rw [UInt32.le_iff_toNat_le, hsub]
        omega
      rw [if_pos hfits, if_neg (by rw [hspace]; omega)]
      refine ⟨K, L - (K - S), rfl, rfl, ?_⟩
      rw [UInt32.toNat_sub_of_le _ _ hle, hsub]
      omega
    · rw [if_neg hfits, if_pos (by rw [hspace]; omega)]
  · have hlt' : K.toNat ≤ S.toNat := by
      rw [UInt32.lt_iff_toNat_lt] at hlt
      omega
    rw [if_neg hlt, Nat.max_eq_left hlt', if_pos (by omega)]
    exact ⟨S, L, rfl, rfl, rfl⟩

theorem layOut_allocStart (M l : UInt32) (pm : Pmem) :
    (pm.layOut M l).pmemAllocStart.toNat = poolBoundary M.toNat l.toNat % 2 ^ 32 := by
  show ((M + (l / physBlockSize + physBlockSize)) &&& ~~~0xFFF).toNat = _
  rw [toNat_and_mask, UInt32.toNat_add, UInt32.toNat_add, UInt32.toNat_div, toNat_physBlockSize]
  unfold poolBoundary
  omega

theorem layOut_length (hend : M.toNat + l.toNat ≤ 2 ^ 32) (pm : Pmem) :
    (pm.layOut M l).pmemMainMemoryLength.toNat =
      (M.toNat + l.toNat + 2 ^ 32 - poolBoundary M.toNat l.toNat % 2 ^ 32) % 2 ^ 32 := by
  have hstart := layOut_allocStart M l pm
  show ((M + l) - (pm.layOut M l).pmemAllocStart).toNat = _
  rw [UInt32.toNat_sub, hstart, UInt32.toNat_add]
  omega

theorem layOut_size (M l : UInt32) (pm : Pmem) : (pm.layOut M l).pmemMgrReservedSize.toNat =
    (pm.layOut M l).pmemMainMemoryLength.toNat / 4096 := by
  show ((pm.layOut M l).pmemMainMemoryLength / physBlockSize).toNat = _
  rw [UInt32.toNat_div, toNat_physBlockSize]

/-- With room, a pool that is long enough is laid out well. -/
theorem layOut_of_room (hM : M.toNat = poolStart S K)
    (hend : M.toNat + l.toNat = S.toNat + L.toNat) (hregion : S.toNat + L.toNat ≤ 2 ^ 32)
    (hroom : poolBoundary M.toNat l.toNat ≤ M.toNat + l.toNat)
    (hlong : 0xFFFF ≤ (pm.layOut M l).pmemMainMemoryLength.toNat) :
    PoolLayout S L K (pm.layOut M l) := by
  have hstart := layOut_allocStart M l pm
  have hlength := layOut_length (by omega) pm (M := M) (l := l)
  have hsize := layOut_size M l pm
  have hmax : S.toNat ≤ M.toNat ∧ K.toNat ≤ M.toNat := by
    rw [hM]
    exact ⟨Nat.le_max_left _ _, Nat.le_max_right _ _⟩
  have hboundary : M.toNat + l.toNat / 4096 < poolBoundary M.toNat l.toNat ∧
      poolBoundary M.toNat l.toNat % 4096 = 0 := by
    unfold poolBoundary
    omega
  -- the boundary is below 4 GiB, or the pool would be empty
  have hlt : poolBoundary M.toNat l.toNat < 2 ^ 32 := by
    by_contra hge
    rw [hlength] at hlong
    omega
  rw [Nat.mod_eq_of_lt hlt] at hstart hlength
  have hexact : (pm.layOut M l).pmemMainMemoryLength.toNat =
      M.toNat + l.toNat - poolBoundary M.toNat l.toNat := by omega
  refine ⟨?_, by omega, hmax.2, ?_, ?_, ?_⟩
  · show (pm.layOut M l).pmemAllocStart.toNat % 4096 = 0
    omega
  · intro e he
    have he' := UInt32.lt_iff_toNat_lt.mp he
    have hcount : (l / physBlockSize).toNat = l.toNat / 4096 := by
      rw [UInt32.toNat_div, toNat_physBlockSize]
    have hclear := clearRecords_apply (m := pm.mem) (n := (l / physBlockSize).toNat) (i := 0) M
      e.toNat_lt (by omega)
    rw [if_pos (by omega), UInt32.ofNat_toNat] at hclear
    exact hclear
  · show M.toNat + _ ≤ _
    omega
  · omega

/-- Without room, the wrapped length passes for a large one, and the pool lies elsewhere. -/
theorem layOut_no_room (hM : M.toNat = poolStart S K)
    (hend : M.toNat + l.toNat = S.toNat + L.toNat) (hregion : S.toNat + L.toNat ≤ 2 ^ 32)
    (hmin : 0x100000 ≤ M.toNat) (hroom : M.toNat + l.toNat < poolBoundary M.toNat l.toNat)
    (pm : Pmem) :
    0xFFFF ≤ (pm.layOut M l).pmemMainMemoryLength.toNat ∧ ¬ PoolLayout S L K (pm.layOut M l) := by
  have hstart := layOut_allocStart M l pm
  have hlength := layOut_length (by omega) pm (M := M) (l := l)
  have hboundary : poolBoundary M.toNat l.toNat ≤ M.toNat + l.toNat / 4096 + 4096 := by
    unfold poolBoundary
    omega
  constructor
  · omega
  · intro hlay
    have hbefore : M.toNat + _ ≤ _ := hlay.before
    have hinside := hlay.inside
    omega

theorem poolLayout_initialized (b : Bool) :
    PoolLayout S L K { pm with pmemInitialized := b } ↔ PoolLayout S L K pm :=
  ⟨fun h => ⟨h.aligned, h.pos, h.above, h.cleared, h.before, h.inside⟩,
    fun h => ⟨h.aligned, h.pos, h.above, h.cleared, h.before, h.inside⟩⟩

/-- The checks at the end, on the memory above the kernel. -/
theorem pmemSetUp_eq_ok_iff (habove : pmemAboveKernel K S L = .ok (M, l)) :
    pmemSetUp K S L pm = .ok pm' ↔ 0x100000 ≤ M.toNat ∧
      0xFFFF ≤ (pm.layOut M l).pmemMainMemoryLength.toNat ∧
      { pm.layOut M l with pmemInitialized := true } = pm' := by
  have hmin : M < memReservedSectionMin ↔ M.toNat < 0x100000 := UInt32.lt_iff_toNat_lt
  have hzero : (pm.layOut M l).pmemMainMemoryLength = 0x00 ↔
      (pm.layOut M l).pmemMainMemoryLength.toNat = 0 := UInt32.toNat_inj.symm
  have hlong : (pm.layOut M l).pmemMainMemoryLength < minMemSize ↔
      (pm.layOut M l).pmemMainMemoryLength.toNat < 0xFFFF := UInt32.lt_iff_toNat_lt
  unfold pmemSetUp
  rw [habove, ok_bind]
  dsimp only
  show (if M < memReservedSectionMin then _ else _) = _ ↔ _
  rw [pure_eq_ok]
  split_ifs with h1 h2 h3
  · rw [hmin] at h1
    exact iff_of_false (panic_ne_ok _ _) (by omega)
  · rw [hzero] at h2
    exact iff_of_false (panic_ne_ok _ _) (by omega)
  · rw [hlong] at h3
    exact iff_of_false (panic_ne_ok _ _) (by omega)
  · rw [hmin] at h1
    rw [hlong] at h3
    constructor
    · intro h
      exact ⟨by omega, by omega, Except.ok.inj h⟩
    · rintro ⟨-, -, rfl⟩
      rfl

/-- A set-up that completes lays out the region above the kernel. -/
theorem pmemSetUp_cases (h : pmemSetUp K S L pm = .ok pm') :
    ∃ M l, M.toNat = poolStart S K ∧ M.toNat + l.toNat = S.toNat + L.toNat ∧
      0x100000 ≤ M.toNat ∧ 0xFFFF ≤ (pm.layOut M l).pmemMainMemoryLength.toNat ∧
      { pm.layOut M l with pmemInitialized := true } = pm' := by
  have habove := pmemAboveKernel_eq S L K
  split at habove
  · obtain ⟨M, l, habove, hM, hend⟩ := habove
    exact ⟨M, l, hM, hend, (pmemSetUp_eq_ok_iff habove).mp h⟩
  · rw [pmemSetUp, habove] at h
    exact absurd h (panic_ne_ok _ _)

theorem pmemSetUp_layout (hroom : ¬ NoRoom S L K) (hregion : S.toNat + L.toNat ≤ 2 ^ 32)
    (h : pmemSetUp K S L pm = .ok pm') : PoolLayout S L K pm' := by
  obtain ⟨M, l, hM, hend, hmin, hlong, rfl⟩ := pmemSetUp_cases h
  apply (poolLayout_initialized true).mpr
  apply layOut_of_room hM hend hregion _ hlong
  by_contra hno
  apply hroom
  unfold NoRoom
  rw [← hM, ← hend, Nat.add_sub_cancel_left]
  omega

/-- The cursor stays where it was, which is in range when it was at record 0. -/
theorem pmemSetUp_initialised (hcur : pm.pmemCurrAllocRecord = 0)
    (h : pmemSetUp K S L pm = .ok pm') : pm'.Initialised := by
  obtain ⟨M, l, -, -, -, hlong, rfl⟩ := pmemSetUp_cases h
  refine ⟨rfl, rfl, ?_⟩
  have hsize := layOut_size M l pm
  show pm.pmemCurrAllocRecord < (pm.layOut M l).pmemMgrReservedSize
  rw [hcur, UInt32.lt_iff_toNat_lt, UInt32.toNat_zero]
  omega

/-- The pool ends where the region does, behind a wrap when it starts above that. -/
theorem pmemSetUp_end (hregion : S.toNat + L.toNat ≤ 2 ^ 32)
    (h : pmemSetUp K S L pm = .ok pm') :
    pm'.pmemAllocStart.toNat + pm'.pmemMainMemoryLength.toNat =
      if pm'.pmemAllocStart.toNat ≤ S.toNat + L.toNat then S.toNat + L.toNat
      else S.toNat + L.toNat + 2 ^ 32 := by
  obtain ⟨M, l, -, hend, -, hlong, rfl⟩ := pmemSetUp_cases h
  have hstart := layOut_allocStart M l pm
  have hlength := layOut_length (by omega) pm (M := M) (l := l)
  show (pm.layOut M l).pmemAllocStart.toNat + (pm.layOut M l).pmemMainMemoryLength.toNat =
    if (pm.layOut M l).pmemAllocStart.toNat ≤ _ then _ else _
  split_ifs <;> omega

/-- A pool set up without room starts above the end of its region, unless its start
wrapped to 0. -/
theorem pmemSetUp_start_of_no_room (hno : NoRoom S L K) (hregion : S.toNat + L.toNat ≤ 2 ^ 32)
    (h : pmemSetUp K S L pm = .ok pm') (h0 : pm'.pmemAllocStart ≠ 0) :
    S.toNat + L.toNat < pm'.pmemAllocStart.toNat := by
  obtain ⟨M, l, hM, hend, -, -, rfl⟩ := pmemSetUp_cases h
  have hstart := layOut_allocStart M l pm
  have h0' : (pm.layOut M l).pmemAllocStart.toNat ≠ 0 := fun h => h0 (UInt32.toNat_inj.mp h)
  have hno' := hno.2.2
  rw [← hM, ← hend, Nat.add_sub_cancel_left] at hno'
  have hbound : poolBoundary M.toNat l.toNat ≤ 2 ^ 32 := by
    have := M.toNat_lt
    unfold poolBoundary
    omega
  show S.toNat + L.toNat < (pm.layOut M l).pmemAllocStart.toNat
  omega

theorem pmemSetUp_no_room (hno : NoRoom S L K) (hregion : S.toNat + L.toNat ≤ 2 ^ 32)
    (pm : Pmem) : ∃ pm', pmemSetUp K S L pm = .ok pm' ∧ ¬ PoolLayout S L K pm' := by
  obtain ⟨hmin, hkernel, hno⟩ := hno
  have habove := pmemAboveKernel_eq S L K
  rw [if_pos hkernel] at habove
  obtain ⟨M, l, habove, hM, hend⟩ := habove
  rw [← hM] at hmin
  rw [← hM, ← hend, Nat.add_sub_cancel_left] at hno
  obtain ⟨hlong, hbad⟩ := layOut_no_room hM hend hregion hmin hno pm
  exact ⟨_, (pmemSetUp_eq_ok_iff habove).mpr ⟨hmin, hlong, rfl⟩,
    fun hlay => hbad ((poolLayout_initialized true).mp hlay)⟩

theorem pmemInitialize_eq {mbd : Option MultibootInfo}
    (hsel : pmemSelect mbd K pm.mem = .ok (S, L)) :
    pmemInitialize mbd K pm = pmemSetUp K S L pm := by
  unfold pmemInitialize
  rw [hsel]
  rfl

/-- **The pool and its region.** Whenever the set-up completes, records and pages are laid
out well, exactly when there is room up to the first page boundary. -/
theorem pmem_layout_iff {mbd : Option MultibootInfo} (hsel : pmemSelect mbd K pm.mem = .ok (S, L))
    (hregion : S.toNat + L.toNat ≤ 2 ^ 32) :
    (∀ pm', pmemInitialize mbd K pm = .ok pm' → PoolLayout S L K pm') ↔ ¬ NoRoom S L K := by
  rw [pmemInitialize_eq hsel]
  constructor
  · intro hall hno
    obtain ⟨pm', hok, hbad⟩ := pmemSetUp_no_room hno hregion pm
    exact hbad (hall pm' hok)
  · intro hroom pm' hok
    exact pmemSetUp_layout hroom hregion hok

/-- A memory that holds `words` from address 0x9000 on. -/
def wordsAt9000 (words : List UInt32) : Mem := fun a =>
  byte32 (words.getD ((a - 0x9000).toNat / 4) 0) ((a - 0x9000).toNat % 4)

/-- The static variables of the allocator before it is set up. -/
def Pmem.boot (m : Mem) : Pmem := ⟨false, 0, 0, 0, 0, 0, m⟩

/-- 16 MiB from 1 MiB on, of which the kernel has the first. -/
theorem pmem_layout_iff_one : ∃ pm',
    pmemInitialize (some ⟨0x40, 24, 0x9000⟩) 0x200000
      (.boot (wordsAt9000 [20, 0x100000, 0, 0x1000000, 0, 1])) = .ok pm' ∧
    PoolLayout 0x100000 0x1000000 0x200000 pm' := by
  obtain ⟨pm', hok⟩ : ∃ pm', pmemInitialize (some ⟨0x40, 24, 0x9000⟩) 0x200000
    (.boot (wordsAt9000 [20, 0x100000, 0, 0x1000000, 0, 1])) = .ok pm' := ⟨_, rfl⟩
  exact ⟨pm', hok, (pmem_layout_iff rfl (by decide)).mpr (by decide) pm' hok⟩

/-- A region that ends 256 bytes before the first page boundary above the kernel: nothing
panics, and the pool has `2 ^ 20 - 1` pages. -/
theorem pmem_layout_wraps : ∃ pm',
    pmemSelect (some ⟨0x40, 24, 0x9000⟩) 0x100800
      (wordsAt9000 [20, 0x100000, 0, 0xF00, 0, 1]) = .ok (0x100000, 0xF00) ∧
    pmemInitialize (some ⟨0x40, 24, 0x9000⟩) 0x100800
      (.boot (wordsAt9000 [20, 0x100000, 0, 0xF00, 0, 1])) = .ok pm' ∧
    pm'.pmemAllocStart = 0x101000 ∧ pm'.pmemMgrReservedSize = 0xFFFFF ∧
    ¬ PoolLayout 0x100000 0xF00 0x100800 pm' := by
  refine ⟨_, rfl, rfl, rfl, rfl, ?_⟩
  intro hlay
  exact absurd hlay.inside.2 (by decide)

end KoizOs
