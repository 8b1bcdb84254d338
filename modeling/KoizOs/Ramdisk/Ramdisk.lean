import KoizOs.Memory.Mem

/-!
# The block ramdisk

The disk is `ramdiskBlockSize` physical pages, scattered over memory; the page at
`ramdiskBlockPointers` holds their addresses.  A caller's buffer is memory away from all
of these pages, so it is passed as a `Buffer` of its own and returned as the call leaves
it.  All address arithmetic is that of `UInt32`.
-/

namespace KoizOs

open Function

structure Ramdisk where
  mem : Mem
  ramdiskBlockSize : UInt32
  /-- 0 is the null pointer -/
  ramdiskBlockPointers : UInt32

def ramdiskErrorOutOfBounds : Int := 1
def ramdiskErrorOverflow : Int := 2

/-! ## Algorithm -/

/-- The word `ramdisk_block_pointers[block_number]` is stored at. -/
def Ramdisk.slot (rd : Ramdisk) (blockNumber : UInt32) : UInt32 :=
  rd.ramdiskBlockPointers + 4 * blockNumber

def Ramdisk.blockPointer (rd : Ramdisk) (blockNumber : UInt32) : UInt32 :=
  rd.mem.load32 (rd.slot blockNumber)

section Init

variable {σ : Type} (pmemAlloc : σ → Kern (UInt32 × σ))

/-- `n` blocks are left to allocate, the next one is `i`. -/
def ramdiskInitLoop : (n i : Nat) → Ramdisk → σ → Kern (Ramdisk × σ)
  | 0, _, rd, pages => .ok (rd, pages)
  | n + 1, i, rd, pages => do
    let (page, pages) ← pmemAlloc pages
    let rd := { rd with mem := rd.mem.store32 (rd.slot (UInt32.ofNat i)) page }
    ramdiskInitLoop n (i + 1) rd pages

def ramdiskInit (sizeInBytes : UInt32) (rd : Ramdisk) (pages : σ) : Kern (Ramdisk × σ) :=
  if sizeInBytes = 0 then panic "init_disk_ramdisk: size_in_bytes cannot be zero!"
  else if sizeInBytes % physBlockSize ≠ 0 then
    panic "init_disk_ramdisk: size_in_bytes needs to divide block size!"
  else if rd.ramdiskBlockSize > 0 then panic "init_disk_ramdisk: ramdisk already initialized!"
  else if rd.ramdiskBlockPointers > 0 then
    panic "init_disk_ramdisk: ramdisk_block_pointers already set!"
  else
    let rd := { rd with ramdiskBlockSize := sizeInBytes / physBlockSize }
    if rd.ramdiskBlockSize > physBlockSize / 4 then panic "Cannot create that big of a ramdisk!"
    else do
      let (table, pages) ← pmemAlloc pages
      let rd := { rd with ramdiskBlockPointers := table }
      ramdiskInitLoop pmemAlloc rd.ramdiskBlockSize.toNat 0 rd pages

end Init

/-- The block that byte `i` of a request at `startAddr` falls in. -/
def ioBlockNumber (startAddr : UInt32) (i : Nat) : UInt32 :=
  (startAddr + UInt32.ofNat i) / physBlockSize

/-- The memory address of byte `i` of a request at `startAddr`. -/
def Ramdisk.ioAddr (rd : Ramdisk) (startAddr : UInt32) (i : Nat) : UInt32 :=
  let currentAddr := startAddr + UInt32.ofNat i
  let offset := currentAddr % physBlockSize
  let currentPageAddr := rd.blockPointer (ioBlockNumber startAddr i)
  currentPageAddr + offset

/-- `n` bytes are left to transfer, the next one is `i`. -/
def ramdiskIoLoop (ioType startAddr : UInt32) : (n i : Nat) → Buffer → Ramdisk → Buffer × Ramdisk
  | 0, _, data, rd => (data, rd)
  | n + 1, i, data, rd =>
    if ioType = 0 then
      ramdiskIoLoop ioType startAddr n (i + 1) (update data i (rd.mem (rd.ioAddr startAddr i))) rd
    else
      ramdiskIoLoop ioType startAddr n (i + 1) data
        { rd with mem := update rd.mem (rd.ioAddr startAddr i) (data i) }

/-- `ioType` 0 reads into `data`, any other writes from it. -/
def ramdiskInternalIo (ioType startAddr : UInt32) (data : Buffer) (dataSize : UInt32)
    (rd : Ramdisk) : Kern (Int × Buffer × Ramdisk) :=
  if rd.ramdiskBlockSize = 0 then panic "init_disk_ramdisk: ramDisk is not initialized!"
  else if startAddr + dataSize > rd.ramdiskBlockSize * physBlockSize then
    .ok (ramdiskErrorOutOfBounds, data, rd)
  else if startAddr > 0xFFFFFFFF - dataSize then .ok (ramdiskErrorOverflow, data, rd)
  else .ok (0, ramdiskIoLoop ioType startAddr dataSize.toNat 0 data rd)

def ramdiskWrite (startAddr : UInt32) (data : Buffer) (dataSize : UInt32) (rd : Ramdisk) :
    Kern (Int × Buffer × Ramdisk) :=
  ramdiskInternalIo 1 startAddr data dataSize rd

def ramdiskRead (startAddr : UInt32) (data : Buffer) (dataSize : UInt32) (rd : Ramdisk) :
    Kern (Int × Buffer × Ramdisk) :=
  ramdiskInternalIo 0 startAddr data dataSize rd

/-! ## Blocks -/

namespace Ramdisk

/-- The disk is `b` blocks on aligned, distinct pages that the pointer table is not on. -/
structure Valid (rd : Ramdisk) (b : Nat) : Prop where
  size : rd.ramdiskBlockSize.toNat = b
  pos : 1 ≤ b
  le : b ≤ 1024
  table : PageAligned rd.ramdiskBlockPointers
  block : ∀ k, k < b → PageAligned (rd.blockPointer (UInt32.ofNat k))
  inj : ∀ j k, j < b → k < b →
    rd.blockPointer (UInt32.ofNat j) = rd.blockPointer (UInt32.ofNat k) → j = k
  not_table : ∀ k, k < b → rd.blockPointer (UInt32.ofNat k) ≠ rd.ramdiskBlockPointers

/-- Where byte `a` of the disk lives. -/
def addr (rd : Ramdisk) (a : Nat) : UInt32 :=
  rd.blockPointer (UInt32.ofNat (a / 4096)) + UInt32.ofNat (a % 4096)

/-- Byte `a` of the disk. -/
def byteAt (rd : Ramdisk) (a : Nat) : UInt8 := rd.mem (rd.addr a)

/-- Byte `a` of the disk set to `v`. -/
def setByte (rd : Ramdisk) (a : Nat) (v : UInt8) : Ramdisk :=
  { rd with mem := update rd.mem (rd.addr a) v }

variable {rd : Ramdisk} {b a x : Nat} {v : UInt8}

theorem slot_ofNat (rd : Ramdisk) (k : Nat) :
    rd.slot (UInt32.ofNat k) = rd.ramdiskBlockPointers + UInt32.ofNat (4 * k) := by
  rw [slot, UInt32.ofNat_mul]
  rfl

namespace Valid

theorem addr_ne_table (h : rd.Valid b) (ha : a < b * 4096) {o : Nat} (ho : o < 4096) :
    rd.addr a ≠ rd.ramdiskBlockPointers + UInt32.ofNat o := by
  have hk : a / 4096 < b := by omega
  rw [Ne, addr, page_add_inj (h.block _ hk) h.table (by omega) ho]
  exact fun heq => h.not_table _ hk heq.1

/-- Different bytes of the disk live at different addresses. -/
theorem addr_inj (h : rd.Valid b) (ha : a < b * 4096) (hx : x < b * 4096) :
    rd.addr x = rd.addr a ↔ x = a := by
  have hka : a / 4096 < b := by omega
  have hkx : x / 4096 < b := by omega
  rw [addr, addr, page_add_inj (h.block _ hkx) (h.block _ hka) (by omega) (by omega)]
  constructor
  · rintro ⟨hp, ho⟩
    have := h.inj _ _ hkx hka hp
    omega
  · rintro rfl
    exact ⟨rfl, rfl⟩

theorem blockPointer_setByte (h : rd.Valid b) (ha : a < b * 4096) {k : Nat} (hk : k < b) :
    (rd.setByte a v).blockPointer (UInt32.ofNat k) = rd.blockPointer (UInt32.ofNat k) := by
  have hle := h.le
  have hs : (rd.setByte a v).slot = rd.slot := rfl
  rw [blockPointer, blockPointer, hs, slot_ofNat]
  refine load32_congr fun c hc => update_of_ne ?_ _ _
  exact (h.addr_ne_table ha (by omega)).symm

theorem addr_setByte (h : rd.Valid b) (ha : a < b * 4096) (hx : x < b * 4096) :
    (rd.setByte a v).addr x = rd.addr x := by
  rw [addr, addr, h.blockPointer_setByte ha (by omega)]

theorem setByte (h : rd.Valid b) (ha : a < b * 4096) : (rd.setByte a v).Valid b where
  size := h.size
  pos := h.pos
  le := h.le
  table := h.table
  block k hk := by
    rw [h.blockPointer_setByte ha hk]
    exact h.block k hk
  inj j k hj hk := by
    rw [h.blockPointer_setByte ha hj, h.blockPointer_setByte ha hk]
    exact h.inj j k hj hk
  not_table k hk := by
    rw [h.blockPointer_setByte ha hk]
    exact h.not_table k hk

theorem byteAt_setByte (h : rd.Valid b) (ha : a < b * 4096) (hx : x < b * 4096) :
    (rd.setByte a v).byteAt x = if x = a then v else rd.byteAt x := by
  rw [byteAt, h.addr_setByte ha hx]
  simp only [Ramdisk.setByte, update_apply, h.addr_inj ha hx]
  rfl

end Valid

end Ramdisk

/-! ## One request -/

open Lib

variable {rd rd' : Ramdisk} {b : Nat} {startAddr dataSize : UInt32} {data : Buffer}

theorem ioBlockNumber_eq {i : Nat} (hi : startAddr.toNat + i < 2 ^ 32) :
    ioBlockNumber startAddr i = UInt32.ofNat ((startAddr.toNat + i) / 4096) := by
  apply UInt32.toNat_inj.mp
  rw [ioBlockNumber, UInt32.toNat_div, UInt32.toNat_add, UInt32.toNat_ofNat', UInt32.toNat_ofNat',
    toNat_physBlockSize]
  omega

theorem Ramdisk.ioAddr_eq {i : Nat} (hi : startAddr.toNat + i < 2 ^ 32) :
    rd.ioAddr startAddr i = rd.addr (startAddr.toNat + i) := by
  have hoff : (startAddr + UInt32.ofNat i) % physBlockSize =
      UInt32.ofNat ((startAddr.toNat + i) % 4096) := by
    apply UInt32.toNat_inj.mp
    rw [UInt32.toNat_mod, UInt32.toNat_add, UInt32.toNat_ofNat', UInt32.toNat_ofNat',
      toNat_physBlockSize]
    omega
  simp only [Ramdisk.ioAddr, ioBlockNumber_eq hi, hoff, Ramdisk.addr]

/-- A request is in bounds, in natural numbers. -/
def InBounds (b : Nat) (startAddr dataSize : UInt32) : Prop :=
  startAddr.toNat + dataSize.toNat ≤ b * 4096

instance : Decidable (InBounds b startAddr dataSize) := inferInstanceAs (Decidable (_ ≤ _))

theorem ramdiskIoLoop_read {n i : Nat} (hi : startAddr.toNat + i + n < 2 ^ 32) :
    ramdiskIoLoop 0 startAddr n i data rd =
      (patch data i n fun j => rd.byteAt (startAddr.toNat + (i + j)), rd) := by
  induction n generalizing i data with
  | zero =>
    rw [ramdiskIoLoop]
    refine Prod.ext (funext ?_) rfl
    intro x
    dsimp only
    rw [patch_of_not_mem (by omega)]
  | succ n ih =>
    rw [ramdiskIoLoop, if_pos rfl, ih (by omega), Ramdisk.ioAddr_eq (by omega)]
    refine Prod.ext (funext ?_) rfl
    intro x
    simp only [patch, update_apply]
    by_cases hx : x = i
    · subst hx
      rw [if_neg (by omega), if_pos rfl, if_pos (by omega)]
      simp [Ramdisk.byteAt]
    · by_cases hin : i + 1 ≤ x ∧ x < i + 1 + n
      · rw [if_pos hin, if_pos (by omega)]
        congr 2
        omega
      · rw [if_neg hin, if_neg hx, if_neg (by omega)]

theorem ramdiskIoLoop_write {n i : Nat} (data : Buffer) (h : rd.Valid b)
    (hi : startAddr.toNat + i + n ≤ b * 4096) :
    ∃ rd', ramdiskIoLoop 1 startAddr n i data rd = (data, rd') ∧ rd'.Valid b ∧
      ∀ x, x < b * 4096 → rd'.byteAt x =
        if startAddr.toNat + i ≤ x ∧ x < startAddr.toNat + i + n then data (x - startAddr.toNat)
        else rd.byteAt x := by
  have hle := h.le
  induction n generalizing i rd with
  | zero => exact ⟨rd, rfl, h, fun x _ => by rw [if_neg (by omega)]⟩
  | succ n ih =>
    have ha : startAddr.toNat + i < b * 4096 := by omega
    obtain ⟨rd', hloop, hv, hbytes⟩ := ih (i := i + 1) (h.setByte ha (v := data i)) (by omega)
    refine ⟨rd', ?_, hv, ?_⟩
    · rw [ramdiskIoLoop, if_neg (by decide), Ramdisk.ioAddr_eq (by omega)]
      exact hloop
    · intro x hx
      rw [hbytes x hx, h.byteAt_setByte ha hx]
      by_cases hxa : x = startAddr.toNat + i
      · subst hxa
        rw [if_neg (by omega), if_pos rfl, if_pos (by omega)]
        congr 1
        omega
      · by_cases hin : startAddr.toNat + (i + 1) ≤ x ∧ x < startAddr.toNat + (i + 1) + n
        · rw [if_pos hin, if_pos (by omega)]
        · rw [if_neg hin, if_neg hxa, if_neg (by omega)]

/-- The two tests together accept exactly the requests that are in bounds without wrapping. -/
theorem ramdiskInternalIo_eq (ioType : UInt32) (h : rd.Valid b) :
    ramdiskInternalIo ioType startAddr data dataSize rd =
      if InBounds b startAddr dataSize then
        .ok (0, ramdiskIoLoop ioType startAddr dataSize.toNat 0 data rd)
      else if startAddr.toNat + dataSize.toNat < 2 ^ 32 then .ok (ramdiskErrorOutOfBounds, data, rd)
      else if (startAddr.toNat + dataSize.toNat) % 2 ^ 32 > b * 4096 then
        .ok (ramdiskErrorOutOfBounds, data, rd)
      else .ok (ramdiskErrorOverflow, data, rd) := by
  have hsz := h.size
  have hpos := h.pos
  have hle := h.le
  have hd := dataSize.toNat_lt
  have h0 : rd.ramdiskBlockSize ≠ 0 := by
    rintro h0
    rw [h0] at hsz
    simp at hsz
    omega
  have h1 : startAddr + dataSize > rd.ramdiskBlockSize * physBlockSize ↔
      (startAddr.toNat + dataSize.toNat) % 2 ^ 32 > b * 4096 := by
    rw [gt_iff_lt, UInt32.lt_iff_toNat_lt, UInt32.toNat_add, UInt32.toNat_mul, hsz,
      toNat_physBlockSize, Nat.mod_eq_of_lt (by omega)]
  have h2 : startAddr > 0xFFFFFFFF - dataSize ↔ 2 ^ 32 ≤ startAddr.toNat + dataSize.toNat := by
    rw [gt_iff_lt, UInt32.lt_iff_toNat_lt, UInt32.toNat_sub_of_le]
    · simp only [UInt32.toNat_ofNat]
      omega
    · rw [UInt32.le_iff_toNat_le]
      simp only [UInt32.toNat_ofNat]
      omega
  unfold ramdiskInternalIo
  rw [if_neg h0]
  simp only [h1, h2, InBounds]
  split_ifs <;> first | rfl | omega

/-- The code is 0 exactly for a request in bounds; any other changes nothing. -/
theorem ramdiskInternalIo_refused (ioType : UInt32) (h : rd.Valid b)
    (hb : ¬ InBounds b startAddr dataSize) :
    ∃ res, res ≠ 0 ∧ ramdiskInternalIo ioType startAddr data dataSize rd = .ok (res, data, rd) := by
  rw [ramdiskInternalIo_eq ioType h, if_neg hb]
  split_ifs
  · exact ⟨_, by decide, rfl⟩
  · exact ⟨_, by decide, rfl⟩
  · exact ⟨_, by decide, rfl⟩

theorem ramdiskRead_eq (h : rd.Valid b) (hb : InBounds b startAddr dataSize) :
    ramdiskRead startAddr data dataSize rd =
      .ok (0, patch data 0 dataSize.toNat fun j => rd.byteAt (startAddr.toNat + j), rd) := by
  have hle := h.le
  have hb' := hb
  unfold InBounds at hb'
  rw [ramdiskRead, ramdiskInternalIo_eq 0 h, if_pos hb, ramdiskIoLoop_read (by omega)]
  simp

/-- A write in bounds changes its range of bytes and no other. -/
theorem ramdiskWrite_spec (data : Buffer) (h : rd.Valid b) (hb : InBounds b startAddr dataSize) :
    ∃ rd', ramdiskWrite startAddr data dataSize rd = .ok (0, data, rd') ∧ rd'.Valid b ∧
      ∀ x, x < b * 4096 → rd'.byteAt x = patch rd.byteAt startAddr.toNat dataSize.toNat data x := by
  have hb' := hb
  unfold InBounds at hb'
  obtain ⟨rd', hloop, hv, hbytes⟩ :=
    ramdiskIoLoop_write data (n := dataSize.toNat) (i := 0) h (by omega)
  refine ⟨rd', ?_, hv, hbytes⟩
  rw [ramdiskWrite, ramdiskInternalIo_eq 1 h, if_pos hb, hloop]

/-! ## Initialisation -/

section Init

variable {σ : Type} {pmemAlloc : σ → Kern (UInt32 × σ)} {s t t' : σ} {ps : List UInt32}

/-- The first `ps.length` slots of the pointer table hold `ps`. -/
def Ramdisk.Holds (rd : Ramdisk) (ps : List UInt32) : Prop :=
  ∀ k (hk : k < ps.length), rd.blockPointer (UInt32.ofNat k) = ps[k]

/-- A page stored in the next free slot leaves the slots before it as they are. -/
theorem Ramdisk.Holds.snoc {page : UInt32} (h : rd.Holds ps)
    (ht : PageAligned rd.ramdiskBlockPointers) (hlen : ps.length < 1024) :
    Ramdisk.Holds { rd with mem := rd.mem.store32 (rd.slot (UInt32.ofNat ps.length)) page }
      (ps ++ [page]) := by
  intro k hk
  rw [List.length_append, List.length_singleton] at hk
  rw [Ramdisk.blockPointer, Ramdisk.slot_ofNat, Ramdisk.slot_ofNat]
  dsimp only
  by_cases hlast : k = ps.length
  · subst hlast
    rw [load32_store32_same ht (by omega)]
    simp
  · rw [List.getElem_append_left (by omega), ← h k (by omega), Ramdisk.blockPointer,
      Ramdisk.slot_ofNat]
    apply load32_congr
    intro c hc
    rw [store32_apply ht ht (by omega) (by omega), if_neg (by omega)]

/-- The loop stores the pages it is given, one after the other. -/
theorem ramdiskInitLoop_spec {table : UInt32} {n i : Nat} (ht : PageAligned table)
    (h : ramdiskInitLoop pmemAlloc n i rd t = .ok (rd', t'))
    (hs : Allocs pmemAlloc s (table :: ps) t) (hi : ps.length = i) (hn : i + n ≤ 1024)
    (htable : rd.ramdiskBlockPointers = table) (hps : rd.Holds ps) :
    ∃ ps', Allocs pmemAlloc s (table :: ps') t' ∧ ps'.length = i + n ∧
      rd'.ramdiskBlockPointers = table ∧ rd'.ramdiskBlockSize = rd.ramdiskBlockSize ∧
      rd'.Holds ps' := by
  induction n generalizing i ps rd t with
  | zero =>
    obtain ⟨rfl, rfl⟩ := Prod.mk.inj (Except.ok.inj h)
    exact ⟨ps, hs, hi, htable, rfl, hps⟩
  | succ n ih =>
    obtain ⟨⟨page, u⟩, hpage, hloop⟩ := bind_eq_ok.mp h
    subst hi
    have htable' : PageAligned rd.ramdiskBlockPointers := by rwa [htable]
    obtain ⟨ps', hs', hlen, hrest⟩ := ih hloop (hs.snoc hpage) List.length_append (by omega) htable
      (hps.snoc htable' (by omega))
    exact ⟨ps', hs', by omega, hrest⟩

theorem toNat_ramdiskBlocks (hb' : b ≤ 1024) :
    (UInt32.ofNat (b * 4096) / physBlockSize).toNat = b := by
  rw [UInt32.toNat_div, UInt32.toNat_ofNat', toNat_physBlockSize]
  omega

/-- The size of 1 to 1024 blocks passes every check. -/
theorem ramdiskSize_accepted (hb : 1 ≤ b) (hb' : b ≤ 1024) :
    UInt32.ofNat (b * 4096) ≠ 0 ∧ ¬ UInt32.ofNat (b * 4096) % physBlockSize ≠ 0 ∧
      ¬ UInt32.ofNat (b * 4096) / physBlockSize > physBlockSize / 4 := by
  have hbytes : (UInt32.ofNat (b * 4096)).toNat = b * 4096 := by
    rw [UInt32.toNat_ofNat']
    omega
  refine ⟨?_, ?_, ?_⟩
  · intro h0
    rw [h0, UInt32.toNat_zero] at hbytes
    omega
  · rw [not_not]
    apply UInt32.toNat_inj.mp
    rw [UInt32.toNat_mod, hbytes, toNat_physBlockSize, UInt32.toNat_zero]
    omega
  · rw [gt_iff_lt, UInt32.lt_iff_toNat_lt, toNat_ramdiskBlocks hb']
    exact Nat.not_lt.mpr hb'

/-- With a page for each block it returns; it stores in the table's page only. -/
theorem ramdiskInitLoop_of_allocs {qs : List UInt32} (ht : PageAligned rd.ramdiskBlockPointers)
    (hps : rd.Holds ps) (hqs : Allocs pmemAlloc t qs t') (hn : ps.length + qs.length ≤ 1024) :
    ∃ rd', ramdiskInitLoop pmemAlloc qs.length ps.length rd t = .ok (rd', t') ∧
      rd'.Holds (ps ++ qs) ∧
      ∀ x, (∀ o, o < 4096 → x ≠ rd.ramdiskBlockPointers + UInt32.ofNat o) →
        rd'.mem x = rd.mem x := by
  induction qs generalizing ps rd t with
  | nil =>
    obtain rfl := hqs.nil_eq
    exact ⟨rd, rfl, by rwa [List.append_nil], fun _ _ => rfl⟩
  | cons q qs ih =>
    obtain ⟨u, hq, hqs⟩ := hqs.uncons
    rw [List.length_cons] at hn
    have hsnoc := @Ramdisk.Holds.snoc _ _ q hps ht (by omega)
    obtain ⟨rd', hloop, hholds, hmem⟩ :=
      @ih { rd with mem := rd.mem.store32 (rd.slot (UInt32.ofNat ps.length)) q } u (ps ++ [q]) ht
        hsnoc hqs (by rw [List.length_append, List.length_singleton]; omega)
    refine ⟨rd', ?_, by rwa [List.append_assoc] at hholds, ?_⟩
    · rw [List.length_append] at hloop
      rw [List.length_cons, ramdiskInitLoop, hq]
      exact hloop
    · intro x hx
      rw [hmem x hx]
      show rd.mem.store32 (rd.slot (UInt32.ofNat ps.length)) q x = rd.mem x
      rw [Ramdisk.slot_ofNat]
      exact store32_of_ne fun c hc => hx _ (by omega)

/-- The disk made of the pages `ps` has the bytes that were on them. -/
theorem ramdiskInit_of_allocs {table : UInt32} (hfresh : FreshPages pmemAlloc s)
    (hps : Allocs pmemAlloc s (table :: ps) t) (hlen : ps.length = b) (hb : 1 ≤ b) (hb' : b ≤ 1024)
    (m : Mem) :
    ∃ rd', ramdiskInit pmemAlloc (UInt32.ofNat (b * 4096)) ⟨m, 0, 0⟩ s = .ok (rd', t) ∧
      ∀ x (hx : x / 4096 < ps.length),
        rd'.byteAt x = m (ps[x / 4096] + UInt32.ofNat (x % 4096)) := by
  subst hlen
  have hsize := toNat_ramdiskBlocks hb'
  obtain ⟨h0, hmod, hbig⟩ := ramdiskSize_accepted hb hb'
  have hnd := List.nodup_cons.mp (hfresh.nodup _ _ hps)
  have hpages := hfresh.aligned _ _ hps
  have ht : PageAligned table := hpages table (List.mem_cons_self ..)
  obtain ⟨u, htable, hrest⟩ := hps.uncons
  obtain ⟨rd', hloop, hholds, hmem⟩ := @ramdiskInitLoop_of_allocs
    ⟨m, UInt32.ofNat (ps.length * 4096) / physBlockSize, table⟩ _ pmemAlloc u t [] ps ht
    (by simp [Ramdisk.Holds]) hrest (by rw [List.length_nil]; omega)
  refine ⟨rd', ?_, ?_⟩
  · unfold ramdiskInit
    rw [if_neg h0, if_neg hmod]
    dsimp only
    rw [if_neg (by decide), if_neg (by decide), if_neg hbig, htable, ok_bind]
    dsimp only
    rw [hsize]
    exact hloop
  · intro x hx
    have hmemx := List.getElem_mem hx
    rw [Ramdisk.byteAt, Ramdisk.addr, hholds _ (by simpa using hx)]
    apply hmem
    intro o ho heq
    have hpage := hpages _ (List.mem_cons_of_mem _ hmemx)
    have hsame := ((page_add_inj hpage ht (by omega) ho).mp heq).1
    exact hnd.1 (hsame ▸ hmemx)

/-- **Initialisation.** Fresh pages make a valid disk. -/
theorem ramdiskInit_valid (hfresh : FreshPages pmemAlloc s) (hb : 1 ≤ b) (hb' : b ≤ 1024)
    (h : ramdiskInit pmemAlloc (UInt32.ofNat (b * 4096)) rd s = .ok (rd', t)) : rd'.Valid b := by
  have hsize := toNat_ramdiskBlocks hb'
  unfold ramdiskInit at h
  dsimp only at h
  split_ifs at h
  iterate 5 exact absurd h (panic_ne_ok _ _)
  obtain ⟨⟨table, u⟩, htable, hloop⟩ := bind_eq_ok.mp h
  have hs : Allocs pmemAlloc s [table] u := Allocs.nil.snoc htable
  have ht : PageAligned table := hfresh.aligned _ _ hs table (by simp)
  rw [hsize] at hloop
  obtain ⟨ps, hps, hlen, hpt, hbs, hholds⟩ := ramdiskInitLoop_spec ht hloop hs
    List.length_nil (by omega) rfl (by simp [Ramdisk.Holds])
  have hnd := List.nodup_cons.mp (hfresh.nodup _ _ hps)
  have hblock : ∀ k (hk : k < b), rd'.blockPointer (UInt32.ofNat k) = ps[k] :=
    fun k hk => hholds k (by omega)
  refine ⟨by rw [hbs, hsize], hb, hb', by rwa [hpt], ?_, ?_, ?_⟩
  · intro k hk
    rw [hblock k hk]
    exact hfresh.aligned _ _ hps _ (List.mem_cons_of_mem _ (List.getElem_mem _))
  · intro j k hj hk heq
    rw [hblock j hj, hblock k hk] at heq
    exact (hnd.2.getElem_inj_iff).mp heq
  · intro k hk heq
    rw [hblock k hk, hpt] at heq
    exact hnd.1 (heq ▸ List.getElem_mem _)

end Init

end KoizOs
