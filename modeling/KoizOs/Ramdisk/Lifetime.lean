import KoizOs.Memory.Initialize
import KoizOs.Memory.Supply
import KoizOs.Ramdisk.Flat

/-!
# The life of a ramdisk

Here the ramdisk, its pointer table and the records of the page pool share one memory:
that of `pm`.  A pool that lies well in a region (`Pmem.Apart`) has its records away from
its pages, so the stores of a ramdisk reach neither the records nor, within the disk, the
pointer table.  `RamSys.ramdiskInit` does there what `ramdiskInit` does beside the pool
(`ramdiskInit_joined`).

`RamdiskLifetime sys b`: a ramdisk of `b` blocks can be made, serves any requests, owns
`b + 1` pages that were free, and gives them back.

| result | content |
|--------|---------|
| `Owned.serve` | requests keep the table and the records |
| `destroyLoop_returns` | the blocks are given back, the first one first |
| `ramdisk_lifetime` | a lifetime is right in a pool that ends below 4 GiB |
-/

namespace KoizOs

open Function Lib

structure RamSys where
  pm : Pmem
  ramdiskBlockSize : UInt32
  ramdiskBlockPointers : UInt32

/-! ## Algorithm -/

namespace RamSys

def rd (sys : RamSys) : Ramdisk := ⟨sys.pm.mem, sys.ramdiskBlockSize, sys.ramdiskBlockPointers⟩

def setRd (sys : RamSys) (rd : Ramdisk) : RamSys :=
  ⟨{ sys.pm with mem := rd.mem }, rd.ramdiskBlockSize, rd.ramdiskBlockPointers⟩

/-- `*(ramdisk_block_pointers + i) = page` -/
def setSlot (sys : RamSys) (i : Nat) (page : UInt32) : RamSys :=
  sys.setRd { sys.rd with mem := sys.pm.mem.store32 (sys.rd.slot (UInt32.ofNat i)) page }

/-- `n` blocks are left to allocate, the next one is `i`. -/
def initLoop : (n i : Nat) → RamSys → Kern RamSys
  | 0, _, sys => .ok sys
  | n + 1, i, sys => do
    let (page, pm) ← pmemAlloc sys.pm
    initLoop n (i + 1) ({ sys with pm := pm }.setSlot i page)

def ramdiskInit (sizeInBytes : UInt32) (sys : RamSys) : Kern RamSys :=
  if sizeInBytes = 0 then panic "init_disk_ramdisk: size_in_bytes cannot be zero!"
  else if sizeInBytes % physBlockSize ≠ 0 then
    panic "init_disk_ramdisk: size_in_bytes needs to divide block size!"
  else if sys.ramdiskBlockSize > 0 then panic "init_disk_ramdisk: ramdisk already initialized!"
  else if sys.ramdiskBlockPointers > 0 then
    panic "init_disk_ramdisk: ramdisk_block_pointers already set!"
  else
    let sys := { sys with ramdiskBlockSize := sizeInBytes / physBlockSize }
    if sys.ramdiskBlockSize > physBlockSize / 4 then panic "Cannot create that big of a ramdisk!"
    else do
      let (table, pm) ← pmemAlloc sys.pm
      let sys := { sys with pm := pm, ramdiskBlockPointers := table }
      initLoop sys.ramdiskBlockSize.toNat 0 sys

/-- `n` blocks are left to free, the next one is `i`. -/
def destroyLoop : (n i : Nat) → RamSys → Kern RamSys
  | 0, _, sys => .ok sys
  | n + 1, i, sys => do
    let (_, pm) ← pmemFree sys.pm (sys.rd.blockPointer (UInt32.ofNat i))
    destroyLoop n (i + 1) { sys with pm := pm }

def ramdiskDestroy (sys : RamSys) : Kern RamSys :=
  if sys.ramdiskBlockSize = 0 then panic "init_disk_ramdisk: ramDisk is not initialized!"
  else if sys.ramdiskBlockPointers = 0 then
    panic "init_disk_ramdisk: ramdisk_block_pointers is already unset!"
  else do
    let sys ← destroyLoop sys.ramdiskBlockSize.toNat 0 sys
    let (_, pm) ← pmemFree sys.pm sys.ramdiskBlockPointers
    return ⟨pm, 0, 0⟩

end RamSys

/-- A call of `ramdisk_read` or `ramdisk_write`. -/
structure IoRequest where
  ioType : IoType
  startAddr : UInt32
  dataSize : UInt32
  data : Buffer

def RamSys.serve : List IoRequest → RamSys → Kern RamSys
  | [], sys => .ok sys
  | r :: rs, sys => do
    let (_, _, rd) ← sys.rd.io r.ioType r.startAddr r.dataSize r.data
    RamSys.serve rs (sys.setRd rd)

/-! ## What a lifetime is -/

/-- The pointer table and the blocks. -/
def RamSys.pages (sys : RamSys) : List UInt32 :=
  sys.ramdiskBlockPointers ::
    (List.range sys.ramdiskBlockSize.toNat).map fun k => sys.rd.blockPointer (UInt32.ofNat k)

/-- The disk owns `b + 1` pages that were free in `pm`, and no other page is taken since. -/
structure RamSys.Owns (sys : RamSys) (pm : Pmem) (b : Nat) : Prop where
  length : sys.pages.length = b + 1
  nodup : sys.pages.Nodup
  free : ∀ p ∈ sys.pages, pm.Free p
  allocated : ∀ p, sys.pm.Allocated p ↔ pm.Allocated p ∨ p ∈ sys.pages

/-- A ramdisk of `b` blocks from its making to its end, and a second one made after it. -/
def RamdiskLifetime (sys : RamSys) (b : Nat) : Prop :=
  ∃ sys₁, sys.ramdiskInit (UInt32.ofNat (b * 4096)) = .ok sys₁ ∧
    ∀ rs, ∃ sys₂, sys₁.serve rs = .ok sys₂ ∧ sys₂.Owns sys.pm b ∧
      ∃ sys₃, sys₂.ramdiskDestroy = .ok sys₃ ∧
        (∀ p, sys₃.pm.Allocated p ↔ sys.pm.Allocated p) ∧
        sys₃.ramdiskBlockSize = 0 ∧ sys₃.ramdiskBlockPointers = 0 ∧
        ∃ sys₄, sys₃.ramdiskInit (UInt32.ofNat (b * 4096)) = .ok sys₄

/-! ## Requests change bytes of the disk only -/

/-- `rd'` differs from `rd` in bytes of the disk at most. -/
structure Ramdisk.Frame (b : Nat) (rd rd' : Ramdisk) : Prop where
  size : rd'.ramdiskBlockSize = rd.ramdiskBlockSize
  pointers : rd'.ramdiskBlockPointers = rd.ramdiskBlockPointers
  mem : ∀ x, (∀ a, a < b * 4096 → x ≠ rd.addr a) → rd'.mem x = rd.mem x

variable {rd rd' : Ramdisk} {b : Nat} {startAddr dataSize : UInt32} {data data' : Buffer}

theorem ramdiskIoLoop_frame {n i : Nat} (ioType : UInt32) (data : Buffer) (h : rd.Valid b)
    (hi : startAddr.toNat + i + n ≤ b * 4096) :
    rd.Frame b (ramdiskIoLoop ioType startAddr n i data rd).2 := by
  have hle := h.le
  induction n generalizing i rd data with
  | zero => exact ⟨rfl, rfl, fun _ _ => rfl⟩
  | succ n ih =>
    unfold ramdiskIoLoop
    split
    · exact ih _ h (by omega)
    · rw [Ramdisk.ioAddr_eq (by omega)]
      have ha : startAddr.toNat + i < b * 4096 := by omega
      obtain ⟨hsize, hpointers, hmem⟩ :=
        ih data (i := i + 1) (h.setByte ha (v := data i)) (by omega)
      refine ⟨hsize, hpointers, ?_⟩
      intro x hx
      have hx' : ∀ a, a < b * 4096 → x ≠ (rd.setByte (startAddr.toNat + i) (data i)).addr a := by
        intro a hab
        rw [h.addr_setByte ha hab]
        exact hx a hab
      exact (hmem x hx').trans (update_of_ne (hx _ ha) _ _)

theorem ramdiskIo_frame {ioType : IoType} {res : Int} (h : rd.Valid b)
    (hio : rd.io ioType startAddr dataSize data = .ok (res, data', rd')) : rd.Frame b rd' := by
  obtain ⟨t, ht⟩ : ∃ t, rd.io ioType startAddr dataSize data =
      ramdiskInternalIo t startAddr data dataSize rd := by
    cases ioType with
    | read => exact ⟨0, rfl⟩
    | write => exact ⟨1, rfl⟩
  rw [ht] at hio
  by_cases hb : InBounds b startAddr dataSize
  · rw [ramdiskInternalIo_eq t h, if_pos hb] at hio
    have hout := (Prod.mk.inj (Except.ok.inj hio)).2
    have hframe := ramdiskIoLoop_frame t data h
      (show startAddr.toNat + 0 + dataSize.toNat ≤ b * 4096 from hb)
    rwa [hout] at hframe
  · obtain ⟨res', -, heq⟩ := ramdiskInternalIo_refused t h hb
    rw [heq] at hio
    obtain ⟨-, hout⟩ := Prod.mk.inj (Except.ok.inj hio)
    obtain ⟨-, rfl⟩ := Prod.mk.inj hout
    exact ⟨rfl, rfl, fun _ _ => rfl⟩

/-- The slots of the table are the same as long as its page is left alone. -/
theorem Ramdisk.blockPointer_congr {k : Nat} (hk : k < 1024)
    (hp : rd'.ramdiskBlockPointers = rd.ramdiskBlockPointers)
    (hm : ∀ o, o < 4096 → rd'.mem (rd.ramdiskBlockPointers + UInt32.ofNat o) =
      rd.mem (rd.ramdiskBlockPointers + UInt32.ofNat o)) :
    rd'.blockPointer (UInt32.ofNat k) = rd.blockPointer (UInt32.ofNat k) := by
  rw [Ramdisk.blockPointer, Ramdisk.blockPointer, Ramdisk.slot_ofNat, Ramdisk.slot_ofNat, hp]
  apply load32_congr
  intro c hc
  exact hm _ (by omega)

theorem Ramdisk.Holds.congr {ps : List UInt32} (h : rd.Holds ps)
    (hp : rd'.ramdiskBlockPointers = rd.ramdiskBlockPointers) (hlen : ps.length ≤ 1024)
    (hm : ∀ o, o < 4096 → rd'.mem (rd.ramdiskBlockPointers + UInt32.ofNat o) =
      rd.mem (rd.ramdiskBlockPointers + UInt32.ofNat o)) : rd'.Holds ps := by
  intro k hk
  rw [Ramdisk.blockPointer_congr (by omega) hp hm]
  exact h k hk

/-! ## Making the disk -/

/-- The table on the page of record `t`, and in it the pages of the records `es`; these
pages are taken in addition to those taken in `pm0`. -/
structure RamSys.Owned (pm0 : Pmem) (sys : RamSys) (t : UInt32) (es : List UInt32) : Prop where
  taken : Taken pm0 sys.pm (t :: es)
  table : sys.ramdiskBlockPointers = pm0.pageAddr t
  blocks : sys.rd.Holds (es.map pm0.pageAddr)
  le : es.length ≤ 1024

namespace RamSys

variable {sys sys' : RamSys} {pm0 : Pmem} {t : UInt32} {es : List UInt32}

theorem Owned.table_lt (h : sys.Owned pm0 t es) : t < pm0.pmemMgrReservedSize :=
  (h.taken.free t (List.mem_cons_self ..)).1

theorem Owned.block_lt (h : sys.Owned pm0 t es) {e : UInt32} (he : e ∈ es) :
    e < pm0.pmemMgrReservedSize := (h.taken.free e (List.mem_cons_of_mem _ he)).1

/-- One more block: the next page, and its address in the next slot. -/
theorem Owned.grow (h : sys.Owned pm0 t es) (ha : pm0.Apart) (hlen : es.length < 1024)
    (hcur : sys.pm.pmemCurrAllocRecord ∈ t :: es) (hfree : es.length + 1 < pm0.freePages) :
    ∃ page pm e, pmemAlloc sys.pm = .ok (page, pm) ∧
      ({ sys with pm := pm }.setSlot es.length page).Owned pm0 t (es ++ [e]) ∧
      pm.pmemCurrAllocRecord = e := by
  obtain ⟨page, pm, halloc⟩ := h.taken.returns hfree (.inl hcur)
  obtain ⟨e, rfl, hce, htaken, hmem⟩ := h.taken.alloc halloc
  have ht := h.table_lt
  have he := (htaken.free e (List.mem_cons_self ..)).1
  have haligned : PageAligned sys.ramdiskBlockPointers := h.table ▸ ha.pageAddr_aligned t
  refine ⟨_, pm, e, halloc, ⟨?_, h.table, ?_, ?_⟩, hce⟩
  · apply Taken.perm _ (List.perm_append_singleton e (t :: es)).symm
    apply htaken.store
    intro f hf
    show pm.mem.store32 (Ramdisk.slot _ _) _ _ = _
    rw [Ramdisk.slot_ofNat]
    apply store32_of_ne
    intro c hc
    have hne := htaken.recordPtr_ne ha (htaken.layout.size ▸ hf) ht
      (show 4 * es.length + c < 4096 by omega)
    rwa [← h.table] at hne
  · have hholds : Ramdisk.Holds { sys with pm := pm }.rd (es.map pm0.pageAddr) := by
      refine Ramdisk.Holds.congr h.blocks rfl (by rw [List.length_map]; omega) ?_
      intro o ho
      apply hmem
      have hne := h.taken.recordPtr_ne ha he ht ho
      rw [← h.table] at hne
      exact hne.symm
    have hsnoc := @Ramdisk.Holds.snoc _ _ (pm0.pageAddr e) hholds haligned
      (by rwa [List.length_map])
    rw [List.length_map] at hsnoc
    rw [List.map_append]
    exact hsnoc
  · rw [List.length_append, List.length_singleton]
    omega

theorem initLoop_returns {n i : Nat} (h : sys.Owned pm0 t es) (ha : pm0.Apart)
    (hcur : sys.pm.pmemCurrAllocRecord ∈ t :: es) (hi : es.length = i) (hn : i + n ≤ 1024)
    (hfree : i + n + 1 ≤ pm0.freePages) :
    ∃ sys' es', initLoop n i sys = .ok sys' ∧ sys'.Owned pm0 t es' ∧ es'.length = i + n ∧
      sys'.ramdiskBlockSize = sys.ramdiskBlockSize := by
  induction n generalizing i es sys with
  | zero => exact ⟨sys, es, rfl, h, hi, rfl⟩
  | succ n ih =>
    subst hi
    obtain ⟨page, pm, e, halloc, hgrow, hce⟩ := h.grow ha (by omega) hcur (by omega)
    have hcur' : pm.pmemCurrAllocRecord ∈ t :: (es ++ [e]) := by
      rw [hce]
      simp
    obtain ⟨sys', es', hloop, howned, hlen, hsize⟩ :=
      ih (i := es.length + 1) hgrow hcur' List.length_append (by omega) (by omega)
    refine ⟨sys', es', ?_, howned, by omega, hsize⟩
    unfold initLoop
    rw [halloc]
    exact hloop

/-- With `b + 1` free pages the disk is made. -/
theorem ramdiskInit_returns (hi : sys.pm.Initialised) (ha : sys.pm.Apart)
    (hsize : sys.ramdiskBlockSize = 0) (hpointers : sys.ramdiskBlockPointers = 0) (hb : 1 ≤ b)
    (hb' : b ≤ 1024) (hfree : b + 1 ≤ sys.pm.freePages) :
    ∃ sys' t es, sys.ramdiskInit (UInt32.ofNat (b * 4096)) = .ok sys' ∧
      sys'.Owned sys.pm t es ∧ es.length = b ∧ sys'.ramdiskBlockSize.toNat = b := by
  have hblocks := toNat_ramdiskBlocks hb'
  obtain ⟨h0, hmod, hbig⟩ := ramdiskSize_accepted hb hb'
  have htaken := Taken.start hi
  obtain ⟨table, pm, halloc⟩ := htaken.returns (by simp; omega) (.inr (by simp; omega))
  obtain ⟨t, rfl, hct, htaken, -⟩ := htaken.alloc halloc
  have howned : Owned sys.pm ⟨pm, UInt32.ofNat (b * 4096) / physBlockSize, sys.pm.pageAddr t⟩
      t [] :=
    ⟨htaken, rfl, by simp [Ramdisk.Holds], by simp⟩
  obtain ⟨sys', es, hloop, howned', hlen, hsize'⟩ := initLoop_returns (n := b) howned ha
    (by simp [hct]) List.length_nil (by omega) (by omega)
  refine ⟨sys', t, es, ?_, howned', by omega, ?_⟩
  · unfold ramdiskInit
    rw [if_neg h0, if_neg hmod, hsize, hpointers, if_neg (by decide), if_neg (by decide)]
    dsimp only
    rw [if_neg hbig, halloc, ok_bind]
    dsimp only
    rw [hblocks]
    exact hloop
  · rw [hsize']
    exact hblocks

/-! ## Using it -/

theorem Owned.valid (h : sys.Owned pm0 t es) (ha : pm0.Apart) (hlen : es.length = b)
    (hsize : sys.ramdiskBlockSize.toNat = b) (hb : 1 ≤ b) : sys.rd.Valid b := by
  have hle := h.le
  have hblock : ∀ k (hk : k < es.length),
      sys.rd.blockPointer (UInt32.ofNat k) = pm0.pageAddr es[k] := by
    intro k hk
    rw [h.blocks k (by rwa [List.length_map]), List.getElem_map]
  have hnd := List.nodup_cons.mp h.taken.nodup
  subst hlen
  refine ⟨hsize, hb, hle, ?_, ?_, ?_, ?_⟩
  · show PageAligned sys.ramdiskBlockPointers
    rw [h.table]
    exact ha.pageAddr_aligned t
  · intro k hk
    rw [hblock k hk]
    exact ha.pageAddr_aligned _
  · intro j k hj hk heq
    rw [hblock j hj, hblock k hk] at heq
    exact hnd.2.getElem_inj_iff.mp (h.taken.pageAddr_inj (by simp) (by simp) heq)
  · intro k hk heq
    have heq' : pm0.pageAddr es[k] = pm0.pageAddr t := by
      rw [← hblock k hk, ← h.table]
      exact heq
    have := h.taken.pageAddr_inj (by simp) (by simp) heq'
    exact hnd.1 (this ▸ List.getElem_mem hk)

/-- A request keeps the table and the records: it only reaches bytes of the disk. -/
theorem Owned.io (h : sys.Owned pm0 t es) (ha : pm0.Apart) (hlen : es.length = b)
    (hsize : sys.ramdiskBlockSize.toNat = b) (hb : 1 ≤ b) (r : IoRequest) :
    ∃ res data' rd', sys.rd.io r.ioType r.startAddr r.dataSize r.data = .ok (res, data', rd') ∧
      (sys.setRd rd').Owned pm0 t es ∧ rd'.ramdiskBlockSize = sys.ramdiskBlockSize := by
  have hv := h.valid ha hlen hsize hb
  obtain ⟨res, data', rd', hio, -, -⟩ := ramdiskIo_total hv r.ioType r.startAddr r.dataSize r.data
  have hframe := ramdiskIo_frame hv hio
  refine ⟨res, data', rd', hio, ?_, hframe.size⟩
  subst hlen
  have hblock : ∀ a, a < es.length * 4096 → ∃ e, e < pm0.pmemMgrReservedSize ∧
      sys.rd.addr a = pm0.pageAddr e + UInt32.ofNat (a % 4096) := by
    intro a hab
    have hk : a / 4096 < es.length := by omega
    refine ⟨es[a / 4096], h.block_lt (List.getElem_mem hk), ?_⟩
    rw [Ramdisk.addr, h.blocks _ (by rwa [List.length_map]), List.getElem_map]
  refine ⟨?_, hframe.pointers.trans h.table, ?_, h.le⟩
  · apply h.taken.store
    intro f hf
    apply hframe.mem
    intro a hab
    obtain ⟨e, he, haddr⟩ := hblock a hab
    rw [haddr]
    exact h.taken.recordPtr_ne ha (h.taken.layout.size ▸ hf) he (by omega)
  · refine Ramdisk.Holds.congr h.blocks hframe.pointers (by rw [List.length_map]; exact h.le) ?_
    intro o ho
    apply hframe.mem
    intro a hab heq
    exact hv.addr_ne_table hab ho heq.symm

theorem Owned.serve (h : sys.Owned pm0 t es) (ha : pm0.Apart) (hlen : es.length = b)
    (hsize : sys.ramdiskBlockSize.toNat = b) (hb : 1 ≤ b) (rs : List IoRequest) :
    ∃ sys', serve rs sys = .ok sys' ∧ sys'.Owned pm0 t es ∧ sys'.ramdiskBlockSize.toNat = b := by
  induction rs generalizing sys with
  | nil => exact ⟨sys, rfl, h, hsize⟩
  | cons r rs ih =>
    obtain ⟨res, data', rd', hio, howned, hsize'⟩ := h.io ha hlen hsize hb r
    obtain ⟨sys', hserve, hrest⟩ := ih howned ((congrArg UInt32.toNat hsize').trans hsize)
    refine ⟨sys', ?_, hrest⟩
    unfold RamSys.serve
    rw [hio]
    exact hserve

theorem Owned.pages_eq (h : sys.Owned pm0 t es) (hsize : sys.ramdiskBlockSize.toNat = es.length) :
    sys.pages = (t :: es).map pm0.pageAddr := by
  rw [pages, hsize, h.table, List.map_cons]
  congr 1
  apply List.ext_getElem
  · simp
  · intro k hk hk'
    rw [List.getElem_map, List.getElem_range]
    exact h.blocks k hk'

theorem Owned.owns (h : sys.Owned pm0 t es) (hlen : es.length = b)
    (hsize : sys.ramdiskBlockSize.toNat = b) : sys.Owns pm0 b := by
  subst hlen
  have hpages := h.pages_eq hsize
  refine ⟨?_, ?_, ?_, ?_⟩
  · rw [hpages, List.length_map, List.length_cons]
  · rw [hpages]
    apply List.Nodup.map_on _ h.taken.nodup
    exact fun e he f hf heq => h.taken.pageAddr_inj he hf heq
  · intro p hp
    rw [hpages] at hp
    obtain ⟨e, he, rfl⟩ := List.mem_map.mp hp
    obtain ⟨helt, hr⟩ := h.taken.free e he
    exact ⟨e, helt, rfl, hr⟩
  · intro p
    rw [hpages]
    exact h.taken.allocated_iff

/-! ## Giving it back -/

/-- The blocks `rest` are still to be given back; clearing their records leaves the table. -/
theorem destroyLoop_returns {rest : List UInt32} {i : Nat} (htaken : Taken pm0 sys.pm (t :: rest))
    (ha : pm0.Apart) (htable : sys.ramdiskBlockPointers = pm0.pageAddr t)
    (hend : pm0.pmemAllocStart.toNat + pm0.pmemMainMemoryLength.toNat < 2 ^ 32)
    (hi : i + rest.length ≤ 1024)
    (hslots : ∀ k (hk : k < rest.length),
      sys.rd.blockPointer (UInt32.ofNat (i + k)) = pm0.pageAddr rest[k]) :
    ∃ pm, destroyLoop rest.length i sys = .ok { sys with pm := pm } ∧ Taken pm0 pm [t] := by
  induction rest generalizing i sys with
  | nil => exact ⟨sys.pm, rfl, htaken⟩
  | cons e rest ih =>
    rw [List.length_cons] at hi
    have hte : t ≠ e := by
      intro heq
      exact (List.nodup_cons.mp htaken.nodup).1 (heq ▸ List.mem_cons_self ..)
    have ht := (htaken.free t (by simp)).1
    have he := (htaken.free e (by simp)).1
    obtain ⟨res, hfree, hgive⟩ := htaken.give (show e ∈ t :: e :: rest by simp) hend
    rw [List.erase_cons_tail (by simpa using hte), List.erase_cons_head] at hgive
    have hslot : sys.rd.blockPointer (UInt32.ofNat i) = pm0.pageAddr e :=
      hslots 0 (Nat.zero_lt_succ _)
    have hmem : ∀ o, o < 4096 → (sys.pm.setRecord e 0).mem (pm0.pageAddr t + UInt32.ofNat o) =
        sys.pm.mem (pm0.pageAddr t + UInt32.ofNat o) := by
      intro o ho
      apply update_of_ne
      exact (htaken.recordPtr_ne ha he ht ho).symm
    have hslots' : ∀ k (hk : k < rest.length),
        Ramdisk.blockPointer ⟨(sys.pm.setRecord e 0).mem, sys.ramdiskBlockSize,
          sys.ramdiskBlockPointers⟩ (UInt32.ofNat (i + 1 + k)) = pm0.pageAddr rest[k] := by
      intro k hk
      have hk' := hslots (k + 1) (Nat.succ_lt_succ hk)
      rw [show i + (k + 1) = i + 1 + k by omega, List.getElem_cons_succ] at hk'
      rw [← hk']
      refine Ramdisk.blockPointer_congr ?_ rfl ?_
      · omega
      · show ∀ o, o < 4096 → (sys.pm.setRecord e 0).mem (sys.ramdiskBlockPointers + _) =
          sys.pm.mem (sys.ramdiskBlockPointers + _)
        rw [htable]
        exact hmem
    obtain ⟨pm, hloop, hrest⟩ := @ih { sys with pm := sys.pm.setRecord e 0 } (i + 1) hgive htable
      (by omega) hslots'
    refine ⟨pm, ?_, hrest⟩
    rw [List.length_cons, destroyLoop, hslot, hfree]
    exact hloop

theorem Owned.destroy (h : sys.Owned pm0 t es) (ha : pm0.Apart) (hlen : es.length = b)
    (hsize : sys.ramdiskBlockSize.toNat = b) (hb : 1 ≤ b)
    (hend : pm0.pmemAllocStart.toNat + pm0.pmemMainMemoryLength.toNat < 2 ^ 32) :
    ∃ pm, sys.ramdiskDestroy = .ok ⟨pm, 0, 0⟩ ∧ Taken pm0 pm [] := by
  subst hlen
  have hslots : ∀ k (hk : k < es.length),
      sys.rd.blockPointer (UInt32.ofNat (0 + k)) = pm0.pageAddr es[k] := by
    intro k hk
    rw [Nat.zero_add, h.blocks k (by rwa [List.length_map]), List.getElem_map]
  obtain ⟨pm, hloop, htaken⟩ := destroyLoop_returns h.taken ha h.table hend
    (by have := h.le; omega) hslots
  obtain ⟨res, hfree, hgive⟩ := htaken.give (List.mem_cons_self ..) hend
  rw [List.erase_cons_head] at hgive
  have h0 : sys.ramdiskBlockSize ≠ 0 := by
    intro h0
    rw [h0, UInt32.toNat_zero] at hsize
    omega
  have hpointers : sys.ramdiskBlockPointers ≠ 0 := by
    rw [h.table]
    exact ha.pageAddr_ne_zero h.table_lt
  refine ⟨_, ?_, hgive⟩
  unfold ramdiskDestroy
  rw [if_neg h0, if_neg hpointers, hsize, hloop, ok_bind]
  dsimp only
  rw [h.table, hfree]
  rfl

/-! ## Where freeing is refused -/

theorem destroyLoop_layout {n i : Nat} (h : destroyLoop n i sys = .ok sys') :
    sys.pm.SameLayout sys'.pm := by
  induction n generalizing i sys with
  | zero =>
    obtain rfl := Except.ok.inj h
    exact .refl sys.pm
  | succ n ih =>
    obtain ⟨⟨res, pm⟩, hfree, hloop⟩ := bind_eq_ok.mp h
    obtain ⟨m, rfl⟩ := pmemFree_mem hfree
    exact (Pmem.SameLayout.store sys.pm m).trans (ih hloop)

theorem ramdiskDestroy_end (h : sys.ramdiskDestroy = .ok sys') :
    sys.pm.pmemAllocStart.toNat + sys.pm.pmemMainMemoryLength.toNat < 2 ^ 32 := by
  unfold ramdiskDestroy at h
  split_ifs at h
  · exact absurd h (panic_ne_ok _ _)
  · exact absurd h (panic_ne_ok _ _)
  · obtain ⟨sys₁, hloop, h⟩ := bind_eq_ok.mp h
    obtain ⟨⟨res, pm⟩, hfree, -⟩ := bind_eq_ok.mp h
    have hl := destroyLoop_layout hloop
    by_contra hge
    rw [← hl.allocStart, ← hl.length] at hge
    obtain ⟨message, hpanic⟩ := pmemFree_wraps (Nat.le_of_not_lt hge) sys₁.ramdiskBlockPointers
    rw [hpanic] at hfree
    exact panic_ne_ok _ _ hfree

theorem initLoop_layout {n i : Nat} (hi : sys.pm.Initialised) (h : initLoop n i sys = .ok sys') :
    sys.pm.SameLayout sys'.pm := by
  induction n generalizing i sys with
  | zero =>
    obtain rfl := Except.ok.inj h
    exact .refl sys.pm
  | succ n ih =>
    obtain ⟨⟨page, pm⟩, halloc, hloop⟩ := bind_eq_ok.mp h
    obtain ⟨hi', hl⟩ := (PmemStep.alloc halloc).keeps hi
    exact hl.trans ((Pmem.SameLayout.store pm _).trans (ih (hi'.store _) hloop))

theorem ramdiskInit_layout {size : UInt32} (hi : sys.pm.Initialised)
    (h : sys.ramdiskInit size = .ok sys') : sys.pm.SameLayout sys'.pm := by
  unfold ramdiskInit at h
  dsimp only at h
  split_ifs at h
  iterate 5 exact absurd h (panic_ne_ok _ _)
  obtain ⟨⟨table, pm⟩, halloc, hloop⟩ := bind_eq_ok.mp h
  obtain ⟨hi', hl⟩ := (PmemStep.alloc halloc).keeps hi
  exact hl.trans (initLoop_layout hi' hloop)

end RamSys

/-- A lifetime ends only in a pool that does not reach 4 GiB. -/
theorem RamdiskLifetime.pool_end {sys : RamSys} (h : RamdiskLifetime sys b)
    (hi : sys.pm.Initialised) :
    sys.pm.pmemAllocStart.toNat + sys.pm.pmemMainMemoryLength.toNat < 2 ^ 32 := by
  obtain ⟨sys₁, hinit, hlife⟩ := h
  obtain ⟨sys₂, hserve, -, sys₃, hdestroy, -⟩ := hlife []
  obtain rfl := Except.ok.inj hserve
  have hl := RamSys.ramdiskInit_layout hi hinit
  rw [← hl.allocStart, ← hl.length]
  exact RamSys.ramdiskDestroy_end hdestroy

/-! ## Any reachable pool -/

theorem ramdiskLifetime_of_apart {sys : RamSys} (hi : sys.pm.Initialised) (ha : sys.pm.Apart)
    (hend : sys.pm.pmemAllocStart.toNat + sys.pm.pmemMainMemoryLength.toNat < 2 ^ 32)
    (hsize : sys.ramdiskBlockSize = 0) (hpointers : sys.ramdiskBlockPointers = 0) (hb : 1 ≤ b)
    (hb' : b ≤ 1024) (hfree : b + 1 ≤ sys.pm.freePages) : RamdiskLifetime sys b := by
  obtain ⟨sys₁, t, es, hinit, howned, hlen, hsize₁⟩ :=
    RamSys.ramdiskInit_returns hi ha hsize hpointers hb hb' hfree
  refine ⟨sys₁, hinit, ?_⟩
  intro rs
  obtain ⟨sys₂, hserve, howned₂, hsize₂⟩ := howned.serve ha hlen hsize₁ hb rs
  obtain ⟨pm, hdestroy, htaken⟩ := howned₂.destroy ha hlen hsize₂ hb hend
  have hfree' : pm.freePages = sys.pm.freePages := by
    apply Pmem.freePages_congr htaken.layout.size
    intro e he
    exact (htaken.record e he).trans (if_neg List.not_mem_nil)
  obtain ⟨sys₄, t', es', hagain, -⟩ := @RamSys.ramdiskInit_returns b ⟨pm, 0, 0⟩
    htaken.initialised (ha.congr htaken.layout) rfl rfl hb hb' (hfree'.symm ▸ hfree)
  refine ⟨sys₂, hserve, howned₂.owns hlen hsize₂, _, hdestroy, ?_, rfl, rfl, sys₄, hagain⟩
  intro p
  rw [htaken.allocated_iff]
  simp

/-- **The life of a ramdisk.**  In every pool in use after `pmem_initialize`, with `b + 1`
free pages and no ramdisk, the lifetime of a ramdisk of `b` blocks is right when the region
has room above the kernel and ends below 4 GiB.  Elsewhere nothing can be freed, unless the
start of the pool wrapped to 0. -/
theorem ramdisk_lifetime {mbd : Option MultibootInfo} {S L K : UInt32} {m : Mem} {pm0 : Pmem}
    {sys : RamSys} (hsel : pmemSelect mbd K m = .ok (S, L))
    (hinit : pmemInitialize mbd K (.boot m) = .ok pm0) (hreach : PmemReachable pm0 sys.pm)
    (hsize : sys.ramdiskBlockSize = 0) (hpointers : sys.ramdiskBlockPointers = 0) (hb : 1 ≤ b)
    (hb' : b ≤ 1024) (hfree : b + 1 ≤ sys.pm.freePages) :
    (¬ NoRoom S L K ∧ S.toNat + L.toNat < 2 ^ 32 → RamdiskLifetime sys b) ∧
    (S.toNat + L.toNat ≤ 2 ^ 32 → pm0.pmemAllocStart ≠ 0 → RamdiskLifetime sys b →
      ¬ NoRoom S L K ∧ S.toNat + L.toNat < 2 ^ 32) := by
  rw [pmemInitialize_eq hsel] at hinit
  obtain ⟨hi, hl⟩ := hreach.keeps (pmemSetUp_initialised rfl hinit)
  constructor
  · rintro ⟨hroom, hbelow⟩
    have hlay := pmemSetUp_layout hroom (Nat.le_of_lt hbelow) hinit
    have hend := pmemSetUp_end (Nat.le_of_lt hbelow) hinit
    have hinside := hlay.inside.2
    rw [if_pos (by omega)] at hend
    apply ramdiskLifetime_of_apart hi ((hlay.apart (Nat.le_of_lt hbelow)).congr hl) _ hsize
      hpointers hb hb' hfree
    rw [hl.allocStart, hl.length]
    omega
  · intro hregion h0 hlife
    have hbelow := hlife.pool_end hi
    have hend := pmemSetUp_end hregion hinit
    rw [hl.allocStart, hl.length, hend] at hbelow
    constructor
    · intro hno
      have hstart := pmemSetUp_start_of_no_room hno hregion hinit h0
      rw [if_neg (by omega)] at hbelow
      omega
    · split_ifs at hbelow <;> omega

theorem PoolLayout.freePages_eq {S L K : UInt32} {pm : Pmem} (h : PoolLayout S L K pm) :
    pm.freePages = pm.pmemMgrReservedSize.toNat := Pmem.freePages_of_cleared h.cleared

/-- The largest ramdisk, in 16 MiB from 1 MiB on. -/
theorem ramdisk_lifetime_largest : ∃ pm0,
    pmemInitialize (some ⟨0x40, 24, 0x9000⟩) 0x200000
      (.boot (wordsAt9000 [20, 0x100000, 0, 0x1000000, 0, 1])) = .ok pm0 ∧
    RamdiskLifetime ⟨pm0, 0, 0⟩ 1024 := by
  obtain ⟨pm0, hinit, hsize⟩ : ∃ pm0,
      pmemInitialize (some ⟨0x40, 24, 0x9000⟩) 0x200000
        (.boot (wordsAt9000 [20, 0x100000, 0, 0x1000000, 0, 1])) = .ok pm0 ∧
      pm0.pmemMgrReservedSize = 3839 := ⟨_, rfl, rfl⟩
  have hfree : 1025 ≤ pm0.freePages := by
    have hlay : PoolLayout 0x100000 0x1000000 0x200000 pm0 :=
      pmemSetUp_layout (by decide) (by decide) hinit
    rw [hlay.freePages_eq, hsize]
    decide
  exact ⟨pm0, hinit, (ramdisk_lifetime rfl hinit .refl rfl rfl (by decide) (by decide) hfree).1
    (by decide)⟩

/-- A pool whose region ends at 4 GiB: every page is free, and no ramdisk can be destroyed. -/
theorem ramdisk_not_destroyed : ∃ pm0,
    pmemSelect (some ⟨0x40, 24, 0x9000⟩) 0x200000
      (wordsAt9000 [20, 0xFFFE0000, 0, 0x20000, 0, 1]) = .ok (0xFFFE0000, 0x20000) ∧
    pmemInitialize (some ⟨0x40, 24, 0x9000⟩) 0x200000
      (.boot (wordsAt9000 [20, 0xFFFE0000, 0, 0x20000, 0, 1])) = .ok pm0 ∧
    2 ≤ pm0.freePages ∧ ¬ RamdiskLifetime ⟨pm0, 0, 0⟩ 1 := by
  obtain ⟨pm0, hinit, hsize, hend⟩ : ∃ pm0,
      pmemInitialize (some ⟨0x40, 24, 0x9000⟩) 0x200000
        (.boot (wordsAt9000 [20, 0xFFFE0000, 0, 0x20000, 0, 1])) = .ok pm0 ∧
      pm0.pmemMgrReservedSize = 31 ∧
      pm0.pmemAllocStart.toNat + pm0.pmemMainMemoryLength.toNat = 2 ^ 32 := ⟨_, rfl, rfl, rfl⟩
  refine ⟨pm0, rfl, hinit, ?_, ?_⟩
  · have hlay : PoolLayout 0xFFFE0000 0x20000 0x200000 pm0 :=
      pmemSetUp_layout (by decide) (by decide) hinit
    rw [hlay.freePages_eq, hsize]
    decide
  · intro hlife
    have hset : pmemSetUp 0x200000 0xFFFE0000 0x20000
        (.boot (wordsAt9000 [20, 0xFFFE0000, 0, 0x20000, 0, 1])) = .ok pm0 := hinit
    have hbelow := hlife.pool_end (pmemSetUp_initialised rfl hset)
    dsimp only at hbelow
    omega

end KoizOs
