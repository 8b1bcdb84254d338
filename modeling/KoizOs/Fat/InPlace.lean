import KoizOs.Fat.Invariant
import KoizOs.Ramdisk.Lifetime

/-!
# The disk in one memory with everything else

A file is read into memory that the disk's pages are a part of, too.  Where the bytes that are
stored are away from the disk (`Ramdisk.Off`), the call is that of a buffer of its own
(`ramdiskFat16FileReadTo_eq`).  A file that is written changes bytes of the disk only
(`ramdiskFat16FileWrite_frame`).
-/

namespace KoizOs

open Function Lib

/-- The pointer `p` into memory. -/
def Mem.bufferAt (m : Mem) (p : UInt32) : Buffer := fun i => m (p + UInt32.ofNat i)

/-- `n` bytes of `data` stored from `p` on. -/
def Mem.storeBytes (m : Mem) (p : UInt32) (n : Nat) (data : Buffer) : Mem :=
  fun x => if (x - p).toNat < n then data (x - p).toNat else m x

/-! ## Algorithm -/

/-- `n` bytes are left to transfer, the next one is `i`. -/
def ramdiskReadToLoop (startAddr data : UInt32) : (n i : Nat) → Ramdisk → Ramdisk
  | 0, _, rd => rd
  | n + 1, i, rd =>
    ramdiskReadToLoop startAddr data n (i + 1)
      { rd with mem := update rd.mem (data + UInt32.ofNat i) (rd.mem (rd.ioAddr startAddr i)) }

/-- `ramdisk_read` into the memory from `data` on. -/
def ramdiskReadTo (startAddr data dataSize : UInt32) (rd : Ramdisk) : Kern (Int × Ramdisk) :=
  if rd.ramdiskBlockSize = 0 then panic "init_disk_ramdisk: ramDisk is not initialized!"
  else if startAddr + dataSize > rd.ramdiskBlockSize * physBlockSize then
    .ok (ramdiskErrorOutOfBounds, rd)
  else if startAddr > 0xFFFFFFFF - dataSize then .ok (ramdiskErrorOverflow, rd)
  else .ok (0, ramdiskReadToLoop startAddr data dataSize.toNat 0 rd)

def readSectorTo (startSec : Nat) (data : UInt32) (rd : Ramdisk) : Kern (Int × Ramdisk) :=
  ramdiskReadTo (UInt32.ofNat (startSec * fat16BytesPerSector)) data
    (UInt32.ofNat fat16BytesPerSector) rd

def ramdiskFat16FileReadTo (stack : Buffer) (fileName : CString) (sectorBuffer : UInt32)
    (sectorIndex : UInt16) (rd : Ramdisk) : Kern (Int × Ramdisk) := do
  let (rootEntryNum, rd) ← ramdiskFat16FileExists stack fileName rd
  if rootEntryNum = 0 then .ok (fat16RamdiskErrorFileDoesntExist, rd)
  else do
    let (_, entry, rd) ← readRootEntry rootEntryNum stack rd
    let currentSector := (RamdiskFat16Entry.ofBytes entry).entryLowClusterNumber
    let (_, rd) ← readSectorTo (firstDataSector + currentSector.toNat) sectorBuffer rd
    if sectorIndex ≠ 0 then .ok (fat16RamdiskDoesntSupportMulticluster, rd)
    else .ok (fat16RamdiskSuccess, rd)

/-! ## Stores -/

variable {m : Mem} {p x : UInt32} {n i b a : Nat} {data stack : Buffer} {rd rd' rd'' : Ramdisk}
  {startAddr dataSize : UInt32} {fileName : CString} {res : Int}

theorem sub_toNat_lt_iff (hn : n ≤ 2 ^ 32) :
    (x - p).toNat < n ↔ ∃ i, i < n ∧ x = p + UInt32.ofNat i := by
  constructor
  · intro h
    refine ⟨(x - p).toNat, h, ?_⟩
    rw [UInt32.ofNat_toNat, UInt32.add_comm, UInt32.sub_add_cancel]
  · rintro ⟨i, hi, rfl⟩
    rw [UInt32.add_comm, UInt32.add_sub_cancel, UInt32.toNat_ofNat']
    omega

theorem Mem.storeBytes_zero (m : Mem) (p : UInt32) (data : Buffer) : m.storeBytes p 0 data = m :=
  funext fun _ => if_neg (Nat.not_lt_zero _)

theorem Mem.storeBytes_of_ne (hn : n ≤ 2 ^ 32) (hx : ∀ i, i < n → x ≠ p + UInt32.ofNat i) :
    m.storeBytes p n data x = m x := by
  refine if_neg fun hlt => ?_
  obtain ⟨i, hi, rfl⟩ := (sub_toNat_lt_iff hn).mp hlt
  exact hx i hi rfl

theorem Mem.storeBytes_apply (hi : i < n) (hn : n ≤ 2 ^ 32) :
    m.storeBytes p n data (p + UInt32.ofNat i) = data i := by
  have hsub : (p + UInt32.ofNat i - p).toNat = i := by
    rw [UInt32.add_comm, UInt32.add_sub_cancel, UInt32.toNat_ofNat']
    omega
  unfold Mem.storeBytes
  rw [hsub, if_pos hi]

theorem Mem.storeBytes_succ (m : Mem) (p : UInt32) (data : Buffer) (hn : n < 2 ^ 32) :
    update (m.storeBytes p n data) (p + UInt32.ofNat n) (data n) =
      m.storeBytes p (n + 1) data := by
  funext x
  by_cases hx : x = p + UInt32.ofNat n
  · rw [hx, update_self, Mem.storeBytes_apply (Nat.lt_succ_self n) (by omega)]
  · have hsub : (x - p).toNat ≠ n := by
      rintro heq
      apply hx
      rw [← heq, UInt32.ofNat_toNat, UInt32.add_comm, UInt32.sub_add_cancel]
    rw [update_of_ne hx]
    unfold Mem.storeBytes
    by_cases hlt : (x - p).toNat < n
    · rw [if_pos hlt, if_pos (by omega)]
    · rw [if_neg hlt, if_neg (by omega)]

/-! ## Away from the disk -/

namespace Ramdisk

/-- The `n` bytes from `p` on are neither on the disk nor in its pointer table. -/
structure Off (rd : Ramdisk) (b : Nat) (p : UInt32) (n : Nat) : Prop where
  block : ∀ i, i < n → ∀ a, a < b * 4096 → rd.addr a ≠ p + UInt32.ofNat i
  table : ∀ i, i < n → ∀ o, o < 4096 →
    rd.ramdiskBlockPointers + UInt32.ofNat o ≠ p + UInt32.ofNat i

theorem Off.mono (h : rd.Off b p n) (hi : i ≤ n) : rd.Off b p i :=
  ⟨fun j hj => h.block j (by omega), fun j hj => h.table j (by omega)⟩

/-- The pointer table and the bytes of the disk are the same. -/
structure SameDisk (b : Nat) (rd rd' : Ramdisk) : Prop where
  size : rd'.ramdiskBlockSize = rd.ramdiskBlockSize
  pointers : rd'.ramdiskBlockPointers = rd.ramdiskBlockPointers
  table : ∀ o, o < 4096 → rd'.mem (rd.ramdiskBlockPointers + UInt32.ofNat o) =
    rd.mem (rd.ramdiskBlockPointers + UInt32.ofNat o)
  block : ∀ a, a < b * 4096 → rd'.mem (rd.addr a) = rd.mem (rd.addr a)

theorem Valid.addr_congr (h : rd.Valid b)
    (hpointers : rd'.ramdiskBlockPointers = rd.ramdiskBlockPointers)
    (htable : ∀ o, o < 4096 → rd'.mem (rd.ramdiskBlockPointers + UInt32.ofNat o) =
      rd.mem (rd.ramdiskBlockPointers + UInt32.ofNat o)) (ha : a < b * 4096) :
    rd'.addr a = rd.addr a := by
  have hle := h.le
  rw [addr, addr, blockPointer_congr (by omega) hpointers htable]

/-- A disk is valid as long as its table is left alone. -/
theorem Valid.congr (h : rd.Valid b) (hsize : rd'.ramdiskBlockSize = rd.ramdiskBlockSize)
    (hpointers : rd'.ramdiskBlockPointers = rd.ramdiskBlockPointers)
    (htable : ∀ o, o < 4096 → rd'.mem (rd.ramdiskBlockPointers + UInt32.ofNat o) =
      rd.mem (rd.ramdiskBlockPointers + UInt32.ofNat o)) : rd'.Valid b := by
  have hle := h.le
  have hblock : ∀ k, k < b → rd'.blockPointer (UInt32.ofNat k) = rd.blockPointer (UInt32.ofNat k) :=
    fun k hk => blockPointer_congr (by omega) hpointers htable
  refine ⟨(congrArg UInt32.toNat hsize).trans h.size, h.pos, h.le, ?_, ?_, ?_, ?_⟩
  · rw [hpointers]
    exact h.table
  · intro k hk
    rw [hblock k hk]
    exact h.block k hk
  · intro j k hj hk heq
    rw [hblock j hj, hblock k hk] at heq
    exact h.inj j k hj hk heq
  · intro k hk
    rw [hblock k hk, hpointers]
    exact h.not_table k hk

namespace SameDisk

theorem refl (b : Nat) (rd : Ramdisk) : SameDisk b rd rd := ⟨rfl, rfl, fun _ _ => rfl, fun _ _ => rfl⟩

theorem addr_eq (h : SameDisk b rd rd') (hv : rd.Valid b) (ha : a < b * 4096) :
    rd'.addr a = rd.addr a := hv.addr_congr h.pointers h.table ha

theorem valid (h : SameDisk b rd rd') (hv : rd.Valid b) : rd'.Valid b :=
  hv.congr h.size h.pointers h.table

theorem trans (h : SameDisk b rd rd') (h' : SameDisk b rd' rd'') (hv : rd.Valid b) :
    SameDisk b rd rd'' where
  size := h'.size.trans h.size
  pointers := h'.pointers.trans h.pointers
  table o ho := by
    rw [← h.table o ho, ← h.pointers]
    exact h'.table o ho
  block a ha := by
    rw [← h.block a ha, ← h.addr_eq hv ha]
    exact h'.block a ha

theorem image_eq (h : SameDisk 1024 rd rd') (hv : rd.Valid 1024) : rd'.image = rd.image := by
  funext x
  unfold image
  split
  · next hx =>
    have hx' : x < 1024 * 4096 := hx
    rw [byteAt, byteAt, h.addr_eq hv hx', h.block x hx']
  · rfl

end SameDisk

/-- Stores away from the disk leave it the same. -/
theorem Off.sameDisk (h : rd.Off b p n) (hn : n ≤ 2 ^ 32) (data : Buffer) :
    SameDisk b rd { rd with mem := rd.mem.storeBytes p n data } where
  size := rfl
  pointers := rfl
  table o ho := Mem.storeBytes_of_ne hn fun i hi => h.table i hi o ho
  block a ha := Mem.storeBytes_of_ne hn fun i hi => h.block i hi a ha

end Ramdisk

/-! ## Reading -/

/-- The bytes that were stored so far are not read again. -/
theorem ramdiskReadToLoop_eq (h : rd.Valid b) (hoff : rd.Off b p (i + n))
    (hb : startAddr.toNat + (i + n) ≤ b * 4096) :
    ramdiskReadToLoop startAddr p n i { rd with
        mem := rd.mem.storeBytes p i fun j => rd.byteAt (startAddr.toNat + j) } =
      { rd with
        mem := rd.mem.storeBytes p (i + n) fun j => rd.byteAt (startAddr.toNat + j) } := by
  have hle := h.le
  induction n generalizing i with
  | zero => rfl
  | succ n ih =>
    have ha : startAddr.toNat + i < b * 4096 := by omega
    have hsame := (hoff.mono (show i ≤ i + (n + 1) by omega)).sameDisk (by omega)
      fun j => rd.byteAt (startAddr.toNat + j)
    have hread := hsame.block _ ha
    rw [ramdiskReadToLoop, Ramdisk.ioAddr_eq (by omega), hsame.addr_eq h ha]
    dsimp only at hread ⊢
    rw [hread, ← Ramdisk.byteAt,
      Mem.storeBytes_succ _ _ (fun j => rd.byteAt (startAddr.toNat + j)) (by omega),
      show i + (n + 1) = i + 1 + n by omega]
    exact ih (by rwa [show i + 1 + n = i + (n + 1) by omega]) (by omega)

theorem ramdiskReadTo_eq (h : rd.Valid b) (hb : InBounds b startAddr dataSize)
    (hoff : rd.Off b p dataSize.toNat) :
    ramdiskReadTo startAddr p dataSize rd = .ok (0, { rd with
      mem := rd.mem.storeBytes p dataSize.toNat fun j => rd.byteAt (startAddr.toNat + j) }) := by
  have hcheck := @ramdiskRead_eq _ _ _ _ zeroSector h hb
  have hloop := ramdiskReadToLoop_eq (i := 0) h (by rwa [Nat.zero_add])
    (by rw [Nat.zero_add]; exact hb)
  rw [Mem.storeBytes_zero, Nat.zero_add] at hloop
  unfold ramdiskRead ramdiskInternalIo at hcheck
  unfold ramdiskReadTo
  -- the checks are those of `ramdiskRead`
  split_ifs at hcheck ⊢
  · cases hcheck
  · exact absurd (Prod.mk.inj (Except.ok.inj hcheck)).1 (by decide)
  · exact absurd (Prod.mk.inj (Except.ok.inj hcheck)).1 (by decide)
  · rw [hloop]

/-- The first sector of a file, read away from the disk. -/
theorem ramdiskFat16FileReadTo_eq (h : rd.Valid 1024) (hfile : rd.image.lookup fileName ≠ 0)
    (hc : rd.image.headCluster fileName < clusterCount) (hoff : rd.Off 1024 p 512) :
    ramdiskFat16FileReadTo stack fileName p 0 rd = .ok (fat16RamdiskSuccess, { rd with
      mem := rd.mem.storeBytes p 512 (rd.image.sector (rd.image.headCluster fileName)) }) := by
  obtain ⟨entry, hread, hentry⟩ := h.readRootEntry stack (rd.image.lookup_lt fileName)
  have hc' : rd.image.headCluster fileName < 415 := hc
  have ha : (firstDataSector + rd.image.headCluster fileName) * 512 + 512 ≤ ramdiskFat16Size := by
    show (97 + rd.image.headCluster fileName) * 512 + 512 ≤ 4096 * 1024
    omega
  have hstart := toNat_diskAddr (Nat.le_of_add_right_le ha)
  have hsize : (UInt32.ofNat 512).toNat = 512 := by decide
  have hsector := @ramdiskReadTo_eq p _ _ _ _ h (inBounds_disk ha) (hsize.symm ▸ hoff)
  rw [hstart, hsize] at hsector
  have hbytes : rd.mem.storeBytes p 512
        (fun j => rd.byteAt ((firstDataSector + rd.image.headCluster fileName) * 512 + j)) =
      rd.mem.storeBytes p 512 (rd.image.sector (rd.image.headCluster fileName)) := by
    funext x
    unfold Mem.storeBytes
    split
    · next hx =>
      refine (if_pos ?_).symm
      show (97 + rd.image.headCluster fileName) * 512 + (x - p).toNat < 4096 * 1024
      omega
    · rfl
  unfold ramdiskFat16FileReadTo
  rw [ramdiskFat16FileExists_eq h, ok_bind]
  dsimp only
  rw [if_neg hfile, hread, ok_bind]
  dsimp only
  rw [hentry, readSectorTo]
  show (ramdiskReadTo (UInt32.ofNat ((firstDataSector + rd.image.headCluster fileName) * 512)) p
    (UInt32.ofNat 512) rd >>= _) = _
  rw [hsector, ← hbytes]
  rfl

/-! ## Writing -/

namespace Ramdisk

theorem Frame.refl (b : Nat) (rd : Ramdisk) : Frame b rd rd := ⟨rfl, rfl, fun _ _ => rfl⟩

theorem Frame.table (h : Frame b rd rd') (hv : rd.Valid b) {o : Nat} (ho : o < 4096) :
    rd'.mem (rd.ramdiskBlockPointers + UInt32.ofNat o) =
      rd.mem (rd.ramdiskBlockPointers + UInt32.ofNat o) :=
  h.mem _ fun _ ha => (hv.addr_ne_table ha ho).symm

theorem Frame.addr_eq (h : Frame b rd rd') (hv : rd.Valid b) (ha : a < b * 4096) :
    rd'.addr a = rd.addr a := hv.addr_congr h.pointers (fun _ ho => h.table hv ho) ha

theorem Frame.valid (h : Frame b rd rd') (hv : rd.Valid b) : rd'.Valid b :=
  hv.congr h.size h.pointers fun _ ho => h.table hv ho

theorem Frame.trans (h : Frame b rd rd') (h' : Frame b rd' rd'') (hv : rd.Valid b) :
    Frame b rd rd'' where
  size := h'.size.trans h.size
  pointers := h'.pointers.trans h.pointers
  mem x hx := by
    rw [← h.mem x hx]
    apply h'.mem
    intro a ha
    rw [h.addr_eq hv ha]
    exact hx a ha

end Ramdisk

theorem ramdiskWrite_frame {data' : Buffer} (h : rd.Valid b)
    (hw : ramdiskWrite startAddr data dataSize rd = .ok (res, data', rd')) : rd.Frame b rd' :=
  @ramdiskIo_frame _ _ _ _ _ _ _ .write _ h hw

theorem writeFatCells_frame {c : Nat} {v : UInt16} (h : rd.Valid 1024)
    (hw : writeFatCells c v rd = .ok rd') : rd.Frame 1024 rd' := by
  obtain ⟨⟨res₁, data₁, rd₁⟩, hw₁, hw⟩ := bind_eq_ok.mp hw
  obtain ⟨⟨res₂, data₂, rd₂⟩, hw₂, hw⟩ := bind_eq_ok.mp hw
  obtain rfl := Except.ok.inj hw
  have hframe := ramdiskWrite_frame h hw₁
  exact hframe.trans (ramdiskWrite_frame (hframe.valid h) hw₂) h

theorem formatFatLoop_frame {n i : Nat} (h : rd.Valid 1024)
    (hw : formatFatLoop n i rd = .ok rd') : rd.Frame 1024 rd' := by
  induction n generalizing i rd with
  | zero =>
    obtain rfl := Except.ok.inj hw
    exact .refl _ _
  | succ n ih =>
    obtain ⟨⟨res₁, data₁, rd₁⟩, hw₁, hw⟩ := bind_eq_ok.mp hw
    obtain ⟨⟨res₂, data₂, rd₂⟩, hw₂, hw⟩ := bind_eq_ok.mp hw
    have hf₁ := ramdiskWrite_frame h hw₁
    have hf₂ := hf₁.trans (ramdiskWrite_frame (hf₁.valid h) hw₂) h
    exact hf₂.trans (ih (hf₂.valid h) hw) h

theorem formatRootLoop_frame {n i : Nat} (h : rd.Valid 1024)
    (hw : formatRootLoop n i rd = .ok rd') : rd.Frame 1024 rd' := by
  induction n generalizing i rd with
  | zero =>
    obtain rfl := Except.ok.inj hw
    exact .refl _ _
  | succ n ih =>
    obtain ⟨⟨res₁, data₁, rd₁⟩, hw₁, hw⟩ := bind_eq_ok.mp hw
    have hf₁ := ramdiskWrite_frame h hw₁
    exact hf₁.trans (ih (hf₁.valid h) hw) h

/-- A format stays on the disk. -/
theorem ramdiskFat16Format_frame {rest₁ rest₂ : Buffer} (h : rd.Valid 1024)
    (hw : ramdiskFat16Format rest₁ rest₂ rd = .ok rd') : rd.Frame 1024 rd' := by
  obtain ⟨⟨res₁, data₁, rd₁⟩, hw₁, hw⟩ := bind_eq_ok.mp hw
  obtain ⟨rd₂, hw₂, hw⟩ := bind_eq_ok.mp hw
  obtain ⟨rd₃, hw₃, hw⟩ := bind_eq_ok.mp hw
  obtain ⟨⟨res₄, data₄, rd₄⟩, hw₄, hw⟩ := bind_eq_ok.mp hw
  obtain ⟨⟨res₅, data₅, rd₅⟩, hw₅, hw⟩ := bind_eq_ok.mp hw
  obtain rfl := Except.ok.inj hw
  have hf₁ := ramdiskWrite_frame h hw₁
  have hf₂ := hf₁.trans (formatFatLoop_frame (hf₁.valid h) hw₂) h
  have hf₃ := hf₂.trans (formatRootLoop_frame (hf₂.valid h) hw₃) h
  have hf₄ := hf₃.trans (ramdiskWrite_frame (hf₃.valid h) hw₄) h
  exact hf₄.trans (ramdiskWrite_frame (hf₄.valid h) hw₅) h

theorem fileWriteLoop_frame {left ptr cur left' ptr' cur' : Nat} (h : rd.Valid 1024)
    (hw : fileWriteLoop data left ptr cur rd = .ok (left', ptr', cur', rd')) :
    rd.Frame 1024 rd' := by
  induction left using Nat.strong_induction_on generalizing ptr cur rd with
  | h left ih =>
    rw [fileWriteLoop] at hw
    split at hw
    · next hleft =>
      obtain ⟨⟨res₁, data₁, rd₁⟩, hw₁, hw⟩ := bind_eq_ok.mp hw
      have hf₁ := ramdiskWrite_frame h hw₁
      have hv₁ := hf₁.valid h
      dsimp only at hw
      rw [findNextFreeCluster_eq hv₁, ok_bind] at hw
      dsimp only at hw
      split at hw
      · exact absurd hw (panic_ne_ok _ _)
      · obtain ⟨rd₂, hw₂, hw⟩ := bind_eq_ok.mp hw
        have hf₂ := hf₁.trans (writeFatCells_frame hv₁ hw₂) h
        have hpos : 0 < fat16BytesPerCluster := by decide
        exact hf₂.trans (ih _ (by omega) (hf₂.valid h) hw) h
    · obtain ⟨-, -, -, rfl⟩ := by simpa using Except.ok.inj hw
      exact .refl _ _

theorem fileWritePartial_frame {left ptr cur : Nat} (h : rd.Valid 1024)
    (hw : fileWritePartial data left ptr cur rd = .ok rd') : rd.Frame 1024 rd' := by
  unfold fileWritePartial at hw
  split at hw
  · obtain ⟨⟨res₁, data₁, rd₁⟩, hw₁, hw⟩ := bind_eq_ok.mp hw
    obtain rfl := Except.ok.inj hw
    exact ramdiskWrite_frame h hw₁
  · obtain rfl := Except.ok.inj hw
    exact .refl _ _

theorem fileWriteEnd_frame {e : RamdiskFat16Entry} {head left ptr cur : Nat} (h : rd.Valid 1024)
    (hw : fileWriteEnd stack e data head left ptr cur rd = .ok (res, rd')) :
    rd.Frame 1024 rd' := by
  obtain ⟨rd₁, hw₁, hw⟩ := bind_eq_ok.mp hw
  obtain ⟨rd₂, hw₂, hw⟩ := bind_eq_ok.mp hw
  have hf₁ := fileWritePartial_frame h hw₁
  have hf₂ := hf₁.trans (writeFatCells_frame (hf₁.valid h) hw₂) h
  have hv₂ := hf₂.valid h
  dsimp only at hw
  rw [findNextFreeRootEntry_eq hv₂, ok_bind] at hw
  obtain ⟨⟨res₃, data₃, rd₃⟩, hw₃, hw⟩ := bind_eq_ok.mp hw
  obtain ⟨-, rfl⟩ := Prod.mk.inj (Except.ok.inj hw)
  exact hf₂.trans (ramdiskWrite_frame hv₂ hw₃) h

/-- A write stays on the disk. -/
theorem ramdiskFat16FileWrite_frame (h : rd.Valid 1024)
    (hw : ramdiskFat16FileWrite stack fileName data dataSize rd = .ok (res, rd')) :
    rd.Frame 1024 rd' := by
  unfold ramdiskFat16FileWrite at hw
  dsimp only at hw
  rw [ramdiskFat16FileExists_eq h, ok_bind] at hw
  dsimp only at hw
  split at hw
  · obtain ⟨-, rfl⟩ := Prod.mk.inj (Except.ok.inj hw)
    exact .refl _ _
  · rw [findNextFreeCluster_eq h, ok_bind] at hw
    dsimp only at hw
    split at hw
    · obtain ⟨-, rfl⟩ := Prod.mk.inj (Except.ok.inj hw)
      exact .refl _ _
    · obtain ⟨⟨left, ptr, cur, rd₁⟩, hloop, hw⟩ := bind_eq_ok.mp hw
      have hf := fileWriteLoop_frame h hloop
      exact hf.trans (fileWriteEnd_frame (hf.valid h) hw) h

end KoizOs
