import KoizOs.Fat.Fat16
import KoizOs.Lib.Search

/-!
# Reading the file system

Each function of the driver that only reads is a function of the disk's bytes
(`Ramdisk.image`): it returns, and leaves the disk as it is.

| result | content |
|--------|---------|
| `findNextFreeCluster_eq` | the first free cell of the first table |
| `findNextFreeRootEntry_eq` | the first unused entry among 1 .. 31 |
| `ramdiskFat16FileExists_eq` | the first used entry among 1 .. 31 that `memcmp` accepts |
| `ramdiskFat16FileRead_eq` | the data sector of that entry's first cluster |
-/

namespace KoizOs

open Function Lib

/-- The bytes of the file system's disk, 0 beyond its end. -/
def Ramdisk.image (rd : Ramdisk) : Image :=
  fun x => if x < ramdiskFat16Size then rd.byteAt x else 0

namespace Image

/-- The first free cluster, 0 if there is none. -/
def freeCluster (img : Image) : Nat := firstFrom (fun c => img.cell c = 0) clusterCount 0

def Used (img : Image) (i : Nat) : Prop := NameUsed (img.rootEntry i).entryName

instance (img : Image) (i : Nat) : Decidable (img.Used i) := inferInstanceAs (Decidable (NameUsed _))

/-- The first unused root entry, 0 if there is none. -/
def freeRootEntry (img : Image) : Nat :=
  firstFrom (fun i => ¬ img.Used i) (rootDirectorySectors - 1) 1

end Image

/-- `memcmp` takes the stored name for the wanted one when no stored byte is above it. -/
def NameMatches (fileName : CString) (entryName : Vector UInt8 11) : Prop :=
  ∀ j, (h : j < 11) → entryName[j] ≤ (ramdiskFat16FilenameToNative fileName)[j]

instance (fileName : CString) (entryName : Vector UInt8 11) :
    Decidable (NameMatches fileName entryName) :=
  inferInstanceAs (Decidable (∀ j, (h : j < 11) → _))

namespace Image

/-- The first used root entry whose name matches, 0 if there is none. -/
def lookup (img : Image) (fileName : CString) : Nat :=
  firstFrom (fun i => img.Used i ∧ NameMatches fileName (img.rootEntry i).entryName)
    (rootDirectorySectors - 1) 1

end Image

/-! ## Disk access -/

variable {rd rd' : Ramdisk} {a n : Nat} {fileName : CString} {stack buf data : Buffer}

theorem toNat_diskAddr (ha : a ≤ ramdiskFat16Size) : (UInt32.ofNat a).toNat = a := by
  rw [UInt32.toNat_ofNat']
  unfold ramdiskFat16Size at ha
  omega

theorem inBounds_disk (ha : a + n ≤ ramdiskFat16Size) :
    InBounds 1024 (UInt32.ofNat a) (UInt32.ofNat n) := by
  unfold InBounds
  rw [toNat_diskAddr (by omega), toNat_diskAddr (by omega)]
  exact ha

namespace Ramdisk.Valid

theorem read (h : rd.Valid 1024) (buf : Buffer) (ha : a + n ≤ ramdiskFat16Size) :
    ramdiskRead (UInt32.ofNat a) buf (UInt32.ofNat n) rd =
      .ok (0, patch buf 0 n fun k => rd.image (a + k), rd) := by
  rw [ramdiskRead_eq h (inBounds_disk ha), toNat_diskAddr (by omega), toNat_diskAddr (by omega)]
  congr 3
  funext x
  unfold patch
  split
  · exact (if_pos (by omega)).symm
  · rfl

theorem write (h : rd.Valid 1024) (data : Buffer) (ha : a + n ≤ ramdiskFat16Size) :
    ∃ rd', ramdiskWrite (UInt32.ofNat a) data (UInt32.ofNat n) rd = .ok (0, data, rd') ∧
      rd'.Valid 1024 ∧ rd'.image = patch rd.image a n data := by
  obtain ⟨rd', hw, hv, hbytes⟩ := ramdiskWrite_spec data h (inBounds_disk ha)
  rw [toNat_diskAddr (by omega), toNat_diskAddr (by omega)] at hbytes
  refine ⟨rd', hw, hv, funext ?_⟩
  intro x
  unfold Ramdisk.image
  by_cases hx : x < ramdiskFat16Size
  · rw [if_pos hx, hbytes x hx]
    simp only [patch, if_pos hx]
  · rw [if_neg hx, patch_of_not_mem (by omega), if_neg hx]

/-- A root entry read into a struct is the entry of the image. -/
theorem readRootEntry (h : rd.Valid 1024) (buf : Buffer) {i : Nat} (hi : i < rootDirectorySectors) :
    ∃ entry, KoizOs.readRootEntry i buf rd = .ok (0, entry, rd) ∧
      RamdiskFat16Entry.ofBytes entry = rd.image.rootEntry i := by
  have hi' : i < 32 := hi
  refine ⟨_, h.read buf ?_, RamdiskFat16Entry.ofBytes_congr ?_⟩
  · show (1 + 2 * 32) * 512 + i * 32 + 32 ≤ 4096 * 1024
    omega
  · intro k hk
    rw [patch_of_mem (Nat.zero_le k) (by omega)]
    rfl

end Ramdisk.Valid

/-! ## Searches -/

theorem findNextFreeClusterLoop_eq (h : rd.Valid 1024) {i : Nat} (hi : i + n ≤ clusterCount) :
    findNextFreeClusterLoop n i buf rd =
      .ok (firstFrom (fun c => rd.image.cell c = 0) n i, rd) := by
  induction n generalizing i buf with
  | zero => rfl
  | succ n ih =>
    have hi' : i + (n + 1) ≤ 415 := hi
    have ha : firstFatTableSector * fat16BytesPerSector + i * 2 + 2 ≤ ramdiskFat16Size := by
      show 1 * 512 + i * 2 + 2 ≤ 4096 * 1024
      omega
    rw [findNextFreeClusterLoop, h.read buf ha]
    show (if rd.image.cell i = 0 then _ else _) = _
    unfold firstFrom
    split
    · rfl
    · exact ih (by omega)

theorem findNextFreeCluster_eq (h : rd.Valid 1024) :
    findNextFreeCluster rd = .ok (rd.image.freeCluster, rd) :=
  findNextFreeClusterLoop_eq h (by omega)

theorem findNextFreeRootEntryLoop_eq (h : rd.Valid 1024) {i : Nat}
    (hi : i + n ≤ rootDirectorySectors) :
    findNextFreeRootEntryLoop n i buf rd =
      .ok (firstFrom (fun i => ¬ rd.image.Used i) n i, rd) := by
  induction n generalizing i buf with
  | zero => rfl
  | succ n ih =>
    obtain ⟨entry, hread, hentry⟩ := h.readRootEntry buf (show i < rootDirectorySectors by omega)
    rw [findNextFreeRootEntryLoop, hread]
    simp only [ok_bind, hentry]
    unfold firstFrom
    by_cases hu : rd.image.Used i
    · rw [if_neg hu, if_neg (not_not.mpr hu)]
      exact ih (by omega)
    · rw [if_pos (not_not.mp hu), if_pos hu]

theorem findNextFreeRootEntry_eq (h : rd.Valid 1024) :
    findNextFreeRootEntry stack rd = .ok (rd.image.freeRootEntry, rd) :=
  findNextFreeRootEntryLoop_eq h (by decide)

theorem memcmp_native_iff (entryName : Vector UInt8 11) :
    memcmp (.ofArray (ramdiskFat16FilenameToNative fileName) stack) (.ofArray entryName stack) 11
      = 0 ↔ NameMatches fileName entryName := by
  rw [memcmp_eq_zero_iff]
  refine forall_congr' fun j => forall_congr' fun hj => ?_
  simp [Buffer.ofArray, hj]

theorem fileExistsLoop_eq (h : rd.Valid 1024) {i : Nat} (hi : i + n ≤ rootDirectorySectors) :
    fileExistsLoop stack fileName n i buf rd =
      .ok (firstFrom (fun i => rd.image.Used i ∧
        NameMatches fileName (rd.image.rootEntry i).entryName) n i, rd) := by
  induction n generalizing i buf with
  | zero => rfl
  | succ n ih =>
    obtain ⟨entry, hread, hentry⟩ := h.readRootEntry buf (show i < rootDirectorySectors by omega)
    rw [fileExistsLoop, hread]
    simp only [ok_bind, hentry, memcmp_native_iff]
    unfold firstFrom
    by_cases hm : rd.image.Used i ∧ NameMatches fileName (rd.image.rootEntry i).entryName
    · rw [if_pos hm]
      exact if_pos hm
    · rw [if_neg hm]
      exact (if_neg hm).trans (ih (by omega))

theorem ramdiskFat16FileExists_eq (h : rd.Valid 1024) :
    ramdiskFat16FileExists stack fileName rd = .ok (rd.image.lookup fileName, rd) :=
  fileExistsLoop_eq h (by decide)

/-- The first cluster of the file that `lookup` finds. -/
def Image.headCluster (img : Image) (fileName : CString) : Nat :=
  (img.rootEntry (img.lookup fileName)).entryLowClusterNumber.toNat

theorem Image.lookup_lt (img : Image) (fileName : CString) :
    img.lookup fileName < rootDirectorySectors :=
  firstFrom_lt (by decide)

theorem ramdiskFat16FileRead_eq (h : rd.Valid 1024) {sectorIndex : UInt16}
    (hfile : rd.image.lookup fileName ≠ 0) (hc : rd.image.headCluster fileName < clusterCount) :
    ramdiskFat16FileRead stack fileName buf sectorIndex rd =
      .ok (if sectorIndex ≠ 0 then fat16RamdiskDoesntSupportMulticluster else fat16RamdiskSuccess,
        patch buf 0 fat16BytesPerSector (rd.image.sector (rd.image.headCluster fileName)), rd) := by
  obtain ⟨entry, hread, hentry⟩ := h.readRootEntry stack (rd.image.lookup_lt fileName)
  have hc' : rd.image.headCluster fileName < 415 := hc
  have ha : (firstDataSector + rd.image.headCluster fileName) * fat16BytesPerSector +
      fat16BytesPerSector ≤ ramdiskFat16Size := by
    show (97 + rd.image.headCluster fileName) * 512 + 512 ≤ 4096 * 1024
    omega
  rw [ramdiskFat16FileRead, ramdiskFat16FileExists_eq h]
  simp only [ok_bind, if_neg hfile, hread, hentry, readSector]
  rw [← Image.headCluster, h.read buf ha]
  simp only [ok_bind]
  split <;> rfl

end KoizOs
