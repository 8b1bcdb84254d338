import KoizOs.Kernel.Basic
import KoizOs.Lib.LinkedList

/-!
# The FAT16 layout of the ramdisk

The constants of the file system, the two records it stores (a table cell and a root
directory entry), and where both lie in the disk's bytes (`Image`).

`SECOND_FAT_TABLE_SECTOR` is a sum without parentheses, so in
`SECOND_FAT_TABLE_SECTOR * FAT16_BYTES_PER_SECTOR` only its last term is multiplied.  That
product is `secondFatTableOffset`; `secondFatTableSector` is the macro where nothing is
multiplied to it.
-/

namespace KoizOs

open Lib

/-! ## Constants -/

def fat16BytesPerSector : Nat := 512
def fat16SectorsPerCluster : Nat := 1
def fat16TotalSectors : Nat := 512
def fat16ReservedSectorCount : Nat := 1
def fat16RootEntryCount : Nat := 512
def fat16NumberFats : Nat := 2
def fat16SectorsPerFat : Nat := 32
def fat16BytesPerCluster : Nat := fat16BytesPerSector * fat16SectorsPerCluster
def fat16BootloaderSize : Nat := 512
def ramdiskFat16Size : Nat := 4096 * 1024

def firstFatTableSector : Nat := fat16ReservedSectorCount
def secondFatTableSector : Nat := fat16ReservedSectorCount + fat16SectorsPerFat

/-- `SECOND_FAT_TABLE_SECTOR * FAT16_BYTES_PER_SECTOR`, as the preprocessor expands it. -/
def secondFatTableOffset : Nat :=
  fat16ReservedSectorCount + fat16SectorsPerFat * fat16BytesPerSector

def firstRootSector : Nat :=
  fat16ReservedSectorCount + fat16NumberFats * fat16SectorsPerFat
def rootDirectorySectors : Nat := fat16RootEntryCount * 32 / 512
def firstDataSector : Nat := firstRootSector + rootDirectorySectors
def clusterCount : Nat := (fat16TotalSectors - firstDataSector) / fat16SectorsPerCluster

def fat16RamdiskSuccess : Int := 0
def fat16RamdiskErrorNoFreeSpace : Int := 2
def fat16RamdiskErrorFileDoesntExist : Int := 3
def fat16RamdiskErrorFileExists : Int := 4
def fat16RamdiskDoesntSupportMulticluster : Int := 5

/-! ## Table cells -/

def eswapUint16 (value : UInt16) : UInt16 := (value <<< 8) ||| (value >>> 8)

/-- The value that ends a chain. -/
def clusterEnd : UInt16 := 0xFFF8

@[simp] theorem eswapUint16_eswapUint16 (v : UInt16) : eswapUint16 (eswapUint16 v) = v := by
  unfold eswapUint16
  apply UInt16.eq_of_toBitVec_eq
  ext i hi
  simp
  grind

theorem eswapUint16_inj {v w : UInt16} : eswapUint16 v = eswapUint16 w ↔ v = w := by
  constructor
  · intro h
    simpa using congrArg eswapUint16 h
  · rintro rfl
    rfl

/-! ## Directory entries -/

structure RamdiskFat16Entry where
  entryName : Vector UInt8 11
  entryAttrib : UInt8
  entryReserved : UInt8
  entryCreationTimeTenthSecs : UInt8
  entryCreationTime : UInt16
  entryCreationDate : UInt16
  lastAccessedDate : UInt16
  entryHighClusterNumber : UInt16
  lastModTime : UInt16
  lastModDate : UInt16
  entryLowClusterNumber : UInt16
  fileSize : UInt32
deriving DecidableEq

namespace RamdiskFat16Entry

/-- `sizeof(ramdisk_fat16_entry_t)`: the struct is packed. -/
def size : Nat := 32

def ofBytes (m : Buffer) : RamdiskFat16Entry where
  entryName := Vector.ofFn fun i => m i
  entryAttrib := m 11
  entryReserved := m 12
  entryCreationTimeTenthSecs := m 13
  entryCreationTime := le16 (m 14) (m 15)
  entryCreationDate := le16 (m 16) (m 17)
  lastAccessedDate := le16 (m 18) (m 19)
  entryHighClusterNumber := le16 (m 20) (m 21)
  lastModTime := le16 (m 22) (m 23)
  lastModDate := le16 (m 24) (m 25)
  entryLowClusterNumber := le16 (m 26) (m 27)
  fileSize := le32 (m 28) (m 29) (m 30) (m 31)

def toBytes (e : RamdiskFat16Entry) : Buffer := fun i =>
  if h : i < 11 then e.entryName[i]
  else if i = 11 then e.entryAttrib
  else if i = 12 then e.entryReserved
  else if i = 13 then e.entryCreationTimeTenthSecs
  else if i < 16 then byte16 e.entryCreationTime (i - 14)
  else if i < 18 then byte16 e.entryCreationDate (i - 16)
  else if i < 20 then byte16 e.lastAccessedDate (i - 18)
  else if i < 22 then byte16 e.entryHighClusterNumber (i - 20)
  else if i < 24 then byte16 e.lastModTime (i - 22)
  else if i < 26 then byte16 e.lastModDate (i - 24)
  else if i < 28 then byte16 e.entryLowClusterNumber (i - 26)
  else byte32 e.fileSize (i - 28)

/-- What is stored for an entry is read back as that entry. -/
@[simp] theorem ofBytes_toBytes (e : RamdiskFat16Entry) : ofBytes e.toBytes = e := by
  simp [ofBytes, toBytes]

/-- An entry is made of its first `size` bytes. -/
theorem ofBytes_congr {m m' : Buffer} (h : ∀ k, k < size → m' k = m k) :
    ofBytes m' = ofBytes m := by
  unfold size at h
  simp only [ofBytes, mk.injEq]
  refine ⟨?_, ?_⟩
  · congr 1
    ext i
    rw [h i (by omega)]
  · simp [h]

end RamdiskFat16Entry

/-! ## The bytes of the disk -/

abbrev Image := Nat → UInt8

namespace Image

/-- Cell `c` of the first table, as it is stored. -/
def cell (img : Image) (c : Nat) : UInt16 :=
  le16 (img (firstFatTableSector * fat16BytesPerSector + c * 2))
    (img (firstFatTableSector * fat16BytesPerSector + c * 2 + 1))

/-- The link stored in cell `c`, decoded in the writer's byte order; none at the end mark. -/
def next (img : Image) (c : Nat) : Option Nat :=
  let link := eswapUint16 (img.cell c)
  if link = clusterEnd then none else some link.toNat

/-- Root directory entry `i`. -/
def rootEntry (img : Image) (i : Nat) : RamdiskFat16Entry :=
  .ofBytes fun k => img (firstRootSector * fat16BytesPerSector + i * RamdiskFat16Entry.size + k)

/-- The data sector of cluster `c`. -/
def sector (img : Image) (c : Nat) : Buffer :=
  fun k => img ((firstDataSector + c) * fat16BytesPerSector + k)

end Image

end KoizOs
