import KoizOs.Fat.Layout
import KoizOs.Libc.String
import KoizOs.Ramdisk.Ramdisk

/-!
# The FAT16 driver of the ramdisk

Result codes of `ramdisk_read` and `ramdisk_write` are dropped here as they are in the
source.  `stack` is what a local variable holds before anything is stored in it, and
`rest` what lies in memory behind a local array.  Cluster and entry numbers are natural
numbers; they become machine words where they are stored.
-/

namespace KoizOs

open Function Lib

/-! ## Sectors -/

def writeSector (startSec : Nat) (data : Buffer) (rd : Ramdisk) : Kern (Int × Buffer × Ramdisk) :=
  ramdiskWrite (UInt32.ofNat (startSec * fat16BytesPerSector)) data
    (UInt32.ofNat fat16BytesPerSector) rd

def writeSectorPartial (startSec : Nat) (data : Buffer) (len : Nat) (rd : Ramdisk) :
    Kern (Int × Buffer × Ramdisk) :=
  ramdiskWrite (UInt32.ofNat (startSec * fat16BytesPerSector)) data (UInt32.ofNat len) rd

def readSector (startSec : Nat) (data : Buffer) (rd : Ramdisk) : Kern (Int × Buffer × Ramdisk) :=
  ramdiskRead (UInt32.ofNat (startSec * fat16BytesPerSector)) data
    (UInt32.ofNat fat16BytesPerSector) rd

/-- `ramdisk_read` of root entry `i` into the struct at `entry`. -/
def readRootEntry (i : Nat) (entry : Buffer) (rd : Ramdisk) : Kern (Int × Buffer × Ramdisk) :=
  ramdiskRead
    (UInt32.ofNat (firstRootSector * fat16BytesPerSector + i * RamdiskFat16Entry.size)) entry
    (UInt32.ofNat RamdiskFat16Entry.size) rd

/-! ## Free clusters and entries -/

/-- `n` clusters are left to look at, the next one is `i`. -/
def findNextFreeClusterLoop : (n i : Nat) → (currentCluster : Buffer) → Ramdisk →
    Kern (Nat × Ramdisk)
  | 0, _, _, rd => .ok (0, rd)
  | n + 1, i, currentCluster, rd => do
    let (_, currentCluster, rd) ← ramdiskRead
      (UInt32.ofNat (firstFatTableSector * fat16BytesPerSector + i * 2)) currentCluster
      (UInt32.ofNat 2) rd
    if le16 (currentCluster 0) (currentCluster 1) = 0 then .ok (i, rd)
    else findNextFreeClusterLoop n (i + 1) currentCluster rd

def findNextFreeCluster (rd : Ramdisk) : Kern (Nat × Ramdisk) :=
  findNextFreeClusterLoop clusterCount 0 (byte16 0) rd

def findNextFreeRootEntryLoop : (n i : Nat) → (curRootEntry : Buffer) → Ramdisk →
    Kern (Nat × Ramdisk)
  | 0, _, _, rd => .ok (0, rd)
  | n + 1, i, curRootEntry, rd => do
    let (_, curRootEntry, rd) ← readRootEntry i curRootEntry rd
    if (RamdiskFat16Entry.ofBytes curRootEntry).entryName[0] = 0 then .ok (i, rd)
    else findNextFreeRootEntryLoop n (i + 1) curRootEntry rd

/-- The loop bound is the number of directory sectors, not of directory entries. -/
def findNextFreeRootEntry (stack : Buffer) (rd : Ramdisk) : Kern (Nat × Ramdisk) :=
  findNextFreeRootEntryLoop (rootDirectorySectors - 1) 1 stack rd

/-- What both directory scans ask of an entry that is in use. -/
def NameUsed (entryName : Vector UInt8 11) : Prop := entryName[0] ≠ 0

instance (entryName : Vector UInt8 11) : Decidable (NameUsed entryName) :=
  inferInstanceAs (Decidable (_ ≠ _))

/-! ## Formatting -/

/-- `ramdisk_fat16_bootrecord`: 62 bytes of header, 448 reserved, and the magic number. -/
def ramdiskFat16Bootrecord : List UInt8 :=
  [0xEB, 0x3C, 0x90,
   0x6D, 0x6B, 0x66, 0x73, 0x2E, 0x64, 0x6F, 0x73,
   0x00, 0x20, 0x01, 0x01, 0x00, 0x02, 0x00, 0x02, 0x00, 0x20, 0xF8, 0x20, 0x00,
   0x20, 0x00, 0x40, 0x00, 0x00, 0x00, 0x00, 0x00, 0x00, 0x00, 0x00, 0x00,
   0x80, 0x00, 0x29, 0x20, 0x94, 0x06, 0x42,
   0x46, 0x41, 0x54, 0x31, 0x36, 0x4B, 0x4F, 0x49, 0x5A, 0x4F, 0x53,
   0x46, 0x41, 0x54, 0x31, 0x36, 0x20, 0x20, 0x20]
  ++ List.replicate 448 0 ++ [0x55, 0xAA]

def zeroSector : Buffer := fun _ => 0

/-- The first two cells.  The array has four bytes, `write_sector` takes 512 from it. -/
def startingSectors : Vector UInt8 4 := #v[0xF8, 0xFF, 0xFF, 0xFF]

def formatFatLoop : (n i : Nat) → Ramdisk → Kern Ramdisk
  | 0, _, rd => .ok rd
  | n + 1, i, rd => do
    let (_, _, rd) ← writeSector (firstFatTableSector + i) zeroSector rd
    let (_, _, rd) ← writeSector (secondFatTableSector + i) zeroSector rd
    formatFatLoop n (i + 1) rd

def formatRootLoop : (n i : Nat) → Ramdisk → Kern Ramdisk
  | 0, _, rd => .ok rd
  | n + 1, i, rd => do
    let (_, _, rd) ← writeSector (firstRootSector + i) zeroSector rd
    formatRootLoop n (i + 1) rd

/-- `rest₁` and `rest₂` lie behind `starting_sectors` when it is written to the two tables. -/
def ramdiskFat16Format (rest₁ rest₂ : Buffer) (rd : Ramdisk) : Kern Ramdisk := do
  let (_, _, rd) ← ramdiskWrite 0x00 (fun i => ramdiskFat16Bootrecord.getD i 0)
    (UInt32.ofNat fat16BootloaderSize) rd
  let rd ← formatFatLoop fat16SectorsPerFat 0 rd
  let rd ← formatRootLoop rootDirectorySectors 0 rd
  let (_, _, rd) ← writeSector firstFatTableSector (.ofArray startingSectors rest₁) rd
  let (_, _, rd) ← writeSector secondFatTableSector (.ofArray startingSectors rest₂) rd
  return rd

section Init

variable {σ : Type} (pmemAlloc : σ → Kern (UInt32 × σ))

def ramdiskFat16Init (rest₁ rest₂ : Buffer) (rd : Ramdisk) (pages : σ) : Kern (Ramdisk × σ) :=
  if ramdiskFat16Bootrecord.getD 510 0 ≠ 0x55 ∨ ramdiskFat16Bootrecord.getD 511 0 ≠ 0xAA then
    panic "Invalid FAT16 magic number in bootloader!"
  else do
    let (rd, pages) ← ramdiskInit pmemAlloc (UInt32.ofNat ramdiskFat16Size) rd pages
    let rd ← ramdiskFat16Format rest₁ rest₂ rd
    return (rd, pages)

end Init

/-! ## File names -/

/-- The local variables of the conversion loop. -/
structure NativeName where
  procFileName : Bool
  j : Nat
  fileNameBuffer : Buffer
  fileExtBuffer : Buffer

def filenameToNativeLoop : List UInt8 → NativeName → NativeName
  | [], st => st
  | c :: rest, st =>
    if st.procFileName then
      -- the first '.' switches to the extension
      if c = 0x2E then filenameToNativeLoop rest { st with procFileName := false, j := 0 }
      else if st.j < 8 then
        filenameToNativeLoop rest
          { st with fileNameBuffer := update st.fileNameBuffer st.j c, j := st.j + 1 }
      else filenameToNativeLoop rest st
    else if st.j < 3 then
      filenameToNativeLoop rest
        { st with fileExtBuffer := update st.fileExtBuffer st.j c, j := st.j + 1 }
    else filenameToNativeLoop rest st

def ramdiskFat16FilenameToNative (rawFileName : CString) : Vector UInt8 11 :=
  let st := filenameToNativeLoop rawFileName.chars
    { procFileName := true, j := 0, fileNameBuffer := fun _ => 0x20, fileExtBuffer := fun _ => 0x20 }
  Vector.ofFn fun i => if i < 8 then st.fileNameBuffer i else st.fileExtBuffer (i - 8)

/-! ## Files -/

def fileExistsLoop (stack : Buffer) (fileName : CString) : (n i : Nat) →
    (curRootEntry : Buffer) → Ramdisk → Kern (Nat × Ramdisk)
  | 0, _, _, rd => .ok (0, rd)
  | n + 1, i, curRootEntry, rd => do
    let (_, curRootEntry, rd) ← readRootEntry i curRootEntry rd
    let entry := RamdiskFat16Entry.ofBytes curRootEntry
    if entry.entryName[0] ≠ 0 ∧
        memcmp (.ofArray (ramdiskFat16FilenameToNative fileName) stack)
          (.ofArray entry.entryName stack) 11 = 0 then .ok (i, rd)
    else fileExistsLoop stack fileName n (i + 1) curRootEntry rd

/-- The number of the file's root entry, 0 if there is none. -/
def ramdiskFat16FileExists (stack : Buffer) (fileName : CString) (rd : Ramdisk) :
    Kern (Nat × Ramdisk) :=
  fileExistsLoop stack fileName (rootDirectorySectors - 1) 1 stack rd

def ramdiskFat16FileRead (stack : Buffer) (fileName : CString) (sectorBuffer : Buffer)
    (sectorIndex : UInt16) (rd : Ramdisk) : Kern (Int × Buffer × Ramdisk) := do
  let (rootEntryNum, rd) ← ramdiskFat16FileExists stack fileName rd
  if rootEntryNum = 0 then .ok (fat16RamdiskErrorFileDoesntExist, sectorBuffer, rd)
  else do
    let (_, entry, rd) ← readRootEntry rootEntryNum stack rd
    let currentSector := (RamdiskFat16Entry.ofBytes entry).entryLowClusterNumber
    let (_, sectorBuffer, rd) ← readSector (firstDataSector + currentSector.toNat) sectorBuffer rd
    if sectorIndex ≠ 0 then .ok (fat16RamdiskDoesntSupportMulticluster, sectorBuffer, rd)
    else .ok (fat16RamdiskSuccess, sectorBuffer, rd)

/-- Cell `cluster` of the first table, and of what is meant to be the second. -/
def writeFatCells (cluster : Nat) (swapped : UInt16) (rd : Ramdisk) : Kern Ramdisk := do
  let (_, _, rd) ← ramdiskWrite
    (UInt32.ofNat (firstFatTableSector * fat16BytesPerSector + cluster * 2)) (byte16 swapped)
    (UInt32.ofNat 2) rd
  let (_, _, rd) ← ramdiskWrite (UInt32.ofNat (secondFatTableOffset + cluster * 2))
    (byte16 swapped) (UInt32.ofNat 2) rd
  return rd

/-- The loop over full clusters.  It returns the bytes that are left for the last cluster,
where they start in `data`, and that cluster. -/
def fileWriteLoop (data : Buffer) (bytesLeftToWrite currentDataPointer currentSector : Nat)
    (rd : Ramdisk) : Kern (Nat × Nat × Nat × Ramdisk) :=
  if fat16BytesPerCluster < bytesLeftToWrite then do
    let (_, _, rd) ← writeSector (firstDataSector + currentSector) (data.add currentDataPointer) rd
    let lastSector := currentSector
    -- `lastSector` is not marked as used yet
    let (currentSector, rd) ← findNextFreeCluster rd
    if currentSector = 0 then panic "ramdisk_fat16_file_write: cannot undo partial write!\n"
    else do
      let rd ← writeFatCells lastSector (eswapUint16 (UInt16.ofNat currentSector)) rd
      fileWriteLoop data (bytesLeftToWrite - fat16BytesPerCluster)
        (currentDataPointer + fat16BytesPerCluster) currentSector rd
  else .ok (bytesLeftToWrite, currentDataPointer, currentSector, rd)
termination_by bytesLeftToWrite
decreasing_by
  have : 0 < fat16BytesPerCluster := by decide
  omega

/-- "We're now left with only a partial write or nothing to write at all." -/
def fileWritePartial (data : Buffer) (bytesLeftToWrite currentDataPointer currentSector : Nat)
    (rd : Ramdisk) : Kern Ramdisk :=
  if bytesLeftToWrite > 0 then do
    let (_, _, rd) ← writeSectorPartial (firstDataSector + currentSector)
      (data.add currentDataPointer) bytesLeftToWrite rd
    return rd
  else .ok rd

/-- What follows the loop: the rest of the data, the end mark and the directory entry. -/
def fileWriteEnd (stack : Buffer) (newEntry : RamdiskFat16Entry) (data : Buffer)
    (headSector bytesLeftToWrite currentDataPointer currentSector : Nat) (rd : Ramdisk) :
    Kern (Int × Ramdisk) := do
  let rd ← fileWritePartial data bytesLeftToWrite currentDataPointer currentSector rd
  let rd ← writeFatCells currentSector (eswapUint16 clusterEnd) rd
  let newEntry := { newEntry with entryLowClusterNumber := UInt16.ofNat headSector }
  -- 0 when the directory is full, and entry 0 is then overwritten
  let (newRootEntry, rd) ← findNextFreeRootEntry stack rd
  let (_, _, rd) ← ramdiskWrite
    (UInt32.ofNat (firstRootSector * fat16BytesPerSector + newRootEntry * RamdiskFat16Entry.size))
    newEntry.toBytes (UInt32.ofNat RamdiskFat16Entry.size) rd
  return (0, rd)

def ramdiskFat16FileWrite (stack : Buffer) (fileName : CString) (data : Buffer)
    (dataSize : UInt32) (rd : Ramdisk) : Kern (Int × Ramdisk) := do
  let nativeFileName := ramdiskFat16FilenameToNative fileName
  let (rootEntryNum, rd) ← ramdiskFat16FileExists stack fileName rd
  if rootEntryNum ≠ 0 then .ok (fat16RamdiskErrorFileExists, rd)
  else do
    -- the fields not set here keep what the stack held
    let newEntry := { RamdiskFat16Entry.ofBytes stack with
      entryName := nativeFileName, entryAttrib := 0, entryReserved := 0, fileSize := dataSize }
    let (headSector, rd) ← findNextFreeCluster rd
    if headSector = 0 then .ok (fat16RamdiskErrorNoFreeSpace, rd)
    else do
      let (bytesLeftToWrite, currentDataPointer, currentSector, rd) ←
        fileWriteLoop data dataSize.toNat 0 headSector rd
      fileWriteEnd stack newEntry data headSector bytesLeftToWrite currentDataPointer
        currentSector rd

end KoizOs
