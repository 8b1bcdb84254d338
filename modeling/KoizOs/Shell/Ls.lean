import KoizOs.Fat.Store
import KoizOs.Shell.Reports

/-!
# What `ls` lists

`ramdisk_fat16_list_info` looks at every cell of the first table and at the 32 directory
entries that the driver uses.  Its `%s` starts at the 11 bytes of a name, which have no NUL of
their own: the string ends at the attribute byte behind them, which every write sets to 0.

    entry i, 1 ≤ i ≤ 31    the i-th file written
    entry 0                the last one written, once there are more than 31
-/

namespace KoizOs

open Lib

/-! ## Algorithm -/

/-- `n` clusters are left to look at, the next one is `i`. -/
def countFreeLoop : (n i : Nat) → (currentCluster : Buffer) → (freeClusters : UInt16) → Ramdisk →
    Kern (UInt16 × Ramdisk)
  | 0, _, _, freeClusters, rd => .ok (freeClusters, rd)
  | n + 1, i, currentCluster, freeClusters, rd => do
    let (_, currentCluster, rd) ← ramdiskRead
      (UInt32.ofNat (firstFatTableSector * fat16BytesPerSector + i * 2)) currentCluster
      (UInt32.ofNat 2) rd
    countFreeLoop n (i + 1) currentCluster
      (if le16 (currentCluster 0) (currentCluster 1) = 0 then freeClusters + 1 else freeClusters) rd

/-- `n` entries are left to look at, the next one is `i`.  The name is at the start of the
struct `curRootEntry`. -/
def listFilesLoop : (n i : Nat) → (curRootEntry : Buffer) → Output → Ramdisk →
    Except ReadFault (Output × Ramdisk)
  | 0, _, _, out, rd => .ok (out, rd)
  | n + 1, i, curRootEntry, out, rd => do
    let (_, curRootEntry, rd) ← (readRootEntry i curRootEntry rd).mapError .kern
    let entry := RamdiskFat16Entry.ofBytes curRootEntry
    if NameUsed entry.entryName then
      let name ← (bufferString curRootEntry).mapError .kern
      let out ← say "File %d: %s | Size: %d bytes | Cluster: %d\n"
        [.int (UInt32.ofNat i), .str name, .int entry.fileSize,
          .int entry.entryLowClusterNumber.toUInt32] out
      listFilesLoop n (i + 1) curRootEntry out rd
    else listFilesLoop n (i + 1) curRootEntry out rd

def ramdiskFat16ListInfo (stack : Buffer) (rd : Ramdisk) (out : Output) :
    Except ReadFault (Output × Ramdisk) := do
  let out ← say "Filesize of FAT16 Ramdisk: %d MB\n"
    [.int (UInt32.ofNat (ramdiskFat16Size / 1024 / 1024))] out
  let out ← say "Total Sectors: %d | Bytes per Cluster: %d\n"
    [.int (UInt32.ofNat fat16TotalSectors), .int (UInt32.ofNat fat16BytesPerSector)] out
  let out ← say "FAT Sectors: %d | Root Sectors: %d | Data Clusters: %d\n"
    [.int (UInt32.ofNat fat16ReservedSectorCount), .int (UInt32.ofNat rootDirectorySectors),
      .int (UInt32.ofNat clusterCount)] out
  let (freeClusters, rd) ← (countFreeLoop clusterCount 0 (byte16 0) 0 rd).mapError .kern
  let out ← say "Used Clusters : %d | Free Clusters %d\n"
    [.int (UInt32.ofNat clusterCount - freeClusters.toUInt32), .int freeClusters.toUInt32] out
  let out ← say "\n===File List===\n" [] out
  let (out, rd) ← listFilesLoop rootDirectorySectors 0 stack out rd
  let out ← say "\n" [] out
  return (out, rd)

/-! ## The clusters -/

variable {rd rd' rd₀ : Ramdisk} {img img₁ : Image} {n i : Nat} {buf stack rest₁ rest₂ : Buffer}

theorem countFreeLoop_eq (h : rd.Valid 1024) (hi : i + n ≤ clusterCount) (c : UInt16) :
    countFreeLoop n i buf c rd =
      .ok (c + UInt16.ofNat ((List.range' i n).countP fun c => rd.image.cell c = 0), rd) := by
  induction n generalizing i buf c with
  | zero => exact congrArg (fun c => Except.ok (c, rd)) (UInt16.add_zero c).symm
  | succ n ih =>
    have hi' : i + (n + 1) ≤ 415 := hi
    have ha : firstFatTableSector * fat16BytesPerSector + i * 2 + 2 ≤ ramdiskFat16Size := by
      show 1 * 512 + i * 2 + 2 ≤ 4096 * 1024
      omega
    have hcell : le16 (patch buf 0 2 (fun k =>
          rd.image (firstFatTableSector * fat16BytesPerSector + i * 2 + k)) 0)
        (patch buf 0 2 (fun k =>
          rd.image (firstFatTableSector * fat16BytesPerSector + i * 2 + k)) 1) =
        rd.image.cell i := rfl
    rw [countFreeLoop, h.read buf ha, ok_bind]
    dsimp only
    rw [hcell, ih (by omega), List.range'_succ, List.countP_cons]
    by_cases h0 : rd.image.cell i = 0
    · rw [if_pos h0, if_pos (by simp [h0]), UInt16.ofNat_add, UInt16.add_assoc, UInt16.add_comm 1]
      rfl
    · rw [if_neg h0, if_neg (by simp [h0])]
      rfl

/-- Sixteen bits are enough for the count. -/
theorem toUInt32_freeClusters (img : Image) :
    (UInt16.ofNat img.freeClusters).toUInt32 = UInt32.ofNat img.freeClusters := by
  have hle : img.freeClusters ≤ 415 := freeClusters_le img
  apply UInt32.toNat_inj.mp
  rw [UInt16.toNat_toUInt32, UInt16.toNat_ofNat', UInt32.toNat_ofNat']
  omega

/-! ## The entries -/

theorem getD_ne {cs : List UInt8} {c d : UInt8} (hcs : c ∉ cs) (hd : d ≠ c) (i : Nat) :
    cs.getD i d ≠ c := by
  by_cases hi : i < cs.length
  · rw [List.getD_eq_getElem _ _ hi]
    rintro rfl
    exact hcs (List.getElem_mem hi)
  · rw [List.getD_eq_default _ _ (Nat.not_lt.mp hi)]
    exact hd

theorem nativeByte_ne_zero (raw : CString) (i : Nat) : nativeByte raw.chars i ≠ 0 := by
  have hbase : 0 ∉ before 0x2E raw.chars := fun hmem => raw.no_nul (before_subset hmem)
  have hext : 0 ∉ after 0x2E raw.chars := fun hmem => raw.no_nul (after_subset hmem)
  unfold nativeByte
  split
  · exact getD_ne hbase (by decide) i
  · exact getD_ne hext (by decide) (i - 8)

/-- The name that is stored for a file, as a string. -/
def nativeName (fileName : CString) : CString where
  chars := (List.range 11).map (nativeByte fileName.chars)
  no_nul hmem := by
    obtain ⟨i, -, hi⟩ := List.mem_map.mp hmem
    exact nativeByte_ne_zero fileName i hi

/-- The `k`-th of the files written is in entry `k`, as long as there are such entries. -/
def entryWrite (ws : List FatWrite) (i : Nat) : Option FatWrite :=
  if i = 0 then if ws.length < rootDirectorySectors then none else ws.getLast?
  else ws[i - 1]?

/-- Entry `i` was stored by the write `w`. -/
structure Image.Holds (img : Image) (i : Nat) (w : FatWrite) : Prop where
  name : (img.rootEntry i).entryName = ramdiskFat16FilenameToNative w.fileName
  /-- the name's NUL -/
  attrib : (img.rootEntry i).entryAttrib = 0
  size : (img.rootEntry i).fileSize = w.dataSize

/-- The directory after the files `ws` were written. -/
structure Image.Listed (img : Image) (ws : List FatWrite) : Prop where
  unused : ∀ i, i < rootDirectorySectors → entryWrite ws i = none → ¬ img.Used i
  used : ∀ i w, i < rootDirectorySectors → entryWrite ws i = some w → img.Holds i w

/-- The entry that the next file goes to. -/
def nextEntry (ws : List FatWrite) : Nat :=
  if ws.length + 1 < rootDirectorySectors then ws.length + 1 else 0

theorem entryWrite_concat (ws : List FatWrite) (w : FatWrite) (hi : i < rootDirectorySectors) :
    entryWrite (ws ++ [w]) i = if i = nextEntry ws then some w else entryWrite ws i := by
  have hi' : i < 32 := hi
  have h32 : rootDirectorySectors = 32 := rfl
  have hlen : (ws ++ [w]).length = ws.length + 1 := List.length_append
  by_cases h0 : i = 0
  · unfold entryWrite nextEntry
    rw [if_pos h0, if_pos h0, hlen, List.getLast?_concat]
    by_cases hroom : ws.length + 1 < rootDirectorySectors
    · rw [if_pos hroom, if_pos hroom, if_neg (by omega), if_pos (by omega)]
    · rw [if_neg hroom, if_neg hroom, if_pos h0]
  · have hcond : i = nextEntry ws ↔ i - 1 = ws.length := by
      unfold nextEntry
      split <;> omega
    rw [entryWrite, if_neg h0, entryWrite, if_neg h0]
    by_cases hnew : i - 1 = ws.length
    · rw [if_pos (hcond.mpr hnew), hnew, List.getElem?_concat_length]
    · rw [if_neg (mt hcond.mp hnew)]
      by_cases hlt : i - 1 < ws.length
      · exact List.getElem?_append_left hlt
      · rw [List.getElem?_eq_none (by omega), List.getElem?_eq_none (by omega)]

namespace Image.Listed

variable {ws : List FatWrite} {w : FatWrite}

theorem usedEntry (h : img.Listed ws) (hi : i < rootDirectorySectors)
    (hw : entryWrite ws i = some w) : img.Used i := by
  unfold Image.Used
  rw [(h.used i w hi hw).name]
  exact nameUsed_native w.fileName

theorem freeRootEntry_eq (h : img.Listed ws) : img.freeRootEntry = nextEntry ws := by
  have h32 : rootDirectorySectors = 32 := rfl
  have hbefore : ∀ j, 1 ≤ j → j ≤ ws.length → j < rootDirectorySectors → img.Used j := by
    intro j hj hle hlt
    have hw : entryWrite ws j = some ws[j - 1] := by
      rw [entryWrite, if_neg (by omega), List.getElem?_eq_getElem (by omega)]
    exact h.usedEntry hlt hw
  unfold nextEntry
  split
  · next hlt =>
    refine (firstFrom_eq_iff (by omega)).mpr ⟨by omega, ?_, ?_⟩
    · apply h.unused _ hlt
      rw [entryWrite, if_neg (by omega), Nat.add_sub_cancel, List.getElem?_eq_none (Nat.le_refl _)]
    · intro j hj hlt' hnot
      exact hnot (hbefore j hj (by omega) (by omega))
  · next hfull =>
    refine (firstFrom_eq_zero_iff (by omega)).mpr ?_
    intro j hj hlt' hnot
    exact hnot (hbefore j hj (by omega) (by omega))

theorem formatted (rest₁ rest₂ : Buffer) (img : Image) :
    (formatted rest₁ rest₂ img).Listed [] where
  unused i hi _ := formatted_not_used rest₁ rest₂ img hi
  used i w _ hw := by
    unfold entryWrite at hw
    split_ifs at hw
    · cases hw
    · cases hw

/-- One file more. -/
theorem storeEntry {cs : List Nat} (h : img.Listed ws)
    (hs : Image.Stored w.data w.dataSize.toNat img img₁ cs) :
    (storeEntry img img₁ w.stack w.fileName w.dataSize).Listed (ws ++ [w]) := by
  have hentry : ∀ i, i < rootDirectorySectors →
      (KoizOs.storeEntry img img₁ w.stack w.fileName w.dataSize).rootEntry i =
        if i = nextEntry ws then newRootEntry w.stack w.fileName w.dataSize img.freeCluster
        else img.rootEntry i := by
    intro i hi
    rw [rootEntry_storeEntry hs hi, h.freeRootEntry_eq]
  constructor
  · intro i hi hnone
    rw [entryWrite_concat ws w hi] at hnone
    split_ifs at hnone with hi'
    rw [Image.Used, hentry i hi, if_neg hi']
    exact h.unused i hi hnone
  · intro i w' hi hw
    rw [entryWrite_concat ws w hi] at hw
    split_ifs at hw with hi'
    · obtain rfl := Option.some.inj hw
      have hnew := (hentry i hi).trans (if_pos hi')
      exact ⟨by rw [hnew]; rfl, by rw [hnew]; rfl, by rw [hnew]; rfl⟩
    · have hold := (hentry i hi).trans (if_neg hi')
      have hholds := h.used i w' hi hw
      exact ⟨by rw [hold, hholds.name], by rw [hold, hholds.attrib], by rw [hold, hholds.size]⟩

end Image.Listed

/-- A write that is refused lists nothing more. -/
theorem FatOk.listed_step {ws : List FatWrite} {w : FatWrite} (hok : FatOk rd)
    (h : rd.image.Listed ws) (hs : w.Step rd rd') : ∃ ws', rd'.image.Listed ws' := by
  rcases hok.step_cases hs with ⟨-, -, rfl⟩ | ⟨-, -, -, -, img₁, cs, hst, -, himg⟩
  · exact ⟨ws, h⟩
  · rw [himg]
    exact ⟨_, h.storeEntry hst⟩

/-- The writes of a run that stored a file, in order. -/
def writes (tr : List (Ramdisk × FatWrite)) : List FatWrite :=
  (tr.map Prod.snd).filter fun w => w.res = 0

theorem writes_concat (tr : List (Ramdisk × FatWrite)) (w : FatWrite) :
    writes (tr ++ [(rd, w)]) = if w.res = 0 then writes tr ++ [w] else writes tr := by
  rw [writes, List.map_append, List.filter_append, List.map_singleton, List.filter_singleton]
  split
  · next hres => rw [decide_eq_true hres, cond_true, writes]
  · next hres => rw [decide_eq_false hres, cond_false, List.append_nil, writes]

theorem FatInit.listed {tr : List (Ramdisk × FatWrite)} (hinit : FatInit rest₁ rest₂ rd₀)
    (htr : Trace FatWrite.Step rd₀ tr rd) : FatOk rd ∧ rd.image.Listed (writes tr) := by
  induction htr with
  | start =>
    obtain ⟨-, img, himg⟩ := hinit.spec
    exact ⟨hinit.ok, himg ▸ .formatted rest₁ rest₂ img⟩
  | @next tr t u w _ hs ih =>
    obtain ⟨hok, hlisted⟩ := ih
    rw [writes_concat]
    rcases hok.step_cases hs with ⟨-, hres, rfl⟩ | ⟨-, -, hres, hok', img₁, cs, hst, -, himg⟩
    · rw [if_neg hres]
      exact ⟨hok, hlisted⟩
    · rw [if_pos hres, himg]
      exact ⟨hok', hlisted.storeEntry hst⟩

/-! ## The report -/

/-- The line of entry `i`, which holds what `w` wrote. -/
def fileRow (img : Image) (i : Nat) (w : FatWrite) : Output :=
  line "File %d: %s | Size: %d bytes | Cluster: %d\n"
    [.int (UInt32.ofNat i), .str (nativeName w.fileName), .int w.dataSize,
      .int (img.rootEntry i).entryLowClusterNumber.toUInt32]

/-- A struct that an entry was read into starts with its name. -/
theorem Image.Holds.stringIn {w : FatWrite} (h : img.Holds i w) {entry : Buffer}
    (hentry : RamdiskFat16Entry.ofBytes entry = img.rootEntry i) :
    StringIn entry 0 (nativeName w.fileName).chars where
  chars j hj := by
    have hj' : j < 11 := by
      rw [nativeName, List.length_map, List.length_range] at hj
      exact hj
    have hname : (RamdiskFat16Entry.ofBytes entry).entryName[j] = entry j :=
      Vector.getElem_ofFn ..
    simp only [nativeName, List.getElem_map, List.getElem_range]
    rw [Nat.zero_add, ← hname, ← filenameToNative_getElem w.fileName j hj']
    simp only [hentry, h.name]
  nul := by
    have hattrib : (RamdiskFat16Entry.ofBytes entry).entryAttrib = entry 11 := rfl
    rw [show (nativeName w.fileName).chars.length = 11 from by simp [nativeName], Nat.zero_add,
      ← hattrib, hentry, h.attrib]
  no_nul := (nativeName w.fileName).no_nul

theorem listFilesLoop_eq {ws : List FatWrite} (h : rd.Valid 1024) (hl : rd.image.Listed ws)
    (hi : i + n ≤ rootDirectorySectors) (out : Output) :
    listFilesLoop n i buf out rd = .ok (out ++ (List.range' i n).flatMap fun j =>
      (entryWrite ws j).elim [] (fileRow rd.image j), rd) := by
  induction n generalizing i buf out with
  | zero => exact congrArg (fun out => Except.ok (out, rd)) (List.append_nil out).symm
  | succ n ih =>
    have hlt : i < rootDirectorySectors := by omega
    obtain ⟨entry, hread, hentry⟩ := h.readRootEntry buf hlt
    have hu : NameUsed (RamdiskFat16Entry.ofBytes entry).entryName ↔ rd.image.Used i := by
      rw [hentry]
      exact Iff.rfl
    rw [listFilesLoop, hread, List.range'_succ, List.flatMap_cons]
    show (if NameUsed (RamdiskFat16Entry.ofBytes entry).entryName then _ else _) = _
    cases hw : entryWrite ws i with
    | none =>
      rw [if_neg (mt hu.mp (hl.unused i hlt hw)), ih (by omega)]
      rfl
    | some w =>
      have hholds := hl.used i w hlt hw
      have hlen : (nativeName w.fileName).chars.length < memorySize := by
        rw [nativeName, List.length_map, List.length_range]
        decide
      rw [if_pos (hu.mpr (hl.usedEntry hlt hw)), bufferString_eq (hholds.stringIn hentry) hlen]
      show (say _ _ out >>= _) = _
      rw [say_bind [.int, .str, .int, .int] rfl (by decide), ih (by omega), List.append_assoc,
        hentry, hholds.size]
      rfl

/-- What `ls` prints of a disk with the files `ws`. -/
def listing (img : Image) (ws : List FatWrite) : Output :=
  line "Filesize of FAT16 Ramdisk: %d MB\n" [.int 4] ++
  line "Total Sectors: %d | Bytes per Cluster: %d\n" [.int 512, .int 512] ++
  line "FAT Sectors: %d | Root Sectors: %d | Data Clusters: %d\n" [.int 1, .int 32, .int 415] ++
  line "Used Clusters : %d | Free Clusters %d\n"
    [.int (UInt32.ofNat (415 - img.freeClusters)), .int (UInt32.ofNat img.freeClusters)] ++
  line "\n===File List===\n" [] ++
  ((List.range rootDirectorySectors).flatMap fun i =>
    (entryWrite ws i).elim [] (fileRow img i)) ++
  line "\n" []

theorem ramdiskFat16ListInfo_eq {ws : List FatWrite} (h : rd.Valid 1024) (hl : rd.image.Listed ws)
    (out : Output) :
    ramdiskFat16ListInfo stack rd out = .ok (out ++ listing rd.image ws, rd) := by
  have hle : rd.image.freeClusters ≤ 415 := freeClusters_le rd.image
  have hcount : countFreeLoop clusterCount 0 (byte16 0) 0 rd =
      .ok (UInt16.ofNat rd.image.freeClusters, rd) := by
    rw [countFreeLoop_eq h (Nat.le_of_eq (Nat.zero_add _)), UInt16.zero_add,
      ← List.range_eq_range']
    rfl
  have hused : UInt32.ofNat clusterCount - UInt32.ofNat rd.image.freeClusters =
      UInt32.ofNat (415 - rd.image.freeClusters) := by
    rw [show clusterCount = 415 - rd.image.freeClusters + rd.image.freeClusters from
      (Nat.sub_add_cancel hle).symm, UInt32.ofNat_add, UInt32.add_sub_cancel]
  have hmb : UInt32.ofNat (ramdiskFat16Size / 1024 / 1024) = 4 := by decide
  have htotal : UInt32.ofNat fat16TotalSectors = 512 := by decide
  have hbytes : UInt32.ofNat fat16BytesPerSector = 512 := by decide
  have hreserved : UInt32.ofNat fat16ReservedSectorCount = 1 := by decide
  have hroot : UInt32.ofNat rootDirectorySectors = 32 := by decide
  have hclusters : UInt32.ofNat clusterCount = 415 := by decide
  have hfiles := fun out => @listFilesLoop_eq rd rootDirectorySectors 0 stack ws h hl
    (Nat.le_of_eq (Nat.zero_add _)) out
  rw [← List.range_eq_range'] at hfiles
  unfold ramdiskFat16ListInfo
  rw [hmb, htotal, hbytes, hreserved, hroot, hclusters, say_bind [.int] rfl (by decide),
    say_bind [.int, .int] rfl (by decide), say_bind [.int, .int, .int] rfl (by decide),
    kern_bind hcount]
  dsimp only
  rw [say_bind [.int, .int] rfl (by decide), say_bind [] rfl (by decide),
    bind_of_ok (hfiles _), toUInt32_freeClusters, ← hclusters, hused]
  dsimp only
  rw [say_bind [] rfl (by decide)]
  unfold listing
  simp only [List.append_assoc, hclusters]
  rfl

theorem writes_clusters {tr : List (Ramdisk × FatWrite)} (hinit : FatInit rest₁ rest₂ rd₀)
    (htr : Trace FatWrite.Step rd₀ tr rd) :
    rd.image.freeClusters + ((writes tr).map FatWrite.clusters).sum = rd₀.image.freeClusters := by
  induction htr with
  | start => rfl
  | @next tr t u w htr hs ih =>
    have hok := (hinit.listed htr).1
    rw [writes_concat]
    rcases hok.step_cases hs with ⟨-, hres, rfl⟩ | ⟨-, -, hres, -, img₁, cs, hst, hhead, himg⟩
    · rw [if_neg hres]
      exact ih
    · have htake := freeClusters_storeEntry hok.inv hst hhead
      rw [if_pos hres, himg, List.map_append, List.sum_append, List.map_singleton,
        List.sum_singleton]
      omega

/-- **`ls`.**  After any run of writes on a new disk it lists the files written in the order of
their entries, each with its size and its name in full, and the clusters that are left. -/
theorem ls_lists_written {tr : List (Ramdisk × FatWrite)} (hinit : FatInit rest₁ rest₂ rd₀)
    (htr : Trace FatWrite.Step rd₀ tr rd) (stack : Buffer) (out : Output) :
    ramdiskFat16ListInfo stack rd out = .ok (out ++ listing rd.image (writes tr), rd) ∧
      rd.image.freeClusters + ((writes tr).map FatWrite.clusters).sum =
        rd₀.image.freeClusters := by
  obtain ⟨hok, hl⟩ := hinit.listed htr
  exact ⟨ramdiskFat16ListInfo_eq hok.valid hl out, writes_clusters hinit htr⟩

/-- The one file `A`, of 600 bytes: one cluster less is free, and its line is in the list. -/
theorem ls_lists_written_one : ∃ rd rd' : Ramdisk, ∃ w : FatWrite,
    ramdiskFat16FileWrite zeroSector ⟨[0x41], by decide⟩ zeroSector 600 rd = .ok (0, rd') ∧
    w.fileName.chars = [0x41] ∧
    ramdiskFat16ListInfo zeroSector rd' [] = .ok (listing rd'.image [w], rd') ∧
    rd'.image.freeClusters + 1 = rd.image.freeClusters := by
  obtain ⟨rd, s, rd', -, hfat, -, -, hw⟩ :=
    exists_first_write ⟨[0x41], by decide⟩ zeroSector 600 (by decide)
  have hs : FatWrite.Step rd ⟨zeroSector, ⟨[0x41], by decide⟩, zeroSector, 600, 0⟩ rd' := hw
  obtain ⟨hls, hfree⟩ := ls_lists_written hfat (Trace.start.next hs) zeroSector []
  have hone : ((600 : UInt32).toNat - 1) / 1024 + 1 + 0 = 1 := by decide
  exact ⟨rd, rd', _, hw, rfl, hls, (congrArg (rd'.image.freeClusters + ·) hone.symm).trans hfree⟩

end KoizOs
