import KoizOs.Fat.Format
import KoizOs.Fat.NativeName
import KoizOs.Fat.Write

/-!
# The directory and the cluster chains

`FatInv`: the used entries are an initial segment of 1 .. 31, their names differ, and
their chains are finite, within the data clusters and disjoint.  A write takes only
clusters whose cell is 0, and no cell on a chain is, so it cannot reach another file.

| result | content |
|--------|---------|
| `FatInv.write` | one write keeps the invariant |
| `fat16_directory_invariant` | every reachable file system has it |
| `fat16_files_undisturbed` | later writes leave a file's number and contents |
-/

namespace KoizOs

open Function Lib

/-! ## Native names -/

/-- A stored name never looks like that of an unused entry. -/
theorem nameUsed_native (fileName : CString) : NameUsed (ramdiskFat16FilenameToNative fileName) := by
  unfold NameUsed
  rw [filenameToNative_getElem fileName 0 (by decide)]
  exact nativeByte_zero fileName

theorem nameMatches_native (fileName : CString) :
    NameMatches fileName (ramdiskFat16FilenameToNative fileName) :=
  fun _ _ => UInt8.le_refl _

@[simp] theorem newRootEntry_entryName (stack : Buffer) (fileName : CString) (dataSize : UInt32)
    (head : Nat) : (newRootEntry stack fileName dataSize head).entryName =
      ramdiskFat16FilenameToNative fileName := rfl

@[simp] theorem newRootEntry_entryLowClusterNumber (stack : Buffer) (fileName : CString)
    (dataSize : UInt32) (head : Nat) :
    (newRootEntry stack fileName dataSize head).entryLowClusterNumber = UInt16.ofNat head := rfl

/-! ## The invariant -/

namespace Image

/-- Entry `i` holds a file that the driver's scans can find. -/
def IsFile (img : Image) (i : Nat) : Prop := 1 ≤ i ∧ i < rootDirectorySectors ∧ img.Used i

/-- The clusters of entry `i`: its chain in the first table, which ends at the end mark. -/
structure FileChain (img : Image) (i : Nat) (chain : List Nat) : Prop where
  links : IsList img.next (some (img.rootEntry i).entryLowClusterNumber.toNat) chain
  nodup : chain.Nodup
  range : ∀ c ∈ chain, 2 ≤ c ∧ c < clusterCount

end Image

/-- What holds of the bytes of a file system between two calls. -/
structure FatInv (img : Image) : Prop where
  reserved : img.cell 0 ≠ 0 ∧ img.cell 1 ≠ 0
  initial : ∃ m, ∀ i, img.IsFile i ↔ 1 ≤ i ∧ i ≤ m
  names : ∀ i j, img.IsFile i → img.IsFile j →
    (img.rootEntry i).entryName = (img.rootEntry j).entryName → i = j
  chains : ∃ chain : Nat → List Nat, (∀ i, img.IsFile i → img.FileChain i (chain i)) ∧
    ∀ i j, img.IsFile i → img.IsFile j → i ≠ j → (chain i).Disjoint (chain j)

variable {img img₁ : Image} {data stack rest₁ rest₂ : Buffer} {n r i k : Nat} {cs : List Nat}
  {fileName : CString} {dataSize : UInt32} {rd rd' : Ramdisk} {res : Int}

namespace Image

/-- No cluster on a chain counts as free: a free cell would link to cluster 0. -/
theorem FileChain.not_free {chain : List Nat} (h : img.FileChain i chain) {c : Nat}
    (hc : c ∈ chain) : img.cell c ≠ 0 := by
  intro h0
  have := (h.range 0 (h.links.next_mem hc (next_of_free h0))).1
  omega

theorem lookup_eq_zero_iff :
    img.lookup fileName = 0 ↔
      ∀ i, img.IsFile i → ¬ NameMatches fileName (img.rootEntry i).entryName := by
  rw [lookup, firstFrom_eq_zero_iff (by omega)]
  constructor
  · intro h i hi hm
    exact h i hi.1 (by have := hi.2.1; omega) ⟨hi.2.2, hm⟩
  · intro h i hi hlt hm
    exact h i ⟨hi, by omega, hm.1⟩ hm.2

theorem lookup_eq_iff (hk : k ≠ 0) :
    img.lookup fileName = k ↔ img.IsFile k ∧ NameMatches fileName (img.rootEntry k).entryName ∧
      ∀ i, img.IsFile i → i < k → ¬ NameMatches fileName (img.rootEntry i).entryName := by
  rw [lookup, firstFrom_eq_iff hk]
  constructor
  · rintro ⟨hrange, ⟨hused, hm⟩, hbefore⟩
    exact ⟨⟨by omega, by omega, hused⟩, hm, fun i hi hik hmi => hbefore i hi.1 hik ⟨hi.2.2, hmi⟩⟩
  · rintro ⟨hfile, hm, hbefore⟩
    have h2 := hfile.2.1
    exact ⟨by omega, ⟨hfile.2.2, hm⟩,
      fun i hi hik h => hbefore i ⟨hi, by omega, h.1⟩ hik h.2⟩

end Image

/-! ## One write -/

/-- The free entry a write takes is the one after the last file, or 0. -/
theorem FatInv.freeRootEntry_cases (h : FatInv img) (hr : img.freeRootEntry = r) :
    r = 0 ∨ 1 ≤ r ∧ r < rootDirectorySectors ∧ ¬ img.Used r ∧
      ∀ i, img.IsFile i ↔ 1 ≤ i ∧ i < r := by
  by_cases h0 : r = 0
  · exact .inl h0
  · right
    obtain ⟨hrange, hfree, hbefore⟩ := (firstFrom_eq_iff h0).mp hr
    obtain ⟨m, hm⟩ := h.initial
    have hrm : ¬ (1 ≤ r ∧ r ≤ m) := fun h => hfree ((hm r).mpr h).2.2
    refine ⟨by omega, by omega, hfree, ?_⟩
    intro i
    constructor
    · intro hi
      have := (hm i).mp hi
      omega
    · rintro ⟨hi, hir⟩
      exact ⟨hi, by omega, not_not.mp (hbefore i hi hir)⟩

/-- A write never takes the entry of a file. -/
theorem FatInv.ne_freeRootEntry (h : FatInv img) (hi : img.IsFile i) : i ≠ img.freeRootEntry := by
  rintro rfl
  rcases h.freeRootEntry_cases rfl with h0 | ⟨-, -, hfree, -⟩
  · have := hi.1
    omega
  · exact hfree hi.2.2

/-- The entry of a new file, once its clusters are written. -/
def storeEntry (img img₁ : Image) (stack : Buffer) (fileName : CString) (dataSize : UInt32) : Image :=
  img₁.setRootEntry img.freeRootEntry (newRootEntry stack fileName dataSize img.freeCluster)

section Write

variable (hs : Image.Stored data n img img₁ cs) (hhead : cs.head? = some img.freeCluster)

include hs

theorem rootEntry_storeEntry (hi : i < rootDirectorySectors) :
    (storeEntry img img₁ stack fileName dataSize).rootEntry i =
      if i = img.freeRootEntry then newRootEntry stack fileName dataSize img.freeCluster
      else img.rootEntry i := by
  rw [storeEntry, Image.rootEntry_setRootEntry, hs.frame.rootEntry_eq hi]

/-- A write changes which entries are files only at the one it takes. -/
theorem isFile_storeEntry (hr : img.freeRootEntry = r) :
    (storeEntry img img₁ stack fileName dataSize).IsFile i ↔
      img.IsFile i ∨ 1 ≤ i ∧ i < rootDirectorySectors ∧ i = r := by
  constructor
  · rintro ⟨h1, hlt, hused⟩
    by_cases hir : i = r
    · exact .inr ⟨h1, hlt, hir⟩
    · rw [Image.Used, rootEntry_storeEntry hs hlt, hr, if_neg hir] at hused
      exact .inl ⟨h1, hlt, hused⟩
  · intro h
    by_cases hir : i = r
    · have hi : 1 ≤ i ∧ i < rootDirectorySectors :=
        h.elim (fun hf => ⟨hf.1, hf.2.1⟩) fun hf => ⟨hf.1, hf.2.1⟩
      refine ⟨hi.1, hi.2, ?_⟩
      rw [Image.Used, rootEntry_storeEntry hs hi.2, hr, if_pos hir, newRootEntry_entryName]
      exact nameUsed_native fileName
    · obtain ⟨h1, hlt, hused⟩ := h.resolve_right fun hf => hir hf.2.2
      refine ⟨h1, hlt, ?_⟩
      rw [Image.Used, rootEntry_storeEntry hs hlt, hr, if_neg hir]
      exact hused

theorem cell_storeEntry {c : Nat} (hc : c < clusterCount) (hcell : img.cell c ≠ 0) :
    (storeEntry img img₁ stack fileName dataSize).cell c = img.cell c := by
  rw [storeEntry, Image.cell_setRootEntry hc]
  exact hs.frame.cell_eq hc fun hmem => hcell (hs.free c hmem).2

theorem sector_storeEntry {c k : Nat} (hcell : img.cell c ≠ 0) (hk : k < 512) :
    (storeEntry img img₁ stack fileName dataSize).sector c k = img.sector c k := by
  rw [storeEntry, Image.sector_setRootEntry img.freeRootEntry_lt]
  exact hs.frame.sector_eq (fun hmem => hcell (hs.free c hmem).2) hk

/-- The chain of a file that was there before. -/
theorem fileChain_storeEntry {chain : List Nat} (hi : img.IsFile i) (hir : i ≠ img.freeRootEntry)
    (h : img.FileChain i chain) :
    (storeEntry img img₁ stack fileName dataSize).FileChain i chain := by
  refine ⟨?_, h.nodup, h.range⟩
  rw [rootEntry_storeEntry hs hi.2.1, if_neg hir]
  exact h.links.congr fun c hc =>
    Image.next_congr (cell_storeEntry hs (h.range c hc).2 (h.not_free hc))

include hhead

/-- The chain of the new file. -/
theorem fileChain_new (h : FatInv img) :
    (storeEntry img img₁ stack fileName dataSize).FileChain img.freeRootEntry cs := by
  have hhead' : img.freeCluster ∈ cs := List.mem_of_head? hhead
  have hlt : img.freeCluster < 415 := hs.frame.1 _ hhead'
  have hlow : (newRootEntry stack fileName dataSize img.freeCluster).entryLowClusterNumber.toNat =
      img.freeCluster := by
    rw [newRootEntry_entryLowClusterNumber, UInt16.toNat_ofNat']
    omega
  refine ⟨?_, hs.sorted.imp Nat.ne_of_lt, fun c hc => ⟨?_, hs.frame.1 c hc⟩⟩
  · rw [rootEntry_storeEntry hs img.freeRootEntry_lt, if_pos rfl, hlow, ← hhead]
    exact hs.chain.congr fun c hc => Image.next_congr (Image.cell_setRootEntry (hs.frame.1 c hc))
  · obtain ⟨hc0, hfree⟩ := hs.free c hc
    have hc1 : c ≠ 1 := by
      rintro rfl
      exact h.reserved.2 hfree
    omega

/-- **One write** keeps the invariant. -/
theorem FatInv.write (h : FatInv img) (hfile : img.lookup fileName = 0) :
    FatInv (storeEntry img img₁ stack fileName dataSize) := by
  obtain ⟨chain, hchain, hdisj⟩ := h.chains
  have hlookup := Image.lookup_eq_zero_iff.mp hfile
  have hfiles : ∀ {i}, (storeEntry img img₁ stack fileName dataSize).IsFile i ↔
      img.IsFile i ∨ 1 ≤ i ∧ i < rootDirectorySectors ∧ i = img.freeRootEntry :=
    isFile_storeEntry hs rfl
  have hnot : ∀ {i}, img.IsFile i → i ≠ img.freeRootEntry := h.ne_freeRootEntry
  have hnew : ∀ {i}, img.IsFile i → (img.rootEntry i).entryName ≠
      ramdiskFat16FilenameToNative fileName := by
    intro i hi heq
    exact hlookup i hi (heq ▸ nameMatches_native fileName)
  refine ⟨⟨?_, ?_⟩, ?_, ?_, fun i => if i = img.freeRootEntry then cs else chain i, ?_, ?_⟩
  · rw [cell_storeEntry hs (by decide) h.reserved.1]
    exact h.reserved.1
  · rw [cell_storeEntry hs (by decide) h.reserved.2]
    exact h.reserved.2
  · obtain ⟨m, hm⟩ := h.initial
    rcases h.freeRootEntry_cases rfl with h0 | ⟨h1, hlt, -, hbelow⟩
    · refine ⟨m, ?_⟩
      intro i
      rw [hfiles, hm, h0]
      omega
    · refine ⟨img.freeRootEntry, ?_⟩
      intro i
      rw [hfiles, hbelow]
      omega
  · intro i j hi hj heq
    rw [rootEntry_storeEntry hs hi.2.1, rootEntry_storeEntry hs hj.2.1] at heq
    rcases hfiles.mp hi with hi' | ⟨-, -, rfl⟩
    · rw [if_neg (hnot hi')] at heq
      rcases hfiles.mp hj with hj' | ⟨-, -, rfl⟩
      · rw [if_neg (hnot hj')] at heq
        exact h.names i j hi' hj' heq
      · rw [if_pos rfl] at heq
        exact absurd heq (hnew hi')
    · rw [if_pos rfl] at heq
      rcases hfiles.mp hj with hj' | ⟨-, -, rfl⟩
      · rw [if_neg (hnot hj')] at heq
        exact absurd heq.symm (hnew hj')
      · rfl
  · intro i hi
    rcases hfiles.mp hi with hi' | ⟨-, -, rfl⟩
    · simp only [if_neg (hnot hi')]
      exact fileChain_storeEntry hs hi' (hnot hi') (hchain i hi')
    · simp only [if_pos]
      exact fileChain_new hs hhead h
  · -- a new cluster was free, a cluster of a chain is not
    have hcs : ∀ {i}, img.IsFile i → (chain i).Disjoint cs := fun {i} hi c hc hc' =>
      (hchain i hi).not_free hc (hs.free c hc').2
    intro i j hi hj hij
    rcases hfiles.mp hi with hi' | ⟨-, -, rfl⟩
    · simp only [if_neg (hnot hi')]
      rcases hfiles.mp hj with hj' | ⟨-, -, rfl⟩
      · simp only [if_neg (hnot hj')]
        exact hdisj i j hi' hj' hij
      · simp only [if_pos]
        exact hcs hi'
    · rcases hfiles.mp hj with hj' | ⟨-, -, rfl⟩
      · simp only [if_pos, if_neg (hnot hj')]
        exact fun c hc hc' => hcs hj' hc' hc
      · exact absurd rfl hij

end Write

/-! ## Every reachable file system -/

/-- The invariant, on a disk. -/
structure FatOk (rd : Ramdisk) : Prop where
  valid : rd.Valid 1024
  inv : FatInv rd.image

theorem FatInit.ok (h : FatInit rest₁ rest₂ rd) : FatOk rd := by
  obtain ⟨hv, img, himg⟩ := h.spec
  refine ⟨hv, ?_⟩
  rw [himg]
  have hnone : ∀ i, ¬ (formatted rest₁ rest₂ img).IsFile i := fun i hi =>
    formatted_not_used rest₁ rest₂ img hi.2.1 hi.2.2
  refine ⟨formatted_reserved rest₁ rest₂ img, ⟨0, ?_⟩, fun i _ hi => absurd hi (hnone i),
    fun _ => [], fun i hi => absurd hi (hnone i), fun i _ hi => absurd hi (hnone i)⟩
  intro i
  have := hnone i
  simp only [this, false_iff]
  omega

/-- A write that returned was refused, or stored a file as `storeEntry` says. -/
theorem FatOk.step_cases {w : FatWrite} (h : FatOk rd) (hw : w.Step rd rd') :
    ((rd.image.lookup w.fileName ≠ 0 ∨ rd.image.freeCluster = 0) ∧ w.res ≠ 0 ∧ rd' = rd) ∨
    (rd.image.lookup w.fileName = 0 ∧ rd.image.freeCluster ≠ 0 ∧ w.res = 0 ∧ FatOk rd' ∧
      ∃ img₁ cs, Image.Stored w.data w.dataSize.toNat rd.image img₁ cs ∧
        cs.head? = some rd.image.freeCluster ∧
        rd'.image = storeEntry rd.image img₁ w.stack w.fileName w.dataSize) := by
  rcases ramdiskFat16FileWrite_cases h.valid hw with ⟨hfile, hres, rfl⟩ | ⟨-, hfree, hres, rfl⟩ |
    ⟨hfile, hfree, hres, hv, img₁, cs, hs, hhead, himg⟩
  · exact .inl ⟨.inl hfile, by rw [hres]; decide, rfl⟩
  · exact .inl ⟨.inr hfree, by rw [hres]; decide, rfl⟩
  · refine .inr ⟨hfile, hfree, hres, ⟨hv, ?_⟩, img₁, cs, hs, hhead, himg⟩
    rw [himg]
    exact FatInv.write hs hhead h.inv hfile

theorem FatOk.step {w : FatWrite} (h : FatOk rd) (hw : w.Step rd rd') : FatOk rd' := by
  rcases h.step_cases hw with ⟨-, -, rfl⟩ | ⟨-, -, -, h', -⟩
  · exact h
  · exact h'

theorem FatReachable.ok (h : FatReachable rd) : FatOk rd := by
  obtain ⟨rest₁, rest₂, rd₀, tr, hinit, htr⟩ := h
  exact (htr.invariant (I := FatOk) hinit.ok fun t w u ht hw => ht.step hw).1

theorem FatReachable.step {w : FatWrite} (h : FatReachable rd) (hw : w.Step rd rd') :
    FatReachable rd' := by
  obtain ⟨rest₁, rest₂, rd₀, tr, hinit, htr⟩ := h
  exact ⟨rest₁, rest₂, rd₀, _, hinit, htr.next hw⟩

/-- A new disk has no file, and a cluster for one: nothing lies behind the array in the cells
from 256 on. -/
theorem FatInit.empty (h : FatInit rest₁ rest₂ rd) (fileName : CString) :
    rd.image.lookup fileName = 0 ∧ rd.image.freeRootEntry = 1 ∧ rd.image.freeCluster ≠ 0 := by
  obtain ⟨-, img, himg⟩ := h.spec
  rw [himg]
  refine ⟨?_, ?_, ?_⟩
  · exact Image.lookup_eq_zero_iff.mpr fun i hi =>
      absurd hi.2.2 (formatted_not_used _ _ img hi.2.1)
  · exact (firstFrom_eq_iff (by decide)).mpr
      ⟨by decide, formatted_not_used _ _ img (by decide), by omega⟩
  · intro h0
    have hfree : (formatted rest₁ rest₂ img).cell 256 = 0 := by
      show le16 0 0 = 0
      decide
    refine (firstFrom_eq_zero_iff ?_).mp h0 256 (by decide) (by decide) hfree
    exact fun _ => (formatted_reserved rest₁ rest₂ img).1

/-- On an empty file system any name and any data of at most two sectors can be written. -/
theorem exists_first_write (fileName : CString) (data : Buffer) (dataSize : UInt32)
    (hn : dataSize.toNat ≤ 1024) :
    ∃ rd s rd', ramdiskFat16Init pagesUpward zeroSector zeroSector ⟨fun _ => 0, 0, 0⟩ 1 = .ok (rd, s) ∧
      FatInit zeroSector zeroSector rd ∧ rd.image.freeCluster = 2 ∧ rd.image.freeRootEntry = 1 ∧
      ramdiskFat16FileWrite zeroSector fileName data dataSize rd = .ok (0, rd') := by
  obtain ⟨rd, s, hinit, hfat⟩ := exists_fatInit
  obtain ⟨hfile, hroot, hnonzero⟩ := hfat.empty fileName
  obtain ⟨hv, img, himg⟩ := hfat.spec
  have hfree : rd.image.freeCluster = 2 := by
    rw [himg]
    refine (firstFrom_eq_iff (by decide)).mpr ⟨by decide, ?_, ?_⟩
    · show le16 0 0 = 0
      decide
    · intro c _ hc
      obtain rfl | rfl : c = 0 ∨ c = 1 := by omega
      · exact (formatted_reserved zeroSector zeroSector img).1
      · exact (formatted_reserved zeroSector zeroSector img).2
  obtain ⟨rd', hw⟩ := ramdiskFat16FileWrite_small zeroSector data hv hfile hnonzero hn
  exact ⟨rd, s, rd', hinit, hfat, hfree, hroot, hw⟩

/-- **Directory and chains.** Every reachable file system satisfies the invariant. -/
theorem fat16_directory_invariant (h : FatReachable rd) : FatInv rd.image := h.ok.inv

theorem fat16_directory_invariant_one :
    ∃ rd rd', ramdiskFat16FileWrite zeroSector ⟨[0x41], by decide⟩ zeroSector 1 rd = .ok (0, rd') ∧
      FatInv rd'.image := by
  obtain ⟨rd, s, rd', -, hfat, -, -, hw⟩ :=
    exists_first_write ⟨[0x41], by decide⟩ zeroSector 1 (by decide)
  have hs : FatWrite.Step rd ⟨zeroSector, ⟨[0x41], by decide⟩, zeroSector, 1, 0⟩ rd' := hw
  exact ⟨rd, rd', hw, fat16_directory_invariant ⟨_, _, rd, _, hfat, Trace.start.next hs⟩⟩

/-! ## Files that are there already -/

theorem Image.lookup_storeEntry {y : CString} (h : FatInv img)
    (hs : Image.Stored data n img img₁ cs) (hy : img.lookup y = k) (hk : k ≠ 0) :
    (storeEntry img img₁ stack fileName dataSize).lookup y = k := by
  obtain ⟨hfile, hm, hbefore⟩ := (Image.lookup_eq_iff hk).mp hy
  refine (Image.lookup_eq_iff hk).mpr ⟨(isFile_storeEntry hs rfl).mpr (.inl hfile), ?_, ?_⟩
  · rw [rootEntry_storeEntry hs hfile.2.1, if_neg (h.ne_freeRootEntry hfile)]
    exact hm
  · intro i hi hik
    rcases (isFile_storeEntry hs rfl).mp hi with hi' | ⟨h1, -, rfl⟩
    · rw [rootEntry_storeEntry hs hi'.2.1, if_neg (h.ne_freeRootEntry hi')]
      exact hbefore i hi' hik
    · -- the new entry comes after every file
      rcases h.freeRootEntry_cases rfl with h0 | ⟨-, -, -, hbelow⟩
      · omega
      · have := ((hbelow k).mp hfile).2
        omega

/-- After a write the file is found under the entry it took: nowhere, if that is entry 0. -/
theorem Image.lookup_new (h : FatInv img) (hs : Image.Stored data n img img₁ cs)
    (hfile : img.lookup fileName = 0) :
    (storeEntry img img₁ stack fileName dataSize).lookup fileName = img.freeRootEntry := by
  have hlookup := Image.lookup_eq_zero_iff.mp hfile
  have hold : ∀ i, img.IsFile i → ¬ NameMatches fileName
      ((storeEntry img img₁ stack fileName dataSize).rootEntry i).entryName := by
    intro i hi
    rw [rootEntry_storeEntry hs hi.2.1, if_neg (h.ne_freeRootEntry hi)]
    exact hlookup i hi
  by_cases h0 : img.freeRootEntry = 0
  · rw [h0]
    apply Image.lookup_eq_zero_iff.mpr
    intro i hi
    rcases (isFile_storeEntry hs rfl).mp hi with hi' | ⟨h1, -, hi'⟩
    · exact hold i hi'
    · omega
  · refine (Image.lookup_eq_iff h0).mpr ⟨(isFile_storeEntry hs rfl).mpr (.inr ?_), ?_, ?_⟩
    · exact ⟨by omega, img.freeRootEntry_lt, rfl⟩
    · rw [rootEntry_storeEntry hs img.freeRootEntry_lt, if_pos rfl]
      exact nameMatches_native fileName
    · intro i hi hik
      rcases (isFile_storeEntry hs rfl).mp hi with hi' | ⟨-, -, hi'⟩
      · exact hold i hi'
      · omega

/-- The first cluster of a file is a data cluster that is not free. -/
theorem FatInv.headCluster_spec {y : CString} (h : FatInv img) (hy : img.lookup y ≠ 0) :
    img.headCluster y < clusterCount ∧ img.cell (img.headCluster y) ≠ 0 := by
  obtain ⟨chain, hchain, -⟩ := h.chains
  have hc := hchain _ ((Image.lookup_eq_iff hy).mp rfl).1
  have hmem := hc.links.head_mem
  exact ⟨(hc.range _ hmem).2, hc.not_free hmem⟩

/-- `rd'` finds and reads the file `y` as `rd` does. -/
structure SameFile (y : CString) (rd rd' : Ramdisk) : Prop where
  lookup : rd'.image.lookup y = rd.image.lookup y
  head : rd'.image.headCluster y = rd.image.headCluster y
  sector : ∀ k < 512, rd'.image.sector (rd.image.headCluster y) k =
    rd.image.sector (rd.image.headCluster y) k

theorem SameFile.step {y : CString} {rd₁ rd₂ : Ramdisk} {w : FatWrite} (h : FatOk rd₁)
    (hsame : SameFile y rd rd₁) (hy : rd.image.lookup y ≠ 0) (hw : w.Step rd₁ rd₂) :
    SameFile y rd rd₂ := by
  have hy₁ : rd₁.image.lookup y ≠ 0 := by rwa [hsame.lookup]
  rcases h.step_cases hw with ⟨-, -, rfl⟩ | ⟨-, -, -, -, img₁, cs, hs, -, himg⟩
  · exact hsame
  · have hlookup : rd₂.image.lookup y = rd₁.image.lookup y := by
      rw [himg]
      exact Image.lookup_storeEntry h.inv hs rfl hy₁
    have hfile := ((Image.lookup_eq_iff hy₁).mp rfl).1
    have hhead : rd₂.image.headCluster y = rd₁.image.headCluster y := by
      rw [Image.headCluster, hlookup, himg, rootEntry_storeEntry hs hfile.2.1,
        if_neg (h.inv.ne_freeRootEntry hfile)]
      rfl
    obtain ⟨-, hcell⟩ := h.inv.headCluster_spec hy₁
    refine ⟨hlookup.trans hsame.lookup, hhead.trans hsame.head, ?_⟩
    intro k hk
    rw [← hsame.sector k hk, himg, ← hsame.head, sector_storeEntry hs hcell hk]

/-- **No disturbance.** Whatever is written later, a file keeps its number and contents. -/
theorem fat16_files_undisturbed {y : CString} {tr : List (Ramdisk × FatWrite)}
    (h : FatReachable rd) (hk : ramdiskFat16FileExists stack y rd = .ok (k, rd)) (hk0 : k ≠ 0)
    (htr : Trace FatWrite.Step rd tr rd') :
    ∀ stack', ramdiskFat16FileExists stack' y rd' = .ok (k, rd') ∧
      ∃ contents : Buffer, ∀ buf,
        ramdiskFat16FileRead stack y buf 0 rd =
          .ok (fat16RamdiskSuccess, patch buf 0 512 contents, rd) ∧
        ramdiskFat16FileRead stack' y buf 0 rd' =
          .ok (fat16RamdiskSuccess, patch buf 0 512 contents, rd') := by
  have hy : rd.image.lookup y = k := by
    rw [ramdiskFat16FileExists_eq h.ok.valid] at hk
    exact (Prod.mk.inj (Except.ok.inj hk)).1
  have hy0 : rd.image.lookup y ≠ 0 := by rwa [hy]
  obtain ⟨hok, hsame⟩ := (htr.invariant (I := fun t => FatOk t ∧ SameFile y rd t)
    ⟨h.ok, rfl, rfl, fun _ _ => rfl⟩
    fun t w u ht hw => ⟨ht.1.step hw, ht.2.step ht.1 hy0 hw⟩).1
  obtain ⟨hlt, -⟩ := h.ok.inv.headCluster_spec hy0
  intro stack'
  refine ⟨by rw [ramdiskFat16FileExists_eq hok.valid, hsame.lookup, hy],
    rd.image.sector (rd.image.headCluster y), fun buf => ⟨?_, ?_⟩⟩
  · exact ramdiskFat16FileRead_eq h.ok.valid hy0 hlt
  · rw [ramdiskFat16FileRead_eq hok.valid (by rwa [hsame.lookup]) (by rwa [hsame.head]), hsame.head]
    congr 3
    exact patch_congr hsame.sector

theorem fat16_files_undisturbed_one :
    ∃ rd, FatReachable rd ∧
      ramdiskFat16FileWrite zeroSector ⟨[0x41], by decide⟩ zeroSector 600 rd = .ok (4, rd) ∧
      ∃ contents : Buffer, ∀ buf, ramdiskFat16FileRead zeroSector ⟨[0x41], by decide⟩ buf 0 rd =
        .ok (fat16RamdiskSuccess, patch buf 0 512 contents, rd) := by
  obtain ⟨rd, s, rd', -, hfat, hfree, hroot, hw⟩ :=
    exists_first_write ⟨[0x41], by decide⟩ zeroSector 1 (by decide)
  have hs : FatWrite.Step rd ⟨zeroSector, ⟨[0x41], by decide⟩, zeroSector, 1, 0⟩ rd' := hw
  have hr : FatReachable rd' := ⟨_, _, rd, _, hfat, Trace.start.next hs⟩
  have hy : rd'.image.lookup ⟨[0x41], by decide⟩ = 1 := by
    rcases hfat.ok.step_cases hs with ⟨-, h0, -⟩ | ⟨hfile, -, -, -, img₁, cs, hst, -, himg⟩
    · exact absurd rfl h0
    · rw [himg, Image.lookup_new hfat.ok.inv hst hfile, hroot]
  have hk : ramdiskFat16FileExists zeroSector ⟨[0x41], by decide⟩ rd' = .ok (1, rd') := by
    rw [ramdiskFat16FileExists_eq hr.ok.valid, hy]
  have hw' : ramdiskFat16FileWrite zeroSector ⟨[0x41], by decide⟩ zeroSector 600 rd' = .ok (4, rd') :=
    ramdiskFat16FileWrite_exists hr.ok.valid (by rw [hy]; decide)
  have hs' : FatWrite.Step rd' ⟨zeroSector, ⟨[0x41], by decide⟩, zeroSector, 600, 4⟩ rd' := hw'
  obtain ⟨-, contents, hread⟩ :=
    fat16_files_undisturbed hr hk (by decide) (Trace.start.next hs') zeroSector
  exact ⟨rd', hr, hw', contents, fun buf => (hread buf).2⟩

end KoizOs
