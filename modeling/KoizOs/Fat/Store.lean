import KoizOs.Fat.ReadBack
import KoizOs.Fat.Refusal

/-!
# The disk as a store of files

`FileStore` is what the disk is for: files in order, each with the name it was written under and
the bytes that reading it begins with, and a number of free clusters.  The bytes of the
directory, of the tables and of the clusters implement it (`Image.Represents`).

| operation of the driver | on the store |
|-------------------------|--------------|
| `ramdisk_fat16_file_exists` | `number`: the place of the first file that answers to the name |
| `ramdisk_fat16_file_read` | `find`: the bytes of that file |
| `ramdisk_fat16_file_write` | `write`: one file more, or nothing |
-/

namespace KoizOs

open Lib

structure StoredFile where
  fileName : CString
  /-- what reading the file begins with -/
  bytes : List UInt8

structure FileStore where
  files : List StoredFile
  /-- how many clusters are free -/
  clusters : Nat

/-- Only the first sector of a file is read, and the second piece was written over the first. -/
def readable (w : List UInt8) : List UInt8 :=
  (w.drop 512).take 512 ++ (w.take 512).drop (w.length - 512)

/-- The stored name is taken for `name`. -/
def StoredFile.Answers (f : StoredFile) (name : CString) : Prop :=
  NameMatches name (ramdiskFat16FilenameToNative f.fileName)

instance (f : StoredFile) (name : CString) : Decidable (f.Answers name) :=
  inferInstanceAs (Decidable (NameMatches _ _))

namespace FileStore

variable (st : FileStore) (name : CString)

/-- Where the first file is that answers to `name`. -/
def index : Option Nat := st.files.findIdx? (·.Answers name)

/-- The entry of that file, 0 if there is none. -/
def number : Nat := (st.index name).elim 0 (· + 1)

def find : Option StoredFile := (st.index name).bind (st.files[·]?)

/-- Entries 1 to 31 are for files.  One more is not found again, but it takes its clusters. -/
def write (w : List UInt8) : FileStore :=
  if st.number name ≠ 0 ∨ st.clusters = 0 then st
  else
    { files := if st.files.length + 1 < rootDirectorySectors then st.files ++ [⟨name, readable w⟩]
        else st.files
      clusters := st.clusters - ((w.length - 1) / 1024 + 1) }

end FileStore

/-- The image holds the files of the store, the first one in entry 1. -/
structure Image.Represents (img : Image) (st : FileStore) : Prop where
  isFile : ∀ i, img.IsFile i ↔ 1 ≤ i ∧ i ≤ st.files.length
  name : ∀ i (h : i < st.files.length),
    (img.rootEntry (i + 1)).entryName = ramdiskFat16FilenameToNative st.files[i].fileName
  bytes : ∀ i (h : i < st.files.length) k (hk : k < st.files[i].bytes.length), k < 512 ∧
    img.sector (img.rootEntry (i + 1)).entryLowClusterNumber.toNat k = st.files[i].bytes[k]
  clusters : img.freeClusters = st.clusters

variable {st : FileStore} {img img₁ : Image} {name : CString} {w : List UInt8} {i k : Nat}
  {rd rd' : Ramdisk} {stack : Buffer} {f : StoredFile} {x : FatWrite}

/-! ## The store -/

theorem readable_length (w : List UInt8) : (readable w).length = min w.length 512 := by
  rw [readable, List.length_append, List.length_take, List.length_drop, List.length_drop,
    List.length_take]
  omega

theorem readable_getElem (hk : k < (readable w).length) (hlt : k < w.length) :
    (readable w)[k] = if h : 512 + k < w.length then w[512 + k] else w[k] := by
  rw [readable_length] at hk
  simp only [readable]
  split
  · next h =>
    rw [List.getElem_append_left (by rw [List.length_take, List.length_drop]; omega),
      List.getElem_take, List.getElem_drop]
  · next h =>
    rw [List.getElem_append_right (by rw [List.length_take, List.length_drop]; omega),
      List.getElem_drop, List.getElem_take]
    congr 1
    rw [List.length_take, List.length_drop]
    omega

namespace FileStore

theorem number_eq_zero_iff : st.number name = 0 ↔ ∀ f ∈ st.files, ¬ f.Answers name := by
  unfold number index
  cases h : st.files.findIdx? (·.Answers name) with
  | none =>
    refine iff_of_true rfl ?_
    intro f hf
    simpa using List.findIdx?_eq_none_iff.mp h f hf
  | some i =>
    obtain ⟨hi, hp, -⟩ := List.findIdx?_eq_some_iff_getElem.mp h
    refine iff_of_false (Nat.succ_ne_zero i) fun hall => ?_
    exact hall _ (List.getElem_mem hi) (of_decide_eq_true hp)

theorem index_eq_some_iff : st.index name = some i ↔ ∃ h : i < st.files.length,
    st.files[i].Answers name ∧ ∀ j (hj : j < i), ¬ (st.files.get ⟨j, hj.trans h⟩).Answers name := by
  rw [index, List.findIdx?_eq_some_iff_getElem]
  constructor
  · rintro ⟨hi, hp, hbefore⟩
    exact ⟨hi, of_decide_eq_true hp, fun j hj => by simpa using hbefore j hj⟩
  · rintro ⟨hi, hp, hbefore⟩
    exact ⟨hi, decide_eq_true hp, fun j hj => by simpa using hbefore j hj⟩

theorem find_eq_some (h : st.find name = some f) : ∃ i, ∃ hi : i < st.files.length,
    st.index name = some i ∧ f = st.files[i] := by
  obtain ⟨i, hindex, hfile⟩ := Option.bind_eq_some_iff.mp h
  obtain ⟨hi, heq⟩ := List.getElem?_eq_some_iff.mp hfile
  exact ⟨i, hi, hindex, heq.symm⟩

end FileStore

/-! ## Clusters -/

theorem countP_either {α : Type} {l : List α} {p q r : α → Prop} [DecidablePred p]
    [DecidablePred q] [DecidablePred r] (h : ∀ x ∈ l, (p x ↔ q x ∨ r x) ∧ ¬ (q x ∧ r x)) :
    l.countP (p ·) = l.countP (q ·) + l.countP (r ·) := by
  induction l with
  | nil => rfl
  | cons x l ih =>
    obtain ⟨hx, hnot⟩ := h x List.mem_cons_self
    have hrest := ih fun y hy => h y (List.mem_cons_of_mem x hy)
    simp only [List.countP_cons, decide_eq_true_eq, hx]
    by_cases hq : q x
    · have hr : ¬ r x := fun hr => hnot ⟨hq, hr⟩
      simp only [hq, hr, true_or, if_true, if_false]
      omega
    · simp only [hq, false_or, if_false]
      omega

/-- How many clusters a file takes: all but the last are left half empty. -/
def FatWrite.clusters (w : FatWrite) : Nat := (w.dataSize.toNat - 1) / 1024 + 1

/-- The clusters of a new file were free, and are not any more. -/
theorem freeClusters_storeEntry {cs : List Nat} {w : FatWrite} (h : FatInv img)
    (hs : Image.Stored w.data w.dataSize.toNat img img₁ cs)
    (hhead : cs.head? = some img.freeCluster) :
    (storeEntry img img₁ w.stack w.fileName w.dataSize).freeClusters + w.clusters =
      img.freeClusters := by
  let img' := storeEntry img img₁ w.stack w.fileName w.dataSize
  have hnew : img'.FileChain img.freeRootEntry cs := fileChain_new hs hhead h
  have hcells : ∀ c ∈ List.range clusterCount,
      (img.cell c = 0 ↔ img'.cell c = 0 ∨ c ∈ cs) := by
    intro c hc
    rw [List.mem_range] at hc
    by_cases hmem : c ∈ cs
    · exact iff_of_true (hs.free c hmem).2 (.inr hmem)
    · rw [or_iff_left hmem]
      show _ ↔ (storeEntry img img₁ w.stack w.fileName w.dataSize).cell c = 0
      rw [storeEntry, Image.cell_setRootEntry hc, hs.frame.cell_eq hc hmem]
  have htaken : ((List.range clusterCount).countP fun c => c ∈ cs) = cs.length := by
    rw [List.countP_eq_length_filter]
    refine List.Perm.length_eq ?_
    rw [List.perm_ext_iff_of_nodup (List.nodup_range.filter _) hnew.nodup]
    intro c
    rw [List.mem_filter, decide_eq_true_iff, and_iff_right_of_imp]
    exact fun hc => List.mem_range.mpr (hs.frame.1 c hc)
  rw [FatWrite.clusters, ← hs.length, ← htaken]
  refine (countP_either fun c hc => ⟨hcells c hc, ?_⟩).symm
  rintro ⟨hfree, hmem⟩
  exact hnew.not_free hmem hfree

/-! ## The image -/

namespace Image.Represents

theorem length_lt (h : img.Represents st) : st.files.length < rootDirectorySectors := by
  by_cases h0 : st.files.length = 0
  · rw [h0]
    decide
  · exact ((h.isFile st.files.length).mpr ⟨by omega, Nat.le_refl _⟩).2.1

/-- Entry `i + 1` is that of file `i`. -/
theorem matches_iff (h : img.Represents st) (hi : i < st.files.length) :
    NameMatches name (img.rootEntry (i + 1)).entryName ↔ st.files[i].Answers name := by
  rw [h.name i hi]
  exact Iff.rfl

theorem lookup_eq (h : img.Represents st) (name : CString) : img.lookup name = st.number name := by
  unfold FileStore.number
  cases hindex : st.index name with
  | none =>
    have hnone := FileStore.number_eq_zero_iff.mp
      (show st.number name = 0 by rw [FileStore.number, hindex]; rfl)
    refine Image.lookup_eq_zero_iff.mpr fun i hi hm => ?_
    obtain ⟨h1, hle⟩ := (h.isFile i).mp hi
    obtain ⟨j, rfl⟩ : ∃ j, i = j + 1 := ⟨i - 1, by omega⟩
    exact hnone _ (List.getElem_mem (by omega)) ((h.matches_iff (by omega)).mp hm)
  | some i =>
    obtain ⟨hi, hfirst, hbefore⟩ := FileStore.index_eq_some_iff.mp hindex
    refine (Image.lookup_eq_iff (Nat.succ_ne_zero i)).mpr
      ⟨(h.isFile _).mpr ⟨by omega, hi⟩, (h.matches_iff hi).mpr hfirst, ?_⟩
    intro j hj hlt hm
    obtain ⟨h1, hle⟩ := (h.isFile j).mp hj
    obtain ⟨m, rfl⟩ : ∃ m, j = m + 1 := ⟨j - 1, by omega⟩
    exact hbefore m (by omega) ((h.matches_iff (by omega)).mp hm)

theorem freeRootEntry_eq (h : img.Represents st) : img.freeRootEntry =
    if st.files.length + 1 < rootDirectorySectors then st.files.length + 1 else 0 := by
  have hused : ∀ j, 1 ≤ j → j < rootDirectorySectors → (img.Used j ↔ j ≤ st.files.length) := by
    intro j hj hlt
    constructor
    · intro hu
      exact ((h.isFile j).mp ⟨hj, hlt, hu⟩).2
    · intro hle
      exact ((h.isFile j).mpr ⟨hj, hle⟩).2.2
  have h32 : rootDirectorySectors = 32 := rfl
  split
  · next hroom =>
    refine (firstFrom_eq_iff (by omega)).mpr ⟨by omega, ?_, ?_⟩
    · rw [hused _ (by omega) hroom]
      omega
    · intro j hj hlt
      rw [not_not, hused j hj (by omega)]
      omega
  · next hfull =>
    refine (firstFrom_eq_zero_iff (by omega)).mpr ?_
    intro j hj hlt
    rw [not_not, hused j hj (by omega)]
    omega

theorem freeCluster_eq_zero_iff (h : img.Represents st) (hinv : FatInv img) :
    img.freeCluster = 0 ↔ st.clusters = 0 := by
  rw [← h.clusters, Image.freeCluster, firstFrom_eq_zero_iff fun _ => hinv.reserved.1,
    Image.freeClusters, List.countP_eq_zero]
  constructor
  · intro hall c hc
    simpa using hall c (Nat.zero_le c) (by rw [List.mem_range] at hc; omega)
  · intro hall c _ hc
    simpa using hall c (List.mem_range.mpr (by omega))

/-- The clusters of the files are not free, so a new file leaves their bytes. -/
theorem bytes_storeEntry {cs : List Nat} (h : img.Represents st) (hinv : FatInv img)
    (hs : Image.Stored x.data x.dataSize.toNat img img₁ cs) (hi : i < st.files.length)
    (hk : k < st.files[i].bytes.length) : k < 512 ∧
    (storeEntry img img₁ x.stack x.fileName x.dataSize).sector
      ((storeEntry img img₁ x.stack x.fileName x.dataSize).rootEntry
        (i + 1)).entryLowClusterNumber.toNat k = st.files[i].bytes[k] := by
  obtain ⟨hk', hbyte⟩ := h.bytes i hi k hk
  have hfile : img.IsFile (i + 1) := (h.isFile _).mpr ⟨by omega, hi⟩
  obtain ⟨chain, hchain, -⟩ := hinv.chains
  have hcell := (hchain _ hfile).not_free (hchain _ hfile).links.head_mem
  rw [rootEntry_storeEntry hs hfile.2.1, if_neg (hinv.ne_freeRootEntry hfile),
    sector_storeEntry hs hcell hk']
  exact ⟨hk', hbyte⟩

/-- The first sector of a new file. -/
theorem readable_storeEntry {cs : List Nat}
    (hs : Image.Stored x.data x.dataSize.toNat img img₁ cs)
    (hhead : cs.head? = some img.freeCluster) (hlen : w.length = x.dataSize.toNat)
    (hdata : ∀ i (h : i < w.length), x.data i = w[i]) (hk : k < (readable w).length) : k < 512 ∧
    (storeEntry img img₁ x.stack x.fileName x.dataSize).sector img.freeCluster k =
      (readable w)[k] := by
  have hmin := hk
  rw [readable_length] at hmin
  have hk' : k < 512 := by omega
  refine ⟨hk', ?_⟩
  rw [readable_getElem hk (by omega), storeEntry, Image.sector_setRootEntry img.freeRootEntry_lt,
    hs.head_sector hhead hk', ← hlen]
  split
  · next h => exact hdata _ h
  · rw [if_pos (by omega)]
    exact hdata _ _

/-- **A write** stores a file more, or nothing. -/
theorem write (h : rd.image.Represents st) (hok : FatOk rd) (hw : x.Step rd rd')
    (hlen : w.length = x.dataSize.toNat) (hdata : ∀ i (h : i < w.length), x.data i = w[i]) :
    rd'.image.Represents (st.write x.fileName w) := by
  unfold FileStore.write
  rcases hok.step_cases hw with ⟨hrefused, -, rfl⟩ | ⟨hfile, hfree, -, -, img₁, cs, hs, hhead, himg⟩
  · rw [h.lookup_eq, h.freeCluster_eq_zero_iff hok.inv] at hrefused
    rw [if_pos hrefused]
    exact h
  rw [h.lookup_eq] at hfile
  rw [Ne, h.freeCluster_eq_zero_iff hok.inv] at hfree
  rw [if_neg (not_or.mpr ⟨not_not.mpr hfile, hfree⟩), himg]
  have hroot := h.freeRootEntry_eq
  have hlt := h.length_lt
  have hclusters : (storeEntry rd.image img₁ x.stack x.fileName x.dataSize).freeClusters =
      st.clusters - ((w.length - 1) / 1024 + 1) := by
    have htake := freeClusters_storeEntry hok.inv hs hhead
    rw [FatWrite.clusters, h.clusters, ← hlen] at htake
    omega
  split at hroot
  · next hroom =>
    rw [if_pos hroom]
    refine ⟨?_, ?_, ?_, hclusters⟩
    · intro i
      rw [isFile_storeEntry hs hroot, h.isFile, List.length_append, List.length_singleton]
      omega
    · intro i hi
      have hi' : i + 1 < rootDirectorySectors := by
        rw [List.length_append, List.length_singleton] at hi
        omega
      rw [rootEntry_storeEntry hs hi', hroot]
      by_cases hlast : i = st.files.length
      · subst hlast
        rw [if_pos rfl, List.getElem_concat_length rfl]
        rfl
      · have hold : i < st.files.length := by
          rw [List.length_append, List.length_singleton] at hi
          omega
        rw [if_neg (by omega), List.getElem_append_left hold]
        exact h.name i hold
    · intro i hi k hk
      by_cases hlast : i = st.files.length
      · subst hlast
        simp only [List.getElem_concat_length] at hk ⊢
        have hlow : (newRootEntry x.stack x.fileName x.dataSize
            rd.image.freeCluster).entryLowClusterNumber.toNat = rd.image.freeCluster := by
          have hlt : rd.image.freeCluster < 415 := hs.frame.1 _ (List.mem_of_head? hhead)
          rw [newRootEntry_entryLowClusterNumber, UInt16.toNat_ofNat']
          omega
        rw [rootEntry_storeEntry hs hroom, if_pos hroot.symm, hlow]
        exact readable_storeEntry hs hhead hlen hdata hk
      · have hold : i < st.files.length := by
          rw [List.length_append, List.length_singleton] at hi
          omega
        simp only [List.getElem_append_left hold] at hk ⊢
        exact h.bytes_storeEntry hok.inv hs hold hk
  · next hfull =>
    rw [if_neg hfull]
    refine ⟨?_, ?_, fun i hi k hk => h.bytes_storeEntry hok.inv hs hi hk, hclusters⟩
    · intro i
      rw [isFile_storeEntry hs hroot, h.isFile]
      show _ ↔ 1 ≤ i ∧ i ≤ st.files.length
      omega
    · intro i hi
      have hi' : i < st.files.length := hi
      rw [rootEntry_storeEntry hs (by omega), hroot, if_neg (Nat.succ_ne_zero i)]
      exact h.name i hi

/-- The first sector of the file that is found begins with its bytes. -/
theorem headCluster_bytes (h : rd.image.Represents st) (hfound : st.find name = some f) :
    rd.image.lookup name ≠ 0 ∧ ∀ k (hk : k < f.bytes.length), k < 512 ∧
      rd.image.sector (rd.image.headCluster name) k = f.bytes[k] := by
  obtain ⟨i, hi, hindex, rfl⟩ := FileStore.find_eq_some hfound
  have hnumber : st.number name = i + 1 := by
    rw [FileStore.number, hindex]
    rfl
  have hlookup := h.lookup_eq name
  rw [hnumber] at hlookup
  refine ⟨by rw [hlookup]; exact Nat.succ_ne_zero i, ?_⟩
  rw [Image.headCluster, hlookup]
  exact h.bytes i hi

theorem read (h : rd.image.Represents st) (hok : FatOk rd) (hfound : st.find name = some f) :
    ∃ contents : Buffer, (∀ k (hk : k < f.bytes.length), k < 512 ∧ contents k = f.bytes[k]) ∧
      ∀ stack buf, ramdiskFat16FileRead stack name buf 0 rd =
        .ok (fat16RamdiskSuccess, patch buf 0 512 contents, rd) := by
  obtain ⟨hlookup, hbytes⟩ := h.headCluster_bytes hfound
  obtain ⟨hlt, -⟩ := hok.inv.headCluster_spec hlookup
  exact ⟨_, hbytes, fun stack buf => ramdiskFat16FileRead_eq hok.valid hlookup hlt⟩

end Image.Represents

/-! ## A new disk -/

section New

variable (rest₁ rest₂ : Buffer) (img : Image)

theorem formatted_not_file (i : Nat) : ¬ (formatted rest₁ rest₂ img).IsFile i :=
  fun hi => formatted_not_used rest₁ rest₂ img hi.2.1 hi.2.2

theorem formatted_fatInv : FatInv (formatted rest₁ rest₂ img) where
  reserved := formatted_reserved rest₁ rest₂ img
  initial := by
    refine ⟨0, fun i => iff_of_false (formatted_not_file rest₁ rest₂ img i) ?_⟩
    omega
  names i _ hi := absurd hi (formatted_not_file rest₁ rest₂ img i)
  chains := ⟨fun _ => [], fun i hi => absurd hi (formatted_not_file rest₁ rest₂ img i),
    fun i _ hi => absurd hi (formatted_not_file rest₁ rest₂ img i)⟩

theorem formatted_represents : (formatted rest₁ rest₂ img).Represents
    ⟨[], (formatted rest₁ rest₂ img).freeClusters⟩ where
  isFile i := by
    refine iff_of_false (formatted_not_file rest₁ rest₂ img i) ?_
    rw [List.length_nil]
    omega
  name i hi := absurd hi (Nat.not_lt_zero i)
  bytes i hi := absurd hi (Nat.not_lt_zero i)
  clusters := rfl

/-- Nothing lies behind the array in the cells from 256 on. -/
theorem formatted_freeClusters : (formatted rest₁ rest₂ img).freeClusters ≠ 0 := by
  intro h0
  have hcell : (formatted rest₁ rest₂ img).cell 256 = 0 := by
    show le16 0 0 = 0
    decide
  have hnone := List.countP_eq_zero.mp h0 256 (List.mem_range.mpr (by decide))
  exact hnone (decide_eq_true hcell)

end New

end KoizOs
