import KoizOs.Fat.Invariant

/-!
# What the two directory scans answer

Both scans stop at 32, the number of sectors of the root directory, where the directory
has 512 entries.  The lookup also trusts `memcmp`, which takes a stored name for the
wanted one when no byte of it is above: an entry that is only `Below` the wanted name is
then found in its place.

| result | content |
|--------|---------|
| `fat16_findsFirst_iff` | when the lookup finds the first entry with the name, of 1 .. 31 |
| `fat16_wholeDirectory_iff` | when both scans answer for all of 1 .. 511 |
-/

namespace KoizOs

open Lib

namespace Image

/-- Entry `i` is in use and its 11 bytes are the native form of the name. -/
def Stores (img : Image) (fileName : CString) (i : Nat) : Prop :=
  img.Used i ∧ (img.rootEntry i).entryName = ramdiskFat16FilenameToNative fileName

/-- Entry `i` is in use, its name has no byte above that of the wanted one, and it is
another name. -/
def Below (img : Image) (fileName : CString) (i : Nat) : Prop :=
  img.Used i ∧ NameMatches fileName (img.rootEntry i).entryName ∧
    (img.rootEntry i).entryName ≠ ramdiskFat16FilenameToNative fileName

variable {img : Image} {fileName : CString} {i : Nat}

instance : DecidablePred (img.Stores fileName) := fun _ => inferInstanceAs (Decidable (_ ∧ _))

instance : DecidablePred (img.Below fileName) := fun _ => inferInstanceAs (Decidable (_ ∧ _))

/-- What the lookup accepts: the name itself, and the names below it. -/
theorem accepts_iff :
    img.Used i ∧ NameMatches fileName (img.rootEntry i).entryName ↔
      img.Stores fileName i ∨ img.Below fileName i := by
  by_cases hname : (img.rootEntry i).entryName = ramdiskFat16FilenameToNative fileName
  · simp [Stores, Below, hname, nameMatches_native fileName]
  · simp [Stores, Below, hname]

end Image

variable {rd : Ramdisk} {fileName : CString} {stack : Buffer}

/-! ## The lookup -/

/-- The lookup returns the first entry of 1 .. 31 that stores the name, and 0 if none does. -/
def FindsFirst (fileName : CString) (rd : Ramdisk) : Prop :=
  ∀ stack, ∃ k, ramdiskFat16FileExists stack fileName rd = .ok (k, rd) ∧
    IsFirst (rd.image.Stores fileName) (rootDirectorySectors - 1) 1 k

/-- **Lookup.** Whatever the directory holds, the lookup is right exactly when every entry
of 1 .. 31 below the name comes after one that stores it. -/
theorem fat16_findsFirst_iff (h : rd.Valid 1024) :
    FindsFirst fileName rd ↔
      ∀ i, 1 ≤ i → i < 32 → rd.image.Below fileName i →
        ∃ j, 1 ≤ j ∧ j < i ∧ rd.image.Stores fileName j := by
  have hlookup : FindsFirst fileName rd ↔
      IsFirst (rd.image.Stores fileName) (rootDirectorySectors - 1) 1 (rd.image.lookup fileName) := by
    unfold FindsFirst
    simp [ramdiskFat16FileExists_eq h]
  rw [hlookup, Image.lookup, isFirst_firstFrom_iff (by decide)
    fun j hj => Image.accepts_iff.mpr (.inl hj)]
  constructor
  · intro hmisled i hi hlt hbelow
    exact hmisled i hi hlt (Image.accepts_iff.mpr (.inr hbelow)) fun hst => hbelow.2.2 hst.2
  · intro hafter i hi hlt hacc hnot
    exact hafter i hi hlt ((Image.accepts_iff.mp hacc).resolve_left hnot)

/-- A disk that one file has been written to, and what a lookup finds there. -/
theorem exists_one_file (fileName : CString) :
    ∃ rd s rd', ramdiskFat16Init pagesUpward zeroSector zeroSector ⟨fun _ => 0, 0, 0⟩ 1 = .ok (rd, s) ∧
      ramdiskFat16FileWrite zeroSector fileName zeroSector 1 rd = .ok (0, rd') ∧
      rd'.Valid 1024 ∧ rd'.image.Stores fileName 1 ∧
      ∀ i, rd'.image.IsFile i ↔ i = 1 := by
  obtain ⟨rd, s, rd', hinit, hfat, -, hroot, hw⟩ :=
    exists_first_write fileName zeroSector 1 (by decide)
  have hs : FatWrite.Step rd ⟨zeroSector, fileName, zeroSector, 1, 0⟩ rd' := hw
  obtain ⟨-, img, hempty⟩ := hfat.spec
  rcases hfat.ok.step_cases hs with ⟨-, h0, -⟩ | ⟨-, -, -, hok, img₁, cs, hst, -, himg⟩
  · exact absurd rfl h0
  · have hfile : ∀ i, rd'.image.IsFile i ↔ i = 1 := by
      intro i
      rw [himg, isFile_storeEntry hst hroot, hempty]
      constructor
      · rintro (hi | ⟨-, -, hi⟩)
        · exact absurd hi.2.2 (formatted_not_used _ _ img hi.2.1)
        · exact hi
      · rintro rfl
        exact .inr ⟨Nat.le_refl 1, by decide, rfl⟩
    refine ⟨rd, s, rd', hinit, hw, hok.valid, ⟨((hfile 1).mpr rfl).2.2, ?_⟩, hfile⟩
    rw [himg, rootEntry_storeEntry hst (by decide), hroot, if_pos rfl, newRootEntry_entryName]

/-- The file "A" alone: it is found. -/
theorem fat16_findsFirst_iff_one : ∃ rd, rd.image.Stores ⟨[0x41], by decide⟩ 1 ∧
    FindsFirst ⟨[0x41], by decide⟩ rd := by
  obtain ⟨-, -, rd, -, -, hv, hst, hfile⟩ := exists_one_file ⟨[0x41], by decide⟩
  refine ⟨rd, hst, (fat16_findsFirst_iff hv).mpr ?_⟩
  intro i hi hlt hbelow
  obtain rfl := (hfile i).mp ⟨hi, hlt, hbelow.1⟩
  exact absurd hst.2 hbelow.2.2

/-- The file "A" alone: the lookup of "B" finds it. -/
theorem fat16_not_findsFirst : ∃ rd s rd',
    ramdiskFat16Init pagesUpward zeroSector zeroSector ⟨fun _ => 0, 0, 0⟩ 1 = .ok (rd, s) ∧
      ramdiskFat16FileWrite zeroSector ⟨[0x41], by decide⟩ zeroSector 1 rd = .ok (0, rd') ∧
      ramdiskFat16FileExists zeroSector ⟨[0x42], by decide⟩ rd' = .ok (1, rd') ∧
      ¬ rd'.image.Stores ⟨[0x42], by decide⟩ 1 ∧ ¬ FindsFirst ⟨[0x42], by decide⟩ rd' := by
  obtain ⟨rd, s, rd', hinit, hw, hv, hst, hfile⟩ := exists_one_file ⟨[0x41], by decide⟩
  have hother : ¬ rd'.image.Stores ⟨[0x42], by decide⟩ 1 := by
    intro hst'
    have hname := hst.2.symm.trans hst'.2
    exact absurd hname (by decide)
  have hfound : ramdiskFat16FileExists zeroSector ⟨[0x42], by decide⟩ rd' = .ok (1, rd') := by
    have hlookup : rd'.image.lookup ⟨[0x42], by decide⟩ = 1 := by
      refine (Image.lookup_eq_iff (by decide)).mpr ⟨(hfile 1).mpr rfl, ?_, ?_⟩
      · rw [hst.2]
        decide
      · intro i hi hlt
        have := (hfile i).mp hi
        omega
    rw [ramdiskFat16FileExists_eq hv, hlookup]
  refine ⟨rd, s, rd', hinit, hw, hfound, hother, ?_⟩
  intro hfirst
  obtain ⟨k, hk, hspec⟩ := hfirst zeroSector
  obtain rfl : 1 = k := (Prod.mk.inj (Except.ok.inj (hfound.symm.trans hk))).1
  rcases hspec with ⟨-, hst', -⟩ | ⟨h0, -⟩
  · exact hother hst'
  · cases h0

/-! ## The whole directory -/

/-- The search for a free entry answers for all of 1 .. 511, and the lookup of a name that is
stored in one of them returns an entry that stores it. -/
def WholeDirectory (fileName : CString) (rd : Ramdisk) : Prop :=
  (∀ stack, ∃ k, findNextFreeRootEntry stack rd = .ok (k, rd) ∧
    IsFirst (fun i => ¬ rd.image.Used i) (fat16RootEntryCount - 1) 1 k) ∧
  ∀ stack i, 1 ≤ i → i < fat16RootEntryCount → rd.image.Stores fileName i →
    ∃ k, ramdiskFat16FileExists stack fileName rd = .ok (k, rd) ∧
      1 ≤ k ∧ k < fat16RootEntryCount ∧ rd.image.Stores fileName k

/-- The lookup returns an entry that stores the name exactly when one of 1 .. 31 does and no
entry before it is below the name. -/
theorem stores_lookup_iff {img : Image} :
    1 ≤ img.lookup fileName ∧ img.Stores fileName (img.lookup fileName) ↔
      ∃ j, 1 ≤ j ∧ j < 32 ∧ img.Stores fileName j ∧
        ∀ i, 1 ≤ i → i < j → ¬ img.Below fileName i := by
  constructor
  · rintro ⟨hpos, hst⟩
    obtain ⟨hfile, -, hbefore⟩ := (Image.lookup_eq_iff (by omega)).mp (Eq.refl (img.lookup fileName))
    refine ⟨_, hpos, hfile.2.1, hst, ?_⟩
    intro i hi hlt hbelow
    exact hbefore i ⟨hi, Nat.lt_trans hlt hfile.2.1, hbelow.1⟩ hlt hbelow.2.1
  · rintro ⟨j, hj, hlt, hst, hbefore⟩
    -- the first entry that is accepted is no later than `j`, and not below the name
    have h0 : img.lookup fileName ≠ 0 := by
      intro h0
      exact Image.lookup_eq_zero_iff.mp h0 j ⟨hj, hlt, hst.1⟩ (hst.2 ▸ nameMatches_native fileName)
    obtain ⟨hfile, hm, hfirst⟩ := (Image.lookup_eq_iff h0).mp rfl
    have hle : img.lookup fileName ≤ j := by
      by_contra hgt
      exact hfirst j ⟨hj, hlt, hst.1⟩ (by omega) (hst.2 ▸ nameMatches_native fileName)
    refine ⟨hfile.1, ?_⟩
    rcases Nat.eq_or_lt_of_le hle with heq | hlt'
    · rwa [heq]
    · exact (Image.accepts_iff.mp ⟨hfile.2.2, hm⟩).resolve_right (hbefore _ hfile.1 hlt')

/-- The search for a free entry among 1 .. 31, asked about 1 .. 511. -/
theorem freeRootEntry_whole_iff (h : rd.Valid 1024) :
    (∀ stack, ∃ k, findNextFreeRootEntry stack rd = .ok (k, rd) ∧
      IsFirst (fun i => ¬ rd.image.Used i) (fat16RootEntryCount - 1) 1 k) ↔
      (∃ i, 1 ≤ i ∧ i < 32 ∧ ¬ rd.image.Used i) ∨ ∀ i, 1 ≤ i → i < 512 → rd.image.Used i := by
  have hle : rootDirectorySectors - 1 ≤ fat16RootEntryCount - 1 := by decide
  have hsearch : IsFirst (fun i => ¬ rd.image.Used i) (fat16RootEntryCount - 1) 1
      rd.image.freeRootEntry ↔ _ := isFirst_firstFrom_of_le (by decide) hle
  simp only [not_not] at hsearch
  rw [show 1 + (rootDirectorySectors - 1) = 32 from rfl,
    show 1 + (fat16RootEntryCount - 1) = 512 from rfl] at hsearch
  rw [← hsearch]
  simp [findNextFreeRootEntry_eq h]

/-- What it means that the lookup returns an entry that stores the name. -/
theorem fileExists_stores_iff (h : rd.Valid 1024) :
    (∃ k, ramdiskFat16FileExists stack fileName rd = .ok (k, rd) ∧
      1 ≤ k ∧ k < fat16RootEntryCount ∧ rd.image.Stores fileName k) ↔
      ∃ j, 1 ≤ j ∧ j < 32 ∧ rd.image.Stores fileName j ∧
        ∀ i, 1 ≤ i → i < j → ¬ rd.image.Below fileName i := by
  rw [← stores_lookup_iff, ramdiskFat16FileExists_eq h]
  have hlt : rd.image.lookup fileName < 32 := rd.image.lookup_lt fileName
  have hcount : fat16RootEntryCount = 512 := rfl
  constructor
  · rintro ⟨k, hk, hpos, -, hst⟩
    obtain rfl := (Prod.mk.inj (Except.ok.inj hk)).1
    exact ⟨hpos, hst⟩
  · rintro ⟨hpos, hst⟩
    exact ⟨_, rfl, hpos, by omega, hst⟩

/-- **Whole directory.** The scans answer for the 512 entries exactly when one of 1 .. 31 is
free or none of 1 .. 511 is, and a name that is stored anywhere is stored in one of 1 .. 31
that no entry below the name comes before. -/
theorem fat16_wholeDirectory_iff (h : rd.Valid 1024) :
    WholeDirectory fileName rd ↔
      ((∃ i, 1 ≤ i ∧ i < 32 ∧ ¬ rd.image.Used i) ∨ ∀ i, 1 ≤ i → i < 512 → rd.image.Used i) ∧
      ((∃ i, 1 ≤ i ∧ i < 512 ∧ rd.image.Stores fileName i) →
        ∃ j, 1 ≤ j ∧ j < 32 ∧ rd.image.Stores fileName j ∧
          ∀ i, 1 ≤ i → i < j → ¬ rd.image.Below fileName i) := by
  unfold WholeDirectory
  rw [freeRootEntry_whole_iff h]
  simp only [fileExists_stores_iff h]
  constructor
  · rintro ⟨hroom, hfind⟩
    exact ⟨hroom, fun ⟨i, hi, hlt, hst⟩ => hfind zeroSector i hi hlt hst⟩
  · rintro ⟨hroom, hfind⟩
    exact ⟨hroom, fun _ i hi hlt hst => hfind ⟨i, hi, hlt, hst⟩⟩

/-- The file "A" alone, in entry 1: there is room, and it is found. -/
theorem fat16_wholeDirectory_iff_one : ∃ rd, rd.image.Stores ⟨[0x41], by decide⟩ 1 ∧
    WholeDirectory ⟨[0x41], by decide⟩ rd := by
  obtain ⟨-, -, rd, -, -, hv, hst, hfile⟩ := exists_one_file ⟨[0x41], by decide⟩
  refine ⟨rd, hst, (fat16_wholeDirectory_iff hv).mpr ⟨.inl ⟨2, by decide, by decide, ?_⟩, ?_⟩⟩
  · intro hused
    have := (hfile 2).mp ⟨by decide, by decide, hused⟩
    omega
  · intro _
    exact ⟨1, Nat.le_refl 1, by decide, hst, by omega⟩

theorem Image.entryName_getElem (img : Image) (i : Nat) {k : Nat} (hk : k < 11) :
    (img.rootEntry i).entryName[k] = img (33280 + i * 32 + k) := by
  simp only [rootEntry, RamdiskFat16Entry.ofBytes, Vector.getElem_ofFn]
  rfl

/-- Entries 0 .. 31 are named "CCCCCCCC.CCC" and entry 32 is the file "A"; 33 .. 511 are free. -/
theorem exists_crowded_directory : ∃ rd : Ramdisk, rd.Valid 1024 ∧
    (∀ i, i < 32 → ∀ k (hk : k < 11), (rd.image.rootEntry i).entryName[k] = 0x43) ∧
    rd.image.Stores ⟨[0x41], by decide⟩ 32 ∧ ¬ rd.image.Used 33 := by
  obtain ⟨rd₀, -, -, hfat⟩ := exists_fatInit
  obtain ⟨hv₀, img, hempty⟩ := hfat.spec
  let native := ramdiskFat16FilenameToNative ⟨[0x41], by decide⟩
  let data : Buffer := fun k => if k < 1024 then 0x43 else native.toList.getD (k - 1024) 0
  obtain ⟨rd, -, hv, himg⟩ := hv₀.write data (show 33280 + 1035 ≤ ramdiskFat16Size by decide)
  have hstored : (rd.image.rootEntry 32).entryName = native := by
    ext k hk
    have hdata : data (1024 + k) = native[k] := by
      show (if 1024 + k < 1024 then _ else native.toList.getD (1024 + k - 1024) 0) = _
      rw [if_neg (by omega), Nat.add_sub_cancel_left]
      simp [List.getD, hk]
    rw [Image.entryName_getElem _ _ hk, himg, patch_of_mem (by omega) (by omega),
      show 33280 + 32 * 32 + k - 33280 = 1024 + k by omega, hdata]
  refine ⟨rd, hv, ?_, ⟨?_, hstored⟩, ?_⟩
  · intro i hi k hk
    rw [Image.entryName_getElem _ _ hk, himg, patch_of_mem (by omega) (by omega)]
    exact if_pos (by omega)
  · rw [Image.Used, hstored]
    exact nameUsed_native _
  · rw [Image.Used, NameUsed, Image.entryName_getElem _ _ (by decide), himg,
      patch_of_not_mem (by decide), hempty]
    exact fun hne => hne rfl

/-- There no free entry is found, and "A" is not found. -/
theorem fat16_not_wholeDirectory : ∃ rd : Ramdisk, rd.Valid 1024 ∧
    ¬ rd.image.Used 33 ∧ findNextFreeRootEntry zeroSector rd = .ok (0, rd) ∧
    rd.image.Stores ⟨[0x41], by decide⟩ 32 ∧
    ramdiskFat16FileExists zeroSector ⟨[0x41], by decide⟩ rd = .ok (0, rd) ∧
    ¬ WholeDirectory ⟨[0x41], by decide⟩ rd := by
  obtain ⟨rd, hv, hname, hstores, hunused⟩ := exists_crowded_directory
  have hused : ∀ i, i < 32 → rd.image.Used i := by
    intro i hi
    rw [Image.Used, NameUsed, hname i hi 0 (by decide)]
    decide
  have hroot : findNextFreeRootEntry zeroSector rd = .ok (0, rd) := by
    have hnone : rd.image.freeRootEntry = 0 :=
      (firstFrom_eq_zero_iff fun h => absurd h (by decide)).mpr
        fun i _ hi => not_not.mpr (hused i hi)
    rw [findNextFreeRootEntry_eq hv, hnone]
  have hlost : ramdiskFat16FileExists zeroSector ⟨[0x41], by decide⟩ rd = .ok (0, rd) := by
    have hnone : rd.image.lookup ⟨[0x41], by decide⟩ = 0 := by
      apply Image.lookup_eq_zero_iff.mpr
      intro i hi hm
      have h0 := hm 0 (by decide)
      rw [hname i hi.2.1 0 (by decide)] at h0
      exact absurd h0 (by decide)
    rw [ramdiskFat16FileExists_eq hv, hnone]
  refine ⟨rd, hv, hunused, hroot, hstores, hlost, ?_⟩
  rintro ⟨hfree, -⟩
  obtain ⟨k, hk, hspec⟩ := hfree zeroSector
  obtain rfl : 0 = k := (Prod.mk.inj (Except.ok.inj (hroot.symm.trans hk))).1
  rcases hspec with ⟨hrange, -⟩ | ⟨-, hall⟩
  · omega
  · exact hall 33 (by decide) (by decide) hunused

end KoizOs
