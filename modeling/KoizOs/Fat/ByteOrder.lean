import KoizOs.Fat.Mirror

/-!
# The byte order of the tables

`ramdisk_fat16_format` writes little-endian cells, and the search for a free cluster reads
them so; `ramdisk_fat16_file_write` swaps the two bytes of every link and end mark it
stores.  The end mark becomes 0xF8FF, which is neither a cluster nor an end mark.

| result | content |
|--------|---------|
| `not_inOrder_storeEntry` | the last cluster of a file that was stored |
| `fat16_byteOrder_iff` | so over runs |
-/

namespace KoizOs

open Lib

variable {rd rd₀ rd' : Ramdisk} {rest₁ rest₂ : Buffer} {img₀ : Image}

/-- Cluster `c` was free right after the format and is in use now. -/
def Allocated (img₀ img : Image) (c : Nat) : Prop :=
  c < clusterCount ∧ img₀.cell c = 0 ∧ img.cell c ≠ 0

/-- Every cell of an allocated cluster, read as it is stored, is a cluster or an end mark. -/
def InOrder (img₀ img : Image) : Prop :=
  ∀ c, Allocated img₀ img c →
    2 ≤ (img.cell c).toNat ∧ (img.cell c).toNat < clusterCount ∨ 0xFFF8 ≤ (img.cell c).toNat

/-- A write that stores a file leaves a swapped end mark in its last cluster. -/
theorem not_inOrder_storeEntry {img img₁ : Image} {data stack : Buffer} {n : Nat} {cs : List Nat}
    {fileName : CString} {dataSize : UInt32} (hs : Image.Stored data n img img₁ cs)
    (hfree : ∀ c, c < clusterCount → img.cell c = 0 → img₀.cell c = 0) :
    ¬ InOrder img₀ (storeEntry img img₁ stack fileName dataSize) := by
  intro horder
  obtain ⟨init, last, rfl, hlt, hlast⟩ := hs.exists_last
  have hmark : (storeEntry img img₁ stack fileName dataSize).cell last = 0xF8FF := by
    rw [storeEntry, Image.cell_setRootEntry hlt]
    have hnext := hs.chain.next_last
    simp only [Image.next, ite_eq_left_iff, reduceCtorEq, imp_false, not_not] at hnext
    rw [← eswapUint16_eswapUint16 (img₁.cell last), hnext]
    rfl
  have hval : ((storeEntry img img₁ stack fileName dataSize).cell last).toNat = 63743 := by
    rw [hmark]
    rfl
  have halloc : Allocated img₀ (storeEntry img img₁ stack fileName dataSize) last := by
    refine ⟨hlt, hfree last hlt hlast, ?_⟩
    rw [hmark]
    decide
  have hcount : clusterCount = 415 := rfl
  rcases horder last halloc with ⟨-, hsmall⟩ | hend
  · omega
  · omega

/-- What every write keeps: a file system, in which what was taken by the format stays taken. -/
structure FatSince (img₀ : Image) (rd : Ramdisk) : Prop extends FatOk rd where
  taken : ∀ c, c < clusterCount → rd.image.cell c = 0 → img₀.cell c = 0

theorem FatSince.step {w : FatWrite} (h : FatSince img₀ rd) (hw : w.Step rd rd') :
    FatSince img₀ rd' := by
  rcases h.step_cases hw with ⟨-, -, rfl⟩ | ⟨-, -, -, hok, img₁, cs, hs, -, himg⟩
  · exact h
  · refine ⟨hok, ?_⟩
    intro c hc hcell
    apply h.taken c hc
    by_contra hused
    rw [himg, cell_storeEntry hs hc hused] at hcell
    exact hused hcell

/-- One write keeps the byte order exactly when it is refused. -/
theorem FatSince.inOrder_step {w : FatWrite} (h : FatSince img₀ rd) (ho : InOrder img₀ rd.image)
    (hw : w.Step rd rd') : InOrder img₀ rd'.image ↔ Refused rd w := by
  rw [refused_iff h.valid]
  rcases h.step_cases hw with ⟨href, -, rfl⟩ | ⟨hfile, hfree, -, -, img₁, cs, hs, -, himg⟩
  · exact iff_of_true ho href
  · rw [himg]
    apply iff_of_false (not_inOrder_storeEntry hs h.taken)
    rintro (hf | hf)
    · exact hf hfile
    · exact hfree hf

/-- **Byte order.** From a format on, the cells of all allocated clusters are clusters or
end marks in every state of a run exactly when every write of the run was refused. -/
theorem fat16_byteOrder_iff {tr : List (Ramdisk × FatWrite)} (h : FatInit rest₁ rest₂ rd₀)
    (htr : Trace FatWrite.Step rd₀ tr rd) :
    (InOrder rd₀.image rd.image ∧ ∀ e ∈ tr, InOrder rd₀.image e.1.image) ↔
      ∀ e ∈ tr, Refused e.1 e.2 :=
  htr.holds_iff (I := FatSince rd₀.image) (P := fun rd => InOrder rd₀.image rd.image)
    ⟨h.ok, fun _ _ hcell => hcell⟩ (fun _ _ _ ht hw => ht.step hw)
    (fun _ hc => absurd hc.2.1 hc.2.2) fun _ _ _ ht ho hw => ht.inOrder_step ho hw

theorem fat16_byteOrder_iff_one : ∃ rd w rd', FatWrite.Step rd w rd' ∧ ¬ Refused rd w ∧
    ¬ InOrder rd.image rd'.image := by
  obtain ⟨rd, s, rd', -, hfat, -, -, hw⟩ :=
    exists_first_write ⟨[0x41], by decide⟩ zeroSector 1 (by decide)
  have hs : FatWrite.Step rd ⟨zeroSector, ⟨[0x41], by decide⟩, zeroSector, 1, 0⟩ rd' := hw
  have hserved := hfat.ok.not_refused hs rfl
  refine ⟨rd, _, rd', hs, hserved, fun ho => hserved ?_⟩
  have hself : InOrder rd.image rd.image := fun _ hc => absurd hc.2.1 hc.2.2
  have hall := (fat16_byteOrder_iff hfat (Trace.start.next hs)).mp ⟨ho, by simpa using hself⟩
  simpa using hall

/-- One byte written to an empty file system leaves 0xF8FF in the table. -/
theorem fat16_not_inOrder : ∃ rd s rd',
    ramdiskFat16Init pagesUpward zeroSector zeroSector ⟨fun _ => 0, 0, 0⟩ 1 = .ok (rd, s) ∧
      ramdiskFat16FileWrite zeroSector ⟨[0x41], by decide⟩ zeroSector 1 rd = .ok (0, rd') ∧
      ¬ InOrder rd.image rd'.image := by
  obtain ⟨rd, s, rd', hinit, hfat, hfree, -, hw⟩ :=
    exists_first_write ⟨[0x41], by decide⟩ zeroSector 1 (by decide)
  have hs : FatWrite.Step rd ⟨zeroSector, ⟨[0x41], by decide⟩, zeroSector, 1, 0⟩ rd' := hw
  refine ⟨rd, s, rd', hinit, hw, ?_⟩
  rcases hfat.ok.step_cases hs with ⟨-, h0, -⟩ | ⟨-, -, -, -, img₁, cs, hst, -, himg⟩
  · exact absurd rfl h0
  · rw [himg]
    exact not_inOrder_storeEntry hst fun _ _ hcell => hcell

end KoizOs
