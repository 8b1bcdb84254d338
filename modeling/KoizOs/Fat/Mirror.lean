import KoizOs.Fat.Invariant

/-!
# The second table

`ramdisk_fat16_format` writes both tables alike.  A file write means to do so too, but its
offset for the second table (`secondFatTableOffset`) is 511 bytes before that table, so
the cell of the last cluster it takes changes in the first table and not in the second.

| result | content |
|--------|---------|
| `formatted_mirrored` | a format makes the tables equal |
| `FatOk.mirrored_step` | a write keeps them equal only if it is refused |
| `fat16_mirrored_iff` | so over runs |
-/

namespace KoizOs

open Lib

variable {rd rd' : Ramdisk} {rest : Buffer}

/-- Sectors 33 .. 64 are byte for byte equal to sectors 1 .. 32. -/
def Mirrored (img : Image) : Prop :=
  ∀ x, x < fat16SectorsPerFat * fat16BytesPerSector →
    img (secondFatTableSector * fat16BytesPerSector + x) =
      img (firstFatTableSector * fat16BytesPerSector + x)

/-- The file exists already, or no cluster is free. -/
def Refused (rd : Ramdisk) (w : FatWrite) : Prop :=
  (∃ k, k ≠ 0 ∧ ramdiskFat16FileExists w.stack w.fileName rd = .ok (k, rd)) ∨
    findNextFreeCluster rd = .ok (0, rd)

theorem refused_iff (h : rd.Valid 1024) (w : FatWrite) :
    Refused rd w ↔ rd.image.lookup w.fileName ≠ 0 ∨ rd.image.freeCluster = 0 := by
  unfold Refused
  rw [ramdiskFat16FileExists_eq h, findNextFreeCluster_eq h]
  simp

/-- A write that returned 0 was not refused. -/
theorem FatOk.not_refused {w : FatWrite} (h : FatOk rd) (hs : w.Step rd rd') (hres : w.res = 0) :
    ¬ Refused rd w := by
  rw [refused_iff h.valid]
  rcases h.step_cases hs with ⟨-, h0, -⟩ | ⟨hfile, hfree, -⟩
  · exact absurd hres h0
  · exact not_or.mpr ⟨not_not.mpr hfile, hfree⟩

theorem formatted_mirrored (rest : Buffer) (img : Image) : Mirrored (formatted rest rest img) := by
  intro x hx
  have hx' : x < 32 * 512 := hx
  show formatted rest rest img (16896 + x) = formatted rest rest img (512 + x)
  unfold formatted
  rw [if_neg (by omega), if_neg (by omega), if_neg (show ¬ 512 + x < 512 by omega)]
  by_cases h : x < 512
  · rw [if_pos (by omega), if_pos (by omega), Nat.add_sub_cancel_left, Nat.add_sub_cancel_left]
  · rw [if_neg (by omega), if_pos (by omega), if_neg (by omega), if_neg (by omega),
      if_pos (by omega)]

/-- Equal tables have equal cells. -/
theorem Mirrored.cell_eq {img : Image} (h : Mirrored img) {c : Nat} (hc : c < clusterCount) :
    img.secondCell c = img.cell c := by
  have hc' : c < 415 := hc
  have h0 : img (16896 + c * 2) = img (512 + c * 2) := h (c * 2) (show c * 2 < 32 * 512 by omega)
  have h1 : img (16896 + (c * 2 + 1)) = img (512 + (c * 2 + 1)) :=
    h (c * 2 + 1) (show c * 2 + 1 < 32 * 512 by omega)
  show le16 (img (16896 + c * 2)) (img (16896 + (c * 2 + 1))) = le16 (img (512 + c * 2)) _
  rw [h0, h1]
  rfl

/-- A write that stores a file ends with tables that differ at its last cluster. -/
theorem not_mirrored_storeEntry {img img₁ : Image} {data stack : Buffer} {n : Nat} {cs : List Nat}
    {fileName : CString} {dataSize : UInt32} (hs : Image.Stored data n img img₁ cs)
    (hm : Mirrored img) : ¬ Mirrored (storeEntry img img₁ stack fileName dataSize) := by
  intro hm'
  obtain ⟨init, last, rfl, hlt, hfree⟩ := hs.exists_last
  have hlast : last ∈ init ++ [last] := by simp
  have hle : ∀ c ∈ init ++ [last], c ≤ last := by
    intro c hc
    rcases List.mem_append.mp hc with hc | hc
    · exact Nat.le_of_lt ((List.pairwise_append.mp hs.sorted).2.2 c hc last (by simp))
    · exact Nat.le_of_eq (List.mem_singleton.mp hc)
  -- the second table still has the free cell
  have hsecond : (storeEntry img img₁ stack fileName dataSize).secondCell last = 0 := by
    rw [storeEntry, Image.secondCell_setRootEntry hlt, hs.frame.secondCell_eq hlt hle,
      hm.cell_eq hlt]
    exact hfree
  have hcell : (storeEntry img img₁ stack fileName dataSize).cell last = 0 :=
    (hm'.cell_eq hlt).symm.trans hsecond
  rw [storeEntry, Image.cell_setRootEntry hlt] at hcell
  -- … but in the first table every cluster of the chain is taken
  exact (hs.free 0 (hs.chain.next_mem hlast (Image.next_of_free hcell))).1 rfl

/-- One write keeps the tables equal exactly when it is refused. -/
theorem FatOk.mirrored_step {w : FatWrite} (h : FatOk rd) (hm : Mirrored rd.image)
    (hw : w.Step rd rd') : Mirrored rd'.image ↔ Refused rd w := by
  rw [refused_iff h.valid]
  rcases h.step_cases hw with ⟨href, -, rfl⟩ | ⟨hfile, hfree, -, -, img₁, cs, hs, -, himg⟩
  · exact ⟨fun _ => href, fun _ => hm⟩
  · rw [himg]
    constructor
    · exact fun hm' => absurd hm' (not_mirrored_storeEntry hs hm)
    · rintro (hf | hf)
      · exact absurd hfile hf
      · exact absurd hf hfree

theorem FatInit.mirrored (h : FatInit rest rest rd) : Mirrored rd.image := by
  obtain ⟨-, img, himg⟩ := h.spec
  rw [himg]
  exact formatted_mirrored rest img

/-- **Mirroring.** From a format that wrote the same bytes to both tables, the tables are
equal in every state of a run exactly when every write of the run was refused. -/
theorem fat16_mirrored_iff {tr : List (Ramdisk × FatWrite)} (h : FatInit rest rest rd)
    (htr : Trace FatWrite.Step rd tr rd') :
    (Mirrored rd'.image ∧ ∀ e ∈ tr, Mirrored e.1.image) ↔ ∀ e ∈ tr, Refused e.1 e.2 :=
  htr.holds_iff (P := fun rd => Mirrored rd.image) h.ok (fun _ _ _ ht hw => ht.step hw) h.mirrored
    fun _ _ _ ht hm hw => ht.mirrored_step hm hw

theorem fat16_mirrored_iff_one : ∃ rd w rd', Mirrored rd.image ∧ FatWrite.Step rd w rd' ∧
    ¬ Refused rd w ∧ ¬ Mirrored rd'.image := by
  obtain ⟨rd, s, rd', -, hfat, -, -, hw⟩ :=
    exists_first_write ⟨[0x41], by decide⟩ zeroSector 1 (by decide)
  have hs : FatWrite.Step rd ⟨zeroSector, ⟨[0x41], by decide⟩, zeroSector, 1, 0⟩ rd' := hw
  have hserved := hfat.ok.not_refused hs rfl
  refine ⟨rd, _, rd', hfat.mirrored, hs, hserved, fun hm => hserved ?_⟩
  have hall := (fat16_mirrored_iff hfat (Trace.start.next hs)).mp
    ⟨hm, by simpa using hfat.mirrored⟩
  simpa using hall

/-- One byte written to an empty file system makes the tables differ. -/
theorem fat16_not_mirrored : ∃ rd s rd',
    ramdiskFat16Init pagesUpward zeroSector zeroSector ⟨fun _ => 0, 0, 0⟩ 1 = .ok (rd, s) ∧
      Mirrored rd.image ∧
      ramdiskFat16FileWrite zeroSector ⟨[0x41], by decide⟩ zeroSector 1 rd = .ok (0, rd') ∧
      ¬ Mirrored rd'.image := by
  obtain ⟨rd, s, rd', hinit, hfat, hfree, -, hw⟩ :=
    exists_first_write ⟨[0x41], by decide⟩ zeroSector 1 (by decide)
  have hs : FatWrite.Step rd ⟨zeroSector, ⟨[0x41], by decide⟩, zeroSector, 1, 0⟩ rd' := hw
  refine ⟨rd, s, rd', hinit, hfat.mirrored, hw, ?_⟩
  intro hm
  rcases hfat.ok.step_cases hs with ⟨-, h0, -⟩ | ⟨-, -, -, -, img₁, cs, hst, -, himg⟩
  · exact absurd rfl h0
  · rw [himg] at hm
    exact not_mirrored_storeEntry hst hfat.mirrored hm

end KoizOs
