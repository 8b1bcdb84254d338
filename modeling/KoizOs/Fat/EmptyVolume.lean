import KoizOs.Fat.Format

/-!
# Whether a format leaves an empty volume

`ramdisk_fat16_format` zeroes both tables and the directory, and then writes a whole
sector from the four bytes of `starting_sectors` to the start of each table.  The other
508 bytes are whatever lies in memory behind that array; where they are not zero, clusters
are taken that no file has.
-/

namespace KoizOs

open Lib

/-- The table at sector `s` is F8 FF FF FF and then zeros. -/
def EmptyTable (img : Image) (s : Nat) : Prop :=
  ∀ k, k < fat16SectorsPerFat * fat16BytesPerSector →
    img (s * fat16BytesPerSector + k) = if k = 0 then 0xF8 else if k < 4 then 0xFF else 0

structure EmptyVolume (img : Image) : Prop where
  first : EmptyTable img firstFatTableSector
  second : EmptyTable img secondFatTableSector
  root : ∀ k, k < rootDirectorySectors * fat16BytesPerSector →
    img (firstRootSector * fat16BytesPerSector + k) = 0

variable {rd : Ramdisk} {rest rest₁ rest₂ : Buffer} {img : Image}

/-- Every cluster from 2 up is free. -/
theorem EmptyVolume.free (h : EmptyVolume img) {c : Nat} (hc : 2 ≤ c) (hlt : c < clusterCount) :
    img.cell c = 0 := by
  have hlt' : c < 415 := hlt
  have hzero : ∀ k, 4 ≤ k → k < 16384 → img (512 + k) = 0 := by
    intro k hk hk'
    exact (h.first k hk').trans (by rw [if_neg (by omega), if_neg (by omega)])
  show le16 (img (512 + c * 2)) (img (512 + (c * 2 + 1))) = 0
  rw [hzero _ (by omega) (by omega), hzero _ (by omega) (by omega)]
  decide

/-- The first sector of a table. -/
theorem ofArray_startingSectors_iff :
    (∀ k, k < 512 → Buffer.ofArray startingSectors rest k =
      if k = 0 then 0xF8 else if k < 4 then 0xFF else 0) ↔
    ∀ k, 4 ≤ k → k < 512 → rest k = 0 := by
  constructor
  · intro h k hk hlt
    have := h k hlt
    rw [Buffer.ofArray, dif_neg (by omega), if_neg (by omega), if_neg (by omega)] at this
    exact this
  · intro h k hlt
    by_cases hk : k < 4
    · obtain rfl | rfl | rfl | rfl : k = 0 ∨ k = 1 ∨ k = 2 ∨ k = 3 := by omega
      all_goals rfl
    · rw [Buffer.ofArray, dif_neg hk, if_neg (by omega), if_neg hk, h k (by omega) hlt]

/-- A formatted table: its first sector, and zeros. -/
theorem emptyTable_iff {s : Nat} (hfirst : ∀ k, k < 512 → img (s * 512 + k) =
      Buffer.ofArray startingSectors rest k)
    (hzero : ∀ k, 512 ≤ k → k < 16384 → img (s * 512 + k) = 0) :
    EmptyTable img s ↔ ∀ k, 4 ≤ k → k < 512 → rest k = 0 := by
  rw [← ofArray_startingSectors_iff]
  constructor
  · intro h k hk
    rw [← hfirst k hk]
    exact h k (show k < 32 * 512 by omega)
  · intro h k hk
    have hk' : k < 32 * 512 := hk
    show img (s * 512 + k) = _
    by_cases hlt : k < 512
    · rw [hfirst k hlt, h k hlt]
    · rw [hzero k (by omega) hk', if_neg (by omega), if_neg (by omega)]

theorem formatted_emptyVolume_iff :
    EmptyVolume (formatted rest₁ rest₂ img) ↔
      ∀ k, 4 ≤ k → k < 512 → rest₁ k = 0 ∧ rest₂ k = 0 := by
  have h₁ : EmptyTable (formatted rest₁ rest₂ img) firstFatTableSector ↔
      ∀ k, 4 ≤ k → k < 512 → rest₁ k = 0 := by
    apply emptyTable_iff
    · intro k hk
      show formatted rest₁ rest₂ img (1 * 512 + k) = _
      unfold formatted
      rw [if_neg (by omega), if_pos (by omega), Nat.add_sub_cancel_left]
    · intro k hk hlt
      show formatted rest₁ rest₂ img (1 * 512 + k) = _
      unfold formatted
      rw [if_neg (by omega), if_neg (by omega), if_neg (by omega), if_pos (by omega)]
  have h₂ : EmptyTable (formatted rest₁ rest₂ img) secondFatTableSector ↔
      ∀ k, 4 ≤ k → k < 512 → rest₂ k = 0 := by
    apply emptyTable_iff
    · intro k hk
      show formatted rest₁ rest₂ img (33 * 512 + k) = _
      unfold formatted
      rw [if_neg (by omega), if_neg (by omega), if_pos (by omega), Nat.add_sub_cancel_left]
    · intro k hk hlt
      show formatted rest₁ rest₂ img (33 * 512 + k) = _
      unfold formatted
      rw [if_neg (by omega), if_neg (by omega), if_neg (by omega), if_pos (by omega)]
  constructor
  · rintro ⟨hfirst, hsecond, -⟩ k hk hlt
    exact ⟨h₁.mp hfirst k hk hlt, h₂.mp hsecond k hk hlt⟩
  · intro h
    refine ⟨h₁.mpr fun k hk hlt => (h k hk hlt).1, h₂.mpr fun k hk hlt => (h k hk hlt).2, ?_⟩
    intro k hk
    have hk' : k < 32 * 512 := hk
    show formatted rest₁ rest₂ img (65 * 512 + k) = 0
    unfold formatted
    rw [if_neg (by omega), if_neg (by omega), if_neg (by omega), if_pos (by omega)]

/-- The format returns with an empty volume on the disk. -/
def FormatsEmpty (rest₁ rest₂ : Buffer) (rd : Ramdisk) : Prop :=
  ∃ rd', ramdiskFat16Format rest₁ rest₂ rd = .ok rd' ∧ EmptyVolume rd'.image

/-- **Empty volume.** Whatever the disk held, a format leaves it empty exactly when the 508
bytes behind each of the two arrays are zero. -/
theorem fat16_formatsEmpty_iff (h : rd.Valid 1024) :
    FormatsEmpty rest₁ rest₂ rd ↔ ∀ k, 4 ≤ k → k < 512 → rest₁ k = 0 ∧ rest₂ k = 0 := by
  obtain ⟨rd', hformat, -, himg⟩ := ramdiskFat16Format_spec h rest₁ rest₂
  rw [← @formatted_emptyVolume_iff rest₁ rest₂ rd.image, ← himg]
  constructor
  · rintro ⟨rd'', hformat', hempty⟩
    rwa [Except.ok.inj (hformat.symm.trans hformat')]
  · intro hempty
    exact ⟨rd', hformat, hempty⟩

theorem fat16_formatsEmpty_iff_zero : ∃ rd, FormatsEmpty zeroSector zeroSector rd := by
  obtain ⟨rd, -, -, hfat⟩ := exists_fatInit
  exact ⟨rd, (fat16_formatsEmpty_iff hfat.spec.1).mpr fun _ _ _ => ⟨rfl, rfl⟩⟩

/-- Ones behind the arrays: cluster 2 is taken on the new disk.  What is there is the compiler's
choice; the build of the Makefile happens to have `zero_sector` there, which is zeroed. -/
theorem fat16_not_formatsEmpty : ∃ rd rd',
    ramdiskFat16Format (fun _ => 1) (fun _ => 1) rd = .ok rd' ∧ rd'.image.cell 2 ≠ 0 ∧
    ¬ EmptyVolume rd'.image := by
  obtain ⟨rd, -, -, hfat⟩ := exists_fatInit
  obtain ⟨rd', hformat, -, himg⟩ := ramdiskFat16Format_spec hfat.spec.1 (fun _ => 1) (fun _ => 1)
  have hcell : rd'.image.cell 2 ≠ 0 := by
    rw [himg]
    show le16 1 1 ≠ 0
    decide
  exact ⟨rd, rd', hformat, hcell, fun hempty => hcell (hempty.free (by decide) (by decide))⟩

end KoizOs
