import KoizOs.Fat.Mirror
import Mathlib.Tactic.IntervalCases

/-!
# What a new directory entry is made of

`ramdisk_fat16_file_write` fills the local variable `new_entry` field by field and copies
all of it to the disk.  Five of its twelve fields are assigned on every path; the times,
the dates and the high half of the cluster number, its bytes 13 to 25, never are.

| result | content |
|--------|---------|
| `ramdiskFat16FileWrite_congr` | on equal disks two calls for a file differ in the entry alone |
| `newRootEntry_eq_iff` | two entries for it are equal exactly when the 13 bytes were |
| `fat16_entryDetermined_iff` | when the disk after a write is determined by the file |
-/

namespace KoizOs

open Lib

variable {rd₁ rd₂ rd₁' rd₂' : Ramdisk} {data stack stack₁ stack₂ : Buffer} {fileName : CString}
  {dataSize : UInt32} {res₁ res₂ : Int} {cur : Nat}

/-- The entry that a write to the disk `img` stored, if it did, has no high cluster number. -/
def HighZero (img : Image) (res : Int) (rd' : Ramdisk) : Prop :=
  res = 0 → (rd'.image.rootEntry img.freeRootEntry).entryHighClusterNumber = 0

/-- Two writes to the disk `img` end alike, with entries in the format. -/
structure EntryDetermined (img : Image) (res₁ res₂ : Int) (rd₁' rd₂' : Ramdisk) : Prop where
  same : rd₁'.image = rd₂'.image
  high₁ : HighZero img res₁ rd₁'
  high₂ : HighZero img res₂ rd₂'

/-! ## Everything but the entry -/

/-- The loop depends on the bytes of the disk alone. -/
theorem fileWriteLoop_congr {left ptr : Nat} {r₁ r₂ : Nat × Nat × Nat × Ramdisk}
    (h₁ : rd₁.Valid 1024) (h₂ : rd₂.Valid 1024) (himg : rd₁.image = rd₂.image)
    (hcur : cur < clusterCount) (hl₁ : fileWriteLoop data left ptr cur rd₁ = .ok r₁)
    (hl₂ : fileWriteLoop data left ptr cur rd₂ = .ok r₂) :
    r₁.1 = r₂.1 ∧ r₁.2.1 = r₂.2.1 ∧ r₁.2.2.1 = r₂.2.2.1 ∧ r₁.2.2.2.image = r₂.2.2.2.image := by
  induction left using Nat.strong_induction_on generalizing ptr cur rd₁ rd₂ with
  | h left ih =>
    by_cases hleft : 512 < left
    · by_cases hf : rd₁.image.freeCluster = 0
      · rw [fileWriteLoop_full h₁ hleft hcur hf] at hl₁
        exact absurd hl₁ (panic_ne_ok _ _)
      · obtain ⟨rd₁', heq₁, hv₁, himg₁⟩ := fileWriteLoop_step data ptr h₁ hleft hcur rfl hf
        obtain ⟨rd₂', heq₂, hv₂, himg₂⟩ := fileWriteLoop_step data ptr h₂ hleft hcur
          (himg ▸ rfl : rd₂.image.freeCluster = rd₁.image.freeCluster) hf
        exact ih _ (by omega) hv₁ hv₂ (by rw [himg₁, himg₂, himg])
          (Image.freeCluster_spec rfl hf).1 (heq₁ ▸ hl₁) (heq₂ ▸ hl₂)
    · rw [fileWriteLoop_done (by omega)] at hl₁ hl₂
      obtain rfl := Except.ok.inj hl₁
      obtain rfl := Except.ok.inj hl₂
      exact ⟨rfl, rfl, rfl, himg⟩

/-- Two calls that store a file differ in what their entries are made of. -/
theorem ramdiskFat16FileWrite_congr (h₁ : rd₁.Valid 1024) (h₂ : rd₂.Valid 1024)
    (himg : rd₁.image = rd₂.image) (hfile : rd₁.image.lookup fileName = 0)
    (hfree : rd₁.image.freeCluster ≠ 0)
    (hw₁ : ramdiskFat16FileWrite stack₁ fileName data dataSize rd₁ = .ok (res₁, rd₁'))
    (hw₂ : ramdiskFat16FileWrite stack₂ fileName data dataSize rd₂ = .ok (res₂, rd₂')) :
    res₁ = 0 ∧ res₂ = 0 ∧ ∃ img : Image,
      rd₁'.image = img.setRootEntry rd₁.image.freeRootEntry
        (newRootEntry stack₁ fileName dataSize rd₁.image.freeCluster) ∧
      rd₂'.image = img.setRootEntry rd₁.image.freeRootEntry
        (newRootEntry stack₂ fileName dataSize rd₁.image.freeCluster) := by
  have hlt := (Image.freeCluster_spec rfl hfree).1
  rw [ramdiskFat16FileWrite_eq h₁ hfile rfl hfree] at hw₁
  rw [ramdiskFat16FileWrite_eq h₂ (himg ▸ hfile) rfl (himg ▸ hfree), ← himg] at hw₂
  obtain ⟨⟨left, ptr, cur, rd₁₁⟩, hloop₁, hend₁⟩ := bind_eq_ok.mp hw₁
  obtain ⟨⟨left₂, ptr₂, cur₂, rd₂₁⟩, hloop₂, hend₂⟩ := bind_eq_ok.mp hw₂
  obtain ⟨hleft, hptr, hcur, himg'⟩ := fileWriteLoop_congr h₁ h₂ himg hlt hloop₁ hloop₂
  dsimp only at hleft hptr hcur himg' hend₁ hend₂
  subst hleft hptr hcur
  have hstart : Image.InLoop data dataSize.toNat rd₁.image rd₁.image [] dataSize.toNat 0
      rd₁.image.freeCluster := ⟨.inl (.start data rfl hfree), rfl, .inr rfl⟩
  have hstart₂ : Image.InLoop data dataSize.toNat rd₁.image rd₂.image [] dataSize.toNat 0
      rd₁.image.freeCluster := himg ▸ hstart
  obtain ⟨hv₁, hleft, cs, hin, -⟩ := fileWriteLoop_filling h₁ hstart hloop₁
  obtain ⟨hv₂, -⟩ := fileWriteLoop_filling h₂ hstart₂ hloop₂
  obtain ⟨rd₁₂, hend₁', -, himg₁⟩ := fileWriteEnd_spec stack₁ hv₁ hin.filling.cur_lt hleft
    (newRootEntry stack₁ fileName dataSize 0) data rd₁.image.freeCluster ptr
  obtain ⟨rd₂₂, hend₂', -, himg₂⟩ := fileWriteEnd_spec stack₂ hv₂ hin.filling.cur_lt hleft
    (newRootEntry stack₂ fileName dataSize 0) data rd₁.image.freeCluster ptr
  obtain ⟨rfl, rfl⟩ := Prod.mk.inj (Except.ok.inj (hend₁'.symm.trans hend₁))
  obtain ⟨rfl, rfl⟩ := Prod.mk.inj (Except.ok.inj (hend₂'.symm.trans hend₂))
  have hroot := hin.filling.frame.freeRootEntry_eq
  refine ⟨rfl, rfl, rd₁₁.image.fill cur left (data.add ptr) (eswapUint16 clusterEnd), ?_, ?_⟩
  · rw [himg₁, hroot]
    rfl
  · rw [himg₂, ← himg', hroot]
    rfl

/-! ## The entry -/

/-- The entry shows the 13 bytes that were in its place. -/
theorem newRootEntry_eq_iff {c : Nat} :
    newRootEntry stack₁ fileName dataSize c = newRootEntry stack₂ fileName dataSize c ↔
      ∀ k, 13 ≤ k → k < 26 → stack₁ k = stack₂ k := by
  simp only [newRootEntry, RamdiskFat16Entry.ofBytes, RamdiskFat16Entry.mk.injEq, le16_inj,
    true_and, and_true]
  constructor
  · rintro ⟨h13, ⟨h14, h15⟩, ⟨h16, h17⟩, ⟨h18, h19⟩, ⟨h20, h21⟩, ⟨h22, h23⟩, h24, h25⟩ k hk hlt
    interval_cases k <;> assumption
  · intro h
    simp [h]

theorem newRootEntry_high_iff {c : Nat} :
    (newRootEntry stack fileName dataSize c).entryHighClusterNumber = 0 ↔
      stack 20 = 0 ∧ stack 21 = 0 := by
  show le16 (stack 20) (stack 21) = le16 0 0 ↔ _
  exact le16_inj

/-- A stored entry is the new one. -/
theorem highZero_iff {img img' : Image} {c : Nat} {rd' : Ramdisk}
    (h : rd'.image = img'.setRootEntry img.freeRootEntry (newRootEntry stack fileName dataSize c)) :
    HighZero img 0 rd' ↔ stack 20 = 0 ∧ stack 21 = 0 := by
  rw [HighZero, h, Image.rootEntry_setRootEntry, if_pos rfl, newRootEntry_high_iff]
  exact ⟨fun h => h rfl, fun h _ => h⟩

theorem setRootEntry_inj {img : Image} {r : Nat} {e₁ e₂ : RamdiskFat16Entry} :
    img.setRootEntry r e₁ = img.setRootEntry r e₂ ↔ e₁ = e₂ := by
  constructor
  · intro h
    have hentry := congrArg (Image.rootEntry · r) h
    simpa [Image.rootEntry_setRootEntry] using hentry
  · rintro rfl
    rfl

theorem Refused.keeps {rd rd' : Ramdisk} {w : FatWrite} (h : rd.Valid 1024) (hr : Refused rd w)
    (hw : w.Step rd rd') : w.res ≠ 0 ∧ rd' = rd := by
  rcases ramdiskFat16FileWrite_cases h hw with ⟨-, hres, heq⟩ | ⟨-, -, hres, heq⟩ |
    ⟨hfile, hfree, -⟩
  · exact ⟨by rw [hres]; decide, heq⟩
  · exact ⟨by rw [hres]; decide, heq⟩
  · rcases (refused_iff h w).mp hr with h | h
    · exact absurd hfile h
    · exact absurd h hfree

/-- **New entries.** Two writes of a file to equal disks end alike, with an entry in the
format, exactly when they are refused or the 13 bytes were alike and the two of the high
cluster number zero. -/
theorem fat16_entryDetermined_iff (h₁ : rd₁.Valid 1024) (h₂ : rd₂.Valid 1024)
    (himg : rd₁.image = rd₂.image)
    (hw₁ : ramdiskFat16FileWrite stack₁ fileName data dataSize rd₁ = .ok (res₁, rd₁'))
    (hw₂ : ramdiskFat16FileWrite stack₂ fileName data dataSize rd₂ = .ok (res₂, rd₂')) :
    EntryDetermined rd₁.image res₁ res₂ rd₁' rd₂' ↔
      Refused rd₁ ⟨stack₁, fileName, data, dataSize, res₁⟩ ∨
        ((∀ k, 13 ≤ k → k < 26 → stack₁ k = stack₂ k) ∧ stack₁ 20 = 0 ∧ stack₁ 21 = 0) := by
  by_cases hr : Refused rd₁ ⟨stack₁, fileName, data, dataSize, res₁⟩
  · have hr₂ : Refused rd₂ ⟨stack₂, fileName, data, dataSize, res₂⟩ := by
      rw [refused_iff h₁] at hr
      rw [refused_iff h₂, ← himg]
      exact hr
    obtain ⟨hres₁, rfl⟩ := hr.keeps h₁ hw₁
    obtain ⟨hres₂, rfl⟩ := hr₂.keeps h₂ hw₂
    exact iff_of_true ⟨himg, fun h => absurd h hres₁, fun h => absurd h hres₂⟩ (.inl hr)
  · have hr' := hr
    rw [refused_iff h₁, not_or, not_not] at hr'
    obtain ⟨rfl, rfl, img, himg₁, himg₂⟩ :=
      ramdiskFat16FileWrite_congr h₁ h₂ himg hr'.1 hr'.2 hw₁ hw₂
    have hsame : rd₁'.image = rd₂'.image ↔ ∀ k, 13 ≤ k → k < 26 → stack₁ k = stack₂ k := by
      rw [himg₁, himg₂, setRootEntry_inj, newRootEntry_eq_iff]
    constructor
    · rintro ⟨h, high₁, -⟩
      exact .inr ⟨hsame.mp h, (highZero_iff himg₁).mp high₁⟩
    · rintro (h | ⟨h, h20, h21⟩)
      · exact absurd h hr
      · refine ⟨hsame.mpr h, (highZero_iff himg₁).mpr ⟨h20, h21⟩, (highZero_iff himg₂).mpr ?_⟩
        rw [← h 20 (by decide) (by decide), ← h 21 (by decide) (by decide)]
        exact ⟨h20, h21⟩

theorem fat16_entryDetermined_iff_zero : ∃ rd rd',
    ramdiskFat16FileWrite zeroSector ⟨[0x41], by decide⟩ zeroSector 1 rd = .ok (0, rd') ∧
      EntryDetermined rd.image 0 0 rd' rd' := by
  obtain ⟨rd, s, rd', -, hfat, -, -, hw⟩ :=
    exists_first_write ⟨[0x41], by decide⟩ zeroSector 1 (by decide)
  have hv := hfat.ok.valid
  exact ⟨rd, rd', hw, (fat16_entryDetermined_iff hv hv rfl hw hw).mpr
    (.inr ⟨fun _ _ _ => rfl, rfl, rfl⟩)⟩

/-- One file, on an empty disk, over a stack of zeros and over one of ones. -/
theorem fat16_not_entryDetermined : ∃ rd rd₁ rd₂, FatReachable rd ∧
    ramdiskFat16FileWrite zeroSector ⟨[0x41], by decide⟩ zeroSector 1 rd = .ok (0, rd₁) ∧
    ramdiskFat16FileWrite (fun _ => 1) ⟨[0x41], by decide⟩ zeroSector 1 rd = .ok (0, rd₂) ∧
    rd₁.image ≠ rd₂.image ∧
    (rd₂.image.rootEntry rd.image.freeRootEntry).entryHighClusterNumber ≠ 0 := by
  obtain ⟨rd, s, rd₁, -, hfat, -, -, hw₁⟩ :=
    exists_first_write ⟨[0x41], by decide⟩ zeroSector 1 (by decide)
  have hv := hfat.ok.valid
  obtain ⟨hfile, -, hfree⟩ := hfat.empty ⟨[0x41], by decide⟩
  obtain ⟨rd₂, hw₂⟩ := ramdiskFat16FileWrite_small (fun _ => 1) zeroSector hv hfile hfree
    (show (1 : UInt32).toNat ≤ 1024 by decide)
  obtain ⟨-, -, img, himg₁, himg₂⟩ :=
    ramdiskFat16FileWrite_congr hv hv rfl hfile hfree hw₁ hw₂
  refine ⟨rd, rd₁, rd₂, ⟨_, _, rd, _, hfat, .start⟩, hw₁, hw₂, ?_, ?_⟩
  · intro h
    rw [himg₁, himg₂, setRootEntry_inj, newRootEntry_eq_iff] at h
    exact absurd (h 13 (by decide) (by decide)) (by decide)
  · intro h
    exact absurd ((highZero_iff himg₂).mp fun _ => h).1 (by decide)

end KoizOs
