import KoizOs.Fat.Mirror

/-!
# Writes that cannot be completed

A write is refused, with nothing changed, when the name exists or no cluster at all is
free.  Every other shortage shows only when data and links are already on the disk: the
loop then panics, or the entry is written over entry 0.

| result | content |
|--------|---------|
| `ramdiskFat16FileWrite_outcome` | a call returns or ends with the one panic |
| `fat16_refusal_iff` | which writes that cannot be completed are refused cleanly |
-/

namespace KoizOs

open Lib

variable {rd rd' : Ramdisk} {data stack : Buffer} {cur : Nat} {fileName : CString}
  {dataSize : UInt32} {w : FatWrite}

/-- How many clusters are free. -/
def Image.freeClusters (img : Image) : Nat :=
  (List.range clusterCount).countP fun c => img.cell c = 0

/-- The name exists, or there are too few free clusters, or there is no free root entry. -/
def Unstorable (rd : Ramdisk) (w : FatWrite) : Prop :=
  (∃ k, k ≠ 0 ∧ ramdiskFat16FileExists w.stack w.fileName rd = .ok (k, rd)) ∨
    rd.image.freeClusters < max 1 ((w.dataSize.toNat + 511) / 512) ∨
    findNextFreeRootEntry w.stack rd = .ok (0, rd)

/-- The call returns an error code, and no byte of the disk has changed. -/
def RefusesCleanly (rd : Ramdisk) (w : FatWrite) : Prop :=
  ∃ res rd', ramdiskFat16FileWrite w.stack w.fileName w.data w.dataSize rd = .ok (res, rd') ∧
    res ≠ 0 ∧ rd'.image = rd.image

/-- The loop returns, or it stops for want of a cluster. -/
theorem fileWriteLoop_outcome (data : Buffer) (left ptr : Nat) (h : rd.Valid 1024)
    (hcur : cur < clusterCount) :
    (∃ left' ptr' cur' rd', fileWriteLoop data left ptr cur rd = .ok (left', ptr', cur', rd') ∧
      rd'.Valid 1024 ∧ cur' < clusterCount ∧ left' ≤ 512) ∨
    fileWriteLoop data left ptr cur rd =
      panic "ramdisk_fat16_file_write: cannot undo partial write!\n" := by
  induction left using Nat.strong_induction_on generalizing ptr cur rd with
  | h left ih =>
    by_cases hleft : 512 < left
    · by_cases hf : rd.image.freeCluster = 0
      · exact .inr (fileWriteLoop_full h hleft hcur hf)
      · obtain ⟨rd₁, heq, hv, -⟩ := fileWriteLoop_step data ptr h hleft hcur rfl hf
        rw [heq]
        exact ih _ (by omega) _ hv (Image.freeCluster_spec rfl hf).1
    · exact .inl ⟨left, ptr, cur, rd, fileWriteLoop_done (by omega), h, hcur, by omega⟩

theorem ramdiskFat16FileWrite_outcome (stack : Buffer) (fileName : CString) (data : Buffer)
    (dataSize : UInt32) (h : rd.Valid 1024) :
    (∃ r, ramdiskFat16FileWrite stack fileName data dataSize rd = .ok r) ∨
    ramdiskFat16FileWrite stack fileName data dataSize rd =
      panic "ramdisk_fat16_file_write: cannot undo partial write!\n" := by
  by_cases hfile : rd.image.lookup fileName = 0
  · by_cases hf : rd.image.freeCluster = 0
    · exact .inl ⟨_, ramdiskFat16FileWrite_noSpace h hfile hf⟩
    · rw [ramdiskFat16FileWrite_eq h hfile rfl hf]
      rcases fileWriteLoop_outcome data dataSize.toNat 0 h
        (Image.freeCluster_spec rfl hf).1 with ⟨left, ptr, cur, rd₁, hloop, hv, hcur, hleft⟩ | hpanic
      · obtain ⟨rd₂, hend, -⟩ := fileWriteEnd_spec stack hv hcur hleft
          (newRootEntry stack fileName dataSize 0) data rd.image.freeCluster ptr
        rw [hloop]
        exact .inl ⟨_, hend⟩
      · rw [hpanic]
        exact .inr rfl
  · exact .inl ⟨_, ramdiskFat16FileWrite_exists h hfile⟩

/-- A file that needs more clusters than there are. -/
theorem ramdiskFat16FileWrite_too_large (stack data : Buffer) (h : rd.Valid 1024)
    (hfile : rd.image.lookup fileName = 0) (hf : rd.image.freeCluster ≠ 0)
    (hlarge : 1024 * clusterCount < dataSize.toNat) :
    ramdiskFat16FileWrite stack fileName data dataSize rd =
      panic "ramdisk_fat16_file_write: cannot undo partial write!\n" := by
  rcases ramdiskFat16FileWrite_outcome stack fileName data dataSize h with ⟨⟨res, rd'⟩, hok⟩ | hpanic
  · exfalso
    rcases ramdiskFat16FileWrite_cases h hok with ⟨hexists, -⟩ | ⟨-, hnone, -⟩ |
      ⟨-, -, -, -, img, cs, hs, -⟩
    · exact hexists hfile
    · exact hf hnone
    · -- the chain has different clusters, so at most `clusterCount` of them
      have hsub : cs ⊆ List.range clusterCount := by
        intro c hc
        exact List.mem_range.mpr (hs.frame.1 c hc)
      have hnodup : cs.Nodup := hs.sorted.imp Nat.ne_of_lt
      have hlen := List.Nodup.length_le_of_subset hnodup hsub
      rw [List.length_range, hs.length] at hlen
      omega
  · exact hpanic

/-- **Clean refusals.** A write that cannot be completed returns an error code and leaves
the disk as it was exactly when the name exists or no cluster at all is free. -/
theorem fat16_refusal_iff (h : FatReachable rd) (w : FatWrite) :
    (Unstorable rd w → RefusesCleanly rd w) ↔ (Unstorable rd w → Refused rd w) := by
  have hv := h.ok.valid
  rw [refused_iff hv]
  constructor
  · intro hclean hun
    obtain ⟨res, rd', hok, hres, -⟩ := hclean hun
    rcases ramdiskFat16FileWrite_cases hv hok with ⟨hexists, -⟩ | ⟨-, hnone, -⟩ | ⟨-, -, hzero, -⟩
    · exact .inl hexists
    · exact .inr hnone
    · exact absurd hzero hres
  · intro hrefused hun
    by_cases hfile : rd.image.lookup w.fileName = 0
    · have hf := (hrefused hun).resolve_left (not_not.mpr hfile)
      exact ⟨_, rd, ramdiskFat16FileWrite_noSpace hv hfile hf, by decide, rfl⟩
    · exact ⟨_, rd, ramdiskFat16FileWrite_exists hv hfile, by decide, rfl⟩

theorem freeClusters_le (img : Image) : img.freeClusters ≤ clusterCount := by
  have hle : img.freeClusters ≤ (List.range clusterCount).length := List.countP_le_length
  rwa [List.length_range] at hle

theorem fat16_refusal_iff_one : ∃ rd, FatReachable rd ∧
    (Unstorable rd ⟨zeroSector, ⟨[0x41], by decide⟩, zeroSector, 1, 0⟩ →
      RefusesCleanly rd ⟨zeroSector, ⟨[0x41], by decide⟩, zeroSector, 1, 0⟩) := by
  obtain ⟨rd₀, s, rd, -, hfat, hfree, hroot, hw⟩ :=
    exists_first_write ⟨[0x41], by decide⟩ zeroSector 1 (by decide)
  have hs : FatWrite.Step rd₀ ⟨zeroSector, ⟨[0x41], by decide⟩, zeroSector, 1, 0⟩ rd := hw
  have hr : FatReachable rd := ⟨_, _, rd₀, _, hfat, Trace.start.next hs⟩
  refine ⟨rd, hr, ?_⟩
  -- the file is there now
  have hy : rd.image.lookup ⟨[0x41], by decide⟩ = 1 := by
    rcases hfat.ok.step_cases hs with ⟨-, h0, -⟩ | ⟨hfile, -, -, -, img₁, cs, hst, -, himg⟩
    · exact absurd rfl h0
    · rw [himg, Image.lookup_new hfat.ok.inv hst hfile, hroot]
  apply (fat16_refusal_iff hr _).mpr
  intro _
  apply (refused_iff hr.ok.valid _).mpr
  left
  rw [hy]
  decide

/-- A file of a million bytes on an empty disk: it cannot be stored, and the call panics
with the clusters it could get filled and linked. -/
theorem fat16_not_refused : ∃ rd, FatReachable rd ∧
    Unstorable rd ⟨zeroSector, ⟨[0x41], by decide⟩, zeroSector, 1000000, 0⟩ ∧
    ramdiskFat16FileWrite zeroSector ⟨[0x41], by decide⟩ zeroSector 1000000 rd =
      panic "ramdisk_fat16_file_write: cannot undo partial write!\n" ∧
    ¬ RefusesCleanly rd ⟨zeroSector, ⟨[0x41], by decide⟩, zeroSector, 1000000, 0⟩ := by
  obtain ⟨rd, s, rd', -, hfat, hfree, -, hw⟩ :=
    exists_first_write ⟨[0x41], by decide⟩ zeroSector 1 (by decide)
  have hs : FatWrite.Step rd ⟨zeroSector, ⟨[0x41], by decide⟩, zeroSector, 1, 0⟩ rd' := hw
  have hfile : rd.image.lookup ⟨[0x41], by decide⟩ = 0 := by
    rcases hfat.ok.step_cases hs with ⟨-, h0, -⟩ | ⟨hfile, -⟩
    · exact absurd rfl h0
    · exact hfile
  have hpanic := ramdiskFat16FileWrite_too_large zeroSector zeroSector hfat.ok.valid hfile
    (by rw [hfree]; decide) (show 1024 * clusterCount < (1000000 : UInt32).toNat by decide)
  refine ⟨rd, ⟨_, _, rd, _, hfat, .start⟩, .inr (.inl ?_), hpanic, ?_⟩
  · exact Nat.lt_of_le_of_lt (freeClusters_le _) (by decide)
  · rintro ⟨res, rd₁, hok, -⟩
    exact panic_ne_ok _ _ (hpanic.symm.trans hok)

end KoizOs
