import KoizOs.Fat.Invariant

/-!
# What a write that returned 0 left behind

Two statements about a file of `n` bytes that was stored with the result 0: that reading
it gives its beginning (`ReadsBack`), and that its chain holds all of it (`WholeFile`).
Both fail on files of more than 512 bytes, because each cluster is filled twice before
the chain goes on, and the first also when the directory was full, because the entry then
goes to number 0, where no scan looks.

| result | content |
|--------|---------|
| `fat16_readsBack_iff` | exactly when the beginning can be read back |
| `fat16_wholeFile_iff` | the whole file is on its chain exactly when `n ≤ 512` |
-/

namespace KoizOs

open Lib

variable {rd rd' : Ramdisk} {stack data : Buffer} {fileName : CString} {dataSize : UInt32}

/-- `file_exists` finds the file, and `file_read` of its first sector gives the first
`min n 512` bytes of `data`. -/
def ReadsBack (fileName : CString) (data : Buffer) (n : Nat) (rd : Ramdisk) : Prop :=
  ∀ stack, (∃ k, k ≠ 0 ∧ ramdiskFat16FileExists stack fileName rd = .ok (k, rd)) ∧
    ∀ buf, ∃ buf', ramdiskFat16FileRead stack fileName buf 0 rd =
        .ok (fat16RamdiskSuccess, buf', rd) ∧ ∀ i < min n 512, buf' i = data i

/-- The chain from the first cluster of entry `r` has as many clusters as `n` bytes need,
and its sectors in order begin with the `n` bytes of `data`. -/
def WholeFile (r : Nat) (data : Buffer) (n : Nat) (img : Image) : Prop :=
  ∃ chain : List Nat, IsList img.next (some (img.rootEntry r).entryLowClusterNumber.toNat) chain ∧
    chain.length = max 1 ((n + 511) / 512) ∧ chain.Nodup ∧
    ∀ i < n, ∃ c, chain[i / 512]? = some c ∧ img.sector c (i % 512) = data i

/-- The state after a write that returned 0. -/
theorem FatOk.written (h : FatOk rd)
    (hw : ramdiskFat16FileWrite stack fileName data dataSize rd = .ok (0, rd')) :
    rd.image.lookup fileName = 0 ∧ FatOk rd' ∧ ∃ img₁ cs,
      Image.Stored data dataSize.toNat rd.image img₁ cs ∧
      cs.head? = some rd.image.freeCluster ∧
      rd'.image = storeEntry rd.image img₁ stack fileName dataSize := by
  have hs : FatWrite.Step rd ⟨stack, fileName, data, dataSize, 0⟩ rd' := hw
  rcases h.step_cases hs with ⟨-, h0, -⟩ | ⟨hfile, -, -, hok, hstored⟩
  · exact absurd rfl h0
  · exact ⟨hfile, hok, hstored⟩

/-- The first cluster of a stored file holds the second piece over the first. -/
theorem Image.Stored.head_sector {img img₁ : Image} {cs : List Nat} {n c : Nat}
    (hs : Image.Stored data n img img₁ cs) (hhead : cs.head? = some c) {k : Nat} (hk : k < 512) :
    img₁.sector c k =
      if 512 + k < n then data (512 + k) else if k < n then data k else img.sector c k := by
  have h0 : cs[0]? = some c := by rwa [← List.head?_eq_getElem?]
  obtain ⟨hlt, h0⟩ := List.getElem?_eq_some_iff.mp h0
  have := hs.stored 0 hlt k hk
  simpa [h0] using this

/-! ## Reading back -/

theorem FatOk.lookup_written (h : FatOk rd)
    (hw : ramdiskFat16FileWrite stack fileName data dataSize rd = .ok (0, rd')) :
    rd'.image.lookup fileName = rd.image.freeRootEntry := by
  obtain ⟨hfile, -, img₁, cs, hs, -, himg⟩ := h.written hw
  rw [himg]
  exact Image.lookup_new h.inv hs hfile

/-- What reading the file gives, if it is found. -/
theorem FatOk.read_written (h : FatOk rd)
    (hw : ramdiskFat16FileWrite stack fileName data dataSize rd = .ok (0, rd'))
    (h0 : rd.image.freeRootEntry ≠ 0) :
    ∃ contents : Buffer,
      (∀ stack buf, ramdiskFat16FileRead stack fileName buf 0 rd' =
        .ok (fat16RamdiskSuccess, patch buf 0 512 contents, rd')) ∧
      ∀ i < 512, contents i =
        if 512 + i < dataSize.toNat then data (512 + i) else if i < dataSize.toNat then data i
        else rd.image.sector rd.image.freeCluster i := by
  have hlookup := h.lookup_written hw
  obtain ⟨-, hok, img₁, cs, hs, hhead, himg⟩ := h.written hw
  have hfound : rd'.image.lookup fileName ≠ 0 := by rwa [hlookup]
  have hcluster : rd'.image.headCluster fileName = rd.image.freeCluster := by
    have hlt : rd.image.freeCluster < 415 := hs.frame.1 _ (List.mem_of_head? hhead)
    rw [Image.headCluster, hlookup, himg, rootEntry_storeEntry hs rd.image.freeRootEntry_lt,
      if_pos rfl, newRootEntry_entryLowClusterNumber, UInt16.toNat_ofNat']
    omega
  refine ⟨rd'.image.sector rd.image.freeCluster, ?_, ?_⟩
  · intro stack buf
    rw [← hcluster]
    exact ramdiskFat16FileRead_eq hok.valid hfound (hok.inv.headCluster_spec hfound).1
  · intro i hi
    rw [himg, storeEntry, Image.sector_setRootEntry rd.image.freeRootEntry_lt,
      hs.head_sector hhead hi]

/-- **Read after write.** The beginning of a file is read back exactly when the directory
had a free entry and the second piece of `data`, as far as it goes, repeats the first. -/
theorem fat16_readsBack_iff (h : FatReachable rd)
    (hw : ramdiskFat16FileWrite stack fileName data dataSize rd = .ok (0, rd')) :
    ReadsBack fileName data dataSize.toNat rd' ↔
      findNextFreeRootEntry stack rd ≠ .ok (0, rd) ∧
        ∀ i < 512, 512 + i < dataSize.toNat → data i = data (512 + i) := by
  have hlookup := h.ok.lookup_written hw
  have hok : FatOk rd' := (h.ok.written hw).2.1
  have hroot : findNextFreeRootEntry stack rd ≠ .ok (0, rd) ↔ rd.image.freeRootEntry ≠ 0 := by
    rw [findNextFreeRootEntry_eq h.ok.valid]
    simp
  rw [hroot]
  by_cases h0 : rd.image.freeRootEntry = 0
  · -- no scan finds the file
    simp only [h0, ne_eq, not_true_eq_false, false_and, iff_false]
    intro hr
    obtain ⟨⟨k, hk, hexists⟩, -⟩ := hr stack
    rw [ramdiskFat16FileExists_eq hok.valid, hlookup, h0] at hexists
    exact hk (Prod.mk.inj (Except.ok.inj hexists)).1.symm
  · have hfound : rd'.image.lookup fileName ≠ 0 := by rwa [hlookup]
    obtain ⟨contents, hread, hbyte⟩ := h.ok.read_written hw h0
    constructor
    · intro hr
      refine ⟨h0, ?_⟩
      intro i hi hin
      obtain ⟨buf', heq, hdata⟩ := (hr stack).2 data
      rw [hread] at heq
      obtain rfl : patch data 0 512 contents = buf' := by simpa using heq
      rw [← hdata i (by omega), patch_of_mem (Nat.zero_le i) (by omega), Nat.sub_zero,
        hbyte i (by omega), if_pos hin]
    · rintro ⟨-, hsame⟩
      refine fun stack => ⟨⟨_, hfound, ramdiskFat16FileExists_eq hok.valid⟩,
        fun buf => ⟨_, hread stack buf, fun i hi => ?_⟩⟩
      rw [patch_of_mem (Nat.zero_le i) (by omega), Nat.sub_zero, hbyte i (by omega)]
      by_cases hi' : 512 + i < dataSize.toNat
      · rw [if_pos hi', hsame i (by omega) hi']
      · rw [if_neg hi', if_pos (by omega)]

theorem fat16_readsBack_iff_first :
    ∃ rd rd', ramdiskFat16FileWrite zeroSector ⟨[0x41], by decide⟩ (fun _ => 7) 600 rd = .ok (0, rd') ∧
      ReadsBack ⟨[0x41], by decide⟩ (fun _ => 7) 600 rd' := by
  obtain ⟨rd, s, rd', -, hfat, -, hroot, hw⟩ :=
    exists_first_write ⟨[0x41], by decide⟩ (fun _ => 7) 600 (by decide)
  refine ⟨rd, rd', hw, (fat16_readsBack_iff ⟨_, _, rd, _, hfat, .start⟩ hw).mpr ⟨?_, ?_⟩⟩
  · rw [findNextFreeRootEntry_eq hfat.ok.valid, hroot]
    simp
  · exact fun _ _ _ => rfl

/-- 513 bytes whose byte 512 differs from byte 0: byte 0 is read back wrong. -/
theorem fat16_not_readsBack : ∃ rd s rd',
    ramdiskFat16Init pagesUpward zeroSector zeroSector ⟨fun _ => 0, 0, 0⟩ 1 = .ok (rd, s) ∧
      FatReachable rd ∧
      ramdiskFat16FileWrite zeroSector ⟨[0x41], by decide⟩ (fun i => if i < 512 then 1 else 2) 513 rd =
        .ok (0, rd') ∧
      ¬ ReadsBack ⟨[0x41], by decide⟩ (fun i => if i < 512 then 1 else 2) 513 rd' := by
  obtain ⟨rd, s, rd', hinit, hfat, -, hroot, hw⟩ :=
    exists_first_write ⟨[0x41], by decide⟩ (fun i => if i < 512 then 1 else 2) 513 (by decide)
  refine ⟨rd, s, rd', hinit, ⟨_, _, rd, _, hfat, .start⟩, hw, ?_⟩
  intro hr
  obtain ⟨contents, hread, hbyte⟩ := hfat.ok.read_written hw (by rw [hroot]; decide)
  obtain ⟨buf', heq, hdata⟩ := (hr zeroSector).2 zeroSector
  rw [hread] at heq
  obtain rfl : patch zeroSector 0 512 contents = buf' := by simpa using heq
  have h0 := (hdata 0 (by decide)).symm.trans (hbyte 0 (by decide))
  rw [if_pos (by decide)] at h0
  exact absurd h0 (by decide)

/-! ## The whole file -/

/-- The chain of the entry that a write took. -/
theorem FatOk.chain_written (h : FatOk rd)
    (hw : ramdiskFat16FileWrite stack fileName data dataSize rd = .ok (0, rd')) :
    ∃ cs, rd'.image.FileChain rd.image.freeRootEntry cs ∧
      cs.length = (dataSize.toNat - 1) / 1024 + 1 := by
  obtain ⟨-, -, img₁, cs, hs, hhead, himg⟩ := h.written hw
  refine ⟨cs, ?_, hs.length⟩
  rw [himg]
  exact fileChain_new hs hhead h.inv

/-- **Whole file.** The chain of a stored file holds all of it exactly up to one sector. -/
theorem fat16_wholeFile_iff (h : FatReachable rd)
    (hw : ramdiskFat16FileWrite stack fileName data dataSize rd = .ok (0, rd')) :
    WholeFile rd.image.freeRootEntry data dataSize.toNat rd'.image ↔ dataSize.toNat ≤ 512 := by
  constructor
  · rintro ⟨chain, hlinks, hlength, -⟩
    obtain ⟨cs, hchain, hlen⟩ := h.ok.chain_written hw
    rw [hlinks.unique hchain.links] at hlength
    omega
  · intro hn
    obtain ⟨-, -, img₁, cs, hs, hhead, himg⟩ := h.ok.written hw
    have hchain : rd'.image.FileChain rd.image.freeRootEntry cs := by
      rw [himg]
      exact fileChain_new hs hhead h.ok.inv
    have hlen := hs.length
    refine ⟨cs, hchain.links, by omega, hchain.nodup, fun i hi => ⟨rd.image.freeCluster, ?_, ?_⟩⟩
    · rw [Nat.div_eq_of_lt (by omega), ← List.head?_eq_getElem?]
      exact hhead
    · rw [Nat.mod_eq_of_lt (by omega), himg, storeEntry,
        Image.sector_setRootEntry rd.image.freeRootEntry_lt, hs.head_sector hhead (by omega),
        if_neg (by omega), if_pos hi]

theorem fat16_wholeFile_iff_first :
    ∃ rd rd', ramdiskFat16FileWrite zeroSector ⟨[0x41], by decide⟩ zeroSector 30 rd = .ok (0, rd') ∧
      WholeFile rd.image.freeRootEntry zeroSector 30 rd'.image := by
  obtain ⟨rd, s, rd', -, hfat, -, -, hw⟩ :=
    exists_first_write ⟨[0x41], by decide⟩ zeroSector 30 (by decide)
  exact ⟨rd, rd', hw, (fat16_wholeFile_iff ⟨_, _, rd, _, hfat, .start⟩ hw).mpr (by decide)⟩

/-- 513 bytes need two clusters and are given one. -/
theorem fat16_not_wholeFile : ∃ rd s rd',
    ramdiskFat16Init pagesUpward zeroSector zeroSector ⟨fun _ => 0, 0, 0⟩ 1 = .ok (rd, s) ∧
      FatReachable rd ∧
      ramdiskFat16FileWrite zeroSector ⟨[0x41], by decide⟩ zeroSector 513 rd = .ok (0, rd') ∧
      rd.image.freeRootEntry = 1 ∧ ¬ WholeFile 1 zeroSector 513 rd'.image := by
  obtain ⟨rd, s, rd', hinit, hfat, -, hroot, hw⟩ :=
    exists_first_write ⟨[0x41], by decide⟩ zeroSector 513 (by decide)
  refine ⟨rd, s, rd', hinit, ⟨_, _, rd, _, hfat, .start⟩, hw, hroot, ?_⟩
  rintro ⟨chain, hlinks, hlength, -⟩
  obtain ⟨cs, hchain, hlen⟩ := hfat.ok.chain_written hw
  rw [hroot] at hchain
  rw [hlinks.unique hchain.links, hlen] at hlength
  exact absurd hlength (by decide)

end KoizOs
