import KoizOs.Fat.Frame

/-!
# Writing a file

The loop of `ramdisk_fat16_file_write` asks for the next free cluster before it marks the
one it has just filled, so every second round it is given the cluster it is about to
leave: that cluster is linked to itself (`SelfLinked`), filled once more, and only then
linked to a cluster that is free (`Fresh`).  A file of `n` bytes so lies in
`(n - 1) / 1024 + 1` clusters, and each of them keeps the second of the two 512-byte
pieces of `data` that were written to it.

| result | content |
|--------|---------|
| `fileWriteLoop_round` | one round of the loop on the bytes of the disk |
| `Fresh.step`, `SelfLinked.step` | what a round keeps |
| `fileWriteLoop_filling` | … and so the loop |
| `ramdiskFat16FileWrite_cases` | all a call that returned can have done |
-/

namespace KoizOs

open Function Lib

/-! ## Links -/

/-- A cell that links to cluster `c`. -/
def linkTo (c : Nat) : UInt16 := eswapUint16 (UInt16.ofNat c)

namespace Image

variable {img img' img₀ : Image} {c cur f ptr n : Nat} {cs : List Nat} {data : Buffer}

theorem next_of_linkTo (hf : f < clusterCount) (h : img.cell c = linkTo f) :
    img.next c = some f := by
  have hf' : f < 415 := hf
  have htoNat : (UInt16.ofNat f).toNat = f := by
    rw [UInt16.toNat_ofNat']
    omega
  have hne : UInt16.ofNat f ≠ clusterEnd := by
    intro h
    have := congrArg UInt16.toNat h
    rw [htoNat, show clusterEnd.toNat = 65528 from rfl] at this
    omega
  simp only [next, h, linkTo, eswapUint16_eswapUint16, if_neg hne, htoNat]

theorem next_of_end (h : img.cell c = eswapUint16 clusterEnd) : img.next c = none := by
  simp [next, h]

theorem next_of_free (h : img.cell c = 0) : img.next c = some 0 := by
  rw [next, h]
  rfl

theorem linkTo_ne_zero (hf : f < clusterCount) (h0 : f ≠ 0) : linkTo f ≠ 0 := by
  have hf' : f < 415 := hf
  intro h
  have h' : UInt16.ofNat f = 0 := eswapUint16_inj.mp (h.trans (by decide))
  have := congrArg UInt16.toNat h'
  rw [UInt16.toNat_ofNat', UInt16.toNat_zero] at this
  omega

theorem freeCluster_spec (hf : img.freeCluster = f) (h0 : f ≠ 0) :
    f < clusterCount ∧ img.cell f = 0 ∧ ∀ c, c < f → img.cell c ≠ 0 := by
  obtain ⟨hlt, hcell, hbefore⟩ := (firstFrom_eq_iff h0).mp hf
  exact ⟨by omega, hcell, fun c hc => hbefore c (Nat.zero_le c) hc⟩

/-! ## The state between two rounds -/

/-- The clusters `cs` are done, `cur` is the one in hand; all were free in `img₀`. -/
structure Filling (data : Buffer) (img₀ img : Image) (cs : List Nat) (cur : Nat) : Prop where
  frame : Frame (cs ++ [cur]) img₀ img
  free : ∀ c ∈ cs ++ [cur], c ≠ 0 ∧ img₀.cell c = 0
  sorted : (cs ++ [cur]).Pairwise (· < ·)
  linked : (cs ++ [cur]).IsChain fun a b => img.next a = some b
  stored : ∀ j (hj : j < cs.length), ∀ k < 512,
    img.sector cs[j] k = data (1024 * j + 512 + k)

/-- `cur` is not written yet, and still free. -/
structure Fresh (data : Buffer) (img₀ img : Image) (cs : List Nat) (cur ptr : Nat) : Prop
    extends Filling data img₀ img cs cur where
  ptr_eq : ptr = 1024 * cs.length
  cur_free : img.freeCluster = cur
  untouched : ∀ k < 512, img.sector cur k = img₀.sector cur k

/-- `cur` holds its first piece and is linked to itself. -/
structure SelfLinked (data : Buffer) (img₀ img : Image) (cs : List Nat) (cur ptr : Nat) : Prop
    extends Filling data img₀ img cs cur where
  ptr_eq : ptr = 1024 * cs.length + 512
  taken : ∀ c, c ≤ cur → img.cell c ≠ 0
  first : ∀ k < 512, img.sector cur k = data (1024 * cs.length + k)

namespace Filling

theorem cur_lt (h : Filling data img₀ img cs cur) : cur < clusterCount := h.frame.1 cur (by simp)

theorem lt_cur (h : Filling data img₀ img cs cur) (hc : c ∈ cs) : c < cur :=
  (List.pairwise_append.mp h.sorted).2.2 c hc cur (by simp)

/-- What filling `cur` keeps, whatever it stores there. -/
theorem fill (h : Filling data img₀ img cs cur) (hn : n ≤ 512) (chunk : Buffer) (v : UInt16) :
    Filling data img₀ (img.fill cur n chunk v) cs cur := by
  have hlt := h.cur_lt
  have hframe := frame_fill img chunk v hlt hn
  refine ⟨h.frame.fill (by simp) hn, h.free, h.sorted, ?_, ?_⟩
  · refine IsList.isChain_congr h.linked fun c hc => next_congr ?_
    have hne := h.lt_cur hc
    exact hframe.cell_eq (by omega) (by simp; omega)
  · intro j hj k hk
    have hne := h.lt_cur (List.getElem_mem hj)
    rw [hframe.sector_eq (by simp; omega) hk]
    exact h.stored j hj k hk

end Filling

/-- First round on a cluster: it is found free again and linked to itself. -/
theorem Fresh.step (h : Fresh data img₀ img cs cur ptr) :
    SelfLinked data img₀ (img.fill cur 512 (data.add ptr) (linkTo cur)) cs cur (ptr + 512) := by
  have hlt := h.cur_lt
  have h0 : cur ≠ 0 := (h.free cur (by simp)).1
  obtain ⟨-, -, hbefore⟩ := freeCluster_spec h.cur_free h0
  refine ⟨h.toFilling.fill (by decide) _ _, ?_, ?_, ?_⟩
  · rw [h.ptr_eq]
  · intro c hc
    rcases Nat.eq_or_lt_of_le hc with rfl | hc
    · rw [cell_fill]
      exact linkTo_ne_zero hlt h0
    · rw [(frame_fill _ _ _ hlt (by decide)).cell_eq (by omega) (by simp; omega)]
      exact hbefore c hc
  · intro k hk
    rw [sector_fill hk, if_pos hk, h.ptr_eq]
    rfl

/-- Second round on a cluster: it is overwritten and linked to the next free cluster. -/
theorem SelfLinked.step (h : SelfLinked data img₀ img cs cur ptr) (hf : img.freeCluster = f)
    (h0 : f ≠ 0) :
    Fresh data img₀ (img.fill cur 512 (data.add ptr) (linkTo f)) (cs ++ [cur]) f (ptr + 512) := by
  have hlt := h.cur_lt
  obtain ⟨hflt, hfcell, hbefore⟩ := freeCluster_spec hf h0
  have hcur : cur < f := by
    by_contra hle
    exact h.taken f (by omega) hfcell
  have hle : ∀ c ∈ cs ++ [cur], c < f := by
    intro c hc
    rcases List.mem_append.mp hc with hc | hc
    · have := h.lt_cur hc
      omega
    · obtain rfl := List.mem_singleton.mp hc
      exact hcur
  have hnot : f ∉ cs ++ [cur] := fun hc => absurd (hle f hc) (Nat.lt_irrefl f)
  have hframe := frame_fill img (data.add ptr) (linkTo f) hlt
    (show 512 ≤ 512 by decide)
  have hfill := h.toFilling.fill (show 512 ≤ 512 by decide) (data.add ptr) (linkTo f)
  have hlen : (cs ++ [cur]).length = cs.length + 1 := List.length_append
  refine ⟨⟨?_, ?_, ?_, ?_, ?_⟩, ?_, ?_, ?_⟩
  · apply hfill.frame.mono (fun c hc => List.mem_append_left _ hc)
    intro c hc
    rcases List.mem_append.mp hc with hc | hc
    · exact h.frame.1 c hc
    · obtain rfl := List.mem_singleton.mp hc
      exact hflt
  · intro c hc
    rcases List.mem_append.mp hc with hc | hc
    · exact h.free c hc
    · obtain rfl := List.mem_singleton.mp hc
      exact ⟨h0, (h.frame.cell_eq hflt hnot).symm.trans hfcell⟩
  · refine List.pairwise_append.mpr ⟨h.sorted, by simp, ?_⟩
    intro c hc d hd
    obtain rfl := List.mem_singleton.mp hd
    exact hle c hc
  · exact IsList.isChain_snoc hfill.linked (next_of_linkTo hflt cell_fill)
  · intro j hj k hk
    rw [hlen] at hj
    by_cases hlast : j = cs.length
    · subst hlast
      rw [List.getElem_concat_length rfl, sector_fill hk, if_pos hk, h.ptr_eq]
      rfl
    · rw [List.getElem_append_left (by omega)]
      exact hfill.stored j (by omega) k hk
  · rw [h.ptr_eq, hlen]
    omega
  · refine (firstFrom_eq_iff h0).mpr ⟨by omega, ?_, ?_⟩
    · rw [hframe.cell_eq hflt (by simp; omega)]
      exact hfcell
    · intro c _ hc
      by_cases hcc : c = cur
      · subst hcc
        rw [cell_fill]
        exact linkTo_ne_zero hflt h0
      · rw [hframe.cell_eq (by omega) (by simpa using hcc)]
        exact hbefore c hc
  · intro k hk
    rw [hframe.sector_eq (by simp; omega) hk, h.frame.sector_eq hnot hk]

/-- Between two rounds, with `left` of `n` bytes still to write. -/
structure InLoop (data : Buffer) (n : Nat) (img₀ img : Image) (cs : List Nat)
    (left ptr cur : Nat) : Prop where
  state : Fresh data img₀ img cs cur ptr ∨ SelfLinked data img₀ img cs cur ptr
  total : left + ptr = n
  pos : 0 < left ∨ ptr = 0

theorem InLoop.filling {left : Nat} (h : InLoop data n img₀ img cs left ptr cur) :
    Filling data img₀ img cs cur :=
  h.state.elim Fresh.toFilling SelfLinked.toFilling

theorem InLoop.step {left : Nat} (h : InLoop data n img₀ img cs left ptr cur) (hleft : 512 < left)
    (hf : img.freeCluster = f) (h0 : f ≠ 0) :
    ∃ cs', InLoop data n img₀ (img.fill cur 512 (data.add ptr) (linkTo f)) cs'
        (left - 512) (ptr + 512) f ∧ (cs' ++ [f]).head? = (cs ++ [cur]).head? := by
  have htotal := h.total
  rcases h.state with hfresh | hself
  · obtain rfl : cur = f := hfresh.cur_free.symm.trans hf
    exact ⟨cs, ⟨.inr hfresh.step, by omega, .inl (by omega)⟩, rfl⟩
  · exact ⟨cs ++ [cur], ⟨.inl (hself.step hf h0), by omega, .inl (by omega)⟩, by simp⟩

/-! ## The finished file -/

/-- `n` bytes of `data` have been written to the clusters `cs`, which were free in `img₀`. -/
structure Stored (data : Buffer) (n : Nat) (img₀ img : Image) (cs : List Nat) : Prop where
  frame : Frame cs img₀ img
  free : ∀ c ∈ cs, c ≠ 0 ∧ img₀.cell c = 0
  sorted : cs.Pairwise (· < ·)
  chain : IsList img.next cs.head? cs
  length : cs.length = (n - 1) / 1024 + 1
  stored : ∀ j (hj : j < cs.length), ∀ k < 512, img.sector cs[j] k =
    if 1024 * j + 512 + k < n then data (1024 * j + 512 + k)
    else if 1024 * j + k < n then data (1024 * j + k)
    else img₀.sector cs[j] k

/-- A file has a last cluster, which was free. -/
theorem Stored.exists_last (h : Stored data n img₀ img cs) :
    ∃ init last, cs = init ++ [last] ∧ last < clusterCount ∧ img₀.cell last = 0 := by
  have hne : cs ≠ [] := by
    rintro rfl
    have := h.length
    simp at this
  obtain ⟨init, last, rfl⟩ := (List.eq_nil_or_concat' cs).resolve_left hne
  have hlast : last ∈ init ++ [last] := by simp
  exact ⟨init, last, rfl, h.frame.1 last hlast, (h.free last hlast).2⟩

theorem InLoop.finish {left : Nat} (h : InLoop data n img₀ img cs left ptr cur)
    (hleft : left ≤ 512) :
    Stored data n img₀ (img.fill cur left (data.add ptr) (eswapUint16 clusterEnd)) (cs ++ [cur]) := by
  have hfill := h.filling.fill hleft (data.add ptr) (eswapUint16 clusterEnd)
  have htotal := h.total
  have hpos := h.pos
  have hlen : (cs ++ [cur]).length = cs.length + 1 := List.length_append
  refine ⟨hfill.frame, hfill.free, hfill.sorted, IsList.of_isChain hfill.linked ?_, ?_, ?_⟩
  · intro c hc
    obtain rfl : cur = c := by simpa using hc
    exact next_of_end cell_fill
  · rw [hlen]
    rcases h.state with hs | hs
    · have := hs.ptr_eq
      omega
    · have := hs.ptr_eq
      omega
  · intro j hj k hk
    rw [hlen] at hj
    by_cases hlast : j = cs.length
    · subst hlast
      rw [List.getElem_concat_length rfl, sector_fill hk]
      rcases h.state with hs | hs
      · have hptr := hs.ptr_eq
        rw [hs.untouched k hk, if_neg (show ¬ 1024 * cs.length + 512 + k < n by omega)]
        by_cases hkl : k < left
        · rw [if_pos hkl, if_pos (by omega), ← hptr]
          rfl
        · rw [if_neg hkl, if_neg (by omega)]
      · have hptr := hs.ptr_eq
        rw [hs.first k hk, if_pos (show 1024 * cs.length + k < n by omega)]
        by_cases hkl : k < left
        · rw [if_pos hkl, if_pos (by omega), ← hptr]
          rfl
        · rw [if_neg hkl, if_neg (by omega)]
    · have hptr : 1024 * cs.length ≤ ptr := by
        rcases h.state with hs | hs
        · exact Nat.le_of_eq hs.ptr_eq.symm
        · have := hs.ptr_eq
          omega
      rw [List.getElem_append_left (by omega), hfill.stored j (by omega) k hk, if_pos (by omega)]

end Image

/-! ## The loop -/

variable {rd rd' : Ramdisk} {data : Buffer} {left ptr cur n f : Nat}

theorem fileWriteLoop_done (hleft : left ≤ 512) :
    fileWriteLoop data left ptr cur rd = .ok (left, ptr, cur, rd) := by
  rw [fileWriteLoop, if_neg]
  show ¬ 512 < left
  omega

/-- A round up to the choice of the next cluster, which is still that of the state before
the round: data sectors are no part of the table. -/
theorem fileWriteLoop_round (data : Buffer) (ptr : Nat) (h : rd.Valid 1024) (hleft : 512 < left)
    (hcur : cur < clusterCount) :
    ∃ rd₁, rd₁.Valid 1024 ∧ rd₁.image = rd.image.setSector cur 512 (data.add ptr) ∧
      fileWriteLoop data left ptr cur rd =
        if rd.image.freeCluster = 0 then
          panic "ramdisk_fat16_file_write: cannot undo partial write!\n"
        else writeFatCells cur (linkTo rd.image.freeCluster) rd₁ >>= fun rd₂ =>
          fileWriteLoop data (left - 512) (ptr + 512) rd.image.freeCluster rd₂ := by
  obtain ⟨rd₁, hw, hv, himg⟩ := h.writeSectorPartial hcur (Nat.le_refl 512) (data.add ptr)
  have hw' : writeSector (firstDataSector + cur) (data.add ptr) rd = .ok (0, data.add ptr, rd₁) := hw
  have hleft' : fat16BytesPerCluster < left := hleft
  refine ⟨rd₁, hv, himg, ?_⟩
  rw [fileWriteLoop, if_pos hleft', hw']
  simp only [ok_bind, findNextFreeCluster_eq hv, himg, Image.freeCluster_setSector]
  rfl

/-- A round without a free cluster to go on with. -/
theorem fileWriteLoop_full (h : rd.Valid 1024) (hleft : 512 < left) (hcur : cur < clusterCount)
    (hf : rd.image.freeCluster = 0) :
    fileWriteLoop data left ptr cur rd =
      panic "ramdisk_fat16_file_write: cannot undo partial write!\n" := by
  obtain ⟨rd₁, -, -, hround⟩ := fileWriteLoop_round data ptr h hleft hcur
  rw [hround, if_pos hf]

/-- A round with one. -/
theorem fileWriteLoop_step (data : Buffer) (ptr : Nat) (h : rd.Valid 1024) (hleft : 512 < left)
    (hcur : cur < clusterCount) (hf : rd.image.freeCluster = f) (h0 : f ≠ 0) :
    ∃ rd', fileWriteLoop data left ptr cur rd = fileWriteLoop data (left - 512) (ptr + 512) f rd' ∧
      rd'.Valid 1024 ∧ rd'.image = rd.image.fill cur 512 (data.add ptr) (linkTo f) := by
  obtain ⟨rd₁, hv, himg, hround⟩ := fileWriteLoop_round data ptr h hleft hcur
  obtain ⟨rd₂, hw₂, hv₂, himg₂⟩ := hv.writeFatCells hcur (linkTo f)
  refine ⟨rd₂, ?_, hv₂, ?_⟩
  · rw [hround, hf, if_neg h0, hw₂, ok_bind]
  · rw [himg₂, himg]
    rfl

/-- The loop, from the state before any round on. -/
theorem fileWriteLoop_filling {img₀ : Image} {cs : List Nat} {left' ptr' cur' : Nat}
    (h : rd.Valid 1024) (hin : Image.InLoop data n img₀ rd.image cs left ptr cur)
    (hloop : fileWriteLoop data left ptr cur rd = .ok (left', ptr', cur', rd')) :
    rd'.Valid 1024 ∧ left' ≤ 512 ∧ ∃ cs', Image.InLoop data n img₀ rd'.image cs' left' ptr' cur' ∧
      (cs' ++ [cur']).head? = (cs ++ [cur]).head? := by
  induction left using Nat.strong_induction_on generalizing ptr cur rd cs with
  | h left ih =>
    by_cases hleft : 512 < left
    · by_cases hf : rd.image.freeCluster = 0
      · rw [fileWriteLoop_full h hleft hin.filling.cur_lt hf] at hloop
        exact absurd hloop (panic_ne_ok _ _)
      · obtain ⟨rd₁, heq, hv, himg⟩ := fileWriteLoop_step data ptr h hleft
          hin.filling.cur_lt rfl hf
        obtain ⟨cs₁, hin₁, hhead₁⟩ := hin.step hleft rfl hf
        rw [← himg] at hin₁
        obtain ⟨hv', hleft', cs', hin', hhead'⟩ := ih _ (by omega) hv hin₁ (heq ▸ hloop)
        exact ⟨hv', hleft', cs', hin', hhead'.trans hhead₁⟩
    · rw [fileWriteLoop_done (by omega)] at hloop
      simp only [Except.ok.injEq, Prod.mk.injEq] at hloop
      obtain ⟨rfl, rfl, rfl, rfl⟩ := hloop
      exact ⟨h, by omega, cs, hin, rfl⟩

/-! ## The whole call -/

variable {stack : Buffer} {fileName : CString} {dataSize : UInt32} {res : Int}

/-- The entry stored for a file whose chain starts at `head`. -/
def newRootEntry (stack : Buffer) (fileName : CString) (dataSize : UInt32) (head : Nat) :
    RamdiskFat16Entry :=
  { RamdiskFat16Entry.ofBytes stack with
    entryName := ramdiskFat16FilenameToNative fileName
    entryAttrib := 0
    entryReserved := 0
    fileSize := dataSize
    entryLowClusterNumber := UInt16.ofNat head }

namespace Image

variable {img img' img₀ : Image} {cs : List Nat}

theorem freeRootEntry_lt (img : Image) : img.freeRootEntry < rootDirectorySectors :=
  firstFrom_lt (by decide)

theorem Frame.freeRootEntry_eq (h : Frame cs img img') : img'.freeRootEntry = img.freeRootEntry := by
  apply firstFrom_congr
  intro i _ hi
  rw [Used, Used, h.rootEntry_eq (by omega)]

theorem Fresh.start (data : Buffer) (hf : img.freeCluster = f) (h0 : f ≠ 0) :
    Fresh data img img [] f 0 := by
  obtain ⟨hlt, hcell, -⟩ := freeCluster_spec hf h0
  exact ⟨⟨frame_refl (by simpa using hlt), by simpa using ⟨h0, hcell⟩, by simp, by simp, by simp⟩,
    rfl, hf, fun _ _ => rfl⟩

end Image

theorem fileWritePartial_spec (h : rd.Valid 1024) (hcur : cur < clusterCount) (hleft : left ≤ 512)
    (data : Buffer) (ptr : Nat) :
    ∃ rd', fileWritePartial data left ptr cur rd = .ok rd' ∧ rd'.Valid 1024 ∧
      rd'.image = rd.image.setSector cur left (data.add ptr) := by
  unfold fileWritePartial
  by_cases hpos : left > 0
  · obtain ⟨rd₁, hw, hv, himg⟩ := h.writeSectorPartial hcur hleft (data.add ptr)
    exact ⟨rd₁, by rw [if_pos hpos, hw]; rfl, hv, himg⟩
  · refine ⟨rd, if_neg hpos, h, funext ?_⟩
    intro x
    exact (patch_of_not_mem (by omega)).symm

theorem fileWriteEnd_spec (stack : Buffer) (h : rd.Valid 1024) (hcur : cur < clusterCount)
    (hleft : left ≤ 512) (e : RamdiskFat16Entry) (data : Buffer) (head ptr : Nat) :
    ∃ rd', fileWriteEnd stack e data head left ptr cur rd = .ok (0, rd') ∧ rd'.Valid 1024 ∧
      rd'.image = (rd.image.fill cur left (data.add ptr) (eswapUint16 clusterEnd)).setRootEntry
        rd.image.freeRootEntry { e with entryLowClusterNumber := UInt16.ofNat head } := by
  obtain ⟨rd₁, hw₁, hv₁, himg₁⟩ := fileWritePartial_spec h hcur hleft data ptr
  obtain ⟨rd₂, hw₂, hv₂, himg₂⟩ := hv₁.writeFatCells hcur (eswapUint16 clusterEnd)
  have himg : rd₂.image = rd.image.fill cur left (data.add ptr) (eswapUint16 clusterEnd) := by
    rw [himg₂, himg₁]
    rfl
  have hroot : rd₂.image.freeRootEntry = rd.image.freeRootEntry := by
    rw [himg]
    exact (Image.frame_fill _ _ _ hcur hleft).freeRootEntry_eq
  obtain ⟨rd₃, hw₃, hv₃, himg₃⟩ := hv₂.writeRootEntry (Image.freeRootEntry_lt rd.image)
    { e with entryLowClusterNumber := UInt16.ofNat head }
  refine ⟨rd₃, ?_, hv₃, by rw [himg₃, himg]⟩
  unfold fileWriteEnd
  rw [hw₁, ok_bind, hw₂, ok_bind, findNextFreeRootEntry_eq hv₂, hroot]
  simp only [ok_bind]
  rw [hw₃]
  rfl

theorem ramdiskFat16FileWrite_exists (h : rd.Valid 1024) (hfile : rd.image.lookup fileName ≠ 0) :
    ramdiskFat16FileWrite stack fileName data dataSize rd =
      .ok (fat16RamdiskErrorFileExists, rd) := by
  rw [ramdiskFat16FileWrite, ramdiskFat16FileExists_eq h]
  simp only [ok_bind, ne_eq, hfile, not_false_eq_true, if_true]

theorem ramdiskFat16FileWrite_noSpace (h : rd.Valid 1024) (hfile : rd.image.lookup fileName = 0)
    (hf : rd.image.freeCluster = 0) :
    ramdiskFat16FileWrite stack fileName data dataSize rd =
      .ok (fat16RamdiskErrorNoFreeSpace, rd) := by
  rw [ramdiskFat16FileWrite, ramdiskFat16FileExists_eq h]
  simp only [ok_bind, hfile, findNextFreeCluster_eq h, hf, ne_eq, not_true_eq_false, if_false,
    if_true]

/-- With a free name and a free cluster the call is its loop and what follows. -/
theorem ramdiskFat16FileWrite_eq (h : rd.Valid 1024) (hfile : rd.image.lookup fileName = 0)
    (hf : rd.image.freeCluster = f) (h0 : f ≠ 0) :
    ramdiskFat16FileWrite stack fileName data dataSize rd =
      fileWriteLoop data dataSize.toNat 0 f rd >>= fun r =>
        fileWriteEnd stack (newRootEntry stack fileName dataSize 0) data f r.1 r.2.1 r.2.2.1
          r.2.2.2 := by
  rw [ramdiskFat16FileWrite, ramdiskFat16FileExists_eq h]
  simp only [ok_bind, hfile, findNextFreeCluster_eq h, hf, if_neg h0, ne_eq, not_true_eq_false,
    if_false]
  rfl

/-- **One write.** A call that returned was refused without any effect, or it stored the
file in clusters that were free and an entry for it in the directory. -/
theorem ramdiskFat16FileWrite_cases (h : rd.Valid 1024)
    (hw : ramdiskFat16FileWrite stack fileName data dataSize rd = .ok (res, rd')) :
    (rd.image.lookup fileName ≠ 0 ∧ res = fat16RamdiskErrorFileExists ∧ rd' = rd) ∨
    (rd.image.lookup fileName = 0 ∧ rd.image.freeCluster = 0 ∧
      res = fat16RamdiskErrorNoFreeSpace ∧ rd' = rd) ∨
    (rd.image.lookup fileName = 0 ∧ rd.image.freeCluster ≠ 0 ∧ res = 0 ∧ rd'.Valid 1024 ∧
      ∃ img cs, Image.Stored data dataSize.toNat rd.image img cs ∧
        cs.head? = some rd.image.freeCluster ∧
        rd'.image = img.setRootEntry rd.image.freeRootEntry
          (newRootEntry stack fileName dataSize rd.image.freeCluster)) := by
  by_cases hfile : rd.image.lookup fileName = 0
  · by_cases hf : rd.image.freeCluster = 0
    · right; left
      rw [ramdiskFat16FileWrite_noSpace h hfile hf] at hw
      obtain ⟨rfl, rfl⟩ := Prod.mk.inj (Except.ok.inj hw)
      exact ⟨hfile, hf, rfl, rfl⟩
    · right; right
      rw [ramdiskFat16FileWrite_eq h hfile rfl hf] at hw
      obtain ⟨⟨left, ptr, cur, rd₁⟩, hloop, hend⟩ := bind_eq_ok.mp hw
      have hstart : Image.InLoop data dataSize.toNat rd.image rd.image [] dataSize.toNat 0
          rd.image.freeCluster := ⟨.inl (.start data rfl hf), rfl, .inr rfl⟩
      obtain ⟨hv₁, hleft, cs, hin, hhead⟩ := fileWriteLoop_filling h hstart hloop
      obtain ⟨rd₂, hend', hv₂, himg₂⟩ := fileWriteEnd_spec stack hv₁ hin.filling.cur_lt hleft
        (newRootEntry stack fileName dataSize 0) data rd.image.freeCluster ptr
      obtain ⟨rfl, rfl⟩ := Prod.mk.inj (Except.ok.inj (hend'.symm.trans hend))
      refine ⟨hfile, hf, rfl, hv₂, _, _, hin.finish hleft, hhead, ?_⟩
      rw [himg₂, hin.filling.frame.freeRootEntry_eq]
      rfl
  · left
    rw [ramdiskFat16FileWrite_exists h hfile] at hw
    obtain ⟨rfl, rfl⟩ := Prod.mk.inj (Except.ok.inj hw)
    exact ⟨hfile, rfl, rfl⟩

/-- A file of at most two pieces needs no second cluster, so nothing can run out. -/
theorem ramdiskFat16FileWrite_small (stack data : Buffer) (h : rd.Valid 1024)
    (hfile : rd.image.lookup fileName = 0) (hf : rd.image.freeCluster ≠ 0) (hn : dataSize.toNat ≤ 1024) :
    ∃ rd', ramdiskFat16FileWrite stack fileName data dataSize rd = .ok (0, rd') := by
  have hstart : Image.Fresh data rd.image rd.image [] rd.image.freeCluster 0 := .start data rfl hf
  rw [ramdiskFat16FileWrite_eq h hfile rfl hf]
  by_cases hle : dataSize.toNat ≤ 512
  · rw [fileWriteLoop_done hle, ok_bind]
    obtain ⟨rd', hend, -⟩ := fileWriteEnd_spec stack h hstart.cur_lt hle
      (newRootEntry stack fileName dataSize 0) data rd.image.freeCluster 0
    exact ⟨rd', hend⟩
  · obtain ⟨rd₁, heq, hv, himg⟩ := fileWriteLoop_step data 0 h (show 512 < dataSize.toNat by omega)
      hstart.cur_lt rfl hf
    rw [heq, fileWriteLoop_done (by omega), ok_bind]
    obtain ⟨rd', hend, -⟩ := fileWriteEnd_spec stack hv hstart.cur_lt
      (show dataSize.toNat - 512 ≤ 512 by omega) (newRootEntry stack fileName dataSize 0) data
      rd.image.freeCluster (0 + 512)
    exact ⟨rd', hend⟩

end KoizOs
