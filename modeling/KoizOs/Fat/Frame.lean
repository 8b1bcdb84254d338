import KoizOs.Fat.Lookup

/-!
# What the writes of one cluster reach

Filling cluster `c` writes to its data sector, to its cell of the first table and, two
bytes wide, at `secondFatTableOffset + c * 2`: `Touched c` is that set of bytes.  The last
part lies past every cell of the first table and before the root directory, and where it
meets the second table it is the cell of a cluster at least 255 below `c`.

| result | content |
|--------|---------|
| `Frame.cell_eq`, `Frame.sector_eq` | filling some clusters leaves the others alone |
| `Frame.rootEntry_eq` | … and the root directory |
| `Frame.secondCell_eq` | … and the second table from 254 below the largest one on |
-/

namespace KoizOs

open Function Lib

/-! ## The layout in numbers -/

namespace Image

variable {img img' : Image} {c c' i k x a n : Nat} {v : UInt16} {data : Buffer}

theorem cell_congr (h0 : img' (512 + c * 2) = img (512 + c * 2))
    (h1 : img' (512 + c * 2 + 1) = img (512 + c * 2 + 1)) : img'.cell c = img.cell c := by
  show le16 (img' (512 + c * 2)) (img' (512 + c * 2 + 1)) = le16 (img (512 + c * 2)) _
  rw [h0, h1]
  rfl

theorem rootEntry_congr
    (h : ∀ k, k < 32 → img' (33280 + i * 32 + k) = img (33280 + i * 32 + k)) :
    img'.rootEntry i = img.rootEntry i :=
  RamdiskFat16Entry.ofBytes_congr h

theorem next_congr (h : img'.cell c = img.cell c) : img'.next c = img.next c := by
  rw [next, next, h]

/-- Cell `c` of the second table. -/
def secondCell (img : Image) (c : Nat) : UInt16 :=
  le16 (img (secondFatTableSector * fat16BytesPerSector + c * 2))
    (img (secondFatTableSector * fat16BytesPerSector + c * 2 + 1))

theorem secondCell_congr (h0 : img' (16896 + c * 2) = img (16896 + c * 2))
    (h1 : img' (16896 + c * 2 + 1) = img (16896 + c * 2 + 1)) :
    img'.secondCell c = img.secondCell c := by
  show le16 (img' (16896 + c * 2)) (img' (16896 + c * 2 + 1)) = le16 (img (16896 + c * 2)) _
  rw [h0, h1]
  rfl

/-! ## Updates -/

/-- What `writeFatCells` does to the bytes. -/
def setCells (img : Image) (c : Nat) (v : UInt16) : Image :=
  patch (patch img (firstFatTableSector * fat16BytesPerSector + c * 2) 2 (byte16 v))
    (secondFatTableOffset + c * 2) 2 (byte16 v)

/-- `data` written over the first `n` bytes of the data sector of `c`. -/
def setSector (img : Image) (c n : Nat) (data : Buffer) : Image :=
  patch img ((firstDataSector + c) * fat16BytesPerSector) n data

/-- The bytes that filling cluster `c` may change. -/
def Touched (c x : Nat) : Prop :=
  (512 + c * 2 ≤ x ∧ x < 512 + c * 2 + 2) ∨ (16385 + c * 2 ≤ x ∧ x < 16385 + c * 2 + 2) ∨
    ((97 + c) * 512 ≤ x ∧ x < (97 + c) * 512 + 512)

/-- `data` written over the first `n` bytes of cluster `c`, and `v` to its cells. -/
def fill (img : Image) (c n : Nat) (data : Buffer) (v : UInt16) : Image :=
  (img.setSector c n data).setCells c v

theorem fill_of_not_touched (hn : n ≤ 512) (h : ¬ Touched c x) :
    img.fill c n data v x = img x := by
  unfold Touched at h
  show patch (patch (patch img ((97 + c) * 512) n data) (512 + c * 2) 2 (byte16 v))
    (16385 + c * 2) 2 (byte16 v) x = img x
  rw [patch_of_not_mem (by omega), patch_of_not_mem (by omega), patch_of_not_mem (by omega)]

theorem cell_fill : (img.fill c n data v).cell c = v := by
  show le16 (patch (patch _ (512 + c * 2) 2 (byte16 v)) (16385 + c * 2) 2 (byte16 v) (512 + c * 2))
    (patch (patch _ (512 + c * 2) 2 (byte16 v)) (16385 + c * 2) 2 (byte16 v) (512 + c * 2 + 1)) = v
  rw [patch_of_not_mem (by omega), patch_of_mem (by omega) (by omega), patch_of_not_mem (by omega),
    patch_of_mem (by omega) (by omega), Nat.sub_self, Nat.add_sub_cancel_left]
  exact le16_bytes v

/-- Neither part of `setCells` reaches a data sector. -/
theorem sector_fill (hk : k < 512) :
    (img.fill c n data v).sector c k = if k < n then data k else img.sector c k := by
  show patch (patch (patch img ((97 + c) * 512) n data) (512 + c * 2) 2 (byte16 v))
    (16385 + c * 2) 2 (byte16 v) ((97 + c) * 512 + k) = _
  rw [patch_of_not_mem (by omega), patch_of_not_mem (by omega)]
  by_cases hkn : k < n
  · rw [patch_of_mem (by omega) (by omega), if_pos hkn, Nat.add_sub_cancel_left]
  · rw [patch_of_not_mem (by omega), if_neg hkn]
    rfl

/-- Data sectors lie behind the boot record, both tables and the root directory. -/
theorem setSector_of_lt (hx : x < 97 * 512) : img.setSector c n data x = img x := by
  show patch img ((97 + c) * 512) n data x = img x
  exact patch_of_not_mem (by omega)

theorem cell_setSector (hc' : c' < clusterCount) : (img.setSector c n data).cell c' = img.cell c' := by
  have hc₁ : c' < 415 := hc'
  apply cell_congr
  · exact setSector_of_lt (by omega)
  · exact setSector_of_lt (by omega)

theorem freeCluster_congr (h : ∀ c, c < clusterCount → img'.cell c = img.cell c) :
    img'.freeCluster = img.freeCluster :=
  firstFrom_congr fun c _ hc => by rw [h c (by omega)]

theorem freeCluster_setSector : (img.setSector c n data).freeCluster = img.freeCluster :=
  freeCluster_congr fun _ hc => cell_setSector hc

/-- `e` stored as root entry `i`. -/
def setRootEntry (img : Image) (i : Nat) (e : RamdiskFat16Entry) : Image :=
  patch img (firstRootSector * fat16BytesPerSector + i * RamdiskFat16Entry.size)
    RamdiskFat16Entry.size e.toBytes

theorem rootEntry_setRootEntry {e : RamdiskFat16Entry} :
    (img.setRootEntry i e).rootEntry k = if k = i then e else img.rootEntry k := by
  by_cases hk : k = i
  · subst hk
    rw [if_pos rfl]
    refine .trans (RamdiskFat16Entry.ofBytes_congr ?_)
      (RamdiskFat16Entry.ofBytes_toBytes e)
    intro j hj
    have hj' : j < 32 := hj
    show patch img (33280 + k * 32) 32 e.toBytes (33280 + k * 32 + j) = e.toBytes j
    rw [patch_of_mem (by omega) (by omega), Nat.add_sub_cancel_left]
  · rw [if_neg hk]
    apply rootEntry_congr
    intro j hj
    show patch img (33280 + i * 32) 32 e.toBytes (33280 + k * 32 + j) = _
    rw [patch_of_not_mem (by omega)]

/-- The root directory lies behind both tables. -/
theorem setRootEntry_of_lt {e : RamdiskFat16Entry} (hx : x < 33280) :
    img.setRootEntry i e x = img x := by
  show patch img (33280 + i * 32) 32 e.toBytes x = img x
  exact patch_of_not_mem (by omega)

theorem cell_setRootEntry {e : RamdiskFat16Entry} (hc : c < clusterCount) :
    (img.setRootEntry i e).cell c = img.cell c := by
  have hc' : c < 415 := hc
  apply cell_congr
  · exact setRootEntry_of_lt (by omega)
  · exact setRootEntry_of_lt (by omega)

theorem secondCell_setRootEntry {e : RamdiskFat16Entry} (hc : c < clusterCount) :
    (img.setRootEntry i e).secondCell c = img.secondCell c := by
  have hc' : c < 415 := hc
  apply secondCell_congr
  · exact setRootEntry_of_lt (by omega)
  · exact setRootEntry_of_lt (by omega)

theorem sector_setRootEntry {e : RamdiskFat16Entry} (hi : i < rootDirectorySectors) :
    (img.setRootEntry i e).sector c = img.sector c := by
  have hi' : i < 32 := hi
  funext k
  show patch img (33280 + i * 32) 32 e.toBytes ((97 + c) * 512 + k) = img ((97 + c) * 512 + k)
  rw [patch_of_not_mem (by omega)]

/-! ## Frames -/

/-- `img'` differs from `img` at most where the clusters of `cs` are filled. -/
def Frame (cs : List Nat) (img img' : Image) : Prop :=
  (∀ c ∈ cs, c < clusterCount) ∧ ∀ x, (∀ c ∈ cs, ¬ Touched c x) → img' x = img x

variable {cs : List Nat}

namespace Frame

theorem cell_eq (h : Frame cs img img') (hc : c < clusterCount) (hcs : c ∉ cs) :
    img'.cell c = img.cell c := by
  have hc' : c < 415 := hc
  have hne : ∀ d ∈ cs, d < 415 ∧ d ≠ c := fun d hd => ⟨h.1 d hd, fun heq => hcs (heq ▸ hd)⟩
  refine cell_congr (h.2 _ fun d hd => ?_) (h.2 _ fun d hd => ?_)
  all_goals
    have := hne d hd
    unfold Touched
    omega

theorem sector_eq (h : Frame cs img img') (hcs : c ∉ cs) (hk : k < 512) :
    img'.sector c k = img.sector c k := by
  apply h.2 _
  intro d hd
  have hd' : d < 415 := h.1 d hd
  have hne : d ≠ c := fun heq => hcs (heq ▸ hd)
  show ¬ Touched d ((97 + c) * 512 + k)
  unfold Touched
  omega

theorem rootEntry_eq (h : Frame cs img img') (hi : i < rootDirectorySectors) :
    img'.rootEntry i = img.rootEntry i := by
  have hi' : i < 32 := hi
  refine rootEntry_congr fun k hk => h.2 _ fun d hd => ?_
  have hd' : d < 415 := h.1 d hd
  unfold Touched
  omega

theorem secondCell_eq (h : Frame cs img img') (hc : c < clusterCount) (hcs : ∀ d ∈ cs, d ≤ c) :
    img'.secondCell c = img.secondCell c := by
  have hc' : c < 415 := hc
  refine secondCell_congr (h.2 _ fun d hd => ?_) (h.2 _ fun d hd => ?_)
  all_goals
    have := hcs d hd
    unfold Touched
    omega

/-- Filling a cluster of `cs` again stays within the frame. -/
theorem fill (h : Frame cs img img') (hc : c ∈ cs) (hn : n ≤ 512) :
    Frame cs img (img'.fill c n data v) := by
  refine ⟨h.1, ?_⟩
  intro x hx
  rw [fill_of_not_touched hn (hx c hc)]
  exact h.2 x hx

theorem mono {ds : List Nat} (h : Frame cs img img') (hds : ∀ c ∈ cs, c ∈ ds)
    (hlt : ∀ c ∈ ds, c < clusterCount) : Frame ds img img' :=
  ⟨hlt, fun x hx => h.2 x fun c hc => hx c (hds c hc)⟩

end Frame

theorem frame_refl (hlt : ∀ c ∈ cs, c < clusterCount) : Frame cs img img := ⟨hlt, fun _ _ => rfl⟩

theorem frame_fill (img : Image) (data : Buffer) (v : UInt16) (hc : c < clusterCount)
    (hn : n ≤ 512) : Frame [c] img (img.fill c n data v) :=
  (frame_refl (by simpa using hc)).fill (by simp) hn

end Image

/-! ## The two calls on the disk -/

variable {rd : Ramdisk}

namespace Ramdisk.Valid

theorem writeFatCells (h : rd.Valid 1024) {c : Nat} (hc : c < clusterCount) (v : UInt16) :
    ∃ rd', KoizOs.writeFatCells c v rd = .ok rd' ∧ rd'.Valid 1024 ∧
      rd'.image = rd.image.setCells c v := by
  have hc' : c < 415 := hc
  obtain ⟨rd₁, hw₁, hv₁, himg₁⟩ := h.write (byte16 v) (n := 2)
    (show 1 * 512 + c * 2 + 2 ≤ 4096 * 1024 by omega)
  obtain ⟨rd₂, hw₂, hv₂, himg₂⟩ := hv₁.write (byte16 v) (n := 2)
    (show 1 + 32 * 512 + c * 2 + 2 ≤ 4096 * 1024 by omega)
  refine ⟨rd₂, ?_, hv₂, ?_⟩
  · unfold KoizOs.writeFatCells
    show (ramdiskWrite (UInt32.ofNat (1 * 512 + c * 2)) _ _ rd >>= _) = _
    rw [hw₁, ok_bind]
    show (ramdiskWrite (UInt32.ofNat (1 + 32 * 512 + c * 2)) _ _ rd₁ >>= _) = _
    rw [hw₂]
    rfl
  · rw [himg₂, himg₁]
    rfl

theorem writeRootEntry (h : rd.Valid 1024) {i : Nat} (hi : i < rootDirectorySectors)
    (e : RamdiskFat16Entry) :
    ∃ rd', ramdiskWrite
        (UInt32.ofNat (firstRootSector * fat16BytesPerSector + i * RamdiskFat16Entry.size)) e.toBytes
        (UInt32.ofNat RamdiskFat16Entry.size) rd = .ok (0, e.toBytes, rd') ∧
      rd'.Valid 1024 ∧ rd'.image = rd.image.setRootEntry i e := by
  have hi' : i < 32 := hi
  exact h.write e.toBytes (show 65 * 512 + i * 32 + 32 ≤ 4096 * 1024 by omega)

theorem writeSectorPartial (h : rd.Valid 1024) {c : Nat} (hc : c < clusterCount) {n : Nat}
    (hn : n ≤ 512) (data : Buffer) :
    ∃ rd', KoizOs.writeSectorPartial (firstDataSector + c) data n rd = .ok (0, data, rd') ∧
      rd'.Valid 1024 ∧ rd'.image = rd.image.setSector c n data := by
  have hc' : c < 415 := hc
  exact h.write data (show (97 + c) * 512 + n ≤ 4096 * 1024 by omega)

end Ramdisk.Valid

end KoizOs
