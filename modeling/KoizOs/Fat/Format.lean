import KoizOs.Fat.Frame
import KoizOs.Lib.Run

/-!
# Formatting, and the states a file system can be in

`ramdisk_fat16_format` leaves the image `formatted`: the boot record, two tables that
begin with `starting_sectors` and 508 bytes of whatever lay behind that array, zeros in
the rest of the tables and in the directory.  `FatReachable` are the disks that
`ramdisk_fat16_init` and any writes after it lead to.
-/

namespace KoizOs

open Function Lib

/-- What a format makes of the bytes `img`. -/
def formatted (rest₁ rest₂ : Buffer) (img : Image) : Image := fun x =>
  if x < 512 then ramdiskFat16Bootrecord.getD x 0
  else if x < 1024 then Buffer.ofArray startingSectors rest₁ (x - 512)
  else if 16896 ≤ x ∧ x < 17408 then Buffer.ofArray startingSectors rest₂ (x - 16896)
  else if x < 49664 then 0
  else img x

/-! ## The loops -/

variable {rd rd' : Ramdisk} {data rest₁ rest₂ : Buffer} {n i s : Nat}

theorem Ramdisk.Valid.writeSector (h : rd.Valid 1024) (hs : s < 512) (data : Buffer) :
    ∃ rd', KoizOs.writeSector s data rd = .ok (0, data, rd') ∧ rd'.Valid 1024 ∧
      rd'.image = patch rd.image (s * 512) 512 data :=
  h.write data (show s * 512 + 512 ≤ 4096 * 1024 by omega)

theorem formatFatLoop_spec (h : rd.Valid 1024) (hi : i + n ≤ 32) :
    ∃ rd', formatFatLoop n i rd = .ok rd' ∧ rd'.Valid 1024 ∧ ∀ x, rd'.image x =
      if (1 + i) * 512 ≤ x ∧ x < (1 + i + n) * 512 ∨ (33 + i) * 512 ≤ x ∧ x < (33 + i + n) * 512
      then 0 else rd.image x := by
  induction n generalizing i rd with
  | zero => exact ⟨rd, rfl, h, fun x => by rw [if_neg (by omega)]⟩
  | succ n ih =>
    obtain ⟨rd₁, hw₁, hv₁, himg₁⟩ := h.writeSector (show 1 + i < 512 by omega) zeroSector
    obtain ⟨rd₂, hw₂, hv₂, himg₂⟩ := hv₁.writeSector (show 33 + i < 512 by omega) zeroSector
    obtain ⟨rd₃, hloop, hv₃, himg₃⟩ := ih (i := i + 1) hv₂ (by omega)
    refine ⟨rd₃, ?_, hv₃, ?_⟩
    · show (KoizOs.writeSector (1 + i) zeroSector rd >>= _) = _
      rw [hw₁, ok_bind]
      show (KoizOs.writeSector (33 + i) zeroSector rd₁ >>= _) = _
      rw [hw₂]
      exact hloop
    · intro x
      rw [himg₃, himg₂, himg₁]
      simp only [patch, zeroSector]
      split_ifs <;> first | omega | rfl

theorem formatRootLoop_spec (h : rd.Valid 1024) (hi : i + n ≤ 32) :
    ∃ rd', formatRootLoop n i rd = .ok rd' ∧ rd'.Valid 1024 ∧ ∀ x, rd'.image x =
      if (65 + i) * 512 ≤ x ∧ x < (65 + i + n) * 512 then 0 else rd.image x := by
  induction n generalizing i rd with
  | zero => exact ⟨rd, rfl, h, fun x => by rw [if_neg (by omega)]⟩
  | succ n ih =>
    obtain ⟨rd₁, hw₁, hv₁, himg₁⟩ := h.writeSector (show 65 + i < 512 by omega) zeroSector
    obtain ⟨rd₂, hloop, hv₂, himg₂⟩ := ih (i := i + 1) hv₁ (by omega)
    refine ⟨rd₂, ?_, hv₂, ?_⟩
    · show (KoizOs.writeSector (65 + i) zeroSector rd >>= _) = _
      rw [hw₁]
      exact hloop
    · intro x
      rw [himg₂, himg₁]
      simp only [patch, zeroSector]
      split_ifs <;> first | omega | rfl

/-- **Format.** It returns, and leaves the image `formatted`. -/
theorem ramdiskFat16Format_spec (h : rd.Valid 1024) (rest₁ rest₂ : Buffer) :
    ∃ rd', ramdiskFat16Format rest₁ rest₂ rd = .ok rd' ∧ rd'.Valid 1024 ∧
      rd'.image = formatted rest₁ rest₂ rd.image := by
  obtain ⟨rd₁, hw₁, hv₁, himg₁⟩ := h.write (fun i => ramdiskFat16Bootrecord.getD i 0)
    (show 0 + 512 ≤ 4096 * 1024 by omega)
  obtain ⟨rd₂, hw₂, hv₂, himg₂⟩ := formatFatLoop_spec hv₁ (show 0 + 32 ≤ 32 by decide)
  obtain ⟨rd₃, hw₃, hv₃, himg₃⟩ := formatRootLoop_spec hv₂ (show 0 + 32 ≤ 32 by decide)
  obtain ⟨rd₄, hw₄, hv₄, himg₄⟩ := hv₃.writeSector (show 1 < 512 by decide)
    (.ofArray startingSectors rest₁)
  obtain ⟨rd₅, hw₅, hv₅, himg₅⟩ := hv₄.writeSector (show 33 < 512 by decide)
    (.ofArray startingSectors rest₂)
  refine ⟨rd₅, ?_, hv₅, funext ?_⟩
  · show (ramdiskWrite (UInt32.ofNat 0) _ (UInt32.ofNat 512) rd >>= _) = _
    rw [hw₁, ok_bind]
    show (formatFatLoop 32 0 rd₁ >>= _) = _
    rw [hw₂, ok_bind]
    show (formatRootLoop 32 0 rd₂ >>= _) = _
    rw [hw₃, ok_bind]
    show (KoizOs.writeSector 1 _ rd₃ >>= _) = _
    rw [hw₄, ok_bind]
    show (KoizOs.writeSector 33 _ rd₄ >>= _) = _
    rw [hw₅]
    rfl
  · intro x
    rw [himg₅, himg₄]
    simp only [patch, himg₃, himg₂, himg₁, formatted]
    split_ifs <;> first | omega | rfl

/-! ## Reachable states -/

/-- One `ramdisk_fat16_file_write` that returned. -/
structure FatWrite where
  stack : Buffer
  fileName : CString
  data : Buffer
  dataSize : UInt32
  res : Int

def FatWrite.Step (rd : Ramdisk) (w : FatWrite) (rd' : Ramdisk) : Prop :=
  ramdiskFat16FileWrite w.stack w.fileName w.data w.dataSize rd = .ok (w.res, rd')

/-- `rd` is the disk right after `ramdisk_fat16_init` on some memory. -/
def FatInit (rest₁ rest₂ : Buffer) (rd : Ramdisk) : Prop :=
  ∃ (σ : Type) (pmemAlloc : σ → Kern (UInt32 × σ)) (s s' : σ) (rd₀ : Ramdisk),
    FreshPages pmemAlloc s ∧ ramdiskFat16Init pmemAlloc rest₁ rest₂ rd₀ s = .ok (rd, s')

def FatReachable (rd : Ramdisk) : Prop :=
  ∃ rest₁ rest₂ rd₀ tr, FatInit rest₁ rest₂ rd₀ ∧ Trace FatWrite.Step rd₀ tr rd

theorem bootrecord_magic : ¬ (ramdiskFat16Bootrecord.getD 510 0 ≠ 0x55 ∨
    ramdiskFat16Bootrecord.getD 511 0 ≠ 0xAA) := by
  decide +kernel

theorem FatInit.spec (h : FatInit rest₁ rest₂ rd) :
    rd.Valid 1024 ∧ ∃ img, rd.image = formatted rest₁ rest₂ img := by
  obtain ⟨σ, pmemAlloc, s, s', rd₀, hfresh, hinit⟩ := h
  unfold ramdiskFat16Init at hinit
  rw [if_neg bootrecord_magic] at hinit
  obtain ⟨⟨rd₁, s₁⟩, hdisk, hinit⟩ := bind_eq_ok.mp hinit
  obtain ⟨rd₂, hformat, hinit⟩ := bind_eq_ok.mp hinit
  obtain ⟨rfl, rfl⟩ := Prod.mk.inj (Except.ok.inj hinit)
  have hv₁ := ramdiskInit_valid hfresh (by decide) (by decide) (show ramdiskInit pmemAlloc
    (UInt32.ofNat (1024 * 4096)) rd₀ s = .ok (rd₁, s₁) from hdisk)
  obtain ⟨rd₂, hformat', hv₂, himg₂⟩ := ramdiskFat16Format_spec hv₁ rest₁ rest₂
  obtain rfl := Except.ok.inj (hformat'.symm.trans hformat)
  exact ⟨hv₂, _, himg₂⟩

/-! ## The empty file system -/

section Empty

variable (rest₁ rest₂ : Buffer) (img : Image)

theorem formatted_reserved :
    (formatted rest₁ rest₂ img).cell 0 ≠ 0 ∧ (formatted rest₁ rest₂ img).cell 1 ≠ 0 := by
  constructor
  · show le16 0xF8 0xFF ≠ 0
    decide
  · show le16 0xFF 0xFF ≠ 0
    decide

theorem formatted_not_used (hi : i < rootDirectorySectors) :
    ¬ (formatted rest₁ rest₂ img).Used i := by
  have hi' : i < 32 := hi
  have hbyte : formatted rest₁ rest₂ img (33280 + i * 32 + 0) = 0 := by
    unfold formatted
    rw [if_neg (by omega), if_neg (by omega), if_neg (by omega), if_pos (by omega)]
  intro hused
  refine hused ?_
  simp only [Image.rootEntry, RamdiskFat16Entry.ofBytes, Vector.getElem_ofFn]
  exact hbyte

end Empty

section Pages

variable {σ : Type} {pmemAlloc : σ → Kern (UInt32 × σ)} {p t : σ} {ps : List UInt32}

/-- What the memory `m` holds on the pages `ps`, as the bytes of a disk. -/
def diskOf (m : Mem) (ps : List UInt32) : Image := fun x =>
  if x < ramdiskFat16Size then m (ps.getD (x / 4096) 0 + UInt32.ofNat (x % 4096)) else 0

/-- With 1025 pages, one of them for the pointer table, `ramdisk_fat16_init` returns. -/
theorem ramdiskFat16Init_of_allocs {table : UInt32} (hfresh : FreshPages pmemAlloc p)
    (hps : Allocs pmemAlloc p (table :: ps) t) (hlen : ps.length = 1024) (rest₁ rest₂ : Buffer)
    (m : Mem) :
    ∃ rd, ramdiskFat16Init pmemAlloc rest₁ rest₂ ⟨m, 0, 0⟩ p = .ok (rd, t) ∧
      FatInit rest₁ rest₂ rd ∧ rd.image = formatted rest₁ rest₂ (diskOf m ps) := by
  obtain ⟨rd₁, hdisk, hbytes⟩ := ramdiskInit_of_allocs hfresh hps hlen (by decide) (by decide) m
  have hv := ramdiskInit_valid hfresh (by decide) (by decide) hdisk
  have himg₁ : rd₁.image = diskOf m ps := by
    funext x
    unfold Ramdisk.image diskOf
    split
    · next hx =>
      have hx' : x < 4096 * 1024 := hx
      rw [hbytes x (by omega), List.getElem_eq_getD 0]
    · rfl
  obtain ⟨rd₂, hformat, -, himg₂⟩ := ramdiskFat16Format_spec hv rest₁ rest₂
  have hinit : ramdiskFat16Init pmemAlloc rest₁ rest₂ ⟨m, 0, 0⟩ p = .ok (rd₂, t) := by
    unfold ramdiskFat16Init
    rw [if_neg bootrecord_magic]
    show (ramdiskInit pmemAlloc (UInt32.ofNat (1024 * 4096)) _ p >>= _) = _
    rw [hdisk, ok_bind]
    dsimp only
    rw [hformat]
    rfl
  exact ⟨rd₂, hinit, ⟨σ, pmemAlloc, p, t, _, hfresh, hinit⟩, himg₁ ▸ himg₂⟩

end Pages

/-- An empty file system on a memory of zeros. -/
theorem exists_fatInit : ∃ rd s, ramdiskFat16Init pagesUpward zeroSector zeroSector
    ⟨fun _ => 0, 0, 0⟩ 1 = .ok (rd, s) ∧ FatInit zeroSector zeroSector rd := by
  obtain ⟨qs, hlen, hqs, -⟩ := pagesUpward_supply (show 1 + 1025 ≤ 2 ^ 20 by decide)
  obtain ⟨table, ps, rfl⟩ := List.exists_cons_of_length_eq_add_one hlen
  obtain ⟨rd, hinit, hfat, -⟩ := ramdiskFat16Init_of_allocs (pagesUpward_fresh 1) hqs
    (Nat.succ.inj hlen) zeroSector zeroSector fun _ => 0
  exact ⟨rd, _, hinit, hfat⟩

end KoizOs
