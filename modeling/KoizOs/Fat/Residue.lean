import KoizOs.Fat.ReadBack

/-!
# What a read shows besides the file

The pages of the disk come as the allocator hands them out, a format leaves the data area
as it is, and a short write fills the beginning of a sector that a read then copies whole.
`storeAndRead` is the run of all three on a memory `m`:

    buf[k] = data[k] for k < n, and what was on the disk's page for n ≤ k < 512

so two memories are told apart exactly when the file does not fill its sector
(`fat16_disclosesNothing_iff`).
-/

namespace KoizOs

open Lib

/-- `m₁` and `m₂` differ on the pages `ps` at most. -/
def DifferOn (ps : List UInt32) (m₁ m₂ : Mem) : Prop :=
  ∀ x, (∀ p ∈ ps, x.toNat / 4096 ≠ p.toNat / 4096) → m₁ x = m₂ x

/-- The local variables of the four calls, as their frames find them. -/
structure Stacks where
  rest₁ : Buffer
  rest₂ : Buffer
  write : Buffer
  read : Buffer

section Run

variable {σ : Type} (pmemAlloc : σ → Kern (UInt32 × σ)) (pages : σ) (v : Stacks)
  (fileName : CString) (data : Buffer) (dataSize : UInt32)

/-- `ramdisk_fat16_init` on the memory `m`, `file_write`, `file_read`: what `buf` then holds. -/
def storeAndRead (buf : Buffer) (m : Mem) : Kern Buffer := do
  let (rd, _) ← ramdiskFat16Init pmemAlloc v.rest₁ v.rest₂ ⟨m, 0, 0⟩ pages
  let (_, rd) ← ramdiskFat16FileWrite v.write fileName data dataSize rd
  let (_, buf, _) ← ramdiskFat16FileRead v.read fileName buf 0 rd
  return buf

/-- Whatever was on the pages `ps` before, the run ends with the same 512 bytes in `buf`. -/
def DisclosesNothing (ps : List UInt32) : Prop :=
  ∀ buf m₁ m₂, DifferOn ps m₁ m₂ → ∃ buf₁ buf₂,
    storeAndRead pmemAlloc pages v fileName data dataSize buf m₁ = .ok buf₁ ∧
    storeAndRead pmemAlloc pages v fileName data dataSize buf m₂ = .ok buf₂ ∧
    ∀ k < 512, buf₁ k = buf₂ k

end Run

/-! ## The residue of a sector -/

variable {rest₁ rest₂ : Buffer} {img img' : Image}

theorem formatted_of_lt {x : Nat} (hx : x < 49664) :
    formatted rest₁ rest₂ img' x = formatted rest₁ rest₂ img x := by
  unfold formatted
  split_ifs <;> rfl

/-- Data sectors keep what they held. -/
theorem formatted_sector (c : Nat) : (formatted rest₁ rest₂ img).sector c = img.sector c := by
  funext k
  show formatted rest₁ rest₂ img ((97 + c) * 512 + k) = img ((97 + c) * 512 + k)
  unfold formatted
  rw [if_neg (by omega), if_neg (by omega), if_neg (by omega), if_neg (by omega)]

theorem formatted_freeCluster :
    (formatted rest₁ rest₂ img').freeCluster = (formatted rest₁ rest₂ img).freeCluster := by
  apply Image.freeCluster_congr
  intro c hc
  have hc' : c < 415 := hc
  exact Image.cell_congr (formatted_of_lt (by omega)) (formatted_of_lt (by omega))

variable {σ : Type} {pmemAlloc : σ → Kern (UInt32 × σ)} {s t : σ} {ps : List UInt32}
  {table : UInt32} {v : Stacks} {fileName : CString} {data : Buffer} {dataSize : UInt32}

/-- The cluster of the first file on a new disk. -/
def firstCluster (v : Stacks) : Nat := (formatted v.rest₁ v.rest₂ fun _ => 0).freeCluster

theorem firstCluster_lt (v : Stacks) : firstCluster v < 415 := firstFrom_lt (by decide)

theorem storeAndRead_eq (hfresh : FreshPages pmemAlloc s)
    (hps : Allocs pmemAlloc s (table :: ps) t) (hlen : ps.length = 1024)
    (hn : dataSize.toNat ≤ 512) (buf : Buffer) (m : Mem) :
    storeAndRead pmemAlloc s v fileName data dataSize buf m =
      .ok (patch buf 0 512 fun k => if k < dataSize.toNat then data k
        else (diskOf m ps).sector (firstCluster v) k) := by
  obtain ⟨rd, hinit, hfat, himg⟩ := ramdiskFat16Init_of_allocs hfresh hps hlen v.rest₁ v.rest₂ m
  obtain ⟨hfile, hroot, hfree⟩ := hfat.empty fileName
  obtain ⟨rd', hw⟩ := ramdiskFat16FileWrite_small v.write data hfat.ok.valid hfile hfree
    (show dataSize.toNat ≤ 1024 by omega)
  obtain ⟨contents, hread, hbyte⟩ := hfat.ok.read_written hw (by rw [hroot]; decide)
  have hcontents : ∀ k, k < 512 → contents k = if k < dataSize.toNat then data k
      else (diskOf m ps).sector (firstCluster v) k := by
    intro k hk
    have hcluster : rd.image.freeCluster = firstCluster v := by
      rw [himg]
      exact formatted_freeCluster
    rw [hbyte k hk, if_neg (by omega), hcluster, himg, formatted_sector]
  unfold storeAndRead
  rw [hinit, ok_bind]
  dsimp only
  rw [hw, ok_bind]
  dsimp only
  rw [hread, patch_congr hcontents]
  rfl

/-- The memory whose pages `ps` are full of ones. -/
def onesOn (ps : List UInt32) : Mem := fun x =>
  if ∃ p ∈ ps, x.toNat / 4096 = p.toNat / 4096 then 1 else 0

theorem differOn_onesOn (ps : List UInt32) : DifferOn ps (fun _ => 0) (onesOn ps) := by
  intro x hx
  refine (if_neg ?_).symm
  rintro ⟨p, hp, heq⟩
  exact hx p hp heq

theorem diskOf_onesOn (hfresh : FreshPages pmemAlloc s)
    (hps : Allocs pmemAlloc s (table :: ps) t) {x : Nat} (hx : x < 1024 * 4096)
    (hlen : ps.length = 1024) : diskOf (onesOn (table :: ps)) ps x = 1 := by
  have hx' : x < ramdiskFat16Size := by
    unfold ramdiskFat16Size
    omega
  have hlt : x / 4096 < ps.length := by omega
  have hmem : ps[x / 4096] ∈ table :: ps := List.mem_cons_of_mem _ (List.getElem_mem hlt)
  have hpage := hfresh.aligned _ _ hps _ hmem
  unfold diskOf
  rw [if_pos hx', ← @List.getElem_eq_getD _ _ _ hlt 0]
  refine if_pos ⟨_, hmem, ?_⟩
  rw [page_add_toNat hpage (by omega)]
  omega

/-- On pages of zeros and on pages of ones, the first byte behind a short file differs. -/
theorem storeAndRead_residue (hfresh : FreshPages pmemAlloc s)
    (hps : Allocs pmemAlloc s (table :: ps) t) (hlen : ps.length = 1024)
    (hn : dataSize.toNat < 512) (buf : Buffer) :
    ∃ buf₁ buf₂,
      storeAndRead pmemAlloc s v fileName data dataSize buf (fun _ => 0) = .ok buf₁ ∧
      storeAndRead pmemAlloc s v fileName data dataSize buf (onesOn (table :: ps)) = .ok buf₂ ∧
      buf₁ dataSize.toNat = 0 ∧ buf₂ dataSize.toNat = 1 := by
  have hlt := firstCluster_lt v
  refine ⟨_, _, storeAndRead_eq hfresh hps hlen (by omega) buf _,
    storeAndRead_eq hfresh hps hlen (by omega) buf _, ?_, ?_⟩
  · rw [patch_of_mem (by omega) (by omega), Nat.sub_zero, if_neg (Nat.lt_irrefl _)]
    show diskOf (fun _ => 0) ps _ = 0
    exact ite_self _
  · rw [patch_of_mem (by omega) (by omega), Nat.sub_zero, if_neg (Nat.lt_irrefl _)]
    exact diskOf_onesOn hfresh hps
      (show (97 + firstCluster v) * 512 + dataSize.toNat < 1024 * 4096 by omega) hlen

/-- Two runs that end with different buffers tell the memories apart. -/
theorem not_disclosesNothing {ps : List UInt32} {buf buf₁ buf₂ : Buffer} {m₁ m₂ : Mem} {k : Nat}
    (hm : DifferOn ps m₁ m₂)
    (h₁ : storeAndRead pmemAlloc s v fileName data dataSize buf m₁ = .ok buf₁)
    (h₂ : storeAndRead pmemAlloc s v fileName data dataSize buf m₂ = .ok buf₂) (hk : k < 512)
    (hne : buf₁ k ≠ buf₂ k) : ¬ DisclosesNothing pmemAlloc s v fileName data dataSize ps := by
  intro h
  obtain ⟨buf₁', buf₂', h₁', h₂', hsame⟩ := h buf m₁ m₂ hm
  obtain rfl := Except.ok.inj (h₁.symm.trans h₁')
  obtain rfl := Except.ok.inj (h₂.symm.trans h₂')
  exact hne (hsame k hk)

/-- **Residue.** The earlier contents of the disk's pages do not show in what is read exactly
when the file fills its sector. -/
theorem fat16_disclosesNothing_iff {ps : List UInt32} (hfresh : FreshPages pmemAlloc s)
    (hps : Allocs pmemAlloc s ps t) (hlen : ps.length = 1025) (hn : dataSize.toNat ≤ 512) :
    DisclosesNothing pmemAlloc s v fileName data dataSize ps ↔ dataSize.toNat = 512 := by
  obtain ⟨table, ps, rfl⟩ := List.exists_cons_of_length_eq_add_one hlen
  have hlen' : ps.length = 1024 := Nat.succ.inj hlen
  constructor
  · intro h
    by_contra hne
    have hshort : dataSize.toNat < 512 := by omega
    obtain ⟨buf₁, buf₂, h₁, h₂, hzero, hone⟩ :=
      storeAndRead_residue hfresh hps hlen' hshort zeroSector
    refine not_disclosesNothing (differOn_onesOn (table :: ps)) h₁ h₂ hshort ?_ h
    rw [hzero, hone]
    decide
  · intro hfull buf m₁ m₂ _
    refine ⟨_, _, storeAndRead_eq hfresh hps hlen' hn buf m₁,
      storeAndRead_eq hfresh hps hlen' hn buf m₂, ?_⟩
    intro k hk
    rw [patch_of_mem (by omega) (by omega), patch_of_mem (by omega) (by omega), if_pos (by omega),
      if_pos (by omega)]

/-- All frames found zero. -/
def zeroStacks : Stacks := ⟨zeroSector, zeroSector, zeroSector, zeroSector⟩

theorem fat16_disclosesNothing_iff_full : ∃ ps,
    Allocs pagesUpward 1 ps (1 + 1025) ∧
      DisclosesNothing pagesUpward 1 zeroStacks ⟨[0x41], by decide⟩ zeroSector 512 ps := by
  obtain ⟨ps, hlen, hps, -⟩ := pagesUpward_supply (show 1 + 1025 ≤ 2 ^ 20 by decide)
  exact ⟨ps, hps, (fat16_disclosesNothing_iff (pagesUpward_fresh 1) hps hlen (by decide)).mpr rfl⟩

/-- A file of 30 bytes: byte 30 of the buffer is that of the page. -/
theorem fat16_discloses : ∃ ps, Allocs pagesUpward 1 ps (1 + 1025) ∧
    (∃ buf₁ buf₂,
      storeAndRead pagesUpward 1 zeroStacks ⟨[0x41], by decide⟩ zeroSector 30 zeroSector
        (fun _ => 0) = .ok buf₁ ∧
      storeAndRead pagesUpward 1 zeroStacks ⟨[0x41], by decide⟩ zeroSector 30 zeroSector
        (onesOn ps) = .ok buf₂ ∧ buf₁ 30 = 0 ∧ buf₂ 30 = 1) ∧
    ¬ DisclosesNothing pagesUpward 1 zeroStacks ⟨[0x41], by decide⟩ zeroSector 30 ps := by
  obtain ⟨qs, hlen, hqs, -⟩ := pagesUpward_supply (show 1 + 1025 ≤ 2 ^ 20 by decide)
  obtain ⟨table, ps, rfl⟩ := List.exists_cons_of_length_eq_add_one hlen
  obtain ⟨buf₁, buf₂, h₁, h₂, hzero, hone⟩ := @storeAndRead_residue _ _ _ _ _ _ zeroStacks
    ⟨[0x41], by decide⟩ zeroSector 30 (pagesUpward_fresh 1) hqs (Nat.succ.inj hlen) (by decide)
    zeroSector
  refine ⟨table :: ps, hqs, ⟨buf₁, buf₂, h₁, h₂, hzero, hone⟩, ?_⟩
  apply not_disclosesNothing (differOn_onesOn (table :: ps)) h₁ h₂ (show 30 < 512 by decide)
  have hzero' : buf₁ 30 = 0 := hzero
  have hone' : buf₂ 30 = 1 := hone
  rw [hzero', hone']
  decide

end KoizOs
