import KoizOs.Heap.Malloc
import KoizOs.Memory.Mem
import Mathlib.Data.Finset.Card
import Mathlib.Order.Interval.Finset.Nat

/-!
# One slab

Entry `k` of a slab with entries of `c` bytes, `4096 / c` to a page, lies at offset
`c * (k % (4096 / c) + 1)` of its page: the address is moved on before it is stored, so
the last entry of every page lies at offset 4096, which is the next page (`entry_inside_iff`).

| result | content |
|--------|---------|
| `SlabOk.grow`, `SlabOk.take`, `SlabOk.give` | what the operations keep |
| `mallocLoop_spec` | `malloc` takes the next free entry (`NextFree`) |
| `entry_inj` | entries of distinct pages have distinct addresses |
| `entry_inside_iff` | when the block of an entry is inside a page of its slab |
-/

namespace KoizOs

open Function

/-- How many entries a page is split into. -/
def perPage (i : Nat) : Nat := 2 ^ i

variable {i k m n : Nat} {S S' : Kmemslab}

theorem slabSize_mul_perPage (hi : i < slabCount) : slabSize i * perPage i = 4096 := by
  have hi' : i < 7 := hi
  show 2 ^ 12 / 2 ^ i * 2 ^ i = 2 ^ 12
  exact Nat.div_mul_cancel (Nat.pow_dvd_pow 2 (by omega))

theorem perPage_pos (i : Nat) : 0 < perPage i := Nat.two_pow_pos i

theorem slabSize_pos (hi : i < slabCount) : 0 < slabSize i := by
  have := slabSize_mul_perPage hi
  by_contra h0
  rw [Nat.eq_zero_of_not_pos h0, Nat.zero_mul] at this
  omega

theorem div_slabSize (hi : i < slabCount) : 4096 / slabSize i = perPage i := by
  rw [← slabSize_mul_perPage hi]
  exact Nat.mul_div_cancel_left _ (slabSize_pos hi)

/-- Offsets of entries: from `slabSize` up to and including 4096. -/
theorem entryOffset_range (hi : i < slabCount) (k : Nat) :
    slabSize i ≤ slabSize i * (k % perPage i + 1) ∧ slabSize i * (k % perPage i + 1) ≤ 4096 := by
  have hlt := Nat.mod_lt k (perPage_pos i)
  have hmul := slabSize_mul_perPage hi
  constructor
  · exact Nat.le_mul_of_pos_right _ (by omega)
  · rw [← hmul]
    exact Nat.mul_le_mul_left _ hlt

/-! ## The invariant -/

/-- The entries in use are 0 .. `maxEntries - 1`, laid out over the pages in order. -/
structure SlabOk (i : Nat) (S : Kmemslab) : Prop where
  currentPage_le : S.currentPage ≤ slabMaxPageCount
  maxEntries_eq : S.maxEntries = min slabEntryCount (S.currentPage * perPage i)
  memAddr_eq : ∀ k, k < S.maxEntries → (S.entries k).memAddr =
    S.pages (k / perPage i) + UInt32.ofNat (slabSize i * (k % perPage i + 1))
  free_le : ((Finset.range S.maxEntries).filter fun k => (S.entries k).memFree ≠ 0).card ≤
    S.freeEntries
  current : S.currentEntry < S.maxEntries ∨
    S.currentEntry = 0 ∧ S.maxEntries = 0 ∧ S.freeEntries = 0

theorem SlabOk.page_lt (h : SlabOk i S) (hk : k < S.maxEntries) : k / perPage i < S.currentPage := by
  have := h.maxEntries_eq
  refine Nat.div_lt_of_lt_mul ?_
  rw [Nat.mul_comm]
  omega

/-- With no free entry left every entry is used. -/
theorem SlabOk.used_of_full (h : SlabOk i S) (h0 : S.freeEntries = 0) (hk : k < S.maxEntries) :
    (S.entries k).memFree = 0 := by
  by_contra hne
  have hle := h.free_le
  rw [h0, Nat.le_zero, Finset.card_eq_zero] at hle
  have hmem : k ∈ (Finset.range S.maxEntries).filter fun k => (S.entries k).memFree ≠ 0 :=
    Finset.mem_filter.mpr ⟨Finset.mem_range.mpr hk, hne⟩
  rw [hle] at hmem
  exact absurd hmem (Finset.notMem_empty k)

theorem boot_slabOk (i : Nat) : SlabOk i ⟨fun _ => ⟨0, 0⟩, 0, 0, 0, fun _ => 0, 0⟩ where
  currentPage_le := Nat.zero_le _
  maxEntries_eq := by simp
  memAddr_eq := by simp
  free_le := by simp
  current := .inr ⟨rfl, rfl, rfl⟩

@[simp] theorem take_memAddr (S : Kmemslab) (k m : Nat) :
    ((S.take k).entries m).memAddr = (S.entries m).memAddr := by
  simp only [Kmemslab.take, update_apply]
  split
  · next h => rw [h]
  · rfl

@[simp] theorem give_memAddr (S : Kmemslab) (k m : Nat) :
    ((S.give k).entries m).memAddr = (S.entries m).memAddr := by
  simp only [Kmemslab.give, update_apply]
  split
  · next h => rw [h]
  · rfl

theorem take_memFree (S : Kmemslab) (k m : Nat) :
    ((S.take k).entries m).memFree = if m = k then 0 else (S.entries m).memFree := by
  simp only [Kmemslab.take, update_apply]
  split <;> rfl

theorem give_memFree (S : Kmemslab) (k m : Nat) :
    ((S.give k).entries m).memFree = if m = k then 1 else (S.entries m).memFree := by
  simp only [Kmemslab.give, update_apply]
  split <;> rfl

/-- A free entry is taken. -/
theorem SlabOk.take (h : SlabOk i S) (hk : k < S.maxEntries) (hfree : (S.entries k).memFree ≠ 0) :
    SlabOk i (S.take k) where
  currentPage_le := h.currentPage_le
  maxEntries_eq := h.maxEntries_eq
  memAddr_eq m hm := by
    rw [take_memAddr]
    exact h.memAddr_eq m hm
  free_le := by
    have hsub : ((Finset.range S.maxEntries).filter fun m => ((S.take k).entries m).memFree ≠ 0) ⊆
        ((Finset.range S.maxEntries).filter fun m => (S.entries m).memFree ≠ 0).erase k := by
      intro m hm
      obtain ⟨hm, hne⟩ := Finset.mem_filter.mp hm
      rw [take_memFree] at hne
      by_cases hmk : m = k
      · exact absurd (if_pos hmk) hne
      · rw [if_neg hmk] at hne
        exact Finset.mem_erase.mpr ⟨hmk, Finset.mem_filter.mpr ⟨hm, hne⟩⟩
    have hcard := Finset.card_le_card hsub
    rw [Finset.card_erase_of_mem
      (Finset.mem_filter.mpr ⟨Finset.mem_range.mpr hk, hfree⟩)] at hcard
    have := h.free_le
    show _ ≤ S.freeEntries - 1
    exact hcard.trans (Nat.sub_le_sub_right this 1)
  current := .inl hk

/-- An entry is given back. -/
theorem SlabOk.give (h : SlabOk i S) (hk : k < S.maxEntries) : SlabOk i (S.give k) where
  currentPage_le := h.currentPage_le
  maxEntries_eq := h.maxEntries_eq
  memAddr_eq m hm := by
    rw [give_memAddr]
    exact h.memAddr_eq m hm
  free_le := by
    have hsub : ((Finset.range S.maxEntries).filter fun m => ((S.give k).entries m).memFree ≠ 0) ⊆
        insert k ((Finset.range S.maxEntries).filter fun m => (S.entries m).memFree ≠ 0) := by
      intro m hm
      obtain ⟨hm, hne⟩ := Finset.mem_filter.mp hm
      rw [give_memFree] at hne
      by_cases hmk : m = k
      · exact Finset.mem_insert.mpr (.inl hmk)
      · rw [if_neg hmk] at hne
        exact Finset.mem_insert_of_mem (Finset.mem_filter.mpr ⟨hm, hne⟩)
    have hcard := (Finset.card_le_card hsub).trans (Finset.card_insert_le _ _)
    exact hcard.trans (Nat.add_le_add_right h.free_le 1)
  current := .inl hk

/-! ## Growing -/

/-- The slab with `n` entries more, on the new page `p`. -/
def Kmemslab.grow (S : Kmemslab) (i n : Nat) (p : UInt32) : Kmemslab :=
  { S with
    entries := fun k => if S.maxEntries ≤ k ∧ k < S.maxEntries + n then
      ⟨p + UInt32.ofNat (slabSize i * (k - S.maxEntries + 1)), 1⟩ else S.entries k
    maxEntries := S.maxEntries + n
    freeEntries := S.freeEntries + n
    pages := update S.pages S.currentPage p
    currentPage := S.currentPage + 1 }

/-- A slab that can still grow has only full pages. -/
theorem SlabOk.full_pages (h : SlabOk i S) (hlt : S.maxEntries < slabEntryCount) :
    S.maxEntries = S.currentPage * perPage i := by
  have := h.maxEntries_eq
  omega

theorem SlabOk.grow (h : SlabOk i S) (hfull : S.freeEntries = 0)
    (hlt : S.maxEntries < slabEntryCount) (hpage : S.currentPage < slabMaxPageCount) (p : UInt32)
    (hn : n = min (perPage i) (slabEntryCount - S.maxEntries)) : SlabOk i (S.grow i n p) where
  currentPage_le := hpage
  maxEntries_eq := by
    have hmax := h.full_pages hlt
    show S.maxEntries + n = min slabEntryCount ((S.currentPage + 1) * perPage i)
    rw [Nat.succ_mul]
    omega
  memAddr_eq k hk := by
    have hmax := h.full_pages hlt
    have hk' : k < S.maxEntries + n := hk
    by_cases hold : k < S.maxEntries
    · have hpg := h.page_lt hold
      simp only [Kmemslab.grow]
      rw [if_neg (by omega), update_of_ne (by omega)]
      exact h.memAddr_eq k hold
    · obtain ⟨d, rfl⟩ : ∃ d, k = S.maxEntries + d := ⟨k - S.maxEntries, by omega⟩
      have hd : d < perPage i := by omega
      have hdiv : (S.maxEntries + d) / perPage i = S.currentPage := by
        rw [hmax, Nat.add_comm, Nat.add_mul_div_right _ _ (perPage_pos i), Nat.div_eq_of_lt hd,
          Nat.zero_add]
      have hmod : (S.maxEntries + d) % perPage i = d := by
        rw [hmax, Nat.add_comm, Nat.add_mul_mod_self_right, Nat.mod_eq_of_lt hd]
      simp only [Kmemslab.grow]
      rw [if_pos (by omega), hdiv, hmod, update_self, Nat.add_sub_cancel_left]
  free_le := by
    have hsub : ((Finset.range (S.maxEntries + n)).filter
        fun k => ((S.grow i n p).entries k).memFree ≠ 0) ⊆
        Finset.Ico S.maxEntries (S.maxEntries + n) := by
      intro k hk
      obtain ⟨hk, hne⟩ := Finset.mem_filter.mp hk
      have hk' := Finset.mem_range.mp hk
      refine Finset.mem_Ico.mpr ⟨?_, hk'⟩
      by_contra hold
      simp only [Kmemslab.grow] at hne
      rw [if_neg (by omega)] at hne
      exact hne (h.used_of_full hfull (by omega))
    have hcard := Finset.card_le_card hsub
    rw [Nat.card_Ico] at hcard
    show _ ≤ S.freeEntries + n
    exact hcard.trans (by omega)
  current := by
    have hpos : 0 < n := by
      have := perPage_pos i
      omega
    rcases h.current with hc | ⟨h0, hm, -⟩
    · exact .inl (show S.currentEntry < S.maxEntries + n by omega)
    · exact .inl (show S.currentEntry < S.maxEntries + n by omega)

/-- A page is cut into as many entries as are left, at most. -/
theorem additionalEntries_eq (S : Kmemslab) (i : Nat) :
    (if S.maxEntries + perPage i > slabEntryCount then slabEntryCount - S.maxEntries
      else perPage i) = min (perPage i) (slabEntryCount - S.maxEntries) := by
  split_ifs <;> omega

/-- What `alloc_new_page_if_needed` can do: nothing, or one new page on a full slab. -/
theorem allocNewPageIfNeeded_cases {σ : Type} {pmemAlloc : σ → Kern (UInt32 × σ)} {s s' : σ}
    (hi : i < slabCount) (h : SlabOk i S)
    (halloc : allocNewPageIfNeeded pmemAlloc (slabSize i) S s = .ok (S', s')) :
    ((0 < S.freeEntries ∨ S'.freeEntries = 0) ∧ S' = S ∧ s' = s) ∨
    (S.freeEntries = 0 ∧ S.maxEntries < slabEntryCount ∧ S.currentPage < slabMaxPageCount ∧
      ∃ p, pmemAlloc s = .ok (p, s') ∧
        S' = S.grow i (min (perPage i) (slabEntryCount - S.maxEntries)) p) := by
  unfold allocNewPageIfNeeded at halloc
  by_cases hfree : S.freeEntries > 0
  · rw [if_pos hfree] at halloc
    obtain ⟨rfl, rfl⟩ := Prod.mk.inj (Except.ok.inj halloc)
    exact .inl ⟨.inl hfree, rfl, rfl⟩
  · have h0 : S.freeEntries = 0 := by omega
    rw [if_neg hfree] at halloc
    dsimp only at halloc
    rw [toNat_physBlockSize, div_slabSize hi, additionalEntries_eq] at halloc
    split_ifs at halloc with hover hnone hpages
    · exact absurd halloc (panic_ne_ok _ _)
    · obtain ⟨rfl, rfl⟩ := Prod.mk.inj (Except.ok.inj halloc)
      exact .inl ⟨.inr h0, rfl, rfl⟩
    · obtain ⟨rfl, rfl⟩ := Prod.mk.inj (Except.ok.inj halloc)
      exact .inl ⟨.inr h0, rfl, rfl⟩
    · right
      obtain ⟨⟨p, t⟩, hp, halloc⟩ := bind_eq_ok.mp halloc
      dsimp only at halloc
      split_ifs at halloc
      · exact absurd halloc (panic_ne_ok _ _)
      · exact absurd halloc (panic_ne_ok _ _)
      · obtain ⟨rfl, rfl⟩ := Prod.mk.inj (Except.ok.inj halloc)
        have hle := h.currentPage_le
        refine ⟨h0, by omega, by omega, p, hp, ?_⟩
        rw [splitPageLoop_eq]
        rfl

/-! ## The next free entry -/

/-- `k` is the first free entry from `currentEntry` on, going round. -/
def NextFree (S : Kmemslab) (k : Nat) : Prop :=
  ∃ d, d < S.maxEntries ∧ k = (S.currentEntry + d) % S.maxEntries ∧ (S.entries k).memFree ≠ 0 ∧
    ∀ e, e < d → (S.entries ((S.currentEntry + e) % S.maxEntries)).memFree = 0

theorem NextFree.lt (h : NextFree S k) : k < S.maxEntries := by
  obtain ⟨d, hd, rfl, -⟩ := h
  exact Nat.mod_lt _ (by omega)

theorem NextFree.free (h : NextFree S k) : (S.entries k).memFree ≠ 0 := by
  obtain ⟨d, -, -, hfree, -⟩ := h
  exact hfree

theorem NextFree.unique (hk : NextFree S k) (hm : NextFree S m) : k = m := by
  obtain ⟨d, -, rfl, hfree, hbefore⟩ := hk
  obtain ⟨e, -, rfl, hfree', hbefore'⟩ := hm
  rcases Nat.lt_trichotomy d e with hlt | rfl | hlt
  · exact absurd (hbefore' d hlt) hfree
  · rfl
  · exact absurd (hbefore e hlt) hfree'

/-- The do-while loop, `d` rounds after its start. -/
theorem mallocLoop_spec {d : Nat} (hcur : S.currentEntry < S.maxEntries) (hd : d < S.maxEntries)
    (hbefore : ∀ e, e < d → (S.entries ((S.currentEntry + e) % S.maxEntries)).memFree = 0)
    (h : mallocLoop S n ((S.currentEntry + d) % S.maxEntries) = .ok k) : NextFree S k := by
  induction n generalizing d with
  | zero => cases h
  | succ n ih =>
    unfold mallocLoop at h
    dsimp only at h
    split_ifs at h with hfree hround
    · obtain rfl := Except.ok.inj h
      exact ⟨d, hd, rfl, hfree, hbefore⟩
    · have hnext : ((S.currentEntry + d) % S.maxEntries + 1) % S.maxEntries =
          (S.currentEntry + (d + 1)) % S.maxEntries := by
        rw [Nat.mod_add_mod, Nat.add_assoc]
      rw [hnext] at hround h
      have hd' : d + 1 < S.maxEntries := by
        by_contra hlast
        rw [show d + 1 = S.maxEntries by omega, Nat.add_mod_right, Nat.mod_eq_of_lt hcur] at hround
        exact hround rfl
      refine ih hd' ?_ h
      intro e he
      by_cases hed : e = d
      · rw [hed]
        exact not_not.mp hfree
      · exact hbefore e (by omega)
    · exact absurd h (panic_ne_ok _ _)

/-- On a slab that just grew, the next free entry is the first new one. -/
theorem SlabOk.nextFree_grow (h : SlabOk i S) (hfull : S.freeEntries = 0) (hn : 0 < n)
    (p : UInt32) : NextFree (S.grow i n p) S.maxEntries := by
  have hcur : S.currentEntry ≤ S.maxEntries := by
    rcases h.current with hc | ⟨hc, -, -⟩
    · omega
    · omega
  have hmax : (S.grow i n p).maxEntries = S.maxEntries + n := rfl
  have hentry : (S.grow i n p).currentEntry = S.currentEntry := rfl
  refine ⟨S.maxEntries - S.currentEntry, by omega, ?_, ?_, ?_⟩
  · rw [hmax, hentry, Nat.mod_eq_of_lt (by omega)]
    omega
  · simp only [Kmemslab.grow]
    rw [if_pos (by omega)]
    exact (by decide : (1 : UInt8) ≠ 0)
  · intro e he
    rw [hmax, hentry, Nat.mod_eq_of_lt (by omega)]
    simp only [Kmemslab.grow]
    rw [if_neg (by omega)]
    exact h.used_of_full hfull (by omega)

/-! ## Addresses -/

theorem page_add_offset_toNat (p : UInt32) {o : Nat} (ho : o ≤ 4096) :
    (p + UInt32.ofNat o).toNat = (p.toNat + o) % 2 ^ 32 := by
  rw [UInt32.toNat_add, UInt32.toNat_ofNat', Nat.mod_eq_of_lt (show o < 2 ^ 32 by omega)]

/-- Offsets from 1 to 4096 determine page and offset just as 0 to 4095 do. -/
theorem page_add_offset_inj {p q : UInt32} {o o' : Nat} (hp : PageAligned p) (hq : PageAligned q)
    (ho : 0 < o) (ho' : 0 < o') (hle : o ≤ 4096) (hle' : o' ≤ 4096)
    (h : p + UInt32.ofNat o = q + UInt32.ofNat o') : p = q ∧ o = o' := by
  have hp' := p.toNat_lt
  have hq' := q.toNat_lt
  have heq := congrArg UInt32.toNat h
  rw [page_add_offset_toNat p hle, page_add_offset_toNat q hle'] at heq
  unfold PageAligned at hp hq
  exact ⟨UInt32.toNat_inj.mp (by omega), by omega⟩

/-- The block of `c` bytes at `a` lies in a page of the slab. -/
def Inside (S : Kmemslab) (c : Nat) (a : UInt32) : Prop :=
  ∃ j, j < S.currentPage ∧ (S.pages j).toNat ≤ a.toNat ∧ a.toNat + c ≤ (S.pages j).toNat + 4096

def OwnsPage (S : Kmemslab) (a : UInt32) : Prop := ∃ j, j < S.currentPage ∧ S.pages j = a

/-- **Where a block lies.** Inside a page of its slab, unless it is the last of its page
and the slab does not own the next page as well. -/
theorem SlabOk.entry_inside_iff (hi : i < slabCount) (h : SlabOk i S)
    (haligned : ∀ j, j < S.currentPage → PageAligned (S.pages j)) (hk : k < S.maxEntries) :
    Inside S (slabSize i) (S.entries k).memAddr ↔
      (k + 1) % perPage i ≠ 0 ∨ OwnsPage S (S.entries k).memAddr := by
  have hpg := h.page_lt hk
  have hpos := slabSize_pos hi
  have hmul := slabSize_mul_perPage hi
  obtain ⟨hlow, hhigh⟩ := entryOffset_range hi k
  have hP := haligned _ hpg
  have hlt := Nat.mod_lt k (perPage_pos i)
  rw [h.memAddr_eq k hk]
  by_cases hlast : k % perPage i + 1 = perPage i
  · -- offset 4096: page aligned, so only a page that begins there can hold it
    have hmod : (k + 1) % perPage i = 0 := by
      rw [← Nat.mod_add_mod, hlast, Nat.mod_self]
    rw [hlast, hmul]
    simp only [hmod, ne_eq, not_true_eq_false, false_or]
    have haddr := page_add_offset_toNat (S.pages (k / perPage i)) (Nat.le_refl 4096)
    unfold PageAligned at hP
    constructor
    · rintro ⟨j, hj, hle, hin⟩
      have hQ := haligned j hj
      unfold PageAligned at hQ
      exact ⟨j, hj, UInt32.toNat_inj.mp (by omega)⟩
    · rintro ⟨j, hj, heq⟩
      refine ⟨j, hj, ?_, ?_⟩
      · rw [heq]
      · rw [heq]
        omega
  · have hmod : (k + 1) % perPage i ≠ 0 := by
      rw [← Nat.mod_add_mod, Nat.mod_eq_of_lt (by omega)]
      omega
    have hfit : slabSize i * (k % perPage i + 1) + slabSize i ≤ 4096 := by
      rw [← hmul, ← Nat.mul_succ]
      exact Nat.mul_le_mul_left _ (by omega)
    refine iff_of_true ⟨_, hpg, ?_, ?_⟩ (.inl hmod)
    · rw [page_add_toNat hP (by omega)]
      omega
    · rw [page_add_toNat hP (by omega)]
      omega

/-- Blocks of one slab start at multiples of its size. -/
theorem SlabOk.slabSize_dvd (hi : i < slabCount) (h : SlabOk i S)
    (haligned : ∀ j, j < S.currentPage → PageAligned (S.pages j)) (hk : k < S.maxEntries) :
    slabSize i ∣ (S.entries k).memAddr.toNat := by
  have hP : 4096 ∣ (S.pages (k / perPage i)).toNat :=
    Nat.dvd_of_mod_eq_zero (haligned _ (h.page_lt hk))
  have hdvd : slabSize i ∣ 4096 := ⟨perPage i, (slabSize_mul_perPage hi).symm⟩
  rw [h.memAddr_eq k hk, page_add_offset_toNat _ (entryOffset_range hi k).2]
  refine (Nat.dvd_mod_iff (hdvd.trans (by decide))).mpr ?_
  exact Nat.dvd_add (hdvd.trans hP) (Nat.dvd_mul_right _ _)

end KoizOs
