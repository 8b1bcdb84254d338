import KoizOs.Heap.Blocks

/-!
# How much the heap can hold

The counters of a slab are exact: `freeEntries` is the number of entries marked free, and
the entries that are not are the live blocks of the slab.  So the circular search always
finds an entry, `free` always finds its block, and a slab is exhausted exactly when it has
`min 1000 (100 * (4096 / c))` live blocks.

The check after a page has been cut up compares the last address with itself plus 4096.
It fires on a page at the top of the address space (`TopPage`), with nothing wrong.

| result | content |
|--------|---------|
| `Counted.step` | every call keeps the counters exact |
| `mallocLoop_ok`, `free_ok` | neither search fails |
| `malloc_panics_iff` | when `malloc` panics |
| `heap_capacity_iff` | so over runs |
-/

namespace KoizOs

open Function Lib

variable {σ : Type} {pmemAlloc : σ → Kern (UInt32 × σ)} {s t : σ} {hp hp' : Heap σ}
  {live live' : List Block} {i j k m n : Nat} {S : Kmemslab} {b : Block} {q : UInt32}

/-! ## Counting -/

/-- The entries marked free. -/
def Kmemslab.freeSet (S : Kmemslab) : Finset Nat :=
  (Finset.range S.maxEntries).filter fun k => (S.entries k).memFree ≠ 0

/-- How many live blocks slab `i` has. -/
def liveCount (live : List Block) (i : Nat) : Nat := live.countP fun b => b.slab = i

theorem mem_freeSet : k ∈ S.freeSet ↔ k < S.maxEntries ∧ (S.entries k).memFree ≠ 0 := by
  simp only [Kmemslab.freeSet, Finset.mem_filter, Finset.mem_range]

theorem freeSet_take (S : Kmemslab) (k : Nat) : (S.take k).freeSet = S.freeSet.erase k := by
  ext m
  rw [mem_freeSet, Finset.mem_erase, mem_freeSet, take_memFree]
  show m < S.maxEntries ∧ _ ↔ _
  by_cases hm : m = k
  · simp [hm]
  · simp [hm]

theorem freeSet_give (hk : k < S.maxEntries) : (S.give k).freeSet = insert k S.freeSet := by
  ext m
  rw [mem_freeSet, Finset.mem_insert, mem_freeSet, give_memFree]
  show m < S.maxEntries ∧ _ ↔ _
  by_cases hm : m = k
  · simp [hm, hk]
  · simp [hm]

/-- On a full slab that grows, what is free is what is new. -/
theorem SlabOk.freeSet_grow (h : SlabOk i S) (hfull : S.freeEntries = 0) (n : Nat) (q : UInt32) :
    (S.grow i n q).freeSet = Finset.Ico S.maxEntries (S.maxEntries + n) := by
  ext m
  rw [mem_freeSet, Finset.mem_Ico]
  simp only [Kmemslab.grow]
  by_cases hm : S.maxEntries ≤ m ∧ m < S.maxEntries + n
  · rw [if_pos hm]
    exact iff_of_true ⟨hm.2, (by decide : (1 : UInt8) ≠ 0)⟩ hm
  · rw [if_neg hm]
    refine iff_of_false ?_ hm
    rintro ⟨hlt, hfree⟩
    exact hfree (h.used_of_full hfull (by omega))

@[simp] theorem liveCount_cons (b : Block) (live : List Block) (i : Nat) :
    liveCount (b :: live) i = liveCount live i + if b.slab = i then 1 else 0 := by
  simp only [liveCount, List.countP_cons, decide_eq_true_eq]

theorem liveCount_erase (hb : b ∈ live) (i : Nat) :
    liveCount (live.erase b) i + (if b.slab = i then 1 else 0) = liveCount live i := by
  rw [← liveCount_cons]
  exact ((List.perm_cons_erase hb).countP_eq _).symm

/-- The counters of the slabs say how many entries are free and how many are not. -/
structure Counted (x : Heap σ × List Block) : Prop where
  free : ∀ i, i < slabCount → (x.1.slabs i).freeSet.card = (x.1.slabs i).freeEntries
  used : ∀ i, i < slabCount →
    liveCount x.2 i + (x.1.slabs i).freeEntries = (x.1.slabs i).maxEntries

namespace Counted

theorem boot (s : σ) : Counted (Heap.boot s, []) where
  free _ _ := rfl
  used _ _ := rfl

/-- Only the counters of the slab that is replaced have to be looked at. -/
theorem setSlab (h : Counted (hp, live)) (hfree : S.freeSet.card = S.freeEntries)
    (hused : liveCount live' i + S.freeEntries = S.maxEntries)
    (hother : ∀ j, j ≠ i → liveCount live' j = liveCount live j) :
    Counted (hp.setSlab i S, live') := by
  constructor
  · intro j hj
    by_cases hji : j = i
    · subst hji
      rw [setSlab_self]
      exact hfree
    · rw [setSlab_of_ne hji]
      exact h.free j hj
  · intro j hj
    show liveCount live' j + ((hp.setSlab i S).slabs j).freeEntries = _
    by_cases hji : j = i
    · subst hji
      rw [setSlab_self]
      exact hused
    · rw [setSlab_of_ne hji, hother j hji]
      exact h.used j hj

theorem makesRoom {hp₁ : Heap σ} (h : Counted (hp, live)) (hl : HeapLayout pmemAlloc s hp)
    (hi : i < slabCount) (hroom : MakesRoom pmemAlloc i hp hp₁) : Counted (hp₁, live) := by
  cases hroom with
  | had _ => exact h
  | @page n q t h0 _ _ _ =>
    have hused : liveCount live i + (hp.slabs i).freeEntries = (hp.slabs i).maxEntries :=
      h.used i hi
    have hcard : ((hp.slabs i).grow i n q).freeSet.card = (hp.slabs i).freeEntries + n := by
      rw [(hl.slab i hi).freeSet_grow h0, Nat.card_Ico]
      omega
    have hgrown : Counted (hp.setSlab i ((hp.slabs i).grow i n q), live) := by
      apply h.setSlab hcard
      · show liveCount live i + ((hp.slabs i).freeEntries + n) = (hp.slabs i).maxEntries + n
        omega
      · intro _ _
        rfl
    exact ⟨hgrown.free, hgrown.used⟩

/-- A free entry becomes a live block. -/
theorem take (h : Counted (hp, live)) (hi : i < slabCount) (hk : k ∈ (hp.slabs i).freeSet)
    (a : UInt32) : Counted (hp.setSlab i ((hp.slabs i).take k), ⟨a, i⟩ :: live) := by
  have hcard : (hp.slabs i).freeSet.card = (hp.slabs i).freeEntries := h.free i hi
  have hused : liveCount live i + (hp.slabs i).freeEntries = (hp.slabs i).maxEntries :=
    h.used i hi
  have hpos : 0 < (hp.slabs i).freeSet.card := Finset.card_pos.mpr ⟨k, hk⟩
  apply h.setSlab
  · rw [freeSet_take, Finset.card_erase_of_mem hk, hcard]
    rfl
  · rw [liveCount_cons, if_pos rfl]
    show _ + ((hp.slabs i).freeEntries - 1) = (hp.slabs i).maxEntries
    omega
  · intro j hj
    rw [liveCount_cons, if_neg (Ne.symm hj), Nat.add_zero]

/-- A live block becomes a free entry. -/
theorem give (h : Counted (hp, live)) (hi : b.slab < slabCount) (hb : b ∈ live)
    (hk : k < (hp.slabs b.slab).maxEntries)
    (hfree : ((hp.slabs b.slab).entries k).memFree = 0) :
    Counted (hp.setSlab b.slab ((hp.slabs b.slab).give k), live.erase b) := by
  have hcard : (hp.slabs b.slab).freeSet.card = (hp.slabs b.slab).freeEntries := h.free b.slab hi
  have hused : liveCount live b.slab + (hp.slabs b.slab).freeEntries =
      (hp.slabs b.slab).maxEntries := h.used b.slab hi
  have hnot : k ∉ (hp.slabs b.slab).freeSet := fun hmem => (mem_freeSet.mp hmem).2 hfree
  apply h.setSlab
  · rw [freeSet_give hk, Finset.card_insert_of_notMem hnot, hcard]
    rfl
  · have herase := liveCount_erase hb b.slab
    rw [if_pos rfl] at herase
    show _ + ((hp.slabs b.slab).freeEntries + 1) = (hp.slabs b.slab).maxEntries
    omega
  · intro j hj
    have herase := liveCount_erase hb j
    rw [if_neg (Ne.symm hj)] at herase
    omega

theorem step {x y : Heap σ × List Block} {op : HeapOp} (h : Counted x)
    (hinv : HeapInv pmemAlloc s x) (hfresh : FreshPages pmemAlloc s)
    (hs : HeapStep pmemAlloc x op y) : Counted y := by
  cases hs with
  | @malloc hp hp' live size p i c hm hclass =>
    obtain ⟨j, hp₁, k, hclass', hj, hroom, hnext, rfl, rfl⟩ := malloc_cases hinv.toHeapLayout hm
    obtain ⟨rfl, -⟩ := Prod.mk.inj (Option.some.inj (hclass'.symm.trans hclass))
    have htaken := mem_freeSet.mpr ⟨hnext.lt, hnext.free⟩
    exact (h.makesRoom hinv.toHeapLayout hj hroom).take hj htaken _
  | @free hp hp' live b hb hf =>
    obtain ⟨i, k, hi, hk, haddr, rfl⟩ := free_cases hf
    obtain ⟨hslab, m, hm, hma, hused⟩ := hinv.live b hb
    -- the entry `free` found is the one the block came from
    obtain ⟨rfl, rfl⟩ := hinv.entry_inj hfresh hslab hi hm hk (hma.trans haddr.symm)
    exact h.give hslab hb hm hused

end Counted

/-! ## The searches -/

/-- Every entry is some number of rounds away from where the search starts. -/
theorem exists_round {cur max : Nat} (hcur : cur < max) (hm : m < max) :
    ∃ e, e < max ∧ (cur + e) % max = m := by
  by_cases hle : cur ≤ m
  · refine ⟨m - cur, by omega, ?_⟩
    rw [Nat.add_sub_cancel' hle, Nat.mod_eq_of_lt hm]
  · refine ⟨m + max - cur, by omega, ?_⟩
    rw [show cur + (m + max - cur) = m + max by omega, Nat.add_mod_right, Nat.mod_eq_of_lt hm]

/-- The do-while loop with `n` rounds left, `d` rounds after its start, where the entry `e`
rounds after its start is free. -/
theorem mallocLoop_ok {d e : Nat} (hcur : S.currentEntry < S.maxEntries) (he : e < S.maxEntries)
    (hde : d ≤ e) (hn : e < d + n)
    (hfree : (S.entries ((S.currentEntry + e) % S.maxEntries)).memFree ≠ 0) :
    ∃ k, mallocLoop S n ((S.currentEntry + d) % S.maxEntries) = .ok k := by
  induction n generalizing d with
  | zero => omega
  | succ n ih =>
    unfold mallocLoop
    dsimp only
    split_ifs with hd hround
    · exact ⟨_, rfl⟩
    · have hne : d ≠ e := by
        rintro rfl
        exact hd hfree
      rw [Nat.mod_add_mod, Nat.add_assoc]
      exact ih (by omega) (by omega)
    · have hne : d ≠ e := by
        rintro rfl
        exact hd hfree
      -- back at the start before the last round
      exfalso
      rw [not_not, Nat.mod_add_mod, Nat.add_assoc] at hround
      obtain hlt | hge := Nat.lt_or_ge (S.currentEntry + (d + 1)) S.maxEntries
      · rw [Nat.mod_eq_of_lt hlt] at hround
        omega
      · rw [Nat.mod_eq_sub_mod hge, Nat.mod_eq_of_lt (by omega)] at hround
        omega

/-- The search of `malloc` ends at a free entry when the count says there is one. -/
theorem SlabOk.search (h : SlabOk i S) (hcard : S.freeSet.card = S.freeEntries)
    (hpos : 0 < S.freeEntries) :
    ∃ k, mallocLoop S (S.maxEntries + 1) S.currentEntry = .ok k ∧ k ∈ S.freeSet := by
  obtain ⟨m, hm⟩ := Finset.card_pos.mp (hcard ▸ hpos)
  obtain ⟨hlt, hfree⟩ := mem_freeSet.mp hm
  have hcur : S.currentEntry < S.maxEntries := by
    rcases h.current with hcur | ⟨-, -, h0⟩
    · exact hcur
    · omega
  obtain ⟨e, he, rfl⟩ := exists_round hcur hlt
  obtain ⟨k, hk⟩ := mallocLoop_ok (d := 0) hcur he (Nat.zero_le e)
    (show e < 0 + (S.maxEntries + 1) by omega) hfree
  have hnext := mallocLoop_spec (d := 0) hcur (by omega)
    (fun e he => absurd he (Nat.not_lt_zero e)) hk
  have hstart : (S.currentEntry + 0) % S.maxEntries = S.currentEntry := Nat.mod_eq_of_lt hcur
  rw [hstart] at hk
  obtain ⟨d, -, -, hkfree, -⟩ := id hnext
  exact ⟨k, hk, mem_freeSet.mpr ⟨hnext.lt, hkfree⟩⟩

theorem freePtrSlabLoop_isSome {ptr : UInt32} (hk : k < n) (haddr : (S.entries k).memAddr = ptr) :
    (freePtrSlabLoop S ptr n).isSome := by
  induction n with
  | zero => omega
  | succ n ih =>
    unfold freePtrSlabLoop
    split_ifs with heq
    · rfl
    · apply ih
      have hne : k ≠ n := by
        rintro rfl
        exact heq haddr
      omega

theorem freeLoop_ok {ptr : UInt32} {slabs : Nat → Kmemslab} (hij : i ≤ j) (hj : j < i + n)
    (hsome : (freePtrSlab (slabs j) ptr).isSome) : ∃ slabs', freeLoop ptr n i slabs = .ok slabs' := by
  induction n generalizing i with
  | zero => omega
  | succ n ih =>
    unfold freeLoop
    cases hi : freePtrSlab (slabs i) ptr with
    | some S => exact ⟨_, rfl⟩
    | none =>
      have hne : i ≠ j := by
        rintro rfl
        rw [hi] at hsome
        cases hsome
      exact ih (by omega) (by omega)

/-- `free` of the address of an entry gives back that entry. -/
theorem HeapLayout.free_ok (h : HeapLayout pmemAlloc s hp) (hfresh : FreshPages pmemAlloc s)
    (hi : i < slabCount) (hk : k < (hp.slabs i).maxEntries) :
    free ((hp.slabs i).entries k).memAddr hp = .ok (hp.setSlab i ((hp.slabs i).give k)) := by
  obtain ⟨slabs, hslabs⟩ := freeLoop_ok (i := 0) (n := slabCount) (Nat.zero_le i)
    (by omega) (freePtrSlabLoop_isSome (S := hp.slabs i) hk rfl)
  have hok : free ((hp.slabs i).entries k).memAddr hp = .ok { hp with slabs := slabs } := by
    unfold free
    rw [hslabs]
    rfl
  obtain ⟨i', k', hi', hk', haddr, hres⟩ := free_cases hok
  obtain ⟨rfl, rfl⟩ := h.entry_inj hfresh hi' hi hk' hk haddr
  rw [hok, hres]

/-! ## Growing a full slab -/

/-- How many entries slab `i` can ever have. -/
def slabCapacity (i : Nat) : Nat := min slabEntryCount (slabMaxPageCount * perPage i)

theorem SlabOk.maxEntries_le (h : SlabOk i S) : S.maxEntries ≤ slabCapacity i := by
  have hmul := Nat.mul_le_mul_right (perPage i) h.currentPage_le
  have := h.maxEntries_eq
  unfold slabCapacity
  omega

/-- Below its capacity a slab has room for a page. -/
theorem SlabOk.lt_capacity_iff (h : SlabOk i S) : S.maxEntries < slabCapacity i ↔
    S.maxEntries < slabEntryCount ∧ S.currentPage < slabMaxPageCount := by
  have hpos := perPage_pos i
  have hmax := h.maxEntries_eq
  unfold slabCapacity
  constructor
  · intro hlt
    refine ⟨by omega, ?_⟩
    by_contra hpage
    have heq : S.currentPage = slabMaxPageCount := Nat.le_antisymm h.currentPage_le (by omega)
    rw [heq] at hmax
    omega
  · rintro ⟨hlt, hpage⟩
    have hmul : (S.currentPage + 1) * perPage i ≤ slabMaxPageCount * perPage i :=
      Nat.mul_le_mul_right _ hpage
    rw [Nat.succ_mul] at hmul
    omega

/-- How many entries a full slab gets with its next page. -/
def Kmemslab.newEntries (S : Kmemslab) (i : Nat) : Nat :=
  min (perPage i) (slabEntryCount - S.maxEntries)

/-- The last entry that page `q` would give to slab `i` lies in the topmost 4096 bytes. -/
def Kmemslab.TopPage (S : Kmemslab) (i : Nat) (q : UInt32) : Prop :=
  2 ^ 32 - 4096 ≤ (q + UInt32.ofNat (slabSize i * S.newEntries i)).toNat

instance (S : Kmemslab) (i : Nat) (q : UInt32) : Decidable (S.TopPage i q) :=
  inferInstanceAs (Decidable (_ ≤ _))

theorem splitPageLoop_fst (c n : Nat) (a : UInt32) (S : Kmemslab) :
    (splitPageLoop (UInt32.ofNat c) n a S).1 = a + UInt32.ofNat (c * n) := by
  induction n generalizing a S with
  | zero => simp [splitPageLoop]
  | succ n ih =>
    rw [splitPageLoop, ih, UInt32.add_assoc, ← UInt32.ofNat_add, Nat.mul_succ, Nat.add_comm c]

/-- A slab at its capacity is left alone. -/
theorem allocNewPageIfNeeded_capacity (hi : i < slabCount) (h : SlabOk i S)
    (hcap : S.maxEntries = slabCapacity i) :
    allocNewPageIfNeeded pmemAlloc (slabSize i) S s = .ok (S, s) := by
  have hlt := h.lt_capacity_iff
  have hmul := slabSize_mul_perPage hi
  have hpage := h.currentPage_le
  unfold allocNewPageIfNeeded
  dsimp only
  rw [toNat_physBlockSize, div_slabSize hi, additionalEntries_eq]
  by_cases hfree : S.freeEntries > 0
  · rw [if_pos hfree]
  · rw [if_neg hfree]
    have hover := Nat.mul_le_mul_right (slabSize i)
      (Nat.min_le_left (perPage i) (slabEntryCount - S.maxEntries))
    rw [Nat.mul_comm (perPage i), hmul] at hover
    rw [if_neg (Nat.not_lt.mpr hover)]
    split_ifs
    all_goals first | rfl | omega

/-- A full slab below its capacity gets the page that `pmem_alloc` supplies, or the last
check fires. -/
theorem allocNewPageIfNeeded_page (hi : i < slabCount) (h : SlabOk i S)
    (hfull : S.freeEntries = 0) (hcap : S.maxEntries < slabCapacity i)
    (hq : pmemAlloc s = .ok (q, t)) :
    allocNewPageIfNeeded pmemAlloc (slabSize i) S s =
      if S.TopPage i q then panic "Malloc allocated more entries than availiable!"
      else .ok (S.grow i (S.newEntries i) q, t) := by
  obtain ⟨hlt, hpage⟩ := h.lt_capacity_iff.mp hcap
  have hmul := slabSize_mul_perPage hi
  have hper := perPage_pos i
  have hadd : (if S.maxEntries + perPage i > slabEntryCount then slabEntryCount - S.maxEntries
      else perPage i) = S.newEntries i := additionalEntries_eq S i
  have hover : S.newEntries i * slabSize i ≤ 4096 := by
    rw [← hmul, Nat.mul_comm]
    exact Nat.mul_le_mul_left _ (Nat.min_le_left _ _)
  have hnew : 0 < S.newEntries i ∧ S.maxEntries + S.newEntries i ≤ slabEntryCount := by
    unfold Kmemslab.newEntries
    omega
  unfold allocNewPageIfNeeded
  rw [if_neg (by omega)]
  dsimp only
  rw [toNat_physBlockSize, div_slabSize hi, hadd, if_neg (by omega), if_neg (by omega),
    if_neg (by omega), hq, ok_bind]
  dsimp only
  rw [splitPageLoop_fst, splitPageLoop_eq]
  rw [if_neg (show ¬ S.maxEntries + S.newEntries i > slabEntryCount by omega)]
  -- adding 4096 to the last address wraps exactly at the top
  have hwrap : q + UInt32.ofNat (slabSize i * S.newEntries i) >
      q + UInt32.ofNat (slabSize i * S.newEntries i) + physBlockSize ↔ S.TopPage i q := by
    rw [gt_iff_lt, UInt32.lt_iff_toNat_lt, UInt32.toNat_add, toNat_physBlockSize]
    unfold Kmemslab.TopPage
    omega
  by_cases htop : S.TopPage i q
  · rw [if_pos (hwrap.mpr htop), if_pos htop]
  · rw [if_neg (fun hgt => htop (hwrap.mp hgt)), if_neg htop]
    rfl

/-! ## Capacity -/

/-- Slab `i` has the smallest entries that hold `size` bytes. -/
structure SmallestClass (size : UInt32) (i : Nat) : Prop where
  slab : i < slabCount
  fits : size.toNat ≤ slabSize i
  least : ∀ j, j < slabCount → size.toNat ≤ slabSize j → slabSize i ≤ slabSize j

theorem slabSize_lt (hij : i < j) (hj : j < slabCount) : slabSize j < slabSize i := by
  have hi := slabSize_mul_perPage (hij.trans hj)
  have hj' := slabSize_mul_perPage hj
  have hpos := slabSize_pos hj
  have hper : perPage i < perPage j := Nat.pow_lt_pow_right (by decide) hij
  by_contra hle
  have hmul := Nat.mul_le_mul_right (perPage i) (Nat.not_lt.mp hle)
  have hlt := Nat.mul_lt_mul_of_pos_left hper hpos
  omega

/-- The loop keeps the last slab that fits. -/
theorem mallocClassLoop_last {size : UInt32} {o : Option (Nat × Nat)} (hfits : size.toNat ≤ slabSize i)
    (hlast : ∀ j, i < j → j < m + n → slabSize j < size.toNat)
    (hi : m ≤ i ∧ i < m + n ∨ i < m ∧ o = some (i, slabSize i)) :
    mallocClassLoop size n m (slabSize m) o = some (i, slabSize i) := by
  induction n generalizing m o with
  | zero =>
    rcases hi with hi | ⟨-, rfl⟩
    · omega
    · rfl
  | succ n ih =>
    have hhalf : slabSize m / 2 = slabSize (m + 1) := by
      unfold slabSize
      rw [Nat.div_div_eq_div_mul, ← Nat.pow_succ]
    rw [mallocClassLoop, hhalf]
    apply ih
    · intro j hj hlt
      exact hlast j hj (by omega)
    · rcases hi with ⟨hle, hlt⟩ | ⟨hlt, rfl⟩
      · by_cases hmi : m = i
        · subst hmi
          rw [if_pos hfits]
          exact .inr ⟨by omega, rfl⟩
        · exact .inl ⟨by omega, by omega⟩
      · have := hlast m hlt (by omega)
        rw [if_neg (by omega)]
        exact .inr ⟨by omega, rfl⟩

theorem SmallestClass.mallocClass_eq {size : UInt32} (h : SmallestClass size i) :
    mallocClass size = some (i, slabSize i) := by
  apply mallocClassLoop_last (m := 0) h.fits
  · intro j hij hj
    by_contra hle
    have := h.least j (by omega) (by omega)
    have := slabSize_lt hij (by omega)
    omega
  · exact .inl ⟨Nat.zero_le i, by have := h.slab; omega⟩

/-- What the counters, the entries and the two searches of a heap are like. -/
structure HeapBooks (pmemAlloc : σ → Kern (UInt32 × σ)) (x : Heap σ × List Block) : Prop where
  bounds : ∀ i, i < slabCount → (x.1.slabs i).maxEntries ≤ 1000 ∧ (x.1.slabs i).currentPage ≤ 100
  free_eq : ∀ i, i < slabCount → (x.1.slabs i).freeEntries = (x.1.slabs i).freeSet.card
  current : ∀ i, i < slabCount → 0 < (x.1.slabs i).maxEntries →
    (x.1.slabs i).currentEntry < (x.1.slabs i).maxEntries
  distinct : ∀ i j k m, i < slabCount → j < slabCount → k < (x.1.slabs i).maxEntries →
    m < (x.1.slabs j).maxEntries →
    ((x.1.slabs i).entries k).memAddr = ((x.1.slabs j).entries m).memAddr → i = j ∧ k = m
  /-- `free` of a live pointer releases the one entry that has its address. -/
  release : ∀ b ∈ x.2, ∃ k, k < (x.1.slabs b.slab).maxEntries ∧
    ((x.1.slabs b.slab).entries k).memAddr = b.addr ∧
    ((x.1.slabs b.slab).entries k).memFree = 0 ∧
    free b.addr x.1 = .ok (x.1.setSlab b.slab ((x.1.slabs b.slab).give k))
  /-- The search of `malloc` ends at a free entry. -/
  search : ∀ i S t, i < slabCount →
    allocNewPageIfNeeded pmemAlloc (slabSize i) (x.1.slabs i) x.1.pmem = .ok (S, t) →
    0 < S.freeEntries →
    ∃ k, mallocLoop S (S.maxEntries + 1) S.currentEntry = .ok k ∧ k ∈ S.freeSet

/-- While `pmem_alloc` supplies a page, `malloc` panics exactly when the slab that serves
the request has all its live blocks. -/
def ExactCapacity (pmemAlloc : σ → Kern (UInt32 × σ)) (x : Heap σ × List Block) : Prop :=
  ∀ size i q t, SmallestClass size i → pmemAlloc x.1.pmem = .ok (q, t) →
    ((∃ message, malloc pmemAlloc size x.1 = panic message) ↔
      liveCount x.2 i = min 1000 (100 * (4096 / slabSize i)))

/-- No full slab would get the page at the top of the address space. -/
def NoTopPage (pmemAlloc : σ → Kern (UInt32 × σ)) (hp : Heap σ) : Prop :=
  ∀ i q t, i < slabCount → (hp.slabs i).freeEntries = 0 →
    (hp.slabs i).maxEntries < slabCapacity i → pmemAlloc hp.pmem = .ok (q, t) →
    ¬ (hp.slabs i).TopPage i q

section Books

variable {x : Heap σ × List Block}

theorem HeapInv.books (h : HeapInv pmemAlloc s x) (hc : Counted x)
    (hfresh : FreshPages pmemAlloc s) : HeapBooks pmemAlloc x where
  bounds i hi := by
    have hslab := h.slab i hi
    have hmax : (x.1.slabs i).maxEntries ≤ slabEntryCount := by
      rw [hslab.maxEntries_eq]
      exact Nat.min_le_left _ _
    exact ⟨hmax, hslab.currentPage_le⟩
  free_eq i hi := (hc.free i hi).symm
  current i hi hpos := by
    rcases (h.slab i hi).current with hcur | ⟨-, h0, -⟩
    · exact hcur
    · omega
  distinct i j k m hi hj hk hm heq := h.entry_inj hfresh hi hj hk hm heq
  release b hb := by
    obtain ⟨hi, k, hk, haddr, hused⟩ := h.live b hb
    refine ⟨k, hk, haddr, hused, ?_⟩
    rw [← haddr]
    exact h.toHeapLayout.free_ok hfresh hi hk
  search i S t hi halloc hpos := by
    have hslab := h.slab i hi
    rcases allocNewPageIfNeeded_cases hi hslab halloc with ⟨-, rfl, -⟩ |
      ⟨h0, hlt, hpage, q, -, rfl⟩
    · exact hslab.search (hc.free i hi) hpos
    · apply (hslab.grow h0 hlt hpage q rfl).search _ hpos
      rw [hslab.freeSet_grow h0, Nat.card_Ico]
      show _ = (x.1.slabs i).freeEntries + _
      omega

/-- When `malloc` panics, given a page: when its slab is exhausted, or when the page is the
topmost one. -/
theorem HeapInv.malloc_panics_iff {size : UInt32} (h : HeapInv pmemAlloc s x) (hc : Counted x)
    (hfresh : FreshPages pmemAlloc s) (hclass : mallocClass size = some (i, slabSize i))
    (hq : pmemAlloc x.1.pmem = .ok (q, t)) :
    (∃ message, malloc pmemAlloc size x.1 = panic message) ↔
      (x.1.slabs i).freeEntries = 0 ∧
        ((x.1.slabs i).maxEntries = slabCapacity i ∨ (x.1.slabs i).TopPage i q) := by
  obtain ⟨hi, -, -⟩ := mallocClass_spec hclass
  have hslab := h.slab i hi
  have hsearch := (h.books hc hfresh).search i
  -- with a free entry in the slab the call returns
  have hreturns : ∀ S u, allocNewPageIfNeeded pmemAlloc (slabSize i) (x.1.slabs i) x.1.pmem =
      .ok (S, u) → 0 < S.freeEntries → ¬ ∃ message, malloc pmemAlloc size x.1 = panic message := by
    rintro S u halloc hpos ⟨message, hpanic⟩
    obtain ⟨k, hk, -⟩ := hsearch S u hi halloc hpos
    simp only [malloc, hclass, halloc, ok_bind] at hpanic
    rw [if_neg (by omega), hk] at hpanic
    exact absurd hpanic.symm (panic_ne_ok _ _)
  by_cases h0 : (x.1.slabs i).freeEntries = 0
  · rcases Nat.lt_or_eq_of_le hslab.maxEntries_le with hcap | hcap
    · have halloc := allocNewPageIfNeeded_page hi hslab h0 hcap hq
      by_cases htop : (x.1.slabs i).TopPage i q
      · refine iff_of_true ?_ ⟨h0, .inr htop⟩
        rw [if_pos htop] at halloc
        refine ⟨"Malloc allocated more entries than availiable!", ?_⟩
        simp only [malloc, hclass, halloc, panic_bind]
      · rw [if_neg htop] at halloc
        have hnew : 0 < (x.1.slabs i).newEntries i := by
          have := hslab.lt_capacity_iff.mp hcap
          have := perPage_pos i
          unfold Kmemslab.newEntries
          omega
        refine iff_of_false (hreturns _ _ halloc (Nat.add_pos_right _ hnew)) ?_
        rintro ⟨-, hfull | htop'⟩
        · omega
        · exact htop htop'
    · have halloc : allocNewPageIfNeeded pmemAlloc (slabSize i) (x.1.slabs i) x.1.pmem =
          .ok (x.1.slabs i, x.1.pmem) := allocNewPageIfNeeded_capacity hi hslab hcap
      refine iff_of_true ?_ ⟨h0, .inl hcap⟩
      refine ⟨"malloc failed! no free memory exists!", ?_⟩
      simp only [malloc, hclass, halloc, ok_bind]
      rw [if_pos (by omega)]
  · have halloc : allocNewPageIfNeeded pmemAlloc (slabSize i) (x.1.slabs i) x.1.pmem =
        .ok (x.1.slabs i, x.1.pmem) := by
      unfold allocNewPageIfNeeded
      rw [if_pos (by omega)]
    exact iff_of_false (hreturns _ _ halloc (by omega)) fun hfull => h0 hfull.1

/-- The live blocks of a slab are its entries that are not free. -/
theorem Counted.liveCount_eq_capacity_iff (hc : Counted x) (hi : i < slabCount)
    (hslab : SlabOk i (x.1.slabs i)) : liveCount x.2 i = slabCapacity i ↔
      (x.1.slabs i).freeEntries = 0 ∧ (x.1.slabs i).maxEntries = slabCapacity i := by
  have hused := hc.used i hi
  have hle := hslab.maxEntries_le
  omega

theorem slabCapacity_eq (hi : i < slabCount) :
    slabCapacity i = min 1000 (100 * (4096 / slabSize i)) := by
  rw [div_slabSize hi]
  rfl

theorem HeapInv.exactCapacity_iff (h : HeapInv pmemAlloc s x) (hc : Counted x)
    (hfresh : FreshPages pmemAlloc s) : ExactCapacity pmemAlloc x ↔ NoTopPage pmemAlloc x.1 := by
  constructor
  · intro hexact i q t hi h0 hcap hq htop
    have hslab := h.slab i hi
    have hsmallest : SmallestClass (UInt32.ofNat (slabSize i)) i := by
      have hle : slabSize i ≤ 4096 := Nat.div_le_self _ _
      have hval : (UInt32.ofNat (slabSize i)).toNat = slabSize i := by
        rw [UInt32.toNat_ofNat']
        omega
      refine ⟨hi, hval.le, fun j _ hj => hval ▸ hj⟩
    have hiff := hexact _ i q t hsmallest hq
    rw [← slabCapacity_eq hi, hc.liveCount_eq_capacity_iff hi hslab,
      h.malloc_panics_iff hc hfresh hsmallest.mallocClass_eq hq] at hiff
    have := (hiff.mp ⟨h0, .inr htop⟩).2
    omega
  · intro hno size i q t hclass hq
    have hslab := h.slab i hclass.slab
    rw [← slabCapacity_eq hclass.slab, hc.liveCount_eq_capacity_iff hclass.slab hslab,
      h.malloc_panics_iff hc hfresh hclass.mallocClass_eq hq]
    constructor
    · rintro ⟨h0, hcap | htop⟩
      · exact ⟨h0, hcap⟩
      · refine ⟨h0, ?_⟩
        by_contra hne
        exact hno i q t hclass.slab h0 (Nat.lt_of_le_of_ne hslab.maxEntries_le hne) hq htop
    · rintro ⟨h0, hcap⟩
      exact ⟨h0, .inl hcap⟩

/-- **Bookkeeping and capacity.** In every state of a run from boot the counters, entries
and searches of the heap are in order, and `malloc` panics exactly when its slab has
`min 1000 (100 * (4096 / c))` live blocks, unless `pmem_alloc` is about to give a full
slab the page at the top of the address space. -/
theorem heap_capacity_iff {tr : List ((Heap σ × List Block) × HeapOp)}
    (hfresh : FreshPages pmemAlloc s)
    (htr : Trace (HeapStep pmemAlloc) (Heap.boot s, []) tr x) :
    HeapBooks pmemAlloc x ∧ (ExactCapacity pmemAlloc x ↔ NoTopPage pmemAlloc x.1) := by
  have hinv : HeapInv pmemAlloc s x ∧ Counted x := by
    refine (htr.invariant (I := fun x => HeapInv pmemAlloc s x ∧ Counted x) ⟨?_, .boot s⟩ ?_).1
    · exact ⟨.boot pmemAlloc s, fun _ hb => absurd hb List.not_mem_nil, List.nodup_nil⟩
    · rintro x op y ⟨h, hc⟩ hs
      exact ⟨h.step hfresh hs, hc.step h hfresh hs⟩
  exact ⟨hinv.1.books hinv.2 hfresh, hinv.1.exactCapacity_iff hinv.2 hfresh⟩

end Books

theorem heap_capacity_iff_one : ∃ hp : Heap Nat,
    malloc pagesUpward 2048 (Heap.boot 1) = .ok (6144, hp) ∧
    HeapBooks pagesUpward (hp, [⟨6144, 1⟩]) ∧ ExactCapacity pagesUpward (hp, [⟨6144, 1⟩]) := by
  obtain ⟨hp, hm, hnext, htop⟩ : ∃ hp : Heap Nat,
      malloc pagesUpward 2048 (Heap.boot 1) = .ok (6144, hp) ∧
      pagesUpward hp.pmem = .ok (8192, 3) ∧
      ∀ i < slabCount, ¬ (hp.slabs i).TopPage i 8192 :=
    ⟨_, rfl, rfl, by decide⟩
  obtain ⟨hbooks, hiff⟩ := heap_capacity_iff (x := (hp, [⟨6144, 1⟩])) (pagesUpward_fresh 1)
    (Trace.start.next (.malloc (c := 2048) hm rfl))
  refine ⟨hp, hm, hbooks, hiff.mpr ?_⟩
  intro i q t hi _ _ halloc
  obtain ⟨rfl, -⟩ := Prod.mk.inj (Except.ok.inj (hnext.symm.trans halloc))
  exact htop i hi

/-- The first `malloc` of 4096 bytes, on the page before the last one of the address space:
nothing is live, and it panics. -/
theorem malloc_panics_at_top :
    pagesUpward 0xFFFFE = .ok (0xFFFFE000, 0xFFFFF) ∧
    malloc pagesUpward 4096 (Heap.boot 0xFFFFE) =
      panic "Malloc allocated more entries than availiable!" ∧
    liveCount [] 0 ≠ min 1000 (100 * (4096 / slabSize 0)) ∧
    ¬ ExactCapacity pagesUpward (Heap.boot 0xFFFFE, []) := by
  have hpanic : malloc pagesUpward 4096 (Heap.boot 0xFFFFE) =
      panic "Malloc allocated more entries than availiable!" := rfl
  refine ⟨rfl, hpanic, by decide, ?_⟩
  intro hexact
  have hclass : SmallestClass 4096 0 := ⟨by decide, by decide, by decide⟩
  have hcount := (hexact 4096 0 0xFFFFE000 0xFFFFF hclass rfl).mp ⟨_, hpanic⟩
  exact absurd hcount (by decide)

end KoizOs
