import KoizOs.Heap.Slab
import KoizOs.Lib.Run

/-!
# The blocks a client of the heap holds

A run of `malloc` and `free` in which only live pointers are freed.  `HeapSafe`: every
live block lies inside a page of its slab and no two of them overlap.  As no page is ever
given to two slabs, the second follows from the first, and the first fails exactly when
`malloc` takes the last entry of a page (`SlabOk.entry_inside_iff`).

| result | content |
|--------|---------|
| `HeapInv.step` | what every call keeps |
| `HeapInv.heapSafe_iff` | blocks inside their pages are disjoint |
| `HeapInv.safe_step` | when a call keeps the heap safe |
| `heap_safe_iff` | so over runs |
-/

namespace KoizOs

open Function Lib

/-- A live pointer, with the slab it was taken from; it owns `slabSize slab` bytes. -/
@[ext] structure Block where
  addr : UInt32
  slab : Nat
deriving DecidableEq

inductive HeapOp where
  | malloc (size : UInt32)
  | free (ptr : UInt32)

variable {σ : Type}

section Run

variable (pmemAlloc : σ → Kern (UInt32 × σ))

/-- One call that returned, and the list of live pointers. -/
inductive HeapStep : Heap σ × List Block → HeapOp → Heap σ × List Block → Prop
  | malloc {hp hp' : Heap σ} {live : List Block} {size p : UInt32} {i c : Nat} :
      malloc pmemAlloc size hp = .ok (p, hp') → mallocClass size = some (i, c) →
      HeapStep (hp, live) (.malloc size) (hp', ⟨p, i⟩ :: live)
  | free {hp hp' : Heap σ} {live : List Block} {b : Block} :
      b ∈ live → free b.addr hp = .ok hp' →
      HeapStep (hp, live) (.free b.addr) (hp', live.erase b)

end Run

def Block.Inside (hp : Heap σ) (b : Block) : Prop :=
  KoizOs.Inside (hp.slabs b.slab) (slabSize b.slab) b.addr

def Block.Disjoint (a b : Block) : Prop :=
  a.addr.toNat + slabSize a.slab ≤ b.addr.toNat ∨ b.addr.toNat + slabSize b.slab ≤ a.addr.toNat

/-- Every live block is inside a page of its slab, and no two overlap. -/
def HeapSafe (x : Heap σ × List Block) : Prop :=
  (∀ b ∈ x.2, b.Inside x.1) ∧ x.2.Pairwise Block.Disjoint

/-! ## The layout of the heap -/

/-- The slabs are in order, and the pages they hold are different pages from `pmem_alloc`. -/
structure HeapLayout (pmemAlloc : σ → Kern (UInt32 × σ)) (s : σ) (hp : Heap σ) : Prop where
  slab : ∀ i, i < slabCount → SlabOk i (hp.slabs i)
  pages : ∃ ps, Allocs pmemAlloc s ps hp.pmem ∧
    ∀ i j, i < slabCount → j < (hp.slabs i).currentPage → (hp.slabs i).pages j ∈ ps
  inj : ∀ i i' j j', i < slabCount → i' < slabCount → j < (hp.slabs i).currentPage →
    j' < (hp.slabs i').currentPage → (hp.slabs i).pages j = (hp.slabs i').pages j' →
    i = i' ∧ j = j'

/-- `a` is the address of a used entry. -/
def Kmemslab.UsedAt (S : Kmemslab) (a : UInt32) : Prop :=
  ∃ k, k < S.maxEntries ∧ (S.entries k).memAddr = a ∧ (S.entries k).memFree = 0

/-- The live blocks are the addresses of different used entries. -/
structure HeapInv (pmemAlloc : σ → Kern (UInt32 × σ)) (s : σ) (x : Heap σ × List Block) : Prop
    extends HeapLayout pmemAlloc s x.1 where
  live : ∀ b ∈ x.2, b.slab < slabCount ∧ (x.1.slabs b.slab).UsedAt b.addr
  nodup : x.2.Nodup

/-- The heap with slab `i` replaced. -/
def Heap.setSlab (hp : Heap σ) (i : Nat) (S : Kmemslab) : Heap σ :=
  { hp with slabs := update hp.slabs i S }

/-- The heap after slab `i` was given `n` entries on the new page `q`. -/
def Heap.grow (hp : Heap σ) (i n : Nat) (q : UInt32) (t : σ) : Heap σ where
  slabs := (hp.setSlab i ((hp.slabs i).grow i n q)).slabs
  pmem := t

variable {pmemAlloc : σ → Kern (UInt32 × σ)} {s t : σ} {hp hp' : Heap σ} {live : List Block}
  {i k : Nat} {S : Kmemslab} {b : Block}

@[simp] theorem setSlab_self (hp : Heap σ) (i : Nat) (S : Kmemslab) :
    (hp.setSlab i S).slabs i = S := update_self ..

@[simp] theorem setSlab_pmem (hp : Heap σ) (i : Nat) (S : Kmemslab) :
    (hp.setSlab i S).pmem = hp.pmem := rfl

@[simp] theorem grow_self (hp : Heap σ) (i n : Nat) (q : UInt32) (t : σ) :
    (hp.grow i n q t).slabs i = (hp.slabs i).grow i n q := update_self ..

theorem setSlab_of_ne {j : Nat} (h : j ≠ i) : (hp.setSlab i S).slabs j = hp.slabs j :=
  update_of_ne h _ _

/-- A field that slab `i` keeps, every slab keeps. -/
theorem setSlab_congr {α : Type} (f : Kmemslab → α) (h : f S = f (hp.slabs i)) (j : Nat) :
    f ((hp.setSlab i S).slabs j) = f (hp.slabs j) := by
  by_cases hj : j = i
  · subst hj
    rw [setSlab_self, h]
  · rw [setSlab_of_ne hj]

namespace HeapLayout

theorem boot (pmemAlloc : σ → Kern (UInt32 × σ)) (s : σ) :
    HeapLayout pmemAlloc s (Heap.boot s) where
  slab i _ := boot_slabOk i
  pages := ⟨[], .nil, fun _ _ _ hj => absurd hj (Nat.not_lt_zero _)⟩
  inj _ _ _ _ _ _ hj := absurd hj (Nat.not_lt_zero _)

theorem aligned (h : HeapLayout pmemAlloc s hp) (hfresh : FreshPages pmemAlloc s)
    (hi : i < slabCount) {j : Nat} (hj : j < (hp.slabs i).currentPage) :
    PageAligned ((hp.slabs i).pages j) := by
  obtain ⟨ps, hps, hmem⟩ := h.pages
  exact hfresh.aligned ps _ hps _ (hmem i j hi hj)

/-- An address belongs to one entry of one slab. -/
theorem entry_inj (h : HeapLayout pmemAlloc s hp) (hfresh : FreshPages pmemAlloc s) {i' k' : Nat}
    (hi : i < slabCount) (hi' : i' < slabCount) (hk : k < (hp.slabs i).maxEntries)
    (hk' : k' < (hp.slabs i').maxEntries)
    (heq : ((hp.slabs i).entries k).memAddr = ((hp.slabs i').entries k').memAddr) :
    i = i' ∧ k = k' := by
  have hpg := (h.slab i hi).page_lt hk
  have hpg' := (h.slab i' hi').page_lt hk'
  obtain ⟨hlow, hhigh⟩ := entryOffset_range hi k
  obtain ⟨hlow', hhigh'⟩ := entryOffset_range hi' k'
  have hpos := slabSize_pos hi
  have hpos' := slabSize_pos hi'
  rw [(h.slab i hi).memAddr_eq k hk, (h.slab i' hi').memAddr_eq k' hk'] at heq
  obtain ⟨hpage, hoff⟩ := page_add_offset_inj (h.aligned hfresh hi hpg) (h.aligned hfresh hi' hpg')
    (by omega) (by omega) hhigh hhigh' heq
  obtain ⟨rfl, hdiv⟩ := h.inj _ _ _ _ hi hi' hpg hpg' hpage
  have hmod : k % perPage i = k' % perPage i := by
    have := Nat.eq_of_mul_eq_mul_left hpos hoff
    omega
  refine ⟨rfl, ?_⟩
  rw [← Nat.div_add_mod k (perPage i), ← Nat.div_add_mod k' (perPage i), hdiv, hmod]

/-- Replacing a slab by one with the same pages. -/
theorem setSlab (h : HeapLayout pmemAlloc s hp) (hS : SlabOk i S)
    (hpages : S.pages = (hp.slabs i).pages) (hcount : S.currentPage = (hp.slabs i).currentPage) :
    HeapLayout pmemAlloc s (hp.setSlab i S) := by
  have hp' := fun j => setSlab_congr Kmemslab.pages hpages j
  have hc' := fun j => setSlab_congr Kmemslab.currentPage hcount j
  refine ⟨?_, ?_, ?_⟩
  · intro j hj
    by_cases hji : j = i
    · subst hji
      rw [setSlab_self]
      exact hS
    · rw [setSlab_of_ne hji]
      exact h.slab j hj
  · simpa only [hp', hc', setSlab_pmem] using h.pages
  · simpa only [hp', hc'] using h.inj

/-- A page of the grown heap is the new one, the last of its slab, or one of the old heap. -/
theorem page_grow_cases {n j l : Nat} {p : UInt32}
    (hl : l < ((hp.setSlab i ((hp.slabs i).grow i n p)).slabs j).currentPage) :
    (j = i ∧ l = (hp.slabs i).currentPage ∧
      ((hp.setSlab i ((hp.slabs i).grow i n p)).slabs j).pages l = p) ∨
    (l < (hp.slabs j).currentPage ∧
      ((hp.setSlab i ((hp.slabs i).grow i n p)).slabs j).pages l = (hp.slabs j).pages l) := by
  by_cases hj : j = i
  · subst hj
    rw [setSlab_self] at hl ⊢
    by_cases hlast : l = (hp.slabs j).currentPage
    · left
      refine ⟨rfl, hlast, ?_⟩
      rw [hlast]
      exact update_self ..
    · right
      have hl' : l < (hp.slabs j).currentPage + 1 := hl
      exact ⟨by omega, update_of_ne hlast _ _⟩
  · rw [setSlab_of_ne hj] at hl ⊢
    exact .inr ⟨hl, rfl⟩

/-- Giving a slab a new page. -/
theorem grow (h : HeapLayout pmemAlloc s hp) (hfresh : FreshPages pmemAlloc s) {n : Nat}
    {p : UInt32} (hS : SlabOk i ((hp.slabs i).grow i n p)) (hq : pmemAlloc hp.pmem = .ok (p, t)) :
    HeapLayout pmemAlloc s (hp.grow i n p t) := by
  obtain ⟨ps, hps, hmem⟩ := h.pages
  have hps' := hps.snoc hq
  have hnew : p ∉ ps := by
    have hnd := hfresh.nodup _ _ hps'
    rw [← List.concat_eq_append, List.nodup_concat] at hnd
    exact hnd.1
  refine ⟨?_, ⟨ps ++ [p], hps', ?_⟩, ?_⟩
  · intro j hj
    show SlabOk j ((hp.setSlab i _).slabs j)
    by_cases hji : j = i
    · subst hji
      rw [setSlab_self]
      exact hS
    · rw [setSlab_of_ne hji]
      exact h.slab j hj
  · intro j l hj hl
    show ((hp.setSlab i _).slabs j).pages l ∈ ps ++ [p]
    rcases page_grow_cases hl with ⟨-, -, heq⟩ | ⟨hl', heq⟩
    · rw [heq]
      simp
    · rw [heq]
      exact List.mem_append_left _ (hmem j l hj hl')
  · intro j j' l l' hj hj' hl hl' heq
    have heq' : ((hp.setSlab i ((hp.slabs i).grow i n p)).slabs j).pages l =
      ((hp.setSlab i ((hp.slabs i).grow i n p)).slabs j').pages l' := heq
    rcases page_grow_cases hl with ⟨rfl, rfl, hpg⟩ | ⟨hlt, hpg⟩
    · rcases page_grow_cases hl' with ⟨rfl, rfl, -⟩ | ⟨hlt', hpg'⟩
      · exact ⟨rfl, rfl⟩
      · rw [hpg, hpg'] at heq'
        exact absurd (hmem j' l' hj' hlt') (heq' ▸ hnew)
    · rcases page_grow_cases hl' with ⟨rfl, rfl, hpg'⟩ | ⟨hlt', hpg'⟩
      · rw [hpg, hpg'] at heq'
        exact absurd (hmem j l hj hlt) (heq' ▸ hnew)
      · rw [hpg, hpg'] at heq'
        exact h.inj j j' l l' hj hj' hlt hlt' heq'

end HeapLayout

/-! ## The calls -/

theorem freePtrSlabLoop_cases {ptr : UInt32} {n : Nat} {S' : Kmemslab}
    (h : freePtrSlabLoop S ptr n = some S') :
    ∃ k, k < n ∧ (S.entries k).memAddr = ptr ∧ S' = S.give k := by
  induction n with
  | zero => cases h
  | succ n ih =>
    unfold freePtrSlabLoop at h
    split at h
    · next heq => exact ⟨n, by omega, heq, (Option.some.inj h).symm⟩
    · obtain ⟨k, hk, hrest⟩ := ih h
      exact ⟨k, by omega, hrest⟩

theorem freeLoop_cases {ptr : UInt32} {n i : Nat} {slabs slabs' : Nat → Kmemslab}
    (h : freeLoop ptr n i slabs = .ok slabs') :
    ∃ j k, j < i + n ∧ k < (slabs j).maxEntries ∧ ((slabs j).entries k).memAddr = ptr ∧
      slabs' = update slabs j ((slabs j).give k) := by
  induction n generalizing i with
  | zero => exact absurd h (panic_ne_ok _ _)
  | succ n ih =>
    unfold freeLoop at h
    split at h
    · next S hS =>
      obtain ⟨k, hk, haddr, rfl⟩ := freePtrSlabLoop_cases hS
      exact ⟨i, k, by omega, hk, haddr, (Except.ok.inj h).symm⟩
    · obtain ⟨j, k, hj, hrest⟩ := ih h
      exact ⟨j, k, by omega, hrest⟩

theorem free_cases {ptr : UInt32} (h : free ptr hp = .ok hp') :
    ∃ i k, i < slabCount ∧ k < (hp.slabs i).maxEntries ∧
      ((hp.slabs i).entries k).memAddr = ptr ∧ hp' = hp.setSlab i ((hp.slabs i).give k) := by
  obtain ⟨slabs, hloop, hres⟩ := bind_eq_ok.mp h
  obtain rfl := Except.ok.inj hres
  obtain ⟨i, k, hi, hk, haddr, rfl⟩ := freeLoop_cases hloop
  exact ⟨i, k, by omega, hk, haddr, rfl⟩

/-- `hp₁` is `hp` with a free entry in slab `i`: `hp` itself if it has one, else `hp` with
a new page for that slab. -/
inductive MakesRoom (pmemAlloc : σ → Kern (UInt32 × σ)) (i : Nat) (hp : Heap σ) : Heap σ → Prop
  | had : 0 < (hp.slabs i).freeEntries → MakesRoom pmemAlloc i hp hp
  | page {n : Nat} {q : UInt32} {t : σ} :
      (hp.slabs i).freeEntries = 0 → 0 < n → pmemAlloc hp.pmem = .ok (q, t) →
      SlabOk i ((hp.slabs i).grow i n q) → MakesRoom pmemAlloc i hp (hp.grow i n q t)

/-- A call of `malloc` that returned made room in its slab and took the next free entry. -/
theorem malloc_cases {size p : UInt32} (hl : HeapLayout pmemAlloc s hp)
    (h : malloc pmemAlloc size hp = .ok (p, hp')) :
    ∃ i hp₁ k, mallocClass size = some (i, slabSize i) ∧ i < slabCount ∧
      MakesRoom pmemAlloc i hp hp₁ ∧ NextFree (hp₁.slabs i) k ∧
      p = ((hp₁.slabs i).entries k).memAddr ∧ hp' = hp₁.setSlab i ((hp₁.slabs i).take k) := by
  unfold malloc at h
  split at h
  · exact absurd h (panic_ne_ok _ _)
  · next i c hclass =>
    obtain ⟨hi, rfl, -⟩ := mallocClass_spec hclass
    obtain ⟨⟨S, t⟩, halloc, h⟩ := bind_eq_ok.mp h
    have hS := hl.slab i hi
    dsimp only at h
    split at h
    · exact absurd h (panic_ne_ok _ _)
    · next hfree =>
      obtain ⟨k, hloop, h⟩ := bind_eq_ok.mp h
      obtain ⟨rfl, rfl⟩ := Prod.mk.inj (Except.ok.inj h)
      have hnext : SlabOk i S → NextFree S k := by
        intro hS'
        rcases hS'.current with hcur | ⟨-, -, h0⟩
        · refine mallocLoop_spec (n := S.maxEntries + 1) (d := 0) hcur (by omega)
            (fun e he => absurd he (Nat.not_lt_zero e)) ?_
          show mallocLoop S (S.maxEntries + 1) (S.currentEntry % S.maxEntries) = .ok k
          rw [Nat.mod_eq_of_lt hcur]
          exact hloop
        · omega
      rcases allocNewPageIfNeeded_cases hi hS halloc with ⟨hpos, rfl, rfl⟩ |
        ⟨h0, hlt, hpage, q, hq, rfl⟩
      · exact ⟨i, hp, k, hclass, hi, .had (by omega), hnext hS, rfl, rfl⟩
      · have hper := perPage_pos i
        have hgrow := hS.grow h0 hlt hpage q rfl
        refine ⟨i, hp.grow i _ q t, k, hclass, hi, .page h0 (by omega) hq hgrow, ?_⟩
        rw [grow_self]
        refine ⟨hnext hgrow, rfl, ?_⟩
        simp only [Heap.setSlab, Heap.grow, update_idem]

/-! ## The invariant over a run -/

theorem usedAt_grow {a : UInt32} {n : Nat} {q : UInt32} (h : S.UsedAt a) :
    (S.grow i n q).UsedAt a := by
  obtain ⟨k, hk, haddr, hused⟩ := h
  refine ⟨k, Nat.lt_add_right n hk, ?_⟩
  simp only [Kmemslab.grow]
  rw [if_neg (by omega)]
  exact ⟨haddr, hused⟩

theorem usedAt_take {a : UInt32} (h : S.UsedAt a) : (S.take k).UsedAt a := by
  obtain ⟨m, hm, haddr, hused⟩ := h
  refine ⟨m, hm, (take_memAddr S k m).trans haddr, ?_⟩
  rw [take_memFree]
  split
  · rfl
  · exact hused

theorem usedAt_take_self (hk : k < S.maxEntries) : (S.take k).UsedAt (S.entries k).memAddr := by
  refine ⟨k, hk, take_memAddr S k k, ?_⟩
  rw [take_memFree, if_pos rfl]

/-- Entry `k` is given back, so entries with another address stay used. -/
theorem usedAt_give {a : UInt32} (h : S.UsedAt a) (hne : (S.entries k).memAddr ≠ a) :
    (S.give k).UsedAt a := by
  obtain ⟨m, hm, haddr, hused⟩ := h
  refine ⟨m, hm, (give_memAddr S k m).trans haddr, ?_⟩
  rw [give_memFree, if_neg]
  · exact hused
  · rintro rfl
    exact hne haddr

/-- Only what happens in slab `i` matters for what is used after it was replaced. -/
theorem usedAt_setSlab (h : (hp.slabs b.slab).UsedAt b.addr) (hi : b.slab = i → S.UsedAt b.addr) :
    ((hp.setSlab i S).slabs b.slab).UsedAt b.addr := by
  by_cases hslab : b.slab = i
  · rw [hslab, setSlab_self]
    exact hi hslab
  · rw [setSlab_of_ne hslab]
    exact h

namespace HeapInv

/-- Two live pointers with the same address are the same. -/
theorem live_inj (h : HeapInv pmemAlloc s (hp, live)) (hfresh : FreshPages pmemAlloc s)
    {a b : Block} (ha : a ∈ live) (hb : b ∈ live) (heq : a.addr = b.addr) : a = b := by
  obtain ⟨hia, k, hk, hka, -⟩ := h.live a ha
  obtain ⟨hib, m, hm, hmb, -⟩ := h.live b hb
  obtain ⟨hslab, -⟩ := h.entry_inj hfresh hia hib hk hm (hka.trans (heq.trans hmb.symm))
  exact Block.ext heq hslab

/-- The live blocks stay entries of a slab that grows. -/
theorem grow (h : HeapInv pmemAlloc s (hp, live)) (hfresh : FreshPages pmemAlloc s) {n : Nat}
    {q : UInt32} (hS : SlabOk i ((hp.slabs i).grow i n q)) (hq : pmemAlloc hp.pmem = .ok (q, t)) :
    HeapInv pmemAlloc s (hp.grow i n q t, live) := by
  refine ⟨h.toHeapLayout.grow hfresh hS hq, ?_, h.nodup⟩
  intro b hb
  obtain ⟨hslab, hused⟩ := h.live b hb
  refine ⟨hslab, usedAt_setSlab hused ?_⟩
  rintro rfl
  exact usedAt_grow hused

theorem makesRoom {hp₁ : Heap σ} (h : HeapInv pmemAlloc s (hp, live))
    (hfresh : FreshPages pmemAlloc s) (hroom : MakesRoom pmemAlloc i hp hp₁) :
    HeapInv pmemAlloc s (hp₁, live) := by
  cases hroom with
  | had _ => exact h
  | page _ _ hq hS => exact h.grow hfresh hS hq

/-- A free entry becomes a live block. -/
theorem take (h : HeapInv pmemAlloc s (hp, live)) (hfresh : FreshPages pmemAlloc s)
    (hi : i < slabCount) (hk : k < (hp.slabs i).maxEntries)
    (hfree : ((hp.slabs i).entries k).memFree ≠ 0) :
    HeapInv pmemAlloc s (hp.setSlab i ((hp.slabs i).take k),
      ⟨((hp.slabs i).entries k).memAddr, i⟩ :: live) := by
  -- a live block is used, so it is another entry
  have hnew : ⟨((hp.slabs i).entries k).memAddr, i⟩ ∉ live := by
    intro hmem
    obtain ⟨-, m, hm, haddr, hused⟩ := h.live _ hmem
    obtain ⟨-, rfl⟩ := h.entry_inj hfresh hi hi hm hk haddr
    exact hfree hused
  refine ⟨h.setSlab ((h.slab i hi).take hk hfree) rfl rfl, ?_,
    List.nodup_cons.mpr ⟨hnew, h.nodup⟩⟩
  intro b hb
  rcases List.mem_cons.mp hb with rfl | hb
  · refine ⟨hi, ?_⟩
    rw [setSlab_self]
    exact usedAt_take_self hk
  · obtain ⟨hslab, hused⟩ := h.live b hb
    refine ⟨hslab, usedAt_setSlab hused ?_⟩
    rintro rfl
    exact usedAt_take hused

/-- A live block becomes a free entry. -/
theorem give (h : HeapInv pmemAlloc s (hp, live)) (hfresh : FreshPages pmemAlloc s)
    (hb : b ∈ live) (hi : i < slabCount) (hk : k < (hp.slabs i).maxEntries)
    (haddr : ((hp.slabs i).entries k).memAddr = b.addr) :
    HeapInv pmemAlloc s (hp.setSlab i ((hp.slabs i).give k), live.erase b) := by
  refine ⟨h.setSlab ((h.slab i hi).give hk) rfl rfl, ?_, h.nodup.erase b⟩
  intro b' hb'
  obtain ⟨hne, hlive⟩ := (h.nodup.mem_erase_iff).mp hb'
  obtain ⟨hslab, hused⟩ := h.live b' hlive
  refine ⟨hslab, usedAt_setSlab hused ?_⟩
  rintro rfl
  apply usedAt_give hused
  intro heq
  exact hne (h.live_inj hfresh hlive hb (heq.symm.trans haddr))

end HeapInv

/-! ## Safety -/

variable {x y : Heap σ × List Block} {op : HeapOp}

/-- Every call keeps the invariant. -/
theorem HeapInv.step (h : HeapInv pmemAlloc s x) (hfresh : FreshPages pmemAlloc s)
    (hs : HeapStep pmemAlloc x op y) : HeapInv pmemAlloc s y := by
  cases hs with
  | @malloc hp hp' live size p i c hm hclass =>
    obtain ⟨j, hp₁, k, hclass', hj, hroom, hnext, rfl, rfl⟩ := malloc_cases h.toHeapLayout hm
    obtain ⟨rfl, -⟩ := Prod.mk.inj (Option.some.inj (hclass'.symm.trans hclass))
    exact (h.makesRoom hfresh hroom).take hfresh hj hnext.lt hnext.free
  | @free hp hp' live b hb hf =>
    obtain ⟨i, k, hi, hk, haddr, rfl⟩ := free_cases hf
    exact h.give hfresh hb hi hk haddr

/-- Blocks of one size at different multiples of it. -/
theorem Block.disjoint_of_dvd {a b : Block} (hslab : a.slab = b.slab) (hne : a.addr ≠ b.addr)
    (ha : slabSize a.slab ∣ a.addr.toNat) (hb : slabSize b.slab ∣ b.addr.toNat) :
    a.Disjoint b := by
  unfold Block.Disjoint
  rw [← hslab] at hb ⊢
  have hself := Nat.dvd_refl (slabSize a.slab)
  have hne' : a.addr.toNat ≠ b.addr.toNat := fun heq => hne (UInt32.toNat_inj.mp heq)
  rcases Nat.lt_or_gt_of_ne hne' with hlt | hgt
  · left
    exact Nat.le_of_lt_add_of_dvd (by omega) (Nat.dvd_add ha hself) hb
  · right
    exact Nat.le_of_lt_add_of_dvd (by omega) (Nat.dvd_add hb hself) ha

/-- Blocks inside pages of different slabs. -/
theorem HeapLayout.disjoint_of_inside (h : HeapLayout pmemAlloc s hp)
    (hfresh : FreshPages pmemAlloc s) {a b : Block} (hia : a.slab < slabCount)
    (hib : b.slab < slabCount) (hslab : a.slab ≠ b.slab) (ha : a.Inside hp) (hb : b.Inside hp) :
    a.Disjoint b := by
  obtain ⟨j, hj, hlow, hhigh⟩ := ha
  obtain ⟨l, hl, hlow', hhigh'⟩ := hb
  have hne : ((hp.slabs a.slab).pages j).toNat ≠ ((hp.slabs b.slab).pages l).toNat := by
    intro heq
    exact hslab (h.inj _ _ _ _ hia hib hj hl (UInt32.toNat_inj.mp heq)).1
  have hP := h.aligned hfresh hia hj
  have hQ := h.aligned hfresh hib hl
  unfold PageAligned at hP hQ
  unfold Block.Disjoint
  omega

/-- Live blocks inside their pages are disjoint. -/
theorem HeapInv.heapSafe_iff (h : HeapInv pmemAlloc s x) (hfresh : FreshPages pmemAlloc s) :
    HeapSafe x ↔ ∀ b ∈ x.2, b.Inside x.1 := by
  constructor
  · exact And.left
  · intro hin
    refine ⟨hin, h.nodup.pairwise_of_forall_ne ?_⟩
    intro a ha b hb hne
    obtain ⟨hia, k, hk, hka, -⟩ := h.live a ha
    obtain ⟨hib, m, hm, hmb, -⟩ := h.live b hb
    by_cases hslab : a.slab = b.slab
    · refine Block.disjoint_of_dvd hslab (fun heq => hne (h.live_inj hfresh ha hb heq)) ?_ ?_
      · rw [← hka]
        exact (h.slab _ hia).slabSize_dvd hia (fun j hj => h.aligned hfresh hia hj) hk
      · rw [← hmb]
        exact (h.slab _ hib).slabSize_dvd hib (fun j hj => h.aligned hfresh hib hj) hm
    · exact h.disjoint_of_inside hfresh hia hib hslab (hin a ha) (hin b hb)

/-! ## When a call keeps the heap safe -/

section Condition

variable (pmemAlloc : σ → Kern (UInt32 × σ))

/-- Slab `i` serves the next request from inside its pages: the next free entry is not the
last of its page, or the slab owns the page that follows as well.  A slab without a free
entry serves the request from the first entry of a new page. -/
def ServesInside (hp : Heap σ) (i : Nat) : Prop :=
  if 0 < (hp.slabs i).freeEntries then
    ∀ k, NextFree (hp.slabs i) k →
      (k + 1) % perPage i ≠ 0 ∨ OwnsPage (hp.slabs i) ((hp.slabs i).entries k).memAddr
  else
    ∀ q t, pmemAlloc hp.pmem = .ok (q, t) → perPage i ≠ 1 ∨ OwnsPage (hp.slabs i) (q + 4096)

def OpServesInside (hp : Heap σ) : HeapOp → Prop
  | .malloc size => ∀ i c, mallocClass size = some (i, c) → ServesInside pmemAlloc hp i
  | .free _ => True

end Condition

/-- A slab that grew owns the pages it owned, and the new one. -/
theorem ownsPage_grow {n : Nat} {q a : UInt32} :
    OwnsPage (S.grow i n q) a ↔ OwnsPage S a ∨ a = q := by
  constructor
  · rintro ⟨j, hj, heq⟩
    have hj' : j < S.currentPage + 1 := hj
    by_cases hlast : j = S.currentPage
    · right
      rw [← heq, hlast]
      exact update_self ..
    · left
      exact ⟨j, by omega, (update_of_ne hlast _ _).symm.trans heq⟩
  · rintro (⟨j, hj, heq⟩ | rfl)
    · exact ⟨j, Nat.lt_succ_of_lt hj, (update_of_ne (by omega) _ _).trans heq⟩
    · exact ⟨S.currentPage, Nat.lt_succ_self _, update_self ..⟩

/-- The condition says where the block that `malloc` returns lies. -/
theorem servesInside_iff {hp₁ : Heap σ} (hi : i < slabCount) (hl : HeapLayout pmemAlloc s hp)
    (hl₁ : HeapLayout pmemAlloc s hp₁) (hfresh : FreshPages pmemAlloc s)
    (hroom : MakesRoom pmemAlloc i hp hp₁) (hnext : NextFree (hp₁.slabs i) k) :
    Inside (hp₁.slabs i) (slabSize i) ((hp₁.slabs i).entries k).memAddr ↔
      ServesInside pmemAlloc hp i := by
  rw [(hl₁.slab i hi).entry_inside_iff hi (fun j hj => hl₁.aligned hfresh hi hj) hnext.lt]
  unfold ServesInside
  cases hroom with
  | had hpos =>
    rw [if_pos hpos]
    constructor
    · intro h m hm
      rw [← hnext.unique hm]
      exact h
    · intro h
      exact h k hnext
  | @page n q t h0 hn hq hS =>
    rw [grow_self] at hnext ⊢
    obtain rfl : k = (hp.slabs i).maxEntries :=
      hnext.unique ((hl.slab i hi).nextFree_grow h0 hn q)
    have hmax : (hp.slabs i).maxEntries = (hp.slabs i).currentPage * perPage i := by
      have hgrown : (hp.slabs i).maxEntries + n = min slabEntryCount _ := hS.maxEntries_eq
      exact (hl.slab i hi).full_pages (by omega)
    have haddr : (((hp.slabs i).grow i n q).entries (hp.slabs i).maxEntries).memAddr =
        q + UInt32.ofNat (slabSize i) := by
      simp only [Kmemslab.grow]
      rw [if_pos (by omega), Nat.sub_self, Nat.zero_add, Nat.mul_one]
    rw [if_neg (by omega), haddr]
    have hmod : ((hp.slabs i).maxEntries + 1) % perPage i = 1 % perPage i := by
      rw [hmax, Nat.add_comm, Nat.add_mul_mod_self_right]
    rw [hmod]
    by_cases hone : perPage i = 1
    · have hsize : slabSize i = 4096 := by
        have := slabSize_mul_perPage hi
        rwa [hone, Nat.mul_one] at this
      have hne : q + 4096 ≠ q := by
        intro heq
        have := congrArg UInt32.toNat heq
        rw [UInt32.toNat_add, show (4096 : UInt32).toNat = 4096 from rfl] at this
        omega
      rw [hone, hsize, ownsPage_grow]
      show _ ∨ OwnsPage (hp.slabs i) (q + 4096) ∨ q + 4096 = q ↔ _
      simp only [Nat.mod_one, ne_eq, not_true_eq_false, false_or, hne, or_false]
      constructor
      · intro h q' t' hq'
        obtain ⟨rfl, -⟩ := Prod.mk.inj (Except.ok.inj (hq.symm.trans hq'))
        exact h
      · exact fun h => h q t hq
    · have hpos := perPage_pos i
      refine iff_of_true (.inl ?_) fun _ _ _ => .inl hone
      rw [Nat.mod_eq_of_lt (by omega)]
      decide

theorem Block.inside_setSlab (S : Kmemslab) (hpages : S.pages = (hp.slabs i).pages)
    (hcount : S.currentPage = (hp.slabs i).currentPage) :
    b.Inside (hp.setSlab i S) ↔ b.Inside hp := by
  unfold Block.Inside KoizOs.Inside
  rw [setSlab_congr Kmemslab.pages hpages, setSlab_congr Kmemslab.currentPage hcount]

theorem Block.inside_grow {n : Nat} {q : UInt32} (h : b.Inside hp) : b.Inside (hp.grow i n q t) := by
  obtain ⟨j, hj, hin⟩ := h
  unfold Block.Inside
  show KoizOs.Inside ((hp.setSlab i _).slabs b.slab) _ _
  by_cases hi : b.slab = i
  · subst hi
    rw [setSlab_self]
    refine ⟨j, Nat.lt_succ_of_lt hj, ?_⟩
    have hpage : ((hp.slabs b.slab).grow b.slab n q).pages j = (hp.slabs b.slab).pages j :=
      update_of_ne (Nat.ne_of_lt hj) _ _
    rw [hpage]
    exact hin
  · rw [setSlab_of_ne hi]
    exact ⟨j, hj, hin⟩

theorem Block.inside_makesRoom {hp₁ : Heap σ} (hroom : MakesRoom pmemAlloc i hp hp₁)
    (h : b.Inside hp) : b.Inside hp₁ := by
  cases hroom with
  | had _ => exact h
  | page _ _ _ _ => exact Block.inside_grow h

/-- One call keeps a safe heap safe exactly when it is served from inside a page. -/
theorem HeapInv.safe_step (h : HeapInv pmemAlloc s x) (hfresh : FreshPages pmemAlloc s)
    (hsafe : HeapSafe x) (hs : HeapStep pmemAlloc x op y) :
    HeapSafe y ↔ OpServesInside pmemAlloc x.1 op := by
  rw [(h.step hfresh hs).heapSafe_iff hfresh]
  cases hs with
  | @malloc hp hp' live size p i c hm hclass =>
    obtain ⟨j, hp₁, k, hclass', hj, hroom, hnext, rfl, rfl⟩ := malloc_cases h.toHeapLayout hm
    obtain ⟨rfl, -⟩ := Prod.mk.inj (Option.some.inj (hclass'.symm.trans hclass))
    have hold : ∀ b ∈ live, b.Inside (hp₁.setSlab j ((hp₁.slabs j).take k)) := by
      intro b hb
      rw [Block.inside_setSlab ((hp₁.slabs j).take k) rfl rfl]
      exact Block.inside_makesRoom hroom (hsafe.1 b hb)
    have hserves : OpServesInside pmemAlloc hp (.malloc size) ↔ ServesInside pmemAlloc hp j := by
      constructor
      · exact fun h => h j c hclass
      · intro h i' c' hc'
        obtain ⟨rfl, -⟩ := Prod.mk.inj (Option.some.inj (hclass.symm.trans hc'))
        exact h
    rw [hserves, ← servesInside_iff hj h.toHeapLayout
      (h.makesRoom hfresh hroom).toHeapLayout hfresh hroom hnext]
    have hsame := Block.inside_setSlab (b := ⟨((hp₁.slabs j).entries k).memAddr, j⟩)
      ((hp₁.slabs j).take k) rfl rfl
    constructor
    · intro hall
      exact hsame.mp (hall _ List.mem_cons_self)
    · intro hnew b hb
      rcases List.mem_cons.mp hb with rfl | hb
      · exact hsame.mpr hnew
      · exact hold b hb
  | @free hp hp' live b hb hf =>
    obtain ⟨i, k, hi, hk, haddr, rfl⟩ := free_cases hf
    refine iff_of_true ?_ trivial
    intro b' hb'
    have hsame := Block.inside_setSlab (b := b') ((hp.slabs i).give k) rfl rfl
    exact hsame.mpr (hsafe.1 b' (List.mem_of_mem_erase hb'))

/-- **Owned and disjoint blocks.** From boot, the live blocks are inside their pages and
disjoint in every state of a run exactly when every `malloc` of the run was served from
inside a page. -/
theorem heap_safe_iff {tr : List ((Heap σ × List Block) × HeapOp)}
    (hfresh : FreshPages pmemAlloc s)
    (htr : Trace (HeapStep pmemAlloc) (Heap.boot s, []) tr x) :
    (HeapSafe x ∧ ∀ e ∈ tr, HeapSafe e.1) ↔ ∀ e ∈ tr, OpServesInside pmemAlloc e.1.1 e.2 :=
  htr.holds_iff (I := HeapInv pmemAlloc s)
    ⟨.boot pmemAlloc s, fun _ hb => absurd hb List.not_mem_nil, List.nodup_nil⟩
    (fun _ _ _ h hs => h.step hfresh hs) ⟨fun _ hb => absurd hb List.not_mem_nil, .nil⟩
    fun _ _ _ h hsafe hs => h.safe_step hfresh hsafe hs

theorem heap_safe_iff_one : ∃ hp : Heap Nat,
    malloc pagesUpward 2048 (Heap.boot 1) = .ok (6144, hp) ∧ HeapSafe (hp, [⟨6144, 1⟩]) := by
  have hserves : OpServesInside pagesUpward (Heap.boot 1) (.malloc 2048) := by
    intro i c hclass
    obtain rfl : 1 = i := (Prod.mk.inj (Option.some.inj hclass)).1
    exact fun q t _ => .inl (by decide)
  exact ⟨_, rfl, ((heap_safe_iff (pagesUpward_fresh 1)
    (Trace.start.next (.malloc (c := 2048) rfl rfl))).mpr (by simpa using hserves)).1⟩

/-- A block of 4096 bytes does not lie in the page it was cut from, and one of 2048 bytes
is then handed out inside it. -/
theorem heap_not_safe : ∃ hp hp' : Heap Nat,
    malloc pagesUpward 4096 (Heap.boot 1) = .ok (8192, hp) ∧
    malloc pagesUpward 2048 hp = .ok (10240, hp') ∧
    Trace (HeapStep pagesUpward) (Heap.boot 1, [])
      [((Heap.boot 1, []), .malloc 4096), ((hp, [⟨8192, 0⟩]), .malloc 2048)]
      (hp', [⟨10240, 1⟩, ⟨8192, 0⟩]) ∧
    ¬ HeapSafe (hp, [⟨8192, 0⟩]) ∧ ¬ Block.Disjoint ⟨10240, 1⟩ ⟨8192, 0⟩ := by
  refine ⟨_, _, rfl, rfl, ?_, ?_, ?_⟩
  · exact .next (.next .start (.malloc (c := 4096) rfl rfl)) (.malloc (c := 2048) rfl rfl)
  · rintro ⟨hin, -⟩
    obtain ⟨j, hj, -, hhigh⟩ := hin _ List.mem_cons_self
    obtain rfl : j = 0 := Nat.lt_one_iff.mp hj
    exact absurd hhigh (by decide)
  · unfold Block.Disjoint
    decide

end KoizOs
