import KoizOs.Memory.Mem

/-!
# Identity paging

`vmem_init` builds a page directory and 1024 page tables, each in a page of its own, in
which page `j` of table `i` is mapped to physical page `1024 * i + j`.  Table indices are
natural numbers; entries are 32-bit words.  A directory at address 0 is taken for one that
was never declared.

| result | content |
|--------|---------|
| `tableFill_load` | what a filled page table holds, and that other pages are untouched |
| `vmemInitLoop_mapped` | the directory entries after the loop |
| `vmem_identity` | every address is mapped to itself |
-/

namespace KoizOs

/-- `vmem_page_directory`, the physical memory and the state of `pmem_alloc`. -/
structure Vmem (σ : Type) where
  vmemPageDirectory : UInt32
  mem : Mem
  pmem : σ

/-! ## Algorithm -/

/-- `table[j] = f(j)` for the next `n` indices from `j` on. -/
def tableFill (table : UInt32) (f : Nat → UInt32) : (n j : Nat) → Mem → Mem
  | 0, _, mem => mem
  | n + 1, j, mem =>
    tableFill table f n (j + 1) (mem.store32 (table + UInt32.ofNat (4 * j)) (f j))

/-- The address that entry `j` of table `i` maps; `i` is signed in the source, and shifting
it leaves the same 32 bits. -/
def virtAddrEntry (i j : Nat) : UInt32 :=
  ((UInt32.ofNat i <<< 22) ||| (UInt32.ofNat j <<< 12)) &&& ~~~0xFFF

section PageSource

variable {σ : Type} (pmemAlloc : σ → Kern (UInt32 × σ))

def vmemPtableNew (mem : Mem) (pmem : σ) : Kern (UInt32 × Mem × σ) := do
  let (ptr, pmem) ← pmemAlloc pmem
  if ptr &&& 0xFFF ≠ 0 then panic "vmem_alloc_pmem: page directory needs to be 4096 aligned!"
  else if physBlockSize < 4 * 1024 then
    panic "vmem_alloc_pmem: physical block page size isn't large enough"
  else return (ptr, tableFill ptr (fun _ => 0) 1024 0 mem, pmem)

/-- `n` tables are left to make, the next is table `i`. -/
def vmemInitLoop (basePtr : UInt32) : (n i : Nat) → Mem → σ → Kern (Mem × σ)
  | 0, _, mem, pmem => .ok (mem, pmem)
  | n + 1, i, mem, pmem => do
    let (kernelPt, mem, pmem) ← vmemPtableNew pmemAlloc mem pmem
    let mem := mem.store32 (basePtr + UInt32.ofNat (4 * i)) (kernelPt ||| 7)
    let mem := tableFill kernelPt (fun j => virtAddrEntry i j ||| 7) 1024 0 mem
    vmemInitLoop basePtr n (i + 1) mem pmem

def vmemInit (mem : Mem) (pmem : σ) : Kern (Vmem σ) := do
  let (basePtr, mem, pmem) ← vmemPtableNew pmemAlloc mem pmem
  let (mem, pmem) ← vmemInitLoop pmemAlloc basePtr 1024 0 mem pmem
  return { vmemPageDirectory := basePtr, mem := mem, pmem := pmem }

end PageSource

def vmemGetPhysAddr (mem : Mem) (procPageDirectory virtualAddr : UInt32) : Kern UInt32 :=
  let pageDirEntry := virtualAddr >>> 22
  let pageTableEntry := (virtualAddr >>> 12) &&& 0x03FF
  if pageDirEntry > 1024 then panic "vmem_get_phys_addr: page_dir_entry will overflow"
  else if pageTableEntry > 1024 then panic "vmem_get_phys_addr: page_table_entry will overflow"
  else if procPageDirectory = 0 then
    panic "vmem_get_phys_addr: page_directory was never declared!"
  else
    let dirEntry := mem.load32 (procPageDirectory + UInt32.ofNat (4 * pageDirEntry.toNat))
    if dirEntry = 0 then .ok 0
    else
      let pageTableAddr := dirEntry &&& ~~~0xFFF
      let tableEntry := mem.load32 (pageTableAddr + UInt32.ofNat (4 * pageTableEntry.toNat))
      if tableEntry = 0 then .ok 0
      else .ok ((tableEntry &&& ~~~0xFFF) + (virtualAddr &&& 0xFFF))

variable {σ : Type} {pmemAlloc : σ → Kern (UInt32 × σ)} {s t : σ} {m m' : Mem}
  {p q d : UInt32} {f : Nat → UInt32} {i j k n : Nat}

/-! ## Words -/

/-- The flag bits are below the address of a page. -/
theorem toNat_or_flags (hp : PageAligned p) : (p ||| 7).toNat = p.toNat + 7 := by
  unfold PageAligned at hp
  obtain ⟨c, hc⟩ := Nat.dvd_of_mod_eq_zero hp
  rw [UInt32.toNat_or, hc]
  exact (Nat.two_pow_add_eq_or_of_lt (i := 12) (by decide) c).symm

theorem or_flags_ne_zero (hp : PageAligned p) : p ||| 7 ≠ 0 := by
  intro h
  have := congrArg UInt32.toNat h
  rw [toNat_or_flags hp] at this
  exact absurd this (by simp)

theorem or_flags_and_mask (hp : PageAligned p) : (p ||| 7) &&& ~~~0xFFF = p := by
  apply UInt32.toNat_inj.mp
  rw [toNat_and_mask, toNat_or_flags hp]
  unfold PageAligned at hp
  omega

theorem toNat_shiftLeft {c w : Nat} (hw : w < 32) (hc : c * 2 ^ w < 2 ^ 32) :
    (UInt32.ofNat c <<< UInt32.ofNat w).toNat = c * 2 ^ w := by
  have hpos := Nat.le_mul_of_pos_right c (Nat.two_pow_pos w)
  rw [UInt32.toNat_shiftLeft, UInt32.toNat_ofNat', UInt32.toNat_ofNat', Nat.shiftLeft_eq,
    Nat.mod_eq_of_lt (show c < 2 ^ 32 by omega), Nat.mod_eq_of_lt (show w < 2 ^ 32 by omega),
    Nat.mod_eq_of_lt hw, Nat.mod_eq_of_lt hc]

theorem toNat_virtAddrEntry (hi : i < 1024) (hj : j < 1024) :
    (virtAddrEntry i j).toNat = 4194304 * i + 4096 * j := by
  have hshi : (UInt32.ofNat i <<< 22).toNat = i * 2 ^ 22 :=
    toNat_shiftLeft (w := 22) (by decide) (by omega)
  have hshj : (UInt32.ofNat j <<< 12).toNat = j * 2 ^ 12 :=
    toNat_shiftLeft (w := 12) (by decide) (by omega)
  unfold virtAddrEntry
  rw [toNat_and_mask, UInt32.toNat_or, hshi, hshj, Nat.mul_comm i,
    ← Nat.two_pow_add_eq_or_of_lt (i := 22) (by omega) i]
  omega

theorem virtAddrEntry_aligned (hi : i < 1024) (hj : j < 1024) :
    PageAligned (virtAddrEntry i j) := by
  unfold PageAligned
  rw [toNat_virtAddrEntry hi hj]
  omega

/-! ## Tables -/

theorem load32_store32_word {v : UInt32} (hp : PageAligned p) (hq : PageAligned q)
    (hj : j < 1024) (hk : k < 1024) :
    (m.store32 (p + UInt32.ofNat (4 * j)) v).load32 (q + UInt32.ofNat (4 * k)) =
      if p = q ∧ j = k then v else m.load32 (q + UInt32.ofNat (4 * k)) := by
  by_cases h : p = q ∧ j = k
  · obtain ⟨rfl, rfl⟩ := h
    rw [if_pos ⟨rfl, rfl⟩]
    exact load32_store32_same hp (by omega)
  · rw [if_neg h]
    apply load32_congr
    intro c hc
    rw [store32_apply hp hq (by omega) (by omega), if_neg]
    rintro ⟨rfl, hle, hlt⟩
    exact h ⟨rfl, by omega⟩

theorem tableFill_load (hp : PageAligned p) (hq : PageAligned q) (hn : j + n ≤ 1024)
    (hk : k < 1024) :
    (tableFill p f n j m).load32 (q + UInt32.ofNat (4 * k)) =
      if p = q ∧ j ≤ k ∧ k < j + n then f k else m.load32 (q + UInt32.ofNat (4 * k)) := by
  induction n generalizing j m with
  | zero =>
    rw [if_neg (by omega)]
    rfl
  | succ n ih =>
    rw [tableFill, ih (by omega), load32_store32_word hp hq (by omega) hk]
    by_cases hpq : p = q
    · by_cases hjk : j = k
      · subst hjk
        rw [if_neg (by omega), if_pos ⟨hpq, rfl⟩, if_pos ⟨hpq, by omega, by omega⟩]
      · have hrange : j + 1 ≤ k ∧ k < j + 1 + n ↔ j ≤ k ∧ k < j + (n + 1) := by omega
        simp only [hpq, hjk, and_false, if_false, true_and, hrange]
    · simp only [hpq, false_and, if_false]

/-- Table `i` is there, and maps each of its pages to the page of the same number. -/
def Mapped (m : Mem) (d : UInt32) (i : Nat) : Prop :=
  ∃ p, PageAligned p ∧ m.load32 (d + UInt32.ofNat (4 * i)) = p ||| 7 ∧
    ∀ j, j < 1024 → m.load32 (p + UInt32.ofNat (4 * j)) = virtAddrEntry i j ||| 7

theorem toNat_pageDirEntry (v : UInt32) : (v >>> 22).toNat = v.toNat / 4194304 := by
  rw [UInt32.toNat_shiftRight, Nat.shiftRight_eq_div_pow]
  rfl

theorem toNat_pageTableEntry (v : UInt32) :
    ((v >>> 12) &&& 0x03FF).toNat = v.toNat / 4096 % 1024 := by
  rw [UInt32.toNat_and, UInt32.toNat_shiftRight, Nat.shiftRight_eq_div_pow]
  exact Nat.and_two_pow_sub_one_eq_mod (v.toNat / 4096) 10

/-- The overflow checks on the two indices never fire. -/
theorem index_not_gt (v : UInt32) : ¬ v >>> 22 > 1024 ∧ ¬ (v >>> 12) &&& 0x03FF > 1024 := by
  have hv := v.toNat_lt
  have hlimit : (1024 : UInt32).toNat = 1024 := rfl
  rw [gt_iff_lt, gt_iff_lt, UInt32.lt_iff_toNat_lt, UInt32.lt_iff_toNat_lt, toNat_pageDirEntry,
    toNat_pageTableEntry, hlimit]
  omega

theorem vmemGetPhysAddr_null (m : Mem) (v : UInt32) : vmemGetPhysAddr m 0 v =
    panic "vmem_get_phys_addr: page_directory was never declared!" := by
  unfold vmemGetPhysAddr
  dsimp only
  rw [if_neg (index_not_gt v).1, if_neg (index_not_gt v).2, if_pos rfl]

/-- Walking tables that map every page to itself. -/
theorem vmemGetPhysAddr_mapped (hd : d ≠ 0) (h : ∀ i, i < 1024 → Mapped m d i) (v : UInt32) :
    vmemGetPhysAddr m d v = .ok v := by
  have hv := v.toNat_lt
  have hi : v.toNat / 4194304 < 1024 := by omega
  have hj : v.toNat / 4096 % 1024 < 1024 := by omega
  obtain ⟨p, hp, hentry, hpages⟩ := h _ hi
  have halign := virtAddrEntry_aligned hi hj
  unfold vmemGetPhysAddr
  dsimp only
  rw [if_neg (index_not_gt v).1, if_neg (index_not_gt v).2, if_neg hd, toNat_pageDirEntry, hentry,
    if_neg (or_flags_ne_zero hp), or_flags_and_mask hp, toNat_pageTableEntry, hpages _ hj,
    if_neg (or_flags_ne_zero halign), or_flags_and_mask halign]
  congr 1
  apply UInt32.toNat_inj.mp
  rw [UInt32.toNat_add, toNat_virtAddrEntry hi hj, toNat_and_offset]
  omega

/-! ## Building the tables -/

theorem vmemPtableNew_ok (hp : PageAligned p) (halloc : pmemAlloc s = .ok (p, t)) :
    vmemPtableNew pmemAlloc m s = .ok (p, tableFill p (fun _ => 0) 1024 0 m, t) := by
  have hoff : p &&& 0xFFF = 0 := by
    apply UInt32.toNat_inj.mp
    rw [toNat_and_offset]
    exact hp
  unfold vmemPtableNew
  rw [halloc, ok_bind]
  dsimp only
  rw [if_neg (not_not.mpr hoff), if_neg (by decide)]
  rfl

/-- The loop makes the tables `i` to `i + n - 1` in the pages `ps`, and leaves the other
entries of the directory and all other pages as they are. -/
theorem vmemInitLoop_mapped {ps : List UInt32} (hd : PageAligned d) (hn : i + ps.length ≤ 1024)
    (hps : Allocs pmemAlloc s ps t) (hnodup : ps.Nodup) (hnd : d ∉ ps)
    (haligned : ∀ p ∈ ps, PageAligned p) :
    ∃ m', vmemInitLoop pmemAlloc d ps.length i m s = .ok (m', t) ∧
      (∀ k, i ≤ k → k < i + ps.length → Mapped m' d k) ∧
      (∀ k, k < i → m'.load32 (d + UInt32.ofNat (4 * k)) = m.load32 (d + UInt32.ofNat (4 * k))) ∧
      ∀ q, PageAligned q → q ≠ d → q ∉ ps → ∀ k, k < 1024 →
        m'.load32 (q + UInt32.ofNat (4 * k)) = m.load32 (q + UInt32.ofNat (4 * k)) := by
  induction ps generalizing i m s with
  | nil =>
    obtain rfl := hps.nil_eq
    exact ⟨m, rfl, fun k hik hk => absurd hk (by simpa using hik), fun _ _ => rfl,
      fun _ _ _ _ _ _ => rfl⟩
  | cons p ps ih =>
    obtain ⟨u, halloc, hrest⟩ := hps.uncons
    obtain ⟨hpps, hnodup⟩ := List.nodup_cons.mp hnodup
    have hp := haligned p List.mem_cons_self
    have hpd : p ≠ d := by
      rintro rfl
      exact hnd List.mem_cons_self
    rw [List.length_cons] at hn
    let m₁ := tableFill p (fun j => virtAddrEntry i j ||| 7) 1024 0
      ((tableFill p (fun _ => 0) 1024 0 m).store32 (d + UInt32.ofNat (4 * i)) (p ||| 7))
    -- what one round leaves behind
    have hload : ∀ q, PageAligned q → ∀ k, k < 1024 → m₁.load32 (q + UInt32.ofNat (4 * k)) =
        if p = q then virtAddrEntry i k ||| 7 else if d = q ∧ i = k then p ||| 7
        else m.load32 (q + UInt32.ofNat (4 * k)) := by
      intro q hq k hk
      have hin : 0 ≤ k ∧ k < 0 + 1024 := by omega
      rw [tableFill_load hp hq (by omega) hk, load32_store32_word hd hq (by omega) hk,
        tableFill_load hp hq (by omega) hk]
      by_cases hpq : p = q
      · simp only [hpq, hin, and_self, if_true]
      · simp only [hpq, false_and, if_false]
    obtain ⟨m', hloop, hmapped, hdir, hframe⟩ := ih (m := m₁) (i := i + 1) (by omega) hrest hnodup
      (fun hmem => hnd (List.mem_cons_of_mem _ hmem))
      (fun q hq => haligned q (List.mem_cons_of_mem _ hq))
    refine ⟨m', ?_, ?_, ?_, ?_⟩
    · rw [List.length_cons, vmemInitLoop, vmemPtableNew_ok hp halloc]
      exact hloop
    · intro k hik hk
      rw [List.length_cons] at hk
      by_cases hki : k = i
      · subst hki
        refine ⟨p, hp, ?_, ?_⟩
        · rw [hdir k (by omega), hload d hd k (by omega), if_neg hpd, if_pos ⟨rfl, rfl⟩]
        · intro j hj
          rw [hframe p hp hpd hpps j hj, hload p hp j hj, if_pos rfl]
      · exact hmapped k (by omega) (by omega)
    · intro k hk
      rw [hdir k (by omega), hload d hd k (by omega), if_neg hpd, if_neg (by omega)]
    · intro q hq hqd hqps k hk
      have hqp : p ≠ q := by
        rintro rfl
        exact hqps List.mem_cons_self
      rw [hframe q hq hqd (fun hmem => hqps (List.mem_cons_of_mem _ hmem)) k hk,
        hload q hq k hk, if_neg hqp, if_neg (fun h => hqd h.1.symm)]

/-- `vmem_init`, given a page for the directory and 1024 more. -/
theorem vmemInit_ok {ps : List UInt32} (hlen : ps.length = 1024)
    (hps : Allocs pmemAlloc s (d :: ps) t) (hnodup : (d :: ps).Nodup)
    (haligned : ∀ p ∈ d :: ps, PageAligned p) (m : Mem) :
    ∃ m', vmemInit pmemAlloc m s = .ok ⟨d, m', t⟩ ∧ ∀ i, i < 1024 → Mapped m' d i := by
  obtain ⟨u, halloc, hrest⟩ := hps.uncons
  obtain ⟨hnd, hnodup⟩ := List.nodup_cons.mp hnodup
  have hd := haligned d List.mem_cons_self
  obtain ⟨m', hloop, hmapped, -, -⟩ := vmemInitLoop_mapped (i := 0)
    (m := tableFill d (fun _ => 0) 1024 0 m) hd (by omega) hrest hnodup hnd
    (fun q hq => haligned q (List.mem_cons_of_mem _ hq))
  rw [hlen] at hloop
  refine ⟨m', ?_, ?_⟩
  · unfold vmemInit
    rw [vmemPtableNew_ok hd halloc, ok_bind]
    dsimp only
    rw [hloop]
    rfl
  · intro i hi
    exact hmapped i (Nat.zero_le i) (by omega)

/-- **Identity paging.** Given 1025 different pages, `vmem_init` builds tables in which
every address is mapped to itself; a directory in page 0 is refused. -/
theorem vmem_identity {ps : List UInt32} (hlen : ps.length = 1025)
    (hps : Allocs pmemAlloc s ps t) (hnodup : ps.Nodup) (haligned : ∀ p ∈ ps, PageAligned p)
    (m : Mem) :
    ∃ x, vmemInit pmemAlloc m s = .ok x ∧ ps.head? = some x.vmemPageDirectory ∧
      ∀ v, vmemGetPhysAddr x.mem x.vmemPageDirectory v =
        if x.vmemPageDirectory = 0 then
          panic "vmem_get_phys_addr: page_directory was never declared!"
        else .ok v := by
  obtain _ | ⟨d, ps⟩ := ps
  · cases hlen
  · obtain ⟨m', hinit, hmapped⟩ := vmemInit_ok (Nat.succ.inj hlen) hps hnodup haligned m
    refine ⟨_, hinit, rfl, ?_⟩
    intro v
    dsimp only
    by_cases hzero : d = 0
    · rw [if_pos hzero, hzero]
      exact vmemGetPhysAddr_null m' v
    · rw [if_neg hzero]
      exact vmemGetPhysAddr_mapped hzero hmapped v

theorem vmem_identity_one : ∃ x, vmemInit pagesUpward (fun _ => 0) 1 = .ok x ∧
    x.vmemPageDirectory = 4096 ∧ ∀ v, vmemGetPhysAddr x.mem x.vmemPageDirectory v = .ok v := by
  obtain ⟨ps, hlen, hps, hfirst⟩ := pagesUpward_supply (n := 1) (c := 1025) (by decide)
  have hfresh := pagesUpward_fresh 1
  obtain ⟨x, hinit, hhead, hget⟩ := vmem_identity hlen hps (hfresh.nodup _ _ hps)
    (hfresh.aligned _ _ hps) (fun _ => 0)
  have hdir : x.vmemPageDirectory = 4096 := hfirst _ hhead
  refine ⟨x, hinit, hdir, ?_⟩
  intro v
  rw [hget, if_neg]
  rw [hdir]
  decide

/-- 1025 different pages, the first of them page 0: every translation panics. -/
theorem vmem_page_zero_refused : ∃ ps t x, ps.length = 1025 ∧ Allocs pagesUpward 0 ps t ∧
    ps.Nodup ∧ (∀ p ∈ ps, PageAligned p) ∧ vmemInit pagesUpward (fun _ => 0) 0 = .ok x ∧
    vmemGetPhysAddr x.mem x.vmemPageDirectory 5 ≠ .ok 5 := by
  obtain ⟨ps, hlen, hps, hfirst⟩ := pagesUpward_supply (n := 0) (c := 1025) (by decide)
  have hfresh := pagesUpward_fresh 0
  obtain _ | ⟨d, ps⟩ := ps
  · cases hlen
  · obtain rfl : d = 0 := hfirst d rfl
    obtain ⟨m', hinit, -⟩ := vmemInit_ok (Nat.succ.inj hlen) hps (hfresh.nodup _ _ hps)
      (hfresh.aligned _ _ hps) (fun _ => 0)
    refine ⟨_, _, _, hlen, hps, hfresh.nodup _ _ hps, hfresh.aligned _ _ hps, hinit, ?_⟩
    rw [vmemGetPhysAddr_null]
    exact panic_ne_ok _ _

end KoizOs
