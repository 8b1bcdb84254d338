import KoizOs.Kernel.Pages

/-!
# Pages in order

The search for a page goes on where it stopped.  As long as no page is given back, the pages
behind the cursor are free, and they are handed out one after the other: with the cursor at
record `c`, the next page is that of record `c + 1`.

| result | content |
|--------|---------|
| `Frontier.alloc` | the next page |
| `Open.take`, `Open.store` | the same in a pool whose records lie before its pages |
-/

namespace KoizOs

open Function Lib

variable {pm pm' : Pmem} {m m' m'' : Mem} {p q d : UInt32} {c i n k : Nat}

namespace Pmem

/-- The cursor is at record `c`, and all records behind it are clear. -/
structure Frontier (pm : Pmem) (c : Nat) : Prop where
  cursor : pm.pmemCurrAllocRecord.toNat = c
  clear : ∀ e, e < pm.pmemMgrReservedSize → c < e.toNat → pm.record e = 0

namespace Frontier

theorem record_toNat (hi : pm.Initialised) (hroom : c + 1 < pm.pmemMgrReservedSize.toNat) :
    (UInt32.ofNat (c + 1)).toNat = c + 1 := by
  have := hi.size_le
  rw [UInt32.toNat_ofNat']
  omega

/-- The page of the next record. -/
theorem alloc (h : pm.Frontier c) (hi : pm.Initialised)
    (hroom : c + 1 < pm.pmemMgrReservedSize.toNat) : ∃ pm',
      pmemAlloc pm = .ok (pm.pageAddr (UInt32.ofNat (c + 1)), pm') ∧ pm'.Frontier (c + 1) := by
  have hlt := Pmem.nextRecord_toNat hi.size_le (UInt32.lt_iff_toNat_lt.mp hi.cursor)
  have hnat := record_toNat hi hroom
  rw [h.cursor, if_neg (by omega)] at hlt
  have hnext : pm.nextRecord = pm.setCursor (UInt32.ofNat (c + 1)) := by
    show { pm with pmemCurrAllocRecord := _ } = { pm with pmemCurrAllocRecord := _ }
    congr 1
    exact UInt32.toNat_inj.mp (hlt.trans hnat.symm)
  have hin : UInt32.ofNat (c + 1) < pm.pmemMgrReservedSize := by
    rw [UInt32.lt_iff_toNat_lt, hnat]
    exact hroom
  have hfree : pm.record (UInt32.ofNat (c + 1)) = 0 := h.clear _ hin (by omega)
  have hstart : pm.pmemCurrAllocRecord ≠ UInt32.ofNat (c + 1) := by
    intro heq
    have := congrArg UInt32.toNat heq
    rw [h.cursor, hnat] at this
    omega
  have hbound : ¬ UInt32.ofNat (c + 1) > pm.pmemMgrReservedSize := by
    rw [gt_iff_lt, UInt32.lt_iff_toNat_lt, hnat]
    omega
  refine ⟨(pm.setCursor (UInt32.ofNat (c + 1))).setRecord (UInt32.ofNat (c + 1)) 1, ?_, hnat, ?_⟩
  · unfold pmemAlloc
    rw [if_neg (by simp [hi.initialized]), hnext]
    unfold pmemAllocLoop
    refine (if_neg hstart).trans ((if_pos hfree).trans ?_)
    unfold pmemEntryToPtr
    refine (congrArg (· >>= _) (if_neg hbound)).trans ?_
    rfl
  · intro e he hce
    have hne : e ≠ UInt32.ofNat (c + 1) := by
      rintro rfl
      omega
    exact (Pmem.record_setRecord.trans (if_neg hne)).trans (h.clear e he (by omega))

theorem store (h : pm.Frontier c)
    (hm : ∀ f, f < pm.pmemMgrReservedSize → m (pm.recordPtr f) = pm.mem (pm.recordPtr f)) :
    Pmem.Frontier { pm with mem := m } c where
  cursor := h.cursor
  clear e he hce := (hm e he).trans (h.clear e he hce)

/-- Page `q` was taken before the cursor came to record `c`. -/
theorem le_of_allocated (h : pm.Frontier c) (hq : pm.Allocated q) :
    ∃ e, e < pm.pmemMgrReservedSize ∧ e.toNat ≤ c ∧ q = pm.pageAddr e := by
  obtain ⟨e, he, heq, hr⟩ := hq
  exact ⟨e, he, by_contra fun hgt => hr (h.clear e he (by omega)), heq⟩

end Frontier

/-- A pool in order whose pages behind record `c` are free. -/
structure Open (pm : Pmem) (c : Nat) : Prop where
  sound : pm.Sound
  frontier : pm.Frontier c

namespace Open

theorem take (h : pm.Open c) (hroom : c + 1 < pm.pmemMgrReservedSize.toNat) : ∃ p pm',
    pmemAlloc pm = .ok (p, pm') ∧ p = pm.pageAddr (UInt32.ofNat (c + 1)) ∧ pm'.Open (c + 1) ∧
      pm.Grows pm' ∧ pm'.Allocated p ∧ ¬ pm.Allocated p ∧
      ∀ q, pm.Allocated q → Mem.SamePage pm.mem pm'.mem q := by
  obtain ⟨pm', halloc, hfrontier⟩ := h.frontier.alloc h.sound.initialised hroom
  obtain ⟨hgrows, hp, hnew, hsame⟩ := h.sound.alloc halloc
  exact ⟨_, pm', halloc, rfl, ⟨h.sound.grows hgrows, hfrontier⟩, hgrows, hp, hnew, hsame⟩

/-- Stores on a page leave the records. -/
theorem store (h : pm.Open c) (hp : pm.InRoom p) (hm : Mem.SameOutside pm.mem m p) :
    pm.Grows { pm with mem := m } ∧ Pmem.Open { pm with mem := m } c := by
  have hgrows := h.sound.grows_of_store hp hm
  refine ⟨hgrows, h.sound.grows hgrows, h.frontier.store fun f hf => ?_⟩
  exact hm _ fun _ ho => h.sound.recordPtr_ne hf hp ho

end Open

end Pmem

end KoizOs
