import Mathlib.Data.List.Nodup
import KoizOs.Lib.Lend
import KoizOs.Memory.Pmem

/-!
# No page is handed out twice

Over any run of `pmemAlloc` and `pmemFree` in which only held pages are freed:

    the records holding 1 are exactly the records of the held pages      (pmem_pages_exclusive)
    the allocator lends pages of the pool, never one that is held        (pmem_lends_pages)
    without frees, the pages handed out are aligned and distinct         (pmem_freshPages)

`PoolInv` is what every step keeps.
-/

namespace KoizOs

open Lib

def pmemTakes (pm : Pmem) (p : UInt32) (pm' : Pmem) : Prop := pmemAlloc pm = .ok (p, pm')

def pmemGives (pm : Pmem) (p : UInt32) (pm' : Pmem) : Prop := ∃ res, pmemFree pm p = .ok (res, pm')

/-- `p` is the address of a page of the pool. -/
def Pmem.IsPage (pm : Pmem) (p : UInt32) : Prop := ∃ e, e < pm.pmemMgrReservedSize ∧ p = pm.pageAddr e

/-- The pool `pm0` after some calls, with the pages `live` handed out. -/
structure PoolInv (pm0 pm : Pmem) (live : List UInt32) : Prop where
  initialised : pm.Initialised
  size : pm.pmemMgrReservedSize = pm0.pmemMgrReservedSize
  start : pm.pmemAllocStart = pm0.pmemAllocStart
  bit : ∀ e, e < pm0.pmemMgrReservedSize → pm.record e = 0 ∨ pm.record e = 1
  live_iff : ∀ e, e < pm0.pmemMgrReservedSize → (pm.record e = 1 ↔ pm0.pageAddr e ∈ live)
  isPage : ∀ p ∈ live, pm0.IsPage p
  nodup : live.Nodup

namespace PoolInv

variable {pm0 pm pm' : Pmem} {live : List UInt32} {p : UInt32}

theorem start_run (h : pm0.Initialised) (hfree : ∀ e, e < pm0.pmemMgrReservedSize → pm0.record e = 0) :
    PoolInv pm0 pm0 [] where
  initialised := h
  size := rfl
  start := rfl
  bit e he := .inl (hfree e he)
  live_iff e he := by simp [hfree e he]
  isPage := by simp
  nodup := List.nodup_nil

theorem pageAddr_eq (h : PoolInv pm0 pm live) (e : UInt32) : pm.pageAddr e = pm0.pageAddr e := by
  simp only [Pmem.pageAddr, h.start]

theorem pageAddr_inj (h : PoolInv pm0 pm live) {e f : UInt32} (he : e < pm0.pmemMgrReservedSize)
    (hf : f < pm0.pmemMgrReservedSize) (hef : pm0.pageAddr e = pm0.pageAddr f) : e = f := by
  rw [← h.size] at he hf
  rw [← h.pageAddr_eq, ← h.pageAddr_eq] at hef
  exact h.initialised.pageAddr_inj he hf hef

/-- The next page handed out is one of the pool that nobody holds. -/
theorem fresh (h : PoolInv pm0 pm live) (ht : pmemTakes pm p pm') : pm0.IsPage p ∧ p ∉ live := by
  obtain ⟨e, he, hr, rfl, -⟩ := pmemAlloc_cases h.initialised ht
  rw [h.size] at he
  rw [h.pageAddr_eq]
  refine ⟨⟨e, he, rfl⟩, ?_⟩
  intro hmem
  rw [← h.live_iff e he, hr] at hmem
  exact absurd hmem (by decide)

theorem take (h : PoolInv pm0 pm live) (ht : pmemTakes pm p pm') : PoolInv pm0 pm' (p :: live) := by
  obtain ⟨hpage, hnew⟩ := h.fresh ht
  obtain ⟨e, he, -, rfl, rfl⟩ := pmemAlloc_cases h.initialised ht
  have he0 := h.size ▸ he
  have hrec : ∀ f, ((pm.setCursor e).setRecord e 1).record f = if f = e then 1 else pm.record f :=
    fun f => Pmem.record_setRecord
  refine ⟨⟨h.initialised.initialized, h.initialised.size, he⟩, h.size, h.start, ?_, ?_, ?_, ?_⟩
  · intro f hf
    rw [hrec]
    split
    · exact .inr rfl
    · exact h.bit f hf
  · intro f hf
    rw [hrec, h.pageAddr_eq, List.mem_cons]
    split
    · next hfe => simp [hfe]
    · next hfe =>
      rw [h.live_iff f hf]
      exact ⟨.inr, fun hm => hm.resolve_left fun heq => hfe (h.pageAddr_inj hf he0 heq)⟩
  · intro q hq
    rcases List.mem_cons.mp hq with rfl | hq
    · exact hpage
    · exact h.isPage q hq
  · exact List.nodup_cons.mpr ⟨hnew, h.nodup⟩

theorem give (h : PoolInv pm0 pm live) (hp : p ∈ live) (hg : pmemGives pm p pm') :
    PoolInv pm0 pm' (live.erase p) := by
  obtain ⟨e, he, rfl⟩ := h.isPage p hp
  obtain ⟨res, hg⟩ := hg
  rw [← h.pageAddr_eq] at hg
  obtain ⟨-, -, rfl⟩ := pmemFree_cases h.initialised (h.size ▸ he) hg
  have hrec : ∀ f, (pm.setRecord e 0).record f = if f = e then 0 else pm.record f :=
    fun f => Pmem.record_setRecord
  refine ⟨h.initialised.store _, h.size, h.start, ?_, ?_,
    fun q hq => h.isPage q (List.mem_of_mem_erase hq), h.nodup.erase _⟩
  · intro f hf
    rw [hrec]
    split
    · exact .inl rfl
    · exact h.bit f hf
  · intro f hf
    rw [hrec, h.nodup.mem_erase_iff]
    split
    · next hfe => simp [hfe]
    · next hfe =>
      rw [h.live_iff f hf]
      exact ⟨fun hm => ⟨fun heq => hfe (h.pageAddr_inj hf he heq), hm⟩, And.right⟩

theorem step (x : Pmem × List UInt32) (o : Event UInt32) (y : Pmem × List UInt32)
    (h : PoolInv pm0 x.1 x.2) (hs : Client pmemTakes pmemGives x o y) : PoolInv pm0 y.1 y.2 := by
  cases hs with
  | take ht => exact h.take ht
  | give hp hg => exact h.give hp hg

end PoolInv

/-! ## Whole runs -/

/-- A run of allocations and frees of held pages, from the pool `pm0`. -/
abbrev PmemRun (pm0 : Pmem) (tr : List ((Pmem × List UInt32) × Event UInt32)) (pm : Pmem)
    (live : List UInt32) : Prop :=
  Trace (Client pmemTakes pmemGives) (pm0, []) tr (pm, live)

/-- The allocator lends pages of the pool, and never a held one. -/
theorem pmem_lends_pages {pm0 pm : Pmem} {tr : List ((Pmem × List UInt32) × Event UInt32)}
    {live : List UInt32} (h0 : pm0.Initialised)
    (hfree : ∀ e, e < pm0.pmemMgrReservedSize → pm0.record e = 0) (hrun : PmemRun pm0 tr pm live) :
    Trace (Lend pm0.IsPage) [] (tr.map fun e => (e.1.2, e.2)) live :=
  Client.refines (I := fun x => PoolInv pm0 x.1 x.2) hrun (PoolInv.start_run h0 hfree)
    PoolInv.step fun _ _ _ _ h ht => PoolInv.fresh h ht

/-- **Exclusive pages.**  After any run the records holding 1 are exactly those of the held
pages, the cursor is in range, and the next page handed out is not held. -/
theorem pmem_pages_exclusive {pm0 pm : Pmem} {tr : List ((Pmem × List UInt32) × Event UInt32)}
    {live : List UInt32} (h0 : pm0.Initialised)
    (hfree : ∀ e, e < pm0.pmemMgrReservedSize → pm0.record e = 0) (hrun : PmemRun pm0 tr pm live) :
    pm.pmemCurrAllocRecord < pm0.pmemMgrReservedSize ∧
    (∀ e, e < pm0.pmemMgrReservedSize →
      (pm.record e = 1 ↔ pm0.pmemAllocStart + 4096 * e ∈ live)) ∧
    (∀ p ∈ live, ∃ e, e < pm0.pmemMgrReservedSize ∧ p = pm0.pmemAllocStart + 4096 * e) ∧
    live.Nodup ∧
    ∀ p pm', pmemAlloc pm = .ok (p, pm') →
      (∃ e, e < pm0.pmemMgrReservedSize ∧ p = pm0.pmemAllocStart + 4096 * e) ∧ p ∉ live := by
  have h : PoolInv pm0 pm live :=
    (hrun.invariant (I := fun x => PoolInv pm0 x.1 x.2) (PoolInv.start_run h0 hfree) PoolInv.step).1
  have hcur := h.initialised.cursor
  rw [h.size] at hcur
  have hpage : ∀ e, pm0.pmemAllocStart + 4096 * e = pm0.pageAddr e :=
    fun e => UInt32.add_comm _ _
  obtain ⟨hnodup, hpages⟩ := Lend.held_nodup (pmem_lends_pages h0 hfree hrun)
  simp only [hpage]
  exact ⟨hcur, h.live_iff, hpages, hnodup, fun p pm' ha => h.fresh ha⟩

/-- Three pages from `0x200000` on, all free. -/
def pmemThreePages : Pmem where
  pmemInitialized := true
  pmemMainMemoryStart := 0x100000
  pmemMainMemoryLength := 0x3000
  pmemAllocStart := 0x200000
  pmemMgrReservedSize := 3
  pmemCurrAllocRecord := 0
  mem := fun _ => 0

/-- One page of the three is held: the next one handed out is another. -/
theorem pmem_pages_exclusive_three : ∃ p pm',
    pmemAlloc ((pmemThreePages.setCursor 1).setRecord 1 1) = .ok (p, pm') ∧
      (∃ e, e < 3 ∧ p = 0x200000 + 4096 * e) ∧ p ∉ [0x201000] := by
  have h0 : pmemThreePages.Initialised := ⟨rfl, rfl, by decide⟩
  have hrun : PmemRun pmemThreePages _ ((pmemThreePages.setCursor 1).setRecord 1 1) [0x201000] :=
    .next .start (.take rfl)
  exact ⟨_, _, rfl, (pmem_pages_exclusive h0 (fun _ _ => rfl) hrun).2.2.2.2 _ _ rfl⟩

/-! ## What a caller that frees nothing sees -/

theorem Pmem.pageAddr_aligned {pm : Pmem} (h : pm.pmemAllocStart.toNat % 4096 = 0) (e : UInt32) :
    (pm.pageAddr e).toNat % 4096 = 0 := by
  simp only [Pmem.pageAddr, UInt32.toNat_add, UInt32.toNat_mul, toNat_physBlockSize]
  omega

/-- The pages handed out so far are pages of the pool, and their records are set. -/
theorem allocs_marked {pm0 pm : Pmem} {ps : List UInt32} (h0 : pm0.Initialised)
    (ha : Allocs pmemAlloc pm0 ps pm) :
    pm.Initialised ∧ pm.pmemAllocStart = pm0.pmemAllocStart ∧ ps.Nodup ∧
    ∀ p ∈ ps, ∃ e, e < pm.pmemMgrReservedSize ∧ p = pm.pageAddr e ∧ pm.record e ≠ 0 := by
  induction ha with
  | nil => exact ⟨h0, rfl, List.nodup_nil, by simp⟩
  | @snoc ps t u p _ hp ih =>
    obtain ⟨hi, hs, hnd, hps⟩ := ih
    obtain ⟨e, he, hr, rfl, rfl⟩ := pmemAlloc_cases hi hp
    have hrec : ∀ f, ((t.setCursor e).setRecord e 1).record f = if f = e then 1 else t.record f :=
      fun f => Pmem.record_setRecord
    have hnew : t.pageAddr e ∉ ps := by
      intro hmem
      obtain ⟨f, hf, hef, hrf⟩ := hps _ hmem
      obtain rfl := hi.pageAddr_inj he hf hef
      exact hrf hr
    refine ⟨⟨hi.initialized, hi.size, he⟩, hs, ?_, ?_⟩
    · rw [← List.concat_eq_append]
      exact List.Nodup.concat hnew hnd
    · intro q hq
      rcases List.mem_append.mp hq with hq | hq
      · obtain ⟨f, hf, rfl, hrf⟩ := hps q hq
        refine ⟨f, hf, rfl, ?_⟩
        rw [hrec]
        split
        · decide
        · exact hrf
      · obtain rfl := List.mem_singleton.mp hq
        refine ⟨e, he, rfl, ?_⟩
        rw [hrec, if_pos rfl]
        decide

/-- `pmemAlloc` gives its callers what they rely on. -/
theorem pmem_freshPages {pm : Pmem} (h : pm.Initialised) (hal : pm.pmemAllocStart.toNat % 4096 = 0) :
    FreshPages pmemAlloc pm where
  aligned ps t ha p hp := by
    obtain ⟨-, hs, -, hps⟩ := allocs_marked h ha
    obtain ⟨e, -, rfl, -⟩ := hps p hp
    exact Pmem.pageAddr_aligned (hs ▸ hal) e
  nodup ps t ha := (allocs_marked h ha).2.2.1

end KoizOs
