import KoizOs.Lib.Ring
import KoizOs.Memory.Initialize
import KoizOs.Memory.Mem
import KoizOs.Memory.Pages
import Mathlib.Data.List.Perm.Subperm
import Mathlib.Logic.Relation

/-!
# When the allocator returns

A scan ends at the first free record behind the cursor, so `pmemAlloc` returns whenever
some record other than the cursor's own is free (`pmemAlloc_returns`).  `pmemFree` returns
for every taken page of a pool that ends below 4 GiB (`pmemFree_returns`); where the end of
the pool wraps, its range check refuses every address (`pmemFree_wraps`).

`Taken pm0 pm es`: the pool `pm` is `pm0` with the pages `es` taken from its free ones.
-/

namespace KoizOs

open Function Lib

/-! ## The scan -/

variable {pm pm' pm0 : Pmem} {p e : UInt32} {es : List UInt32}

theorem Pmem.nextRecord_size : pm.nextRecord.pmemMgrReservedSize = pm.pmemMgrReservedSize := rfl

theorem Pmem.nextRecord_toNat (hn : pm.pmemMgrReservedSize.toNat < 2 ^ 20)
    (hc : pm.pmemCurrAllocRecord.toNat < pm.pmemMgrReservedSize.toNat) :
    pm.nextRecord.pmemCurrAllocRecord.toNat =
      if pm.pmemCurrAllocRecord.toNat + 1 ≥ pm.pmemMgrReservedSize.toNat then 0
      else pm.pmemCurrAllocRecord.toNat + 1 := by
  have hsucc : (pm.pmemCurrAllocRecord + 1).toNat = pm.pmemCurrAllocRecord.toNat + 1 := by
    rw [UInt32.toNat_add]
    simp only [UInt32.toNat_ofNat]
    omega
  simp only [Pmem.nextRecord]
  by_cases hwrap : pm.pmemCurrAllocRecord.toNat + 1 ≥ pm.pmemMgrReservedSize.toNat
  · rw [if_pos (by rw [ge_iff_le, UInt32.le_iff_toNat_le, hsucc]; exact hwrap), if_pos hwrap]
    rfl
  · rw [if_neg (by rw [ge_iff_le, UInt32.le_iff_toNat_le, hsucc]; exact hwrap), if_neg hwrap]
    exact hsucc

theorem Pmem.nextRecord_toNat_lt
    (hc : pm.pmemCurrAllocRecord.toNat < pm.pmemMgrReservedSize.toNat) :
    pm.nextRecord.pmemCurrAllocRecord.toNat < pm.pmemMgrReservedSize.toNat := by
  have hpos : 0 < pm.pmemMgrReservedSize := UInt32.lt_iff_toNat_lt.mpr (Nat.zero_lt_of_lt hc)
  exact UInt32.lt_iff_toNat_lt.mp (Pmem.nextRecord_lt hpos)

/-- The scan ends at record `e` at the latest, when it meets `e` before its start. -/
theorem pmemAllocLoop_returns {start : UInt32} {fuel : Nat}
    (hn : pm.pmemMgrReservedSize.toNat < 2 ^ 20)
    (hc : pm.pmemCurrAllocRecord.toNat < pm.pmemMgrReservedSize.toNat)
    (hs : start.toNat < pm.pmemMgrReservedSize.toNat)
    (he : e.toNat < pm.pmemMgrReservedSize.toNat) (hr : pm.record e = 0)
    (hbefore : ringDist pm.pmemMgrReservedSize.toNat pm.pmemCurrAllocRecord.toNat e.toNat <
      ringDist pm.pmemMgrReservedSize.toNat pm.pmemCurrAllocRecord.toNat start.toNat)
    (hfuel : ringDist pm.pmemMgrReservedSize.toNat pm.pmemCurrAllocRecord.toNat e.toNat < fuel) :
    ∃ r, pmemAllocLoop start fuel pm = .ok r := by
  induction fuel generalizing pm with
  | zero => exact absurd hfuel (Nat.not_lt_zero _)
  | succ fuel ih =>
    have hstart : start ≠ pm.pmemCurrAllocRecord := by
      rintro rfl
      unfold ringDist at hbefore
      split_ifs at hbefore <;> omega
    unfold pmemAllocLoop
    rw [if_neg hstart]
    dsimp only
    by_cases hrec : pm.mem (pm.recordPtr pm.pmemCurrAllocRecord) = 0
    · have hbound : ¬ pm.pmemCurrAllocRecord > pm.pmemMgrReservedSize := by
        rw [gt_iff_lt, UInt32.lt_iff_toNat_lt]
        omega
      rw [if_pos hrec, pmemEntryToPtr, if_neg hbound]
      exact ⟨_, rfl⟩
    · -- record `e` is not this one, so both distances go down by one
      have hce : pm.pmemCurrAllocRecord.toNat ≠ e.toNat := by
        intro heq
        rw [UInt32.toNat_inj.mp heq] at hrec
        exact hrec hr
      have hcs : pm.pmemCurrAllocRecord.toNat ≠ start.toNat :=
        fun heq => hstart (UInt32.toNat_inj.mp heq).symm
      have hnext := Pmem.nextRecord_toNat hn hc
      have hde := ringDist_next hc he hce
      have hds := ringDist_next hc hs hcs
      rw [← hnext] at hde hds
      have hlt := Pmem.nextRecord_toNat_lt hc
      rw [if_neg hrec]
      rw [← Pmem.nextRecord_size] at hde hds hbefore hfuel
      exact ih hn hlt hs he hr (by omega) (by omega)

/-- The allocator returns when some record other than the one it stands on is free. -/
theorem pmemAlloc_returns (hi : pm.Initialised) (he : e < pm.pmemMgrReservedSize)
    (hr : pm.record e = 0) (hne : e ≠ pm.pmemCurrAllocRecord) : ∃ r, pmemAlloc pm = .ok r := by
  have hn := hi.size_le
  have hc := UInt32.lt_iff_toNat_lt.mp hi.cursor
  have he' := UInt32.lt_iff_toNat_lt.mp he
  have hne' : e.toNat ≠ pm.pmemCurrAllocRecord.toNat := fun heq => hne (UInt32.toNat_inj.mp heq)
  have hnext := Pmem.nextRecord_toNat hn hc
  have hbefore := ringDist_next_lt hc he' hne'
  have hdist := ringDist_next hc he' (Ne.symm hne')
  rw [← hnext] at hbefore hdist
  have hlt := Pmem.nextRecord_toNat_lt hc
  have hfuel : ringDist pm.pmemMgrReservedSize.toNat pm.nextRecord.pmemCurrAllocRecord.toNat
      e.toNat < pm.pmemMgrReservedSize.toNat + 1 := by
    have : ringDist pm.pmemMgrReservedSize.toNat pm.pmemCurrAllocRecord.toNat e.toNat <
        pm.pmemMgrReservedSize.toNat := by
      unfold ringDist
      split_ifs <;> omega
    omega
  unfold pmemAlloc
  rw [if_neg (by simp [hi.initialized])]
  exact pmemAllocLoop_returns hn hlt hc he' hr hbefore hfuel

/-- The texts of all panics of `pmem_alloc`. -/
def pmemAllocPanics : List String :=
  ["Call to pmem_alloc before initialized!", "out of memory!",
    "pmem_entry_to_ptr: entry out of bounds!"]

theorem pmemAllocLoop_panics {start : UInt32} {fuel : Nat} {message : String}
    (h : pmemAllocLoop start fuel pm = panic message) : message ∈ pmemAllocPanics := by
  induction fuel generalizing pm with
  | zero => cases h
  | succ fuel ih =>
    unfold pmemAllocLoop at h
    split at h
    · cases h
      simp [pmemAllocPanics]
    · dsimp only at h
      split at h
      · unfold pmemEntryToPtr at h
        split at h
        · cases h
          simp [pmemAllocPanics]
        · cases h
      · exact ih h

theorem pmemAlloc_panics {message : String} (h : pmemAlloc pm = panic message) :
    message ∈ pmemAllocPanics := by
  unfold pmemAlloc at h
  split at h
  · cases h
    simp [pmemAllocPanics]
  · exact pmemAllocLoop_panics h

/-! ## Free pages -/

namespace Pmem

def freeRecords (pm : Pmem) : List UInt32 :=
  ((List.range pm.pmemMgrReservedSize.toNat).map UInt32.ofNat).filter fun e => pm.record e = 0

def freePages (pm : Pmem) : Nat := pm.freeRecords.length

/-- Page `p` of the pool is taken. -/
def Allocated (pm : Pmem) (p : UInt32) : Prop :=
  ∃ e, e < pm.pmemMgrReservedSize ∧ p = pm.pageAddr e ∧ pm.record e ≠ 0

/-- Page `p` of the pool is free. -/
def Free (pm : Pmem) (p : UInt32) : Prop :=
  ∃ e, e < pm.pmemMgrReservedSize ∧ p = pm.pageAddr e ∧ pm.record e = 0

theorem mem_freeRecords : e ∈ pm.freeRecords ↔ e < pm.pmemMgrReservedSize ∧ pm.record e = 0 := by
  rw [freeRecords, List.mem_filter, List.mem_map, decide_eq_true_iff, UInt32.lt_iff_toNat_lt]
  constructor
  · rintro ⟨⟨k, hk, rfl⟩, hr⟩
    rw [List.mem_range] at hk
    refine ⟨?_, hr⟩
    rw [UInt32.toNat_ofNat']
    omega
  · rintro ⟨he, hr⟩
    exact ⟨⟨e.toNat, List.mem_range.mpr he, UInt32.ofNat_toNat⟩, hr⟩

theorem freeRecords_nodup (pm : Pmem) : pm.freeRecords.Nodup := by
  apply List.Nodup.filter
  apply List.Nodup.map_on _ List.nodup_range
  intro i hi j hj hij
  rw [List.mem_range] at hi hj
  have := pm.pmemMgrReservedSize.toNat_lt
  have hij := congrArg UInt32.toNat hij
  rw [UInt32.toNat_ofNat', UInt32.toNat_ofNat'] at hij
  omega

/-- A list shorter than the free pages misses one of them. -/
theorem exists_free_notMem (es : List UInt32) (h : es.length < pm.freePages) :
    ∃ e, e < pm.pmemMgrReservedSize ∧ pm.record e = 0 ∧ e ∉ es := by
  by_contra hall
  push Not at hall
  have hsub : pm.freeRecords ⊆ es := by
    intro e he
    obtain ⟨he, hr⟩ := mem_freeRecords.mp he
    exact hall e he hr
  have hle := (List.subperm_of_subset pm.freeRecords_nodup hsub).length_le
  exact absurd h (Nat.not_lt.mpr hle)

theorem freePages_of_cleared (h : ∀ e, e < pm.pmemMgrReservedSize → pm.record e = 0) :
    pm.freePages = pm.pmemMgrReservedSize.toNat := by
  have hall : pm.freeRecords = (List.range pm.pmemMgrReservedSize.toNat).map UInt32.ofNat := by
    apply List.filter_eq_self.mpr
    intro e he
    obtain ⟨k, hk, rfl⟩ := List.mem_map.mp he
    rw [List.mem_range] at hk
    rw [decide_eq_true_iff]
    apply h
    rw [UInt32.lt_iff_toNat_lt, UInt32.toNat_ofNat']
    omega
  rw [freePages, hall, List.length_map, List.length_range]

theorem freePages_congr (hsize : pm'.pmemMgrReservedSize = pm.pmemMgrReservedSize)
    (hrec : ∀ e, e < pm.pmemMgrReservedSize → pm'.record e = pm.record e) :
    pm'.freePages = pm.freePages := by
  unfold freePages freeRecords
  rw [hsize]
  congr 1
  apply List.filter_congr
  intro e he
  obtain ⟨k, hk, rfl⟩ := List.mem_map.mp he
  rw [List.mem_range] at hk
  rw [hrec]
  rw [UInt32.lt_iff_toNat_lt, UInt32.toNat_ofNat']
  omega

end Pmem

/-! ## Giving a page back -/

/-- A taken page can be freed when the pool ends below 4 GiB. -/
theorem pmemFree_returns (hi : pm.Initialised) (he : e < pm.pmemMgrReservedSize)
    (hr : pm.record e ≠ 0)
    (hend : pm.pmemAllocStart.toNat + pm.pmemMainMemoryLength.toNat < 2 ^ 32) :
    pmemFree pm (pm.pageAddr e) = .ok (0, pm.setRecord e 0) := by
  have he' := UInt32.lt_iff_toNat_lt.mp he
  have hsize : pm.pmemMgrReservedSize.toNat = pm.pmemMainMemoryLength.toNat / 4096 := by
    rw [hi.size, UInt32.toNat_div, toNat_physBlockSize]
  have hpage : (pm.pageAddr e).toNat = pm.pmemAllocStart.toNat + 4096 * e.toNat := by
    rw [Pmem.pageAddr, UInt32.toNat_add, UInt32.toNat_mul, toNat_physBlockSize]
    omega
  have hlow : ¬ pm.pmemAllocStart > pm.pageAddr e := by
    rw [gt_iff_lt, UInt32.lt_iff_toNat_lt, hpage]
    omega
  have hhigh : ¬ pm.pmemAllocStart + pm.pmemMainMemoryLength < pm.pageAddr e := by
    rw [UInt32.lt_iff_toNat_lt, hpage, UInt32.toNat_add]
    omega
  unfold pmemFree pmemPtrToEntry
  rw [if_neg hlow, if_neg hhigh, ok_bind, Pmem.pageAddr_sub (by omega)]
  exact if_neg hr

/-- Where `pmem_alloc_start + pmem_main_memory_length` wraps, no address passes both range
checks. -/
theorem pmemFree_wraps (hend : 2 ^ 32 ≤ pm.pmemAllocStart.toNat + pm.pmemMainMemoryLength.toNat)
    (p : UInt32) : ∃ message, pmemFree pm p = panic message := by
  have hlen := pm.pmemMainMemoryLength.toNat_lt
  unfold pmemFree pmemPtrToEntry
  by_cases hlow : pm.pmemAllocStart > p
  · rw [if_pos hlow]
    exact ⟨_, rfl⟩
  · have hhigh : pm.pmemAllocStart + pm.pmemMainMemoryLength < p := by
      rw [gt_iff_lt, UInt32.lt_iff_toNat_lt] at hlow
      rw [UInt32.lt_iff_toNat_lt, UInt32.toNat_add]
      omega
    rw [if_neg hlow, if_pos hhigh]
    exact ⟨_, rfl⟩

/-! ## Taking pages and giving them back -/

/-- The pools with the static variables of `pm0` that `pmem_initialize` sets. -/
structure Pmem.SameLayout (pm0 pm : Pmem) : Prop where
  start : pm.pmemMainMemoryStart = pm0.pmemMainMemoryStart
  length : pm.pmemMainMemoryLength = pm0.pmemMainMemoryLength
  allocStart : pm.pmemAllocStart = pm0.pmemAllocStart
  size : pm.pmemMgrReservedSize = pm0.pmemMgrReservedSize

theorem Pmem.SameLayout.refl (pm : Pmem) : pm.SameLayout pm := ⟨rfl, rfl, rfl, rfl⟩

theorem Pmem.SameLayout.store (pm : Pmem) (m : Mem) : pm.SameLayout { pm with mem := m } :=
  ⟨rfl, rfl, rfl, rfl⟩

theorem Pmem.SameLayout.trans {pm1 pm2 : Pmem} (h : pm0.SameLayout pm1) (h' : pm1.SameLayout pm2) :
    pm0.SameLayout pm2 :=
  ⟨h'.start.trans h.start, h'.length.trans h.length, h'.allocStart.trans h.allocStart,
    h'.size.trans h.size⟩

/-- `pm` is the pool `pm0` with the free pages of the records `es` taken. -/
structure Taken (pm0 pm : Pmem) (es : List UInt32) : Prop where
  initialised : pm.Initialised
  layout : pm0.SameLayout pm
  nodup : es.Nodup
  free : ∀ e ∈ es, e < pm0.pmemMgrReservedSize ∧ pm0.record e = 0
  record : ∀ f, f < pm0.pmemMgrReservedSize → pm.record f = if f ∈ es then 1 else pm0.record f

namespace Taken

theorem start (h : pm0.Initialised) : Taken pm0 pm0 [] where
  initialised := h
  layout := .refl pm0
  nodup := List.nodup_nil
  free := by simp
  record f _ := by simp

theorem pageAddr_eq (h : Taken pm0 pm es) (e : UInt32) : pm.pageAddr e = pm0.pageAddr e := by
  simp only [Pmem.pageAddr, h.layout.allocStart]

theorem perm {es' : List UInt32} (h : Taken pm0 pm es) (hp : es.Perm es') : Taken pm0 pm es' where
  initialised := h.initialised
  layout := h.layout
  nodup := hp.nodup_iff.mp h.nodup
  free e he := h.free e (hp.mem_iff.mpr he)
  record f hf := by
    simp only [← hp.mem_iff]
    exact h.record f hf

/-- Stores that leave the records alone leave the pages taken. -/
theorem store {m : Mem} (h : Taken pm0 pm es)
    (hm : ∀ f, f < pm.pmemMgrReservedSize → m (pm.recordPtr f) = pm.mem (pm.recordPtr f)) :
    Taken pm0 { pm with mem := m } es where
  initialised := h.initialised.store m
  layout := h.layout.trans (.store pm m)
  nodup := h.nodup
  free := h.free
  record f hf := (hm f (h.layout.size ▸ hf)).trans (h.record f hf)

theorem alloc (h : Taken pm0 pm es) (ha : pmemAlloc pm = .ok (p, pm')) :
    ∃ e, p = pm0.pageAddr e ∧ pm'.pmemCurrAllocRecord = e ∧ Taken pm0 pm' (e :: es) ∧
      ∀ x, x ≠ pm.recordPtr e → pm'.mem x = pm.mem x := by
  obtain ⟨e, he, hr, rfl, rfl⟩ := pmemAlloc_cases h.initialised ha
  have he0 : e < pm0.pmemMgrReservedSize := h.layout.size ▸ he
  have hrec := h.record e he0
  have hnew : e ∉ es := by
    intro hmem
    rw [if_pos hmem, hr] at hrec
    exact absurd hrec (by decide)
  rw [if_neg hnew, hr] at hrec
  refine ⟨e, h.pageAddr_eq e, rfl, ?_, fun x hx => update_of_ne hx _ _⟩
  refine ⟨⟨h.initialised.initialized, h.initialised.size, he⟩,
    ⟨h.layout.start, h.layout.length, h.layout.allocStart, h.layout.size⟩,
    List.nodup_cons.mpr ⟨hnew, h.nodup⟩, ?_, ?_⟩
  · intro f hf
    rcases List.mem_cons.mp hf with rfl | hf
    · exact ⟨he0, hrec.symm⟩
    · exact h.free f hf
  · intro f hf
    have hset : ((pm.setCursor e).setRecord e 1).record f = if f = e then 1 else pm.record f :=
      Pmem.record_setRecord
    rw [hset, h.record f hf]
    by_cases hfe : f = e
    · rw [if_pos hfe, if_pos (List.mem_cons.mpr (.inl hfe))]
    · simp only [List.mem_cons, hfe, false_or, if_false]

/-- The next page: with the cursor on a taken record, one free page is enough. -/
theorem returns (h : Taken pm0 pm es) (hfree : es.length < pm0.freePages)
    (hcur : pm.pmemCurrAllocRecord ∈ es ∨ es.length + 1 < pm0.freePages) :
    ∃ p pm', pmemAlloc pm = .ok (p, pm') := by
  have hother : ∃ e, e < pm0.pmemMgrReservedSize ∧ pm0.record e = 0 ∧ e ∉ es ∧
      e ≠ pm.pmemCurrAllocRecord := by
    rcases hcur with hcur | hmore
    · obtain ⟨e, he, hr, hne⟩ := Pmem.exists_free_notMem es hfree
      exact ⟨e, he, hr, hne, fun heq => hne (heq ▸ hcur)⟩
    · obtain ⟨e, he, hr, hne⟩ :=
        Pmem.exists_free_notMem (pm.pmemCurrAllocRecord :: es) hmore
      rw [List.mem_cons, not_or] at hne
      exact ⟨e, he, hr, hne.2, hne.1⟩
  obtain ⟨e, he, hr, hne, hcur⟩ := hother
  have hrec := h.record e he
  rw [if_neg hne, hr] at hrec
  obtain ⟨⟨p, pm'⟩, ha⟩ := pmemAlloc_returns h.initialised (h.layout.size.symm ▸ he) hrec hcur
  exact ⟨p, pm', ha⟩

/-- Giving one of the pages back, in a pool that ends below 4 GiB. -/
theorem give (h : Taken pm0 pm es) (he : e ∈ es)
    (hend : pm0.pmemAllocStart.toNat + pm0.pmemMainMemoryLength.toNat < 2 ^ 32) :
    ∃ res, pmemFree pm (pm0.pageAddr e) = .ok (res, pm.setRecord e 0) ∧
      Taken pm0 (pm.setRecord e 0) (es.erase e) := by
  have he0 := (h.free e he).1
  have hrec := h.record e he0
  rw [if_pos he] at hrec
  rw [← h.layout.allocStart, ← h.layout.length] at hend
  refine ⟨0, ?_, ?_⟩
  · rw [← h.pageAddr_eq]
    exact pmemFree_returns h.initialised (h.layout.size.symm ▸ he0) (by rw [hrec]; decide) hend
  · refine ⟨h.initialised.store _, h.layout.trans (.store pm _), h.nodup.erase _,
      fun f hf => h.free f (List.mem_of_mem_erase hf), ?_⟩
    intro f hf
    have hset : (pm.setRecord e 0).record f = if f = e then 0 else pm.record f :=
      Pmem.record_setRecord
    rw [hset, h.record f hf]
    simp only [h.nodup.mem_erase_iff]
    by_cases hfe : f = e
    · subst hfe
      rw [if_pos rfl, if_neg (fun hf => hf.1 rfl), (h.free f he).2]
    · simp only [hfe, if_false, ne_eq, not_false_eq_true, true_and]

theorem allocated_iff (h : Taken pm0 pm es) :
    pm.Allocated p ↔ pm0.Allocated p ∨ p ∈ es.map pm0.pageAddr := by
  constructor
  · rintro ⟨e, he, rfl, hr⟩
    rw [h.pageAddr_eq]
    by_cases hmem : e ∈ es
    · exact .inr (List.mem_map_of_mem hmem)
    · have he0 : e < pm0.pmemMgrReservedSize := h.layout.size ▸ he
      rw [h.record e he0, if_neg hmem] at hr
      exact .inl ⟨e, he0, rfl, hr⟩
  · rintro (⟨e, he, rfl, hr⟩ | hp)
    · refine ⟨e, h.layout.size.symm ▸ he, (h.pageAddr_eq e).symm, ?_⟩
      rw [h.record e he, if_neg]
      · exact hr
      · intro hmem
        exact hr (h.free e hmem).2
    · obtain ⟨e, hmem, rfl⟩ := List.mem_map.mp hp
      have he0 := (h.free e hmem).1
      refine ⟨e, h.layout.size.symm ▸ he0, (h.pageAddr_eq e).symm, ?_⟩
      rw [h.record e he0, if_pos hmem]
      decide

/-- Different records of the pages taken name different pages. -/
theorem pageAddr_inj (h : Taken pm0 pm es) (he : e ∈ es) {f : UInt32} (hf : f ∈ es)
    (heq : pm0.pageAddr e = pm0.pageAddr f) : e = f := by
  rw [← h.pageAddr_eq, ← h.pageAddr_eq] at heq
  exact h.initialised.pageAddr_inj (h.layout.size.symm ▸ (h.free e he).1)
    (h.layout.size.symm ▸ (h.free f hf).1) heq

end Taken

/-! ## Pages away from the records -/

/-- The records end before the pages, and the pages before 4 GiB. -/
structure Pmem.Apart (pm : Pmem) : Prop where
  aligned : PageAligned pm.pmemAllocStart
  before : pm.pmemMainMemoryStart.toNat + pm.pmemMgrReservedSize.toNat ≤ pm.pmemAllocStart.toNat
  top : pm.pmemAllocStart.toNat + 4096 * pm.pmemMgrReservedSize.toNat ≤ 2 ^ 32

namespace Pmem.Apart

theorem congr (h : pm0.Apart) (hl : pm0.SameLayout pm) : pm.Apart where
  aligned := by
    rw [hl.allocStart]
    exact h.aligned
  before := by
    rw [hl.start, hl.size, hl.allocStart]
    exact h.before
  top := by
    rw [hl.size, hl.allocStart]
    exact h.top

theorem pageAddr_toNat (h : pm.Apart) (he : e < pm.pmemMgrReservedSize) :
    (pm.pageAddr e).toNat = pm.pmemAllocStart.toNat + 4096 * e.toNat := by
  have htop := h.top
  have he := UInt32.lt_iff_toNat_lt.mp he
  rw [Pmem.pageAddr, UInt32.toNat_add, UInt32.toNat_mul, toNat_physBlockSize]
  omega

theorem pageAddr_aligned (h : pm.Apart) (e : UInt32) : PageAligned (pm.pageAddr e) :=
  Pmem.pageAddr_aligned h.aligned e

theorem pageAddr_ne_zero (h : pm.Apart) (he : e < pm.pmemMgrReservedSize) : pm.pageAddr e ≠ 0 := by
  intro h0
  have hpage := h.pageAddr_toNat he
  have hbefore := h.before
  have he := UInt32.lt_iff_toNat_lt.mp he
  rw [h0, UInt32.toNat_zero] at hpage
  omega

/-- A byte of a page holds no record. -/
theorem recordPtr_ne {f : UInt32} {o : Nat} (h : pm.Apart) (hf : f < pm.pmemMgrReservedSize)
    (he : e < pm.pmemMgrReservedSize) (ho : o < 4096) :
    pm.recordPtr f ≠ pm.pageAddr e + UInt32.ofNat o := by
  intro heq
  have hpage := page_add_toNat (h.pageAddr_aligned e) ho
  have hbefore := h.before
  rw [← heq, h.pageAddr_toNat he, Pmem.recordPtr, UInt32.toNat_add] at hpage
  have hf := UInt32.lt_iff_toNat_lt.mp hf
  omega

end Pmem.Apart

/-- While pages are taken, too. -/
theorem Taken.recordPtr_ne {f : UInt32} {o : Nat} (h : Taken pm0 pm es) (ha : pm0.Apart)
    (hf : f < pm0.pmemMgrReservedSize) (he : e < pm0.pmemMgrReservedSize) (ho : o < 4096) :
    pm.recordPtr f ≠ pm0.pageAddr e + UInt32.ofNat o := by
  have hsize := h.layout.size.symm
  rw [← h.pageAddr_eq]
  exact (ha.congr h.layout).recordPtr_ne (hsize ▸ hf) (hsize ▸ he) ho

theorem PoolLayout.apart {S L K : UInt32} {pm : Pmem} (h : PoolLayout S L K pm)
    (hregion : S.toNat + L.toNat ≤ 2 ^ 32) : pm.Apart where
  aligned := h.aligned
  before := h.before
  top := Nat.le_trans h.inside.2 hregion

/-! ## Allocated pages -/

/-- An allocation adds its page to the allocated ones, and it was not one of them. -/
theorem pmemAlloc_allocated (hi : pm.Initialised) (ha : pmemAlloc pm = .ok (p, pm')) :
    pm'.Initialised ∧ ¬ pm.Allocated p ∧ ∀ q, pm'.Allocated q ↔ pm.Allocated q ∨ q = p := by
  obtain ⟨e, rfl, -, htaken, -⟩ := (Taken.start hi).alloc ha
  obtain ⟨he, hr⟩ := htaken.free e (List.mem_singleton_self e)
  refine ⟨htaken.initialised, ?_, ?_⟩
  · rintro ⟨f, hf, hef, hrf⟩
    rw [hi.pageAddr_inj he hf hef] at hr
    exact hrf hr
  · intro q
    rw [htaken.allocated_iff]
    simp

/-- Freeing a page takes that page from the allocated ones. -/
theorem pmemFree_allocated {res : Int} (hi : pm.Initialised) (he : e < pm.pmemMgrReservedSize)
    (hf : pmemFree pm (pm.pageAddr e) = .ok (res, pm')) :
    pm'.Initialised ∧ ∀ q, q ≠ pm.pageAddr e → (pm'.Allocated q ↔ pm.Allocated q) := by
  obtain ⟨-, -, rfl⟩ := pmemFree_cases hi he hf
  refine ⟨hi.store _, ?_⟩
  intro q hq
  have hrec : ∀ f, q = pm.pageAddr f → (pm.setRecord e 0).record f = pm.record f := by
    rintro f rfl
    rw [Pmem.record_setRecord, if_neg]
    rintro rfl
    exact hq rfl
  constructor
  · rintro ⟨f, hlt, heq, hr⟩
    exact ⟨f, hlt, heq, by rwa [hrec f heq] at hr⟩
  · rintro ⟨f, hlt, heq, hr⟩
    exact ⟨f, hlt, heq, by rwa [hrec f heq]⟩

theorem allocated_store {m : Mem}
    (hm : ∀ f, f < pm.pmemMgrReservedSize → m (pm.recordPtr f) = pm.mem (pm.recordPtr f))
    (q : UInt32) : Pmem.Allocated { pm with mem := m } q ↔ pm.Allocated q := by
  constructor
  · rintro ⟨f, hlt, heq, hr⟩
    exact ⟨f, hlt, heq, fun h0 => hr ((hm f hlt).trans h0)⟩
  · rintro ⟨f, hlt, heq, hr⟩
    exact ⟨f, hlt, heq, fun h0 => hr ((hm f hlt).symm.trans h0)⟩

/-! ## Reachable pools -/

/-- Pages are handed out and given back, and all code stores into the memory: nothing
below relies on what the records hold. -/
inductive PmemStep (pm : Pmem) : Pmem → Prop
  | alloc {p : UInt32} {pm' : Pmem} : pmemAlloc pm = .ok (p, pm') → PmemStep pm pm'
  | free {p : UInt32} {res : Int} {pm' : Pmem} : pmemFree pm p = .ok (res, pm') → PmemStep pm pm'
  | store (m : Mem) : PmemStep pm { pm with mem := m }

theorem pmemFree_mem {res : Int} (h : pmemFree pm p = .ok (res, pm')) :
    ∃ m, pm' = { pm with mem := m } := by
  obtain ⟨record, -, hset⟩ := bind_eq_ok.mp h
  dsimp only at hset
  split at hset
  · cases hset
  · exact ⟨_, (Prod.mk.inj (Except.ok.inj hset)).2.symm⟩

theorem PmemStep.keeps (hs : PmemStep pm pm') (h : pm.Initialised) :
    pm'.Initialised ∧ pm.SameLayout pm' := by
  cases hs with
  | alloc ha =>
    obtain ⟨e, he, -, -, rfl⟩ := pmemAlloc_cases h ha
    exact ⟨⟨h.initialized, h.size, he⟩, ⟨rfl, rfl, rfl, rfl⟩⟩
  | free hf =>
    obtain ⟨m, rfl⟩ := pmemFree_mem hf
    exact ⟨h.store m, .store pm m⟩
  | store m => exact ⟨h.store m, .store pm m⟩

/-- The pools in use after `pm0` was set up. -/
abbrev PmemReachable (pm0 pm : Pmem) : Prop := Relation.ReflTransGen PmemStep pm0 pm

theorem PmemReachable.keeps (hr : PmemReachable pm0 pm) (h : pm0.Initialised) :
    pm.Initialised ∧ pm0.SameLayout pm := by
  induction hr with
  | refl => exact ⟨h, .refl pm0⟩
  | tail _ hs ih =>
    obtain ⟨hi, hl⟩ := hs.keeps ih.1
    exact ⟨hi, ih.2.trans hl⟩

end KoizOs
