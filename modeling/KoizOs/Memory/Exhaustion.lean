import KoizOs.Memory.Supply

/-!
# Reporting that memory is exhausted

The scan of `pmem_alloc` ends when it is back at the record it started from, and that
record itself is never looked at.  Where the only free page is the one the cursor stands
on, which is so when all pages were taken and the last of them was given back, the call
panics with "out of memory!".

    NoFalseAlarm pm ↔ ¬ OnlyFreeUnderCursor pm          (pmemAlloc_noFalseAlarm_iff)
-/

namespace KoizOs

open Function Lib

def outOfMemory : String := "out of memory!"

/-- "Out of memory" is reported only if every page is taken, and a page is handed out
whenever one is free. -/
def NoFalseAlarm (pm : Pmem) : Prop :=
  (pmemAlloc pm = panic outOfMemory →
    ∀ e, e < pm.pmemMgrReservedSize → pm.record e ≠ 0) ∧
  ((∃ e, e < pm.pmemMgrReservedSize ∧ pm.record e = 0) →
    ∃ p pm', pmemAlloc pm = .ok (p, pm') ∧ pm.Free p)

/-- The record under the cursor is free, and no other is. -/
def OnlyFreeUnderCursor (pm : Pmem) : Prop :=
  pm.record pm.pmemCurrAllocRecord = 0 ∧
    ∀ e, e < pm.pmemMgrReservedSize → e ≠ pm.pmemCurrAllocRecord → pm.record e ≠ 0

variable {pm pm0 pm' : Pmem} {p : UInt32}

/-! ## The scan that finds nothing -/

/-- With every record but the start taken, the scan ends at its start. -/
theorem pmemAllocLoop_exhausted {start : UInt32} {fuel : Nat}
    (hn : pm.pmemMgrReservedSize.toNat < 2 ^ 20)
    (hc : pm.pmemCurrAllocRecord.toNat < pm.pmemMgrReservedSize.toNat)
    (hs : start.toNat < pm.pmemMgrReservedSize.toNat)
    (htaken : ∀ e, e < pm.pmemMgrReservedSize → e ≠ start → pm.record e ≠ 0)
    (hfuel : ringDist pm.pmemMgrReservedSize.toNat pm.pmemCurrAllocRecord.toNat start.toNat <
      fuel) :
    pmemAllocLoop start fuel pm = panic outOfMemory := by
  induction fuel generalizing pm with
  | zero => exact absurd hfuel (Nat.not_lt_zero _)
  | succ fuel ih =>
    unfold pmemAllocLoop
    by_cases hstart : start = pm.pmemCurrAllocRecord
    · rw [if_pos hstart]
      rfl
    · have hrec := htaken _ (UInt32.lt_iff_toNat_lt.mpr hc) fun heq => hstart heq.symm
      have hcs : pm.pmemCurrAllocRecord.toNat ≠ start.toNat :=
        fun heq => hstart (UInt32.toNat_inj.mp heq).symm
      have hnext := Pmem.nextRecord_toNat hn hc
      have hdist := ringDist_next hc hs hcs
      rw [← hnext] at hdist
      have hlt := Pmem.nextRecord_toNat_lt hc
      rw [if_neg hstart]
      refine (if_neg hrec).trans ?_
      rw [← Pmem.nextRecord_size] at hdist hfuel
      exact ih hn hlt hs htaken (by omega)

theorem pmemAlloc_exhausted (hi : pm.Initialised)
    (htaken : ∀ e, e < pm.pmemMgrReservedSize → e ≠ pm.pmemCurrAllocRecord → pm.record e ≠ 0) :
    pmemAlloc pm = panic outOfMemory := by
  have hn := hi.size_le
  have hc := UInt32.lt_iff_toNat_lt.mp hi.cursor
  have hlt := Pmem.nextRecord_toNat_lt hc
  unfold pmemAlloc
  rw [if_neg (by simp [hi.initialized])]
  apply @pmemAllocLoop_exhausted pm.nextRecord _ _ hn hlt hc htaken
  rw [Pmem.nextRecord_size]
  unfold ringDist
  split_ifs <;> omega

/-- A page that is handed out was free. -/
theorem pmemAlloc_free (hi : pm.Initialised) (h : pmemAlloc pm = .ok (p, pm')) : pm.Free p := by
  obtain ⟨e, he, hr, hp, -⟩ := pmemAlloc_cases hi h
  exact ⟨e, he, hp, hr⟩

theorem Pmem.Initialised.noFalseAlarm_iff (hi : pm.Initialised) :
    NoFalseAlarm pm ↔ ¬ OnlyFreeUnderCursor pm := by
  constructor
  · rintro ⟨halarm, -⟩ ⟨hfree, htaken⟩
    exact halarm (pmemAlloc_exhausted hi htaken) _ hi.cursor hfree
  · intro hnot
    -- a free record means that there is one away from the cursor
    have hother : ∀ e, e < pm.pmemMgrReservedSize → pm.record e = 0 →
        ∃ p pm', pmemAlloc pm = .ok (p, pm') := by
      intro e he hr
      by_cases hcur : e = pm.pmemCurrAllocRecord
      · subst hcur
        have hmore : ∃ f, f < pm.pmemMgrReservedSize ∧ f ≠ pm.pmemCurrAllocRecord ∧
            pm.record f = 0 := by
          by_contra hnone
          push Not at hnone
          exact hnot ⟨hr, hnone⟩
        obtain ⟨f, hf, hne, hrf⟩ := hmore
        obtain ⟨⟨p, pm'⟩, ha⟩ := pmemAlloc_returns hi hf hrf hne
        exact ⟨p, pm', ha⟩
      · obtain ⟨⟨p, pm'⟩, ha⟩ := pmemAlloc_returns hi he hr hcur
        exact ⟨p, pm', ha⟩
    constructor
    · intro halarm e he hr
      obtain ⟨p, pm', ha⟩ := hother e he hr
      exact panic_ne_ok _ _ (halarm.symm.trans ha)
    · rintro ⟨e, he, hr⟩
      obtain ⟨p, pm', ha⟩ := hother e he hr
      exact ⟨p, pm', ha, pmemAlloc_free hi ha⟩

/-- **No false alarm.** In every state that calls lead to after the pool was set up, the
report is right exactly when the record under the cursor is not the only free one. -/
theorem pmemAlloc_noFalseAlarm_iff (h0 : pm0.Initialised) (hr : PmemReachable pm0 pm) :
    NoFalseAlarm pm ↔ ¬ OnlyFreeUnderCursor pm :=
  (hr.keeps h0).1.noFalseAlarm_iff

/-- One of three pages is taken: the next call hands out a page. -/
theorem pmemAlloc_noFalseAlarm_iff_three : ∃ p pm,
    pmemAlloc pmemThreePages = .ok (p, pm) ∧ NoFalseAlarm pm := by
  have h0 : pmemThreePages.Initialised := ⟨rfl, rfl, by decide⟩
  obtain ⟨p, pm, ha, hcur⟩ : ∃ p pm, pmemAlloc pmemThreePages = .ok (p, pm) ∧
      pm.record pm.pmemCurrAllocRecord = 1 := ⟨_, _, rfl, rfl⟩
  refine ⟨p, pm, ha, (pmemAlloc_noFalseAlarm_iff h0 (.single (.alloc ha))).mpr ?_⟩
  rintro ⟨hfree, -⟩
  rw [hcur] at hfree
  exact absurd hfree (by decide)

/-! ## The run that leads there -/

/-- From a cleared pool of two pages or more, any number of pages can be taken. -/
theorem exists_take_run (h0 : pm0.Initialised)
    (hclear : ∀ e, e < pm0.pmemMgrReservedSize → pm0.record e = 0)
    (htwo : 2 ≤ pm0.pmemMgrReservedSize.toNat) {n : Nat} (hn : n ≤ pm0.pmemMgrReservedSize.toNat) :
    ∃ tr pm es, PmemRun pm0 tr pm (es.map pm0.pageAddr) ∧ Taken pm0 pm es ∧ es.length = n ∧
      (n ≠ 0 → pm.pmemCurrAllocRecord ∈ es) := by
  induction n with
  | zero => exact ⟨[], pm0, [], .start, .start h0, rfl, fun h => absurd rfl h⟩
  | succ n ih =>
    obtain ⟨tr, pm, es, hrun, htaken, hlen, hcur⟩ := ih (by omega)
    have hpages := Pmem.freePages_of_cleared hclear
    have hcur' : pm.pmemCurrAllocRecord ∈ es ∨ es.length + 1 < pm0.freePages := by
      by_cases hzero : n = 0
      · exact .inr (by omega)
      · exact .inl (hcur hzero)
    obtain ⟨p, pm', ha⟩ := htaken.returns (by omega) hcur'
    obtain ⟨e, rfl, hcursor, htaken', -⟩ := htaken.alloc ha
    refine ⟨_, pm', e :: es, hrun.next (.take ha), htaken', by simp [hlen], ?_⟩
    intro _
    rw [hcursor]
    exact List.mem_cons_self

/-- As many pages taken as there are: all of them. -/
theorem Taken.mem_of_length {es : List UInt32} (h : Taken pm0 pm es)
    (hlen : es.length = pm0.freePages) {e : UInt32} (he : e < pm0.pmemMgrReservedSize)
    (hr : pm0.record e = 0) : e ∈ es := by
  by_contra hnew
  have hsub : e :: es ⊆ pm0.freeRecords := by
    intro f hf
    rcases List.mem_cons.mp hf with rfl | hf
    · exact Pmem.mem_freeRecords.mpr ⟨he, hr⟩
    · exact Pmem.mem_freeRecords.mpr (h.free f hf)
  have hle := (List.subperm_of_subset (List.nodup_cons.mpr ⟨hnew, h.nodup⟩) hsub).length_le
  rw [List.length_cons, hlen] at hle
  exact absurd hle (Nat.not_succ_le_self _)

/-- **A false alarm** can be had from every cleared pool that ends below 4 GiB: take all
pages, and give back the last. -/
theorem exists_falseAlarm_run (h0 : pm0.Initialised)
    (hclear : ∀ e, e < pm0.pmemMgrReservedSize → pm0.record e = 0)
    (hend : pm0.pmemAllocStart.toNat + pm0.pmemMainMemoryLength.toNat < 2 ^ 32) :
    ∃ tr pm live, PmemRun pm0 tr pm live ∧ OnlyFreeUnderCursor pm := by
  have hpos := UInt32.lt_iff_toNat_lt.mp h0.cursor
  by_cases htwo : 2 ≤ pm0.pmemMgrReservedSize.toNat
  · obtain ⟨tr, pm, es, hrun, htaken, hlen, hcur⟩ := exists_take_run h0 hclear htwo (Nat.le_refl _)
    have hmem := hcur (by omega)
    obtain ⟨res, hfree, hgiven⟩ := htaken.give hmem hend
    have hpages := Pmem.freePages_of_cleared hclear
    refine ⟨_, _, _, hrun.next (.give (List.mem_map_of_mem hmem) ⟨res, hfree⟩), ?_, ?_⟩
    · exact Pmem.record_setRecord.trans (if_pos rfl)
    · intro e he hne
      have he0 : e < pm0.pmemMgrReservedSize := htaken.layout.size ▸ he
      have hin : e ∈ es := htaken.mem_of_length (by omega) he0 (hclear e he0)
      rw [hgiven.record e he0, if_pos]
      · decide
      · exact (List.mem_erase_of_ne hne).mpr hin
  · -- a pool of one page is stuck right away
    refine ⟨[], pm0, [], .start, hclear _ h0.cursor, ?_⟩
    intro e he hne
    refine absurd (UInt32.toNat_inj.mp ?_) hne
    have he := UInt32.lt_iff_toNat_lt.mp he
    omega

/-- A pool of 31 pages: after 31 calls of `pmem_alloc` and one of `pmem_free` there is a free
page, and the next call panics. -/
theorem pmemAlloc_falseAlarm : ∃ pm0 tr pm live,
    pmemInitialize (some ⟨0x40, 24, 0x9000⟩) 0x100000
      (.boot (wordsAt9000 [20, 0x100000, 0, 0x20000, 0, 1])) = .ok pm0 ∧
    PmemRun pm0 tr pm live ∧ pmemAlloc pm = panic outOfMemory ∧
    (∃ e, e < pm.pmemMgrReservedSize ∧ pm.record e = 0) ∧ ¬ NoFalseAlarm pm := by
  obtain ⟨pm0, hinit, hstart, hlength⟩ : ∃ pm0,
      pmemInitialize (some ⟨0x40, 24, 0x9000⟩) 0x100000
        (.boot (wordsAt9000 [20, 0x100000, 0, 0x20000, 0, 1])) = .ok pm0 ∧
      pm0.pmemAllocStart = 0x101000 ∧ pm0.pmemMainMemoryLength = 0x1F000 := ⟨_, rfl, rfl, rfl⟩
  have hset := hinit
  rw [pmemInitialize_eq (S := 0x100000) (L := 0x20000) rfl] at hset
  have h0 := pmemSetUp_initialised rfl hset
  have hclear := (pmemSetUp_layout (by decide) (by decide) hset).cleared
  obtain ⟨tr, pm, live, hrun, honly⟩ :=
    exists_falseAlarm_run h0 hclear (by rw [hstart, hlength]; decide)
  have hi : pm.Initialised := (hrun.invariant (I := fun x => PoolInv pm0 x.1 x.2)
    (PoolInv.start_run h0 hclear) PoolInv.step).1.initialised
  exact ⟨pm0, tr, pm, live, hinit, hrun, pmemAlloc_exhausted hi honly.2,
    ⟨_, hi.cursor, honly.1⟩, fun h => hi.noFalseAlarm_iff.mp h honly⟩

end KoizOs
