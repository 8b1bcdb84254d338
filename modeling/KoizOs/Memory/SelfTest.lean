import KoizOs.Memory.PageNumbers

/-!
# The test of the page pool at boot

`pmem_run_tests` comes right behind `pmem_initialize`: three records are turned into their pages
and back.  A pool whose end wraps does not get past the first of them, because the end lies before
the first page then.
-/

namespace KoizOs

/-! ## Algorithm -/

def pmemTestRecord (pm : Pmem) (entryRecord : UInt32) : Kern Unit := do
  let entryTest ← pmemEntryToPtr pm entryRecord
  let reverseTest ← pmemPtrToEntry pm entryTest
  if reverseTest ≠ entryRecord then panic "entry record lookups failed!" else return ()

/-- The test that allocates is not compiled.  The messages are left out. -/
def pmemRunTests (pm : Pmem) : Kern Unit := do
  pmemTestRecord pm 0
  pmemTestRecord pm 5
  pmemTestRecord pm 16

/-! ## When it passes -/

variable {pm pm' : Pmem} {e : UInt32}

theorem pmemTestRecord_returns
    (hsize : pm.pmemMgrReservedSize = pm.pmemMainMemoryLength / physBlockSize)
    (hend : pm.pmemAllocStart.toNat + pm.pmemMainMemoryLength.toNat < 2 ^ 32)
    (he : e ≤ pm.pmemMgrReservedSize) : pmemTestRecord pm e = .ok () := by
  have hR := toNat_reservedSize hsize
  have hle := UInt32.le_iff_toNat_le.mp he
  unfold pmemTestRecord
  rw [pmemEntryToPtr_eq_ok he, ok_bind, pmemPtrToEntry_eq hend, toNat_pageAddr hsize hend he,
    if_neg (by omega), if_neg (by omega), Nat.add_sub_cancel_left,
    Nat.mul_div_cancel_left _ (by decide), UInt32.ofNat_toNat]
  exact if_neg (not_not.mpr rfl)

/-- A record behind the last one is refused. -/
theorem pmemTestRecord_bound (h : pmemTestRecord pm e = .ok ()) : e ≤ pm.pmemMgrReservedSize := by
  obtain ⟨entryTest, hentry, -⟩ := bind_eq_ok.mp h
  unfold pmemEntryToPtr at hentry
  split at hentry
  · exact absurd hentry (panic_ne_ok _ _)
  · next hle => exact UInt32.not_lt.mp hle

/-- The first page is not behind the end of the pool. -/
theorem pmemTestRecord_zero (h : pmemTestRecord pm 0 = .ok ()) :
    pm.pmemAllocStart.toNat + pm.pmemMainMemoryLength.toNat < 2 ^ 32 := by
  obtain ⟨entryTest, hentry, h⟩ := bind_eq_ok.mp h
  rw [pmemEntryToPtr_eq_ok (UInt32.le_iff_toNat_le.mpr (Nat.zero_le _))] at hentry
  obtain rfl := Except.ok.inj hentry
  obtain ⟨reverseTest, hreverse, -⟩ := bind_eq_ok.mp h
  have hfirst : pm.pageAddr 0 = pm.pmemAllocStart := by
    rw [Pmem.pageAddr, UInt32.mul_zero, UInt32.zero_add]
  rw [hfirst] at hreverse
  unfold pmemPtrToEntry at hreverse
  split_ifs at hreverse with hlow hwrap
  · exact absurd hreverse (panic_ne_ok _ _)
  · exact absurd hreverse (panic_ne_ok _ _)
  · rw [UInt32.lt_iff_toNat_lt, UInt32.toNat_add] at hwrap
    have hlen := pm.pmemMainMemoryLength.toNat_lt
    omega

/-- **The boot test** passes on the pools of 16 pages or more that end below 4 GiB. -/
theorem pmemRunTests_iff
    (hsize : pm.pmemMgrReservedSize = pm.pmemMainMemoryLength / physBlockSize) :
    pmemRunTests pm = .ok () ↔
      pm.pmemAllocStart.toNat + pm.pmemMainMemoryLength.toNat < 2 ^ 32 ∧
        16 ≤ pm.pmemMgrReservedSize.toNat := by
  constructor
  · intro h
    obtain ⟨⟨⟩, hzero, h⟩ := bind_eq_ok.mp h
    obtain ⟨⟨⟩, -, hlast⟩ := bind_eq_ok.mp h
    exact ⟨pmemTestRecord_zero hzero, UInt32.le_iff_toNat_le.mp (pmemTestRecord_bound hlast)⟩
  · rintro ⟨hend, hmany⟩
    have hreturns : ∀ e : UInt32, e.toNat ≤ 16 → pmemTestRecord pm e = .ok () := fun e he =>
      pmemTestRecord_returns hsize hend (UInt32.le_iff_toNat_le.mpr (Nat.le_trans he hmany))
    unfold pmemRunTests
    rw [hreturns 0 (by decide), ok_bind, hreturns 5 (by decide), ok_bind]
    exact hreturns 16 (by decide)

end KoizOs
