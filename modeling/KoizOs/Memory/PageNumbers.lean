import KoizOs.Memory.Pmem

/-!
# Page numbers and addresses

`pmem_ptr_to_entry` and `pmem_entry_to_ptr` take their upper bounds for inclusive ones.
For a pool of `R` pages both let the number `R` pass, which names no page: an address
behind the last page, up to and including the end of the pool, is converted to it, and it
is converted to an address.  `pmem_free` of such an address then works on the byte behind
the last record (`pmemFree_behind`).

    PageNumbersOk pm e p ↔ e ≠ R ∧ ¬ BehindLastPage pm p          (pmem_pageNumbers_iff)
-/

namespace KoizOs

/-- Page numbers and addresses correspond, as far as number `e` and address `p` go. -/
structure PageNumbersOk (pm : Pmem) (e p : UInt32) : Prop where
  roundTrip : e < pm.pmemMgrReservedSize →
    (pmemEntryToPtr pm e >>= pmemPtrToEntry pm) = .ok e
  refuses : pm.pmemMgrReservedSize ≤ e → ∃ message, pmemEntryToPtr pm e = panic message
  page : ∀ r, pmemPtrToEntry pm p = .ok r → r < pm.pmemMgrReservedSize ∧
    pm.pmemAllocStart.toNat + 4096 * r.toNat ≤ p.toNat ∧
    p.toNat < pm.pmemAllocStart.toNat + 4096 * (r.toNat + 1)

/-- From the end of the last page to the end of the pool, which is included. -/
def BehindLastPage (pm : Pmem) (p : UInt32) : Prop :=
  pm.pmemAllocStart.toNat + 4096 * pm.pmemMgrReservedSize.toNat ≤ p.toNat ∧
    p.toNat ≤ pm.pmemAllocStart.toNat + pm.pmemMainMemoryLength.toNat

variable {pm : Pmem} {e p : UInt32}

theorem toNat_reservedSize (hsize : pm.pmemMgrReservedSize = pm.pmemMainMemoryLength / physBlockSize) :
    pm.pmemMgrReservedSize.toNat = pm.pmemMainMemoryLength.toNat / 4096 := by
  rw [hsize, UInt32.toNat_div, toNat_physBlockSize]

/-- In a pool that ends below 4 GiB the range check is one on natural numbers, and what
passes is divided by the page size. -/
theorem pmemPtrToEntry_eq
    (hend : pm.pmemAllocStart.toNat + pm.pmemMainMemoryLength.toNat < 2 ^ 32) :
    pmemPtrToEntry pm p =
      if p.toNat < pm.pmemAllocStart.toNat then panic "pmem_ptr_to_entry: underflow error!"
      else if pm.pmemAllocStart.toNat + pm.pmemMainMemoryLength.toNat < p.toNat then
        panic "pmem_ptr_to_entry: overflow error!"
      else .ok (UInt32.ofNat ((p.toNat - pm.pmemAllocStart.toNat) / 4096)) := by
  have hlow : pm.pmemAllocStart > p ↔ p.toNat < pm.pmemAllocStart.toNat := UInt32.lt_iff_toNat_lt
  have hhigh : pm.pmemAllocStart + pm.pmemMainMemoryLength < p ↔
      pm.pmemAllocStart.toNat + pm.pmemMainMemoryLength.toNat < p.toNat := by
    rw [UInt32.lt_iff_toNat_lt, UInt32.toNat_add, Nat.mod_eq_of_lt hend]
  unfold pmemPtrToEntry
  simp only [hlow, hhigh]
  split_ifs with hunder hover
  · rfl
  · rfl
  · congr 1
    apply UInt32.toNat_inj.mp
    have hsub := UInt32.toNat_sub_of_le _ _ (UInt32.le_iff_toNat_le.mpr (Nat.not_lt.mp hunder))
    have hp := p.toNat_lt
    rw [UInt32.toNat_div, hsub, toNat_physBlockSize, UInt32.toNat_ofNat']
    omega

theorem pmemEntryToPtr_eq_ok (he : e ≤ pm.pmemMgrReservedSize) :
    pmemEntryToPtr pm e = .ok (pm.pageAddr e) :=
  if_neg (UInt32.not_lt.mpr he)

theorem toNat_pageAddr (hsize : pm.pmemMgrReservedSize = pm.pmemMainMemoryLength / physBlockSize)
    (hend : pm.pmemAllocStart.toNat + pm.pmemMainMemoryLength.toNat < 2 ^ 32)
    (he : e ≤ pm.pmemMgrReservedSize) :
    (pm.pageAddr e).toNat = pm.pmemAllocStart.toNat + 4096 * e.toNat := by
  have hR := toNat_reservedSize hsize
  have hle := UInt32.le_iff_toNat_le.mp he
  rw [Pmem.pageAddr, UInt32.toNat_add, UInt32.toNat_mul, toNat_physBlockSize]
  omega

/-- The number and the address of a page determine each other. -/
theorem entry_roundTrip
    (hsize : pm.pmemMgrReservedSize = pm.pmemMainMemoryLength / physBlockSize)
    (hend : pm.pmemAllocStart.toNat + pm.pmemMainMemoryLength.toNat < 2 ^ 32)
    (he : e < pm.pmemMgrReservedSize) : (pmemEntryToPtr pm e >>= pmemPtrToEntry pm) = .ok e := by
  have hR := toNat_reservedSize hsize
  have hlt := UInt32.lt_iff_toNat_lt.mp he
  have haddr := toNat_pageAddr hsize hend (UInt32.le_of_lt he)
  rw [pmemEntryToPtr_eq_ok (UInt32.le_of_lt he), ok_bind, pmemPtrToEntry_eq hend, haddr,
    if_neg (by omega), if_neg (by omega), Nat.add_sub_cancel_left,
    Nat.mul_div_cancel_left _ (by decide), UInt32.ofNat_toNat]

/-- Behind the last page the number is that of no page. -/
theorem pmemPtrToEntry_behind
    (hsize : pm.pmemMgrReservedSize = pm.pmemMainMemoryLength / physBlockSize)
    (hend : pm.pmemAllocStart.toNat + pm.pmemMainMemoryLength.toNat < 2 ^ 32)
    (hp : BehindLastPage pm p) : pmemPtrToEntry pm p = .ok pm.pmemMgrReservedSize := by
  have hR := toNat_reservedSize hsize
  obtain ⟨hlow, hhigh⟩ := hp
  rw [pmemPtrToEntry_eq hend, if_neg (by omega), if_neg (by omega)]
  congr 1
  apply UInt32.toNat_inj.mp
  have hp := p.toNat_lt
  rw [UInt32.toNat_ofNat']
  omega

/-- `pmem_free` of an address behind the last page goes by the byte behind the last record,
and clears it. -/
theorem pmemFree_behind
    (hsize : pm.pmemMgrReservedSize = pm.pmemMainMemoryLength / physBlockSize)
    (hend : pm.pmemAllocStart.toNat + pm.pmemMainMemoryLength.toNat < 2 ^ 32)
    (hp : BehindLastPage pm p) :
    pmemFree pm p =
      if pm.record pm.pmemMgrReservedSize = 0 then
        panic "attempted to free memory that's already free!"
      else .ok (0, pm.setRecord pm.pmemMgrReservedSize 0) := by
  unfold pmemFree
  rw [pmemPtrToEntry_behind hsize hend hp]
  rfl

/-- **Page numbers.** In a pool that ends below 4 GiB numbers and addresses correspond,
except for the number behind the last one and the addresses behind the last page. -/
theorem pmem_pageNumbers_iff
    (hsize : pm.pmemMgrReservedSize = pm.pmemMainMemoryLength / physBlockSize)
    (hend : pm.pmemAllocStart.toNat + pm.pmemMainMemoryLength.toNat < 2 ^ 32) (e p : UInt32) :
    PageNumbersOk pm e p ↔ e ≠ pm.pmemMgrReservedSize ∧ ¬ BehindLastPage pm p := by
  have hR := toNat_reservedSize hsize
  constructor
  · rintro ⟨-, hrefuses, hpage⟩
    constructor
    · rintro rfl
      obtain ⟨message, hpanic⟩ := hrefuses UInt32.le_rfl
      rw [pmemEntryToPtr_eq_ok UInt32.le_rfl] at hpanic
      exact panic_ne_ok _ _ hpanic.symm
    · intro hbehind
      have hlt := (hpage _ (pmemPtrToEntry_behind hsize hend hbehind)).1
      exact UInt32.lt_irrefl _ hlt
  · rintro ⟨hne, hbehind⟩
    refine ⟨entry_roundTrip hsize hend, ?_, ?_⟩
    · intro hle
      exact ⟨_, if_pos (UInt32.lt_of_le_of_ne hle (Ne.symm hne))⟩
    · intro r hr
      rw [pmemPtrToEntry_eq hend] at hr
      split_ifs at hr with hunder hover
      · exact absurd hr (panic_ne_ok _ _)
      · exact absurd hr (panic_ne_ok _ _)
      · obtain rfl := Except.ok.inj hr
        have hp := p.toNat_lt
        have hlast : p.toNat < pm.pmemAllocStart.toNat + 4096 * pm.pmemMgrReservedSize.toNat := by
          by_contra hge
          exact hbehind ⟨Nat.not_lt.mp hge, Nat.not_lt.mp hover⟩
        rw [UInt32.lt_iff_toNat_lt, UInt32.toNat_ofNat']
        omega

/-- Two pages at 0x101000, none of them taken. -/
def pmemTwoPages : Pmem := ⟨true, 0x100000, 8192, 0x101000, 2, 0, fun _ => 0⟩

/-- The second page, and its last byte. -/
theorem pmem_pageNumbers_iff_two : PageNumbersOk pmemTwoPages 1 0x102FFF := by
  have hbehind : ¬ BehindLastPage pmemTwoPages 0x102FFF := by
    unfold BehindLastPage
    decide
  exact (pmem_pageNumbers_iff (by decide) (by decide) 1 0x102FFF).mpr ⟨by decide, hbehind⟩

/-- The end of a pool of two pages has the number 2, and that number an address. -/
theorem pmem_pageNumbers_end :
    pmemPtrToEntry pmemTwoPages 0x103000 = .ok 2 ∧ pmemEntryToPtr pmemTwoPages 2 = .ok 0x103000 ∧
    ¬ PageNumbersOk pmemTwoPages 2 0x103000 := by
  refine ⟨rfl, rfl, ?_⟩
  intro h
  obtain ⟨message, hpanic⟩ := h.refuses (by decide)
  exact panic_ne_ok _ _ hpanic.symm

end KoizOs
