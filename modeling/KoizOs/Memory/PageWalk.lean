import KoizOs.Memory.Vmem

/-!
# The page walk against the processor's

The processor goes by bit 0 of an entry, and ignores the other 31 bits of an entry that has
it clear.  `vmem_get_phys_addr` takes every entry other than 0 for present.

    WalksLikeMmu m d v ↔ PresentOrZero m d v          (vmem_walk_iff)
-/

namespace KoizOs

/-- The directory entry for `v`. -/
def dirEntry (m : Mem) (d v : UInt32) : UInt32 := m.load32 (d + UInt32.ofNat (4 * (v >>> 22).toNat))

/-- The entry for `v` in the table that the directory entry names. -/
def tableEntry (m : Mem) (d v : UInt32) : UInt32 :=
  let pageTableAddr : UInt32 := dirEntry m d v &&& ~~~0xFFF
  m.load32 (pageTableAddr + UInt32.ofNat (4 * ((v >>> 12) &&& 0x03FF).toNat))

/-- Bit 0 of an entry is set. -/
def Present (entry : UInt32) : Prop := entry &&& 1 = 1

instance (entry : UInt32) : Decidable (Present entry) := inferInstanceAs (Decidable (_ = _))

/-- The processor's translation with pages of 4 KiB, `none` for a page fault. -/
def mmuTranslate (m : Mem) (d v : UInt32) : Option UInt32 :=
  if Present (dirEntry m d v) ∧ Present (tableEntry m d v) then
    some ((tableEntry m d v &&& ~~~0xFFF) + (v &&& 0xFFF))
  else none

/-- The walk returns what the processor translates `v` to, and 0 for a page fault. -/
def WalksLikeMmu (m : Mem) (d v : UInt32) : Prop :=
  vmemGetPhysAddr m d v = .ok ((mmuTranslate m d v).getD 0)

/-- Both entries are present, or one of them is 0, or page and offset are both 0, so that 0
is the answer in any case. -/
def PresentOrZero (m : Mem) (d v : UInt32) : Prop :=
  (Present (dirEntry m d v) ∧ Present (tableEntry m d v)) ∨ dirEntry m d v = 0 ∨
    tableEntry m d v = 0 ∨ (tableEntry m d v &&& ~~~0xFFF = 0 ∧ v &&& 0xFFF = 0)

variable {m : Mem} {d v entry : UInt32}

theorem not_present_zero : ¬ Present 0 := by decide

theorem Present.ne_zero (h : Present entry) : entry ≠ 0 := by
  rintro rfl
  exact not_present_zero h

/-- The walk, with the two checks that never fire left out. -/
theorem vmemGetPhysAddr_eq (hd : d ≠ 0) (m : Mem) (v : UInt32) :
    vmemGetPhysAddr m d v =
      .ok (if dirEntry m d v = 0 ∨ tableEntry m d v = 0 then 0
        else (tableEntry m d v &&& ~~~0xFFF) + (v &&& 0xFFF)) := by
  unfold vmemGetPhysAddr
  dsimp only
  rw [if_neg (index_not_gt v).1, if_neg (index_not_gt v).2, if_neg hd]
  show (if dirEntry m d v = 0 then _ else if tableEntry m d v = 0 then _ else _) = _
  by_cases hdir : dirEntry m d v = 0
  · rw [if_pos hdir, if_pos (.inl hdir)]
  · by_cases htable : tableEntry m d v = 0
    · rw [if_neg hdir, if_pos htable, if_pos (.inr htable)]
    · rw [if_neg hdir, if_neg htable, if_neg (by simp [hdir, htable])]
      rfl

/-- Page and offset do not overlap, so their sum is 0 only if both are. -/
theorem page_add_offset_eq_zero_iff (entry v : UInt32) :
    (entry &&& ~~~0xFFF) + (v &&& 0xFFF) = 0 ↔ entry &&& ~~~0xFFF = 0 ∧ v &&& 0xFFF = 0 := by
  have hentry := entry.toNat_lt
  rw [← UInt32.toNat_inj, ← UInt32.toNat_inj, ← UInt32.toNat_inj, UInt32.toNat_add, toNat_and_mask,
    toNat_and_offset, UInt32.toNat_zero]
  omega

/-- **The page walk.** With a directory that is not at address 0, the walk agrees with the
processor exactly when the entries for the address are present or 0. -/
theorem vmem_walk_iff (hd : d ≠ 0) (m : Mem) (v : UInt32) :
    WalksLikeMmu m d v ↔ PresentOrZero m d v := by
  unfold WalksLikeMmu mmuTranslate PresentOrZero
  rw [vmemGetPhysAddr_eq hd, Except.ok.injEq]
  by_cases hpresent : Present (dirEntry m d v) ∧ Present (tableEntry m d v)
  · have hnone : ¬ (dirEntry m d v = 0 ∨ tableEntry m d v = 0) :=
      not_or.mpr ⟨hpresent.1.ne_zero, hpresent.2.ne_zero⟩
    rw [if_pos hpresent, if_neg hnone]
    exact iff_of_true rfl (.inl hpresent)
  · rw [if_neg hpresent, Option.getD_none]
    by_cases hzero : dirEntry m d v = 0 ∨ tableEntry m d v = 0
    · rw [if_pos hzero]
      exact iff_of_true rfl (.inr (or_assoc.mp (.inl hzero)))
    · rw [if_neg hzero, page_add_offset_eq_zero_iff]
      rw [not_or] at hzero
      simp only [hpresent, hzero.1, hzero.2, false_or]

/-- A page table at 0x2000 whose entry 0 is `entry`, and a directory at 0x1000 that names it
with the flags `flags`. -/
def oneTable (flags entry : UInt32) : Mem :=
  (Mem.store32 (fun _ => 0) 0x1000 (0x2000 ||| flags)).store32 0x2000 entry

/-- Both entries present. -/
theorem vmem_walk_iff_present : WalksLikeMmu (oneTable 7 0x5007) 0x1000 5 :=
  (vmem_walk_iff (by decide) (oneTable 7 0x5007) 5).mpr (.inl (by decide))

/-- A directory entry that is writable but not present: the processor faults, and the walk
returns an address. -/
theorem vmem_walk_not_present :
    vmemGetPhysAddr (oneTable 2 0x5001) 0x1000 5 = .ok 0x5005 ∧
    ¬ Present (dirEntry (oneTable 2 0x5001) 0x1000 5) ∧
    mmuTranslate (oneTable 2 0x5001) 0x1000 5 = none ∧
    ¬ WalksLikeMmu (oneTable 2 0x5001) 0x1000 5 := by
  have hwalk : vmemGetPhysAddr (oneTable 2 0x5001) 0x1000 5 = .ok 0x5005 := rfl
  have hfault : mmuTranslate (oneTable 2 0x5001) 0x1000 5 = none := rfl
  refine ⟨hwalk, by decide, hfault, ?_⟩
  intro h
  unfold WalksLikeMmu at h
  rw [hwalk, hfault] at h
  exact absurd (Except.ok.inj h) (by decide)

end KoizOs
