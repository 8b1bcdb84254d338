import KoizOs.Memory.Initialize
import Mathlib.Data.List.MinMax

/-!
# Which region is selected

A memory map is a table of entries with a 64-bit base and length; the next entry begins
`size + 4` bytes further on.  `pmem_initialize` steps over the table 24 bytes at a time and
looks at the low halves only: of a table whose entries are all of 24 bytes it selects the
low halves of the first available entry with the largest low length (`winner`).

| result | content |
|--------|---------|
| `pmemSelectLoop_eq` | the loop, on a table of 24-byte entries |
| `foldl_largerRegion` | … is the winner's region |
| `pmem_region_good` | … which is a region of the map when the low halves suffice |
-/

namespace KoizOs

namespace MultibootMmapEntry

/-- The 64-bit base address. -/
def base (e : MultibootMmapEntry) : Nat := e.addrHigh.toNat * 2 ^ 32 + e.addrLow.toNat

/-- The 64-bit length. -/
def length (e : MultibootMmapEntry) : Nat := e.lenHigh.toNat * 2 ^ 32 + e.lenLow.toNat

def Available (e : MultibootMmapEntry) : Prop := e.type = multibootMemoryAvailable

instance : DecidablePred Available := fun e => inferInstanceAs (Decidable (e.type = _))

end MultibootMmapEntry

/-- The entries of the `n` bytes at `p`, each with its `size` field in front. -/
inductive MmapAt (m : Mem) : UInt32 → Nat → List MultibootMmapEntry → Prop
  | nil {p : UInt32} : MmapAt m p 0 []
  | cons {p : UInt32} {n : Nat} {es : List MultibootMmapEntry} :
      20 ≤ (m.mmapEntry p).size.toNat → MmapAt m (p + ((m.mmapEntry p).size + 4)) n es →
      MmapAt m p ((m.mmapEntry p).size.toNat + 4 + n) (m.mmapEntry p :: es)

/-- `[S, S + L)` lies in an available entry, and no available entry below 4 GiB is longer. -/
structure GoodRegion (es : List MultibootMmapEntry) (S L : UInt32) : Prop where
  inside : ∃ e ∈ es, e.Available ∧ e.base ≤ S.toNat ∧ S.toNat + L.toNat ≤ e.base + e.length
  largest : ∀ e ∈ es, e.Available → e.base + e.length ≤ 2 ^ 32 → e.length ≤ L.toNat

/-- The first available entry with the largest low half of its length. -/
def winner (es : List MultibootMmapEntry) : Option MultibootMmapEntry :=
  (es.filter fun e => e.Available).argmax fun e => e.lenLow.toNat

/-- The loop can read the map: its entries are all of 24 bytes, the winner begins below 4 GiB, and
no available entry is all of the first 4 GiB, whose low length is 0. -/
structure LowHalvesSuffice (es : List MultibootMmapEntry) : Prop where
  sizes : ∀ e ∈ es, e.size = 20
  low : ∀ e ∈ winner es, e.addrHigh = 0
  notAll : ∀ e ∈ es, e.Available → ¬ (e.base = 0 ∧ e.length = 2 ^ 32)

variable {m : Mem} {mbd : MultibootInfo} {es : List MultibootMmapEntry} {r : UInt32 × UInt32}
  {K : UInt32} {pm pm' : Pmem} {e : MultibootMmapEntry}

/-! ## The loop -/

/-- The loop meets the entries of the table in order, if they are all of 24 bytes. -/
theorem pmemSelectLoop_eq {fuel n : Nat} {i : UInt32} (hmap : MmapAt m (mbd.mmapAddr + i) n es)
    (hsize : ∀ e ∈ es, e.size = 20) (hi : i.toNat + n = mbd.mmapLength.toNat)
    (hfuel : n < fuel) :
    pmemSelectLoop mbd m fuel i r = .ok (es.foldl largerRegion r) := by
  induction es generalizing fuel n i r with
  | nil =>
    cases hmap
    obtain ⟨fuel, rfl⟩ : ∃ k, fuel = k + 1 := ⟨fuel - 1, by omega⟩
    have hend : ¬ i < mbd.mmapLength := by
      rw [UInt32.lt_iff_toNat_lt]
      omega
    rw [pmemSelectLoop, if_neg hend]
    rfl
  | cons e es ih =>
    cases hmap with
    | @cons _ n _ hmin hrest =>
      have he : (m.mmapEntry (mbd.mmapAddr + i)).size = 20 := hsize _ List.mem_cons_self
      have hval : (m.mmapEntry (mbd.mmapAddr + i)).size.toNat = 20 := congrArg UInt32.toNat he
      have hlt : i < mbd.mmapLength := by
        rw [UInt32.lt_iff_toNat_lt]
        omega
      have hnext : (i + 24).toNat = i.toNat + 24 := by
        have hlen := mbd.mmapLength.toNat_lt
        rw [UInt32.toNat_add, show (24 : UInt32).toNat = 24 from rfl]
        omega
      obtain ⟨fuel, rfl⟩ : ∃ k, fuel = k + 1 := ⟨fuel - 1, by omega⟩
      rw [pmemSelectLoop, if_pos hlt, List.foldl_cons]
      apply ih (n := n)
      · rw [he, UInt32.add_assoc] at hrest
        exact hrest
      · intro a ha
        exact hsize a (List.mem_cons_of_mem _ ha)
      · omega
      · omega

/-- The region of an entry, by its low halves. -/
def lowRegion : Option MultibootMmapEntry → UInt32 × UInt32
  | none => (0, 0)
  | some e => if e.lenLow = 0 then (0, 0) else (e.addrLow, e.lenLow)

theorem lowRegion_length (o : Option MultibootMmapEntry) :
    (lowRegion o).2 = (o.map fun e => e.lenLow).getD 0 := by
  cases o with
  | none => rfl
  | some e =>
    simp only [lowRegion, Option.map_some, Option.getD_some]
    split
    · next h => exact h.symm
    · rfl

theorem largerRegion_eq {o : Option MultibootMmapEntry} (he : e.Available) :
    largerRegion (lowRegion o) e =
      if (lowRegion o).2 < e.lenLow then (e.addrLow, e.lenLow) else lowRegion o := by
  unfold largerRegion
  by_cases hlt : (lowRegion o).2 < e.lenLow
  · rw [if_pos ⟨he, hlt⟩, if_pos hlt]
  · rw [if_neg (fun h => hlt h.2), if_neg hlt]

/-- One round, on an entry that is available. -/
theorem largerRegion_lowRegion (o : Option MultibootMmapEntry) (he : e.Available) :
    largerRegion (lowRegion o) e = lowRegion
      (Option.casesOn o (some e) fun c =>
        if c.lenLow.toNat < e.lenLow.toNat then some e else some c) := by
  have hzero : ∀ x : UInt32, 0 < x ↔ x ≠ 0 := by
    intro x
    rw [UInt32.lt_iff_toNat_lt, ne_eq, ← UInt32.toNat_inj]
    exact Nat.pos_iff_ne_zero
  rw [largerRegion_eq he, lowRegion_length]
  cases o with
  | none =>
    show (if 0 < e.lenLow then _ else _) = lowRegion (some e)
    simp only [lowRegion, hzero, ite_not]
  | some c =>
    show (if c.lenLow < e.lenLow then _ else lowRegion (some c)) =
      lowRegion (if c.lenLow.toNat < e.lenLow.toNat then some e else some c)
    by_cases hlt : c.lenLow < e.lenLow
    · have hlt' := UInt32.lt_iff_toNat_lt.mp hlt
      have hne : e.lenLow ≠ 0 := by
        rw [ne_eq, ← UInt32.toNat_inj, UInt32.toNat_zero]
        omega
      rw [if_pos hlt, if_pos hlt', lowRegion, if_neg hne]
    · have hge : ¬ c.lenLow.toNat < e.lenLow.toNat := fun h => hlt (UInt32.lt_iff_toNat_lt.mpr h)
      rw [if_neg hlt, if_neg hge]

theorem foldl_largerRegion (es : List MultibootMmapEntry) :
    es.foldl largerRegion (0x00, 0x00) = lowRegion (winner es) := by
  induction es using List.reverseRecOn with
  | nil => rfl
  | append_singleton es e ih =>
    rw [List.foldl_append, ih]
    unfold winner
    rw [List.filter_append]
    show largerRegion (lowRegion (winner es)) e = _
    by_cases he : e.Available
    · have hone : [e].filter (fun e => e.Available) = [e] := by simp [he]
      rw [hone, List.argmax_concat]
      exact largerRegion_lowRegion (winner es) he
    · have hnone : [e].filter (fun e => e.Available) = [] := by simp [he]
      rw [hnone, List.append_nil, largerRegion, if_neg (fun h => he h.1)]
      rfl

/-! ## The winner's region -/

theorem winner_mem (h : winner es = some e) : e ∈ es ∧ e.Available := by
  have hmem := List.argmax_mem (Option.mem_def.mpr h)
  rw [List.mem_filter, decide_eq_true_eq] at hmem
  exact hmem

theorem lenLow_le_winner {a : MultibootMmapEntry} (h : winner es = some e) (ha : a ∈ es)
    (hav : a.Available) : a.lenLow.toNat ≤ e.lenLow.toNat := by
  apply List.le_of_mem_argmax _ (Option.mem_def.mpr h)
  rw [List.mem_filter, decide_eq_true_eq]
  exact ⟨ha, hav⟩

/-- An entry below 4 GiB has its length in the low half, unless it is all of them. -/
theorem length_eq_lenLow {a : MultibootMmapEntry} (hbelow : a.base + a.length ≤ 2 ^ 32)
    (hall : ¬ (a.base = 0 ∧ a.length = 2 ^ 32)) : a.length = a.lenLow.toNat := by
  unfold MultibootMmapEntry.length at hbelow hall ⊢
  omega

theorem LowHalvesSuffice.goodRegion (h : LowHalvesSuffice es) (hwin : winner es = some e) :
    GoodRegion es e.addrLow e.lenLow := by
  obtain ⟨hmem, hav⟩ := winner_mem hwin
  have hbase : e.base = e.addrLow.toNat := by
    rw [MultibootMmapEntry.base, h.low e hwin, UInt32.toNat_zero, Nat.zero_mul, Nat.zero_add]
  constructor
  · refine ⟨e, hmem, hav, hbase.le, ?_⟩
    rw [hbase]
    unfold MultibootMmapEntry.length
    omega
  · intro a ha hava hbelow
    rw [length_eq_lenLow hbelow (h.notAll a ha hava)]
    exact lenLow_le_winner hwin ha hava

/-- Nothing but a region of some length is big enough for the kernel to be moved out of it. -/
theorem pmemSetUp_empty (hK : K ≠ 0) (h : pmemSetUp K 0 0 pm = .ok pm') : False := by
  have habove := pmemAboveKernel_eq 0 0 K
  have hpos : 0 < K.toNat := by
    rw [Nat.pos_iff_ne_zero, ne_eq, ← UInt32.toNat_zero, UInt32.toNat_inj]
    exact hK
  have hstart : poolStart 0 K = K.toNat := Nat.max_eq_right (Nat.zero_le _)
  rw [hstart, if_neg (show ¬ K.toNat ≤ (0 : UInt32).toNat + (0 : UInt32).toNat by
    rw [UInt32.toNat_zero]; omega)] at habove
  rw [pmemSetUp, habove] at h
  exact panic_ne_ok _ _ h

/-- **Region selection.** When the set-up completes on a map that the loop can read, the region
it selected lies in an available entry, and no available entry below 4 GiB is longer. -/
theorem pmem_region_good (hinit : pmemInitialize (some mbd) K pm = .ok pm')
    (hmap : MmapAt pm.mem mbd.mmapAddr mbd.mmapLength.toNat es) (h : LowHalvesSuffice es) :
    ∃ S L, pmemSelect (some mbd) K pm.mem = .ok (S, L) ∧ GoodRegion es S L := by
  obtain ⟨⟨S, L⟩, hsel, hset⟩ := bind_eq_ok.mp hinit
  refine ⟨S, L, hsel, ?_⟩
  simp only [pmemSelect] at hsel
  split_ifs at hsel with hK _ _
  · exact absurd hsel (panic_ne_ok _ _)
  · exact absurd hsel (panic_ne_ok _ _)
  · exact absurd hsel (panic_ne_ok _ _)
  · have hmap' : MmapAt pm.mem (mbd.mmapAddr + 0) mbd.mmapLength.toNat es := by
      rw [UInt32.add_zero]
      exact hmap
    rw [pmemSelectLoop_eq hmap' h.sizes (Nat.zero_add _) (Nat.lt_succ_self _),
      foldl_largerRegion] at hsel
    have hregion := Except.ok.inj hsel
    cases hw : winner es with
    | none =>
      rw [hw] at hregion
      obtain ⟨rfl, rfl⟩ := Prod.mk.inj hregion
      exact (pmemSetUp_empty hK hset).elim
    | some e =>
      rw [hw, lowRegion] at hregion
      split at hregion
      · obtain ⟨rfl, rfl⟩ := Prod.mk.inj hregion
        exact (pmemSetUp_empty hK hset).elim
      · obtain ⟨rfl, rfl⟩ := Prod.mk.inj hregion
        exact h.goodRegion hw

/-- A map of 16 MiB from 1 MiB on, and 32 MiB from 32 MiB on. -/
def lowMap : Mem :=
  wordsAt9000 [20, 0x100000, 0, 0x1000000, 0, 1, 20, 0x2000000, 0, 0x2000000, 0, 1]

theorem pmem_region_good_one : ∃ pm',
    pmemInitialize (some ⟨0x40, 48, 0x9000⟩) 0x200000 (.boot lowMap) = .ok pm' ∧
    pmemSelect (some ⟨0x40, 48, 0x9000⟩) 0x200000 lowMap = .ok (0x2000000, 0x2000000) ∧
    GoodRegion [⟨20, 0x100000, 0, 0x1000000, 0, 1⟩, ⟨20, 0x2000000, 0, 0x2000000, 0, 1⟩]
      0x2000000 0x2000000 := by
  have hmap : MmapAt lowMap 0x9000 48
      [⟨20, 0x100000, 0, 0x1000000, 0, 1⟩, ⟨20, 0x2000000, 0, 0x2000000, 0, 1⟩] :=
    .cons (n := 24) (by decide) (.cons (n := 0) (by decide) .nil)
  obtain ⟨pm', hinit, hsel⟩ : ∃ pm',
      pmemInitialize (some ⟨0x40, 48, 0x9000⟩) 0x200000 (.boot lowMap) = .ok pm' ∧
      pmemSelect (some ⟨0x40, 48, 0x9000⟩) 0x200000 lowMap = .ok (0x2000000, 0x2000000) :=
    ⟨_, rfl, rfl⟩
  obtain ⟨S, L, hsel', hgood⟩ := pmem_region_good hinit hmap ⟨by decide, by decide, by decide⟩
  obtain ⟨rfl, rfl⟩ := Prod.mk.inj (Except.ok.inj (hsel.symm.trans hsel'))
  exact ⟨pm', hinit, hsel, hgood⟩

/-- A map of 16 MiB from 1 MiB on, and 32 MiB from 4 GiB on. -/
def highMap : Mem :=
  wordsAt9000 [20, 0x100000, 0, 0x1000000, 0, 1, 20, 0, 1, 0x2000000, 0, 1]

/-- The pool is set up at the low half of the address of the second region, where there is
no memory. -/
theorem pmem_region_high : ∃ pm',
    MmapAt highMap 0x9000 48
      [⟨20, 0x100000, 0, 0x1000000, 0, 1⟩, ⟨20, 0, 1, 0x2000000, 0, 1⟩] ∧
    pmemInitialize (some ⟨0x40, 48, 0x9000⟩) 0x200000 (.boot highMap) = .ok pm' ∧
    pmemSelect (some ⟨0x40, 48, 0x9000⟩) 0x200000 highMap = .ok (0, 0x2000000) ∧
    ¬ GoodRegion [⟨20, 0x100000, 0, 0x1000000, 0, 1⟩, ⟨20, 0, 1, 0x2000000, 0, 1⟩]
      0 0x2000000 := by
  refine ⟨_, ?_, rfl, rfl, ?_⟩
  · exact .cons (n := 24) (by decide) (.cons (n := 0) (by decide) .nil)
  · intro hgood
    obtain ⟨e, he, -, hbase, -⟩ := hgood.inside
    have hnone : ∀ e ∈ [(⟨20, 0x100000, 0, 0x1000000, 0, 1⟩ : MultibootMmapEntry),
        ⟨20, 0, 1, 0x2000000, 0, 1⟩], ¬ e.base ≤ (0 : UInt32).toNat := by decide
    exact hnone e he hbase

end KoizOs
