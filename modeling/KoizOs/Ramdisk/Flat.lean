import KoizOs.Lib.Run
import KoizOs.Ramdisk.Ramdisk

/-!
# The ramdisk as a flat array

`FlatStep n` is a disk of `n` contiguous bytes, with natural-number bounds and no pages.
`ramdisk_refines_flat`: after `ramdiskInit` of `b` blocks every run of the ramdisk is a
run of the flat disk of `b * 4096` bytes, call by call with the same replies.

| result | content |
|--------|---------|
| `ramdisk_step_flat` | one call of the ramdisk is one call of the flat disk |
| `ramdiskIo_total` | every call on a valid disk returns, and one refused changes nothing |
| `ioBlockNumber_lt` | a call in bounds uses block indices below `b` |
| `ramdisk_refines_flat` | the three together, over any run |
-/

namespace KoizOs

open Lib

/-! ## Calls -/

inductive IoType where
  | read
  | write
deriving DecidableEq

/-- A call and what it handed back: the code, and the caller's buffer afterwards. -/
structure IoCall where
  ioType : IoType
  startAddr : UInt32
  dataSize : UInt32
  data : Buffer
  res : Int
  data' : Buffer

def Ramdisk.io (rd : Ramdisk) (ioType : IoType) (startAddr dataSize : UInt32) (data : Buffer) :
    Kern (Int × Buffer × Ramdisk) :=
  match ioType with
  | .read => ramdiskRead startAddr data dataSize rd
  | .write => ramdiskWrite startAddr data dataSize rd

def Ramdisk.Step (rd : Ramdisk) (c : IoCall) (rd' : Ramdisk) : Prop :=
  rd.io c.ioType c.startAddr c.dataSize c.data = .ok (c.res, c.data', rd')

/-! ## The flat disk -/

abbrev Flat (n : Nat) := Fin n → UInt8

/-- A call on the flat disk: refused and without effect when it does not fit, else a copy
out of or into the range of bytes it names. -/
inductive FlatStep (n : Nat) : Flat n → IoCall → Flat n → Prop
  | refused {f : Flat n} {c : IoCall} :
      ¬ c.startAddr.toNat + c.dataSize.toNat ≤ n → c.res ≠ 0 → c.data' = c.data → FlatStep n f c f
  | read {f : Flat n} {c : IoCall} (h : c.startAddr.toNat + c.dataSize.toNat ≤ n) :
      c.ioType = .read → c.res = 0 →
      (∀ i, (hi : i < c.dataSize.toNat) → c.data' i = f ⟨c.startAddr.toNat + i, by omega⟩) →
      (∀ i, c.dataSize.toNat ≤ i → c.data' i = c.data i) → FlatStep n f c f
  | write {f f' : Flat n} {c : IoCall} :
      c.startAddr.toNat + c.dataSize.toNat ≤ n → c.ioType = .write → c.res = 0 →
      c.data' = c.data →
      (∀ a : Fin n, f' a = if c.startAddr.toNat ≤ a ∧ a < c.startAddr.toNat + c.dataSize.toNat
        then c.data (a - c.startAddr.toNat) else f a) → FlatStep n f c f'

/-- The bytes of a ramdisk of `b` blocks. -/
def Ramdisk.flat (b : Nat) (rd : Ramdisk) : Flat (b * 4096) := fun a => rd.byteAt a

/-! ## Refinement -/

variable {rd rd' : Ramdisk} {b : Nat} {c : IoCall}

theorem ramdiskIo_refused (h : rd.Valid b) (ioType : IoType) {startAddr dataSize : UInt32}
    (data : Buffer) (hb : ¬ InBounds b startAddr dataSize) :
    ∃ res, res ≠ 0 ∧ rd.io ioType startAddr dataSize data = .ok (res, data, rd) := by
  cases ioType with
  | read => exact ramdiskInternalIo_refused 0 h hb
  | write => exact ramdiskInternalIo_refused 1 h hb

/-- **One call.** A call on a valid disk keeps it valid and is a call on its bytes. -/
theorem ramdisk_step_flat (h : rd.Valid b) (hs : rd.Step c rd') :
    rd'.Valid b ∧ FlatStep (b * 4096) (rd.flat b) c (rd'.flat b) := by
  obtain ⟨ioType, startAddr, dataSize, data, res, data'⟩ := c
  unfold Ramdisk.Step at hs
  dsimp only at hs
  by_cases hb : InBounds b startAddr dataSize
  · cases ioType with
    | read =>
      have heq := hs.symm.trans (ramdiskRead_eq h hb)
      simp only [Except.ok.injEq, Prod.mk.injEq] at heq
      obtain ⟨rfl, rfl, rfl⟩ := heq
      refine ⟨h, .read hb rfl rfl ?_ ?_⟩
      · intro i hi
        dsimp only at hi ⊢
        rw [patch_of_mem (Nat.zero_le i) (by omega)]
        rfl
      · intro i hi
        dsimp only at hi ⊢
        rw [patch_of_not_mem (by omega)]
    | write =>
      obtain ⟨rd₁, hw, hv, hbytes⟩ := ramdiskWrite_spec data h hb
      have heq := hw.symm.trans hs
      simp only [Except.ok.injEq, Prod.mk.injEq] at heq
      obtain ⟨rfl, rfl, rfl⟩ := heq
      exact ⟨hv, .write hb rfl rfl rfl fun a => hbytes a a.isLt⟩
  · obtain ⟨res', hres, heq⟩ := ramdiskIo_refused h ioType data hb
    have heq := heq.symm.trans hs
    simp only [Except.ok.injEq, Prod.mk.injEq] at heq
    obtain ⟨rfl, rfl, rfl⟩ := heq
    exact ⟨h, .refused hb hres rfl⟩

/-- Every call on a valid disk returns, and one that is refused leaves all as it was. -/
theorem ramdiskIo_total (h : rd.Valid b) (ioType : IoType) (startAddr dataSize : UInt32)
    (data : Buffer) :
    ∃ res data' rd', rd.io ioType startAddr dataSize data = .ok (res, data', rd') ∧
      (res = 0 ↔ InBounds b startAddr dataSize) ∧ (res ≠ 0 → data' = data ∧ rd' = rd) := by
  by_cases hb : InBounds b startAddr dataSize
  · cases ioType with
    | read => exact ⟨0, _, rd, ramdiskRead_eq h hb, by simp [hb], by simp⟩
    | write =>
      obtain ⟨rd', hw, -⟩ := ramdiskWrite_spec data h hb
      exact ⟨0, _, rd', hw, by simp [hb], by simp⟩
  · obtain ⟨res, hres, heq⟩ := ramdiskIo_refused h ioType data hb
    exact ⟨res, data, rd, heq, by simp [hres, hb], by simp⟩

theorem ioBlockNumber_lt (hle : b ≤ 1024) {startAddr dataSize : UInt32}
    (hb : InBounds b startAddr dataSize) {i : Nat} (hi : i < dataSize.toNat) :
    (ioBlockNumber startAddr i).toNat < b := by
  unfold InBounds at hb
  rw [ioBlockNumber_eq (by omega), UInt32.toNat_ofNat']
  omega

/-- **Refinement.** Every run of a freshly made ramdisk is a run of the flat disk; in the
state it reaches every call returns, 0 exactly when it fits, and touches nothing if not. -/
theorem ramdisk_refines_flat {σ : Type} {pmemAlloc : σ → Kern (UInt32 × σ)} {s s' : σ}
    {rd₀ : Ramdisk} {tr : List (Ramdisk × IoCall)} (hfresh : FreshPages pmemAlloc s)
    (hb : 1 ≤ b) (hb' : b ≤ 1024)
    (hinit : ramdiskInit pmemAlloc (UInt32.ofNat (b * 4096)) rd₀ s = .ok (rd, s'))
    (htr : Trace Ramdisk.Step rd tr rd') :
    Trace (FlatStep (b * 4096)) (rd.flat b) (tr.map fun e => (e.1.flat b, e.2)) (rd'.flat b) ∧
    ∀ ioType startAddr dataSize data,
      ∃ res data' rd'', rd'.io ioType startAddr dataSize data = .ok (res, data', rd'') ∧
        (res = 0 ↔ startAddr.toNat + dataSize.toNat ≤ b * 4096) ∧
        (res ≠ 0 → data' = data ∧ rd'' = rd') ∧
        (res = 0 → ∀ i, i < dataSize.toNat → (ioBlockNumber startAddr i).toNat < b) := by
  have h0 : rd.Valid b := ramdiskInit_valid hfresh hb hb' hinit
  have hstep : ∀ rd c rd', rd.Valid b → Ramdisk.Step rd c rd' → rd'.Valid b :=
    fun rd c rd' h hs => (ramdisk_step_flat h hs).1
  refine ⟨htr.refines (Ramdisk.flat b) h0 hstep fun rd c rd' h hs => (ramdisk_step_flat h hs).2, ?_⟩
  intro ioType startAddr dataSize data
  have h : rd'.Valid b := (htr.invariant h0 hstep).1
  obtain ⟨res, data', rd'', heq, hres, hno⟩ := ramdiskIo_total h ioType startAddr dataSize data
  exact ⟨res, data', rd'', heq, hres, hno, fun h0 i hi => ioBlockNumber_lt hb' (hres.mp h0) hi⟩

theorem ramdisk_refines_flat_two : ∃ (rd rd' : Ramdisk) (s : Nat) (c : IoCall),
    ramdiskInit pagesUpward (UInt32.ofNat (2 * 4096)) ⟨fun _ => 0, 0, 0⟩ 1 = .ok (rd, s) ∧
    c.ioType = .write ∧ c.startAddr = 4092 ∧ c.dataSize = 8 ∧ c.res = 0 ∧
    Trace (FlatStep (2 * 4096)) (rd.flat 2) [(rd.flat 2, c)] (rd'.flat 2) := by
  obtain ⟨rd, s, hinit⟩ : ∃ rd s,
      ramdiskInit pagesUpward (UInt32.ofNat (2 * 4096)) ⟨fun _ => 0, 0, 0⟩ 1 = .ok (rd, s) :=
    ⟨_, _, rfl⟩
  have hv := ramdiskInit_valid (pagesUpward_fresh 1) (by decide) (by decide) hinit
  obtain ⟨rd', hw, -⟩ := ramdiskWrite_spec (fun i => UInt8.ofNat i) hv
    (show InBounds 2 4092 8 by decide)
  have hs : rd.Step ⟨.write, 4092, 8, fun i => UInt8.ofNat i, 0, fun i => UInt8.ofNat i⟩ rd' := hw
  exact ⟨rd, rd', s, _, hinit, rfl, rfl, rfl, rfl,
    (ramdisk_refines_flat (pagesUpward_fresh 1) (by decide) (by decide) hinit
      (Trace.start.next hs)).1⟩

end KoizOs
