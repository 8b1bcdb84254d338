import KoizOs.Lib.Words
import Mathlib.Data.List.Nodup

/-!
# What every driver of the kernel shares

Kernel code runs in `Kern`: it returns a value or stops with a `Fault`.  `panic` is the
source's `panic(message)`, which never returns; `hang` marks a loop that has not ended
within the bound its definition gives it.  Static variables are the fields of a state
record that each function takes and returns.

A pointer argument is the memory seen from that pointer on (`Buffer`), so a callee that
reads past the caller's array reads whatever lies there.
-/

namespace KoizOs

inductive Fault where
  | panic (message : String)
  | hang
deriving Repr, DecidableEq

abbrev Kern := Except Fault

variable {α β : Type}

def panic (message : String) : Kern α := .error (.panic message)

@[simp] theorem ok_bind (a : α) (f : α → Kern β) : (Except.ok a >>= f : Kern β) = f a := rfl

@[simp] theorem pure_eq_ok (a : α) : (pure a : Kern α) = .ok a := rfl

@[simp] theorem error_bind (e : Fault) (f : α → Kern β) :
    (Except.error e >>= f : Kern β) = .error e := rfl

@[simp] theorem panic_bind (message : String) (f : α → Kern β) :
    (panic message >>= f : Kern β) = panic message := rfl

@[simp] theorem panic_ne_ok (message : String) (a : α) : panic message ≠ (.ok a : Kern α) := by
  simp [panic]

/-- A computation that returned ran every part of it to its end. -/
theorem bind_eq_ok {x : Kern α} {f : α → Kern β} {b : β} :
    x >>= f = .ok b ↔ ∃ a, x = .ok a ∧ f a = .ok b := by
  cases x with
  | ok a => simp
  | error e => simp

abbrev Buffer := Nat → UInt8

/-- The pointer `data + k`. -/
def Buffer.add (data : Buffer) (k : Nat) : Buffer := fun i => data (k + i)

/-- `data` when a callee has made `tail` of what it sees from `data + k` on. -/
def Buffer.setFrom (data : Buffer) (k : Nat) (tail : Buffer) : Buffer :=
  fun i => if i < k then data i else tail (i - k)

/-- The bytes of an array, and `rest` beyond its end. -/
def Buffer.ofArray {n : Nat} (v : Vector UInt8 n) (rest : Buffer) : Buffer :=
  fun i => if h : i < n then v[i] else rest i

/-- Physical memory. -/
abbrev Mem := UInt32 → UInt8

/-- A NUL-terminated string: the characters before the NUL. -/
structure CString where
  chars : List UInt8
  no_nul : 0 ∉ chars
deriving DecidableEq

/-! ## Physical pages -/

def physBlockSize : UInt32 := 4096

@[simp] theorem toNat_physBlockSize : physBlockSize.toNat = 4096 := rfl

section PageSource

variable {σ : Type} (pmemAlloc : σ → Kern (UInt32 × σ))

/-- The pages that successive calls of the allocator hand out. -/
inductive Allocs (s : σ) : List UInt32 → σ → Prop
  | nil : Allocs s [] s
  | snoc {ps : List UInt32} {t u : σ} {p : UInt32} :
      Allocs s ps t → pmemAlloc t = .ok (p, u) → Allocs s (ps ++ [p]) u

/-- What a caller of `pmem_alloc` relies on: the pages it hands out one after the other
are 4096-aligned and pairwise distinct. -/
structure FreshPages (s : σ) : Prop where
  aligned : ∀ ps t, Allocs pmemAlloc s ps t → ∀ p ∈ ps, p.toNat % 4096 = 0
  nodup : ∀ ps t, Allocs pmemAlloc s ps t → ps.Nodup

variable {pmemAlloc} {s t u : σ} {ps : List UInt32} {p : UInt32}

theorem Allocs.nil_eq (h : Allocs pmemAlloc s [] t) : t = s := by
  generalize hps : [] = ps at h
  cases h with
  | nil => rfl
  | snoc _ _ => simp at hps

theorem Allocs.cons (hp : pmemAlloc s = .ok (p, t)) (h : Allocs pmemAlloc t ps u) :
    Allocs pmemAlloc s (p :: ps) u := by
  induction h with
  | nil => exact .snoc .nil hp
  | snoc _ hq ih => exact .snoc ih hq

/-- The first of the calls, and the others. -/
theorem Allocs.uncons (h : Allocs pmemAlloc s (p :: ps) u) :
    ∃ t, pmemAlloc s = .ok (p, t) ∧ Allocs pmemAlloc t ps u := by
  generalize hqs : p :: ps = qs at h
  induction h generalizing ps with
  | nil => cases hqs
  | @snoc qs t u q h hq ih =>
    obtain _ | ⟨p', qs⟩ := qs
    · obtain ⟨rfl, rfl⟩ := List.cons.inj hqs
      obtain rfl := h.nil_eq
      exact ⟨u, hq, .nil⟩
    · obtain ⟨rfl, rfl⟩ := List.cons.inj hqs
      obtain ⟨t', hp, hrest⟩ := ih rfl
      exact ⟨t', hp, .snoc hrest hq⟩

end PageSource

/-- Pages `n`, `n + 1`, … of a 4 GiB memory, one after the other. -/
def pagesUpward (n : Nat) : Kern (UInt32 × Nat) :=
  if n < 2 ^ 20 then .ok (UInt32.ofNat (4096 * n), n + 1) else panic "out of memory!"

theorem pagesUpward_allocs {n m : Nat} {ps : List UInt32} (h : Allocs pagesUpward n ps m) :
    ps.Nodup ∧ ∀ p ∈ ps, ∃ k, k < m ∧ k < 2 ^ 20 ∧ p.toNat = 4096 * k := by
  induction h with
  | nil => exact ⟨List.nodup_nil, by simp⟩
  | @snoc ps t u p _ hp ih =>
    obtain ⟨hnd, hps⟩ := ih
    unfold pagesUpward at hp
    split at hp
    · next ht =>
      obtain ⟨rfl, rfl⟩ := Prod.mk.inj (Except.ok.inj hp)
      have hval : (UInt32.ofNat (4096 * t)).toNat = 4096 * t := by
        rw [UInt32.toNat_ofNat']
        omega
      have hnew : UInt32.ofNat (4096 * t) ∉ ps := by
        intro hmem
        obtain ⟨k, hk, -, heq⟩ := hps _ hmem
        omega
      refine ⟨?_, ?_⟩
      · rw [← List.concat_eq_append]
        exact List.Nodup.concat hnew hnd
      · intro q hq
        rcases List.mem_append.mp hq with hq | hq
        · obtain ⟨k, hk, hk', heq⟩ := hps q hq
          exact ⟨k, by omega, hk', heq⟩
        · obtain rfl := List.mem_singleton.mp hq
          exact ⟨t, by omega, ht, hval⟩
    · cases hp

theorem pagesUpward_fresh (n : Nat) : FreshPages pagesUpward n where
  aligned ps m h p hp := by
    obtain ⟨k, -, -, heq⟩ := (pagesUpward_allocs h).2 p hp
    omega
  nodup ps m h := (pagesUpward_allocs h).1

/-- There are pages from `n` on while they last. -/
theorem pagesUpward_supply {n c : Nat} (h : n + c ≤ 2 ^ 20) : ∃ ps,
    ps.length = c ∧ Allocs pagesUpward n ps (n + c) ∧
      ∀ p, ps.head? = some p → p = UInt32.ofNat (4096 * n) := by
  induction c generalizing n with
  | zero => exact ⟨[], rfl, .nil, fun p hp => by cases hp⟩
  | succ c ih =>
    obtain ⟨ps, hlen, hps, -⟩ := ih (n := n + 1) (by omega)
    have hpage : pagesUpward n = .ok (UInt32.ofNat (4096 * n), n + 1) := by
      unfold pagesUpward
      rw [if_pos (by omega)]
    rw [Nat.add_right_comm, Nat.add_assoc] at hps
    refine ⟨_ :: ps, congrArg Nat.succ hlen, .cons hpage hps, ?_⟩
    intro p hp
    exact (Option.some.inj hp).symm

end KoizOs
