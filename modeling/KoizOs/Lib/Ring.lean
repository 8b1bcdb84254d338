import Mathlib.Data.Nat.ModEq
import Mathlib.Logic.Function.Basic
import Mathlib.Tactic.Common

/-!
# Ring buffers

`Ring slot n head tail xs`: in a ring of `n` slots the list `xs` is stored from `tail` on,
and `head` is the slot after it.  One slot stays free, so `head = tail` means empty
(`empty_iff`) and `head` right behind `tail` means full (`full_iff`).  `content` reads the
list back.  `ringDist` counts the rounds of a scan that goes round the ring.
-/

namespace Lib

open Function

variable {α : Type} {slot slot' : Nat → α} {n head tail : Nat} {xs : List α} {x : α}

structure Ring (slot : Nat → α) (n head tail : Nat) (xs : List α) : Prop where
  tail_lt : tail < n
  room : xs.length < n
  head_eq : head = (tail + xs.length) % n
  slots : ∀ i (h : i < xs.length), slot ((tail + i) % n) = xs.get ⟨i, h⟩

/-- Places less than a revolution apart are different slots. -/
theorem ring_index_inj {i j : Nat} (hi : i < n) (hj : j < n)
    (h : (tail + i) % n = (tail + j) % n) : i = j := by
  have hmod : i % n = j % n := Nat.ModEq.add_left_cancel' tail h
  rwa [Nat.mod_eq_of_lt hi, Nat.mod_eq_of_lt hj] at hmod

namespace Ring

theorem start (hn : 0 < n) (slot : Nat → α) : Ring slot n 0 0 [] where
  tail_lt := hn
  room := hn
  head_eq := by simp
  slots i h := absurd h (Nat.not_lt_zero i)

theorem head_lt (h : Ring slot n head tail xs) : head < n := by
  rw [h.head_eq]
  exact Nat.mod_lt _ (Nat.zero_lt_of_lt h.tail_lt)

theorem congr (h : Ring slot n head tail xs) (heq : ∀ k, k < n → slot' k = slot k) :
    Ring slot' n head tail xs where
  tail_lt := h.tail_lt
  room := h.room
  head_eq := h.head_eq
  slots i hi := by
    rw [heq _ (Nat.mod_lt _ (Nat.zero_lt_of_lt h.tail_lt))]
    exact h.slots i hi

theorem tail_eq (h : Ring slot n head tail xs) : (tail + 0) % n = tail :=
  Nat.mod_eq_of_lt h.tail_lt

theorem empty_iff (h : Ring slot n head tail xs) : head = tail ↔ xs = [] := by
  have hroom := h.room
  constructor
  · intro heq
    rw [h.head_eq] at heq
    have hlen := ring_index_inj hroom (by omega) (heq.trans h.tail_eq.symm)
    exact List.eq_nil_of_length_eq_zero hlen
  · rintro rfl
    rw [h.head_eq]
    exact h.tail_eq

theorem next_head (h : Ring slot n head tail xs) :
    (head + 1) % n = (tail + (xs.length + 1)) % n := by
  rw [h.head_eq, Nat.mod_add_mod, Nat.add_assoc]

theorem full_iff (h : Ring slot n head tail xs) :
    (head + 1) % n = tail ↔ xs.length + 1 = n := by
  have hroom := h.room
  rw [h.next_head]
  constructor
  · intro heq
    by_contra hne
    have := ring_index_inj (by omega) (by omega) (heq.trans h.tail_eq.symm)
    omega
  · intro heq
    rw [heq, Nat.add_mod_right]
    exact h.tail_eq

/-- Storing at `head`. -/
theorem push (h : Ring slot n head tail xs) (hroom : xs.length + 1 < n) (x : α) :
    Ring (update slot head x) n ((head + 1) % n) tail (xs ++ [x]) where
  tail_lt := h.tail_lt
  room := by
    rw [List.length_append]
    exact hroom
  head_eq := by
    rw [h.next_head, List.length_append]
    rfl
  slots i hi := by
    rw [List.length_append, List.length_singleton] at hi
    rw [List.get_eq_getElem]
    by_cases hlast : i = xs.length
    · subst hlast
      rw [← h.head_eq, update_self, List.getElem_concat_length rfl]
    · have hne : (tail + i) % n ≠ head := by
        rw [h.head_eq]
        intro heq
        exact hlast (ring_index_inj (by omega) h.room heq)
      have hlt : i < xs.length := by omega
      rw [update_of_ne hne, h.slots i hlt]
      exact (List.getElem_append_left hlt).symm

/-- Taking the first one at `tail`. -/
theorem pop (h : Ring slot n head tail (x :: xs)) :
    slot tail = x ∧ Ring slot n head ((tail + 1) % n) xs := by
  have hroom := h.room
  rw [List.length_cons] at hroom
  constructor
  · rw [← h.tail_eq]
    exact h.slots 0 (Nat.zero_lt_succ _)
  · refine ⟨Nat.mod_lt _ (by omega), by omega, ?_, ?_⟩
    · rw [h.head_eq, List.length_cons, Nat.mod_add_mod]
      congr 1
      omega
    · intro i hi
      rw [Nat.mod_add_mod, Nat.add_assoc, Nat.add_comm 1]
      exact h.slots (i + 1) (Nat.succ_lt_succ hi)

/-- The list between `tail` and `head`. -/
def content (slot : Nat → α) (n head tail : Nat) : List α :=
  (List.range ((head + n - tail) % n)).map fun i => slot ((tail + i) % n)

theorem content_eq (h : Ring slot n head tail xs) : content slot n head tail = xs := by
  have hlen : (head + n - tail) % n = xs.length := by
    have htail := h.tail_lt
    have hroom := h.room
    rw [h.head_eq]
    obtain hlt | hge := Nat.lt_or_ge (tail + xs.length) n
    · rw [Nat.mod_eq_of_lt hlt, show tail + xs.length + n - tail = xs.length + n by omega,
        Nat.add_mod_right, Nat.mod_eq_of_lt hroom]
    · rw [Nat.mod_eq_sub_mod hge, Nat.mod_eq_of_lt (show tail + xs.length - n < n by omega),
        show tail + xs.length - n + n - tail = xs.length by omega, Nat.mod_eq_of_lt hroom]
  unfold content
  rw [hlen]
  apply List.ext_getElem
  · rw [List.length_map, List.length_range]
  · intro i hi hi'
    rw [List.getElem_map, List.getElem_range, h.slots i hi']
    rfl

end Ring

/-! ## Going round -/

/-- The rounds from place `c` to place `e` of a ring of `n` places, one at a time. -/
def ringDist (n c e : Nat) : Nat := if c ≤ e then e - c else e + n - c

theorem ringDist_next {n c e : Nat} (hc : c < n) (he : e < n) (hce : c ≠ e) :
    ringDist n (if c + 1 ≥ n then 0 else c + 1) e + 1 = ringDist n c e := by
  unfold ringDist
  split_ifs <;> omega

/-- From `c` on, any other place is met before `c` itself. -/
theorem ringDist_next_lt {n c e : Nat} (hc : c < n) (he : e < n) (hce : e ≠ c) :
    ringDist n (if c + 1 ≥ n then 0 else c + 1) e <
      ringDist n (if c + 1 ≥ n then 0 else c + 1) c := by
  unfold ringDist
  split_ifs <;> omega

end Lib
