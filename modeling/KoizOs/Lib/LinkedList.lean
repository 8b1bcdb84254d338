import Mathlib.Data.List.Basic
import Mathlib.Data.List.Chain
import Mathlib.Data.List.Nodup
import Mathlib.Logic.Function.Basic

/-!
# Singly linked lists given by a `next` function

`IsList next h l`: following `next` from the head pointer `h` visits exactly the nodes
`l`, in order, and then stops at `none`.  A finite such list is unique
(`IsList.unique`) and never visits a node twice (`IsList.nodup`), so "finite" already
means "acyclic".  The three pointer updates of an intrusive list are `IsList.push`,
`IsList.congr` (an update away from the list) and `IsList.unlink` (the predecessor is
redirected past its successor).
-/

namespace Lib

variable {α : Type}

inductive IsList (next : α → Option α) : Option α → List α → Prop
  | nil : IsList next none []
  | cons {a : α} {l : List α} : IsList next (next a) l → IsList next (some a) (a :: l)

namespace IsList

variable {next next' : α → Option α} {h : Option α} {a b p : α} {l l₁ l₂ : List α}

theorem cons_iff : IsList next h (a :: l) ↔ h = some a ∧ IsList next (next a) l := by
  constructor
  · rintro ⟨⟩
    exact ⟨rfl, by assumption⟩
  · rintro ⟨rfl, hl⟩
    exact .cons hl

theorem some_iff : IsList next (some a) l ↔ ∃ t, l = a :: t ∧ IsList next (next a) t := by
  constructor
  · intro hl
    cases hl with
    | cons ht => exact ⟨_, rfl, ht⟩
  · rintro ⟨t, rfl, ht⟩
    exact .cons ht

theorem none_iff : IsList next none l ↔ l = [] := by
  constructor
  · rintro ⟨⟩
    rfl
  · rintro rfl
    exact .nil

theorem head? (hl : IsList next h l) : l.head? = h := by
  cases hl <;> rfl

/-- The head pointer determines the list. -/
theorem unique (hl : IsList next h l₁) (hr : IsList next h l₂) : l₁ = l₂ := by
  induction hl generalizing l₂ with
  | nil => exact (none_iff.mp hr).symm
  | cons _ ih =>
    obtain ⟨t, rfl, ht⟩ := some_iff.mp hr
    rw [ih ht]

theorem suffix (hl : IsList next h (l₁ ++ a :: l₂)) : IsList next (next a) l₂ := by
  induction l₁ generalizing h with
  | nil => exact (cons_iff.mp hl).2
  | cons b l₁ ih => exact ih (cons_iff.mp hl).2

/-- A finite list visits no node twice: the rest of the list after a node depends on the
node alone, so both visits would leave rests of the same length. -/
theorem nodup (hl : IsList next h l) : l.Nodup := by
  induction hl with
  | nil => exact List.nodup_nil
  | @cons a l hl ih =>
    refine List.nodup_cons.mpr ⟨?_, ih⟩
    intro ha
    obtain ⟨l₁, l₂, rfl⟩ := List.append_of_mem ha
    have hlen := congrArg List.length (hl.unique hl.suffix)
    simp only [List.length_append, List.length_cons] at hlen
    omega

/-- The list only reads `next` at its own nodes. -/
theorem congr (hl : IsList next h l) (hc : ∀ a ∈ l, next' a = next a) : IsList next' h l := by
  induction hl with
  | nil => exact .nil
  | @cons a l _ ih =>
    have ih' := ih fun b hb => hc b (List.mem_cons_of_mem _ hb)
    rw [← hc a List.mem_cons_self] at ih'
    exact .cons ih'

/-- The last node has no successor. -/
theorem next_last (hl : IsList next h (l ++ [a])) : next a = none := by
  induction l generalizing h with
  | nil =>
    obtain ⟨-, hnil⟩ := cons_iff.mp hl
    exact hnil.head?.symm
  | cons b l ih => exact ih (cons_iff.mp hl).2

/-- Following `next` from a node of the list stays in the list. -/
theorem next_mem (hl : IsList next h l) (ha : a ∈ l) (hn : next a = some b) : b ∈ l := by
  obtain ⟨l₁, l₂, rfl⟩ := List.append_of_mem ha
  have hs := hl.suffix
  rw [hn] at hs
  obtain ⟨t, rfl, -⟩ := some_iff.mp hs
  simp

theorem head_mem (hl : IsList next (some a) l) : a ∈ l := by
  obtain ⟨t, rfl, -⟩ := some_iff.mp hl
  exact List.mem_cons_self

theorem next_getElem? (hl : IsList next h l) {j : Nat} (ha : l[j]? = some a) :
    next a = l[j + 1]? := by
  induction hl generalizing j with
  | nil => simp at ha
  | @cons b l hl ih =>
    cases j with
    | zero =>
      obtain rfl : b = a := by simpa using ha
      rw [List.getElem?_cons_succ, ← List.head?_eq_getElem?]
      exact hl.head?.symm
    | succ j => exact ih (by simpa using ha)

/-- The successor, or the head after the last node, is the next one round the list. -/
theorem next_round (hl : IsList next h l) {j : Nat} (ha : l[j % l.length]? = some a) :
    (next a).or h = l[(j + 1) % l.length]? := by
  have hlt : j % l.length < l.length := by
    by_contra hge
    rw [List.getElem?_eq_none (Nat.not_lt.mp hge)] at ha
    cases ha
  rw [hl.next_getElem? ha, ← Nat.mod_add_mod]
  by_cases hlast : j % l.length + 1 = l.length
  · rw [hlast, Nat.mod_self, List.getElem?_eq_none (Nat.le_refl _), ← List.head?_eq_getElem?]
    exact hl.head?.symm
  · have hnext : j % l.length + 1 < l.length := by omega
    rw [Nat.mod_eq_of_lt hnext, List.getElem?_eq_getElem hnext]
    rfl

/-- Consecutive nodes point to each other and the last node points nowhere. -/
theorem of_isChain (hc : l.IsChain fun a b => next a = some b)
    (hlast : ∀ a ∈ l.getLast?, next a = none) : IsList next l.head? l := by
  induction l with
  | nil => exact .nil
  | cons a l ih =>
    refine .cons ?_
    cases l with
    | nil =>
      rw [hlast a rfl]
      exact .nil
    | cons b l =>
      rw [List.isChain_cons_cons] at hc
      rw [hc.1]
      exact ih hc.2 fun c hc' => hlast c (by simpa using hc')

/-- A chain that ends in `a` only reads `next` at the nodes before `a`. -/
theorem isChain_congr (hc : (l ++ [a]).IsChain fun a b => next a = some b)
    (h : ∀ b ∈ l, next' b = next b) : (l ++ [a]).IsChain fun a b => next' a = some b := by
  obtain ⟨hl, ha, hlast⟩ := List.isChain_append.mp hc
  refine List.isChain_append.mpr ⟨?_, List.isChain_singleton a, ?_⟩
  · exact hl.imp_of_mem_imp fun b c hb _ hbc => (h b hb).trans hbc
  · intro b hb c hc
    exact (h b (List.mem_of_getLast? hb)).trans (hlast b hb c hc)

theorem isChain_snoc (hc : (l ++ [a]).IsChain fun a b => next a = some b) (h : next a = some b) :
    (l ++ [a] ++ [b]).IsChain fun a b => next a = some b := by
  refine List.isChain_append.mpr ⟨hc, List.isChain_singleton b, ?_⟩
  intro c hc d hd
  obtain rfl : a = c := by simpa using hc
  obtain rfl : b = d := by simpa using hd
  exact h

section Update

variable [DecidableEq α]

/-- A fresh node in front of the list. -/
theorem push (hl : IsList next h l) (ha : a ∉ l) :
    IsList (Function.update next a h) (some a) (a :: l) := by
  have hne : ∀ b ∈ l, b ≠ a := by
    rintro b hb rfl
    exact ha hb
  refine .cons ?_
  rw [Function.update_self]
  exact hl.congr fun b hb => Function.update_of_ne (hne b hb) _ _

/-- Redirecting `p` past its successor `a` takes `a` out of the list. -/
theorem unlink (hl : IsList next h (l₁ ++ p :: a :: l₂)) :
    IsList (Function.update next p (next a)) h (l₁ ++ p :: l₂) := by
  have hnd := hl.nodup
  induction l₁ generalizing h with
  | nil =>
    obtain ⟨rfl, hp⟩ := cons_iff.mp hl
    obtain ⟨-, ha⟩ := cons_iff.mp hp
    have hne : ∀ b ∈ l₂, b ≠ p := by
      rintro b hb rfl
      simp [hb] at hnd
    refine .cons ?_
    rw [Function.update_self]
    exact ha.congr fun b hb => Function.update_of_ne (hne b hb) _ _
  | cons c l₁ ih =>
    obtain ⟨rfl, hc⟩ := cons_iff.mp hl
    have hne : c ≠ p := by
      rintro rfl
      simp at hnd
    refine .cons ?_
    rw [Function.update_of_ne hne]
    exact ih hc (List.nodup_cons.mp hnd).2

end Update

end IsList

end Lib
