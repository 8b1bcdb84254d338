import Mathlib.Data.List.Basic

/-!
# Two streams, one of them through a queue

A source sends elements of two kinds.  Those of one kind pass through a queue of at most `n`
elements, the others do not, and so may overtake what is in the queue.

| result | content |
|--------|---------|
| `Delayed.queued` | the queued stream arrives in order, and what is missing is in the queue |
| `Delayed.direct` | the other one arrives in order, and at once |
| `Delayed.overtakes` | an element that is not queued overtakes `n` others at most |
-/

namespace Lib

variable {κ α : Type} {q k : κ} {n : Nat} {c : α} {pending : List α}
  {sent arrived : List (κ × α)}

/-- What was sent, what arrived and what is in the queue, when kind `q` is queued. -/
inductive Delayed (q : κ) (n : Nat) : List (κ × α) → List (κ × α) → List α → Prop
  | nil : Delayed q n [] [] []
  | enqueue {s t : List (κ × α)} {p : List α} {c : α} :
      Delayed q n s t p → p.length < n → Delayed q n (s ++ [(q, c)]) t (p ++ [c])
  | dequeue {s t : List (κ × α)} {p : List α} {c : α} :
      Delayed q n s t (c :: p) → Delayed q n s (t ++ [(q, c)]) p
  | pass {s t : List (κ × α)} {p : List α} {k : κ} {c : α} :
      Delayed q n s t p → k ≠ q → Delayed q n (s ++ [(k, c)]) (t ++ [(k, c)]) p

namespace Delayed

theorem length_le (h : Delayed q n sent arrived pending) : pending.length ≤ n := by
  induction h with
  | nil => exact Nat.zero_le n
  | enqueue _ hroom _ =>
    rw [List.length_append]
    exact hroom
  | dequeue _ ih => exact Nat.le_of_succ_le ih
  | pass _ _ ih => exact ih

theorem pass_all (h : Delayed q n sent arrived pending) (hne : k ≠ q) (cs : List α) :
    Delayed q n (sent ++ cs.map (Prod.mk k)) (arrived ++ cs.map (Prod.mk k)) pending := by
  induction cs generalizing sent arrived with
  | nil =>
    rw [List.map_nil, List.append_nil, List.append_nil]
    exact h
  | cons c cs ih =>
    have hrest := ih (h.pass hne (c := c))
    rwa [List.append_assoc, List.append_assoc] at hrest

theorem enqueue_all {cs : List α} (h : Delayed q n sent arrived pending)
    (hroom : pending.length + cs.length ≤ n) :
    Delayed q n (sent ++ cs.map (Prod.mk q)) arrived (pending ++ cs) := by
  induction cs generalizing sent pending with
  | nil =>
    rw [List.map_nil, List.append_nil, List.append_nil]
    exact h
  | cons c cs ih =>
    rw [List.length_cons] at hroom
    have hrest := ih (h.enqueue (c := c) (by omega))
      (by rw [List.length_append, List.length_singleton]; omega)
    rwa [List.append_assoc, List.append_assoc] at hrest

/-- Elements that a queue takes while it gives others away, in whatever order it does so. -/
theorem transfer {cs shown rest : List α} (h : Delayed q n sent arrived pending) (hn : 0 < n)
    (heq : shown ++ rest = pending ++ cs) (hrest : rest.length ≤ n) :
    Delayed q n (sent ++ cs.map (Prod.mk q)) (arrived ++ shown.map (Prod.mk q)) rest := by
  induction shown generalizing sent arrived pending cs with
  | nil =>
    rw [List.nil_append] at heq
    subst heq
    rw [List.map_nil, List.append_nil]
    exact h.enqueue_all (by rwa [List.length_append] at hrest)
  | cons d shown ih =>
    rw [List.map_cons, List.append_cons]
    cases pending with
    | nil =>
      obtain ⟨cs, rfl⟩ : ∃ cs', cs = d :: cs' := ⟨shown ++ rest, heq.symm⟩
      rw [List.map_cons, List.append_cons]
      exact ih (h.enqueue hn).dequeue (List.cons.inj heq).2
    | cons e pending =>
      obtain ⟨rfl, htail⟩ := List.cons.inj heq
      exact ih h.dequeue htail

end Delayed

/-! ## The streams -/

variable [DecidableEq κ]

/-- The elements of kind `k`. -/
def ofKind (k : κ) (l : List (κ × α)) : List α :=
  l.filterMap fun e => if e.1 = k then some e.2 else none

@[simp] theorem ofKind_nil (k : κ) : ofKind k ([] : List (κ × α)) = [] := rfl

theorem ofKind_append (k : κ) (l l' : List (κ × α)) :
    ofKind k (l ++ l') = ofKind k l ++ ofKind k l' := List.filterMap_append

@[simp] theorem ofKind_self (k : κ) (c : α) : ofKind k [(k, c)] = [c] := by
  simp [ofKind]

theorem ofKind_of_ne (h : k ≠ q) (c : α) : ofKind q [(k, c)] = [] := by
  simp [ofKind, h]

namespace Delayed

/-- What arrived of the queued stream, then the queue, is what was sent of it. -/
theorem queued (h : Delayed q n sent arrived pending) :
    ofKind q arrived ++ pending = ofKind q sent := by
  induction h with
  | nil => rfl
  | enqueue _ _ ih => rw [ofKind_append, ofKind_self, ← ih, List.append_assoc]
  | dequeue _ ih => rw [ofKind_append, ofKind_self, ← ih, List.append_assoc, List.singleton_append]
  | pass _ hne ih =>
    rw [ofKind_append, ofKind_append, ofKind_of_ne hne, List.append_nil, List.append_nil]
    exact ih

/-- The other streams arrive as they were sent. -/
theorem direct (h : Delayed q n sent arrived pending) (hne : k ≠ q) :
    ofKind k arrived = ofKind k sent := by
  induction h with
  | nil => rfl
  | enqueue _ _ ih => rw [ofKind_append, ofKind_of_ne (Ne.symm hne), List.append_nil, ih]
  | dequeue _ ih => rw [ofKind_append, ofKind_of_ne (Ne.symm hne), List.append_nil, ih]
  | pass _ _ ih => rw [ofKind_append, ofKind_append, ih]

/-- **Overtaking.**  When an element that is not queued arrived, all that had been sent before
it had arrived too, up to the last `n` elements of the queued stream. -/
theorem overtakes {t t' : List (κ × α)} (h : Delayed q n sent arrived pending) (hne : k ≠ q)
    (heq : arrived = t ++ (k, c) :: t') :
    ∃ s s' p, sent = s ++ (k, c) :: s' ∧ p.length ≤ n ∧ ofKind q t ++ p = ofKind q s ∧
      ∀ j, j ≠ q → ofKind j t = ofKind j s := by
  induction h generalizing t' with
  | nil => simp at heq
  | @enqueue _ _ _ d _ _ ih =>
    obtain ⟨s, s', p, rfl, hrest⟩ := ih heq
    exact ⟨s, s' ++ [(q, d)], p, by rw [List.append_assoc, List.cons_append], hrest⟩
  | @dequeue sent arrived pending d _ ih =>
    -- what arrives last is of the queued kind, so the cut lies before it
    rcases List.eq_nil_or_concat' t' with rfl | ⟨t', e, rfl⟩
    · obtain ⟨-, hlast⟩ := List.append_inj' heq rfl
      exact absurd (Prod.mk.inj (List.cons.inj hlast).1).1.symm hne
    · rw [← List.cons_append, ← List.append_assoc] at heq
      exact ih (List.append_inj' heq rfl).1
  | @pass sent arrived pending j d hd hj ih =>
    rcases List.eq_nil_or_concat' t' with rfl | ⟨t', e, rfl⟩
    · obtain ⟨rfl, hlast⟩ := List.append_inj' heq rfl
      rw [(List.cons.inj hlast).1]
      exact ⟨sent, [], pending, rfl, hd.length_le, hd.queued, fun i hi => hd.direct hi⟩
    · rw [← List.cons_append, ← List.append_assoc] at heq
      obtain ⟨s, s', p, rfl, hrest⟩ := ih (List.append_inj' heq rfl).1
      exact ⟨s, s' ++ [(j, d)], p, by rw [List.append_assoc, List.cons_append], hrest⟩

end Delayed

end Lib
