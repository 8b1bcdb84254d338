import Mathlib.Data.List.GetD
import Mathlib.Data.List.TakeWhile

/-!
# Fields of a fixed width

A field of `n` places takes the front of a list, with `pad` in the places that are left
(`field`).  `before` and `after` are the parts of a list around the first `d`.
-/

namespace Lib

variable {α : Type} {n : Nat} {pad d c : α} {xs ys cs : List α}

/-! ## Padding -/

def field (n : Nat) (pad : α) (xs : List α) : List α := (xs.take n).rightpad n pad

theorem length_field : (field n pad xs).length = n := by
  rw [field, List.length_rightpad, List.length_take]
  omega

theorem field_of_le (h : xs.length ≤ n) :
    field n pad xs = xs ++ List.replicate (n - xs.length) pad := by
  rw [field, List.take_of_length_le h]
  rfl

/-- What is read from an array that was filled place by place. -/
theorem map_range_eq_field {f : Nat → α} (h : ∀ i, i < n → f i = xs.getD i pad) :
    (List.range n).map f = field n pad xs := by
  apply List.ext_getElem
  · rw [List.length_map, List.length_range, length_field]
  · intro i hi _
    rw [List.length_map, List.length_range] at hi
    rw [List.getElem_map, List.getElem_range, h i hi]
    simp only [field, List.rightpad, List.getElem_append, List.length_take, List.getElem_take,
      List.getElem_replicate]
    by_cases hlt : i < xs.length
    · rw [dif_pos (by omega), List.getD_eq_getElem _ _ hlt]
    · rw [dif_neg (by omega), List.getD_eq_default _ _ (Nat.not_lt.mp hlt)]

/-- Lists without `pad` that fit are told by their fields. -/
theorem field_inj (hxs : pad ∉ xs) (hys : pad ∉ ys) (hx : xs.length ≤ n) (hy : ys.length ≤ n)
    (h : field n pad xs = field n pad ys) : xs = ys := by
  classical
  have hcut : ∀ zs : List α, pad ∉ zs → ∀ m,
      (zs ++ List.replicate m pad).takeWhile (· ≠ pad) = zs := by
    intro zs hzs m
    have hall : ∀ a ∈ zs, decide (a ≠ pad) = true := by
      intro a ha
      rw [decide_eq_true_eq]
      rintro rfl
      exact hzs ha
    rw [List.takeWhile_append_of_pos hall, List.takeWhile_replicate, if_neg (by simp),
      List.append_nil]
  rw [field_of_le hx, field_of_le hy] at h
  rw [← hcut xs hxs (n - xs.length), h, hcut ys hys]

/-! ## Cutting at a separator -/

section Separator

variable [DecidableEq α]

def before (d : α) (cs : List α) : List α := cs.takeWhile (· ≠ d)

def after (d : α) (cs : List α) : List α := (cs.dropWhile (· ≠ d)).tail

theorem before_cons_self : before d (d :: cs) = [] :=
  List.takeWhile_cons_of_neg (by simp)

theorem after_cons_self : after d (d :: cs) = cs := by
  rw [after, List.dropWhile_cons_of_neg (by simp)]
  rfl

theorem before_cons_of_ne (h : c ≠ d) : before d (c :: cs) = c :: before d cs :=
  List.takeWhile_cons_of_pos (by simp [h])

theorem after_cons_of_ne (h : c ≠ d) : after d (c :: cs) = after d cs := by
  rw [after, List.dropWhile_cons_of_pos (by simp [h])]
  rfl

theorem before_append_after (h : d ∈ cs) : before d cs ++ d :: after d cs = cs := by
  induction cs with
  | nil => exact absurd h List.not_mem_nil
  | cons c cs ih =>
    by_cases hc : c = d
    · subst hc
      rw [before_cons_self, after_cons_self, List.nil_append]
    · rw [before_cons_of_ne hc, after_cons_of_ne hc, List.cons_append,
        ih (List.mem_of_ne_of_mem (Ne.symm hc) h)]

/-- Without a separator there is nothing behind it. -/
theorem mem_of_after_ne_nil (h : after d cs ≠ []) : d ∈ cs := by
  by_contra hno
  apply h
  have hall : ∀ c ∈ cs, decide (c ≠ d) = true := by
    intro c hc
    rw [decide_eq_true_eq]
    rintro rfl
    exact hno hc
  rw [after, List.dropWhile_eq_nil_iff.mpr hall]
  rfl

theorem before_subset : before d cs ⊆ cs := (List.takeWhile_prefix _).subset

theorem after_subset : after d cs ⊆ cs :=
  fun _ h => (List.dropWhile_suffix _).subset ((List.tail_suffix _).subset h)

end Separator

end Lib
