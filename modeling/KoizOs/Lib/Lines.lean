import Mathlib.Data.List.Basic
import Mathlib.Data.List.Induction

/-!
# Lines of a stream

A stream is split at a separator into the lines that are complete (`lines`) and the one
that the next elements continue (`lastLine`).  `lines_concat_self`, `lastLine_concat_self`
and the two lemmas for other elements say what one more element changes.
-/

namespace Lib

variable {α : Type} [DecidableEq α]

def lines (sep : α) (xs : List α) : List (List α) := (xs.splitOn sep).dropLast

def lastLine (sep : α) (xs : List α) : List α := (xs.splitOn sep).getLastD []

variable {sep c : α} {xs ys : List α}

theorem lines_append_lastLine (sep : α) (xs : List α) :
    lines sep xs ++ [lastLine sep xs] = xs.splitOn sep := by
  have hne := List.splitOn_ne_nil sep xs
  rw [lines, lastLine, List.getLastD_eq_getLast?, List.getLast?_eq_some_getLast hne,
    Option.getD_some]
  exact List.dropLast_append_getLast hne

theorem lines_nil : lines sep [] = [] := rfl

/-- The two parts are determined by the split. -/
theorem split_unique {ls : List (List α)} {l : List α} (h : xs.splitOn sep = ls ++ [l]) :
    lines sep xs = ls ∧ lastLine sep xs = l := by
  rw [lines, lastLine, h]
  simp

theorem splitOn_concat_of_ne (hc : c ≠ sep) :
    (xs ++ [c]).splitOn sep = lines sep xs ++ [lastLine sep xs ++ [c]] := by
  induction xs with
  | nil => simp [List.splitOn_cons_eq_if_modifyHead, hc, lines, lastLine]
  | cons x xs ih =>
    have hsplit := lines_append_lastLine sep xs
    rw [List.cons_append, List.splitOn_cons_eq_if_modifyHead, ih]
    by_cases hx : x = sep
    · have hwhole : (x :: xs).splitOn sep = ([] :: lines sep xs) ++ [lastLine sep xs] := by
        rw [List.splitOn_cons_eq_if_modifyHead, if_pos (by simp [hx]), ← hsplit]
        rfl
      obtain ⟨hlines, hlast⟩ := split_unique hwhole
      rw [if_pos (by simp [hx]), hlines, hlast]
      rfl
    · have hwhole : (x :: xs).splitOn sep =
          (lines sep xs ++ [lastLine sep xs]).modifyHead (List.cons x) := by
        rw [List.splitOn_cons_eq_if_modifyHead, if_neg (by simp [hx]), ← hsplit]
      rw [if_neg (by simp [hx])]
      cases hlines : lines sep xs with
      | nil =>
        rw [hlines] at hwhole
        have hwhole : (x :: xs).splitOn sep = [] ++ [x :: lastLine sep xs] := hwhole
        obtain ⟨hlines', hlast'⟩ := split_unique hwhole
        rw [hlines', hlast']
        rfl
      | cons l ls =>
        rw [hlines] at hwhole
        have hwhole : (x :: xs).splitOn sep = ((x :: l) :: ls) ++ [lastLine sep xs] := hwhole
        obtain ⟨hlines', hlast'⟩ := split_unique hwhole
        rw [hlines', hlast']
        rfl

/-- An element that is no separator continues the last line. -/
theorem lines_concat_of_ne (hc : c ≠ sep) : lines sep (xs ++ [c]) = lines sep xs :=
  (split_unique (splitOn_concat_of_ne hc)).1

theorem lastLine_concat_of_ne (hc : c ≠ sep) :
    lastLine sep (xs ++ [c]) = lastLine sep xs ++ [c] :=
  (split_unique (splitOn_concat_of_ne hc)).2

/-- A separator completes the last line and begins an empty one. -/
theorem splitOn_concat_self (sep : α) (xs : List α) :
    (xs ++ [sep]).splitOn sep = (lines sep xs ++ [lastLine sep xs]) ++ [[]] := by
  rw [List.splitOn_append_cons_self, lines_append_lastLine]
  rfl

theorem lines_concat_self : lines sep (xs ++ [sep]) = lines sep xs ++ [lastLine sep xs] :=
  (split_unique (splitOn_concat_self sep xs)).1

theorem lastLine_concat_self : lastLine sep (xs ++ [sep]) = [] :=
  (split_unique (splitOn_concat_self sep xs)).2

/-- Without a separator there is only the last line. -/
theorem split_of_not_mem (h : sep ∉ xs) : lines sep xs = [] ∧ lastLine sep xs = xs := by
  induction xs using List.reverseRecOn with
  | nil => exact ⟨rfl, rfl⟩
  | append_singleton xs c ih =>
    rw [List.mem_append, List.mem_singleton, not_or] at h
    obtain ⟨hlines, hlast⟩ := ih h.1
    rw [lines_concat_of_ne (Ne.symm h.2), lastLine_concat_of_ne (Ne.symm h.2), hlines, hlast]
    exact ⟨rfl, rfl⟩

/-- Complete lines stay as they are. -/
theorem lines_mono (sep : α) (xs ys : List α) : lines sep xs <+: lines sep (xs ++ ys) := by
  induction ys generalizing xs with
  | nil =>
    simp only [List.append_nil, List.prefix_refl]
  | cons c ys ih =>
    have hone : lines sep xs <+: lines sep (xs ++ [c]) := by
      by_cases hc : c = sep
      · subst hc
        rw [lines_concat_self]
        exact List.prefix_append _ _
      · simp only [lines_concat_of_ne hc, List.prefix_refl]
    have hrest := ih (xs ++ [c])
    rw [List.append_assoc] at hrest
    exact hone.trans hrest

/-- The last line is the beginning of a line of any longer stream. -/
theorem lastLine_extends (sep : α) (xs ys : List α) :
    ∃ l ∈ (xs ++ ys).splitOn sep, lastLine sep xs <+: l := by
  induction ys generalizing xs with
  | nil =>
    refine ⟨lastLine sep xs, ?_, List.prefix_refl _⟩
    rw [List.append_nil, ← lines_append_lastLine]
    simp
  | cons c ys ih =>
    by_cases hc : c = sep
    · subst hc
      refine ⟨lastLine c xs, ?_, List.prefix_refl _⟩
      have hmono := lines_mono c (xs ++ [c]) ys
      rw [lines_concat_self, List.append_assoc] at hmono
      rw [← lines_append_lastLine]
      apply List.mem_append_left
      apply hmono.subset
      simp
    · obtain ⟨l, hl, hpre⟩ := ih (xs ++ [c])
      rw [List.append_assoc] at hl
      rw [lastLine_concat_of_ne hc] at hpre
      exact ⟨l, hl, (List.prefix_append _ _).trans hpre⟩

end Lib
