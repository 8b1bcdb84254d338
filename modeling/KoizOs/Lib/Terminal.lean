import Mathlib.Order.Basic

/-!
# Text on a scrolling screen

A text has rows without end, of `w` cells each, and a cursor; what is typed is put at the
cursor.  A screen has `h` rows only: when the cursor leaves the last one, all rows move up
and a blank one comes in below (`scroll`).

`Window.put`, `Window.newline`: the screen stays a window on the text, the `h` rows from
`row - (h - 1)` on.
-/

namespace Lib

structure Text (α : Type) where
  cell : Nat → Nat → α
  row : Nat
  col : Nat

variable {α : Type} {s s' t : Text α} {h w : Nat} {blank a : α}

namespace Text

def newline (t : Text α) : Text α := { t with row := t.row + 1, col := 0 }

def store (a : α) (t : Text α) : Text α :=
  { t with cell := fun r c => if r = t.row ∧ c = t.col then a else t.cell r c }

def advance (w : Nat) (t : Text α) : Text α :=
  if t.col + 1 < w then { t with col := t.col + 1 } else t.newline

/-- A cell is typed at the cursor. -/
def put (w : Nat) (a : α) (t : Text α) : Text α := (t.store a).advance w

/-- The first row that a screen of `h` rows shows. -/
def top (h : Nat) (t : Text α) : Nat := t.row - (h - 1)

/-- The rows move up when the cursor is below the last one. -/
def scroll (h : Nat) (blank : α) (s : Text α) : Text α :=
  if s.row < h then s
  else
    { s with cell := fun r c => if r + 1 < h then s.cell (r + 1) c else blank, row := s.row - 1 }

theorem scroll_of_lt (hrow : s.row < h) : s.scroll h blank = s := if_pos hrow

theorem scroll_of_ge (hrow : ¬ s.row < h) : s.scroll h blank =
    { s with cell := fun r c => if r + 1 < h then s.cell (r + 1) c else blank, row := s.row - 1 } :=
  if_neg hrow

theorem advance_of_lt (hcol : s.col + 1 < w) : s.advance w = { s with col := s.col + 1 } :=
  if_pos hcol

theorem advance_of_ge (hcol : ¬ s.col + 1 < w) : s.advance w = s.newline := if_neg hcol

end Text

/-- The same on a screen of `h` rows and `w` columns. -/
structure SameScreen (h w : Nat) (s s' : Text α) : Prop where
  cell : ∀ r c, r < h → c < w → s.cell r c = s'.cell r c
  row : s.row = s'.row
  col : s.col = s'.col

namespace SameScreen

theorem refl (h w : Nat) (s : Text α) : SameScreen h w s s := ⟨fun _ _ _ _ => rfl, rfl, rfl⟩

theorem trans (hs : SameScreen h w s s') (hs' : SameScreen h w s' t) : SameScreen h w s t where
  cell r c hr hc := (hs.cell r c hr hc).trans (hs'.cell r c hr hc)
  row := hs.row.trans hs'.row
  col := hs.col.trans hs'.col

theorem scroll (hs : SameScreen h w s s') (blank : α) :
    SameScreen h w (s.scroll h blank) (s'.scroll h blank) := by
  by_cases hrow : s.row < h
  · rw [Text.scroll_of_lt hrow, Text.scroll_of_lt (hs.row ▸ hrow)]
    exact hs
  · rw [Text.scroll_of_ge hrow, Text.scroll_of_ge (hs.row ▸ hrow)]
    refine ⟨?_, congrArg (· - 1) hs.row, hs.col⟩
    intro r c hr hc
    by_cases hlast : r + 1 < h
    · simp only [if_pos hlast]
      exact hs.cell (r + 1) c hlast hc
    · simp only [if_neg hlast]

end SameScreen

/-- `s` is the screen of `h` rows that shows the end of `t`, as far as `w` columns. -/
structure Window (h w : Nat) (blank : α) (s t : Text α) : Prop where
  cell : ∀ r c, r < h → c < w → s.cell r c = t.cell (t.top h + r) c
  row : t.top h + s.row = t.row
  col : s.col = t.col
  col_lt : t.col < w
  /-- nothing is below -/
  blank : ∀ r c, t.top h + h ≤ r → t.cell r c = blank

namespace Window

/-- The first screen, before anything scrolled. -/
theorem start (hrow : s.row < h) (hcol : s.col < w) :
    Window h w blank s { s with cell := fun r c => if r < h then s.cell r c else blank } := by
  have htop : s.row - (h - 1) = 0 := by omega
  refine ⟨?_, ?_, rfl, hcol, ?_⟩
  · intro r c hr _
    simp only [Text.top, htop, Nat.zero_add, if_pos hr]
  · simp only [Text.top, htop, Nat.zero_add]
  · intro r c hr
    simp only [Text.top, htop, Nat.zero_add] at hr
    exact if_neg (Nat.not_lt.mpr hr)

/-- Only what is on the screen counts. -/
theorem congr (hs : Window h w blank s t) (heq : SameScreen h w s' s) : Window h w blank s' t where
  cell r c hr hc := (heq.cell r c hr hc).trans (hs.cell r c hr hc)
  row := heq.row ▸ hs.row
  col := heq.col.trans hs.col
  col_lt := hs.col_lt
  blank := hs.blank

theorem row_lt (hs : Window h w blank s t) (hpos : 0 < h) : s.row < h := by
  have hrow := hs.row
  unfold Text.top at hrow
  omega

theorem store (hs : Window h w blank s t) (hpos : 0 < h) (a : α) :
    Window h w blank (s.store a) (t.store a) where
  cell r c hr hc := by
    have hiff : (r = s.row ∧ c = s.col) ↔ (t.top h + r = t.row ∧ c = t.col) := by
      rw [← hs.row, hs.col, Nat.add_left_cancel_iff]
    show (if r = s.row ∧ c = s.col then a else s.cell r c) =
      if t.top h + r = t.row ∧ c = t.col then a else t.cell (t.top h + r) c
    simp only [hiff, hs.cell r c hr hc]
  row := hs.row
  col := hs.col
  col_lt := hs.col_lt
  blank r c hr := by
    have hrow := hs.row_lt hpos
    have hcur := hs.row
    have hr' : t.top h + h ≤ r := hr
    refine (if_neg ?_).trans (hs.blank r c hr')
    omega

/-- **The next row.**  The text has room for it; the screen scrolls if it has none. -/
theorem newline (hs : Window h w blank s t) (hpos : 0 < h) :
    Window h w blank (s.newline.scroll h blank) t.newline := by
  have hlt := hs.row_lt hpos
  have hrow := hs.row
  have hw : 0 < w := Nat.lt_of_le_of_lt (Nat.zero_le _) hs.col_lt
  by_cases hnext : s.row + 1 < h
  · -- the last row is not reached, and the window stays
    have htop : t.top h = 0 := by
      unfold Text.top at hrow ⊢
      omega
    rw [htop] at hrow
    have htop' : t.newline.top h = 0 := by
      simp only [Text.top, Text.newline]
      omega
    rw [Text.scroll_of_lt (show s.newline.row < h from hnext)]
    refine ⟨?_, ?_, rfl, hw, ?_⟩
    · intro r c hr hc
      have hcell := hs.cell r c hr hc
      rw [htop] at hcell
      rw [htop']
      exact hcell
    · rw [htop']
      simp only [Text.newline]
      omega
    · intro r c hr
      rw [htop'] at hr
      exact hs.blank r c (by rw [htop]; exact hr)
  · -- the window moves down by one row
    have htop : t.newline.top h = t.top h + 1 := by
      simp only [Text.top, Text.newline] at hrow ⊢
      omega
    rw [Text.scroll_of_ge (show ¬ s.newline.row < h from hnext)]
    refine ⟨?_, ?_, rfl, hw, ?_⟩
    · intro r c hr hc
      rw [htop, Nat.add_right_comm, Nat.add_assoc]
      by_cases hlast : r + 1 < h
      · exact (if_pos hlast).trans (hs.cell (r + 1) c hlast hc)
      · exact (if_neg hlast).trans (hs.blank _ c (by omega)).symm
    · rw [htop]
      simp only [Text.newline]
      omega
    · intro r c hr
      rw [htop] at hr
      exact hs.blank r c (by omega)

/-- **The next cell.** -/
theorem put (hs : Window h w blank s t) (hpos : 0 < h) (a : α) :
    Window h w blank ((s.put w a).scroll h blank) (t.put w a) := by
  have hstore := hs.store hpos a
  by_cases hcol : t.col + 1 < w
  · have hrow := hs.row_lt hpos
    have hs' : s.put w a = ⟨(s.store a).cell, s.row, s.col + 1⟩ :=
      Text.advance_of_lt (show s.col + 1 < w by rw [hs.col]; exact hcol)
    have ht' : t.put w a = ⟨(t.store a).cell, t.row, t.col + 1⟩ := Text.advance_of_lt hcol
    rw [hs', ht', Text.scroll_of_lt (by exact hrow)]
    exact ⟨hstore.cell, hstore.row, congrArg (· + 1) hs.col, hcol, hstore.blank⟩
  · have hs' : s.put w a = (s.store a).newline :=
      Text.advance_of_ge (show ¬ s.col + 1 < w by rw [hs.col]; exact hcol)
    have ht' : t.put w a = (t.store a).newline := Text.advance_of_ge hcol
    rw [hs', ht']
    exact hstore.newline hpos

end Window

end Lib
