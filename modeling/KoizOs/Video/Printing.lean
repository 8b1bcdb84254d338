import KoizOs.Video.Vga

/-!
# Printing on the screen

`vga_print_screen` threads the offset that `print_char` returns, `vga_print_screen_char`
reads the registers each time.  Either way the screen is a window on a text without end.

    Window 25 80 (0, 0) (screen) (text)     kept by each character    (Vga.shows_char)
-/

namespace KoizOs

open Lib

namespace Vga

variable {v : Vga} {t : Text Cell} {c color : UInt8}

theorem toNat_cursorOffset (hcur : v.cursor < 2000) :
    (le16 (v.regs 15) (v.regs 14) * 2).toNat = 2 * v.cursor := by
  rw [UInt16.toNat_mul]
  show v.cursor * 2 % 65536 = 2 * v.cursor
  omega

/-- The registers do not change while the cursor is read. -/
theorem getCursorOffset_index (i : UInt8) :
    getCursorOffset { v with index := i } = getCursorOffset v := rfl

/-! ## The window -/

/-- The screen shows the end of `t`. -/
def Shows (v : Vga) (t : Text Cell) : Prop := v.cursor < 2000 ∧ Window 25 80 (0, 0) v.text t

/-- The rows of the screen, and zeroed ones below. -/
def firstText (v : Vga) : Text Cell :=
  { v.text with cell := fun r c => if r < 25 then v.text.cell r c else (0, 0) }

def typeText (color : UInt8) (message : List UInt8) (t : Text Cell) : Text Cell :=
  message.foldl (fun t c => typeChar color c t) t

theorem shows_first (hcur : v.cursor < 2000) : v.Shows v.firstText := by
  refine ⟨hcur, .start ?_ ?_⟩
  · show v.cursor / 80 < 25
    omega
  · show v.cursor % 80 < 80
    omega

/-- Typing keeps the window. -/
theorem window_typeChar {s : Text Cell} (hs : Window 25 80 (0, 0) s t) (color c : UInt8) :
    Window 25 80 (0, 0) ((typeChar color c s).scroll 25 (0, 0)) (typeChar color c t) := by
  unfold typeChar
  split
  · exact hs.newline (by decide)
  · exact hs.put (by decide) _

theorem shows_char (h : v.Shows t) (c color : UInt8) : ∃ v',
    v.printChar c (UInt8.ofNat (offsetToCol (2 * v.cursor)))
        (UInt8.ofNat (offsetToRow (2 * v.cursor))) color = (2 * v'.cursor, v') ∧
      v'.index = 15 ∧ v'.Shows (typeChar (charColor color) c t) ∧
      ∀ x, 4000 ≤ x → v'.vidmem x = v.vidmem x := by
  obtain ⟨v', hok, hcur, hindex, hframe, hscreen⟩ := printChar_spec h.1 c color
  exact ⟨v', hok, hindex, ⟨hcur, (window_typeChar h.2 _ c).congr hscreen⟩, hframe⟩

theorem printScreenLoop_shows {message : List UInt8} (h : v.Shows t) (color : UInt8) :
    (printScreenLoop color message (2 * v.cursor) v).Shows
        (typeText (charColor color) message t) ∧
      ∀ x, 4000 ≤ x →
        (printScreenLoop color message (2 * v.cursor) v).vidmem x = v.vidmem x := by
  induction message generalizing v t with
  | nil => exact ⟨h, fun _ _ => rfl⟩
  | cons c message ih =>
    obtain ⟨v', hok, -, h', hframe⟩ := shows_char h c color
    obtain ⟨hrest, hframe'⟩ := ih h'
    rw [printScreenLoop, hok]
    exact ⟨hrest, fun x hx => (hframe' x hx).trans (hframe x hx)⟩

theorem printScreen_eq (hcur : v.cursor < 2000) (message : CString) (color : UInt8) :
    v.printScreen message color =
      printScreenLoop color message.chars (2 * v.cursor) { v with index := 15 } := by
  unfold printScreen
  rw [getCursorOffset_eq]
  dsimp only
  rw [toNat_cursorOffset hcur]

/-- A string keeps the window, and stays inside the video memory. -/
theorem printScreen_shows (h : v.Shows t) (message : CString) (color : UInt8) :
    (v.printScreen message color).Shows (typeText (charColor color) message.chars t) ∧
      ∀ x, 4000 ≤ x → (v.printScreen message color).vidmem x = v.vidmem x := by
  rw [printScreen_eq h.1]
  exact @printScreenLoop_shows { v with index := 15 } t message.chars h color

theorem Shows.cursor_eq (h : v.Shows t) : v.cursor = 80 * (t.row - (t.row - 24)) + t.col := by
  have hrow : t.row - 24 + v.cursor / 80 = t.row := h.2.row
  have hcol : v.cursor % 80 = t.col := h.2.col
  omega

end Vga

open Vga

/-- **A scrolling window.**  The screen after `vga_print_screen` is the last 25 rows of the
text, from row `t.row - 24` on, the cursor is the text's cursor in them, and nothing behind
the 4000 bytes of video memory has changed, whatever it was. -/
theorem vga_window {v : Vga} {color : UInt8} (hcur : v.cursor < 25 * 80) (hcolor : color ≠ 0)
    (message : CString) :
    let t := typeText color message.chars v.firstText
    let v' := v.printScreen message color
    (∀ r c, r < 25 → c < 80 →
      (v'.vidmem (160 * r + 2 * c), v'.vidmem (160 * r + 2 * c + 1)) =
        t.cell (t.row - 24 + r) c) ∧
      v'.cursor = 80 * (t.row - (t.row - 24)) + t.col ∧ v'.cursor < 25 * 80 ∧
      ∀ x, 4000 ≤ x → v'.vidmem x = v.vidmem x := by
  obtain ⟨hshows, hframe⟩ := printScreen_shows (shows_first hcur) message color
  rw [charColor, if_neg hcolor] at hshows
  exact ⟨hshows.2.cell, hshows.cursor_eq, hshows.1, hframe⟩

/-- A blank screen with the cursor in its last cell. -/
def cornerScreen : Vga where
  vidmem := fun _ => 0
  index := 0
  regs := fun i => if i = 14 then 7 else if i = 15 then 0xCF else 0

/-- `ab` in the corner: the `a` ends its row, which moves up. -/
theorem vga_window_corner :
    (cornerScreen.printScreen ⟨[0x61, 0x62], by decide⟩ 0x0F).cursor = 1921 ∧
    ((cornerScreen.printScreen ⟨[0x61, 0x62], by decide⟩ 0x0F).vidmem 3838,
      (cornerScreen.printScreen ⟨[0x61, 0x62], by decide⟩ 0x0F).vidmem 3839) = (0x61, 0x0F) := by
  obtain ⟨hcell, hcursor, -⟩ := @vga_window cornerScreen 0x0F (by decide) (by decide)
    ⟨[0x61, 0x62], by decide⟩
  exact ⟨hcursor, hcell 23 79 (by decide) (by decide)⟩

/-! ## The two ways to print -/

/-- Reading the registers gives the offset that was returned. -/
theorem Vga.printScreenLoop_eq {v : Vga} {message : List UInt8} (hcur : v.cursor < 2000)
    (hindex : v.index = 15) (color : UInt8) :
    printScreenLoop color message (2 * v.cursor) v =
      message.foldl (fun v c => v.printScreenChar c color) v := by
  induction message generalizing v with
  | nil => rfl
  | cons c message ih =>
    obtain ⟨v', hok, hcur', hindex', -⟩ := printChar_spec hcur c color
    have hsame : ({ v with index := 15 } : Vga) = v := by rw [← hindex]
    have hchar : v.printScreenChar c color = v' := by
      unfold printScreenChar
      rw [getCursorOffset_eq, hsame]
      dsimp only
      rw [toNat_cursorOffset hcur, hok]
    rw [printScreenLoop, hok, List.foldl_cons, hchar]
    exact ih hcur' hindex'

/-- **Two ways to print.**  A string printed at once leaves the same video memory and the same
cursor as its characters printed one at a time. -/
theorem vga_paths_agree {v : Vga} (hcur : v.cursor < 25 * 80) (message : CString)
    (color : UInt8) :
    (v.printScreen message color).vidmem =
        (message.chars.foldl (fun v c => v.printScreenChar c color) v).vidmem ∧
      (v.printScreen message color).cursor =
        (message.chars.foldl (fun v c => v.printScreenChar c color) v).cursor := by
  have hloop : printScreenLoop color message.chars (2 * v.cursor) { v with index := 15 } =
      message.chars.foldl (fun v c => v.printScreenChar c color) { v with index := 15 } :=
    @printScreenLoop_eq { v with index := 15 } message.chars hcur rfl color
  rw [printScreen_eq hcur, hloop]
  cases message.chars with
  | nil => exact ⟨rfl, rfl⟩
  | cons c rest =>
    have hfirst : printScreenChar c color { v with index := 15 } = printScreenChar c color v := by
      unfold printScreenChar
      rw [getCursorOffset_index]
    rw [List.foldl_cons, List.foldl_cons, hfirst]
    exact ⟨rfl, rfl⟩

theorem vga_paths_agree_corner :
    (cornerScreen.printScreen ⟨[0x61, 0x0A, 0x62], by decide⟩ 0).cursor =
      ((((cornerScreen.printScreenChar 0x61 0).printScreenChar 0x0A 0).printScreenChar 0x62 0)).cursor :=
  (vga_paths_agree (by decide) ⟨[0x61, 0x0A, 0x62], by decide⟩ 0).2

end KoizOs
