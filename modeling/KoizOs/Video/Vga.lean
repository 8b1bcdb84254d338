import KoizOs.Kernel.Basic
import KoizOs.Lib.Terminal
import KoizOs.Lib.Words
import Mathlib.Logic.Function.Basic

/-!
# The text screen

Video memory has two bytes for each of the 25 rows of 80 cells, the character and its
colour.  The cursor is kept by the CRT controller, as the number of a cell in two registers
of 8 bits; the driver works with byte offsets, twice that.  An `int` of the driver is never
negative and is a natural number here.

| result | content |
|--------|---------|
| `getCursorOffset_eq`, `setCursorOffset_cursor` | the registers and the offsets |
| `scrollScreen_apply` | what scrolling does to a byte |
| `printChar_spec` | `print_char` types at the cursor of `Vga.text` |
-/

namespace KoizOs

open Function Lib

def maxRows : Nat := 25
def maxCols : Nat := 80
def vcharCellsize : Nat := 2

inductive ScreenPort where
  /-- 0x3D4 -/
  | regScreenCtrl
  /-- 0x3D5 -/
  | regScreenData

structure Vga where
  /-- the memory from `VIDEO_ADDRESS` on -/
  vidmem : Buffer
  /-- the register that `REG_SCREEN_DATA` stands for -/
  index : UInt8
  regs : UInt8 → UInt8

/-! ## Algorithm -/

def ioByteOut (port : ScreenPort) (data : UInt8) (v : Vga) : Vga :=
  match port with
  | .regScreenCtrl => { v with index := data }
  | .regScreenData => { v with regs := update v.regs v.index data }

def ioByteIn (port : ScreenPort) (v : Vga) : UInt8 :=
  match port with
  | .regScreenCtrl => v.index
  | .regScreenData => v.regs v.index

def getOffset (col row : Nat) : UInt16 := UInt16.ofNat ((row * maxCols + col) * vcharCellsize)

def offsetToRow (offset : Nat) : Nat := offset / (vcharCellsize * maxCols)

def offsetToCol (offset : Nat) : Nat :=
  (offset - offsetToRow offset * maxCols * vcharCellsize) / vcharCellsize

def vgaMakeDisplayColor (foreground background : UInt8) : UInt8 := (background <<< 4) ||| foreground

/-- The inner copy loop for row `i`: `n` bytes are left, the next one is `j`. -/
def scrollRowLoop (i : Nat) : (n j : Nat) → Buffer → Buffer
  | 0, _, vidmem => vidmem
  | n + 1, j, vidmem =>
    scrollRowLoop i n (j + 1) (update vidmem ((getOffset 0 (i - 1)).toNat + j)
      (vidmem ((getOffset 0 i).toNat + j)))

/-- `n` rows are left to copy, the next one is `i`. -/
def scrollLoop : (n i : Nat) → Buffer → Buffer
  | 0, _, vidmem => vidmem
  | n + 1, i, vidmem => scrollLoop n (i + 1) (scrollRowLoop i (maxCols * vcharCellsize) 0 vidmem)

def clearLoop : (n j : Nat) → Buffer → Buffer
  | 0, _, vidmem => vidmem
  | n + 1, j, vidmem =>
    clearLoop n (j + 1) (update vidmem ((getOffset 0 (maxRows - 1)).toNat + j) 0)

/-- Every row is copied to the one above it, and the last one is cleared. -/
def scrollScreen (vidmem : Buffer) : Buffer :=
  clearLoop (maxCols * vcharCellsize) 0 (scrollLoop (maxRows - 1) 1 vidmem)

/-- The colour that `print_char` uses. -/
def charColor (color : UInt8) : UInt8 :=
  if color = 0 then vgaMakeDisplayColor 15 0 else color

namespace Vga

def getCursorOffset (v : Vga) : UInt16 × Vga :=
  let v := ioByteOut .regScreenCtrl 14 v
  let curOffset := (ioByteIn .regScreenData v).toUInt16
  let curOffset := curOffset <<< 8
  let v := ioByteOut .regScreenCtrl 15 v
  let curOffset := curOffset ||| (ioByteIn .regScreenData v).toUInt16
  (curOffset * UInt16.ofNat vcharCellsize, v)

def setCursorOffset (offset : UInt16) (v : Vga) : Vga :=
  let offset := offset / UInt16.ofNat vcharCellsize
  let v := ioByteOut .regScreenCtrl 14 v
  let v := ioByteOut .regScreenData (offset >>> 8).toUInt8 v
  let v := ioByteOut .regScreenCtrl 15 v
  ioByteOut .regScreenData (offset &&& 0xFF).toUInt8 v

/-- The end of `print_char`, behind the character: scrolling and the cursor. -/
def printCharEnd (vidmemOffset : UInt16) (v : Vga) : Nat × Vga :=
  if vidmemOffset.toNat ≥ maxRows * maxCols * vcharCellsize then
    let vidmemOffset := vidmemOffset - UInt16.ofNat (maxCols * vcharCellsize)
    (vidmemOffset.toNat, setCursorOffset vidmemOffset { v with vidmem := scrollScreen v.vidmem })
  else (vidmemOffset.toNat, setCursorOffset vidmemOffset v)

/-- Also returns the new offset. -/
def printChar (character col row color : UInt8) (v : Vga) : Nat × Vga :=
  if col.toNat ≥ maxCols ∨ row.toNat ≥ maxRows then (0, v)
  else
    let vidmemOffset := getOffset col.toNat row.toNat
    if character = 0x0A then printCharEnd (getOffset 0 (row + 1).toNat) v
    else
      printCharEnd (vidmemOffset + UInt16.ofNat vcharCellsize) { v with
        vidmem := update (update v.vidmem vidmemOffset.toNat character) (vidmemOffset.toNat + 1)
          (charColor color) }

/-- The loop over the message. -/
def printScreenLoop (color : UInt8) : (message : List UInt8) → (offset : Nat) → Vga → Vga
  | [], _, v => v
  | c :: message, offset, v =>
    let row := offsetToRow offset
    let col := offsetToCol offset
    let (offset, v) := printChar c (UInt8.ofNat col) (UInt8.ofNat row) color v
    printScreenLoop color message offset v

/-- `vga_print_screen` -/
def printScreen (message : CString) (color : UInt8) (v : Vga) : Vga :=
  let (offset, v) := getCursorOffset v
  printScreenLoop color message.chars offset.toNat v

/-- `vga_print_screen_char` -/
def printScreenChar (character color : UInt8) (v : Vga) : Vga :=
  let (offset, v) := getCursorOffset v
  let row := offsetToRow offset.toNat
  let col := offsetToCol offset.toNat
  (printChar character (UInt8.ofNat col) (UInt8.ofNat row) color v).2

/-- The cell that the registers 14 and 15 name. -/
def cursor (v : Vga) : Nat := (le16 (v.regs 15) (v.regs 14)).toNat

end Vga

variable {v : Vga} {vidmem : Buffer} {n i x p q : Nat} {c color : UInt8}

/-! ## The cursor -/

namespace Vga

theorem getCursorOffset_eq (v : Vga) : v.getCursorOffset =
    (le16 (v.regs 15) (v.regs 14) * 2, { v with index := 15 }) := by
  unfold le16
  rw [UInt16.or_comm]
  rfl

theorem toUInt8_and_low (offset : UInt16) : (offset &&& 0xFF).toUInt8 = offset.toUInt8 := by
  apply UInt8.toNat_inj.mp
  rw [UInt16.toNat_toUInt8, UInt16.toNat_toUInt8, UInt16.toNat_and]
  have h := Nat.and_two_pow_sub_one_eq_mod offset.toNat 8
  rw [show (0xFF : UInt16).toNat = 2 ^ 8 - 1 from rfl, h, Nat.mod_mod]

theorem setCursorOffset_eq (offset : UInt16) (v : Vga) : v.setCursorOffset offset = { v with
    index := 15
    regs := update (update v.regs 14 (byte16 (offset / 2) 1)) 15 (byte16 (offset / 2) 0) } := by
  unfold setCursorOffset
  dsimp only
  rw [toUInt8_and_low]
  rfl

theorem setCursorOffset_cursor (offset : UInt16) (v : Vga) :
    (v.setCursorOffset offset).cursor = offset.toNat / 2 := by
  rw [setCursorOffset_eq]
  unfold cursor
  dsimp only
  rw [update_self, update_of_ne (by decide), update_self, le16_bytes, UInt16.toNat_div]
  rfl

end Vga

/-! ## Scrolling -/

theorem getOffset_toNat {col row : Nat} (hcol : col < maxCols) (hrow : row ≤ maxRows) :
    (getOffset col row).toNat = 160 * row + 2 * col := by
  unfold maxCols at hcol
  unfold maxRows at hrow
  rw [getOffset, UInt16.toNat_ofNat', maxCols, vcharCellsize]
  omega

theorem scrollRowLoop_apply {j : Nat} (hi : 1 ≤ i) (hi' : i < maxRows) (hj : j + n ≤ 160) :
    scrollRowLoop i n j vidmem x =
      if 160 * (i - 1) + j ≤ x ∧ x < 160 * (i - 1) + (j + n) then vidmem (x + 160)
      else vidmem x := by
  induction n generalizing j vidmem with
  | zero =>
    rw [if_neg (by omega)]
    rfl
  | succ n ih =>
    have hdst : (getOffset 0 (i - 1)).toNat = 160 * (i - 1) :=
      getOffset_toNat (by decide) (by omega)
    have hsrc : (getOffset 0 i).toNat = 160 * i := getOffset_toNat (by decide) (by omega)
    rw [scrollRowLoop, ih (by omega), hdst, hsrc]
    by_cases hx : x = 160 * (i - 1) + j
    · subst hx
      rw [if_neg (by omega), if_pos (by omega), update_self]
      congr 1
      omega
    · by_cases hin : 160 * (i - 1) + (j + 1) ≤ x ∧ x < 160 * (i - 1) + (j + 1 + n)
      · rw [if_pos hin, if_pos (by omega), update_of_ne (by omega)]
      · rw [if_neg hin, if_neg (by omega), update_of_ne hx]

/-- Each row is read before the next round overwrites it. -/
theorem scrollLoop_apply (hi : 1 ≤ i) (hn : i + n ≤ maxRows) :
    scrollLoop n i vidmem x =
      if 160 * (i - 1) ≤ x ∧ x < 160 * (i - 1 + n) then vidmem (x + 160) else vidmem x := by
  induction n generalizing i vidmem with
  | zero =>
    rw [if_neg (by omega)]
    rfl
  | succ n ih =>
    have hrow : ∀ y, scrollRowLoop i (maxCols * vcharCellsize) 0 vidmem y =
        if 160 * (i - 1) + 0 ≤ y ∧ y < 160 * (i - 1) + (0 + 160) then vidmem (y + 160)
        else vidmem y := fun y => scrollRowLoop_apply hi (by omega) (Nat.le_refl _)
    rw [scrollLoop, ih (by omega) (by omega), hrow, hrow]
    by_cases hlow : 160 * (i - 1) ≤ x ∧ x < 160 * i
    · rw [if_neg (by omega), if_pos (by omega), if_pos (by omega)]
    · by_cases hin : 160 * i ≤ x ∧ x < 160 * (i + n)
      · rw [if_pos (by omega), if_neg (by omega), if_pos (by omega)]
      · rw [if_neg (by omega), if_neg (by omega), if_neg (by omega)]

theorem clearLoop_apply {j : Nat} : clearLoop n j vidmem x =
    if 3840 + j ≤ x ∧ x < 3840 + (j + n) then 0 else vidmem x := by
  induction n generalizing j vidmem with
  | zero =>
    rw [if_neg (by omega)]
    rfl
  | succ n ih =>
    have hdst : (getOffset 0 (maxRows - 1)).toNat = 3840 := rfl
    rw [clearLoop, ih, hdst]
    by_cases hx : x = 3840 + j
    · subst hx
      rw [if_neg (by omega), if_pos (by omega), update_self]
    · rw [update_of_ne hx]
      by_cases hin : 3840 + (j + 1) ≤ x ∧ x < 3840 + (j + 1 + n)
      · rw [if_pos hin, if_pos (by omega)]
      · rw [if_neg hin, if_neg (by omega)]

theorem scrollScreen_apply (vidmem : Buffer) (x : Nat) : scrollScreen vidmem x =
    if x < 3840 then vidmem (x + 160) else if x < 4000 then 0 else vidmem x := by
  have hcopy : scrollLoop (maxRows - 1) 1 vidmem x =
      if 160 * (1 - 1) ≤ x ∧ x < 160 * (1 - 1 + 24) then vidmem (x + 160) else vidmem x :=
    scrollLoop_apply (Nat.le_refl 1) (Nat.le_refl 25)
  have hclear := @clearLoop_apply (scrollLoop (maxRows - 1) 1 vidmem) 160 x 0
  rw [scrollScreen, show maxCols * vcharCellsize = 160 from rfl, hclear, hcopy]
  by_cases hrows : x < 3840
  · rw [if_neg (by omega), if_pos (by omega), if_pos hrows]
  · by_cases hlast : x < 4000
    · rw [if_pos (by omega), if_neg hrows, if_pos hlast]
    · rw [if_neg (by omega), if_neg (by omega), if_neg hrows, if_neg hlast]

/-! ## Characters -/

/-- A character and its colour. -/
abbrev Cell := UInt8 × UInt8

/-- The screen as a text with the cursor on cell `p`. -/
def textAt (vidmem : Buffer) (p : Nat) : Text Cell where
  cell r c := (vidmem (160 * r + 2 * c), vidmem (160 * r + 2 * c + 1))
  row := p / 80
  col := p % 80

def Vga.text (v : Vga) : Text Cell := textAt v.vidmem v.cursor

/-- A newline character moves to the next row, any other one is put at the cursor. -/
def typeChar (color c : UInt8) (t : Text Cell) : Text Cell :=
  if c = 0x0A then t.newline else t.put 80 (c, color)

theorem textAt_newline (vidmem : Buffer) (p : Nat) :
    textAt vidmem (80 * (p / 80 + 1)) = (textAt vidmem p).newline := by
  have hrow : 80 * (p / 80 + 1) / 80 = p / 80 + 1 := by omega
  have hcol : 80 * (p / 80 + 1) % 80 = 0 := by omega
  unfold textAt Text.newline
  rw [hrow, hcol]

theorem textAt_put (vidmem : Buffer) (p : Nat) (c color : UInt8) :
    SameScreen 25 80 (textAt (update (update vidmem (2 * p) c) (2 * p + 1) color) (p + 1))
      ((textAt vidmem p).put 80 (c, color)) := by
  have hstore : ∀ r col, col < 80 →
      (textAt (update (update vidmem (2 * p) c) (2 * p + 1) color) (p + 1)).cell r col =
        ((textAt vidmem p).store (c, color)).cell r col := by
    intro r col hcol
    show (_, _) = if r = p / 80 ∧ col = p % 80 then (c, color) else _
    by_cases hcell : r = p / 80 ∧ col = p % 80
    · have hoff : 160 * r + 2 * col = 2 * p := by omega
      rw [if_pos hcell, hoff, update_self, update_of_ne (by omega), update_self]
    · rw [if_neg hcell, update_of_ne (by omega), update_of_ne (by omega),
        update_of_ne (by omega), update_of_ne (by omega)]
      rfl
  by_cases hcol : p % 80 + 1 < 80
  · have hput : (textAt vidmem p).put 80 (c, color) =
        ⟨((textAt vidmem p).store (c, color)).cell, p / 80, p % 80 + 1⟩ :=
      Text.advance_of_lt (s := (textAt vidmem p).store (c, color)) hcol
    rw [hput]
    refine ⟨fun r col _ hc => hstore r col hc, ?_, ?_⟩
    · show (p + 1) / 80 = p / 80
      omega
    · show (p + 1) % 80 = p % 80 + 1
      omega
  · have hput : (textAt vidmem p).put 80 (c, color) =
        ((textAt vidmem p).store (c, color)).newline :=
      Text.advance_of_ge (s := (textAt vidmem p).store (c, color)) hcol
    rw [hput]
    refine ⟨fun r col _ hc => hstore r col hc, ?_, ?_⟩
    · show (p + 1) / 80 = p / 80 + 1
      omega
    · show (p + 1) % 80 = 0
      omega

theorem textAt_scroll (vidmem : Buffer) (hp : 2000 ≤ p) (hp' : p < 2080) :
    SameScreen 25 80 (textAt (scrollScreen vidmem) (p - 80))
      ((textAt vidmem p).scroll 25 (0, 0)) := by
  have hrow : ¬ (textAt vidmem p).row < 25 := by
    show ¬ p / 80 < 25
    omega
  rw [Text.scroll_of_ge hrow]
  refine ⟨?_, ?_, ?_⟩
  · intro r col hr hcol
    show (_, _) = if r + 1 < 25 then (_, _) else _
    rw [scrollScreen_apply, scrollScreen_apply]
    by_cases hlast : r + 1 < 25
    · rw [if_pos (by omega), if_pos (by omega), if_pos hlast]
      congr 2 <;> omega
    · rw [if_neg (by omega), if_pos (by omega), if_neg (by omega), if_pos (by omega),
        if_neg hlast]
  · show (p - 80) / 80 = p / 80 - 1
    omega
  · show (p - 80) % 80 = p % 80
    omega

namespace Vga

/-- What `print_char` leaves: the cursor is where it says, and on the screen. -/
theorem printCharEnd_spec {offset : UInt16} (hoff : offset.toNat = 2 * q) (hq : q < 2080)
    (v : Vga) : ∃ v',
    printCharEnd offset v = (2 * v'.cursor, v') ∧ v'.cursor < 2000 ∧ v'.index = 15 ∧
      (∀ x, 4000 ≤ x → v'.vidmem x = v.vidmem x) ∧
      SameScreen 25 80 v'.text ((textAt v.vidmem q).scroll 25 (0, 0)) := by
  have hset : ∀ offset (w : Vga), (setCursorOffset offset w).vidmem = w.vidmem ∧
      (setCursorOffset offset w).index = 15 := by
    intro offset w
    rw [setCursorOffset_eq]
    exact ⟨rfl, rfl⟩
  unfold printCharEnd text
  dsimp only
  rw [show maxRows * maxCols * vcharCellsize = 4000 from rfl, hoff]
  by_cases hscroll : 2000 ≤ q
  · have hoff' : (offset - UInt16.ofNat (maxCols * vcharCellsize)).toNat = 2 * (q - 80) := by
      rw [UInt16.toNat_sub_of_le, hoff]
      · show 2 * q - 160 = 2 * (q - 80)
        omega
      · rw [UInt16.le_iff_toNat_le, hoff]
        show 160 ≤ 2 * q
        omega
    obtain ⟨hmem, hindex⟩ := hset (offset - UInt16.ofNat (maxCols * vcharCellsize))
      { v with vidmem := scrollScreen v.vidmem }
    have hcur := setCursorOffset_cursor (offset - UInt16.ofNat (maxCols * vcharCellsize))
      { v with vidmem := scrollScreen v.vidmem }
    rw [hoff', Nat.mul_div_cancel_left _ (by decide)] at hcur
    rw [if_pos (by omega)]
    refine ⟨_, by rw [hcur, hoff'], by rw [hcur]; omega, hindex, ?_, ?_⟩
    · intro x hx
      rw [hmem]
      exact (scrollScreen_apply v.vidmem x).trans ((if_neg (by omega)).trans (if_neg (by omega)))
    · rw [hmem, hcur]
      exact textAt_scroll v.vidmem hscroll hq
  · obtain ⟨hmem, hindex⟩ := hset offset v
    have hcur := setCursorOffset_cursor offset v
    rw [hoff, Nat.mul_div_cancel_left _ (by decide)] at hcur
    have hrow : (textAt v.vidmem q).row < 25 := by
      show q / 80 < 25
      omega
    rw [if_neg (by omega)]
    refine ⟨_, by rw [hcur], by rw [hcur]; omega, hindex, fun x _ => by rw [hmem], ?_⟩
    rw [hmem, hcur, Text.scroll_of_lt hrow]
    exact .refl 25 80 _

/-- **One character** at the cursor. -/
theorem printChar_spec (hcur : v.cursor < 2000) (c color : UInt8) : ∃ v',
    v.printChar c (UInt8.ofNat (offsetToCol (2 * v.cursor)))
        (UInt8.ofNat (offsetToRow (2 * v.cursor))) color = (2 * v'.cursor, v') ∧
      v'.cursor < 2000 ∧ v'.index = 15 ∧ (∀ x, 4000 ≤ x → v'.vidmem x = v.vidmem x) ∧
      SameScreen 25 80 v'.text ((typeChar (charColor color) c v.text).scroll 25 (0, 0)) := by
  have hrow : (UInt8.ofNat (offsetToRow (2 * v.cursor))).toNat = v.cursor / 80 := by
    rw [UInt8.toNat_ofNat', offsetToRow, vcharCellsize, maxCols]
    omega
  have hcol : (UInt8.ofNat (offsetToCol (2 * v.cursor))).toNat = v.cursor % 80 := by
    rw [UInt8.toNat_ofNat', offsetToCol, offsetToRow, vcharCellsize, maxCols]
    omega
  have hnext : (UInt8.ofNat (offsetToRow (2 * v.cursor)) + 1).toNat = v.cursor / 80 + 1 := by
    rw [UInt8.toNat_add, hrow]
    show (v.cursor / 80 + 1) % 256 = v.cursor / 80 + 1
    omega
  have hoff : (getOffset (v.cursor % 80) (v.cursor / 80)).toNat = 2 * v.cursor := by
    rw [getOffset_toNat (show v.cursor % 80 < 80 by omega) (show v.cursor / 80 ≤ 25 by omega)]
    omega
  unfold printChar
  dsimp only
  rw [hrow, hcol, hnext, hoff, if_neg (by unfold maxCols maxRows; omega), typeChar]
  by_cases hc : c = 0x0A
  · have hnewline : (getOffset 0 (v.cursor / 80 + 1)).toNat = 2 * (80 * (v.cursor / 80 + 1)) := by
      rw [getOffset_toNat (by decide) (show v.cursor / 80 + 1 ≤ 25 by omega)]
      omega
    rw [if_pos hc, if_pos hc, text, ← textAt_newline]
    exact printCharEnd_spec hnewline (by omega) v
  · have hbehind : (getOffset (v.cursor % 80) (v.cursor / 80) + UInt16.ofNat vcharCellsize).toNat =
        2 * (v.cursor + 1) := by
      rw [UInt16.toNat_add, hoff]
      show (2 * v.cursor + 2) % 65536 = 2 * (v.cursor + 1)
      omega
    rw [if_neg hc, if_neg hc]
    obtain ⟨v', hok, hcur', hindex, hframe, hscreen⟩ := printCharEnd_spec hbehind (by omega) { v with
      vidmem := update (update v.vidmem (2 * v.cursor) c) (2 * v.cursor + 1) (charColor color) }
    refine ⟨v', hok, hcur', hindex, ?_, ?_⟩
    · intro x hx
      refine (hframe x hx).trans ?_
      dsimp only
      rw [update_of_ne (by omega), update_of_ne (by omega)]
    · exact hscreen.trans ((textAt_put v.vidmem v.cursor c (charColor color)).scroll (0, 0))

end Vga

end KoizOs
