import KoizOs.Libc.String
import Mathlib.Data.Nat.Digits.Defs

/-!
# `printf`

`printf` reads its format character by character, with one character of look-ahead after a
`%`.  Output is the list of the characters that were emitted, each with its stream: what
the stream buffer and the screen make of them is left out here.

The source checks neither its arguments nor its indices.  What it does without an argument
of the right kind, or beyond the NUL of the format, ends in a `PrintfFault`.
-/

namespace KoizOs

inductive Stream where
  | stdout
  | stderr
deriving DecidableEq

/-- The characters emitted so far.  All of them are also logged to the serial port. -/
abbrev Output := List (Stream × UInt8)

/-- An argument behind the format. -/
inductive Arg where
  | str (s : CString)
  | int (n : UInt32)
deriving DecidableEq

inductive PrintfFault where
  /-- `format[index]` behind the NUL -/
  | format (index : Nat)
  /-- `va_arg` without an argument of its type -/
  | argument
  /-- a store to `buffer[index]` -/
  | buffer (index : Nat)
  | divide
  | hang
deriving DecidableEq

def printfBufferSize : Nat := 32

/-- A string literal, as bytes. -/
def ascii (s : String) : List UInt8 := s.toList.map fun c => UInt8.ofNat c.toNat

/-! ## Algorithm -/

def stdPrint (message : List UInt8) (out : Output) : Output := out ++ message.map (Prod.mk .stdout)

def stdPrintChar (message : UInt8) (out : Output) : Output := out ++ [(.stdout, message)]

def stdError (message : List UInt8) (out : Output) : Output := out ++ message.map (Prod.mk .stderr)

/-- `"0123456789ABCDEF"` -/
def numtochar : List UInt8 :=
  [0x30, 0x31, 0x32, 0x33, 0x34, 0x35, 0x36, 0x37, 0x38, 0x39, 0x41, 0x42, 0x43, 0x44, 0x45, 0x46]

/-- The do-while loop, for at most `n` rounds.  `buffer` is the part that is stored, so
`current_pos` is its length. -/
def digitLoop (base : UInt32) :
    (n : Nat) → (number : UInt32) → (buffer : List UInt8) → Except PrintfFault (List UInt8)
  | 0, _, _ => .error .hang
  | n + 1, number, buffer =>
    if base = 0 then .error .divide
    else if buffer.length < printfBufferSize then
      let buffer := buffer ++ [numtochar.getD (number % base).toNat 0]
      let number := number / base
      if number ≠ 0 ∧ buffer.length < printfBufferSize then digitLoop base n number buffer
      else .ok buffer
    else .error (.buffer buffer.length)

/-- The for loop: `i` digits are left, the next one is `buffer[i - 1]`. -/
def printDigits (buffer : List UInt8) : (i : Nat) → Output → Output
  | 0, out => out
  | i + 1, out => printDigits buffer i (stdPrintChar (buffer.getD i 0) out)

def printUintToString (number base : UInt32) (out : Output) : Except PrintfFault Output :=
  if base > 16 then .ok (stdError (ascii "printf base cannot be greater than 16!") out)
  else
    let out := if base = 2 then stdPrint [0x30, 0x62] out else out
    let out := if base = 16 then stdPrint [0x30, 0x78] out else out
    if number = 0 then .ok (stdPrintChar 0x30 out)
    else do
      let buffer ← digitLoop base printfBufferSize number []
      return printDigits buffer buffer.length out

def formatAt (format : CString) (i : Nat) : Except PrintfFault UInt8 :=
  if i ≤ format.chars.length then .ok (format.get i) else .error (.format i)

/-- `va_arg(arg, char*)` -/
def vaArgStr : List Arg → Except PrintfFault (CString × List Arg)
  | .str s :: args => .ok (s, args)
  | _ => .error .argument

/-- `va_arg(arg, uint32_t)` and `va_arg(arg, int)` -/
def vaArgInt : List Arg → Except PrintfFault (UInt32 × List Arg)
  | .int n :: args => .ok (n, args)
  | _ => .error .argument

/-- The branches behind a `%`.  The flag says whether the loop goes on. -/
def printfEscape (next : UInt8) (args : List Arg) (out : Output) :
    Except PrintfFault (Bool × List Arg × Output) :=
  if next = 0x25 then return (true, args, stdPrintChar 0x25 out)
  else if next = 0x73 then do
    let (subString, args) ← vaArgStr args
    return (true, args, stdPrint subString.chars out)
  else if next = 0x63 then do
    let (characterArg, args) ← vaArgInt args
    return (true, args, stdPrintChar characterArg.toUInt8 out)
  else if next = 0x64 then do
    let (num, args) ← vaArgInt args
    let out ← printUintToString num 10 out
    return (true, args, out)
  else if next = 0x78 then do
    let (num, args) ← vaArgInt args
    let out ← printUintToString num 16 out
    return (true, args, out)
  else if next = 0x62 then do
    let (num, args) ← vaArgInt args
    let out ← printUintToString num 2 out
    return (true, args, out)
  else if next = 0 then
    return (false, args, stdError (ascii "printf error: next character is null") out)
  else
    return (false, args,
      stdPrintChar next (stdError (ascii "printf error: Unknown escape sequence %") out))

/-- The loop over the format, for at most `n` rounds. -/
def printfLoop (format : CString) :
    (n i : Nat) → List Arg → Output → Except PrintfFault Output
  | 0, _, _, _ => .error .hang
  | n + 1, i, args, out => do
    let c ← formatAt format i
    if c = 0 then return out
    else if c = 0x25 then
      let next ← formatAt format (i + 1)
      let (goOn, args, out) ← printfEscape next args out
      if goOn then printfLoop format n (i + 2) args out else return out
    else printfLoop format n (i + 1) args (stdPrintChar c out)

def printf (format : CString) (args : List Arg) (out : Output) : Except PrintfFault Output :=
  printfLoop format (format.chars.length + 1) 0 args out

/-! ## Numerals -/

def digitChar (d : Nat) : UInt8 := numtochar.getD d 0

/-- The digits of `n`, the highest one first. -/
def numeral (base n : Nat) : List UInt8 :=
  if n = 0 then [0x30] else (Nat.digits base n).reverse.map digitChar

def numeralPrefix (base : UInt32) : List UInt8 :=
  if base = 2 then [0x30, 0x62] else if base = 16 then [0x30, 0x78] else []

variable {base number : UInt32} {n i : Nat} {buffer xs ys : List UInt8} {out : Output}

theorem stdPrint_append : stdPrint (xs ++ ys) out = stdPrint ys (stdPrint xs out) := by
  unfold stdPrint
  rw [List.map_append, List.append_assoc]

/-- The buffer holds every digit: each division leaves one binary place less. -/
theorem digitLoop_spec (hbase : 2 ≤ base.toNat) (hnumber : number.toNat ≠ 0)
    (hlt : number.toNat < 2 ^ (printfBufferSize - buffer.length))
    (hn : printfBufferSize ≤ buffer.length + n) (hroom : buffer.length < printfBufferSize) :
    digitLoop base n number buffer =
      .ok (buffer ++ (Nat.digits base.toNat number.toNat).map digitChar) := by
  induction n generalizing number buffer with
  | zero => omega
  | succ n ih =>
    have hbase0 : base ≠ 0 := by
      rintro rfl
      exact absurd hbase (by decide)
    have hmod : (number % base).toNat = number.toNat % base.toNat := UInt32.toNat_mod ..
    have hdiv : (number / base).toNat = number.toNat / base.toNat := UInt32.toNat_div ..
    have hhalf : number.toNat / base.toNat ≤ number.toNat / 2 :=
      Nat.div_le_div_left hbase (by decide)
    rw [Nat.digits_def' hbase (Nat.pos_of_ne_zero hnumber), List.map_cons, digitLoop,
      if_neg hbase0, if_pos hroom, List.append_cons buffer (digitChar _)]
    dsimp only
    rw [hmod, List.length_append, List.length_singleton]
    by_cases hlast : number / base = 0
    · have hzero : number.toNat / base.toNat = 0 := by
        rw [← hdiv, hlast]
        rfl
      rw [if_neg (fun hgo => hgo.1 hlast), hzero, Nat.digits_zero, List.map_nil, List.append_nil]
      rfl
    · have hnext : number.toNat / base.toNat ≠ 0 := by
        rw [← hdiv]
        exact fun hzero => hlast (UInt32.toNat_inj.mp hzero)
      have hpow : 2 ^ (printfBufferSize - buffer.length) =
          2 * 2 ^ (printfBufferSize - (buffer.length + 1)) := by
        rw [← Nat.pow_succ']
        congr 1
        omega
      have hmore : buffer.length + 1 < printfBufferSize := by
        by_contra hfull
        rw [show printfBufferSize - (buffer.length + 1) = 0 by omega] at hpow
        omega
      rw [if_pos ⟨hlast, hmore⟩, ← hdiv]
      apply ih
      · rw [hdiv]
        exact hnext
      · rw [hdiv, List.length_append, List.length_singleton]
        omega
      · rw [List.length_append, List.length_singleton]
        omega
      · rw [List.length_append]
        exact hmore

theorem printDigits_eq (hi : i ≤ buffer.length) :
    printDigits buffer i out = stdPrint (buffer.take i).reverse out := by
  induction i generalizing out with
  | zero => exact (List.append_nil out).symm
  | succ i ih =>
    rw [printDigits, ih (Nat.le_of_succ_le hi), List.take_succ_eq_append_getElem hi,
      List.reverse_append, stdPrint_append, List.getD_eq_getElem?_getD,
      List.getElem?_eq_getElem hi, Option.getD_some]
    rfl

/-- **One number** in a base that the function knows. -/
theorem printUintToString_spec (hbase : 2 ≤ base.toNat) (hbase' : base.toNat ≤ 16) :
    printUintToString number base out =
      .ok (stdPrint (numeralPrefix base ++ numeral base.toNat number.toNat) out) := by
  have hle : ¬ base > 16 := UInt32.not_lt.mpr (UInt32.le_iff_toNat_le.mpr hbase')
  have hprefix : (if base = 16 then stdPrint [0x30, 0x78]
        (if base = 2 then stdPrint [0x30, 0x62] out else out)
      else if base = 2 then stdPrint [0x30, 0x62] out else out) =
      stdPrint (numeralPrefix base) out := by
    unfold numeralPrefix
    by_cases h2 : base = 2
    · subst h2
      rfl
    · by_cases h16 : base = 16
      · subst h16
        rfl
      · rw [if_neg h2, if_neg h2, if_neg h16, if_neg h16]
        exact (List.append_nil out).symm
  unfold printUintToString numeral
  dsimp only
  rw [if_neg hle, hprefix, stdPrint_append]
  by_cases hzero : number = 0
  · subst hzero
    rfl
  · have hnumber : number.toNat ≠ 0 := fun h => hzero (UInt32.toNat_inj.mp h)
    rw [if_neg hzero, if_neg hnumber,
      @digitLoop_spec base number printfBufferSize [] hbase hnumber number.toNat_lt
        (Nat.le_refl 32) (by decide), List.nil_append]
    show Except.ok _ = Except.ok _
    rw [printDigits_eq (Nat.le_refl _), List.take_length, List.map_reverse]

end KoizOs
