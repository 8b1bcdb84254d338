import KoizOs.Io.Stdio
import KoizOs.Libc.String

/-!
# The shell

`shell_update` takes characters off the standard input into `command_buffer`; at the enter
key `shell_execute_command` copies the line to `working_buffer`, cuts it into arguments
there and calls the command.  `c_argv` holds pointers into `working_buffer`, here indices.

The source does not check its indices.  A store outside `command_buffer` or `c_argv` ends in
a `ShellFault`, as there is no telling what it would hit.
-/

namespace KoizOs

open Function

def shellMaxArgs : Nat := 50
def commandBufferSize : Nat := 1024

inductive ShellFault where
  /-- a store to `command_buffer[index]` -/
  | commandBuffer (index : Nat)
  /-- a store to `c_argv[index]` -/
  | cArgv (index : Nat)
  /-- `command_buffer` without a NUL -/
  | unterminated
  | hang
deriving DecidableEq

/-- The arguments that a command is called with, as strings. -/
structure Command where
  argc : Nat
  argv : List (List UInt8)
deriving DecidableEq

structure Shell where
  commandBuffer : Buffer
  workingBuffer : Buffer
  commandBufferPtr : Nat
  /-- the commands called so far -/
  executed : List Command

/-! ## Algorithm -/

/-- The variables of the loop that cuts the line. -/
structure Split where
  workingBuffer : Buffer
  cArgc : Nat
  cArgv : Nat → Nat
  insideDQuoteState : Bool
  newStringState : Bool

/-- One round of the loop, at `i`. -/
def splitChar (i : Nat) (s : Split) : Except ShellFault Split :=
  if s.workingBuffer i = 0x27 then .ok { s with insideDQuoteState := !s.insideDQuoteState }
  else if s.workingBuffer i = 0x20 then
    if !s.insideDQuoteState then
      .ok { s with workingBuffer := update s.workingBuffer i 0, newStringState := true }
    else .ok s
  else if s.newStringState then
    if s.cArgc < shellMaxArgs then
      .ok { s with
        cArgv := update s.cArgv s.cArgc i
        cArgc := s.cArgc + 1
        newStringState := false }
    else .error (.cArgv s.cArgc)
  else .ok s

/-- `n` characters are left, the next one is `i`. -/
def splitLoop : (n i : Nat) → Split → Except ShellFault Split
  | 0, _, s => .ok s
  | n + 1, i, s => do
    let s ← splitChar i s
    splitLoop n (i + 1) s

/-- The string at index `i`, of at most `n` characters. -/
def stringAt (buf : Buffer) : (n i : Nat) → List UInt8
  | 0, _ => []
  | n + 1, i => if buf i = 0 then [] else buf i :: stringAt buf n (i + 1)

def Split.command (s : Split) : Command where
  argc := s.cArgc
  argv := (List.range s.cArgc).map fun k =>
    stringAt s.workingBuffer (commandBufferSize - s.cArgv k) (s.cArgv k)

section Commands

-- what the command that is called leaves in `working_buffer`
variable (shellCmd : Command → Buffer → Buffer)

def shellExecuteCommand (sh : Shell) : Except ShellFault Shell :=
  match strlen sh.commandBuffer commandBufferSize with
  | none => .error .unterminated
  | some cstrLen => do
    let workingBuffer := memcpy sh.workingBuffer sh.commandBuffer commandBufferSize
    let s ← splitLoop cstrLen 0
      { workingBuffer := workingBuffer, cArgc := 1, cArgv := fun _ => 0, insideDQuoteState := false,
        newStringState := false }
    return { sh with
      workingBuffer := shellCmd s.command s.workingBuffer
      commandBufferPtr := 0
      executed := sh.executed ++ [s.command] }

/-- `command_buffer[command_buffer_ptr] = c; ++command_buffer_ptr` -/
def Shell.store (sh : Shell) (c : UInt8) : Except ShellFault Shell :=
  if sh.commandBufferPtr < commandBufferSize then
    .ok { sh with
      commandBuffer := update sh.commandBuffer sh.commandBufferPtr c
      commandBufferPtr := sh.commandBufferPtr + 1 }
  else .error (.commandBuffer sh.commandBufferPtr)

/-- The body of the loop of `shell_update`. -/
def shellChar (nextChar : UInt8) (sh : Shell) : Except ShellFault Shell :=
  if nextChar = 0x0A then do
    let sh ← sh.store 0
    shellExecuteCommand shellCmd sh
  else sh.store nextChar

variable {σ : Type}

/-- The loop of `shell_update`, for at most `n` pops. -/
def shellUpdateLoop (pmemIsinit : Bool) :
    (n : Nat) → Io σ → Shell → Except ShellFault (Io σ × Shell)
  | 0, _, _ => .error .hang
  | n + 1, io, sh =>
    let (nextChar, io) := stdlibPopStdioInputChar pmemIsinit io
    if nextChar ≠ 0 then do
      let sh ← shellChar shellCmd nextChar sh
      shellUpdateLoop pmemIsinit n io sh
    else .ok (io, sh)

/-- `io` is the standard input. -/
def shellUpdate (pmemIsinit : Bool) (io : Io σ) (sh : Shell) : Except ShellFault (Io σ × Shell) :=
  shellUpdateLoop shellCmd pmemIsinit (io.inBuff.bSize + 1) io sh

end Commands

/-! ## Strings in a buffer -/

variable {buf : Buffer} {p n : Nat} {w : List UInt8}

theorem StringIn.stringAt_eq (h : StringIn buf p w) (hn : w.length < n) : stringAt buf n p = w := by
  induction w generalizing p n with
  | nil =>
    obtain ⟨n, rfl⟩ : ∃ m, n = m + 1 := ⟨n - 1, by simp at hn; omega⟩
    have h0 : buf p = 0 := h.nul
    rw [stringAt, if_pos h0]
  | cons c w ih =>
    rw [List.length_cons] at hn
    obtain ⟨n, rfl⟩ : ∃ m, n = m + 1 := ⟨n - 1, by omega⟩
    have hc : buf p = c := h.chars 0 (Nat.zero_lt_succ _)
    have hne : c ≠ 0 := by
      rintro rfl
      exact h.no_nul List.mem_cons_self
    rw [stringAt, hc, if_neg hne, ih h.tail (by omega)]

end KoizOs
