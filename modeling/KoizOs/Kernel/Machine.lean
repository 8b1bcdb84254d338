import KoizOs.Fat.InPlace
import KoizOs.Shell.Input
import KoizOs.Shell.Ls
import KoizOs.Shell.Ps
import KoizOs.Shell.SchedInfo

/-!
# The kernel as one machine

Once it is started the kernel runs in its interrupts only: each of them ends in
`kernel_update`, and they do not nest.  All parts share one memory, that of the page pool; the
static variables of a part are fields of their own.  A `struct` that a driver works on is seen
through a view of that memory (`rd`, `heap`, `io`).

What is printed is added to `out`; the page of its stream buffer was taken before.  Debug
messages, and those about an interrupt, are left out, as in the modules of the drivers.

An error stands for a panic, or for a store outside of `command_buffer` or `c_argv`: the source
goes on then with whatever that store hit, and the model does not say how.  A run ends there.
-/

namespace KoizOs

open Function Lib

inductive KernelFault where
  | read (e : ReadFault)
  | shell (e : ShellFault)

structure Kernel where
  /-- the page pool, and all of the memory -/
  pmem : Pmem
  stdin : StdioBuffer
  shell : Shell
  slabs : Nat → Kmemslab
  ramdiskBlockSize : UInt32
  ramdiskBlockPointers : UInt32
  processes : ProcessTable
  sched : Sched
  pitInterruptCount : UInt32
  out : Output

def pitPanicMsg : String := "Interrupt Count Overflow!"

/-! ## Keys -/

/-- The rows of the table from 0x00 to 0x5F; all entries behind them are NULL. -/
def scanToAsciiLookup : List UInt8 :=
  [0x00, 0x00, 0x31, 0x32, 0x33, 0x34, 0x35, 0x36, 0x37, 0x38, 0x39, 0x30, 0x2D, 0x3D, 0x00, 0x00,
   0x71, 0x77, 0x65, 0x72, 0x74, 0x79, 0x75, 0x69, 0x6F, 0x70, 0x5B, 0x5D, 0x0A, 0x00, 0x61, 0x73,
   0x64, 0x66, 0x67, 0x68, 0x6A, 0x6B, 0x6C, 0x3B, 0x27, 0x60, 0x00, 0x5C, 0x7A, 0x78, 0x63, 0x76,
   0x62, 0x6E, 0x6D, 0x2C, 0x2E, 0x2F, 0x00, 0x00, 0x00, 0x20, 0x00, 0x00, 0x00, 0x00, 0x00, 0x00,
   0x00, 0x00, 0x00, 0x00, 0x00, 0x00, 0x00, 0x37, 0x38, 0x39, 0x2D, 0x34, 0x35, 0x36, 0x2B, 0x31,
   0x32, 0x33, 0x30, 0x2E, 0x00, 0x00, 0x00, 0x00, 0x00, 0x00, 0x00, 0x00, 0x00, 0x00, 0x00, 0x00]

def scanToAscii (scanCode : UInt8) : UInt8 := scanToAsciiLookup.getD scanCode.toNat 0

/-! ## Arguments -/

/-- `argv[i]` -/
def Split.arg (s : Split) (i : Nat) : CString where
  chars := stringAt s.workingBuffer (commandBufferSize - s.cArgv i) (s.cArgv i)
  no_nul := stringAt_no_nul _ _ _

/-- The first half of `shell_execute_command`: the line cut into arguments. -/
def Shell.split (sh : Shell) : Except ShellFault Split :=
  match strlen sh.commandBuffer commandBufferSize with
  | none => .error .unterminated
  | some cstrLen =>
    splitLoop cstrLen 0
      { workingBuffer := memcpy sh.workingBuffer sh.commandBuffer commandBufferSize
        cArgc := 1
        cArgv := fun _ => 0
        insideDQuoteState := false
        newStringState := false }

namespace Kernel

variable (k : Kernel)

/-! ## Views -/

def rd : Ramdisk := ⟨k.pmem.mem, k.ramdiskBlockSize, k.ramdiskBlockPointers⟩

def setRd (rd : Ramdisk) : Kernel :=
  { k with
    pmem := { k.pmem with mem := rd.mem }
    ramdiskBlockSize := rd.ramdiskBlockSize
    ramdiskBlockPointers := rd.ramdiskBlockPointers }

def heap : Heap Pmem := ⟨k.slabs, k.pmem⟩

def setHeap (heap : Heap Pmem) : Kernel := { k with slabs := heap.slabs, pmem := heap.pmem }

/-- The standard input. -/
def io : Io Pmem := ⟨k.stdin, k.pmem.mem, [], k.pmem⟩

/-- When characters were put in or taken out. -/
def setIo (io : Io Pmem) : Kernel :=
  { k with stdin := io.inBuff, pmem := { k.pmem with mem := io.mem } }

def print (format : String) (args : List Arg) : Except ReadFault Kernel := do
  let out ← say format args k.out
  return { k with out := out }

/-! ## Commands

`stack` is what the local variables of a call hold before anything is stored in them. -/

def shLs (stack : Buffer) (_ : Split) : Except ReadFault Kernel := do
  let (out, rd) ← ramdiskFat16ListInfo stack k.rd k.out
  return { k.setRd rd with out := out }

def shWrite (stack : Buffer) (s : Split) : Except ReadFault Kernel :=
  if s.cArgc < 3 then k.print "write needs 2 arguments: filename and contents" []
  else do
    let fileSize := UInt32.ofNat (s.arg 2).chars.length
    let (_, rd) ← (ramdiskFat16FileWrite stack (s.arg 1) (s.workingBuffer.add (s.cArgv 2)) fileSize
      k.rd).mapError .kern
    (k.setRd rd).print "Wrote file %s with %d bytes\n" [.str (s.arg 1), .int fileSize]

/-- Unlike the block of `KoizOs.shRead`, this one is in the memory of the disk (`shRead_joined`). -/
def shRead (stack : Buffer) (s : Split) : Except ReadFault Kernel :=
  if s.cArgc < 2 then k.print "read needs 1 argument: filename" []
  else do
    let (fileBuffer, heap) ← (malloc pmemAlloc 4096 k.heap).mapError .kern
    let k := k.setHeap heap
    let (found, rd) ← (ramdiskFat16FileExists stack (s.arg 1) k.rd).mapError .kern
    let k := k.setRd rd
    if found = 0 then k.print "file does not exist\n" []
    else do
      let (_, rd) ← (ramdiskFat16FileReadTo stack (s.arg 1) fileBuffer 0 k.rd).mapError .kern
      let k := k.setRd rd
      let string ← (bufferString (k.pmem.mem.bufferAt fileBuffer)).mapError .kern
      let k ← k.print "%s\n" [.str string]
      let heap ← (free fileBuffer k.heap).mapError .kern
      return k.setHeap heap

def shSlabinfo (_ : Buffer) (_ : Split) : Except ReadFault Kernel := do
  let out ← kmemlist k.slabs k.out
  return { k with out := out }

def shFree (_ : Buffer) (_ : Split) : Except ReadFault Kernel := do
  let out ← pmemListInfo k.pmem k.out
  return { k with out := out }

def shPs (stack : Buffer) (_ : Split) : Except ReadFault Kernel := do
  let out ← processPrintlist stack k.processes k.out
  return { k with out := out }

def shExec (_ : Buffer) (_ : Split) : Except ReadFault Kernel := k.print "not implemented yet.\n" []

/-- A read that fails marks the slot unused, and goes on. -/
def checkRead (res : Int) (slot : Nat) : Except ReadFault Kernel :=
  if res ≠ 0 then do
    let k ← k.print "Failed to copy process to memory. Stopping" []
    return { k with processes := setState k.processes slot .unused }
  else .ok k

/-- The slot is marked as runnable, whatever it was marked as. -/
def schedule (pid : Int) : Except ReadFault Kernel := do
  let k := { k with processes := setState k.processes pid.toNat .runnable }
  let sched ← (schedAddpid k.processes pid k.sched).mapError .kern
  return { k with sched := sched }

/-- `process_execve` from the slot on, which was free. -/
def loadProcess (stack : Buffer) (fileName : CString) (pid : Int) : Except ReadFault Kernel := do
  let slot := pid.toNat
  let (ps, pmem) ←
    (processInitProcess pmemAlloc fileName slot k.processes k.pmem).mapError .kern
  let k := { k with processes := ps, pmem := pmem }
  let page := (k.processes slot).processMemoryStart
  if page = 0 then do
    let k ← k.print "Memory not allocated for process. Stopping." []
    return { k with processes := setState k.processes slot .unused }
  else do
    let (res, rd) ← (ramdiskFat16FileReadTo stack fileName page 0 k.rd).mapError .kern
    let k ← (k.setRd rd).checkRead res slot
    k.schedule pid

def processExecve (stack : Buffer) (fileName : CString) : Except ReadFault Kernel := do
  let (found, rd) ← (ramdiskFat16FileExists stack fileName k.rd).mapError .kern
  let k := k.setRd rd
  if found = 0 then k.print "Error! Program %s not found!\n" [.str fileName]
  else
    let pid := processGetNextFreePid k.processes
    if pid ≤ 0 then k.print "No free processes available!\n" [.str fileName]
    else k.loadProcess stack fileName pid

def shExecbg (stack : Buffer) (s : Split) : Except ReadFault Kernel :=
  if s.cArgc < 2 then do
    let k ← k.print "exec requires an argument\n" []
    k.print "Usage: exec filename\n" []
  else do
    let k ← k.processExecve stack (s.arg 1)
    k.print "not implemented yet.\n" []

def shSched (_ : Buffer) (_ : Split) : Except ReadFault Kernel := do
  let out ← schedPrintinfo k.processes k.sched k.out
  return { k with out := out }

/-! ## The shell -/

end Kernel

/-- A command: its name, and what it does. -/
structure ShellCmdEntry where
  shellCmdName : String
  shellCmdFunc : Kernel → Buffer → Split → Except ReadFault Kernel

namespace Kernel

def shellCmds : List ShellCmdEntry :=
  [⟨"ls", shLs⟩, ⟨"write", shWrite⟩, ⟨"read", shRead⟩, ⟨"slabinfo", shSlabinfo⟩,
   ⟨"free", shFree⟩, ⟨"ps", shPs⟩, ⟨"exec", shExec⟩, ⟨"execbg", shExecbg⟩, ⟨"sched", shSched⟩]

/-- The loop over `shell_cmds`, and what follows it. -/
def callCommand (stack : Buffer) (s : Split) : List ShellCmdEntry → Kernel → Except ReadFault Kernel
  | [], k => do
    let line ← (bufferString k.shell.commandBuffer).mapError .kern
    k.print "unknown command: %s \n" [.str line]
  | cmd :: cmds, k =>
    if strcmp ((s.arg 0).chars ++ [0]) ((cstr cmd.shellCmdName).chars ++ [0]) = some 0 then
      cmd.shellCmdFunc k stack s
    else callCommand stack s cmds k

def shellPrintPrefix (k : Kernel) : Except ReadFault Kernel := k.print "shell# " []

/-- The second half of `shell_execute_command`. -/
def runLine (stack : Buffer) (s : Split) (k : Kernel) : Except ReadFault Kernel := do
  let k ← k.print "\n" []
  let k ← callCommand stack s shellCmds k
  k.shellPrintPrefix

def shellExecuteCommand (stack : Buffer) (k : Kernel) : Except KernelFault Kernel := do
  let s ← k.shell.split.mapError .shell
  let k ← (runLine stack s { k with shell := { k.shell with
    workingBuffer := s.workingBuffer
    executed := k.shell.executed ++ [s.command] } }).mapError .read
  return { k with shell := { k.shell with commandBufferPtr := 0 } }

/-- The body of the loop of `shell_update`. -/
def shellChar (stack : Buffer) (nextChar : UInt8) (k : Kernel) : Except KernelFault Kernel :=
  if nextChar = 0x0A then do
    let sh ← (k.shell.store 0).mapError .shell
    shellExecuteCommand stack { k with shell := sh }
  else do
    let sh ← (k.shell.store nextChar).mapError .shell
    (print { k with shell := sh } "%c" [.int nextChar.toUInt32]).mapError .read

/-- The loop of `shell_update`, for at most `n` pops. -/
def shellUpdateLoop (stack : Buffer) : (n : Nat) → Kernel → Except KernelFault Kernel
  | 0, _ => .error (.shell .hang)
  | n + 1, k =>
    let (nextChar, io) := stdlibPopStdioInputChar k.pmem.pmemInitialized k.io
    let k := k.setIo io
    if nextChar ≠ 0 then do
      let k ← shellChar stack nextChar k
      shellUpdateLoop stack n k
    else .ok k

def shellUpdate (stack : Buffer) (k : Kernel) : Except KernelFault Kernel :=
  shellUpdateLoop stack (k.stdin.bSize + 1) k

/-! ## Interrupts -/

/-- The page is taken in the memory that the character is stored in
(`stdlibPutStdioInputChar_joined`). -/
def stdlibPutStdioInputChar (character : UInt8) (k : Kernel) : Kern Kernel :=
  if k.pmem.pmemInitialized then do
    let io ← ioBufferInit pmemAlloc k.io
    let k := { k with stdin := io.inBuff, pmem := io.pmem }
    let io ← ioBufferPlaceLoop (msgStr character).chars k.io
    return k.setIo io
  else .ok k

def keyboardInterruptHandler (scanCode : UInt8) (k : Kernel) : Kern Kernel :=
  let asciiChar := scanToAscii scanCode
  if asciiChar ≠ 0 then k.stdlibPutStdioInputChar asciiChar else .ok k

/-- The counter is signed where it is tested: `jo`. -/
def pitInterruptHandler (k : Kernel) : Kern Kernel :=
  let count := k.pitInterruptCount + 1
  if count = 0x80000000 then panic pitPanicMsg
  else .ok { k with pitInterruptCount := count }

/-- `stdlib_update`, the first of the three calls, flushes the standard output; `out` is what was
printed, flushed or not. -/
def kernelUpdate (stack : Buffer) (k : Kernel) : Except KernelFault Kernel := do
  let k ← k.shellUpdate stack
  let sched ← (schedUpdate k.sched).mapError fun e => .read (.kern e)
  return { k with sched := sched }

end Kernel

inductive Interrupt where
  | timer
  | keyboard (scanCode : UInt8)
  | systemcall

/-- An interrupt, and what its locals hold. -/
structure Event where
  interrupt : Interrupt
  stack : Buffer

/-- The branches of `common_interrupt_handler` that call `kernel_update`.  Interrupts 1 and 3 only
print, and all others panic or halt. -/
def Kernel.handle (e : Event) (k : Kernel) : Except KernelFault Kernel := do
  let k ← Except.mapError (fun e => .read (.kern e)) (match e.interrupt with
    | .timer => k.pitInterruptHandler
    | .keyboard scanCode => k.keyboardInterruptHandler scanCode
    | .systemcall => .ok k)
  k.kernelUpdate e.stack

/-- One interrupt that came back. -/
def KernelStep (k : Kernel) (e : Event) (k' : Kernel) : Prop := k.handle e = .ok k'

end KoizOs
