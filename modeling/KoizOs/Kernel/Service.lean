import KoizOs.Kernel.Commands

/-!
# One interrupt

Between two interrupts nothing waits in the standard input (`StdioBuffer.Idle`): the key that an
interrupt brings is taken by the `kernel_update` at its end.  So an interrupt services one
character at most, and one line at most is executed in it.

| result | content |
|--------|---------|
| `shellChar_took` | what the shell does with one character |
| `handle_serviced` | what one interrupt can have done |
-/

namespace KoizOs

open Function Lib

/-- Nothing waits in the standard input. -/
structure StdioBuffer.Idle (b : StdioBuffer) : Prop where
  settled : b.isInitializing = false
  tail : b.tailPtr = b.headPtr
  raw : b.isInit = false → b.headPtr = 0
  ready : b.isInit = true → b.bSize = 4096 ∧ b.headPtr < 4096

/-- The character that an interrupt brings. -/
def Event.char (e : Event) : Option UInt8 :=
  match e.interrupt with
  | .keyboard scanCode => if scanToAscii scanCode = 0 then none else some (scanToAscii scanCode)
  | _ => none

/-- The timer is the interrupt that counts. -/
def Event.ticks (e : Event) : Nat :=
  match e.interrupt with
  | .timer => 1
  | _ => 0

namespace Kernel

variable {k k' k₁ : Kernel} {stack : Buffer} {s : Split} {fileName : CString} {c : UInt8}
  {e : Event} {page : UInt32} {pm : Pmem}

/-! ## What no command touches -/

structure SameFront (k k' : Kernel) : Prop where
  stdin : k'.stdin = k.stdin
  shell : k'.shell = k.shell
  count : k'.pitInterruptCount = k.pitInterruptCount
  ready : k'.pmem.pmemInitialized = k.pmem.pmemInitialized

theorem SameFront.trans (h : k.SameFront k₁) (h' : k₁.SameFront k') : k.SameFront k' :=
  ⟨h'.stdin.trans h.stdin, h'.shell.trans h.shell, h'.count.trans h.count,
    h'.ready.trans h.ready⟩

theorem Printed.sameFront (h : k.Printed k') : k.SameFront k' := by
  rw [h]
  exact ⟨rfl, rfl, rfl, rfl⟩

theorem pmemAllocLoop_ready {start p : UInt32} {fuel : Nat} {pm pm' : Pmem}
    (h : pmemAllocLoop start fuel pm = .ok (p, pm')) :
    pm'.pmemInitialized = pm.pmemInitialized := by
  induction fuel generalizing pm with
  | zero => cases h
  | succ fuel ih =>
    unfold pmemAllocLoop at h
    split at h
    · cases h
    · dsimp only at h
      split at h
      · obtain ⟨page, -, h⟩ := bind_eq_ok.mp h
        obtain ⟨-, rfl⟩ := Prod.mk.inj (Except.ok.inj h)
        rfl
      · exact @ih pm.nextRecord h

theorem pmemAlloc_ready {p : UInt32} {pm pm' : Pmem} (h : pmemAlloc pm = .ok (p, pm')) :
    pm'.pmemInitialized = pm.pmemInitialized := by
  unfold pmemAlloc at h
  split at h
  · cases h
  · exact @pmemAllocLoop_ready _ _ _ pm.nextRecord _ h

theorem malloc_ready {size p : UInt32} {heap : Heap Pmem}
    (h : malloc pmemAlloc size k.heap = .ok (p, heap)) : k.SameFront (k.setHeap heap) := by
  refine ⟨rfl, rfl, rfl, ?_⟩
  rcases malloc_pmem h with heq | ⟨q, hq⟩
  · exact congrArg Pmem.pmemInitialized heq
  · exact pmemAlloc_ready hq

theorem setRd_sameFront (k : Kernel) (rd : Ramdisk) : k.SameFront (k.setRd rd) :=
  ⟨rfl, rfl, rfl, rfl⟩

theorem Launched.sameFront (h : Launched stack fileName k k') : k.SameFront k' := by
  cases h with
  | missing _ hprint => exact hprint.sameFront
  | full _ hprint => exact hprint.sameFront
  | nowhere _ _ hslot heq =>
    have hready := pmemAlloc_ready hslot.alloc
    rw [heq]
    exact ⟨rfl, rfl, rfl, hready⟩
  | started _ _ hslot _ _ heq =>
    have hready := pmemAlloc_ready hslot.alloc
    rw [heq]
    exact ⟨rfl, rfl, rfl, hready⟩

theorem Called.sameFront (h : Called stack s k k') : k.SameFront k' := by
  cases h with
  | printed _ hprint => exact hprint.sameFront
  | wrote _ _ hprint => exact (setRd_sameFront k _).trans hprint.sameFront
  | missed _ hmalloc _ hprint => exact (malloc_ready hmalloc).trans hprint.sameFront
  | @fetched _ p n heap heap' res rd _ hmalloc _ _ _ hfree hprint =>
    have hread := (malloc_ready hmalloc).trans (setRd_sameFront _ rd)
    have hpmem := congrArg Pmem.pmemInitialized (free_pmem hfree)
    have hgiven : ((k.setHeap heap).setRd rd).SameFront
        (((k.setHeap heap).setRd rd).setHeap heap') := ⟨rfl, rfl, rfl, hpmem⟩
    exact (hread.trans hgiven).trans hprint.sameFront
  | ran _ hlaunched hprint => exact hlaunched.sameFront.trans hprint.sameFront

/-! ## The shell -/

/-- `k` when the line `s` has been cut up and is about to be called. -/
def ready (k : Kernel) (sh : Shell) (s : Split) (out : Output) : Kernel :=
  { k with
    shell := { sh with workingBuffer := s.workingBuffer, executed := sh.executed ++ [s.command] }
    out := out }

/-- What the shell did with a character. -/
inductive Took (stack : Buffer) (k : Kernel) : UInt8 → Kernel → Prop
  | other {c : UInt8} {sh : Shell} {k' : Kernel} : c ≠ newline → k.shell.store c = .ok sh →
      Printed { k with shell := sh } k' → Took stack k c k'
  | line {sh : Shell} {s : Split} {out : Output} {k₁ k' : Kernel} :
      k.shell.store 0 = .ok sh → sh.split = .ok s → Called stack s (k.ready sh s out) k₁ →
      Printed { k₁ with shell := { k₁.shell with commandBufferPtr := 0 } } k' →
      Took stack k newline k'

theorem shellChar_took (h : k.shellChar stack c = .ok k') : Took stack k c k' := by
  unfold shellChar at h
  split at h
  · next hc =>
    subst hc
    obtain ⟨sh, hstore, h⟩ := mapError_bind_eq_ok.mp h
    obtain ⟨s, hsplit, h⟩ := mapError_bind_eq_ok.mp h
    obtain ⟨k₃, hrun, h⟩ := mapError_bind_eq_ok.mp h
    obtain rfl := Except.ok.inj h
    obtain ⟨k₁, hnewline, hrun⟩ := except_bind_eq_ok.mp hrun
    obtain ⟨k₂, hcall, hprefix⟩ := except_bind_eq_ok.mp hrun
    have hready : k₁ = k.ready sh s k₁.out := print_printed hnewline
    rw [hready] at hcall
    have hprinted := print_printed hprefix
    refine .line hstore hsplit (callCommand_called hcall) ?_
    rw [hprinted]
    rfl
  · next hc =>
    obtain ⟨sh, hstore, h⟩ := mapError_bind_eq_ok.mp h
    cases hprint : print { k with shell := sh } "%c" [.int c.toUInt32] with
    | ok k₁ =>
      rw [hprint] at h
      obtain rfl := Except.ok.inj h
      exact .other hc hstore (print_printed hprint)
    | error e =>
      rw [hprint] at h
      cases h

/-- The shell's own variables do not depend on what the commands do. -/
theorem shellExecuteCommand_eq {sh : Shell} {s : Split} (hsplit : sh.split = .ok s) :
    KoizOs.shellExecuteCommand (fun _ b => b) sh = .ok { sh with
      workingBuffer := s.workingBuffer
      commandBufferPtr := 0
      executed := sh.executed ++ [s.command] } := by
  unfold Shell.split at hsplit
  unfold KoizOs.shellExecuteCommand
  cases hlen : strlen sh.commandBuffer commandBufferSize with
  | none =>
    rw [hlen] at hsplit
    cases hsplit
  | some n =>
    rw [hlen] at hsplit
    dsimp only at hsplit ⊢
    rw [hsplit]
    rfl

theorem Took.shell (h : Took stack k c k') :
    KoizOs.shellChar (fun _ b => b) c k.shell = .ok k'.shell ∧ k'.stdin = k.stdin ∧
      k'.pitInterruptCount = k.pitInterruptCount ∧
      k'.pmem.pmemInitialized = k.pmem.pmemInitialized := by
  cases h with
  | other hc hstore hprint =>
    have hsame := hprint.sameFront
    refine ⟨?_, hsame.stdin, hsame.count, hsame.ready⟩
    rw [hsame.shell]
    exact (if_neg hc).trans hstore
  | line hstore hsplit hcall hprint =>
    have hcalled := hcall.sameFront
    have hsame := hprint.sameFront
    refine ⟨?_, hsame.stdin.trans hcalled.stdin, hsame.count.trans hcalled.count,
      hsame.ready.trans hcalled.ready⟩
    rw [hsame.shell]
    dsimp only
    rw [hcalled.shell]
    unfold KoizOs.shellChar
    rw [if_pos (show newline = 0x0A from rfl), hstore]
    exact shellExecuteCommand_eq hsplit

/-! ## The standard input -/

/-- The page of the standard input, taken now if it has none. -/
def InputPage (k : Kernel) (page : UInt32) (pm : Pmem) : Prop :=
  (k.stdin.isInit = true ∧ page = k.stdin.bAddr ∧ pm = k.pmem) ∨
    (k.stdin.isInit = false ∧ pmemAlloc k.pmem = .ok (page, pm))

/-- `c` is stored in the page, and the tail of the buffer is at `tail`. -/
def input (k : Kernel) (c : UInt8) (page : UInt32) (pm : Pmem) (tail : Nat) : Kernel :=
  { k with
    pmem := { pm with mem := update pm.mem (page + UInt32.ofNat k.stdin.headPtr) c }
    stdin := { k.stdin with
      isInit := true
      bAddr := page
      bSize := 4096
      headPtr := (k.stdin.headPtr + 1) % 4096
      tailPtr := tail } }

/-- `c` has been put in and taken out. -/
def took (k : Kernel) (c : UInt8) (page : UInt32) (pm : Pmem) : Kernel :=
  k.input c page pm ((k.stdin.headPtr + 1) % 4096)

theorem InputPage.ready (h : k.InputPage page pm) :
    pm.pmemInitialized = k.pmem.pmemInitialized := by
  rcases h with ⟨-, -, rfl⟩ | ⟨-, halloc⟩
  · rfl
  · exact pmemAlloc_ready halloc

/-- A buffer without its page has it after the initialisation. -/
theorem ioBufferInit_cases {io : Io Pmem} (hidle : k.stdin.Idle)
    (h : ioBufferInit pmemAlloc k.io = .ok io) : ∃ page pm, k.InputPage page pm ∧
      io.pmem = pm ∧ io.inBuff = { k.stdin with
        isInit := true, bAddr := page, bSize := 4096 } := by
  cases hinit : k.stdin.isInit with
  | true =>
    unfold ioBufferInit at h
    rw [show k.io.inBuff.isInit = true from hinit] at h
    obtain rfl := Except.ok.inj h
    refine ⟨k.stdin.bAddr, k.pmem, .inl ⟨hinit, rfl, rfl⟩, rfl, ?_⟩
    rw [← hinit, ← (hidle.ready hinit).1]
    rfl
  | false =>
    unfold ioBufferInit at h
    rw [show k.io.inBuff.isInit = false from hinit,
      show k.io.inBuff.isInitializing = false from hidle.settled] at h
    obtain ⟨⟨page, pm⟩, halloc, h⟩ := bind_eq_ok.mp h
    obtain rfl := Except.ok.inj h
    refine ⟨page, pm, .inr ⟨hinit, halloc⟩, rfl, ?_⟩
    rw [← hidle.settled]
    rfl

/-- One round on a ring that has room. -/
theorem ioBufferPlaceChar_eq {io : Io Pmem} (hsize : io.inBuff.bSize = 4096)
    (hroom : (io.inBuff.headPtr + 1) % 4096 ≠ io.inBuff.tailPtr) :
    ioBufferPlaceChar c io = .ok { io with
      mem := update io.mem (io.inBuff.bAddr + UInt32.ofNat io.inBuff.headPtr) c
      inBuff := { io.inBuff with headPtr := (io.inBuff.headPtr + 1) % 4096 } } := by
  unfold ioBufferPlaceChar
  rw [hsize]
  dsimp only
  rw [if_neg (fun hfull => hroom hfull.1), ok_bind, hsize, if_neg (not_not.mpr rfl), if_neg hroom]

theorem stdlibPutStdioInputChar_cases (hready : k.pmem.pmemInitialized = true)
    (hidle : k.stdin.Idle) (hc : c ≠ 0) (h : k.stdlibPutStdioInputChar c = .ok k') :
    ∃ page pm, k.InputPage page pm ∧ k' = k.input c page pm k.stdin.tailPtr := by
  have hroom : (k.stdin.headPtr + 1) % 4096 ≠ k.stdin.tailPtr := by
    rw [hidle.tail]
    omega
  unfold stdlibPutStdioInputChar at h
  rw [if_pos hready] at h
  obtain ⟨io, hinit, h⟩ := bind_eq_ok.mp h
  obtain ⟨page, pm, hpage, hpm, hbuff⟩ := ioBufferInit_cases hidle hinit
  refine ⟨page, pm, hpage, ?_⟩
  rw [hpm, hbuff, msgStr_chars hc] at h
  obtain ⟨io₁, hplace, h⟩ := bind_eq_ok.mp h
  obtain rfl := Except.ok.inj h
  obtain ⟨io₂, hchar, hplace⟩ := bind_eq_ok.mp hplace
  obtain rfl := Except.ok.inj hplace
  rw [ioBufferPlaceChar_eq rfl hroom] at hchar
  obtain rfl := Except.ok.inj hchar
  rfl

/-- What was put in is taken out. -/
theorem pop_input (hidle : k.stdin.Idle) (hready : pm.pmemInitialized = true) :
    ∃ io, stdlibPopStdioInputChar (k.input c page pm k.stdin.tailPtr).pmem.pmemInitialized
        (k.input c page pm k.stdin.tailPtr).io = (c, io) ∧
      (k.input c page pm k.stdin.tailPtr).setIo io = k.took c page pm := by
  have hne : ((k.stdin.headPtr + 1) % 4096 = k.stdin.headPtr) = False := by
    rw [eq_iff_iff, iff_false]
    omega
  refine ⟨{ (k.input c page pm k.stdin.tailPtr).io with
    inBuff := (k.took c page pm).stdin }, ?_, rfl⟩
  simp only [stdlibPopStdioInputChar, ioBufferPop, ioBufferEmpty, Kernel.io, Kernel.input,
    Kernel.took, hready, hne, hidle.tail, Bool.and_self, if_true, Bool.not_true, decide_false,
    Bool.false_eq_true, if_false, update_self]

/-- Nothing is taken out of an idle buffer. -/
theorem pop_idle (hidle : k.stdin.Idle) :
    stdlibPopStdioInputChar k.pmem.pmemInitialized k.io = (0, k.io) := by
  simp only [stdlibPopStdioInputChar, ioBufferPop, ioBufferEmpty, Kernel.io, hidle.tail,
    decide_true, if_true, ite_self]

theorem took_idle (k : Kernel) (hidle : k.stdin.Idle) (c : UInt8) (page : UInt32) (pm : Pmem) :
    (k.took c page pm).stdin.Idle where
  settled := hidle.settled
  tail := rfl
  raw h := absurd h Bool.noConfusion
  ready _ := ⟨rfl, Nat.mod_lt _ (by decide)⟩

/-! ## An interrupt -/

theorem shellUpdate_idle (hidle : k.stdin.Idle) (stack : Buffer) : k.shellUpdate stack = .ok k := by
  unfold shellUpdate shellUpdateLoop
  rw [pop_idle hidle]
  rfl

/-- The one character is taken, and then nothing is left. -/
theorem shellUpdate_input (hidle : k.stdin.Idle) (hready : pm.pmemInitialized = true) (hc : c ≠ 0)
    (h : (k.input c page pm k.stdin.tailPtr).shellUpdate stack = .ok k') :
    Took stack (k.took c page pm) c k' := by
  obtain ⟨io, hpop, hset⟩ := @pop_input k c page pm hidle hready
  unfold shellUpdate shellUpdateLoop at h
  rw [hpop] at h
  dsimp only at h
  rw [if_pos hc, hset] at h
  obtain ⟨k₁, hchar, h⟩ := except_bind_eq_ok.mp h
  have htook := shellChar_took hchar
  have hidle₁ : k₁.stdin.Idle := by
    rw [htook.shell.2.1]
    exact took_idle k hidle c page pm
  have hrest : shellUpdateLoop stack ((k.input c page pm k.stdin.tailPtr).stdin.bSize) k₁ =
      .ok k₁ := by
    show shellUpdateLoop stack (4095 + 1) k₁ = .ok k₁
    rw [shellUpdateLoop, pop_idle hidle₁]
    rfl
  rw [hrest] at h
  obtain rfl := Except.ok.inj h
  exact htook

/-- The counter after the interrupt `e`. -/
def Counts (e : Event) (k : Kernel) (count : UInt32) : Prop :=
  (e.ticks = 0 ∧ count = k.pitInterruptCount) ∨
    (e.ticks = 1 ∧ count = k.pitInterruptCount + 1 ∧ count ≠ 0x80000000)

/-- What an interrupt did when it came back: it brought no character, or one that the shell
has taken. -/
inductive Serviced (e : Event) (k : Kernel) : Kernel → Prop
  | quiet {count : UInt32} {sched : Sched} : e.char = none → k.Counts e count →
      schedUpdate k.sched = .ok sched →
      Serviced e k { k with pitInterruptCount := count, sched := sched }
  | typed {c : UInt8} {page : UInt32} {pm : Pmem} {k₁ : Kernel} {sched : Sched} :
      e.char = some c → e.ticks = 0 → c ≠ 0 → k.InputPage page pm →
      Took e.stack (k.took c page pm) c k₁ → schedUpdate k₁.sched = .ok sched →
      Serviced e k { k₁ with sched := sched }

theorem kernelUpdate_quiet (h : k.kernelUpdate stack = .ok k') (hidle : k.stdin.Idle) :
    ∃ sched, schedUpdate k.sched = .ok sched ∧ k' = { k with sched := sched } := by
  unfold kernelUpdate at h
  rw [shellUpdate_idle hidle] at h
  obtain ⟨sched, hsched, h⟩ := mapError_bind_eq_ok.mp h
  obtain rfl := Except.ok.inj h
  exact ⟨sched, hsched, rfl⟩

theorem kernelUpdate_idle {sched : Sched} (hidle : k.stdin.Idle)
    (hsched : schedUpdate k.sched = .ok sched) (stack : Buffer) :
    k.kernelUpdate stack = .ok { k with sched := sched } := by
  unfold kernelUpdate
  rw [shellUpdate_idle hidle]
  show (Except.mapError _ (schedUpdate k.sched) >>= _) = _
  rw [hsched]
  rfl

/-- The timer, as long as it can count. -/
theorem timer_returns {sched : Sched} (hidle : k.stdin.Idle)
    (hcount : k.pitInterruptCount + 1 ≠ 0x80000000) (hsched : schedUpdate k.sched = .ok sched)
    (stack : Buffer) : KernelStep k ⟨.timer, stack⟩
      { k with pitInterruptCount := k.pitInterruptCount + 1, sched := sched } := by
  have hhandler : k.pitInterruptHandler =
      .ok { k with pitInterruptCount := k.pitInterruptCount + 1 } := if_neg hcount
  show (Except.mapError _ k.pitInterruptHandler >>= _) = _
  rw [hhandler]
  exact @kernelUpdate_idle { k with pitInterruptCount := k.pitInterruptCount + 1 } _ hidle hsched
    stack

/-- **One interrupt.** -/
theorem handle_serviced (hready : k.pmem.pmemInitialized = true) (hidle : k.stdin.Idle)
    (h : KernelStep k e k') : Serviced e k k' := by
  obtain ⟨interrupt, stack⟩ := e
  obtain ⟨k₁, hhandler, hupdate⟩ := mapError_bind_eq_ok.mp h
  cases interrupt with
  | timer =>
    unfold pitInterruptHandler at hhandler
    dsimp only at hhandler
    split at hhandler
    · exact absurd hhandler (panic_ne_ok _ _)
    · next hlow =>
      have hcounts : k.Counts ⟨.timer, stack⟩ (k.pitInterruptCount + 1) := .inr ⟨rfl, rfl, hlow⟩
      obtain rfl := Except.ok.inj hhandler
      obtain ⟨sched, hsched, rfl⟩ := kernelUpdate_quiet hupdate hidle
      exact .quiet rfl hcounts hsched
  | keyboard scanCode =>
    unfold keyboardInterruptHandler at hhandler
    dsimp only at hhandler
    by_cases hc : scanToAscii scanCode = 0
    · rw [if_neg (not_not.mpr hc)] at hhandler
      obtain rfl := Except.ok.inj hhandler
      obtain ⟨sched, hsched, rfl⟩ := kernelUpdate_quiet hupdate hidle
      exact .quiet (if_pos hc) (.inl ⟨rfl, rfl⟩) hsched
    · rw [if_pos hc] at hhandler
      obtain ⟨page, pm, hpage, rfl⟩ := stdlibPutStdioInputChar_cases hready hidle hc hhandler
      obtain ⟨k₂, hshell, hupdate⟩ := except_bind_eq_ok.mp hupdate
      obtain ⟨sched, hsched, hupdate⟩ := mapError_bind_eq_ok.mp hupdate
      obtain rfl := Except.ok.inj hupdate
      have htook := shellUpdate_input hidle (hpage.ready.trans hready) hc hshell
      exact .typed (if_neg hc) rfl hc hpage htook hsched
  | systemcall =>
    obtain rfl := Except.ok.inj hhandler
    obtain ⟨sched, hsched, rfl⟩ := kernelUpdate_quiet hupdate hidle
    exact .quiet rfl (.inl ⟨rfl, rfl⟩) hsched

end Kernel

end KoizOs
