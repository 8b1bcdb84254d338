import KoizOs.Kernel.Lines

/-!
# Interrupts that come back

Four things end a run: the timer panics because its counter becomes negative, a character is stored
behind `command_buffer`, a word of the line behind `c_argv`, or what the line asks for does not come
to an end.  (After the two stores the source goes on, with whatever they hit.)  Of the commands only
`read f` can do the last, so any other line, and any other interrupt, comes back unless one of the
first three happens.  A run begins when boot is over, with no key typed until then.

| result | content |
|--------|---------|
| `kernel_answers` | an interrupt that completes no line |
| `kernel_serves` | a list of interrupts |
| `kernel_starts` | a line `execbg f` |
-/

namespace KoizOs

open Function Lib

/-! ## The scheduler -/

section Scheduler

variable {s t u : ProcSys Pmem} {ptr : List (ProcSys Pmem × PoolOp)} {op : PoolOp}

theorem pool_step_schedInv (h : ∃ L, SchedInv s.processes s.sched L) (hs : PoolStep s op t) :
    ∃ L, SchedInv t.processes t.sched L := by
  obtain ⟨L, h⟩ := h
  cases hs with
  | @call _ op hs =>
    cases op with
    | execve fileName fs =>
      obtain ⟨res, hx⟩ := hs
      exact processExecve_inv h hx
    | update =>
      obtain ⟨sched, hsched, rfl⟩ := hs
      obtain ⟨sched', L', hsched', hinv, -⟩ := h.update
      obtain rfl := Except.ok.inj (hsched'.symm.trans hsched)
      exact ⟨L', hinv⟩
  | alloc => exact ⟨L, h⟩
  | free => exact ⟨L, h⟩
  | store => exact ⟨L, h⟩

theorem pool_step_ownPtr (h : OwnPtr s.sched) (hs : PoolStep s op t) : OwnPtr t.sched := by
  cases hs with
  | call hs => exact h.step hs
  | alloc => exact h
  | free => exact h
  | store => exact h

end Scheduler

namespace Kernel

variable {k k' k₁ k₂ : Kernel} {stack : Buffer} {c scanCode : UInt8} {page : UInt32} {pm : Pmem}
  {sched : Sched} {e : Event}

/-! ## A key -/

theorem ioBufferInit_returns (hidle : k.stdin.Idle) (hpage : k.InputPage page pm) :
    ∃ io, ioBufferInit pmemAlloc k.io = .ok io := by
  unfold ioBufferInit
  rcases hpage with ⟨hinit, -, -⟩ | ⟨hinit, halloc⟩
  · rw [show k.io.inBuff.isInit = true from hinit]
    exact ⟨_, rfl⟩
  · rw [show k.io.inBuff.isInit = false from hinit,
      show k.io.inBuff.isInitializing = false from hidle.settled,
      show pmemAlloc k.io.pmem = .ok (page, pm) from halloc]
    exact ⟨_, rfl⟩

theorem stdlibPutStdioInputChar_returns (hset : k.Settled) (hc : c ≠ 0)
    (hpage : k.InputPage page pm) :
    k.stdlibPutStdioInputChar c = .ok (k.input c page pm k.stdin.tailPtr) := by
  obtain ⟨io, hinit⟩ := ioBufferInit_returns hset.idle hpage
  obtain ⟨page', pm', hpage', hpm, hbuff⟩ := ioBufferInit_cases hset.idle hinit
  obtain ⟨rfl, rfl⟩ := hpage.unique hpage' (.refl k)
  have hroom : (k.stdin.headPtr + 1) % 4096 ≠ k.stdin.tailPtr := by
    rw [hset.idle.tail]
    omega
  unfold stdlibPutStdioInputChar
  rw [if_pos hset.ready, hinit, ok_bind, hpm, hbuff, msgStr_chars hc]
  unfold ioBufferPlaceLoop
  dsimp only
  rw [ioBufferPlaceChar_eq rfl hroom]
  rfl

/-- What was put in is taken, and that is all. -/
theorem shellUpdate_returns (hidle : k.stdin.Idle) (hready : pm.pmemInitialized = true)
    (hc : c ≠ 0) (h : (k.took c page pm).shellChar stack c = .ok k₁) :
    (k.input c page pm k.stdin.tailPtr).shellUpdate stack = .ok k₁ := by
  obtain ⟨io, hpop, hset⟩ := @pop_input k c page pm hidle hready
  have hidle₁ : k₁.stdin.Idle := by
    rw [(shellChar_took h).shell.2.1]
    exact took_idle k hidle c page pm
  unfold shellUpdate shellUpdateLoop
  rw [hpop]
  dsimp only
  rw [if_pos hc, hset, h]
  show shellUpdateLoop stack (4095 + 1) k₁ = .ok k₁
  rw [shellUpdateLoop, pop_idle hidle₁]
  rfl

theorem shellUpdate_fails {f : KernelFault} (hidle : k.stdin.Idle)
    (hready : pm.pmemInitialized = true) (hc : c ≠ 0)
    (h : (k.took c page pm).shellChar stack c = .error f) :
    (k.input c page pm k.stdin.tailPtr).shellUpdate stack = .error f := by
  obtain ⟨io, hpop, hset⟩ := @pop_input k c page pm hidle hready
  unfold shellUpdate shellUpdateLoop
  rw [hpop]
  dsimp only
  rw [if_pos hc, hset, h]
  rfl

/-- The key that brings the character. -/
theorem char_eq_some (hc : e.char = some c) :
    ∃ scanCode, e.interrupt = .keyboard scanCode ∧ scanToAscii scanCode = c ∧ c ≠ 0 := by
  obtain ⟨interrupt, stack⟩ := e
  cases interrupt with
  | timer => cases hc
  | systemcall => cases hc
  | keyboard scanCode =>
    by_cases h0 : scanToAscii scanCode = 0
    · rw [show Event.char ⟨.keyboard scanCode, stack⟩ = none from if_pos h0] at hc
      cases hc
    · rw [show Event.char ⟨.keyboard scanCode, stack⟩ = some _ from if_neg h0] at hc
      obtain rfl := Option.some.inj hc
      exact ⟨scanCode, rfl, rfl, h0⟩

/-- The character of a key is put in before `kernel_update` is called. -/
theorem key_handle (hset : k.Settled) (hc : e.char = some c) (hpage : k.InputPage page pm) :
    k.handle e = (k.input c page pm k.stdin.tailPtr).kernelUpdate e.stack := by
  obtain ⟨scanCode, hkey, rfl, hc0⟩ := char_eq_some hc
  obtain ⟨interrupt, stack⟩ := e
  obtain rfl : interrupt = .keyboard scanCode := hkey
  have hhandler : k.keyboardInterruptHandler scanCode =
      .ok (k.input (scanToAscii scanCode) page pm k.stdin.tailPtr) := by
    unfold keyboardInterruptHandler
    dsimp only
    rw [if_pos hc0]
    exact stdlibPutStdioInputChar_returns hset hc0 hpage
  show (Except.mapError _ (k.keyboardInterruptHandler scanCode) >>= _) = _
  rw [hhandler]
  rfl

/-- A key, when the shell comes back from its character. -/
theorem key_returns (hset : k.Settled) (hc : e.char = some c) (hpage : k.InputPage page pm)
    (hchar : (k.took c page pm).shellChar e.stack c = .ok k₁)
    (hsched : schedUpdate k₁.sched = .ok sched) :
    KernelStep k e { k₁ with sched := sched } := by
  obtain ⟨-, -, -, hc0⟩ := char_eq_some hc
  have hshell := shellUpdate_returns hset.idle (hpage.ready.trans hset.ready) hc0 hchar
  show k.handle e = _
  rw [key_handle hset hc hpage]
  unfold kernelUpdate
  rw [hshell]
  show (Except.mapError _ (schedUpdate k₁.sched) >>= _) = _
  rw [hsched]
  rfl

/-- And when it does not. -/
theorem key_fails {f : KernelFault} (hset : k.Settled) (hc : e.char = some c)
    (hpage : k.InputPage page pm) (hchar : (k.took c page pm).shellChar e.stack c = .error f) :
    k.handle e = .error f := by
  obtain ⟨-, -, -, hc0⟩ := char_eq_some hc
  rw [key_handle hset hc hpage]
  unfold kernelUpdate
  rw [shellUpdate_fails hset.idle (hpage.ready.trans hset.ready) hc0 hchar]
  rfl

/-- An interrupt without a character, and as far as it counts. -/
theorem silent_returns (hset : k.Settled) (hc : e.char = none)
    (hcount : e.ticks = 1 → k.pitInterruptCount + 1 ≠ 0x80000000)
    (hsched : schedUpdate k.sched = .ok sched) : ∃ k', KernelStep k e k' := by
  obtain ⟨interrupt, stack⟩ := e
  cases interrupt with
  | timer => exact ⟨_, timer_returns hset.idle (hcount rfl) hsched stack⟩
  | systemcall => exact ⟨_, kernelUpdate_idle hset.idle hsched stack⟩
  | keyboard scanCode =>
    have h0 : scanToAscii scanCode = 0 := by
      by_contra h0
      rw [show Event.char ⟨.keyboard scanCode, stack⟩ = some _ from if_neg h0] at hc
      cases hc
    have hhandler : k.keyboardInterruptHandler scanCode = .ok k := if_neg (not_not.mpr h0)
    refine ⟨{ k with sched := sched }, ?_⟩
    show (Except.mapError _ (k.keyboardInterruptHandler scanCode) >>= _) = _
    rw [hhandler]
    exact kernelUpdate_idle hset.idle hsched stack

/-- The timer, when it cannot count any further. -/
theorem timer_panics (hcount : k.pitInterruptCount + 1 = 0x80000000) (stack : Buffer) :
    k.handle ⟨.timer, stack⟩ = .error (.read (.kern (.panic pitPanicMsg))) := by
  have hhandler : k.pitInterruptHandler = panic pitPanicMsg := if_pos hcount
  show (Except.mapError _ k.pitInterruptHandler >>= _) = _
  rw [hhandler]
  rfl

/-- A character of a line, when `command_buffer` has room for it. -/
theorem shellChar_returns (hc : c ≠ newline)
    (hroom : k.shell.commandBufferPtr < commandBufferSize) :
    ∃ k₁, k.shellChar stack c = .ok k₁ := by
  obtain ⟨sh, hstore⟩ : ∃ sh, k.shell.store c = .ok sh := by
    unfold Shell.store
    rw [if_pos hroom]
    exact ⟨_, rfl⟩
  obtain ⟨k₁, hprint, -⟩ := print_returns { k with shell := sh } "%c" [.int c.toUInt32]
    (show kinds (pieces (cstr "%c").chars) <+: [.int] by decide)
  refine ⟨k₁, ?_⟩
  unfold shellChar
  rw [if_neg (show ¬ c = 0x0A from hc), hstore]
  show Except.mapError KernelFault.read (print { k with shell := sh } "%c" [.int c.toUInt32]) = _
  rw [hprint]
  rfl

/-! ## The newline -/

variable {s : Split} {sh : Shell}

theorem split_returns {sh' : Shell}
    (h : KoizOs.shellExecuteCommand (fun _ b => b) sh = .ok sh') :
    ∃ s, sh.split = .ok s ∧ sh'.executed = sh.executed ++ [s.command] := by
  obtain ⟨s, hs⟩ : ∃ s, sh.split = .ok s := by
    unfold KoizOs.shellExecuteCommand at h
    unfold Shell.split
    cases hlen : strlen sh.commandBuffer commandBufferSize with
    | none =>
      rw [hlen] at h
      cases h
    | some n =>
      rw [hlen] at h
      dsimp only at h ⊢
      obtain ⟨s, hs, -⟩ := except_bind_eq_ok.mp h
      exact ⟨s, hs⟩
  refine ⟨s, hs, ?_⟩
  obtain rfl := Except.ok.inj ((shellExecuteCommand_eq hs).symm.trans h)
  rfl

theorem split_fails {f : ShellFault}
    (h : KoizOs.shellExecuteCommand (fun _ b => b) sh = .error f) : sh.split = .error f := by
  unfold KoizOs.shellExecuteCommand at h
  unfold Shell.split
  cases hlen : strlen sh.commandBuffer commandBufferSize with
  | none =>
    rw [hlen] at h
    exact congrArg _ (Except.error.inj h)
  | some n =>
    rw [hlen] at h
    dsimp only at h ⊢
    cases hloop : splitLoop n 0 ⟨memcpy sh.workingBuffer sh.commandBuffer commandBufferSize, 1,
      fun _ => 0, false, false⟩ with
    | error f' =>
      rw [hloop] at h
      exact congrArg _ (Except.error.inj h)
    | ok s =>
      rw [hloop] at h
      cases h

/-- The shell does not come back from a character when its own variables do not let it. -/
theorem shellChar_fails {f : ShellFault}
    (h : KoizOs.shellChar (fun _ b => b) c k.shell = .error f) :
    k.shellChar stack c = .error (.shell f) := by
  unfold KoizOs.shellChar at h
  unfold shellChar
  split at h
  · next hc =>
    rw [if_pos hc]
    cases hstore : k.shell.store 0 with
    | error f' =>
      rw [hstore] at h
      obtain rfl := Except.error.inj h
      rfl
    | ok sh =>
      rw [hstore] at h
      show shellExecuteCommand stack { k with shell := sh } = _
      unfold shellExecuteCommand
      dsimp only
      rw [split_fails h]
      rfl
  · next hc =>
    rw [if_neg hc, h]
    rfl

/-- The newline, when the command of its line comes back. -/
theorem newline_returns (hstore : k.shell.store 0 = .ok sh) (hsplit : sh.split = .ok s)
    (hcall : ∀ out, ∃ k₂, callCommand stack s shellCmds (k.ready sh s out) = .ok k₂) :
    ∃ k₁, k.shellChar stack newline = .ok k₁ := by
  obtain ⟨k₁, hnewline, hprinted⟩ := print_returns { k with shell := { sh with
      workingBuffer := s.workingBuffer
      executed := sh.executed ++ [s.command] } } "\n" [] (by decide)
  obtain ⟨k₂, hcall⟩ := hcall k₁.out
  have hready : k₁ = k.ready sh s k₁.out := hprinted
  rw [← hready] at hcall
  obtain ⟨k₃, hprefix, -⟩ := k₂.print_returns "shell# " [] (by decide)
  have hline : runLine stack s _ = .ok k₃ :=
    (bind_of_ok hnewline _).trans ((bind_of_ok hcall _).trans hprefix)
  refine ⟨{ k₃ with shell := { k₃.shell with commandBufferPtr := 0 } }, ?_⟩
  unfold shellChar
  rw [if_pos (show newline = 0x0A from rfl), hstore]
  show shellExecuteCommand stack { k with shell := sh } = _
  unfold shellExecuteCommand
  dsimp only
  rw [hsplit]
  show (Except.mapError KernelFault.read (runLine stack s _) >>= _) = _
  rw [hline]
  rfl

end Kernel

/-! ## From boot on -/

variable {dir : UInt32} {k₀ k : Kernel} {tr : List (Kernel × Event)} {e : Event}

namespace Kernel.Booted

variable {st : FileStore} {ptr : List (ProcSys Pmem × PoolOp)} {b : Nat}

/-- The scheduler can go on. -/
theorem schedInv (h : k₀.Booted st b dir) (hp : k₀.Pools ptr k) :
    ∃ L, SchedInv k.processes k.sched L := by
  obtain ⟨ps, pm, -, hinit⟩ := h.procs
  exact (hp.run.invariant ⟨_, processSchedInit_inv hinit⟩ fun _ _ _ h hs =>
    pool_step_schedInv h hs).1

theorem ownPtr (h : k₀.Booted st b dir) (hp : k₀.Pools ptr k) : OwnPtr k.sched := by
  obtain ⟨ps, pm, -, hinit⟩ := h.procs
  exact (hp.run.invariant (processSchedInit_ownPtr hinit) fun _ _ _ h hs =>
    pool_step_ownPtr h hs).1

/-- There is another page. -/
theorem takes (h : k₀.Booted st b dir) (hroom : b + 166 < k₀.pmem.pmemMgrReservedSize.toNat)
    (hp : k₀.Pools ptr k) : ∃ p pm, pmemAlloc k.pmem = .ok (p, pm) := by
  obtain ⟨n, honward⟩ := h.onward hroom hp
  have hlen := hp.held.length_eq
  rw [h.held_eq, List.nil_append] at hlen
  have hle := held_length_le hp.slab
  have hslots : maxProcesses = 64 := rfl
  have hpages : slabMaxPageCount = 100 := rfl
  have hcount := honward.count
  have hused := usedSlots_le k.procs.processes
  have hsize := honward.grows.layout.size
  obtain ⟨p, pm, halloc, -⟩ := honward.opened.take (by
    rw [hsize, show k₀.procs.pages = k₀.pmem from rfl]
    omega)
  exact ⟨p, pm, halloc⟩

end Kernel.Booted

namespace Up

variable {c : UInt8}

theorem inputPage (hup : Up dir k₀) (hrun : Trace KernelStep k₀ tr k) :
    ∃ page pm, k.InputPage page pm := by
  obtain ⟨n, hbooted, hroom⟩ := hup.booted
  obtain ⟨ptr, hp, -⟩ := hup.pools hrun
  obtain ⟨p, pm, halloc⟩ := hbooted.takes hroom hp
  cases hinit : k.stdin.isInit with
  | true => exact ⟨_, _, .inl ⟨hinit, rfl, rfl⟩⟩
  | false => exact ⟨p, pm, .inr ⟨hinit, halloc⟩⟩

/-- A key comes back when the shell comes back from its character. -/
theorem key (hup : Up dir k₀) (hrun : Trace KernelStep k₀ tr k) (hc : e.char = some c)
    (hchar : ∀ page pm, k.InputPage page pm →
      ∃ k₁, (k.took c page pm).shellChar e.stack c = .ok k₁) : ∃ k', KernelStep k e k' := by
  obtain ⟨n, hbooted, hroom⟩ := hup.booted
  obtain ⟨ptr, hp, -⟩ := hup.pools hrun
  have hset := (hup.taking hrun).settled
  have hhoused := (hup.guards hrun).housed
  obtain ⟨page, pm, hpage⟩ := hup.inputPage hrun
  obtain ⟨k₁, hshell⟩ := hchar page pm hpage
  obtain ⟨ptr', htaken, -⟩ := Kernel.Pools.took (c := c) hhoused hset.idle hpage
  obtain ⟨ptr'', hcalled, -⟩ := (Kernel.shellChar_took hshell).pools
    (hhoused.kept_took (c := c) hset.idle hpage).housed
    fun _ _ h => hbooted.clear hroom ((hp.trans htaken).trans h)
  obtain ⟨L, hinv⟩ := hbooted.schedInv ((hp.trans htaken).trans hcalled)
  obtain ⟨sched, -, hsched, -⟩ := hinv.update
  exact ⟨_, Kernel.key_returns hset hc hpage hshell hsched⟩

/-- A character of a line comes back, and is then the last of its line. -/
theorem character (hup : Up dir k₀) (hrun : Trace KernelStep k₀ tr k) (hc : e.char = some c)
    (hne : c ≠ newline) (hroom : (lastLine newline (typed tr)).length < commandBufferSize) :
    ∃ k', KernelStep k e k' := by
  exact hup.key hrun hc fun page pm _ =>
    Kernel.shellChar_returns hne ((hup.taking hrun).typed.ptr ▸ hroom)

theorem listed (hup : Up dir k₀) (hrun : Trace KernelStep k₀ tr k) :
    ∃ ws, k.rd.image.Listed ws := by
  obtain ⟨n, hbooted, -⟩ := hup.booted
  induction hrun with
  | start => exact hbooted.listed
  | next hrun hs ih =>
    have hset := (hup.taking hrun).settled
    have hhoused := (hup.guards hrun).housed
    exact (Kernel.step_stepped hset hhoused (hup.clear (.next hrun hs)) hs).listed hhoused ih

/-- What a command finds when its line is complete. -/
theorem prompt (hup : Up dir k₀) (hrun : Trace KernelStep k₀ tr k) {page : UInt32} {pm : Pmem}
    {sh : Shell} {typedLine : List UInt8} (hpage : k.InputPage page pm)
    (hline : StringIn sh.commandBuffer 0 typedLine) (hshort : typedLine.length < commandBufferSize)
    (s : Split) (out : Output) : Kernel.Prompt (k₀.Reserved dir) typedLine
      ((k.took newline page pm).ready sh s out) := by
  obtain ⟨n, hbooted, hsize⟩ := hup.booted
  obtain ⟨ptr, hp, -⟩ := hup.pools hrun
  obtain ⟨m, hrunning⟩ := hup.running
  obtain ⟨es, hes⟩ := hrunning tr k hrun
  have hset := (hup.taking hrun).settled
  have hhoused := (hup.guards hrun).housed
  obtain ⟨ptr', htaken, -⟩ := Kernel.Pools.took (c := newline) hhoused hset.idle hpage
  have htook := hhoused.kept_took (c := newline) hset.idle hpage
  have hready : Kernel.Kept (k₀.Reserved dir) (k.took newline page pm)
      ((k.took newline page pm).ready sh s out) := htook.housed.kept_of_eq rfl rfl rfl rfl rfl
  have hsched := hbooted.schedInv hp
  have hown := hbooted.ownPtr hp
  have halloc := hbooted.takes hsize (hp.trans htaken)
  refine ⟨hready.housed, ⟨es, hes.lists⟩, halloc, hsched, hown, ?_, hline, hshort⟩
  rw [(htook.trans hready).image_eq hhoused]
  exact hup.listed hrun

/-- The newline behind a line, unless that is `read f`. -/
theorem enter (hup : Up dir k₀) (hrun : Trace KernelStep k₀ tr k)
    (he : e.char = some newline)
    (hroom : (lastLine newline (typed tr)).length < commandBufferSize)
    (hargs : (tokenize (lastLine newline (typed tr))).argc ≤ shellMaxArgs)
    (hread : ¬ (tokenize (lastLine newline (typed tr))).Reads) :
    ∃ k', KernelStep k e k' := by
  have htaking := hup.taking hrun
  have hstore := htaking.typed.store hroom 0
  obtain ⟨sh', hexecute, -, hexec⟩ :=
    @shellExecuteCommand_spec (lastLine newline (typed tr)) { k.shell with
      commandBuffer := update k.shell.commandBuffer (lastLine newline (typed tr)).length 0
      commandBufferPtr := (lastLine newline (typed tr)).length + 1 } (fun _ b => b)
      htaking.typed.line hroom hargs
  obtain ⟨s, hsplit, hexec'⟩ := Kernel.split_returns hexecute
  have hcommand : s.command = tokenize (lastLine newline (typed tr)) :=
    List.singleton_inj.mp (List.append_cancel_left (hexec'.symm.trans hexec))
  rw [← hcommand] at hread
  exact hup.key hrun he fun page pm hpage =>
    Kernel.newline_returns hstore hsplit fun out =>
      Kernel.callCommand_returns e.stack
        (hup.prompt hrun hpage htaking.typed.line hroom s out) (mt Split.reads_iff.mpr hread)

/-- An interrupt that the timer can count and the buffers have room for. -/
theorem returns (hup : Up dir k₀) (hrun : Trace KernelStep k₀ tr k)
    (hread : e.char = some newline → ¬ (tokenize (lastLine newline (typed tr))).Reads)
    (hcount : k₀.pitInterruptCount.toNat + KoizOs.ticks tr + e.ticks < 2 ^ 31)
    (hroom : e.char ≠ none → (lastLine newline (typed tr)).length < commandBufferSize)
    (hargs : e.char = some newline →
      (tokenize (lastLine newline (typed tr))).argc ≤ shellMaxArgs) :
    ∃ k', KernelStep k e k' := by
  cases hchar : e.char with
  | none =>
    obtain ⟨n, hbooted, -⟩ := hup.booted
    obtain ⟨ptr, hp, -⟩ := hup.pools hrun
    obtain ⟨L, hinv⟩ := hbooted.schedInv hp
    obtain ⟨sched, -, hsched, -⟩ := hinv.update
    refine Kernel.silent_returns (hup.taking hrun).settled hchar (fun hticks heq => ?_) hsched
    have hnat := congrArg UInt32.toNat heq
    rw [UInt32.toNat_add, show (1 : UInt32).toNat = 1 from rfl,
      show (0x80000000 : UInt32).toNat = 2 ^ 31 from rfl] at hnat
    have hcounted := (hup.count hrun).1
    omega
  | some c =>
    have hroom := hroom (by rw [hchar]; exact Option.some_ne_none c)
    by_cases hc : c = newline
    · subst hc
      exact hup.enter hrun hchar hroom (hargs hchar) (hread hchar)
    · exact hup.character hrun hchar hc hroom

/-- One that the timer cannot count. -/
theorem overflows (hup : Up dir k₀) (hrun : Trace KernelStep k₀ tr k)
    (hcount : ¬ k₀.pitInterruptCount.toNat + KoizOs.ticks tr + e.ticks < 2 ^ 31) :
    k.handle e = .error (.read (.kern (.panic pitPanicMsg))) := by
  obtain ⟨heq, hlow⟩ := hup.count hrun
  obtain ⟨interrupt, stack⟩ := e
  cases interrupt with
  | timer =>
    refine Kernel.timer_panics (UInt32.toNat_inj.mp ?_) stack
    have hticks : Event.ticks ⟨.timer, stack⟩ = 1 := rfl
    rw [UInt32.toNat_add, show (1 : UInt32).toNat = 1 from rfl,
      show (0x80000000 : UInt32).toNat = 2 ^ 31 from rfl]
    omega
  | keyboard => exact absurd (heq ▸ hlow) hcount
  | systemcall => exact absurd (heq ▸ hlow) hcount

/-- One whose character the shell cannot take. -/
theorem fails (hup : Up dir k₀) (hrun : Trace KernelStep k₀ tr k) {f : ShellFault}
    (hc : e.char = some c) (hchar : KoizOs.shellChar (fun _ b => b) c k.shell = .error f) :
    k.handle e = .error (.shell f) := by
  obtain ⟨page, pm, hpage⟩ := hup.inputPage hrun
  exact Kernel.key_fails (hup.taking hrun).settled hc hpage (Kernel.shellChar_fails hchar)

theorem overruns (hup : Up dir k₀) (hrun : Trace KernelStep k₀ tr k) (hc : e.char ≠ none)
    (hroom : ¬ (lastLine newline (typed tr)).length < commandBufferSize) :
    k.handle e = .error (.shell (.commandBuffer (lastLine newline (typed tr)).length)) := by
  obtain ⟨c, hc⟩ := Option.ne_none_iff_exists'.mp hc
  obtain ⟨-, -, -, hc0⟩ := Kernel.char_eq_some hc
  have htaking := hup.taking hrun
  rcases htaking.typed.char_cases htaking.args hc0 with ⟨-, hchar⟩ | ⟨hlt, -⟩
  · exact hup.fails hrun hc hchar
  · exact absurd hlt hroom

theorem too_many_words (hup : Up dir k₀) (hrun : Trace KernelStep k₀ tr k)
    (hc : e.char = some newline) (hroom : (lastLine newline (typed tr)).length < commandBufferSize)
    (hargs : ¬ (tokenize (lastLine newline (typed tr))).argc ≤ shellMaxArgs) :
    k.handle e = .error (.shell (.cArgv shellMaxArgs)) := by
  have htaking := hup.taking hrun
  rcases htaking.typed.char_cases htaking.args (show newline ≠ 0 by decide) with
    ⟨hno, -⟩ | ⟨-, hchar⟩
  · exact absurd hroom hno
  · rw [if_neg fun hall => hargs (argsFit_concat_newline.mp hall).2] at hchar
    exact hup.fails hrun hc hchar

end Up

/-- What the kernel can take behind `count` ticks: the timer counts it, and the lines have room. -/
structure Admissible (count : Nat) (es : List Event) : Prop where
  counted : count + (es.map Event.ticks).sum < 2 ^ 31
  bounded : Bounded (es.filterMap Event.char)
  args : ArgsFit (es.filterMap Event.char)

theorem ticks_eq (tr : List (Kernel × Event)) :
    ticks tr = ((tr.map Prod.snd).map Event.ticks).sum := by
  rw [List.map_map]
  rfl

theorem bounded_concat_iff {ys : List UInt8} {c : UInt8} (hargs : ArgsFit ys) :
    Bounded (ys ++ [c]) ↔ Bounded ys ∧ (lastLine newline ys).length < commandBufferSize :=
  ⟨fun h => ⟨fun zs d hpre => h zs d (hpre.trans (List.prefix_append ys [c])),
    h ys c (List.prefix_refl _) hargs⟩, fun h => h.1.concat h.2 c⟩

theorem admissible_concat_iff {count : Nat} {es : List Event} :
    Admissible count (es ++ [e]) ↔ Admissible count es ∧
    count + (es.map Event.ticks).sum + e.ticks < 2 ^ 31 ∧
    (e.char ≠ none → (lastLine newline (es.filterMap Event.char)).length < commandBufferSize) ∧
    (e.char = some newline →
      (tokenize (lastLine newline (es.filterMap Event.char))).argc ≤ shellMaxArgs) := by
  have hsum : count + ((es ++ [e]).map Event.ticks).sum =
      count + (es.map Event.ticks).sum + e.ticks := by
    rw [List.map_append, List.sum_append, ← Nat.add_assoc]
    rfl
  cases hc : e.char with
  | none =>
    have hsame : (es ++ [e]).filterMap Event.char = es.filterMap Event.char := by
      rw [List.filterMap_append, List.filterMap_cons_none hc, List.filterMap_nil, List.append_nil]
    constructor
    · rintro ⟨hcounted, hbounded, hargs⟩
      rw [hsum] at hcounted
      rw [hsame] at hbounded hargs
      exact ⟨⟨by omega, hbounded, hargs⟩, hcounted, fun h => absurd rfl h, nofun⟩
    · rintro ⟨h, hcounted, -, -⟩
      exact ⟨hsum ▸ hcounted, hsame ▸ h.bounded, hsame ▸ h.args⟩
  | some c =>
    have hnext : (es ++ [e]).filterMap Event.char = es.filterMap Event.char ++ [c] := by
      rw [List.filterMap_append, List.filterMap_cons_some hc, List.filterMap_nil]
    constructor
    · rintro ⟨hcounted, hbounded, hargs⟩
      rw [hsum] at hcounted
      rw [hnext] at hbounded hargs
      have hargs₀ := hargs.of_append
      obtain ⟨hbounded₀, hroom⟩ := (bounded_concat_iff hargs₀).mp hbounded
      refine ⟨⟨by omega, hbounded₀, hargs₀⟩, hcounted, fun _ => hroom, fun hnl => ?_⟩
      obtain rfl := Option.some.inj hnl
      exact (argsFit_concat_newline.mp hargs).2
    · rintro ⟨h, hcounted, hroom, hargs⟩
      have hroom := hroom (Option.some_ne_none c)
      refine ⟨hsum ▸ hcounted, hnext ▸ h.bounded.concat hroom c, ?_⟩
      rw [hnext]
      by_cases hnl : c = newline
      · subst hnl
        exact argsFit_concat_newline.mpr ⟨h.args, hargs rfl⟩
      · exact (argsFit_concat_of_ne hnl).mpr h.args

/-- The keys of `execbg test.bin`. -/
def execbgKeys : List Event :=
  [0x12, 0x2D, 0x12, 0x2E, 0x30, 0x22, 0x39, 0x14, 0x12, 0x1F, 0x14, 0x34, 0x30, 0x17,
    0x31].map fun scanCode => ⟨.keyboard scanCode, fun _ => 0⟩

/-- The timer panics, or the shell stores behind `command_buffer` or `c_argv`. -/
inductive Kernel.Ends (k : Kernel) (e : Event) : Prop
  | overflow : k.handle e = .error (.read (.kern (.panic pitPanicMsg))) → Ends k e
  | commandBuffer {i : Nat} : commandBufferSize ≤ i →
      k.handle e = .error (.shell (.commandBuffer i)) → Ends k e
  | cArgv : k.handle e = .error (.shell (.cArgv shellMaxArgs)) → Ends k e

namespace Up

variable {es : List Event}

theorem serves (hup : Up dir k₀)
    (hread : ∀ l ∈ lines newline (es.filterMap Event.char), ¬ (tokenize l).Reads)
    (h : Admissible k₀.pitInterruptCount.toNat es) :
    ∃ tr k, Trace KernelStep k₀ tr k ∧ tr.map Prod.snd = es := by
  induction es using List.reverseRecOn with
  | nil => exact ⟨[], k₀, .start, rfl⟩
  | append_singleton es e ih =>
    obtain ⟨hes, hcount, hroom, hargs⟩ := admissible_concat_iff.mp h
    obtain ⟨tr, k, hrun, rfl⟩ := ih (fun l hl => hread l (by
      rw [List.filterMap_append]
      exact (lines_mono newline _ _).subset hl)) hes
    have hlast : e.char = some newline →
        ¬ (tokenize (lastLine newline (typed tr))).Reads := by
      intro hc
      rw [List.filterMap_append, List.filterMap_cons_some hc, List.filterMap_nil,
        lines_concat_self, ← visible_eq] at hread
      exact hread _ (List.mem_append_right _ List.mem_cons_self)
    rw [← visible_eq] at hroom hargs
    rw [← ticks_eq] at hcount
    obtain ⟨k', hs⟩ := hup.returns hrun hlast hcount hroom hargs
    exact ⟨_, k', hrun.next hs, by rw [List.map_append]; rfl⟩

/-- The first interrupt that is one too many. -/
theorem stops (hup : Up dir k₀)
    (hread : ∀ l ∈ lines newline (es.filterMap Event.char), ¬ (tokenize l).Reads)
    (h : ¬ Admissible k₀.pitInterruptCount.toNat es) :
    ∃ tr k e rest, Trace KernelStep k₀ tr k ∧ es = tr.map Prod.snd ++ e :: rest ∧ k.Ends e := by
  induction es using List.reverseRecOn with
  | nil => exact absurd ⟨(hup.count .start).2, bounded_nil, by decide⟩ h
  | append_singleton es e ih =>
    have hread' : ∀ l ∈ lines newline (es.filterMap Event.char), ¬ (tokenize l).Reads := by
      intro l hl
      rw [List.filterMap_append] at hread
      exact hread l ((lines_mono newline _ _).subset hl)
    by_cases hes : Admissible k₀.pitInterruptCount.toNat es
    · obtain ⟨tr, k, hrun, rfl⟩ := hup.serves hread' hes
      refine ⟨tr, k, e, [], hrun, rfl, ?_⟩
      rw [admissible_concat_iff, ← visible_eq, ← ticks_eq] at h
      by_cases hcount : k₀.pitInterruptCount.toNat + KoizOs.ticks tr + e.ticks < 2 ^ 31
      · by_cases hroom : e.char ≠ none → (lastLine newline (typed tr)).length < commandBufferSize
        · -- a newline then, and its line has too many words
          obtain ⟨hc, hargs⟩ := Classical.not_imp.mp fun hargs => h ⟨hes, hcount, hroom, hargs⟩
          exact .cArgv (hup.too_many_words hrun hc (hroom (by rw [hc]; exact Option.some_ne_none _))
            hargs)
        · obtain ⟨hc, hfull⟩ := Classical.not_imp.mp hroom
          exact .commandBuffer (Nat.not_lt.mp hfull) (hup.overruns hrun hc hfull)
      · exact .overflow (hup.overflows hrun hcount)
    · obtain ⟨tr, k, e', rest, hrun, rfl, hends⟩ := ih hread' hes
      exact ⟨tr, k, e', rest ++ [e], hrun, by rw [List.append_assoc]; rfl, hends⟩

end Up

/-- **Interrupts are served.**  From boot on the kernel comes back from all the interrupts of a
list, one after the other, as long as the timer can count them, the lines typed have room in
`command_buffer` and their words in `c_argv`.  Otherwise it comes back from the first of them, and
at the next one the timer panics or the shell stores behind one of the two arrays.  None of the
lines is `read f`. -/
theorem kernel_serves (hup : Up dir k₀) (es : List Event)
    (hread : ∀ l ∈ lines newline (es.filterMap Event.char), ¬ (tokenize l).Reads) :
    (Admissible k₀.pitInterruptCount.toNat es →
      ∃ tr k, Trace KernelStep k₀ tr k ∧ tr.map Prod.snd = es) ∧
    (¬ Admissible k₀.pitInterruptCount.toNat es →
      ∃ tr k e rest, Trace KernelStep k₀ tr k ∧ es = tr.map Prod.snd ++ e :: rest ∧ k.Ends e) :=
  ⟨hup.serves hread, hup.stops hread⟩

/-- The keys of `execbg test.bin`, and the newline. -/
def execbgLine : List Event := execbgKeys ++ [⟨.keyboard 0x1C, fun _ => 0⟩]

theorem execbgLine_admissible : Admissible 18 execbgLine := by
  have hargs : ArgsFit (execbgLine.filterMap Event.char) := by decide
  have hfits : Fits (execbgLine.filterMap Event.char) := ⟨by decide, hargs⟩
  exact ⟨by decide, hfits.bounded, hargs⟩

/-- The keys before the newline, on a machine of 16 MiB. -/
theorem execbg_typed : ∃ dir k₀ tr k, Up dir k₀ ∧ k₀.pitInterruptCount = 18 ∧
    Trace KernelStep k₀ tr k ∧ tr.map Prod.snd = execbgKeys ∧
    typed tr = (cstr "execbg test.bin").chars ∧ lines newline (typed tr) = [] := by
  obtain ⟨dir, k₀, hup, hcount⟩ := up_16MiB
  obtain ⟨tr, k, hrun, hkeys⟩ := @Up.serves dir k₀ execbgKeys hup (by decide) (by
    rw [hcount]
    exact (admissible_concat_iff.mp execbgLine_admissible).1)
  have htyped : typed tr = (cstr "execbg test.bin").chars := by
    rw [typed, visible_eq, hkeys]
    rfl
  refine ⟨dir, k₀, tr, k, hup, hcount, hrun, hkeys, htyped, ?_⟩
  rw [htyped]
  decide

theorem kernel_serves_one : ∃ dir k₀ tr k, Up dir k₀ ∧ Trace KernelStep k₀ tr k ∧
    tr.map Prod.snd = execbgLine := by
  obtain ⟨dir, k₀, hup, hcount⟩ := up_16MiB
  obtain ⟨tr, k, hrun, hkeys⟩ := (kernel_serves hup execbgLine (by decide)).1
    (by rw [hcount]; exact execbgLine_admissible)
  exact ⟨dir, k₀, tr, k, hup, hrun, hkeys⟩

namespace Up

variable {st : FileStore} {f : StoredFile} {name : CString} {pid : Nat} {k' : Kernel}

/-- What a line `execbg f` that came back has done, if `f` is a file and slot `pid` was free. -/
theorem started (hup : Up dir k₀) (hrun : Trace KernelStep k₀ tr k)
    (hst : k.rd.image.Represents st) (hs : KernelStep k e k') (he : e.char = some newline)
    (hprogram : (tokenize (lastLine newline (typed tr))).program = some name)
    (hfound : st.find name = some f) (hpid : processGetNextFreePid k.processes = pid) :
    ∃ page, (k'.processes pid).Shows (name, page) ∧
      (∀ i, i ≠ pid → k'.processes i = k.processes i) ∧
      ∀ i (h : i < f.bytes.length), k'.pmem.mem (page + UInt32.ofNat i) = f.bytes[i] := by
  obtain ⟨q, hrunning⟩ := hup.running
  obtain ⟨es, hlists, -⟩ := hrunning tr k hrun
  have htaking := hup.taking hrun
  have hhoused := (hup.guards hrun).housed
  have hexec : k'.shell.executed =
      k.shell.executed ++ [tokenize (lastLine newline (typed tr))] := by
    rw [(htaking.next hs).typed.executed, htaking.typed.executed,
      show typed (tr ++ [(k, e)]) = typed tr ++ [newline] from visible_concat he tr k,
      lines_concat_self, List.map_append, List.append_assoc]
    rfl
  cases Kernel.step_stepped htaking.settled hhoused (hup.clear (.next hrun hs)) hs with
  | quiet _ hsame =>
    have hlen := congrArg List.length (hsame.symm.trans hexec)
    rw [List.length_append, List.length_singleton] at hlen
    omega
  | @line s k₁ hkept hps hexec' hdid =>
    have hcommand : s.command = tokenize (lastLine newline (typed tr)) :=
      List.singleton_inj.mp (List.append_cancel_left (hexec'.symm.trans hexec))
    rw [← hcommand] at hprogram
    have himage := hkept.image_eq hhoused
    have hlookup := (hst.headCluster_bytes hfound).1
    have hruns : s.Runs := by
      by_contra hruns
      rw [Split.program_of_not_runs hruns] at hprogram
      cases hprogram
    obtain rfl : s.arg 1 = name :=
      Option.some.inj ((Split.program_of_runs hruns).symm.trans hprogram)
    cases hdid with
    | kept _ hnot => exact absurd hruns hnot
    | wrote hw => exact absurd (hruns.1.symm.trans hw.1) (by decide)
    | ran _ _ _ hplaced =>
      cases hplaced with
      | refused hno _ =>
        rw [himage, hps, hpid] at hno
        have hpos := hlists.pos
        rw [hlists.nextFreePid] at hpid
        rcases hno with h0 | hfull
        · exact absurd h0 hlookup
        · split at hpid <;> omega
      | @placed pid' page pm _ hslot _ _ hps' hbytes =>
        have hslot' := hslot.slot
        rw [hps, hpid] at hslot'
        obtain rfl : pid = pid' := Int.ofNat_inj.mp hslot'
        rw [himage] at hbytes
        refine ⟨page, ?_, fun i hi => ?_, fun i hi => ?_⟩
        · rw [hps', update_self]
          exact shows_blank _ _ page
        · rw [hps', update_of_ne hi, hps]
        · obtain ⟨hi', hbyte⟩ := (hst.headCluster_bytes hfound).2 i hi
          exact (hbytes i hi').trans hbyte

/-- Slot 1 is free until a line has been completed. -/
theorem first_pid (hup : Up dir k₀) (hrun : Trace KernelStep k₀ tr k)
    (hlines : lines newline (typed tr) = []) :
    processGetNextFreePid k.processes = (1 : Nat) := by
  obtain ⟨m, hrunning⟩ := hup.running
  obtain ⟨es, hlists, hstarted, -⟩ := hrunning tr k hrun
  rw [hlines] at hstarted
  have hlen : es.length = 1 := by
    have htail := congrArg List.length (List.map_eq_nil_iff.mp (List.sublist_nil.mp hstarted))
    have hpos := hlists.pos
    rw [List.length_tail] at htail
    change es.length - 1 = 0 at htail
    omega
  rw [hlists.nextFreePid, hlen]
  rfl

end Up

/-- **Programs are started.**  In every state of every run, which ends before the shell stores
behind one of its arrays, a line `execbg f` comes back, as long as `command_buffer` has room for it
and it has not too many words.  If `f` is a file and a slot is free, then the slot has the new
process, its page begins with the file, and no other slot is touched. -/
theorem kernel_starts (hup : Up dir k₀) : ∃ n, ∀ tr k, Trace KernelStep k₀ tr k →
    ∀ e name, e.char = some newline →
    (lastLine newline (typed tr)).length < commandBufferSize →
    (tokenize (lastLine newline (typed tr))).argc ≤ shellMaxArgs →
    (tokenize (lastLine newline (typed tr))).program = some name →
    ∃ k', KernelStep k e k' ∧ ∀ (f : StoredFile) (pid : Nat),
      ((Kernel.startingFiles n).run ((lines newline (typed tr)).map tokenize)).find name = some f →
      processGetNextFreePid k.processes = pid →
      ∃ page, (k'.processes pid).Shows (name, page) ∧
        (∀ i, i ≠ pid → k'.processes i = k.processes i) ∧
        ∀ i (h : i < f.bytes.length), k'.pmem.mem (page + UInt32.ofNat i) = f.bytes[i] := by
  obtain ⟨n, -, hrep⟩ := hup.represents
  refine ⟨n, fun tr k hrun e name he hroom hargs hprogram => ?_⟩
  obtain ⟨k', hs⟩ := hup.enter hrun he hroom hargs
    (Command.not_reads_of_program (hprogram ▸ Option.some_ne_none name))
  exact ⟨k', hs, fun f pid hfound hpid =>
    hup.started hrun (hrep tr k hrun) hs he hprogram hfound hpid⟩

/-- `test.bin` is started, and its page begins with 0x66. -/
theorem kernel_starts_one : ∃ dir k₀ tr k k' page, Up dir k₀ ∧ Trace KernelStep k₀ tr k ∧
    KernelStep k ⟨.keyboard 0x1C, fun _ => 0⟩ k' ∧
    (k'.processes 1).Shows (cstr "test.bin", page) ∧
    k'.pmem.mem (page + UInt32.ofNat 0) = 0x66 := by
  obtain ⟨dir, k₀, tr, k, hup, -, hrun, -, htyped, hlines⟩ := execbg_typed
  obtain ⟨n, hall⟩ := kernel_starts hup
  obtain ⟨k', hs, hprogram⟩ := hall tr k hrun ⟨.keyboard 0x1C, fun _ => 0⟩ (cstr "test.bin")
    (by decide) (by rw [htyped]; decide) (by rw [htyped]; decide) (by rw [htyped]; decide)
  obtain ⟨page, hshows, -, hbytes⟩ := hprogram ⟨cstr "test.bin", testBin⟩ 1
    (by rw [hlines]; rfl) (hup.first_pid hrun hlines)
  exact ⟨dir, k₀, tr, k, k', page, hup, hrun, hs, hshows, hbytes 0 (by decide)⟩

end KoizOs
