import KoizOs.Kernel.Programs

/-!
# Commands that come back

A command finds the kernel as `Prompt` says, and then it comes back.  The one exception is
`read f`: it takes a block, which there may not be, and prints it up to a NUL, which there may not
be either.
-/

namespace KoizOs

open Function Lib

/-- The line reads a file. -/
def Command.Reads (cmd : Command) : Prop := cmd.word 0 = cstr "read" ∧ 2 ≤ cmd.argc

instance (cmd : Command) : Decidable cmd.Reads := inferInstanceAs (Decidable (_ ∧ _))

theorem Command.not_reads_of_program {cmd : Command} (h : cmd.program ≠ none) : ¬ cmd.Reads := by
  intro hread
  refine h (if_neg fun hruns => ?_)
  exact absurd (hruns.1.symm.trans hread.1) (by decide)

theorem Split.reads_iff {s : Split} : s.command.Reads ↔ s.Reads := by
  constructor
  · rintro ⟨hname, hargs⟩
    have hargs' : 2 ≤ s.cArgc := hargs
    rw [s.word_command (by omega)] at hname
    exact ⟨hname, hargs⟩
  · rintro ⟨hname, hargs⟩
    refine ⟨?_, hargs⟩
    rw [s.word_command (by omega)]
    exact hname

theorem kmemlistLoop_returns (slabs : Nat → Kmemslab) (n i currentSize : Nat) (out : Output) :
    ∃ out', kmemlistLoop slabs n i currentSize out = .ok out' := by
  induction n generalizing i currentSize out with
  | zero => exact ⟨out, rfl⟩
  | succ n ih =>
    rw [kmemlistLoop, printKmeminfo, say_bind [.int, .int, .int, .int, .int, .int] rfl (by decide)]
    exact ih _ _ _

namespace Kernel

variable {k k' : Kernel} {stack : Buffer} {s : Split} {fileName : CString} {p : UInt32} {pid : Nat}
  {pm : Pmem} {G : UInt32 → Prop} {typedLine : List UInt8}

/-! ## A program -/

theorem readTo_returns (stack : Buffer) (h : k.Housed G) (hp : k.pmem.InRoom p) (hoff : ¬ G p)
    (hfile : k.rd.image.lookup fileName ≠ 0) :
    ∃ res rd, ramdiskFat16FileReadTo stack fileName p 0 k.rd = .ok (res, rd) := by
  obtain ⟨hlt, -⟩ := h.disk.inv.headCluster_spec hfile
  have hdisk := (h.disk.valid.off (h.sound.aligned hp) fun hq => hoff (h.uses p hq)).mono
    (show 512 ≤ 4096 by decide)
  exact ⟨_, _, ramdiskFat16FileReadTo_eq h.disk.valid hfile hlt hdisk⟩

theorem schedule_returns (h1 : 1 ≤ pid) (hlt : pid < maxProcesses) :
    ∃ k', k.schedule pid = .ok k' := by
  have hadd := @schedAddpid_eq (setState k.processes pid .runnable) pid h1 hlt
    (by simp [setState]) k.sched
  unfold schedule
  dsimp only
  rw [Int.toNat_natCast, hadd]
  exact ⟨_, rfl⟩

theorem checkRead_returns (res : Int) (slot : Nat) : ∃ k', k.checkRead res slot = .ok k' := by
  unfold checkRead
  split
  · obtain ⟨k₁, hprint, -⟩ :=
      k.print_returns "Failed to copy process to memory. Stopping" [] (by decide)
    rw [hprint]
    exact ⟨_, rfl⟩
  · exact ⟨k, rfl⟩

/-- A slot without memory, a page for it, and the file. -/
theorem loadProcess_returns (stack : Buffer) (h : k.Housed G) (hslot : k.TakesSlot pid p pm)
    (hfile : k.rd.image.lookup fileName ≠ 0) :
    ∃ k', k.loadProcess stack fileName pid = .ok k' := by
  obtain ⟨hkept, hnew, hoff⟩ := h.kept_alloc hslot.alloc
  obtain ⟨-, himage, -⟩ := @Housed.fatOk_congr k { k with pmem := pm } G h rfl rfl hkept.same
  have hne := hkept.housed.sound.allocated_ne_zero hnew
  obtain ⟨res, rd, hread⟩ := readTo_returns stack hkept.housed
    (hkept.housed.sound.inRoom_of_allocated hnew) hoff (himage ▸ hfile)
  have hinit := @processInitProcess_eq _ pmemAlloc pid k.processes k.pmem fileName hslot.empty
  rw [hslot.alloc] at hinit
  unfold loadProcess
  dsimp only
  rw [Int.toNat_natCast, kern_bind hinit]
  dsimp only
  simp only [update_self, Process.setMemory_processMemoryStart]
  rw [if_neg hne]
  obtain ⟨k₂, hcheck⟩ := @checkRead_returns (Kernel.setRd { k with
      pmem := pm
      processes := update k.processes pid (((k.processes pid).blank fileName).setMemory p) } rd)
    res pid
  obtain ⟨k₃, hsched⟩ := @schedule_returns k₂ pid hslot.pos hslot.lt
  exact ⟨k₃, (kern_bind hread _).trans ((bind_of_ok hcheck _).trans hsched)⟩

theorem processExecve_returns (stack : Buffer) (fileName : CString) (h : k.Housed G)
    (hlists : ∃ es, Lists k.processes es) (halloc : pmemAlloc k.pmem = .ok (p, pm)) :
    ∃ k', k.processExecve stack fileName = .ok k' := by
  obtain ⟨es, hlists⟩ := hlists
  have hexists := @ramdiskFat16FileExists_eq _ fileName stack h.disk.valid
  unfold processExecve
  rw [kern_bind hexists]
  dsimp only
  by_cases hfile : k.rd.image.lookup fileName = 0
  · obtain ⟨k₁, hprint, -⟩ := k.print_returns "Error! Program %s not found!\n" [.str fileName]
      (show kinds (pieces (cstr "Error! Program %s not found!\n").chars) <+: [.str] by decide)
    exact ⟨k₁, (if_pos hfile).trans hprint⟩
  rw [if_neg hfile]
  by_cases hfull : processGetNextFreePid k.processes ≤ 0
  · obtain ⟨k₁, hprint, -⟩ := k.print_returns "No free processes available!\n" [.str fileName]
      (show kinds (pieces (cstr "No free processes available!\n").chars) <+: [.str] by decide)
    exact ⟨k₁, (if_pos hfull).trans hprint⟩
  obtain ⟨pid, hpid, h1, hlt, hunused⟩ := processGetNextFreePid_pos hfull
  have hle : es.length ≤ pid := by
    by_contra hused
    have hshows := hlists.shows pid (by omega)
    rw [hshows.state] at hunused
    cases hunused
  obtain ⟨k', hload⟩ := loadProcess_returns stack h
    ⟨hpid, h1, hlt, hunused, (hlists.unused pid hle hlt).2, halloc⟩ hfile
  refine ⟨k', (if_neg hfull).trans ?_⟩
  show k.loadProcess stack fileName (processGetNextFreePid k.processes) = .ok k'
  rw [hpid]
  exact hload

theorem shExecbg_returns (stack : Buffer) (s : Split) (h : k.Housed G)
    (hlists : ∃ es, Lists k.processes es) (halloc : pmemAlloc k.pmem = .ok (p, pm)) :
    ∃ k', k.shExecbg stack s = .ok k' := by
  unfold shExecbg
  split
  · obtain ⟨k₁, hprint, -⟩ := k.print_returns "exec requires an argument\n" [] (by decide)
    obtain ⟨k₂, hprint', -⟩ := k₁.print_returns "Usage: exec filename\n" [] (by decide)
    exact ⟨k₂, (bind_of_ok hprint _).trans hprint'⟩
  · obtain ⟨k₁, hexecve⟩ := processExecve_returns stack (s.arg 1) h hlists halloc
    obtain ⟨k₂, hprint, -⟩ := k₁.print_returns "not implemented yet.\n" [] (by decide)
    exact ⟨k₂, (bind_of_ok hexecve _).trans hprint⟩

/-! ## The other commands -/

/-- A word is short, so no write runs out of clusters half way. -/
theorem write_returns (stack data : Buffer) (fileName : CString) {dataSize : UInt32}
    (h : FatOk k.rd) (hsize : dataSize.toNat ≤ 1024) :
    ∃ res rd, ramdiskFat16FileWrite stack fileName data dataSize k.rd = .ok (res, rd) := by
  by_cases hfile : k.rd.image.lookup fileName = 0
  · by_cases hfree : k.rd.image.freeCluster = 0
    · exact ⟨_, _, ramdiskFat16FileWrite_noSpace h.valid hfile hfree⟩
    · obtain ⟨rd, hwrite⟩ := ramdiskFat16FileWrite_small stack data h.valid hfile hfree hsize
      exact ⟨0, rd, hwrite⟩
  · exact ⟨_, _, ramdiskFat16FileWrite_exists h.valid hfile⟩

theorem shWrite_returns (stack : Buffer) (s : Split) (h : k.Housed G) :
    ∃ k', k.shWrite stack s = .ok k' := by
  unfold shWrite
  split
  · obtain ⟨k', hprint, -⟩ :=
      k.print_returns "write needs 2 arguments: filename and contents" [] (by decide)
    exact ⟨k', hprint⟩
  · have hle : (s.arg 2).chars.length ≤ 1024 :=
      Nat.le_trans (stringAt_length_le _ _ _) (Nat.sub_le _ _)
    obtain ⟨res, rd, hwrite⟩ := @write_returns k stack (s.workingBuffer.add (s.cArgv 2)) (s.arg 1)
      (UInt32.ofNat (s.arg 2).chars.length) h.disk (by
        rw [UInt32.toNat_ofNat']
        omega)
    obtain ⟨k', hprint, -⟩ := (k.setRd rd).print_returns "Wrote file %s with %d bytes\n"
      [.str (s.arg 1), .int (UInt32.ofNat (s.arg 2).chars.length)]
      (show kinds (pieces (cstr "Wrote file %s with %d bytes\n").chars) <+: [.str, .int] by decide)
    exact ⟨k', (kern_bind hwrite _).trans hprint⟩

/-- What a command relies on. -/
structure Prompt (G : UInt32 → Prop) (typedLine : List UInt8) (k : Kernel) : Prop where
  housed : k.Housed G
  processes : ∃ es, Lists k.processes es
  page : ∃ p pm, pmemAlloc k.pmem = .ok (p, pm)
  sched : ∃ L, SchedInv k.processes k.sched L
  ownPtr : OwnPtr k.sched
  files : ∃ ws, k.rd.image.Listed ws
  line : StringIn k.shell.commandBuffer 0 typedLine
  short : typedLine.length < commandBufferSize

namespace Prompt

variable (stack : Buffer) (s : Split)

theorem shLs_returns (h : Prompt G typedLine k) : ∃ k', k.shLs stack s = .ok k' := by
  obtain ⟨ws, hfiles⟩ := h.files
  exact ⟨_, bind_of_ok (ramdiskFat16ListInfo_eq h.housed.disk.valid hfiles k.out) _⟩

theorem shPs_returns (h : Prompt G typedLine k) : ∃ k', k.shPs stack s = .ok k' := by
  obtain ⟨es, hprocesses⟩ := h.processes
  exact ⟨_, bind_of_ok (processPrintlist_eq hprocesses stack k.out) _⟩

theorem shSched_returns (h : Prompt G typedLine k) : ∃ k', k.shSched stack s = .ok k' := by
  obtain ⟨L, hsched⟩ := h.sched
  exact ⟨_, bind_of_ok (schedPrintinfo_eq hsched h.ownPtr k.out) _⟩

theorem unknown_returns (h : Prompt G typedLine k) :
    ∃ k', callCommand stack s [] k = .ok k' := by
  have hstring := bufferString_eq h.line
    (Nat.lt_trans h.short (show commandBufferSize < memorySize by decide))
  obtain ⟨k', hprint, -⟩ := k.print_returns "unknown command: %s \n" [.str ⟨_, h.line.no_nul⟩]
    (show kinds (pieces (cstr "unknown command: %s \n").chars) <+: [.str] by decide)
  exact ⟨k', (kern_bind hstring _).trans hprint⟩

end Prompt

theorem shSlabinfo_returns (k : Kernel) (stack : Buffer) (s : Split) :
    ∃ k', k.shSlabinfo stack s = .ok k' := by
  have hlist : ∃ out, kmemlist k.slabs k.out = .ok out := by
    unfold kmemlist
    rw [say_bind [] rfl (by decide), say_bind [.int] rfl (by decide)]
    exact kmemlistLoop_returns _ _ _ _ _
  obtain ⟨out, hlist⟩ := hlist
  exact ⟨_, bind_of_ok hlist _⟩

/-- **Commands come back.**  Every line but `read f`. -/
theorem callCommand_returns (stack : Buffer) (h : Prompt G typedLine k) (hread : ¬ s.Reads) :
    ∃ k', callCommand stack s shellCmds k = .ok k' := by
  obtain ⟨p, pm, halloc⟩ := h.page
  simp only [shellCmds, callCommand, strcmp_eq_zero_iff]
  split_ifs with hls hwrite hname hslabinfo hfree hps hexec hexecbg hsched
  · exact h.shLs_returns stack s
  · exact shWrite_returns stack s h.housed
  · have hfew : s.cArgc < 2 := by
      by_contra hargs
      exact hread ⟨hname, Nat.not_lt.mp hargs⟩
    obtain ⟨k', hprint, -⟩ := k.print_returns "read needs 1 argument: filename" [] (by decide)
    exact ⟨k', (if_pos hfew).trans hprint⟩
  · exact shSlabinfo_returns k stack s
  · exact ⟨_, bind_of_ok (pmemListInfo_eq k.pmem k.out) _⟩
  · exact h.shPs_returns stack s
  · obtain ⟨k', hprint, -⟩ := k.print_returns "not implemented yet.\n" [] (by decide)
    exact ⟨k', hprint⟩
  · exact shExecbg_returns stack s h.housed h.processes halloc
  · exact h.shSched_returns stack s
  · exact h.unknown_returns stack s

/-! ## Runs -/

theorem Did.listed (h : Did G s k k') (hk : k.Housed G) (hfiles : ∃ ws, k.rd.image.Listed ws) :
    ∃ ws, k'.rd.image.Listed ws := by
  cases h with
  | kept _ _ hkept _ =>
    rw [hkept.image_eq hk]
    exact hfiles
  | wrote _ _ _ _ hstep _ _ _ _ =>
    obtain ⟨ws, hfiles⟩ := hfiles
    exact hk.disk.listed_step hfiles hstep
  | ran _ hkept _ _ =>
    rw [hkept.image_eq hk]
    exact hfiles

theorem Stepped.listed (h : Stepped G k k') (hk : k.Housed G)
    (hfiles : ∃ ws, k.rd.image.Listed ws) : ∃ ws, k'.rd.image.Listed ws := by
  cases h with
  | quiet hkept _ _ =>
    rw [hkept.image_eq hk]
    exact hfiles
  | line hkept _ _ hdid =>
    rw [← hkept.image_eq hk] at hfiles
    exact hdid.listed hkept.housed hfiles

end Kernel

end KoizOs
