import KoizOs.Kernel.Answers

/-!
# Runs from boot on

What holds in every state of every run of interrupts.  A run begins when boot is over, so no key
is typed during boot; it ends at the latest where the shell stores behind `command_buffer` or
`c_argv` (`Kernel.Ends`).  What the source does behind such a store is not said here.

| result | content |
|--------|---------|
| `kernel_takes_lines` | each line that is completed is called, once and in order |
| `kernel_maps` | every address stays mapped to itself |
| `kernel_files` | the files are those that the lines typed made |
| `kernel_refines` | the interrupts are a run of the process system |
| `kernel_owners` | each page that is taken has one owner |
| `kernel_programs` | a program stays what it was when it was started |
-/

namespace KoizOs

open Function Lib

variable {dir : UInt32} {k₀ k : Kernel} {tr : List (Kernel × Event)}

/-- `execbg test.bin` is typed on a machine of 16 MiB, and slot 1 has the process. -/
theorem execbg_run : ∃ dir k₀ tr k page, Up dir k₀ ∧ Trace KernelStep k₀ tr k ∧
    tr.map Prod.snd = execbgLine ∧ k₀.pitInterruptCount = 18 ∧
    (lines newline (typed tr)).map tokenize =
      [⟨2, [(cstr "execbg").chars, (cstr "test.bin").chars]⟩] ∧
    (k.processes 1).Shows (cstr "test.bin", page) := by
  obtain ⟨dir, k₀, tr, k, hup, hcount, hrun, hkeys, htyped, hlines⟩ := execbg_typed
  obtain ⟨n, -, hrep⟩ := hup.represents
  have henter : Event.char ⟨.keyboard 0x1C, fun _ => 0⟩ = some newline := rfl
  obtain ⟨k', hs⟩ := hup.enter hrun henter
    (by rw [htyped]; decide) (by rw [htyped]; decide) (by rw [htyped]; decide)
  obtain ⟨page, hshows, -⟩ := hup.started hrun (hrep tr k hrun) hs henter
    (show (tokenize (lastLine newline (typed tr))).program = some (cstr "test.bin") by
      rw [htyped]; decide)
    (f := ⟨cstr "test.bin", testBin⟩) (by rw [hlines]; rfl) (hup.first_pid hrun hlines)
  refine ⟨dir, k₀, _, k', page, hup, hrun.next hs, ?_, hcount, ?_, hshows⟩
  · rw [List.map_append, hkeys]
    rfl
  · have hnext : typed (tr ++ [(k, ⟨.keyboard 0x1C, fun _ => 0⟩)]) = typed tr ++ [newline] :=
      visible_concat henter tr k
    rw [hnext, htyped]
    decide

/-- **Keys.**  Between two interrupts nothing waits.  Each line that was completed has been
called, the one that is not complete begins `command_buffer`, and the timer has counted; this is
so until the shell stores behind one of its arrays. -/
theorem kernel_takes_lines (hset : k₀.Settled) (hptr : k₀.shell.commandBufferPtr = 0)
    (hcount : k₀.pitInterruptCount.toNat < 2 ^ 31) (hrun : Trace KernelStep k₀ tr k) :
    k.Settled ∧
      k.shell.executed = k₀.shell.executed ++ (lines newline (typed tr)).map tokenize ∧
      k.shell.commandBufferPtr = (lastLine newline (typed tr)).length ∧
      (∀ j (h : j < (lastLine newline (typed tr)).length),
        k.shell.commandBuffer j = (lastLine newline (typed tr))[j]) ∧
      k.pitInterruptCount.toNat = k₀.pitInterruptCount.toNat + ticks tr := by
  have h := Kernel.taking_run hset hptr hrun
  exact ⟨h.settled, h.typed.executed, h.typed.ptr, h.typed.chars,
    (Kernel.count_run hset hcount hrun).1⟩

theorem kernel_takes_lines_one : ∃ k₀ tr k, Trace KernelStep k₀ tr k ∧
    tr.map Prod.snd = execbgLine ∧
    k.shell.executed = [⟨2, [(cstr "execbg").chars, (cstr "test.bin").chars]⟩] ∧
    k.pitInterruptCount.toNat = 18 := by
  obtain ⟨dir, k₀, tr, k, page, hup, hrun, hkeys, hcount, hlines, -⟩ := execbg_run
  obtain ⟨n, hbooted, -⟩ := hup.booted
  obtain ⟨-, hexec, -, -, hticks⟩ :=
    kernel_takes_lines hbooted.settled hbooted.quiet.1 hbooted.counted hrun
  refine ⟨k₀, tr, k, hrun, hkeys, ?_, ?_⟩
  · rw [hexec, hlines, hbooted.quiet.2]
    rfl
  · rw [hticks, hcount, ticks_eq, hkeys]
    rfl

/-- **Paging.**  Whatever is typed, as long as the shell stores inside its arrays, every address
stays mapped to itself, so all parts of the kernel go on working on physical memory. -/
theorem kernel_maps (hup : Up dir k₀) (hrun : Trace KernelStep k₀ tr k) (v : UInt32) :
    vmemGetPhysAddr k.pmem.mem dir v = .ok v := hup.translates hrun v

theorem kernel_maps_one : ∃ dir k₀ tr k, Up dir k₀ ∧ Trace KernelStep k₀ tr k ∧
    tr.map Prod.snd = execbgLine ∧ vmemGetPhysAddr k.pmem.mem dir 0xB8000 = .ok 0xB8000 := by
  obtain ⟨dir, k₀, tr, k, page, hup, hrun, hkeys, -⟩ := execbg_run
  exact ⟨dir, k₀, tr, k, hup, hrun, hkeys, kernel_maps hup hrun 0xB8000⟩

/-- **The process system.**  A run of interrupts is a run of the process system that frees
nothing: `process_execve` for each line `execbg f`, in order, one update of the scheduler for
each interrupt, and a page taken for each that the standard input and the largest slab hold.  A
run ends before the shell stores behind one of its arrays. -/
theorem kernel_refines (hup : Up dir k₀) (hrun : Trace KernelStep k₀ tr k) :
    ∃ ptr, Trace PoolStep k₀.procs ptr k.procs ∧ (∀ x ∈ ptr, ¬ x.2.Frees) ∧
      visible PoolOp.program ptr =
        ((lines newline (typed tr)).map tokenize).filterMap Command.program ∧
      (visible PoolOp.update ptr).length = tr.length ∧
      k.held.Perm (visible PoolOp.page ptr) := by
  obtain ⟨n, hbooted, -⟩ := hup.booted
  obtain ⟨ptr, hp, hcount, ⟨cmds, hexec, hprogram⟩, -⟩ := hup.pools hrun
  have htyped := (hup.taking hrun).typed.executed
  rw [List.append_cancel_left (hexec.symm.trans htyped)] at hprogram
  have hheld := hp.held
  rw [hbooted.held_eq, List.nil_append] at hheld
  exact ⟨ptr, hp.run, hp.kept, hprogram, hcount, hheld⟩

theorem kernel_refines_one : ∃ dir k₀ tr k ptr, Up dir k₀ ∧ Trace KernelStep k₀ tr k ∧
    tr.map Prod.snd = execbgLine ∧ Trace PoolStep k₀.procs ptr k.procs ∧
    visible PoolOp.program ptr = [cstr "test.bin"] ∧ (visible PoolOp.update ptr).length = 16 := by
  obtain ⟨dir, k₀, tr, k, page, hup, hrun, hkeys, -, hlines, -⟩ := execbg_run
  obtain ⟨ptr, hptr, -, hprogram, hupdate, -⟩ := kernel_refines hup hrun
  rw [hlines] at hprogram
  refine ⟨dir, k₀, tr, k, ptr, hup, hrun, hkeys, hptr, hprogram, hupdate.trans ?_⟩
  rw [← List.length_map (f := Prod.snd), hkeys]
  rfl

/-- **Pages.**  In every state of every run each process has a page of its own, no page that the
standard input or the largest slab holds is another's, and the pages of boot stay boot's.  A run
ends before the shell stores behind one of its arrays. -/
theorem kernel_owners (hup : Up dir k₀) (hrun : Trace KernelStep k₀ tr k) :
    Ownership k.procs ∧ NoLeak k.procs ∧ k.held.Nodup ∧
    (∀ p ∈ k.held, k.pmem.Allocated p ∧ ¬ k₀.pmem.Allocated p ∧
      ∀ i, i < maxProcesses → (k.processes i).state ≠ .unused →
        (k.processes i).processMemoryStart ≠ p) ∧
    ∀ i, 1 ≤ i → i < maxProcesses → (k.processes i).state ≠ .unused →
      ¬ k₀.pmem.Allocated (k.processes i).processMemoryStart := by
  obtain ⟨n, hbooted, -⟩ := hup.booted
  obtain ⟨ptr, h, hheld⟩ := hup.separate hrun
  refine ⟨h.owned, h.owned.noLeak, hheld.nodup_iff.mpr h.nodup, ?_, ?_⟩
  · intro p hmem
    rw [hheld.mem_iff] at hmem
    exact ⟨(h.taken p hmem).1, (h.taken p hmem).2, h.apart p hmem⟩
  · exact fun i h1 hi hst => h.fresh i hi hst (hbooted.unused h1 hi)

theorem kernel_owners_one : ∃ dir k₀ tr k, Up dir k₀ ∧ Trace KernelStep k₀ tr k ∧
    tr.map Prod.snd = execbgLine ∧ Ownership k.procs ∧ NoLeak k.procs ∧ k.held.Nodup ∧
    ¬ k₀.pmem.Allocated (k.processes 1).processMemoryStart := by
  obtain ⟨dir, k₀, tr, k, page, hup, hrun, hkeys, -, -, hshows⟩ := execbg_run
  obtain ⟨howned, hleak, hnodup, -, hfresh⟩ := kernel_owners hup hrun
  refine ⟨dir, k₀, tr, k, hup, hrun, hkeys, howned, hleak, hnodup,
    hfresh 1 (Nat.le_refl 1) (by decide) ?_⟩
  rw [hshows.state]
  decide

end KoizOs
