import KoizOs.Kernel.Machine
import KoizOs.Libc.Compare

/-!
# What a command can do

A line is a call of the first command that has the name of its first word.  `Called` says what
each of them can have done when it comes back; later proofs use it and never unfold a command.

| the line | what it does |
|----------|--------------|
| `write f c` | `ramdisk_fat16_file_write` |
| `read f` | takes a block; if the file is there, reads it into the block and frees it |
| `execbg f` | `process_execve`, told by `Launched` |
| any other | prints |
-/

namespace KoizOs

open Function Lib

/-! ## Names -/

theorem strcmp_eq_zero_iff (s t : CString) :
    strcmp (s.chars ++ [0]) (t.chars ++ [0]) = some 0 ↔ s = t := by
  obtain ⟨k, d, hstop, hread, hzero, -, -⟩ := strcmp_orders s t
  have hreadable : ∀ r : CString, k ≤ r.chars.length → ReadableTo (r.chars ++ [0]) r k := by
    intro r hk i hi
    rcases Nat.lt_or_ge i r.chars.length with hlt | hge
    · rw [List.getElem?_append_left hlt, CString.get, List.getElem?_eq_getElem hlt,
        List.getD_eq_getElem _ _ hlt]
    · obtain rfl : i = r.chars.length := by omega
      rw [List.getElem?_concat_length, CString.get_of_le (Nat.le_refl _)]
  have hs : k ≤ s.chars.length := by
    by_contra hlt
    exact (hstop.before s.chars.length (by omega)).2 (CString.get_of_le (Nat.le_refl _))
  have ht : k ≤ t.chars.length := by
    by_contra hlt
    obtain ⟨heq, hne⟩ := hstop.before t.chars.length (by omega)
    exact hne (heq.trans (CString.get_of_le (Nat.le_refl _)))
  rw [hread _ _ (hreadable s hs) (hreadable t ht), ← hzero, Option.some_inj]

namespace Split

variable (s : Split)

/-- The line is a call of `write` that has its arguments. -/
def Writes : Prop := s.arg 0 = cstr "write" ∧ 3 ≤ s.cArgc

def Reads : Prop := s.arg 0 = cstr "read" ∧ 2 ≤ s.cArgc

def Runs : Prop := s.arg 0 = cstr "execbg" ∧ 2 ≤ s.cArgc

/-- The line only prints. -/
structure Prints : Prop where
  writes : ¬ s.Writes
  reads : ¬ s.Reads
  runs : ¬ s.Runs

end Split

/-! ## Words -/

namespace Command

/-- Word `i` of a command. -/
def word (cmd : Command) (i : Nat) : CString where
  chars := (cmd.argv.getD i []).takeWhile (· ≠ 0)
  no_nul hmem := by simpa using List.mem_takeWhile_imp hmem

/-- The line writes a file. -/
def Writes (cmd : Command) : Prop := cmd.word 0 = cstr "write" ∧ 3 ≤ cmd.argc

instance (cmd : Command) : Decidable cmd.Writes := inferInstanceAs (Decidable (_ ∧ _))

/-- The program that the line starts. -/
def program (cmd : Command) : Option CString :=
  if cmd.word 0 = cstr "execbg" ∧ 2 ≤ cmd.argc then some (cmd.word 1) else none

end Command

namespace Split

variable {s : Split} {i : Nat}

/-- The words of a line are the arguments of its command. -/
theorem word_command (s : Split) (hi : i < s.cArgc) : s.command.word i = s.arg i := by
  apply CString.eq_of_chars
  have hget : s.command.argv.getD i [] = (s.arg i).chars := by
    rw [List.getD_eq_getElem?_getD, Split.command, List.getElem?_map, List.getElem?_range hi]
    rfl
  rw [Command.word]
  dsimp only
  rw [hget, List.takeWhile_eq_self_iff]
  intro c hc
  exact decide_eq_true fun h0 => (s.arg i).no_nul (h0 ▸ hc)

theorem writes_iff : s.command.Writes ↔ s.Writes := by
  constructor
  · rintro ⟨hname, hargs⟩
    have hargs' : 3 ≤ s.cArgc := hargs
    rw [s.word_command (by omega)] at hname
    exact ⟨hname, hargs⟩
  · rintro ⟨hname, hargs⟩
    refine ⟨?_, hargs⟩
    rw [s.word_command (by omega)]
    exact hname

theorem program_of_runs (h : s.Runs) : s.command.program = some (s.arg 1) := by
  obtain ⟨hname, hargs⟩ := h
  have hruns : s.command.word 0 = cstr "execbg" ∧ 2 ≤ s.command.argc := by
    rw [s.word_command (by omega)]
    exact ⟨hname, hargs⟩
  rw [Command.program, if_pos hruns, s.word_command (by omega)]

theorem program_of_not_runs (h : ¬ s.Runs) : s.command.program = none := by
  refine if_neg ?_
  rintro ⟨hname, hargs⟩
  have hargs' : 2 ≤ s.cArgc := hargs
  rw [s.word_command (by omega)] at hname
  exact h ⟨hname, hargs⟩

end Split

/-! ## Reading leaves the disk alone -/

theorem except_bind_eq_ok {ε α β : Type} {x : Except ε α} {f : α → Except ε β} {b : β} :
    x >>= f = .ok b ↔ ∃ a, x = .ok a ∧ f a = .ok b := by
  cases x with
  | ok a => exact ⟨fun h => ⟨a, rfl, h⟩, fun ⟨_, ha, h⟩ => Except.ok.inj ha ▸ h⟩
  | error e => exact ⟨fun h => (nomatch h), fun ⟨_, ha, _⟩ => (nomatch ha)⟩

section Reading

variable {rd rd' : Ramdisk} {n i found : Nat} {res : Int} {startAddr dataSize : UInt32}
  {data data' stack entry : Buffer} {fileName : CString} {out out' : Output}

theorem ramdiskIoLoop_read_rd : (ramdiskIoLoop 0 startAddr n i data rd).2 = rd := by
  induction n generalizing i data with
  | zero => rfl
  | succ n ih => exact ih

theorem ramdiskRead_rd (h : ramdiskRead startAddr data dataSize rd = .ok (res, data', rd')) :
    rd' = rd := by
  unfold ramdiskRead ramdiskInternalIo at h
  split_ifs at h
  · cases h
  · obtain ⟨-, -, rfl⟩ := by simpa using Except.ok.inj h
    rfl
  · obtain ⟨-, -, rfl⟩ := by simpa using Except.ok.inj h
    rfl
  · obtain ⟨-, h⟩ := Prod.mk.inj (Except.ok.inj h)
    exact (congrArg Prod.snd h).symm.trans ramdiskIoLoop_read_rd

theorem fileExistsLoop_rd (h : fileExistsLoop stack fileName n i entry rd = .ok (found, rd')) :
    rd' = rd := by
  induction n generalizing i entry rd with
  | zero => exact ((Prod.mk.inj (Except.ok.inj h)).2).symm
  | succ n ih =>
    obtain ⟨⟨res, entry', rd₁⟩, hread, hrest⟩ := bind_eq_ok.mp h
    obtain rfl : rd₁ = rd := ramdiskRead_rd hread
    dsimp only at hrest
    split at hrest
    · exact ((Prod.mk.inj (Except.ok.inj hrest)).2).symm
    · exact ih hrest

theorem ramdiskFat16FileExists_rd
    (h : ramdiskFat16FileExists stack fileName rd = .ok (found, rd')) : rd' = rd :=
  fileExistsLoop_rd h

theorem countFreeLoop_rd {c c' : UInt16} (h : countFreeLoop n i data c rd = .ok (c', rd')) :
    rd' = rd := by
  induction n generalizing i data c with
  | zero => exact ((Prod.mk.inj (Except.ok.inj h)).2).symm
  | succ n ih =>
    obtain ⟨⟨res, data', rd₁⟩, hread, hrest⟩ := bind_eq_ok.mp h
    obtain rfl : rd₁ = rd := ramdiskRead_rd hread
    exact ih hrest

theorem listFilesLoop_rd (h : listFilesLoop n i entry out rd = .ok (out', rd')) : rd' = rd := by
  induction n generalizing i entry out with
  | zero => exact ((Prod.mk.inj (Except.ok.inj h)).2).symm
  | succ n ih =>
    obtain ⟨⟨res, entry', rd₁⟩, hread, hrest⟩ := mapError_bind_eq_ok.mp h
    obtain rfl : rd₁ = rd := ramdiskRead_rd hread
    dsimp only at hrest
    split at hrest
    · obtain ⟨name, -, hrest⟩ := mapError_bind_eq_ok.mp hrest
      obtain ⟨out₁, -, hrest⟩ := mapError_bind_eq_ok.mp hrest
      exact ih hrest
    · exact ih hrest

theorem ramdiskFat16ListInfo_rd (h : ramdiskFat16ListInfo stack rd out = .ok (out', rd')) :
    rd' = rd := by
  obtain ⟨out₁, -, h⟩ := mapError_bind_eq_ok.mp h
  obtain ⟨out₂, -, h⟩ := mapError_bind_eq_ok.mp h
  obtain ⟨out₃, -, h⟩ := mapError_bind_eq_ok.mp h
  obtain ⟨⟨free, rd₁⟩, hcount, h⟩ := mapError_bind_eq_ok.mp h
  obtain ⟨out₄, -, h⟩ := mapError_bind_eq_ok.mp h
  obtain ⟨out₅, -, h⟩ := mapError_bind_eq_ok.mp h
  obtain ⟨⟨out₆, rd₂⟩, hfiles, h⟩ := except_bind_eq_ok.mp h
  obtain ⟨out₇, -, h⟩ := mapError_bind_eq_ok.mp h
  obtain ⟨-, rfl⟩ := Prod.mk.inj (Except.ok.inj h)
  exact (listFilesLoop_rd hfiles).trans (countFreeLoop_rd hcount)

end Reading

/-! ## Memory -/

section Malloc

variable {σ : Type} {pmemAlloc : σ → Kern (UInt32 × σ)} {size p : UInt32} {hp hp' : Heap σ}

/-- A slab takes its entries from what it has, or from one more page. -/
theorem allocNewPageIfNeeded_pmem {c : Nat} {slab slab' : Kmemslab} {t u : σ}
    (h : allocNewPageIfNeeded pmemAlloc c slab t = .ok (slab', u)) :
    u = t ∨ ∃ q, pmemAlloc t = .ok (q, u) := by
  unfold allocNewPageIfNeeded at h
  split at h
  · exact .inl (Prod.mk.inj (Except.ok.inj h)).2.symm
  · dsimp only at h
    generalize (if slab.maxEntries + physBlockSize.toNat / c > slabEntryCount then
      slabEntryCount - slab.maxEntries else physBlockSize.toNat / c) = additionalEntries at h
    split at h
    · exact absurd h (panic_ne_ok _ _)
    · split at h
      · exact .inl (Prod.mk.inj (Except.ok.inj h)).2.symm
      · split at h
        · exact .inl (Prod.mk.inj (Except.ok.inj h)).2.symm
        · obtain ⟨⟨q, v⟩, hq, h⟩ := bind_eq_ok.mp h
          dsimp only at h
          split_ifs at h
          · exact absurd h (panic_ne_ok _ _)
          · exact absurd h (panic_ne_ok _ _)
          · obtain ⟨-, rfl⟩ := Prod.mk.inj (Except.ok.inj h)
            exact .inr ⟨q, hq⟩

theorem malloc_pmem (h : malloc pmemAlloc size hp = .ok (p, hp')) :
    hp'.pmem = hp.pmem ∨ ∃ q, pmemAlloc hp.pmem = .ok (q, hp'.pmem) := by
  unfold malloc at h
  split at h
  · exact absurd h (panic_ne_ok _ _)
  · obtain ⟨⟨slab, pmem⟩, hpage, h⟩ := bind_eq_ok.mp h
    dsimp only at h
    split at h
    · exact absurd h (panic_ne_ok _ _)
    · obtain ⟨k, -, h⟩ := bind_eq_ok.mp h
      obtain ⟨-, rfl⟩ := Prod.mk.inj (Except.ok.inj h)
      exact allocNewPageIfNeeded_pmem hpage

theorem free_pmem (h : free p hp = .ok hp') : hp'.pmem = hp.pmem := by
  obtain ⟨slabs, -, h⟩ := bind_eq_ok.mp h
  obtain rfl := Except.ok.inj h
  rfl

end Malloc

/-! ## Printing -/

namespace Kernel

variable {k k' k₁ : Kernel} {stack : Buffer} {s : Split} {fileName : CString}

/-- The output is all that changed. -/
def Printed (k k' : Kernel) : Prop := k' = { k with out := k'.out }

theorem Printed.trans (h : k.Printed k₁) (h' : k₁.Printed k') : k.Printed k' := by
  rw [Printed, h', h]

theorem print_printed {format : String} {args : List Arg} (h : k.print format args = .ok k') :
    k.Printed k' := by
  obtain ⟨out, -, h⟩ := mapError_bind_eq_ok.mp h
  obtain rfl := Except.ok.inj h
  rfl

/-- A command that adds to the output. -/
theorem out_printed {report : Except ReadFault Output}
    (h : (report >>= fun out => pure { k with out := out }) = .ok k') : k.Printed k' := by
  obtain ⟨out, -, h⟩ := except_bind_eq_ok.mp h
  obtain rfl := Except.ok.inj h
  rfl

theorem shLs_printed (h : k.shLs stack s = .ok k') : k.Printed k' := by
  obtain ⟨⟨out, rd⟩, hlist, h⟩ := except_bind_eq_ok.mp h
  obtain rfl := ramdiskFat16ListInfo_rd hlist
  obtain rfl := Except.ok.inj h
  rfl

/-! ## Starting a process -/

/-- Slot `pid` is given the next page. -/
structure TakesSlot (k : Kernel) (pid : Nat) (page : UInt32) (pm : Pmem) : Prop where
  slot : processGetNextFreePid k.processes = pid
  pos : 1 ≤ pid
  lt : pid < maxProcesses
  unused : (k.processes pid).state = .unused
  empty : (k.processes pid).processMemoryStart = 0
  alloc : pmemAlloc k.pmem = .ok (page, pm)

/-- What `process_execve` did when it came back. -/
inductive Launched (stack : Buffer) (fileName : CString) (k : Kernel) : Kernel → Prop
  /-- there is no such file -/
  | missing {k' : Kernel} : ramdiskFat16FileExists stack fileName k.rd = .ok (0, k.rd) →
      k.Printed k' → Launched stack fileName k k'
  | full {k' : Kernel} : processGetNextFreePid k.processes ≤ 0 → k.Printed k' →
      Launched stack fileName k k'
  /-- the page is the null pointer -/
  | nowhere {k' : Kernel} {pid n : Nat} {pm : Pmem} :
      ramdiskFat16FileExists stack fileName k.rd = .ok (n, k.rd) → n ≠ 0 →
      k.TakesSlot pid 0 pm →
      k' = { k with
        pmem := pm
        processes := update k.processes pid
          { ((k.processes pid).blank fileName).setMemory 0 with state := .unused }
        out := k'.out } → Launched stack fileName k k'
  /-- the first sector of the file is read into the page -/
  | started {k' : Kernel} {pid n : Nat} {page : UInt32} {pm : Pmem} {res : Int} {rd : Ramdisk} :
      ramdiskFat16FileExists stack fileName k.rd = .ok (n, k.rd) → n ≠ 0 →
      k.TakesSlot pid page pm → page ≠ 0 →
      ramdiskFat16FileReadTo stack fileName page 0 { k with pmem := pm }.rd = .ok (res, rd) →
      k' = { { k with pmem := pm }.setRd rd with
        processes := update k.processes pid
          { ((k.processes pid).blank fileName).setMemory page with state := .runnable }
        sched := k.sched.enqueue pid
        out := k'.out } → Launched stack fileName k k'

/-- Setting the state of the slot twice is setting it once, and the scheduler takes the slot. -/
theorem schedule_cases {p : Process} {pid : Nat} {res : Int} (h1 : 1 ≤ pid)
    (hlt : pid < maxProcesses) {ps : ProcessTable} (hps : k.processes = update ps pid p)
    (hcheck : k.checkRead res pid = .ok k₁) (h : k₁.schedule pid = .ok k') :
    k' = { k with
      processes := update ps pid { p with state := .runnable }
      sched := k.sched.enqueue pid
      out := k'.out } := by
  have hready : ∃ st out, k₁ = { k with
      processes := update ps pid { p with state := st }
      out := out } := by
    unfold checkRead at hcheck
    split at hcheck
    · obtain ⟨k₂, hprint, hcheck⟩ := except_bind_eq_ok.mp hcheck
      have hprinted := print_printed hprint
      obtain rfl := Except.ok.inj hcheck
      refine ⟨.unused, k₂.out, ?_⟩
      rw [hprinted]
      dsimp only
      rw [hps, setState_update]
    · obtain rfl := Except.ok.inj hcheck
      exact ⟨p.state, k.out, by rw [← hps]⟩
  obtain ⟨st, out, rfl⟩ := hready
  obtain ⟨sched, hsched, h⟩ := mapError_bind_eq_ok.mp h
  obtain rfl := Except.ok.inj h
  dsimp only at hsched
  rw [Int.toNat_natCast, setState_update, schedAddpid_eq h1 hlt (by simp)] at hsched
  obtain rfl := Except.ok.inj hsched
  dsimp only
  rw [Int.toNat_natCast, setState_update]

/-- A read that fails makes no difference to what is started. -/
theorem loadProcess_cases {pid n : Nat} (hpid : processGetNextFreePid k.processes = pid)
    (h1 : 1 ≤ pid) (hlt : pid < maxProcesses) (hunused : (k.processes pid).state = .unused)
    (hfound : ramdiskFat16FileExists stack fileName k.rd = .ok (n, k.rd)) (hn : n ≠ 0)
    (h : k.loadProcess stack fileName pid = .ok k') : Launched stack fileName k k' := by
  obtain ⟨⟨ps, pm⟩, hslot, h⟩ := mapError_bind_eq_ok.mp h
  have hempty : (k.processes pid).processMemoryStart = 0 := by
    obtain ⟨page, p, -, hempty, -⟩ := processInitProcess_cases hslot
    exact hempty
  rw [Int.toNat_natCast, processInitProcess_eq fileName hempty] at hslot
  obtain ⟨⟨page, pm'⟩, halloc, hslot⟩ := bind_eq_ok.mp hslot
  obtain ⟨rfl, rfl⟩ := Prod.mk.inj (Except.ok.inj hslot)
  have htakes : k.TakesSlot pid page pm' := ⟨hpid, h1, hlt, hunused, hempty, halloc⟩
  simp only [Int.toNat_natCast, update_self, Process.setMemory_processMemoryStart] at h
  split at h
  · next hpage =>
    subst hpage
    obtain ⟨k₁, hprint, h⟩ := except_bind_eq_ok.mp h
    have hprinted := print_printed hprint
    obtain rfl := Except.ok.inj h
    refine .nowhere hfound hn htakes ?_
    rw [hprinted, setState_update]
  · next hpage =>
    obtain ⟨⟨res, rd⟩, hread, h⟩ := mapError_bind_eq_ok.mp h
    obtain ⟨k₁, hcheck, h⟩ := except_bind_eq_ok.mp h
    have hstarted := schedule_cases h1 hlt rfl hcheck h
    exact .started hfound hn htakes hpage hread hstarted

theorem processExecve_launched (h : k.processExecve stack fileName = .ok k') :
    Launched stack fileName k k' := by
  obtain ⟨⟨n, rd⟩, hfound, h⟩ := mapError_bind_eq_ok.mp h
  obtain rfl : rd = k.rd := ramdiskFat16FileExists_rd hfound
  dsimp only at h
  split at h
  · next hn =>
    subst hn
    exact .missing hfound (print_printed h)
  · next hn =>
    split at h
    · next hfull => exact .full hfull (print_printed h)
    · next hfree =>
      obtain ⟨pid, hpid, h1, hlt, hunused⟩ := processGetNextFreePid_pos hfree
      rw [hpid] at h
      exact loadProcess_cases hpid h1 hlt hunused hfound hn h

/-! ## All commands -/

/-- What the command of a line did when it came back. -/
inductive Called (stack : Buffer) (s : Split) (k : Kernel) : Kernel → Prop
  | printed {k' : Kernel} : s.Prints → k.Printed k' → Called stack s k k'
  | wrote {k' : Kernel} {res : Int} {rd : Ramdisk} : s.Writes →
      ramdiskFat16FileWrite stack (s.arg 1) (s.workingBuffer.add (s.cArgv 2))
        (UInt32.ofNat (s.arg 2).chars.length) k.rd = .ok (res, rd) →
      (k.setRd rd).Printed k' → Called stack s k k'
  /-- the block is not given back -/
  | missed {k' : Kernel} {p : UInt32} {heap : Heap Pmem} : s.Reads →
      malloc pmemAlloc 4096 k.heap = .ok (p, heap) →
      ramdiskFat16FileExists stack (s.arg 1) (k.setHeap heap).rd = .ok (0, (k.setHeap heap).rd) →
      (k.setHeap heap).Printed k' → Called stack s k k'
  | fetched {k' : Kernel} {p : UInt32} {n : Nat} {heap heap' : Heap Pmem} {res : Int}
      {rd : Ramdisk} : s.Reads →
      malloc pmemAlloc 4096 k.heap = .ok (p, heap) →
      ramdiskFat16FileExists stack (s.arg 1) (k.setHeap heap).rd = .ok (n, (k.setHeap heap).rd) →
      n ≠ 0 →
      ramdiskFat16FileReadTo stack (s.arg 1) p 0 (k.setHeap heap).rd = .ok (res, rd) →
      free p ((k.setHeap heap).setRd rd).heap = .ok heap' →
      (((k.setHeap heap).setRd rd).setHeap heap').Printed k' → Called stack s k k'
  | ran {k₁ k' : Kernel} : s.Runs → Launched stack (s.arg 1) k k₁ → k₁.Printed k' →
      Called stack s k k'

theorem shWrite_called (hname : s.arg 0 = cstr "write") (h : k.shWrite stack s = .ok k') :
    Called stack s k k' := by
  unfold shWrite at h
  split at h
  · next hfew =>
    refine .printed ⟨fun hw => ?_, fun hr => ?_, fun hr => ?_⟩ (print_printed h)
    · exact absurd hw.2 (Nat.not_le.mpr hfew)
    · exact absurd (hname.symm.trans hr.1) (by decide)
    · exact absurd (hname.symm.trans hr.1) (by decide)
  · next hargs =>
    obtain ⟨⟨res, rd⟩, hwrite, h⟩ := mapError_bind_eq_ok.mp h
    exact .wrote ⟨hname, Nat.not_lt.mp hargs⟩ hwrite (print_printed h)

theorem shRead_called (hname : s.arg 0 = cstr "read") (h : k.shRead stack s = .ok k') :
    Called stack s k k' := by
  unfold shRead at h
  split at h
  · next hfew =>
    refine .printed ⟨fun hw => ?_, fun hr => ?_, fun hr => ?_⟩ (print_printed h)
    · exact absurd (hname.symm.trans hw.1) (by decide)
    · exact absurd hr.2 (Nat.not_le.mpr hfew)
    · exact absurd (hname.symm.trans hr.1) (by decide)
  · next hargs =>
    obtain ⟨⟨p, heap⟩, hmalloc, h⟩ := mapError_bind_eq_ok.mp h
    obtain ⟨⟨n, rd⟩, hfound, h⟩ := mapError_bind_eq_ok.mp h
    obtain rfl : rd = (k.setHeap heap).rd := ramdiskFat16FileExists_rd hfound
    have hreads : s.Reads := ⟨hname, Nat.not_lt.mp hargs⟩
    dsimp only at h
    split at h
    · next hn =>
      subst hn
      exact .missed hreads hmalloc hfound (print_printed h)
    · next hn =>
      obtain ⟨⟨res, rd⟩, hread, h⟩ := mapError_bind_eq_ok.mp h
      obtain ⟨string, -, h⟩ := mapError_bind_eq_ok.mp h
      obtain ⟨k₁, hprint, h⟩ := except_bind_eq_ok.mp h
      obtain ⟨heap', hfree, h⟩ := mapError_bind_eq_ok.mp h
      have hprinted := print_printed hprint
      obtain rfl := Except.ok.inj h
      rw [hprinted] at hfree ⊢
      exact .fetched hreads hmalloc hfound hn hread hfree rfl

theorem shExecbg_called (hname : s.arg 0 = cstr "execbg") (h : k.shExecbg stack s = .ok k') :
    Called stack s k k' := by
  unfold shExecbg at h
  split at h
  · next hfew =>
    obtain ⟨k₁, hprint, h⟩ := except_bind_eq_ok.mp h
    refine .printed ⟨fun hw => ?_, fun hr => ?_, fun hr => ?_⟩
      ((print_printed hprint).trans (print_printed h))
    · exact absurd (hname.symm.trans hw.1) (by decide)
    · exact absurd (hname.symm.trans hr.1) (by decide)
    · exact absurd hr.2 (Nat.not_le.mpr hfew)
  · next hargs =>
    obtain ⟨k₁, hexecve, h⟩ := except_bind_eq_ok.mp h
    exact .ran ⟨hname, Nat.not_lt.mp hargs⟩ (processExecve_launched hexecve) (print_printed h)

/-- A line with another name only prints. -/
theorem prints_of_ne (hwrite : s.arg 0 ≠ cstr "write") (hread : s.arg 0 ≠ cstr "read")
    (hrun : s.arg 0 ≠ cstr "execbg") : s.Prints :=
  ⟨fun h => hwrite h.1, fun h => hread h.1, fun h => hrun h.1⟩

theorem prints_of_eq {name : String} (hname : s.arg 0 = cstr name)
    (hother : cstr name ≠ cstr "write" ∧ cstr name ≠ cstr "read" ∧ cstr name ≠ cstr "execbg") :
    s.Prints := by
  rw [← hname] at hother
  exact prints_of_ne hother.1 hother.2.1 hother.2.2

/-- **One command.** -/
theorem callCommand_called (h : callCommand stack s shellCmds k = .ok k') :
    Called stack s k k' := by
  simp only [shellCmds, callCommand, strcmp_eq_zero_iff] at h
  split_ifs at h with hls hwrite hread hslabinfo hfree hps hexec hexecbg hsched
  · exact .printed (prints_of_eq hls (by decide)) (shLs_printed h)
  · exact shWrite_called hwrite h
  · exact shRead_called hread h
  · exact .printed (prints_of_eq hslabinfo (by decide)) (out_printed h)
  · exact .printed (prints_of_eq hfree (by decide)) (out_printed h)
  · exact .printed (prints_of_eq hps (by decide)) (out_printed h)
  · exact .printed (prints_of_eq hexec (by decide)) (print_printed h)
  · exact shExecbg_called hexecbg h
  · exact .printed (prints_of_eq hsched (by decide)) (out_printed h)
  · obtain ⟨line, -, h⟩ := mapError_bind_eq_ok.mp h
    exact .printed (prints_of_ne hwrite hread hexecbg) (print_printed h)

/-! ## Which of them it was -/

theorem Called.of_prints (hs : s.Prints) (h : Called stack s k k') : k.Printed k' := by
  cases h with
  | printed _ hprint => exact hprint
  | wrote hw => exact absurd hw hs.writes
  | missed hr => exact absurd hr hs.reads
  | fetched hr => exact absurd hr hs.reads
  | ran hr => exact absurd hr hs.runs

theorem Called.of_writes (hs : s.Writes) (h : Called stack s k k') : ∃ res rd,
    ramdiskFat16FileWrite stack (s.arg 1) (s.workingBuffer.add (s.cArgv 2))
        (UInt32.ofNat (s.arg 2).chars.length) k.rd = .ok (res, rd) ∧
      (k.setRd rd).Printed k' := by
  cases h with
  | printed hp => exact absurd hs hp.writes
  | wrote _ hwrite hprint => exact ⟨_, _, hwrite, hprint⟩
  | missed hr => exact absurd (hs.1.symm.trans hr.1) (by decide)
  | fetched hr => exact absurd (hs.1.symm.trans hr.1) (by decide)
  | ran hr => exact absurd (hs.1.symm.trans hr.1) (by decide)

theorem Called.of_runs (hs : s.Runs) (h : Called stack s k k') : ∃ k₁,
    Launched stack (s.arg 1) k k₁ ∧ k₁.Printed k' := by
  cases h with
  | printed hp => exact absurd hs hp.runs
  | wrote hw => exact absurd (hs.1.symm.trans hw.1) (by decide)
  | missed hr => exact absurd (hs.1.symm.trans hr.1) (by decide)
  | fetched hr => exact absurd (hs.1.symm.trans hr.1) (by decide)
  | ran _ hlaunched hprint => exact ⟨_, hlaunched, hprint⟩

/-- A read in two steps: the block, and what is done with it. -/
theorem Called.of_reads (hs : s.Reads) (h : Called stack s k k') : ∃ p heap n,
    malloc pmemAlloc 4096 k.heap = .ok (p, heap) ∧
      ramdiskFat16FileExists stack (s.arg 1) (k.setHeap heap).rd = .ok (n, (k.setHeap heap).rd) ∧
      if n = 0 then (k.setHeap heap).Printed k'
      else ∃ res rd heap',
        ramdiskFat16FileReadTo stack (s.arg 1) p 0 (k.setHeap heap).rd = .ok (res, rd) ∧
        free p ((k.setHeap heap).setRd rd).heap = .ok heap' ∧
        (((k.setHeap heap).setRd rd).setHeap heap').Printed k' := by
  cases h with
  | printed hp => exact absurd hs hp.reads
  | wrote hw => exact absurd (hs.1.symm.trans hw.1) (by decide)
  | missed _ hmalloc hfound hprint => exact ⟨_, _, 0, hmalloc, hfound, (if_pos rfl).mpr hprint⟩
  | fetched _ hmalloc hfound hn hread hfree hprint =>
    exact ⟨_, _, _, hmalloc, hfound, (if_neg hn).mpr ⟨_, _, _, hread, hfree, hprint⟩⟩
  | ran hr => exact absurd (hs.1.symm.trans hr.1) (by decide)

end Kernel

end KoizOs
