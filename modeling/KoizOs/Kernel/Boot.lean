import KoizOs.Kernel.Housing
import KoizOs.Kernel.Paging
import KoizOs.Kernel.Input
import KoizOs.Memory.SelfTest

/-!
# Boot

`kernel_init` from the end of `pmem_initialize` on, all of it in the memory of the pool.  The
page tables, the disk and process 0 take 2052 pages in order.

Left out are the devices and the self tests behind `pmem_run_tests`.  They give back the pages they
take, but the cursor of the pool has moved by then, and `malloc` keeps the pages of its slabs.
Interrupts are on already: a timer interrupt finds nothing typed and no process, and only counts,
which may as well happen when boot is over (`Booted.tick`).  No key is typed meanwhile.

| stage | takes |
|-------|-------|
| first message | the page of the standard output |
| `vmem_init` | the directory, 1024 tables |
| `ramdisk_fat16_init` | the pointer table, 1024 blocks |
| `process_init` | the page of the idle process |
-/

namespace KoizOs

open Function Lib

/-! ## Algorithm -/

def RamSys.ramdiskFat16Init (rest₁ rest₂ : Buffer) (sys : RamSys) : Kern RamSys :=
  if ramdiskFat16Bootrecord.getD 510 0 ≠ 0x55 ∨ ramdiskFat16Bootrecord.getD 511 0 ≠ 0xAA then
    panic "Invalid FAT16 magic number in bootloader!"
  else do
    let sys ← sys.ramdiskInit (UInt32.ofNat ramdiskFat16Size)
    let rd ← ramdiskFat16Format rest₁ rest₂ sys.rd
    return sys.setRd rd

/-- `file_contents`: the code, and the text it prints. -/
def testBin : List UInt8 :=
  [0x66, 0xbf, 0x1c, 0x00, 0x00, 0x00, 0x66, 0xb8, 0x01, 0x00, 0x00, 0x00, 0xcd, 0x33,
   0x66, 0xbf, 0x00, 0x00, 0x00, 0x00, 0x66, 0xb8, 0x02, 0x00, 0x00, 0x00, 0xcd, 0x33,
   0x48, 0x65, 0x6c, 0x6c, 0x6f, 0x20, 0x66, 0x72, 0x6f, 0x6d, 0x20, 0x74, 0x65, 0x73, 0x74, 0x20,
   0x70, 0x72, 0x6f, 0x67, 0x72, 0x61, 0x6d, 0x21, 0x0a, 0x00]

namespace Kernel

/-- The static variables before anything runs. -/
def zeroed (pm : Pmem) : Kernel where
  pmem := pm
  stdin := ⟨false, false, 0, 0, 0, 0, false⟩
  shell := ⟨fun _ => 0, fun _ => 0, 0, []⟩
  slabs _ := ⟨fun _ => ⟨0, 0⟩, 0, 0, 0, fun _ => 0, 0⟩
  ramdiskBlockSize := 0
  ramdiskBlockPointers := 0
  processes _ := default
  sched := .boot
  pitInterruptCount := 0
  out := []

def ram (k : Kernel) : RamSys := ⟨k.pmem, k.ramdiskBlockSize, k.ramdiskBlockPointers⟩

def setRam (k : Kernel) (sys : RamSys) : Kernel :=
  { k with
    pmem := sys.pm
    ramdiskBlockSize := sys.ramdiskBlockSize
    ramdiskBlockPointers := sys.ramdiskBlockPointers }

/-- The first message takes the page of the standard output. -/
def stdoutInit (k : Kernel) : Kern Kernel := do
  let (_, pm) ← pmemAlloc k.pmem
  return { k with pmem := pm }

def vmemInit (k : Kernel) : Except ReadFault (UInt32 × Kernel) := do
  let (dir, pm) ← (Pmem.vmemInit k.pmem).mapError .kern
  let k ← print { k with pmem := pm } "Paging Enabled for the entire kernel.\n" []
  return (dir, k)

def fsLoadStartingFiles (stack : Buffer) (k : Kernel) : Except ReadFault Kernel := do
  let (res, rd) ← (ramdiskFat16FileWrite stack (cstr "test.bin") (fun i => testBin.getD i 0)
    (UInt32.ofNat testBin.length) k.rd).mapError .kern
  if res ≠ 0 then .error (.kern (.panic "Failed to write starting file test.bin!"))
  else (k.setRd rd).print "Loaded starting files to disk!\n" []

/-- The processes and the scheduler. -/
def procs (k : Kernel) : ProcSys Pmem := ⟨k.processes, k.sched, k.pmem⟩

def setProcs (k : Kernel) (sys : ProcSys Pmem) : Kernel :=
  { k with processes := sys.processes, sched := sys.sched, pmem := sys.pages }

/-- `rest₁` and `rest₂` lie behind `starting_sectors`.  The page directory is returned with the
kernel. -/
def kernelInit (stack rest₁ rest₂ : Buffer) (k : Kernel) : Except ReadFault (UInt32 × Kernel) := do
  let k ← k.stdoutInit.mapError .kern
  (pmemRunTests k.pmem).mapError .kern
  let (dir, k) ← k.vmemInit
  let sys ← (k.ram.ramdiskFat16Init rest₁ rest₂).mapError .kern
  let k ← (k.setRam sys).fsLoadStartingFiles stack
  let sys ← (processSchedInit pmemAlloc k.processes k.pmem).mapError .kern
  let k ← (k.setProcs sys).print "kernel init complete\n" []
  return (dir, k)

def shellInit (k : Kernel) : Except ReadFault Kernel := do
  let k ← k.print "Koiz-OS v1.0 \n" []
  let k ← k.print "Number of commands: %d\n" [.int (UInt32.ofNat shellCmds.length)]
  k.shellPrintPrefix

/-- `kernel_main` up to user mode. -/
def boot (stack rest₁ rest₂ : Buffer) (k : Kernel) : Except ReadFault (UInt32 × Kernel) := do
  let (dir, k) ← k.kernelInit stack rest₁ rest₂
  let k ← k.shellInit
  return (dir, k)

end Kernel

/-! ## The disk -/

variable {pm pm' : Pmem} {sys sys' : RamSys} {q : UInt32} {c i n : Nat} {rest₁ rest₂ : Buffer}

theorem Pmem.Frontier.freePages (h : pm.Frontier c)
    (hroom : c + n < pm.pmemMgrReservedSize.toNat) : n ≤ pm.freePages := by
  have hlt := pm.pmemMgrReservedSize.toNat_lt
  have hnodup : ((List.range n).map fun j => UInt32.ofNat (c + 1 + j)).Nodup := by
    refine List.Nodup.map_on ?_ List.nodup_range
    intro a ha b hb hab
    rw [List.mem_range] at ha hb
    have := congrArg UInt32.toNat hab
    rw [UInt32.toNat_ofNat', UInt32.toNat_ofNat'] at this
    omega
  have hsub : ((List.range n).map fun j => UInt32.ofNat (c + 1 + j)) ⊆ pm.freeRecords := by
    intro e he
    obtain ⟨j, hj, rfl⟩ := List.mem_map.mp he
    rw [List.mem_range] at hj
    have hnat : (UInt32.ofNat (c + 1 + j)).toNat = c + 1 + j := by
      rw [UInt32.toNat_ofNat']
      omega
    have hin : UInt32.ofNat (c + 1 + j) < pm.pmemMgrReservedSize := by
      rw [UInt32.lt_iff_toNat_lt, hnat]
      omega
    exact Pmem.mem_freeRecords.mpr ⟨hin, h.clear _ hin (by omega)⟩
  have hle := (List.subperm_of_subset hnodup hsub).length_le
  rwa [List.length_map, List.length_range] at hle

theorem Pmem.Initialised.not_allocated_of_free (hi : pm.Initialised) (h : pm.Free q) :
    ¬ pm.Allocated q := by
  obtain ⟨e, he, rfl, hr⟩ := h
  rintro ⟨f, hf, heq, hr'⟩
  rw [hi.pageAddr_inj he hf heq] at hr
  exact hr' hr

/-- The same pool, and all allocated pages hold the same bytes. -/
structure Pmem.Keeps (pm pm' : Pmem) : Prop where
  grows : pm.Grows pm'
  same : ∀ q, pm.Allocated q → Mem.SamePage pm.mem pm'.mem q

theorem Pmem.Keeps.trans {pm₁ : Pmem} (h : pm.Keeps pm₁) (h' : pm₁.Keeps pm') : pm.Keeps pm' where
  grows := h.grows.trans h'.grows
  same q hq := (h.same q hq).trans (h'.same q (h.grows.allocated q hq))

/-- What follows may change pages that are new. -/
theorem Pmem.Keeps.trans' {pm₁ : Pmem} (h : pm.Keeps pm₁) (hgrows : pm₁.Grows pm')
    (hsame : ∀ q, pm.Allocated q → Mem.SamePage pm₁.mem pm'.mem q) : pm.Keeps pm' where
  grows := h.grows.trans hgrows
  same q hq := (h.same q hq).trans (hsame q hq)

theorem Pmem.Maps.keeps {d : UInt32} (h : pm.Maps d i) (hd : pm.Allocated d) (hi : i < 1024)
    (hk : pm.Keeps pm') : pm'.Maps d i :=
  h.grows hk.grows ((hk.same d hd).load32 hi) fun q hq _ => hk.same q hq

namespace RamSys

/-- The loop takes a page for each block, and stores on the page of the table. -/
theorem initLoop_open (h : sys.pm.Open c) (hroom : c + n < sys.pm.pmemMgrReservedSize.toNat)
    (ht : sys.pm.Allocated sys.ramdiskBlockPointers) (hi : i + n ≤ 1024)
    (hloop : initLoop n i sys = .ok sys') : sys'.pm.Open (c + n) ∧ sys.pm.Grows sys'.pm ∧
      ∀ q, sys.pm.Allocated q → q ≠ sys.ramdiskBlockPointers →
        Mem.SamePage sys.pm.mem sys'.pm.mem q := by
  induction n generalizing c i sys with
  | zero =>
    obtain rfl := Except.ok.inj hloop
    exact ⟨h, .refl h.sound.initialised, fun q _ _ => .refl _ q⟩
  | succ n ih =>
    obtain ⟨⟨page, pm⟩, halloc, hloop⟩ := bind_eq_ok.mp hloop
    obtain ⟨page', pm', halloc', -, hopen, hgrows, -, -, hsame⟩ := h.take (by omega)
    obtain ⟨rfl, rfl⟩ := Prod.mk.inj (Except.ok.inj (halloc'.symm.trans halloc))
    have hslot : Mem.SameOutside pm'.mem
        (pm'.mem.store32 (sys.rd.slot (UInt32.ofNat i)) page') sys.ramdiskBlockPointers := by
      rw [Ramdisk.slot_ofNat]
      exact store32_sameOutside _ _ _ (by omega)
    have ht' := hgrows.allocated _ ht
    obtain ⟨hgrows', hopen'⟩ := hopen.store (hopen.sound.inRoom_of_allocated ht') hslot
    have hsize := (hgrows.trans hgrows').layout.size
    have hroom' : c + 1 + n <
        ({ sys with pm := pm' }.setSlot i page').pm.pmemMgrReservedSize.toNat := by
      show _ < pm'.pmemMgrReservedSize.toNat
      rw [show pm'.pmemMgrReservedSize = _ from hsize]
      omega
    obtain ⟨hlast, hgrows'', hsame''⟩ := @ih
      ({ sys with pm := pm' }.setSlot i page') (c + 1) (i + 1) hopen' hroom'
      (hgrows'.allocated _ ht') (by omega) hloop
    refine ⟨?_, (hgrows.trans hgrows').trans hgrows'', ?_⟩
    · rwa [show c + (n + 1) = c + 1 + n by omega]
    · intro q hq hne
      have hq' := hgrows.allocated q hq
      have hstored := hslot.samePage (hopen.sound.allocated_aligned ht')
        (hopen.sound.allocated_aligned hq') hne
      exact ((hsame q hq).trans hstored).trans (hsame'' q (hgrows'.allocated q hq') hne)

/-- The disk is made on 1025 new pages, and formatted. -/
theorem ramdiskFat16Init_open (h : sys.pm.Open c)
    (hroom : c + 1025 < sys.pm.pmemMgrReservedSize.toNat) (hsize : sys.ramdiskBlockSize = 0)
    (hpointers : sys.ramdiskBlockPointers = 0) (rest₁ rest₂ : Buffer) :
    ∃ sys', sys.ramdiskFat16Init rest₁ rest₂ = .ok sys' ∧ sys'.pm.Open (c + 1025) ∧
      sys.pm.Keeps sys'.pm ∧ sys'.rd.Valid 1024 ∧
      (∃ img, sys'.rd.image = formatted rest₁ rest₂ img) ∧
      ∀ q, sys'.rd.Uses 1024 q → sys'.pm.Allocated q ∧ ¬ sys.pm.Allocated q := by
  have hi := h.sound.initialised
  have ha := h.sound.apart
  obtain ⟨sys₁, t, es, hinit, howned, hlen, hsize₁⟩ := ramdiskInit_returns (b := 1024) hi ha hsize
    hpointers (by decide) (by decide) (h.frontier.freePages hroom)
  have hv := howned.valid ha hlen hsize₁ (by decide)
  have howns := howned.owns hlen hsize₁
  -- the pages of the disk are new
  have huses : ∀ q, sys₁.rd.Uses 1024 q → q ∈ sys₁.pages := by
    rintro q (rfl | ⟨k, hk, rfl⟩)
    · exact List.mem_cons_self
    · refine List.mem_cons_of_mem _ (List.mem_map.mpr ⟨k, List.mem_range.mpr ?_, rfl⟩)
      rwa [hsize₁]
  have hnew : ∀ q, sys.pm.Allocated q → ¬ sys₁.rd.Uses 1024 q := fun q hq hu =>
    hi.not_allocated_of_free (howns.free q (huses q hu)) hq
  have hopen : sys₁.pm.Open (c + 1025) ∧ sys.pm.Keeps sys₁.pm := by
    have hmade := hinit
    unfold ramdiskInit at hmade
    dsimp only at hmade
    split_ifs at hmade
    iterate 5 exact absurd hmade (panic_ne_ok _ _)
    obtain ⟨⟨table, pm⟩, halloc, hloop⟩ := bind_eq_ok.mp hmade
    obtain ⟨table', pm', halloc', -, hopen, hgrows, htable, hnew', hsame⟩ := h.take (by omega)
    obtain ⟨rfl, rfl⟩ := Prod.mk.inj (Except.ok.inj (halloc'.symm.trans halloc))
    rw [toNat_ramdiskBlocks (b := 1024) (by decide)] at hloop
    obtain ⟨hlast, hgrows', hsame'⟩ := initLoop_open hopen (n := 1024) (i := 0)
      (by rw [hgrows.layout.size]; omega) htable (by decide) hloop
    refine ⟨hlast, hgrows.trans hgrows', fun q hq => (hsame q hq).trans ?_⟩
    refine hsame' q (hgrows.allocated q hq) ?_
    rintro rfl
    exact hnew' hq
  obtain ⟨hopen, hkeeps⟩ := hopen
  have hpages : ∀ q, sys₁.rd.Uses 1024 q → sys₁.pm.Allocated q := fun q hq =>
    (howns.allocated q).mpr (.inr (huses q hq))
  obtain ⟨rd, hformat, hv', himg⟩ := ramdiskFat16Format_spec hv rest₁ rest₂
  have hframe := ramdiskFat16Format_frame hv hformat
  have hgrows := hframe.grows hopen.sound rfl hpages
  refine ⟨sys₁.setRd rd, ?_, ⟨hopen.sound.grows hgrows, ?_⟩, hkeeps.trans' hgrows ?_, hv',
    ⟨_, himg⟩, ?_⟩
  · unfold RamSys.ramdiskFat16Init
    rw [if_neg bootrecord_magic]
    show (sys.ramdiskInit (UInt32.ofNat (1024 * 4096)) >>= _) = _
    rw [hinit, ok_bind, hformat]
    rfl
  · exact hopen.frontier.store fun f hf => hframe.records hopen.sound rfl hpages hf
  · intro q hq
    exact hframe.samePage hv (h.sound.allocated_aligned hq) (hnew q hq)
  · intro q hq
    have hq' := (hv.uses_congr hframe.pointers fun o ho => hframe.table hv ho).mp hq
    exact ⟨hgrows.allocated q (hpages q hq'), fun h => hnew q h hq'⟩

end RamSys

/-! ## The kernel that is up -/

/-- A pool in order passes the boot test. -/
theorem Pmem.Sound.runTests (h : pm.Sound) (hsize : 16 ≤ pm.pmemMgrReservedSize.toNat) :
    pmemRunTests pm = .ok () := by
  refine (pmemRunTests_iff h.initialised.size).mpr ⟨?_, hsize⟩
  have hal : pm.pmemAllocStart.toNat % 4096 = 0 := h.apart.aligned
  have htop := h.top
  rw [toNat_reservedSize h.initialised.size] at htop
  omega

namespace Kernel

variable {k k' : Kernel} {stack : Buffer} {dir : UInt32} {st : FileStore}

/-- The kernel with nothing typed yet: its pages are those up to record `c`, the page tables
from `dir` on and the disk among them. -/
structure Booted (st : FileStore) (c : Nat) (dir : UInt32) (k : Kernel) : Prop where
  quiet : k.shell.commandBufferPtr = 0 ∧ k.shell.executed = []
  counted : k.pitInterruptCount.toNat < 2 ^ 31
  stdin : k.stdin = ⟨false, false, 0, 0, 0, 0, false⟩
  slabs : k.slabs = fun _ => ⟨fun _ => ⟨0, 0⟩, 0, 0, 0, fun _ => 0, 0⟩
  opened : k.pmem.Open c
  directory : k.pmem.Allocated dir
  maps : ∀ i, i < 1024 → k.pmem.Maps dir i
  disk : FatOk k.rd
  uses : ∀ q, k.rd.Uses 1024 q → k.pmem.Allocated q
  apart : ∀ q, k.rd.Uses 1024 q → ¬ k.pmem.mem.Paging dir q
  files : k.rd.image.Represents st
  listed : ∃ ws, k.rd.image.Listed ws
  procs : ∃ ps pm, pm.Sound ∧ KoizOs.processSchedInit pmemAlloc ps pm = .ok k.procs

theorem print_returns (k : Kernel) (format : String) (args : List Arg)
    (hkinds : kinds (pieces (cstr format).chars) <+: args.map Arg.kind) :
    ∃ k', k.print format args = .ok k' ∧ k.Printed k' := by
  refine ⟨{ k with out := k.out ++ line format args }, ?_, rfl⟩
  unfold print
  rw [say_eq _ rfl hkinds]
  rfl

/-- The files of a new disk. -/
def startingFiles (clusters : Nat) : FileStore := ⟨[⟨cstr "test.bin", testBin⟩], clusters⟩

theorem write_testBin {n : Nat} (hn : n ≠ 0) :
    FileStore.write ⟨[], n⟩ (cstr "test.bin") testBin = startingFiles (n - 1) := by
  have hreadable : readable testBin = testBin := by decide
  have hnone : ¬ (FileStore.number ⟨[], n⟩ (cstr "test.bin") ≠ 0 ∨ n = 0) :=
    fun h => h.elim (fun h => h rfl) hn
  unfold FileStore.write
  rw [if_neg hnone, hreadable]
  rfl

/-- `fs_load_starting_files` on a new disk. -/
theorem fsLoadStartingFiles_returns (hv : k.rd.Valid 1024) {img : Image}
    (himg : k.rd.image = formatted rest₁ rest₂ img) : ∃ rd k',
      k.fsLoadStartingFiles stack = .ok k' ∧ (k.setRd rd).Printed k' ∧ k.rd.Frame 1024 rd ∧
      FatOk rd ∧ (∃ n, rd.image.Represents (startingFiles n)) ∧ ∃ ws, rd.image.Listed ws := by
  have hok : FatOk k.rd := ⟨hv, by rw [himg]; exact formatted_fatInv _ _ _⟩
  have hst : k.rd.image.Represents ⟨[], (formatted rest₁ rest₂ img).freeClusters⟩ := by
    rw [himg]
    exact formatted_represents _ _ _
  have hfile : k.rd.image.lookup (cstr "test.bin") = 0 := by
    rw [hst.lookup_eq]
    rfl
  have hfree : k.rd.image.freeCluster ≠ 0 := by
    rw [Ne, hst.freeCluster_eq_zero_iff hok.inv]
    exact formatted_freeClusters _ _ _
  obtain ⟨rd, hwrite⟩ := ramdiskFat16FileWrite_small stack (fun i => testBin.getD i 0) hv hfile
    hfree (show (UInt32.ofNat testBin.length).toNat ≤ 1024 by decide)
  have hstep : FatWrite.Step k.rd ⟨stack, cstr "test.bin", fun i => testBin.getD i 0,
    UInt32.ofNat testBin.length, 0⟩ rd := hwrite
  have hstored := hst.write (w := testBin) hok hstep
    (show testBin.length = (UInt32.ofNat testBin.length).toNat by decide)
    fun i hi => (List.getElem_eq_getD 0).symm
  rw [write_testBin (formatted_freeClusters rest₁ rest₂ img)] at hstored
  have hlisted : k.rd.image.Listed [] := by
    rw [himg]
    exact .formatted _ _ _
  obtain ⟨k', hprint, hprinted⟩ := (k.setRd rd).print_returns
    "Loaded starting files to disk!\n" [] (by decide)
  refine ⟨rd, k', ?_, hprinted, ramdiskFat16FileWrite_frame hv hwrite, hok.step hstep,
    ⟨_, hstored⟩, hok.listed_step hlisted hstep⟩
  unfold fsLoadStartingFiles
  rw [kern_bind hwrite]
  dsimp only
  rw [if_neg (by decide)]
  exact hprint

theorem stdoutInit_returns (h : k.pmem.Open c) (hroom : c + 1 < k.pmem.pmemMgrReservedSize.toNat) :
    ∃ pm, k.stdoutInit = .ok { k with pmem := pm } ∧ pm.Open (c + 1) ∧ k.pmem.Keeps pm := by
  obtain ⟨p, pm, halloc, -, hopen, hgrows, -, -, hsame⟩ := h.take hroom
  refine ⟨pm, ?_, hopen, hgrows, hsame⟩
  unfold stdoutInit
  rw [halloc]
  rfl

theorem vmemInit_returns (h : k.pmem.Open c)
    (hroom : c + 1025 < k.pmem.pmemMgrReservedSize.toNat) : ∃ dir pm k',
      k.vmemInit = .ok (dir, k') ∧ Printed { k with pmem := pm } k' ∧ pm.Open (c + 1025) ∧
      k.pmem.Grows pm ∧ pm.Allocated dir ∧ ∀ i, i < 1024 → pm.Maps dir i := by
  obtain ⟨dir, pm, hinit, hopen, hgrows, hdir, hmaps⟩ := h.vmemInit hroom
  obtain ⟨k', hprint, hprinted⟩ := print_returns { k with pmem := pm }
    "Paging Enabled for the entire kernel.\n" [] (by decide)
  refine ⟨dir, pm, k', ?_, hprinted, hopen, hgrows, hdir, hmaps⟩
  unfold vmemInit
  rw [kern_bind hinit]
  dsimp only
  rw [hprint]
  rfl

theorem processSchedInit_returns (h : pm.Open c) (hroom : c + 1 < pm.pmemMgrReservedSize.toNat)
    (ps : ProcessTable) : ∃ sys, KoizOs.processSchedInit pmemAlloc ps pm = .ok sys ∧
      sys.pages.Open (c + 1) ∧ pm.Keeps sys.pages := by
  obtain ⟨p, pm', halloc, -, hopen, hgrows, -, -, hsame⟩ := h.take hroom
  have hproc : processInitProcess pmemAlloc idleProcessName 0 (clearProcesses ps) pm = _ :=
    processInitProcess_eq idleProcessName (clearProcesses_spec ps (by decide)).2
  rw [halloc] at hproc
  have hinit : KoizOs.processSchedInit pmemAlloc ps pm =
      ((processInitProcess pmemAlloc idleProcessName 0 (clearProcesses ps) pm >>= fun r =>
        pure (update r.1 0 { r.1 0 with state := .runnable }, r.2)) >>= fun r =>
        pure ⟨r.1, schedInit Sched.boot, r.2⟩) := rfl
  rw [hproc] at hinit
  exact ⟨_, hinit, hopen, hgrows, hsame⟩

theorem Booted.printed (h : k.Booted st c dir) (hprint : k.Printed k') : k'.Booted st c dir := by
  rw [hprint]
  exact ⟨h.quiet, h.counted, h.stdin, h.slabs, h.opened, h.directory, h.maps, h.disk, h.uses,
    h.apart, h.files, h.listed, h.procs⟩

/-- Nothing but the timer looks at the counter. -/
theorem Booted.count (h : k.Booted st c dir) {count : UInt32} (hcount : count.toNat < 2 ^ 31) :
    Booted st c dir { k with pitInterruptCount := count } :=
  ⟨h.quiet, hcount, h.stdin, h.slabs, h.opened, h.directory, h.maps, h.disk, h.uses, h.apart,
    h.files, h.listed, h.procs⟩

/-- `kernel_init` returns. -/
theorem kernelInit_boots (h : pm.Open c) (hroom : c + 2052 < pm.pmemMgrReservedSize.toNat)
    (stack rest₁ rest₂ : Buffer) : ∃ dir k n,
      (zeroed pm).kernelInit stack rest₁ rest₂ = .ok (dir, k) ∧
      k.Booted (startingFiles n) (c + 2052) dir ∧ pm.Grows k.pmem := by
  obtain ⟨pm₁, hstdout, hopen₁, hkeeps₁⟩ := stdoutInit_returns (k := zeroed pm) h
    (show c + 1 < pm.pmemMgrReservedSize.toNat by omega)
  have hsize₁ : pm₁.pmemMgrReservedSize = pm.pmemMgrReservedSize := hkeeps₁.grows.layout.size
  have htests : pmemRunTests pm₁ = .ok () := hopen₁.sound.runTests (by rw [hsize₁]; omega)
  obtain ⟨dir, pm₂, k₂, hvmem, hk₂, hopen₂, hgrows₂, hdir, hmaps⟩ :=
    vmemInit_returns (k := { zeroed pm with pmem := pm₁ }) hopen₁
      (show c + 1 + 1025 < pm₁.pmemMgrReservedSize.toNat by rw [hsize₁]; omega)
  have hsize₂ : pm₂.pmemMgrReservedSize = pm.pmemMgrReservedSize :=
    hgrows₂.layout.size.trans hsize₁
  have hram : k₂.ram = ⟨pm₂, 0, 0⟩ := by
    rw [hk₂]
    rfl
  have hroom₃ : c + 1 + 1025 + 1025 < pm₂.pmemMgrReservedSize.toNat := by
    rw [hsize₂]
    omega
  obtain ⟨sys, hinit, hopen₃, hkeeps₃, hvalid, ⟨img, himg⟩, huses⟩ :=
    @RamSys.ramdiskFat16Init_open ⟨pm₂, 0, 0⟩ _ hopen₂ hroom₃ rfl rfl rest₁ rest₂
  obtain ⟨rd, k₄, hload, hk₄, hframe, hok, ⟨n, hst⟩, hlisted⟩ :=
    @fsLoadStartingFiles_returns _ _ (k₂.setRam sys) stack hvalid _ himg
  -- the file that is written is on the disk only
  have hpages : ∀ q, sys.rd.Uses 1024 q → sys.pm.Allocated q := fun q hq => (huses q hq).1
  have hgrows₄ := hframe.grows hopen₃.sound rfl hpages
  have hopen₄ : Pmem.Open { sys.pm with mem := rd.mem } (c + 1 + 1025 + 1025) :=
    ⟨hopen₃.sound.grows hgrows₄,
      hopen₃.frontier.store fun f hf => hframe.records hopen₃.sound rfl hpages hf⟩
  have hkeeps₄ : pm₂.Keeps { sys.pm with mem := rd.mem } := hkeeps₃.trans' hgrows₄ fun q hq =>
    hframe.samePage hvalid (hopen₂.sound.allocated_aligned hq) fun hu => (huses q hu).2 hq
  have hsize₄ : sys.pm.pmemMgrReservedSize = pm.pmemMgrReservedSize :=
    hkeeps₃.grows.layout.size.trans hsize₂
  have hpm₄ : k₄.pmem = { sys.pm with mem := rd.mem } := by
    rw [hk₄]
    rfl
  have hrd₄ : k₄.rd = rd := by
    rw [hk₄]
    rfl
  have hroom₄ : c + 1 + 1025 + 1025 + 1 < sys.pm.pmemMgrReservedSize.toNat := by
    rw [hsize₄]
    omega
  obtain ⟨procs, hprocs, hopen₅, hkeeps₅⟩ :=
    processSchedInit_returns hopen₄ hroom₄ k₄.processes
  have huses₄ : ∀ q, rd.Uses 1024 q → Pmem.Allocated { sys.pm with mem := rd.mem } q := by
    intro q hq
    refine hgrows₄.allocated q (hpages q ?_)
    exact (hvalid.uses_congr hframe.pointers fun o ho => hframe.table hvalid ho).mp hq
  have hdisk : Ramdisk.SameDisk 1024 rd (k₄.setProcs procs).rd := by
    refine Ramdisk.sameDisk_of_pages ?_ ?_ fun q hq => hkeeps₅.same q (huses₄ q hq)
    · rw [← hrd₄]
      rfl
    · rw [← hrd₄]
      rfl
  have himage := hdisk.image_eq hok.valid
  obtain ⟨k₆, hprint, hk₆⟩ := (k₄.setProcs procs).print_returns "kernel init complete\n" []
    (by decide)
  have hbooted : (k₄.setProcs procs).Booted (startingFiles n) (c + 2052) dir := by
    have hkeeps := hkeeps₄.trans hkeeps₅
    have huses₅ : ∀ q, (k₄.setProcs procs).rd.Uses 1024 q → rd.Uses 1024 q := fun q hq =>
      (hok.valid.uses_congr hdisk.pointers hdisk.table).mp hq
    refine ⟨?_, ?_, ?_, ?_, hopen₅, ?_, ?_, ⟨hdisk.valid hok.valid, ?_⟩, ?_, ?_, ?_, ?_, ?_⟩
    · rw [hk₄, hk₂]
      exact ⟨rfl, rfl⟩
    · rw [hk₄, hk₂]
      exact Nat.two_pow_pos 31
    · rw [hk₄, hk₂]
      rfl
    · rw [hk₄, hk₂]
      rfl
    · exact hkeeps.grows.allocated dir hdir
    · exact fun i hi => (hmaps i hi).keeps hdir hi hkeeps
    · rw [himage]
      exact hok.inv
    · exact fun q hq => hkeeps₅.grows.allocated q (huses₄ q (huses₅ q hq))
    · intro q hq hpaging
      refine (huses q ?_).2 (Pmem.Maps.allocated hopen₂.sound hdir hmaps
        ((hkeeps.same dir hdir).paging.mp hpaging))
      exact (hvalid.uses_congr hframe.pointers fun o ho => hframe.table hvalid ho).mp (huses₅ q hq)
    · rw [himage]
      exact hst
    · rw [himage]
      exact hlisted
    · exact ⟨_, _, hopen₄.sound, hprocs⟩
  have hgrows : pm.Grows k₆.pmem := by
    rw [hk₆]
    exact (hkeeps₁.grows.trans hgrows₂).trans (hkeeps₄.trans hkeeps₅).grows
  refine ⟨dir, k₆, _, ?_, hbooted.printed hk₆, hgrows⟩
  unfold kernelInit
  rw [kern_bind hstdout, kern_bind htests, bind_of_ok hvmem]
  dsimp only
  rw [hram, kern_bind hinit, bind_of_ok hload, hpm₄, kern_bind hprocs, bind_of_ok hprint]
  rfl

/-- **Boot.**  With 2052 free pages behind the cursor the kernel comes up. -/
theorem boot_returns (h : pm.Open c) (hroom : c + 2052 < pm.pmemMgrReservedSize.toNat)
    (stack rest₁ rest₂ : Buffer) : ∃ dir k n,
      (zeroed pm).boot stack rest₁ rest₂ = .ok (dir, k) ∧
      k.Booted (startingFiles n) (c + 2052) dir ∧ pm.Grows k.pmem := by
  obtain ⟨dir, k, n, hinit, hbooted, hgrows⟩ := kernelInit_boots h hroom stack rest₁ rest₂
  obtain ⟨k₁, hprint₁, hk₁⟩ := k.print_returns "Koiz-OS v1.0 \n" [] (by decide)
  obtain ⟨k₂, hprint₂, hk₂⟩ := k₁.print_returns "Number of commands: %d\n"
    [.int (UInt32.ofNat shellCmds.length)] (by decide)
  obtain ⟨k₃, hprint₃, hk₃⟩ := k₂.print_returns "shell# " [] (by decide)
  have hpmem : k₃.pmem = k.pmem := by
    rw [hk₃, hk₂, hk₁]
  refine ⟨dir, k₃, n, ?_, ((hbooted.printed hk₁).printed hk₂).printed hk₃, hpmem ▸ hgrows⟩
  unfold boot shellInit shellPrintPrefix
  rw [bind_of_ok hinit]
  dsimp only
  rw [bind_of_ok hprint₁, bind_of_ok hprint₂, bind_of_ok hprint₃]
  rfl

/-! ## What it is ready for -/

/-- The pages of the disk and of the page tables. -/
def Reserved (k : Kernel) (dir q : UInt32) : Prop := k.rd.Uses 1024 q ∨ k.pmem.mem.Paging dir q

namespace Booted

theorem settled (h : k.Booted st c dir) : k.Settled where
  ready := h.opened.sound.initialised.initialized
  idle := by
    rw [h.stdin]
    exact ⟨rfl, rfl, fun _ => rfl, fun hinit => nomatch hinit⟩

/-- A timer interrupt only counts, as long as no process is queued. -/
theorem tick (h : k.Booted st c dir) (hcount : k.pitInterruptCount + 1 ≠ 0x80000000)
    (stack : Buffer) :
    KernelStep k ⟨.timer, stack⟩ { k with pitInterruptCount := k.pitInterruptCount + 1 } := by
  obtain ⟨ps, pm, -, hinit⟩ := h.procs
  obtain ⟨r, -, hinit⟩ := bind_eq_ok.mp hinit
  have hsched : k.sched = schedInit Sched.boot :=
    (congrArg ProcSys.sched (Except.ok.inj hinit)).symm
  refine timer_returns h.settled.idle hcount ?_ stack
  rw [hsched]
  rfl

theorem noPages (h : k.Booted st c dir) : (k.slabs 0).currentPage = 0 := by
  rw [h.slabs]

theorem guarded (h : k.Booted st c dir) {q : UInt32} (hq : k.Reserved dir q) :
    k.pmem.Allocated q := by
  rcases hq with hq | hq
  · exact h.uses q hq
  · exact Pmem.Maps.allocated h.opened.sound h.directory h.maps hq

theorem housed (h : k.Booted st c dir) : k.Housed (k.Reserved dir) where
  sound := h.opened.sound
  guarded _ hq := h.guarded hq
  input hinit := by
    rw [h.stdin] at hinit
    cases hinit
  slab := by
    rw [h.slabs]
    exact boot_slabOk 0
  pages j hj := by
    rw [h.noPages] at hj
    exact absurd hj (Nat.not_lt_zero j)
  disk := h.disk
  uses _ hq := .inl hq

end Booted

end Kernel

end KoizOs
