import KoizOs.Kernel.Files
import KoizOs.Kernel.Room

/-!
# From power on

`Up dir k₀`: `k₀` is what boot makes of a pool of more than 2218 pages, 2052 of which it takes.
The other 166 are more than any run of interrupts can take.

    power on, boot (`kernel_boots`), then a run of interrupts from `k₀`

No key is typed during boot.  How often the timer has ticked meanwhile is left open.
-/

namespace KoizOs

open Function Lib

variable {mbd : Option MultibootInfo} {S L K dir : UInt32} {m : Mem} {pm : Pmem}
  {stack rest₁ rest₂ : Buffer} {k₀ k : Kernel} {tr : List (Kernel × Event)}

/-! ## Processes -/

namespace Kernel.Booted

variable {st : FileStore} {c i : Nat}

theorem ownership (h : k₀.Booted st c dir) : Ownership k₀.procs := by
  obtain ⟨ps, pm, hs, hinit⟩ := h.procs
  obtain ⟨-, -, page, halloc, howned⟩ := processSchedInit_slotsOwn hs.initialised hinit
  obtain ⟨hgrows, hpage, -, -⟩ := hs.alloc halloc
  exact howned ((hs.grows hgrows).allocated_ne_zero hpage)

/-- The idle process is the only one. -/
theorem unused (h : k₀.Booted st c dir) (h1 : 1 ≤ i) (hi : i < maxProcesses) :
    (k₀.processes i).state = .unused := by
  obtain ⟨ps, pm, -, hinit⟩ := h.procs
  obtain ⟨⟨ps', pages⟩, hproc, hinit⟩ := bind_eq_ok.mp hinit
  obtain ⟨p, -, -, rfl⟩ := processInit_cases hproc
  have hps : k₀.processes = update (clearProcesses ps) 0 p :=
    (congrArg ProcSys.processes (Except.ok.inj hinit)).symm
  rw [hps, update_of_ne (by omega)]
  exact (clearProcesses_spec ps hi).1

end Kernel.Booted

/-! ## Power on -/

/-- The pool is set up from the memory map, in a region below 4 GiB with room for the records. -/
structure PowerOn (mbd : Option MultibootInfo) (K : UInt32) (m : Mem) (pm : Pmem) : Prop where
  region : ∃ S L, pmemSelect mbd K m = .ok (S, L) ∧ ¬ NoRoom S L K ∧ S.toNat + L.toNat < 2 ^ 32
  made : pmemInitialize mbd K (.boot m) = .ok pm
  size : 2218 < pm.pmemMgrReservedSize.toNat

/-- No page is taken yet. -/
theorem PowerOn.opened (h : PowerOn mbd K m pm) : pm.Open 0 := by
  obtain ⟨S, L, hsel, hroom, hregion⟩ := h.region
  have hsetup := h.made
  rw [pmemInitialize_eq hsel] at hsetup
  have hlay := pmemSetUp_layout hroom (Nat.le_of_lt hregion) hsetup
  refine ⟨⟨pmemSetUp_initialised rfl hsetup, hlay.apart (Nat.le_of_lt hregion), ?_⟩, ?_, ?_⟩
  · exact Nat.lt_of_le_of_lt hlay.inside.2 hregion
  · obtain ⟨M, l, -, -, -, -, rfl⟩ := pmemSetUp_cases hsetup
    rfl
  · exact fun e he _ => hlay.cleared e he

/-- The kernel when boot is over, with the ticks of the timer until then. -/
inductive Up (dir : UInt32) : Kernel → Prop
  | boot {mbd : Option MultibootInfo} {K : UInt32} {m : Mem} {pm : Pmem}
      {stack rest₁ rest₂ : Buffer} {k : Kernel} {count : UInt32} : PowerOn mbd K m pm →
      (Kernel.zeroed pm).boot stack rest₁ rest₂ = .ok (dir, k) → count.toNat < 2 ^ 31 →
      Up dir { k with pitInterruptCount := count }

namespace Up

/-- The kernel that is up has its files, and room. -/
theorem booted (h : Up dir k₀) : ∃ n, k₀.Booted (Kernel.startingFiles n) 2052 dir ∧
    2052 + 166 < k₀.pmem.pmemMgrReservedSize.toNat := by
  cases h with
  | @boot mbd K m pm stack rest₁ rest₂ k count hon hboot hcount =>
    have hsize := hon.size
    obtain ⟨dir', k', n, hboot', hbooted, hgrows⟩ :=
      Kernel.boot_returns hon.opened (by omega) stack rest₁ rest₂
    obtain ⟨rfl, rfl⟩ := Prod.mk.inj (Except.ok.inj (hboot'.symm.trans hboot))
    rw [Nat.zero_add] at hbooted
    refine ⟨n, hbooted.count hcount, ?_⟩
    show 2052 + 166 < k'.pmem.pmemMgrReservedSize.toNat
    rw [hgrows.layout.size]
    exact hsize

/-- What was typed is taken. -/
theorem taking (h : Up dir k₀) (hrun : Trace KernelStep k₀ tr k) : Kernel.Taking k₀ tr k := by
  obtain ⟨n, hbooted, -⟩ := h.booted
  exact Kernel.taking_run hbooted.settled hbooted.quiet.1 hrun

/-- What a run of the kernel that is up is to the process system. -/
theorem pools (h : Up dir k₀) (hrun : Trace KernelStep k₀ tr k) : ∃ ptr, k₀.Pools ptr k ∧
    (visible PoolOp.update ptr).length = tr.length ∧
    (∃ cmds, k.shell.executed = k₀.shell.executed ++ cmds ∧
      visible PoolOp.program ptr = cmds.filterMap Command.program) ∧
    ∃ n, Onward k₀.procs 2052 ptr n k.procs := by
  obtain ⟨n, hbooted, hroom⟩ := h.booted
  obtain ⟨ptr, hp, hcount, hcmds⟩ := Kernel.run_pools hbooted.settled hbooted.housed
    (fun _ _ hp => hbooted.clear hroom hp) hrun
  exact ⟨ptr, hp, hcount, hcmds, hbooted.onward hroom hp⟩

theorem clear (h : Up dir k₀) (hrun : Trace KernelStep k₀ tr k) : k.Clear (k₀.Reserved dir) := by
  obtain ⟨n, hbooted, hroom⟩ := h.booted
  obtain ⟨ptr, hp, -⟩ := h.pools hrun
  exact hbooted.clear hroom hp

/-- The pages of boot are guarded. -/
theorem guards (h : Up dir k₀) (hrun : Trace KernelStep k₀ tr k) :
    k₀.Guards (k₀.Reserved dir) k := by
  obtain ⟨n, hbooted, -⟩ := h.booted
  exact Kernel.run_guards hbooted.settled hbooted.housed hrun (h.clear hrun)

theorem represents (h : Up dir k₀) : ∃ n, k₀.rd.image.Represents (Kernel.startingFiles n) ∧
    ∀ tr k, Trace KernelStep k₀ tr k → k.rd.image.Represents
      ((Kernel.startingFiles n).run ((lines newline (typed tr)).map tokenize)) := by
  obtain ⟨n, hbooted, -⟩ := h.booted
  exact ⟨n, hbooted.files, fun tr k hrun => Kernel.files_run hbooted.settled hbooted.quiet.1
    hbooted.housed hbooted.files hrun (h.clear hrun)⟩

/-- Every address is mapped to itself. -/
theorem translates (h : Up dir k₀) (hrun : Trace KernelStep k₀ tr k) (v : UInt32) :
    vmemGetPhysAddr k.pmem.mem dir v = .ok v := by
  obtain ⟨n, hbooted, -⟩ := h.booted
  exact Pmem.Maps.translates hbooted.opened.sound hbooted.directory hbooted.maps
    (fun q hq => (h.guards hrun).same q (.inr hq) fun hu => hbooted.apart q hu hq) v

/-- The timer has counted. -/
theorem count (h : Up dir k₀) (hrun : Trace KernelStep k₀ tr k) :
    k.pitInterruptCount.toNat = k₀.pitInterruptCount.toNat + ticks tr ∧
      k.pitInterruptCount.toNat < 2 ^ 31 := by
  obtain ⟨n, hbooted, -⟩ := h.booted
  exact Kernel.count_run hbooted.settled hbooted.counted hrun

end Up

/-! ## Boot -/

/-- **Boot.**  A pool of more than 2218 pages is enough for the kernel to come up when no key is
typed: every address is mapped to itself, the disk is in order and has its one file, the idle
process has its page, and the pages behind the 2052nd are free. -/
theorem kernel_boots (hon : PowerOn mbd K m pm) (stack rest₁ rest₂ : Buffer) : ∃ dir k n,
    (Kernel.zeroed pm).boot stack rest₁ rest₂ = .ok (dir, k) ∧
    (∀ v, vmemGetPhysAddr k.pmem.mem dir v = .ok v) ∧
    FatOk k.rd ∧ k.rd.image.Represents (Kernel.startingFiles n) ∧
    Ownership k.procs ∧
    ∀ e, e < k.pmem.pmemMgrReservedSize → 2052 < e.toNat → k.pmem.record e = 0 := by
  have hsize := hon.size
  obtain ⟨dir, k, n, hboot, hbooted, hgrows⟩ :=
    Kernel.boot_returns hon.opened (by omega) stack rest₁ rest₂
  have hup : Up dir k := .boot hon hboot hbooted.counted
  refine ⟨dir, k, n, hboot, hup.translates .start, hbooted.disk, hbooted.files,
    hbooted.ownership, ?_⟩
  have hfrontier := hbooted.opened.frontier
  rw [Nat.zero_add] at hfrontier
  exact hfrontier.clear

/-- 16 MiB from 1 MiB on. -/
theorem powerOn_16MiB : ∃ pm, PowerOn (some ⟨0x40, 24, 0x9000⟩) 0x200000
    (wordsAt9000 [20, 0x100000, 0, 0x1000000, 0, 1]) pm := by
  obtain ⟨pm, hinit, hsize⟩ : ∃ pm,
      pmemInitialize (some ⟨0x40, 24, 0x9000⟩) 0x200000
        (.boot (wordsAt9000 [20, 0x100000, 0, 0x1000000, 0, 1])) = .ok pm ∧
      pm.pmemMgrReservedSize = 3839 := ⟨_, rfl, rfl⟩
  refine ⟨pm, ⟨0x100000, 0x1000000, rfl, by decide, by decide⟩, hinit, ?_⟩
  rw [hsize]
  decide

/-- The timer has ticked 18 times when boot is over. -/
theorem up_16MiB : ∃ dir k₀, Up dir k₀ ∧ k₀.pitInterruptCount = 18 := by
  obtain ⟨pm, hon⟩ := powerOn_16MiB
  have hsize := hon.size
  obtain ⟨dir, k₀, n, hboot, -⟩ := Kernel.boot_returns hon.opened (by omega) (fun _ => 0)
    (fun _ => 0) fun _ => 0
  exact ⟨dir, _, .boot hon hboot (show (18 : UInt32).toNat < 2 ^ 31 by decide), rfl⟩

theorem kernel_boots_16MiB : ∃ pm dir k,
    pmemInitialize (some ⟨0x40, 24, 0x9000⟩) 0x200000
      (.boot (wordsAt9000 [20, 0x100000, 0, 0x1000000, 0, 1])) = .ok pm ∧
    (Kernel.zeroed pm).boot (fun _ => 0) (fun _ => 0) (fun _ => 0) = .ok (dir, k) ∧
    vmemGetPhysAddr k.pmem.mem dir 0xB8000 = .ok 0xB8000 := by
  obtain ⟨pm, hon⟩ := powerOn_16MiB
  obtain ⟨dir, k, n, hboot, hmaps, -⟩ := kernel_boots hon (fun _ => 0) (fun _ => 0) fun _ => 0
  exact ⟨pm, dir, k, hon.made, hboot, hmaps 0xB8000⟩

end KoizOs
