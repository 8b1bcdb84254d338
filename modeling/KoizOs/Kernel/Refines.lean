import KoizOs.Kernel.Boot
import KoizOs.Kernel.Effects
import KoizOs.Process.Ownership

/-!
# The kernel refines its process system

Processes, scheduler and page pool as a system of their own (`PoolStep`) know nothing of keys,
files and blocks: pages are taken and memory is stored to by others.  `Pools`: an interrupt is a
run of that system.

| in the kernel | in the process system |
|---------------|-----------------------|
| the first key, a page for the largest slab | `alloc` |
| a key, `write`, `read`, the first sector of a program | `store` |
| `execbg f` | `call (execve f)` |
| the end of every interrupt | `call update` |
-/

namespace KoizOs

open Function Lib

/-! ## What an operation was -/

namespace PoolOp

/-- The page that was taken. -/
def page : PoolOp → Option UInt32
  | .alloc p => some p
  | _ => none

/-- The program that was called. -/
def program : PoolOp → Option CString
  | .call (.execve fileName _) => some fileName
  | _ => none

def update : PoolOp → Option Unit
  | .call .update => some ()
  | _ => none

def Frees (op : PoolOp) : Prop := ∃ p, op = .free p

end PoolOp

namespace Kernel

variable {k k' k₁ k₂ : Kernel} {ptr ptr' : List (ProcSys Pmem × PoolOp)} {pm : Pmem} {m : Mem}
  {stack : Buffer} {s : Split} {fileName : CString} {c : UInt8} {e : Event} {p page : UInt32}
  {G : UInt32 → Prop}

/-- The page of the standard input and those of the largest slab. -/
def held (k : Kernel) : List UInt32 :=
  (if k.stdin.isInit then [k.stdin.bAddr] else []) ++
    (List.range (k.slabs 0).currentPage).map (k.slabs 0).pages

/-- `k'` comes from `k` by operations of the process system.  The pages that were taken, but for
those of processes, are held by the standard input and the largest slab. -/
structure Pools (k : Kernel) (ptr : List (ProcSys Pmem × PoolOp)) (k' : Kernel) : Prop where
  run : Trace PoolStep k.procs ptr k'.procs
  kept : ∀ x ∈ ptr, ¬ x.2.Frees
  held : k'.held.Perm (k.held ++ visible PoolOp.page ptr)
  slab : SlabOk 0 (k'.slabs 0)

/-- Neither a program nor the scheduler is called. -/
def Silent (ptr : List (ProcSys Pmem × PoolOp)) : Prop :=
  visible PoolOp.program ptr = [] ∧ visible PoolOp.update ptr = []

namespace Pools

theorem trans (h : k.Pools ptr k₁) (h' : k₁.Pools ptr' k') : k.Pools (ptr ++ ptr') k' where
  run := h.run.append h'.run
  kept x hx := (List.mem_append.mp hx).elim (h.kept x) (h'.kept x)
  held := by
    rw [visible_append, ← List.append_assoc]
    exact h'.held.trans (h.held.append_right _)
  slab := h'.slab

theorem held_congr (hstdin : k'.stdin = k.stdin) (hslabs : k'.slabs = k.slabs) :
    k'.held = k.held := by
  unfold Kernel.held
  rw [hstdin, hslabs]

/-- Nothing of it changed. -/
theorem of_eq (hS : SlabOk 0 (k.slabs 0)) (hprocs : k'.procs = k.procs)
    (hstdin : k'.stdin = k.stdin) (hslabs : k'.slabs = k.slabs) : k.Pools [] k' where
  run := by
    rw [hprocs]
    exact .start
  kept x hx := absurd hx List.not_mem_nil
  held := by
    rw [held_congr hstdin hslabs, visible_nil, List.append_nil]
  slab := by rwa [hslabs]

theorem of_printed (hS : SlabOk 0 (k.slabs 0)) (h : k.Printed k') : k.Pools [] k' := by
  rw [h]
  exact .of_eq hS rfl rfl rfl

/-- One operation that takes no page but a process's. -/
theorem one {op : PoolOp} (hS : SlabOk 0 (k.slabs 0)) (hs : PoolStep k.procs op k'.procs)
    (hop : ¬ op.Frees) (hpage : op.page = none) (hheld : k'.held = k.held)
    (hslabs : k'.slabs = k.slabs) : k.Pools [(k.procs, op)] k' where
  run := Trace.start.next hs
  kept x hx := by
    obtain rfl := List.mem_singleton.mp hx
    exact hop
  held := by
    rw [hheld, ← List.nil_append [(k.procs, op)], visible_silent hpage, visible_nil,
      List.append_nil]
  slab := by rwa [hslabs]

/-- Stores that leave the records. -/
theorem store (hS : SlabOk 0 (k.slabs 0)) (hgrows : k'.pmem = { k.pmem with mem := m })
    (hm : ∀ f, f < k.pmem.pmemMgrReservedSize →
      m (k.pmem.recordPtr f) = k.pmem.mem (k.pmem.recordPtr f))
    (hps : k'.processes = k.processes) (hsched : k'.sched = k.sched) (hheld : k'.held = k.held)
    (hslabs : k'.slabs = k.slabs) : k.Pools [(k.procs, .store)] k' := by
  refine .one hS ?_ (fun ⟨_, h⟩ => nomatch h) rfl hheld hslabs
  have hprocs : k'.procs = { k.procs with pages := { k.procs.pages with mem := m } } := by
    unfold procs
    rw [hgrows, hps, hsched]
  rw [hprocs]
  exact .store hm

/-- A page is taken. -/
theorem alloc (halloc : pmemAlloc k.pmem = .ok (p, pm)) (hpm : k'.pmem = pm)
    (hps : k'.processes = k.processes) (hsched : k'.sched = k.sched)
    (hheld : k'.held.Perm (k.held ++ [p])) (hS : SlabOk 0 (k'.slabs 0)) :
    k.Pools [(k.procs, .alloc p)] k' where
  run := by
    have hprocs : k'.procs = { k.procs with pages := pm } := by
      unfold procs
      rw [hpm, hps, hsched]
    rw [hprocs]
    exact Trace.start.next (.alloc halloc)
  kept x hx := by
    obtain rfl := List.mem_singleton.mp hx
    exact fun ⟨_, h⟩ => nomatch h
  held := hheld
  slab := hS

/-- A block of the largest slab. -/
theorem malloc {heap : Heap Pmem} (hS : SlabOk 0 (k.slabs 0))
    (hmalloc : malloc pmemAlloc 4096 k.heap = .ok (p, heap)) :
    ∃ ptr, k.Pools ptr (k.setHeap heap) ∧ Silent ptr := by
  obtain ⟨hslab, -, ⟨hpmem, hcur, hpages⟩ | ⟨q, hq, hcur, hpages⟩⟩ :=
    malloc_largest (H := k.heap) hS hmalloc
  · have hheld : (k.setHeap heap).held = k.held := by
      show _ ++ (List.range (heap.slabs 0).currentPage).map (heap.slabs 0).pages = _
      rw [hcur, hpages]
      rfl
    refine ⟨[], ⟨?_, fun x hx => absurd hx List.not_mem_nil, ?_, hslab⟩, rfl, rfl⟩
    · have hprocs : (k.setHeap heap).procs = k.procs := by
        show ProcSys.mk k.processes k.sched heap.pmem = _
        rw [hpmem]
        rfl
      rw [hprocs]
      exact .start
    · rw [hheld, visible_nil, List.append_nil]
  · have hheld : (k.setHeap heap).held = k.held ++ [q] := by
      show _ ++ (List.range (heap.slabs 0).currentPage).map (heap.slabs 0).pages = _
      rw [hcur, hpages, List.range_succ, List.map_append, List.map_singleton, update_self]
      rw [Kernel.held, ← List.append_assoc]
      congr 2
      refine List.map_congr_left fun j hj => ?_
      rw [List.mem_range] at hj
      exact update_of_ne (Nat.ne_of_lt hj) _ _
    exact ⟨_, .alloc hq rfl rfl rfl (hheld ▸ .refl _) hslab, rfl, rfl⟩

/-- A block given back. -/
theorem free {heap : Heap Pmem} (hS : SlabOk 0 (k.slabs 0)) (hfree : free p k.heap = .ok heap) :
    k.Pools [] (k.setHeap heap) := by
  obtain ⟨hslab, hpmem, hcur, hpages⟩ := free_largest (H := k.heap) hS hfree
  have hprocs : (k.setHeap heap).procs = k.procs := by
    show ProcSys.mk k.processes k.sched heap.pmem = _
    rw [hpmem]
    rfl
  have hheld : (k.setHeap heap).held = k.held := by
    show _ ++ (List.range (heap.slabs 0).currentPage).map (heap.slabs 0).pages = _
    rw [hcur, hpages]
    rfl
  refine ⟨?_, fun x hx => absurd hx List.not_mem_nil, ?_, hslab⟩
  · rw [hprocs]
    exact .start
  · rw [hheld, visible_nil, List.append_nil]

/-- Stores on a page of the pool. -/
theorem store_on (hS : SlabOk 0 (k.slabs 0)) (hs : k.pmem.Sound) (hp : k.pmem.InRoom p)
    (hm : Mem.SameOutside k.pmem.mem m p) (hpmem : k'.pmem = { k.pmem with mem := m })
    (hps : k'.processes = k.processes) (hsched : k'.sched = k.sched) (hheld : k'.held = k.held)
    (hslabs : k'.slabs = k.slabs) : k.Pools [(k.procs, .store)] k' :=
  .store hS hpmem (fun _ hf => hm _ fun _ ho => hs.recordPtr_ne hf hp ho) hps hsched hheld hslabs

/-- A key. -/
theorem took (h : k.Housed G) (hidle : k.stdin.Idle) (hpage : k.InputPage page pm) :
    ∃ ptr, k.Pools ptr (k.took c page pm) ∧ Silent ptr := by
  have hhead : k.stdin.headPtr < 4096 := by
    cases hinit : k.stdin.isInit with
    | true => exact (hidle.ready hinit).2
    | false =>
      rw [hidle.raw hinit]
      decide
  have hstore (k₁ : Kernel) (hs : k₁.pmem.Sound) (hp : k₁.pmem.Allocated page)
      (hS : SlabOk 0 (k₁.slabs 0)) (hpmem : k₁.pmem = pm) (hps : k₁.processes = k.processes)
      (hsched : k₁.sched = k.sched) (hheld : k₁.held = (k.took c page pm).held)
      (hslabs : k₁.slabs = k.slabs) : k₁.Pools [(k₁.procs, .store)] (k.took c page pm) := by
    subst hpmem
    exact .store_on hS hs (hs.inRoom_of_allocated hp)
      (update_sameOutside k₁.pmem.mem page hhead c) rfl hps.symm hsched.symm hheld.symm hslabs.symm
  rcases hpage with ⟨hinit, rfl, rfl⟩ | ⟨hraw, halloc⟩
  · have hheld : k.held = (k.took c k.stdin.bAddr k.pmem).held := by
      unfold Kernel.held
      rw [hinit]
      rfl
    exact ⟨_, hstore k h.sound (h.input hinit).1 h.slab rfl rfl rfl hheld rfl, rfl, rfl⟩
  · obtain ⟨hgrows, hp, -, -⟩ := h.sound.alloc halloc
    have hheld : (k.took c page pm).held.Perm (k.held ++ [page]) := by
      have hbefore : k.held = (List.range (k.slabs 0).currentPage).map (k.slabs 0).pages := by
        unfold Kernel.held
        rw [hraw]
        rfl
      rw [hbefore]
      exact @List.perm_append_comm _ [page] _
    have hgot : k.Pools [(k.procs, .alloc page)]
        { k with pmem := pm, stdin := (k.took c page pm).stdin } :=
      .alloc halloc rfl rfl rfl hheld h.slab
    exact ⟨_, hgot.trans (hstore _ (h.sound.grows hgrows) hp h.slab rfl rfl rfl rfl rfl), rfl, rfl⟩

end Pools

/-! ## Commands -/

/-- A call of `process_execve` that came back. -/
theorem Pools.execve {fs : FsOutcome} {res : Int} (hS : SlabOk 0 (k.slabs 0))
    (hx : KoizOs.processExecve pmemAlloc fileName fs k.procs = .ok (res, k'.procs))
    (hheld : k'.held = k.held) (hslabs : k'.slabs = k.slabs) :
    k.Pools [(k.procs, .call (.execve fileName fs))] k' :=
  .one hS (.call ⟨res, hx⟩) (fun ⟨_, h⟩ => nomatch h) rfl hheld hslabs

theorem Launched.pools (h : k.Housed G) (hl : Launched stack fileName k k') :
    ∃ ptr, k.Pools ptr k' ∧ visible PoolOp.program ptr = [fileName] ∧
      visible PoolOp.update ptr = [] := by
  have hdenied {fs : FsOutcome} (hden : Denied fs k.procs) (hprint : k.Printed k') :
      ∃ ptr, k.Pools ptr k' ∧ visible PoolOp.program ptr = [fileName] ∧
        visible PoolOp.update ptr = [] := by
    have hx := @processExecve_denied _ pmemAlloc _ fileName _ hden
    rw [hprint]
    exact ⟨_, .execve h.slab hx rfl rfl, rfl, rfl⟩
  cases hl with
  | missing _ hprint => exact @hdenied ⟨0, 0⟩ (.inl rfl) hprint
  | full hfull hprint => exact @hdenied ⟨1, 0⟩ (.inr hfull) hprint
  | nowhere _ _ hslot _ =>
    obtain ⟨hkept, hpage, -⟩ := h.kept_alloc hslot.alloc
    exact absurd rfl (hkept.housed.sound.allocated_ne_zero hpage)
  | @started pid n page pm res rd hfound hn hslot hpage hread heq =>
    obtain ⟨hkept, hnew, hoff⟩ := h.kept_alloc hslot.alloc
    have hlookup := lookup_of_exists h hfound
    obtain ⟨-, himage, -⟩ := @Housed.fatOk_congr k { k with pmem := pm } G h rfl rfl hkept.same
    obtain ⟨-, hmem⟩ := hkept.housed.kept_readTo (hkept.housed.sound.inRoom_of_allocated hnew)
      hoff (by rwa [himage, hlookup]) hread
    have hden : ¬ Denied ⟨UInt32.ofNat n, res⟩ k.procs := by
      rintro (h0 | hfull)
      · have hlt : k.rd.image.lookup fileName < 32 := k.rd.image.lookup_lt fileName
        have hnat : (UInt32.ofNat n).toNat = 0 := congrArg UInt32.toNat h0
        rw [UInt32.toNat_ofNat', ← hlookup] at hnat
        omega
      · exact hslot.not_full hfull
    have hx := @processExecve_eq _ pmemAlloc _ fileName _ _ hden hslot.slot hslot.pos hslot.lt
      hslot.empty
    rw [show pmemAlloc k.procs.pages = .ok (page, pm) from hslot.alloc, ok_bind] at hx
    dsimp only at hx
    rw [if_neg hpage] at hx
    have hcalled : k.Pools _ { k with
        pmem := pm
        processes := update k.processes pid
          { ((k.processes pid).blank fileName).setMemory page with state := .runnable }
        sched := k.sched.enqueue pid } := .execve h.slab hx rfl rfl
    have hstored : Pools _ [_] k' := .store_on (m := rd.mem) h.slab
      (k := { k with
        pmem := pm
        processes := update k.processes pid
          { ((k.processes pid).blank fileName).setMemory page with state := .runnable }
        sched := k.sched.enqueue pid })
      hkept.housed.sound (hkept.housed.sound.inRoom_of_allocated hnew)
      (hmem ▸ storeBytes_sameOutside _ page (by decide) _) (by rw [heq]; rfl) (by rw [heq])
      (by rw [heq]) (by rw [heq]; rfl) (by rw [heq]; rfl)
    exact ⟨_, hcalled.trans hstored, rfl, rfl⟩

/-- One command. -/
theorem Called.pools (h : k.Housed G) (hclear : ∀ ptr k₁, k.Pools ptr k₁ → k₁.Clear G)
    (hcall : Called stack s k k') : ∃ ptr, k.Pools ptr k' ∧
      visible PoolOp.program ptr = s.command.program.toList ∧
      visible PoolOp.update ptr = [] := by
  cases hcall with
  | printed hs hprint =>
    refine ⟨_, .of_printed h.slab hprint, ?_, rfl⟩
    rw [Split.program_of_not_runs hs.runs]
    rfl
  | @wrote _ res rd hs hwrite hprint =>
    have hframe := ramdiskFat16FileWrite_frame h.disk.valid hwrite
    have hstored : k.Pools _ (k.setRd rd) := .store h.slab rfl
      (fun f hf => hframe.records h.sound rfl (fun q hq => h.guarded q (h.uses q hq)) hf)
      rfl rfl rfl rfl
    refine ⟨_, hstored.trans (.of_printed h.slab hprint), ?_, rfl⟩
    rw [Split.program_of_not_runs fun hx => absurd (hs.1.symm.trans hx.1) (by decide)]
    rfl
  | @missed _ p heap hs hmalloc _ hprint =>
    obtain ⟨ptr, hpools, hprogram, hupdate⟩ := Pools.malloc h.slab hmalloc
    refine ⟨ptr ++ [], hpools.trans (.of_printed hpools.slab hprint), ?_, ?_⟩
    · rw [List.append_nil, hprogram,
        Split.program_of_not_runs fun hx => absurd (hs.1.symm.trans hx.1) (by decide)]
      rfl
    · rw [List.append_nil, hupdate]
  | @fetched _ p n heap heap' res rd hs hmalloc hfound hn hread hfree hprint =>
    obtain ⟨ptr, hpools, hprogram, hupdate⟩ := Pools.malloc h.slab hmalloc
    obtain ⟨hkept, j, hj, hp⟩ := h.kept_malloc hmalloc
    have hfile : (k.setHeap heap).rd.image.lookup (s.arg 1) ≠ 0 := by
      rwa [lookup_of_exists hkept.housed hfound]
    have hroom : (k.setHeap heap).pmem.InRoom p := by
      rw [hp]
      exact hkept.housed.sound.inRoom_behind (hkept.housed.pages j hj)
    have hoff : ¬ G p := by
      rw [hp]
      exact hclear ptr _ hpools j hj
    obtain ⟨-, hmem⟩ := hkept.housed.kept_readTo hroom hoff hfile hread
    have hstored : (k.setHeap heap).Pools _ ((k.setHeap heap).setRd rd) :=
      .store_on (m := rd.mem) hpools.slab hkept.housed.sound hroom
        (hmem ▸ storeBytes_sameOutside _ p (by decide) _) rfl rfl rfl rfl rfl
    have hgiven := Pools.free hstored.slab hfree
    refine ⟨_, ((hpools.trans hstored).trans hgiven).trans (.of_printed hgiven.slab hprint), ?_, ?_⟩
    · rw [visible_append, visible_append, visible_append, hprogram,
        Split.program_of_not_runs fun hx => absurd (hs.1.symm.trans hx.1) (by decide)]
      rfl
    · rw [visible_append, visible_append, visible_append, hupdate]
      rfl
  | ran hs hlaunched hprint =>
    obtain ⟨ptr, hpools, hprogram, hupdate⟩ := hlaunched.pools h
    refine ⟨ptr ++ [], hpools.trans (.of_printed hpools.slab hprint), ?_, ?_⟩
    · rw [List.append_nil, hprogram, Split.program_of_runs hs]
      rfl
    · rw [List.append_nil, hupdate]

/-! ## Interrupts -/

theorem Pools.of_back (hS : SlabOk 0 (k.slabs 0)) (hb : k.SameBack k')
    (hsched : k'.sched = k.sched) : k.Pools [] k' := by
  refine .of_eq hS ?_ hb.stdin hb.slabs
  unfold procs
  rw [hb.processes, hsched, hb.pmem]

/-- The end of an interrupt. -/
theorem Pools.update {sched : Sched} (hS : SlabOk 0 (k.slabs 0))
    (hsched : schedUpdate k.sched = .ok sched) :
    k.Pools [(k.procs, .call .update)] { k with sched := sched } :=
  .one hS (.call ⟨sched, hsched, rfl⟩) (fun ⟨_, h⟩ => nomatch h) rfl rfl rfl

theorem Took.pools (h : k.Housed G) (hclear : ∀ ptr k₁, k.Pools ptr k₁ → k₁.Clear G)
    (htook : Took stack k c k') : ∃ ptr, k.Pools ptr k' ∧ visible PoolOp.update ptr = [] ∧
      ∃ cmds, k'.shell.executed = k.shell.executed ++ cmds ∧
        visible PoolOp.program ptr = cmds.filterMap Command.program := by
  cases htook with
  | @other _ sh _ hc hstore hprint =>
    refine ⟨[], .of_back h.slab ?_ ?_, rfl, [], ?_, rfl⟩
    · rw [hprint]
      exact ⟨rfl, rfl, rfl, rfl, rfl, rfl⟩
    · rw [hprint]
    · rw [hprint, List.append_nil]
      exact store_executed hstore
  | @line sh s out k₂ _ hstore hsplit hcall hprint =>
    have hready : k.Pools [] (k.ready sh s out) :=
      .of_back h.slab ⟨rfl, rfl, rfl, rfl, rfl, rfl⟩ rfl
    have hkept : Kept G k (k.ready sh s out) := h.kept_of_eq rfl rfl rfl rfl rfl
    obtain ⟨ptr, hpools, hprogram, hupdate⟩ :=
      hcall.pools hkept.housed fun ptr k₁ h₁ => hclear _ _ (hready.trans h₁)
    have hback : k₂.Pools [] k' := by
      refine .of_back hpools.slab ?_ ?_
      · rw [hprint]
        exact ⟨rfl, rfl, rfl, rfl, rfl, rfl⟩
      · rw [hprint]
    refine ⟨[] ++ ptr ++ [], (hready.trans hpools).trans hback, ?_, [s.command], ?_, ?_⟩
    · rw [List.append_nil]
      exact hupdate
    · rw [hprint]
      show k₂.shell.executed = _
      rw [hcall.sameFront.shell, ← store_executed hstore]
      rfl
    · rw [List.append_nil, List.filterMap_cons]
      refine hprogram.trans ?_
      cases s.command.program with
      | none => rfl
      | some fileName => rfl

/-- **An interrupt** is a run of the process system that ends in one update of the scheduler. -/
theorem step_pools (hset : k.Settled) (h : k.Housed G)
    (hclear : ∀ ptr k₁, k.Pools ptr k₁ → k₁.Clear G) (hs : KernelStep k e k') :
    ∃ ptr, k.Pools ptr k' ∧ visible PoolOp.update ptr = [()] ∧
      ∃ cmds, k'.shell.executed = k.shell.executed ++ cmds ∧
        visible PoolOp.program ptr = cmds.filterMap Command.program := by
  cases handle_serviced hset.ready hset.idle hs with
  | @quiet count sched _ _ hsched =>
    have hticked : k.Pools [] { k with pitInterruptCount := count } :=
      .of_back h.slab ⟨rfl, rfl, rfl, rfl, rfl, rfl⟩ rfl
    exact ⟨_, hticked.trans (.update h.slab hsched), rfl, [], (List.append_nil _).symm, rfl⟩
  | @typed c page pm k₁ sched _ _ _ hpage htook hsched =>
    obtain ⟨ptr, htyped, hprogram, hupdate⟩ := Pools.took (c := c) h hset.idle hpage
    have hkept := h.kept_took (c := c) hset.idle hpage
    obtain ⟨ptr', hpools, hupdate', cmds, hexec, hprogram'⟩ :=
      htook.pools hkept.housed fun ptr' k₂ h₂ => hclear _ _ (htyped.trans h₂)
    refine ⟨_, (htyped.trans hpools).trans (.update hpools.slab hsched), ?_, cmds, hexec, ?_⟩
    · rw [visible_append, visible_append, hupdate, hupdate']
      rfl
    · rw [visible_append, visible_append, hprogram, hprogram']
      exact List.append_nil _

end Kernel

end KoizOs
