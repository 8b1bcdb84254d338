import KoizOs.Kernel.Housing
import KoizOs.Kernel.Input

/-!
# What an interrupt does to pages

| result | content |
|--------|---------|
| `Called.did` | a command keeps the pages of `G`; a `write` keeps those that are not the disk's |
| `step_stepped` | so does an interrupt |
| `run_slabGrows` | the largest slab never gives a page back |
| `run_guards` | what a run keeps of `G` |

Where a `read` may store is told by `Clear G`, of the state behind the step.
-/

namespace KoizOs

open Function Lib

namespace Kernel

variable {k k' k₁ : Kernel} {stack : Buffer} {s : Split} {fileName : CString} {c : UInt8}
  {e : Event} {page p q : UInt32} {pm : Pmem} {G : UInt32 → Prop}

/-! ## Files -/

theorem lookup_of_exists {n : Nat} (h : k.Housed G)
    (hfound : ramdiskFat16FileExists stack fileName k.rd = .ok (n, k.rd)) :
    k.rd.image.lookup fileName = n := by
  rw [ramdiskFat16FileExists_eq h.disk.valid] at hfound
  exact (Prod.mk.inj (Except.ok.inj hfound)).1

namespace Housed

/-- A sector of a file, read to a page that is not one of `G`. -/
theorem kept_readTo {res : Int} {rd : Ramdisk} (h : k.Housed G) (hp : k.pmem.InRoom p)
    (hoff : ¬ G p) (hfile : k.rd.image.lookup fileName ≠ 0)
    (hread : ramdiskFat16FileReadTo stack fileName p 0 k.rd = .ok (res, rd)) :
    Kept G k (k.setRd rd) ∧
      rd.mem =
        k.pmem.mem.storeBytes p 512 (k.rd.image.sector (k.rd.image.headCluster fileName)) := by
  obtain ⟨hlt, -⟩ := h.disk.inv.headCluster_spec hfile
  have hdisk := (h.disk.valid.off (h.sound.aligned hp) fun hq => hoff (h.uses p hq)).mono
    (show 512 ≤ 4096 by decide)
  rw [ramdiskFat16FileReadTo_eq h.disk.valid hfile hlt hdisk] at hread
  obtain ⟨-, rfl⟩ := Prod.mk.inj (Except.ok.inj hread)
  exact ⟨h.kept_store hp hoff (storeBytes_sameOutside _ p (by decide) _), rfl⟩

/-- A file is written: that changes no page but the disk's. -/
theorem write {x : FatWrite} {rd : Ramdisk} (h : k.Housed G) (hw : x.Step k.rd rd) :
    (k.setRd rd).Housed G ∧ k.pmem.Grows (k.setRd rd).pmem ∧
      ∀ q, G q → ¬ k.rd.Uses 1024 q → Mem.SamePage k.pmem.mem (k.setRd rd).pmem.mem q := by
  have hframe := ramdiskFat16FileWrite_frame h.disk.valid hw
  have hgrows := hframe.grows h.sound rfl fun q hq => h.guarded q (h.uses q hq)
  have huses : ∀ q, rd.Uses 1024 q ↔ k.rd.Uses 1024 q := fun q =>
    h.disk.valid.uses_congr hframe.pointers fun o ho => hframe.table h.disk.valid ho
  refine ⟨⟨h.sound.grows hgrows, ?_, ?_, h.slab, ?_, h.disk.step hw, ?_⟩, hgrows, ?_⟩
  · exact fun q hq => hgrows.allocated q (h.guarded q hq)
  · exact fun hinit => ⟨hgrows.allocated _ (h.input hinit).1, (h.input hinit).2⟩
  · exact fun j hj => hgrows.allocated _ (h.pages j hj)
  · exact fun q hq => h.uses q ((huses q).mp hq)
  · exact fun q hq hoff => hframe.samePage h.disk.valid (h.aligned hq) hoff

end Housed

/-! ## Commands -/

/-- What came of `execbg`. -/
inductive Placed (fileName : CString) (k k' : Kernel) : Prop
  | refused : (k.rd.image.lookup fileName = 0 ∨ processGetNextFreePid k.processes ≤ 0) →
      k'.processes = k.processes → Placed fileName k k'
  | placed {pid : Nat} {page : UInt32} {pm : Pmem} : k.rd.image.lookup fileName ≠ 0 →
      k.TakesSlot pid page pm → k'.pmem.Allocated page → ¬ k.pmem.Allocated page →
      k'.processes = update k.processes pid
        { ((k.processes pid).blank fileName).setMemory page with state := .runnable } →
      (∀ i, i < 512 → k'.pmem.mem (page + UInt32.ofNat i) =
        k.rd.image.sector (k.rd.image.headCluster fileName) i) → Placed fileName k k'

theorem Launched.kept (h : k.Housed G) (hl : Launched stack fileName k k') :
    Kept G k k' ∧ Placed fileName k k' := by
  cases hl with
  | missing hfound hprint =>
    refine ⟨h.kept_printed hprint, .refused (.inl (lookup_of_exists h hfound)) ?_⟩
    rw [hprint]
  | full hfull hprint =>
    refine ⟨h.kept_printed hprint, .refused (.inr hfull) ?_⟩
    rw [hprint]
  | nowhere _ _ hslot _ =>
    obtain ⟨hkept, hpage, -⟩ := h.kept_alloc hslot.alloc
    exact absurd rfl (hkept.housed.sound.allocated_ne_zero hpage)
  | @started pid n page pm res rd hfound hn hslot _ hread heq =>
    obtain ⟨hkept, hpage, hoff⟩ := h.kept_alloc hslot.alloc
    have hfile : k.rd.image.lookup fileName ≠ 0 := by rwa [lookup_of_exists h hfound]
    obtain ⟨-, himage, -⟩ := @Housed.fatOk_congr k { k with pmem := pm } G h rfl rfl hkept.same
    obtain ⟨hkept', hmem⟩ := hkept.housed.kept_readTo (hkept.housed.sound.inRoom_of_allocated hpage)
      hoff (by rwa [himage]) hread
    have hlast : Kept G ({ k with pmem := pm }.setRd rd) k' := by
      rw [heq]
      exact hkept'.housed.kept_of_eq rfl rfl rfl rfl rfl
    have hpmem : k'.pmem = ({ k with pmem := pm }.setRd rd).pmem := by rw [heq]
    have hprocesses : k'.processes = update k.processes pid
        { ((k.processes pid).blank fileName).setMemory page with state := .runnable } := by
      rw [heq]
    refine ⟨(hkept.trans hkept').trans hlast, .placed hfile hslot ?_ ?_ hprocesses fun i hi => ?_⟩
    · exact hlast.grows.allocated _ (hkept'.grows.allocated _ hpage)
    · exact (h.sound.alloc hslot.alloc).2.2.1
    · show k'.pmem.mem _ = _
      rw [hpmem]
      show rd.mem _ = _
      rw [hmem, Mem.storeBytes_apply hi (by decide), himage]

/-- What the command of a line did. -/
inductive Did (G : UInt32 → Prop) (s : Split) (k k' : Kernel) : Prop
  | kept : ¬ s.Writes → ¬ s.Runs → Kept G k k' → k'.processes = k.processes → Did G s k k'
  | wrote {x : FatWrite} : s.Writes → x.fileName = s.arg 1 →
      x.data = s.workingBuffer.add (s.cArgv 2) →
      x.dataSize = UInt32.ofNat (s.arg 2).chars.length → x.Step k.rd k'.rd → k'.Housed G →
      k.pmem.Grows k'.pmem →
      (∀ q, G q → ¬ k.rd.Uses 1024 q → Mem.SamePage k.pmem.mem k'.pmem.mem q) →
      k'.processes = k.processes → Did G s k k'
  | ran : s.Runs → Kept G k k' → k'.stdin = k.stdin → Placed (s.arg 1) k k' → Did G s k k'

theorem Called.did (h : k.Housed G) (hcall : Called stack s k k') (hclear : k'.Clear G) :
    Did G s k k' := by
  cases hcall with
  | printed hs hprint =>
    refine .kept hs.writes hs.runs (h.kept_printed hprint) ?_
    rw [hprint]
  | @wrote _ res rd hs hwrite hprint =>
    have hstep : FatWrite.Step k.rd ⟨stack, s.arg 1, s.workingBuffer.add (s.cArgv 2),
        UInt32.ofNat (s.arg 2).chars.length, res⟩ rd := hwrite
    obtain ⟨hhoused, hgrows, hsame⟩ := h.write hstep
    have hprinted := hhoused.kept_printed hprint
    rw [hprint] at hprinted ⊢
    exact .wrote hs rfl rfl rfl hstep hprinted.housed (hgrows.trans hprinted.grows) hsame rfl
  | missed hs hmalloc _ hprint =>
    obtain ⟨hkept, -⟩ := h.kept_malloc hmalloc
    have hprinted := hkept.housed.kept_printed hprint
    refine .kept (fun hw => absurd (hs.1.symm.trans hw.1) (by decide))
      (fun hx => absurd (hs.1.symm.trans hx.1) (by decide)) (hkept.trans hprinted) ?_
    rw [hprint]
    rfl
  | @fetched _ p n heap heap' res rd hs hmalloc hfound hn hread hfree hprint =>
    obtain ⟨hkept, j, hj, hp⟩ := h.kept_malloc hmalloc
    have hfile : (k.setHeap heap).rd.image.lookup (s.arg 1) ≠ 0 := by
      rwa [lookup_of_exists hkept.housed hfound]
    have hroom : (k.setHeap heap).pmem.InRoom p := by
      rw [hp]
      exact hkept.housed.sound.inRoom_behind (hkept.housed.pages j hj)
    obtain ⟨-, -, hcur, hpages⟩ := free_largest
      (H := ((k.setHeap heap).setRd rd).heap) hkept.housed.slab hfree
    have hslabs : k'.slabs = heap'.slabs := by
      rw [hprint]
      rfl
    have hoff : ¬ G p := by
      have hbehind := hclear j
      rw [hslabs, hcur, hpages] at hbehind
      rw [hp]
      exact hbehind hj
    obtain ⟨hkept', -⟩ := hkept.housed.kept_readTo hroom hoff hfile hread
    obtain ⟨hkept'', -⟩ := hkept'.housed.kept_free hfree
    have hprinted := hkept''.housed.kept_printed hprint
    refine .kept (fun hw => absurd (hs.1.symm.trans hw.1) (by decide))
      (fun hx => absurd (hs.1.symm.trans hx.1) (by decide))
      (((hkept.trans hkept').trans hkept'').trans hprinted) ?_
    rw [hprint]
    rfl
  | ran hs hlaunched hprint =>
    have hstdin := (hlaunched.sameFront.trans hprint.sameFront).stdin
    obtain ⟨hkept, hplaced⟩ := hlaunched.kept h
    have hprinted := hkept.housed.kept_printed hprint
    refine .ran hs (hkept.trans hprinted) hstdin ?_
    rw [hprint]
    cases hplaced with
    | refused hno hsame => exact .refused hno hsame
    | placed hfile hslot hpage hnew hprocesses hmem =>
      exact .placed hfile hslot hpage hnew hprocesses hmem

/-! ## Keys -/

/-- The same but for the shell, the scheduler, the timer and the output. -/
structure SameBack (k k' : Kernel) : Prop where
  pmem : k'.pmem = k.pmem
  stdin : k'.stdin = k.stdin
  slabs : k'.slabs = k.slabs
  ramdiskBlockSize : k'.ramdiskBlockSize = k.ramdiskBlockSize
  ramdiskBlockPointers : k'.ramdiskBlockPointers = k.ramdiskBlockPointers
  processes : k'.processes = k.processes

theorem SameBack.kept (hb : k.SameBack k') (h : k.Housed G) : Kept G k k' :=
  h.kept_of_eq hb.pmem hb.stdin hb.slabs hb.ramdiskBlockSize hb.ramdiskBlockPointers

theorem SameBack.rd_eq (hb : k.SameBack k') : k'.rd = k.rd := by
  unfold rd
  rw [hb.pmem, hb.ramdiskBlockSize, hb.ramdiskBlockPointers]

theorem Did.after (h : Did G s k k₁) (hb : k₁.SameBack k') : Did G s k k' := by
  cases h with
  | kept hw hx hkept hprocesses =>
    exact .kept hw hx (hkept.trans (hb.kept hkept.housed)) (hb.processes.trans hprocesses)
  | wrote hs hname hdata hsize hstep hhoused hgrows hsame hprocesses =>
    refine .wrote hs hname hdata hsize ?_ (hb.kept hhoused).housed ?_ ?_
      (hb.processes.trans hprocesses)
    · rw [hb.rd_eq]
      exact hstep
    · rw [hb.pmem]
      exact hgrows
    · rw [hb.pmem]
      exact hsame
  | ran hs hkept hstdin hplaced =>
    refine .ran hs (hkept.trans (hb.kept hkept.housed)) (hb.stdin.trans hstdin) ?_
    cases hplaced with
    | refused hno hsame => exact .refused hno (hb.processes.trans hsame)
    | placed hfile hslot hpage hnew hprocesses hmem =>
      refine .placed hfile hslot ?_ hnew (hb.processes.trans hprocesses) ?_
      · rw [hb.pmem]
        exact hpage
      · rw [hb.pmem]
        exact hmem

/-- A key goes to the page of the standard input. -/
theorem Housed.kept_took (h : k.Housed G) (hidle : k.stdin.Idle) (hpage : k.InputPage page pm) :
    Kept G k (k.took c page pm) := by
  have hhead : k.stdin.headPtr < 4096 := by
    cases hinit : k.stdin.isInit with
    | true => exact (hidle.ready hinit).2
    | false =>
      rw [hidle.raw hinit]
      decide
  have hgot : Kept G k { k with pmem := pm } ∧ pm.Allocated page ∧ ¬ G page := by
    rcases hpage with ⟨hinit, rfl, rfl⟩ | ⟨-, halloc⟩
    · exact ⟨.refl h, h.input hinit⟩
    · exact h.kept_alloc halloc
  obtain ⟨hkept, halloc, hoff⟩ := hgot
  have hstored := hkept.housed.kept_store (hkept.housed.sound.inRoom_of_allocated halloc) hoff
    (update_sameOutside pm.mem page hhead c)
  have hlast := hkept.trans hstored
  exact ⟨⟨hlast.housed.sound, hlast.housed.guarded,
    fun _ => ⟨hstored.grows.allocated _ halloc, hoff⟩, hlast.housed.slab, hlast.housed.pages,
    hlast.housed.disk, hlast.housed.uses⟩, hlast.grows, hlast.same, rfl, rfl⟩

/-- What an interrupt did to the pages of `G`: it completed no line, or it did the command of
one. -/
inductive Stepped (G : UInt32 → Prop) (k k' : Kernel) : Prop
  | quiet : Kept G k k' → k'.shell.executed = k.shell.executed → k'.processes = k.processes →
      Stepped G k k'
  | line {s : Split} {k₁ : Kernel} : Kept G k k₁ → k₁.processes = k.processes →
      k'.shell.executed = k.shell.executed ++ [s.command] → Did G s k₁ k' → Stepped G k k'

theorem store_executed {sh sh' : Shell} (h : sh.store c = .ok sh') :
    sh'.executed = sh.executed := by
  unfold Shell.store at h
  split at h
  · obtain rfl := Except.ok.inj h
    rfl
  · cases h

theorem Took.stepped {sched : Sched} (hkept : Kept G k k₁)
    (hprocesses : k₁.processes = k.processes) (hshell : k₁.shell = k.shell)
    (htook : Took stack k₁ c k') (hclear : Clear G { k' with sched := sched }) :
    Stepped G k { k' with sched := sched } := by
  cases htook with
  | @other _ sh _ hc hstore hprint =>
    have hback : SameBack k₁ { k' with sched := sched } := by
      rw [hprint]
      exact ⟨rfl, rfl, rfl, rfl, rfl, rfl⟩
    refine .quiet (hkept.trans (hback.kept hkept.housed)) ?_ (hback.processes.trans hprocesses)
    rw [hprint]
    exact (store_executed hstore).trans (congrArg Shell.executed hshell)
  | @line sh s out k₂ _ hstore hsplit hcall hprint =>
    have hback : SameBack k₂ { k' with sched := sched } := by
      rw [hprint]
      exact ⟨rfl, rfl, rfl, rfl, rfl, rfl⟩
    have hready : SameBack k₁ (k₁.ready sh s out) := ⟨rfl, rfl, rfl, rfl, rfl, rfl⟩
    have hkept' := hready.kept hkept.housed
    have hclear' : k₂.Clear G := by
      unfold Clear at hclear ⊢
      rw [hback.slabs] at hclear
      exact hclear
    refine .line (hkept.trans hkept') hprocesses ?_
      ((hcall.did hkept'.housed hclear').after hback)
    rw [hprint]
    show k₂.shell.executed = _
    rw [hcall.sameFront.shell, ← hshell, ← store_executed hstore]
    rfl

/-- **An interrupt** keeps the pages of `G`, but for those of the disk when it writes a file. -/
theorem step_stepped (hset : k.Settled) (h : k.Housed G) (hclear : k'.Clear G)
    (hs : KernelStep k e k') : Stepped G k k' := by
  cases handle_serviced hset.ready hset.idle hs with
  | quiet => exact .quiet (h.kept_of_eq rfl rfl rfl rfl rfl) rfl rfl
  | typed _ _ _ hpage htook _ =>
    exact htook.stepped (h.kept_took hset.idle hpage) rfl rfl hclear

/-! ## The pages of the largest slab -/

/-- The largest slab is in order, and has kept its pages. -/
structure SlabGrows (k k' : Kernel) : Prop where
  slab : SlabOk 0 (k'.slabs 0)
  pages : ∀ j, j < (k.slabs 0).currentPage → j < (k'.slabs 0).currentPage ∧
    (k'.slabs 0).pages j = (k.slabs 0).pages j

namespace SlabGrows

theorem of_eq (hS : SlabOk 0 (k.slabs 0)) (h : k'.slabs = k.slabs) : k.SlabGrows k' := by
  constructor
  · rwa [h]
  · intro j hj
    rw [h]
    exact ⟨hj, rfl⟩

theorem trans (h : k.SlabGrows k₁) (h' : k₁.SlabGrows k') : k.SlabGrows k' where
  slab := h'.slab
  pages j hj := by
    obtain ⟨hj₁, heq₁⟩ := h.pages j hj
    obtain ⟨hj', heq'⟩ := h'.pages j hj₁
    exact ⟨hj', heq'.trans heq₁⟩

theorem clear (h : k.SlabGrows k') (hclear : k'.Clear G) : k.Clear G := by
  intro j hj
  obtain ⟨hj', heq⟩ := h.pages j hj
  rw [← heq]
  exact hclear j hj'

theorem malloc {heap : Heap Pmem} (hS : SlabOk 0 (k.slabs 0))
    (hmalloc : malloc pmemAlloc 4096 k.heap = .ok (p, heap)) : k.SlabGrows (k.setHeap heap) := by
  obtain ⟨hslab, -, ⟨-, hcur, hpages⟩ | ⟨q, -, hcur, hpages⟩⟩ :=
    malloc_largest (H := k.heap) hS hmalloc
  · refine ⟨hslab, fun j hj => ?_⟩
    show j < (heap.slabs 0).currentPage ∧ (heap.slabs 0).pages j = _
    rw [hcur, hpages]
    exact ⟨hj, rfl⟩
  · refine ⟨hslab, fun j hj => ?_⟩
    show j < (heap.slabs 0).currentPage ∧ (heap.slabs 0).pages j = _
    rw [hcur, hpages]
    exact ⟨Nat.lt_succ_of_lt hj, update_of_ne (Nat.ne_of_lt hj) _ _⟩

theorem free {heap : Heap Pmem} (hS : SlabOk 0 (k.slabs 0))
    (hfree : free p k.heap = .ok heap) : k.SlabGrows (k.setHeap heap) := by
  obtain ⟨hslab, -, hcur, hpages⟩ := free_largest (H := k.heap) hS hfree
  refine ⟨hslab, fun j hj => ?_⟩
  show j < (heap.slabs 0).currentPage ∧ (heap.slabs 0).pages j = _
  rw [hcur, hpages]
  exact ⟨hj, rfl⟩

end SlabGrows

theorem Called.slabGrows (hS : SlabOk 0 (k.slabs 0)) (h : Called stack s k k') :
    k.SlabGrows k' := by
  cases h with
  | printed _ hprint => exact .of_eq hS (by rw [hprint])
  | wrote _ _ hprint => exact .of_eq hS (by rw [hprint]; rfl)
  | missed _ hmalloc _ hprint =>
    have hgrows := SlabGrows.malloc hS hmalloc
    exact hgrows.trans (.of_eq hgrows.slab (by rw [hprint]))
  | @fetched _ p n heap heap' res rd _ hmalloc _ _ _ hfree hprint =>
    have hgrows := SlabGrows.malloc hS hmalloc
    have hread : (k.setHeap heap).SlabGrows ((k.setHeap heap).setRd rd) := .of_eq hgrows.slab rfl
    have hgiven := SlabGrows.free hread.slab hfree
    exact ((hgrows.trans hread).trans hgiven).trans (.of_eq hgiven.slab (by rw [hprint]))
  | ran _ hlaunched hprint =>
    refine .of_eq hS ?_
    rw [hprint]
    cases hlaunched with
    | missing _ hprint => rw [hprint]
    | full _ hprint => rw [hprint]
    | nowhere _ _ _ heq => rw [heq]
    | started _ _ _ _ _ heq =>
      rw [heq]
      rfl

theorem step_slabGrows (hset : k.Settled) (hS : SlabOk 0 (k.slabs 0)) (hs : KernelStep k e k') :
    k.SlabGrows k' := by
  cases handle_serviced hset.ready hset.idle hs with
  | quiet => exact .of_eq hS rfl
  | @typed c page pm k₁ sched _ _ _ _ htook _ =>
    cases htook with
    | other _ _ hprint => exact .of_eq hS (by rw [hprint]; rfl)
    | @line sh s out k₂ _ _ _ hcall hprint =>
      have hcalled := Called.slabGrows (k := (k.took newline page pm).ready sh s out) hS hcall
      have hgrows : k.SlabGrows k₂ := ⟨hcalled.slab, hcalled.pages⟩
      exact hgrows.trans (.of_eq hgrows.slab (by rw [hprint]))

theorem run_slabGrows {k₀ : Kernel} {tr : List (Kernel × Event)} (hset : k₀.Settled)
    (hS : SlabOk 0 (k₀.slabs 0)) (hrun : Trace KernelStep k₀ tr k) : k₀.SlabGrows k := by
  induction hrun with
  | start => exact .of_eq hS rfl
  | next hrun hs ih =>
    have hset' := settled_run hset hrun
    exact ih.trans (step_slabGrows hset' ih.slab hs)

/-! ## Whole runs -/

/-- `k'` is housed too, with the same pages for its disk, and the pages of `G` that are not the
disk's hold the same bytes. -/
structure Guards (G : UInt32 → Prop) (k k' : Kernel) : Prop where
  housed : k'.Housed G
  grows : k.pmem.Grows k'.pmem
  same : ∀ q, G q → ¬ k.rd.Uses 1024 q → Mem.SamePage k.pmem.mem k'.pmem.mem q
  uses : ∀ q, k'.rd.Uses 1024 q ↔ k.rd.Uses 1024 q

theorem Guards.refl (h : k.Housed G) : Guards G k k :=
  ⟨h, .refl h.sound.initialised, fun q _ _ => .refl _ q, fun _ => .rfl⟩

theorem Guards.trans (h : Guards G k k₁) (h' : Guards G k₁ k') : Guards G k k' where
  housed := h'.housed
  grows := h.grows.trans h'.grows
  same q hq hoff := (h.same q hq hoff).trans (h'.same q hq fun hu => hoff ((h.uses q).mp hu))
  uses q := (h'.uses q).trans (h.uses q)

theorem Kept.guards (h : Kept G k k') (hk : k.Housed G) : Guards G k k' :=
  ⟨h.housed, h.grows, fun q hq _ => h.same q hq,
    (hk.fatOk_congr h.size h.pointers h.same).2.2⟩

theorem Did.guards (h : Did G s k k') (hk : k.Housed G) : Guards G k k' := by
  cases h with
  | kept _ _ hkept _ => exact hkept.guards hk
  | wrote _ _ _ _ hstep hhoused hgrows hsame _ =>
    have hframe := ramdiskFat16FileWrite_frame hk.disk.valid hstep
    exact ⟨hhoused, hgrows, hsame, fun q =>
      hk.disk.valid.uses_congr hframe.pointers fun _ ho => hframe.table hk.disk.valid ho⟩
  | ran _ hkept _ _ => exact hkept.guards hk

theorem Stepped.guards (h : Stepped G k k') (hk : k.Housed G) : Guards G k k' := by
  cases h with
  | quiet hkept _ _ => exact hkept.guards hk
  | line hkept _ _ hdid => exact (hkept.guards hk).trans (hdid.guards hkept.housed)

theorem run_guards {k₀ : Kernel} {tr : List (Kernel × Event)} (hset : k₀.Settled)
    (hk : k₀.Housed G) (hrun : Trace KernelStep k₀ tr k) (hclear : k.Clear G) :
    Guards G k₀ k := by
  induction hrun with
  | start => exact .refl hk
  | next hrun hs ih =>
    have hset' := settled_run hset hrun
    have hgrows := step_slabGrows hset' (run_slabGrows hset hk.slab hrun).slab hs
    have hguards := ih (hgrows.clear hclear)
    exact hguards.trans ((step_stepped hset' hguards.housed hclear hs).guards hguards.housed)

end Kernel

end KoizOs
