import KoizOs.Kernel.Housing
import KoizOs.Kernel.Paging
import KoizOs.Lib.Related

/-!
# One memory

`vmemInit`, `ramdiskInit` and `stdlibPutStdioInputChar` work on a memory beside the state of the
page pool, and `shRead` on a block beside the disk.  In the kernel all of it is one memory, and they
are there once more.  They do the same, as long as the records of the pool lie apart from its pages.

| in one memory | result |
|---------------|--------|
| `Pmem.vmemInit` | `vmemInit_joined` |
| `RamSys.ramdiskInit` | `ramdiskInit_joined` |
| `Kernel.stdlibPutStdioInputChar` | `stdlibPutStdioInputChar_joined` |
| `Kernel.shRead` | `shRead_joined` |
-/

namespace KoizOs

open Function Lib

variable {m : Mem} {pages pm : Pmem} {p e : UInt32} {i j n o : Nat}

/-- `pm` is the pool `pages`, with its records in the memory `m`. -/
structure Joined (m : Mem) (pages pm : Pmem) : Prop where
  statics : ∃ M, pm = { pages with mem := M }
  record : ∀ e, e < pages.pmemMgrReservedSize → pm.record e = pages.record e
  rest : ∀ x, (∀ e, e < pages.pmemMgrReservedSize → x ≠ pages.recordPtr e) → pm.mem x = m x

namespace Joined

theorem same (pm : Pmem) : Joined pm.mem pm pm := ⟨⟨pm.mem, rfl⟩, fun _ _ => rfl, fun _ _ => rfl⟩

/-! ## The pool -/

theorem setRecord (h : Joined m pages pm) (he : e < pages.pmemMgrReservedSize) (v : UInt8) :
    Joined m (pages.setRecord e v) (pm.setRecord e v) := by
  obtain ⟨⟨M, rfl⟩, hrecord, hrest⟩ := h
  refine ⟨⟨_, rfl⟩, ?_, ?_⟩
  · intro f hf
    rw [Pmem.record_setRecord, Pmem.record_setRecord, hrecord f hf]
  · intro x hx
    exact (update_of_ne (hx e he) _ _).trans (hrest x hx)

theorem nextRecord (h : Joined m pages pm) : Joined m pages.nextRecord pm.nextRecord := by
  obtain ⟨⟨M, rfl⟩, hrecord, hrest⟩ := h
  exact ⟨⟨M, rfl⟩, hrecord, hrest⟩

theorem pmemAllocLoop {start : UInt32} {fuel : Nat} (h : Joined m pages pm)
    (hc : pages.pmemCurrAllocRecord < pages.pmemMgrReservedSize) :
    Related (fun r r' => r'.1 = r.1 ∧ Joined m r.2 r'.2) (KoizOs.pmemAllocLoop start fuel pages)
      (KoizOs.pmemAllocLoop start fuel pm) := by
  induction fuel generalizing pages pm with
  | zero => exact .error _
  | succ fuel ih =>
    have hset := h.setRecord hc 1
    have hpos : 0 < pages.pmemMgrReservedSize := UInt32.lt_of_le_of_lt (UInt32.zero_le) hc
    have hnext := ih h.nextRecord (Pmem.nextRecord_lt hpos)
    have hrecord := h.record _ hc
    obtain ⟨M, rfl⟩ := h.statics
    unfold KoizOs.pmemAllocLoop
    refine .ite .rfl (fun _ => .error _) fun _ => .ite ?_ (fun _ => ?_) fun _ => hnext
    · exact Eq.congr_left hrecord
    · exact (Related.same (pmemEntryToPtr pages pages.pmemCurrAllocRecord)).bind
        fun p p' hp => .ok ⟨hp.symm, hset⟩

theorem pmemAlloc (h : Joined m pages pm) (hs : pages.Sound) :
    Related (fun r r' => r'.1 = r.1 ∧ Joined m r.2 r'.2 ∧ pages.Grows r.2 ∧ r.2.Allocated r.1)
      (KoizOs.pmemAlloc pages) (KoizOs.pmemAlloc pm) := by
  have hpos : 0 < pages.pmemMgrReservedSize :=
    UInt32.lt_of_le_of_lt UInt32.zero_le hs.initialised.cursor
  obtain ⟨M, rfl⟩ := h.statics
  have hrel : Related (fun r r' => r'.1 = r.1 ∧ Joined m r.2 r'.2) (KoizOs.pmemAlloc pages)
      (KoizOs.pmemAlloc { pages with mem := M }) :=
    .ite .rfl (fun _ => .error _) fun _ => h.nextRecord.pmemAllocLoop (Pmem.nextRecord_lt hpos)
  refine hrel.imp fun r r' hrun hr => ?_
  obtain ⟨p, pages'⟩ := r
  obtain ⟨hgrows, hallocated, -, -⟩ := hs.alloc hrun
  exact ⟨hr.1, hr.2, hgrows, hallocated⟩

/-! ## Stores on a page -/

theorem update {x : UInt32} (h : Joined m pages pm)
    (hx : ∀ e, e < pages.pmemMgrReservedSize → x ≠ pages.recordPtr e) (v : UInt8) :
    Joined (Function.update m x v) pages { pm with mem := Function.update pm.mem x v } := by
  obtain ⟨⟨M, rfl⟩, hrecord, hrest⟩ := h
  refine ⟨⟨_, rfl⟩, ?_, ?_⟩
  · intro e he
    exact (update_of_ne (hx e he).symm _ _).trans (hrecord e he)
  · intro y hy
    have hy : M y = m y := hrest y hy
    show Function.update M x v y = Function.update m x v y
    rw [update_apply, update_apply, hy]

theorem store32 (h : Joined m pages pm) (hs : pages.Sound) (hp : pages.InRoom p)
    (ho : o + 3 < 4096) (v : UInt32) : Joined (m.store32 (p + UInt32.ofNat o) v) pages
      { pm with mem := pm.mem.store32 (p + UInt32.ofNat o) v } := by
  have hoff : ∀ c, c < 4 → ∀ e, e < pages.pmemMgrReservedSize →
      p + UInt32.ofNat (o + c) ≠ pages.recordPtr e :=
    fun c hc e he => (hs.recordPtr_ne he hp (by omega)).symm
  rw [store32_page, store32_page]
  exact (((h.update (hoff 0 (by decide)) _).update (hoff 1 (by decide)) _).update
    (hoff 2 (by decide)) _).update (hoff 3 (by decide)) _

theorem tableFill {f : Nat → UInt32} (h : Joined m pages pm) (hs : pages.Sound)
    (hp : pages.InRoom p) (hn : j + n ≤ 1024) : Joined (KoizOs.tableFill p f n j m) pages
      { pm with mem := KoizOs.tableFill p f n j pm.mem } := by
  induction n generalizing j m pm with
  | zero => exact h
  | succ n ih => exact ih (h.store32 hs hp (by omega) (f j)) (by omega)

end Joined

/-! ## Paging -/

theorem vmemPtableNew_joined (h : Joined m pages pm) (hs : pages.Sound) :
    Related (fun r r' => r'.1 = r.1 ∧ Joined r.2.1 r.2.2 r'.2 ∧ pages.Grows r.2.2 ∧
      r.2.2.Allocated r.1) (vmemPtableNew pmemAlloc m pages) (Pmem.vmemPtableNew pm) := by
  refine (h.pmemAlloc hs).bind ?_
  rintro ⟨p, pages'⟩ ⟨p', pm'⟩ ⟨hp, hjoined, hgrows, hallocated⟩
  obtain rfl : p' = p := hp
  have hs' := hs.grows hgrows
  refine .ite .rfl (fun _ => .error _) fun _ => .ite .rfl (fun _ => .error _) fun _ => ?_
  refine .ok ?_
  dsimp only
  have hfill := hjoined.tableFill (f := fun _ => 0) hs' (hs'.inRoom_of_allocated hallocated)
    (show 0 + 1024 ≤ 1024 by decide)
  exact ⟨rfl, hfill, hgrows, hallocated⟩

theorem vmemInitLoop_joined (h : Joined m pages pm) (hs : pages.Sound) (hp : pages.Allocated p)
    (hi : i + n ≤ 1024) : Related (fun r pm' => Joined r.1 r.2 pm')
      (vmemInitLoop pmemAlloc p n i m pages) (Pmem.vmemInitLoop p n i pm) := by
  induction n generalizing i m pages pm with
  | zero => exact .ok h
  | succ n ih =>
    unfold vmemInitLoop Pmem.vmemInitLoop Pmem.vmemInitTable
    rw [bind_assoc]
    refine (vmemPtableNew_joined h hs).bind ?_
    rintro ⟨q, m', pages'⟩ ⟨q', pm'⟩ ⟨hq, hjoined, hgrows, hallocated⟩
    obtain rfl : q' = q := hq
    have hs' := hs.grows hgrows
    have hentry := hjoined.store32 hs' (hs'.inRoom_of_allocated (hgrows.allocated p hp))
      (show 4 * i + 3 < 4096 by omega) (q' ||| 7)
    have htable := hentry.tableFill (f := fun j => virtAddrEntry i j ||| 7) hs'
      (hs'.inRoom_of_allocated hallocated) (show 0 + 1024 ≤ 1024 by decide)
    rw [pure_bind]
    exact ih htable hs' (hgrows.allocated p hp) (by omega)

/-- `vmem_init` -/
theorem vmemInit_joined (hs : pm.Sound) :
    Related (fun r r' => r'.1 = r.vmemPageDirectory ∧ Joined r.mem r.pmem r'.2)
      (vmemInit pmemAlloc pm.mem pm) (Pmem.vmemInit pm) := by
  refine (vmemPtableNew_joined (.same pm) hs).bind ?_
  rintro ⟨p, m', pages'⟩ ⟨p', pm'⟩ ⟨hp, hjoined, hgrows, hallocated⟩
  obtain rfl : p' = p := hp
  dsimp only
  have hloop := vmemInitLoop_joined (n := 1024) (i := 0) hjoined (hs.grows hgrows) hallocated
    (by decide)
  exact hloop.bind fun r pm hjoined => .ok ⟨rfl, hjoined⟩

/-! ## The disk -/

/-- The disk `rd`, and the pool `pages` in the memory of `rd`. -/
structure RamJoined (rd : Ramdisk) (pages : Pmem) (sys : RamSys) : Prop where
  size : sys.ramdiskBlockSize = rd.ramdiskBlockSize
  pointers : sys.ramdiskBlockPointers = rd.ramdiskBlockPointers
  pool : Joined rd.mem pages sys.pm

theorem ramdiskInitLoop_joined {rd : Ramdisk} {sys : RamSys} (h : RamJoined rd pages sys)
    (hs : pages.Sound) (htable : pages.Allocated rd.ramdiskBlockPointers) (hi : i + n ≤ 1024) :
    Related (fun r sys' => RamJoined r.1 r.2 sys') (ramdiskInitLoop pmemAlloc n i rd pages)
      (RamSys.initLoop n i sys) := by
  induction n generalizing i rd pages sys with
  | zero => exact .ok h
  | succ n ih =>
    unfold ramdiskInitLoop RamSys.initLoop
    refine (h.pool.pmemAlloc hs).bind ?_
    rintro ⟨page, pages'⟩ ⟨page', pm'⟩ ⟨hp, hjoined, hgrows, -⟩
    obtain rfl : page' = page := hp
    have hs' := hs.grows hgrows
    have htable' := hgrows.allocated _ htable
    have hslot := hjoined.store32 hs' (hs'.inRoom_of_allocated htable')
      (show 4 * i + 3 < 4096 by omega) page'
    rw [← rd.slot_ofNat] at hslot
    refine ih ⟨h.size, h.pointers, ?_⟩ hs' htable' (by omega)
    have hsame : RamSys.rd { sys with pm := pm' } = ⟨pm'.mem, rd.ramdiskBlockSize,
        rd.ramdiskBlockPointers⟩ := by
      rw [← h.size, ← h.pointers]
      rfl
    unfold RamSys.setSlot
    rw [hsame]
    exact hslot

/-- `ramdisk_init` -/
theorem ramdiskInit_joined {sys : RamSys} (hs : sys.pm.Sound) (sizeInBytes : UInt32) :
    Related (fun r sys' => RamJoined r.1 r.2 sys')
      (ramdiskInit pmemAlloc sizeInBytes sys.rd sys.pm) (sys.ramdiskInit sizeInBytes) := by
  unfold ramdiskInit RamSys.ramdiskInit
  refine .ite .rfl (fun _ => .error _) fun _ => .ite .rfl (fun _ => .error _) fun _ =>
    .ite .rfl (fun _ => .error _) fun _ => .ite .rfl (fun _ => .error _) fun _ =>
    .ite .rfl (fun _ => .error _) fun hsize => ?_
  refine ((Joined.same sys.pm).pmemAlloc hs).bind ?_
  rintro r r' ⟨hp, hjoined, hgrows, hallocated⟩
  refine ramdiskInitLoop_joined ⟨rfl, hp, hjoined⟩ (hs.grows hgrows) hallocated ?_
  have hle := UInt32.le_iff_toNat_le.mp (UInt32.not_lt.mp hsize)
  rw [Nat.zero_add]
  exact hle

/-! ## The standard input -/

theorem Joined.of_alloc {pm' : Pmem} (hs : pm.Sound) (ha : KoizOs.pmemAlloc pm = .ok (p, pm')) :
    Joined pm.mem pm' pm' := by
  have h := (Joined.same pm).pmemAlloc hs
  rw [ha] at h
  cases h with
  | ok h => exact h.2.1

/-- A buffer on a page of the pool, with room for the head. -/
structure Paged (io : Io Pmem) : Prop where
  pool : Joined io.mem io.pmem io.pmem
  sound : io.pmem.Sound
  page : io.pmem.Allocated io.inBuff.bAddr
  head : io.inBuff.headPtr < 4096
  plain : io.inBuff.autoflushToScreen = false

/-- The first character takes the page. -/
theorem ioBufferInit_paged {io io' : Io Pmem} (hs : io.pmem.Sound) (hmem : io.mem = io.pmem.mem)
    (hidle : io.inBuff.Idle) (hplain : io.inBuff.autoflushToScreen = false)
    (hpage : io.inBuff.isInit = true → io.pmem.Allocated io.inBuff.bAddr)
    (h : ioBufferInit pmemAlloc io = .ok io') : Paged io' := by
  obtain ⟨inBuff, m, screen, pm⟩ := io
  obtain rfl : m = pm.mem := hmem
  unfold ioBufferInit at h
  cases hinit : inBuff.isInit with
  | true =>
    rw [hinit] at h
    obtain rfl := Except.ok.inj h
    exact ⟨.same pm, hs, hpage hinit, (hidle.ready hinit).2, hplain⟩
  | false =>
    have hsettled : inBuff.isInitializing = false := hidle.settled
    dsimp only at h
    rw [hinit, Bool.not_false, if_pos rfl, hsettled, if_neg Bool.false_ne_true] at h
    obtain ⟨⟨p, pm'⟩, ha, h⟩ := bind_eq_ok.mp h
    obtain rfl := Except.ok.inj h
    obtain ⟨hgrows, hallocated, -, -⟩ := hs.alloc ha
    refine ⟨.of_alloc hs ha, hs.grows hgrows, hallocated, ?_, hplain⟩
    show inBuff.headPtr < 4096
    rw [hidle.raw hinit]
    decide

theorem ioBufferPlaceChar_joined {io : Io Pmem} (h : Paged io) (c : UInt8) (screen : List UInt8) :
    Related (fun r r' => r'.inBuff = r.inBuff ∧
        Joined r.mem r.pmem { io.pmem with mem := r'.mem })
      (ioBufferPlaceChar c io) (ioBufferPlaceChar c ⟨io.inBuff, io.pmem.mem, screen, io.pmem⟩) := by
  have hoff : ∀ e, e < io.pmem.pmemMgrReservedSize →
      io.inBuff.bAddr + UInt32.ofNat io.inBuff.headPtr ≠ io.pmem.recordPtr e := fun e he =>
    (h.sound.recordPtr_ne he (h.sound.inRoom_of_allocated h.page) h.head).symm
  have hstore := h.pool.update hoff c
  unfold ioBufferPlaceChar
  have hplain : ∀ p : Prop, ¬ (p ∧ io.inBuff.autoflushToScreen = true) :=
    fun p hp => absurd (h.plain.symm.trans hp.2) (by decide)
  dsimp only
  rw [if_neg (hplain _), if_neg (hplain _), ok_bind, ok_bind]
  exact .ite .rfl (fun _ => .error _) fun _ => .ite .rfl (fun _ => .error _) fun _ =>
    .ok ⟨rfl, hstore⟩

namespace Kernel

/-- `stdlib_put_stdio_input_char`, of the standard input. -/
theorem stdlibPutStdioInputChar_joined {k : Kernel} (hs : k.pmem.Sound) (hidle : k.stdin.Idle)
    (hplain : k.stdin.autoflushToScreen = false)
    (hpage : k.stdin.isInit = true → k.pmem.Allocated k.stdin.bAddr) (c : UInt8) :
    Related (fun io k' => k' = { k with stdin := io.inBuff, pmem := k'.pmem } ∧
        Joined io.mem io.pmem k'.pmem)
      (KoizOs.stdlibPutStdioInputChar pmemAlloc k.pmem.pmemInitialized false c k.io)
      (k.stdlibPutStdioInputChar c) := by
  unfold KoizOs.stdlibPutStdioInputChar stdlibPutStdioInputChar
  refine .ite (by simp) (fun _ => ?_) fun _ => .ok ⟨rfl, .same k.pmem⟩
  unfold ioBufferPlace
  refine (Related.ran (ioBufferInit pmemAlloc k.io)).bind ?_
  rintro io _ ⟨hrun, rfl⟩
  have hpaged := ioBufferInit_paged hs rfl hidle hplain hpage hrun
  by_cases h0 : c = 0
  · subst h0
    exact .ok ⟨rfl, hpaged.pool⟩
  · rw [msgStr_chars h0]
    unfold ioBufferPlaceLoop ioBufferPlaceLoop
    rw [bind_assoc]
    refine (ioBufferPlaceChar_joined hpaged c []).bind ?_
    rintro r r' ⟨hbuff, hjoined⟩
    refine .ok ⟨?_, hjoined⟩
    rw [← hbuff]
    rfl

end Kernel

/-! ## The read command -/

/-- A block with bytes stored into it, seen from its address on. -/
theorem Mem.bufferAt_storeBytes (m : Mem) (p : UInt32) (data : Buffer) (hj : j < 2 ^ 32) :
    (m.storeBytes p n data).bufferAt p j = patch (m.bufferAt p) 0 n data j := by
  have hsub : (p + UInt32.ofNat j - p).toNat = j := by
    rw [UInt32.add_comm, UInt32.add_sub_cancel, UInt32.toNat_ofNat']
    omega
  unfold Mem.bufferAt Mem.storeBytes patch
  rw [hsub, Nat.zero_add, Nat.sub_zero]
  simp only [Nat.zero_le, true_and]

theorem free_joined {heap heap' : Heap Pmem} (h : heap'.slabs = heap.slabs) (p : UInt32) :
    Related (fun r r' => r'.slabs = r.slabs ∧ r.pmem = heap.pmem ∧ r'.pmem = heap'.pmem)
      (free p heap) (free p heap') := by
  unfold free
  rw [h]
  exact (Related.same _).bind fun slabs slabs' heq => .ok ⟨heq.symm, rfl, rfl⟩

namespace Kernel

variable {k : Kernel} {G : UInt32 → Prop} {s : Split} {stack fileBuffer : Buffer}

/-- The kernel `k`, with what `sys` has, in some memory. -/
def Carries (k : Kernel) (sys : ReadSys Pmem) (k' : Kernel) : Prop :=
  ∃ m, k' = { k with
    slabs := sys.heap.slabs
    pmem := { sys.heap.pmem with mem := m }
    out := sys.out }

/-- What `sh_read` does when it has the bytes of the file. -/
theorem readEnd_joined {heap : Heap Pmem} {rd : Ramdisk} {buf : Buffer}
    (hstring : bufferString (m.bufferAt p) = bufferString buf) :
    Related (fun r k' => k.Carries r.2 k')
      (do
        let string ← (bufferString buf).mapError ReadFault.kern
        let out ← (printf (cstr "%s\n") [.str string] k.out).mapError .printf
        let heap ← (free p heap).mapError .kern
        return ((0 : Int), ReadSys.mk heap rd out))
      (do
        let k₁ : Kernel := { k with slabs := heap.slabs, pmem := { heap.pmem with mem := m } }
        let string ← (bufferString (m.bufferAt p)).mapError .kern
        let k₁ ← k₁.print "%s\n" [.str string]
        let heap ← (free p k₁.heap).mapError .kern
        return k₁.setHeap heap) := by
  rw [hstring]
  refine (Related.same _).bind ?_
  rintro string _ rfl
  unfold print
  rw [bind_assoc]
  refine (Related.same (say "%s\n" [.str string] k.out)).bind ?_
  rintro out _ rfl
  rw [pure_bind]
  refine ((free_joined (by rfl) p).mapError _).bind ?_
  rintro heap' heap'' ⟨hslabs, hpmem, hpmem'⟩
  refine .ok ⟨m, ?_⟩
  unfold setHeap
  rw [hslabs, hpmem, hpmem']
  rfl

/-- `sh_read`.  In one memory the block is a part of it. -/
theorem shRead_joined (h : k.Housed G)
    (hblock : ∀ p heap, malloc pmemAlloc 4096 k.heap = .ok (p, heap) →
      ¬ G p ∧ fileBuffer = heap.pmem.mem.bufferAt p) :
    Related (fun r k' => k.Carries r.2 k')
      (KoizOs.shRead pmemAlloc stack fileBuffer s.cArgc s.arg ⟨k.heap, k.rd, k.out⟩)
      (k.shRead stack s) := by
  unfold KoizOs.shRead shRead
  refine .ite (by omega) (fun _ => ?_) fun _ => ?_
  · refine (Related.same (say "read needs 1 argument: filename" [] k.out)).bind ?_
    rintro out _ rfl
    exact .ok ⟨k.pmem.mem, rfl⟩
  · refine ((Related.ran (malloc pmemAlloc 4096 k.heap)).mapError ReadFault.kern).bind ?_
    rintro ⟨p, heap⟩ _ ⟨hmalloc, rfl⟩
    obtain ⟨hoff, hbuffer⟩ := hblock p heap hmalloc
    obtain ⟨hkept, j, hj, hp⟩ := h.kept_malloc hmalloc
    have hsound := hkept.housed.sound
    have haligned : PageAligned p := by
      rw [hp]
      exact hsound.aligned (hsound.inRoom_behind (hkept.housed.pages j hj))
    have hvalid := hkept.housed.disk.valid
    obtain ⟨-, himage, -⟩ := h.fatOk_congr hkept.size hkept.pointers hkept.same
    dsimp only
    rw [kern_bind (ramdiskFat16FileExists_eq h.disk.valid),
      kern_bind (ramdiskFat16FileExists_eq hvalid), himage]
    refine .ite .rfl (fun _ => ?_) fun hfile => ?_
    · refine (Related.same (say "file does not exist\n" [] k.out)).bind ?_
      rintro out _ rfl
      exact .ok ⟨heap.pmem.mem, rfl⟩
    · have hcluster := (h.disk.inv.headCluster_spec hfile).1
      have hdisk : (k.setHeap heap).rd.Off 1024 p 512 := (hvalid.off haligned fun huses =>
        hoff (hkept.housed.uses p huses)).mono (by decide)
      have hread : ramdiskFat16FileReadTo stack (s.arg 1) p 0 (k.setHeap heap).rd = _ :=
        ramdiskFat16FileReadTo_eq hvalid (by rwa [himage]) (by rwa [himage]) hdisk
      rw [himage] at hread
      rw [kern_bind (ramdiskFat16FileRead_eq h.disk.valid hfile hcluster)]
      dsimp only
      rw [show (k.setHeap heap).setRd (k.setHeap heap).rd = k.setHeap heap from rfl,
        kern_bind hread, hbuffer]
      exact readEnd_joined (bufferString_congr fun j hj =>
        heap.pmem.mem.bufferAt_storeBytes p (k.rd.image.sector _) hj)

end Kernel

end KoizOs
