import KoizOs.Lib.Run
import KoizOs.Memory.Initialize
import KoizOs.Memory.SelfTest
import KoizOs.Memory.Supply
import KoizOs.Process.Execve

/-!
# Who owns the memory of a process

The process table with the page pool it takes its memory from.  The rest of the kernel uses
the pool too: it takes pages, frees pages that are no process's memory, and stores anywhere
but in the records (what `fs_file_read` copies into the page of a process is such a store).

`SlotsOwn k`: each slot in use holds a page that is taken and that no other slot in use holds,
and an unused slot holds none.  That is so in every pool.  A slot is told from an unused one by
its pointer, so `Ownership k` asks in addition that no slot in use has the page at address 0.
Slot 0 is the only one that could be given it, and only in a pool that has such a page: one whose
end wraps, which does not pass the boot test, or one that begins at address 0.
-/

namespace KoizOs

open Function Lib

inductive PoolOp where
  | call (op : ProcOp)
  | alloc (p : UInt32)
  | free (p : UInt32)
  | store

inductive PoolStep : ProcSys Pmem → PoolOp → ProcSys Pmem → Prop
  | call {k k' : ProcSys Pmem} {op : ProcOp} : ProcStep pmemAlloc k op k' → PoolStep k (.call op) k'
  | alloc {k : ProcSys Pmem} {p : UInt32} {pm : Pmem} :
      pmemAlloc k.pages = .ok (p, pm) → PoolStep k (.alloc p) { k with pages := pm }
  | free {k : ProcSys Pmem} {e : UInt32} {res : Int} {pm : Pmem} :
      e < k.pages.pmemMgrReservedSize →
      (∀ i, i < maxProcesses → (k.processes i).processMemoryStart ≠ k.pages.pageAddr e) →
      pmemFree k.pages (k.pages.pageAddr e) = .ok (res, pm) →
      PoolStep k (.free (k.pages.pageAddr e)) { k with pages := pm }
  | store {k : ProcSys Pmem} {m : Mem} :
      (∀ e, e < k.pages.pmemMgrReservedSize →
        m (k.pages.recordPtr e) = k.pages.mem (k.pages.recordPtr e)) →
      PoolStep k .store { k with pages := { k.pages with mem := m } }

structure SlotsOwn (k : ProcSys Pmem) : Prop where
  taken : ∀ i, i < maxProcesses → (k.processes i).state ≠ .unused →
    k.pages.Allocated (k.processes i).processMemoryStart
  alone : ∀ i j, i < maxProcesses → j < maxProcesses → i ≠ j → (k.processes i).state ≠ .unused →
    (k.processes j).state ≠ .unused →
    (k.processes j).processMemoryStart ≠ (k.processes i).processMemoryStart
  null : ∀ i, i < maxProcesses → (k.processes i).state = .unused →
    (k.processes i).processMemoryStart = 0

/-- No slot in use has the pointer of an unused one. -/
structure Ownership (k : ProcSys Pmem) : Prop extends SlotsOwn k where
  nonnull : ∀ i, i < maxProcesses → (k.processes i).state ≠ .unused →
    (k.processes i).processMemoryStart ≠ 0

def memoryLeak : String := "Memory leak for process memory!"

/-- No call of `process_execve` ends in the panic of `process_init_process`. -/
def NoLeak (k : ProcSys Pmem) : Prop :=
  ∀ fileName fs, processExecve pmemAlloc fileName fs k ≠ panic memoryLeak

variable {k k' k0 : ProcSys Pmem} {fileName : CString} {fs : FsOutcome} {res : Int}

/-! ## One step -/

namespace SlotsOwn

/-- The table alone decides, when the pages of the processes stay taken. -/
theorem congr (h : SlotsOwn k) (hps : k'.processes = k.processes)
    (hpages : ∀ i, i < maxProcesses → k.pages.Allocated (k.processes i).processMemoryStart →
      k'.pages.Allocated (k.processes i).processMemoryStart) : SlotsOwn k' where
  taken i hi hst := by
    rw [hps] at hst ⊢
    exact hpages i hi (h.taken i hi hst)
  alone i j hi hj hij hst hst' := by
    rw [hps] at hst hst' ⊢
    exact h.alone i j hi hj hij hst hst'
  null i hi hst := by
    rw [hps] at hst ⊢
    exact h.null i hi hst

/-- An unused slot is set up: with a page that was free if it comes into use, and with none
if it does not. -/
theorem set {pid : Nat} {p : Process} (h : SlotsOwn k)
    (hps : k'.processes = update k.processes pid p)
    (hkeep : ∀ q, k.pages.Allocated q → k'.pages.Allocated q)
    (hnull : p.state = .unused → p.processMemoryStart = 0)
    (hpage : p.state ≠ .unused → ¬ k.pages.Allocated p.processMemoryStart ∧
      k'.pages.Allocated p.processMemoryStart) : SlotsOwn k' := by
  have hself : k'.processes pid = p := by rw [hps, update_self]
  have hother : ∀ i, i ≠ pid → k'.processes i = k.processes i := by
    intro i hip
    rw [hps, update_of_ne hip]
  -- in use, the slot has a page that no other slot in use has
  have hnew : p.state ≠ .unused → ∀ i, i < maxProcesses → (k.processes i).state ≠ .unused →
      (k.processes i).processMemoryStart ≠ p.processMemoryStart := by
    intro hst i hi hu heq
    exact (hpage hst).1 (heq ▸ h.taken i hi hu)
  refine ⟨?_, ?_, ?_⟩
  · intro i hi hst
    by_cases hip : i = pid
    · subst hip
      rw [hself] at hst ⊢
      exact (hpage hst).2
    · rw [hother i hip] at hst ⊢
      exact hkeep _ (h.taken i hi hst)
  · intro i j hi hj hij hst hst'
    by_cases hip : i = pid
    · subst hip
      rw [hself] at hst
      rw [hother j (Ne.symm hij)] at hst'
      rw [hself, hother j (Ne.symm hij)]
      exact hnew hst j hj hst'
    · rw [hother i hip] at hst ⊢
      by_cases hjp : j = pid
      · subst hjp
        rw [hself] at hst' ⊢
        exact (hnew hst' i hi hst).symm
      · rw [hother j hjp] at hst' ⊢
        exact h.alone i j hi hj hij hst hst'
  · intro i hi hst
    by_cases hip : i = pid
    · subst hip
      rw [hself] at hst ⊢
      exact hnull hst
    · rw [hother i hip] at hst ⊢
      exact h.null i hi hst

theorem execve (hi : k.pages.Initialised) (h : SlotsOwn k)
    (hx : processExecve pmemAlloc fileName fs k = .ok (res, k')) :
    k'.pages.Initialised ∧ SlotsOwn k' := by
  rcases processExecve_cases hx with ⟨-, rfl⟩ | ⟨pid, p, -, -, -, hps, halloc, hcase⟩
  · exact ⟨hi, h⟩
  · obtain ⟨hi', hnew, hall⟩ := pmemAlloc_allocated hi halloc
    refine ⟨hi', h.set hps (fun q hq => (hall q).mpr (.inl hq)) ?_ ?_⟩
    · intro hst
      rcases hcase with ⟨-, hnull, -⟩ | ⟨-, -, hst', -⟩
      · exact hnull
      · rw [hst] at hst'
        cases hst'
    · exact fun _ => ⟨hnew, (hall _).mpr (.inr rfl)⟩

/-- **One step** of the kernel keeps the pages. -/
theorem step {op : PoolOp} (hi : k.pages.Initialised) (h : SlotsOwn k) (hs : PoolStep k op k') :
    k'.pages.Initialised ∧ SlotsOwn k' := by
  cases hs with
  | @call _ op hs =>
    cases op with
    | execve fileName fs =>
      obtain ⟨res, hx⟩ := hs
      exact h.execve hi hx
    | update =>
      obtain ⟨s, -, rfl⟩ := hs
      exact ⟨hi, h.congr rfl fun _ _ hp => hp⟩
  | alloc ha =>
    obtain ⟨hi', -, hall⟩ := pmemAlloc_allocated hi ha
    exact ⟨hi', h.congr rfl fun _ _ hp => (hall _).mpr (.inl hp)⟩
  | free he hnot hf =>
    obtain ⟨hi', hall⟩ := pmemFree_allocated hi he hf
    exact ⟨hi', h.congr rfl fun i hlt hp => (hall _ (hnot i hlt)).mpr hp⟩
  | store hm =>
    exact ⟨hi.store _, h.congr rfl fun _ _ hp => (allocated_store hm _).mpr hp⟩

/-- The slot that would be set up next has no memory, so the panic is not reached. -/
theorem noLeak (h : SlotsOwn k) : NoLeak k := by
  intro fileName fs hx
  unfold processExecve at hx
  split at hx
  · cases hx
  · dsimp only at hx
    split at hx
    · cases hx
    · next hpos =>
      obtain ⟨pid, hpid, -, hlt, hunused⟩ := processGetNextFreePid_pos hpos
      rw [hpid, Int.toNat_natCast, processInitProcess_eq fileName (h.null pid hlt hunused)] at hx
      cases halloc : pmemAlloc k.pages with
      | error e =>
        rw [halloc] at hx
        obtain rfl := Except.error.inj hx
        exact absurd (pmemAlloc_panics halloc) (by decide)
      | ok r =>
        rw [halloc] at hx
        simp only [ok_bind, pure_eq_ok] at hx
        split at hx
        · cases hx
        · -- what is left is the panic of `sched_addpid`
          unfold schedAddpid at hx
          split at hx
          · exact absurd (Fault.panic.inj (Except.error.inj hx)) (by decide)
          · cases hx

end SlotsOwn

namespace Ownership

/-- No other slot, in use or not, has the pointer of a slot in use. -/
theorem apart {i j : Nat} (h : Ownership k) (hi : i < maxProcesses) (hj : j < maxProcesses)
    (hij : i ≠ j) (hst : (k.processes i).state ≠ .unused) :
    (k.processes j).processMemoryStart ≠ (k.processes i).processMemoryStart := by
  by_cases hu : (k.processes j).state = .unused
  · rw [h.null j hj hu]
    exact (h.nonnull i hi hst).symm
  · exact h.alone i j hi hj hij hst hu

/-- A process that is started has a page other than that at address 0. -/
theorem step {op : PoolOp} (hi : k.pages.Initialised) (h : Ownership k) (hs : PoolStep k op k') :
    k'.pages.Initialised ∧ Ownership k' := by
  obtain ⟨hi', hown⟩ := h.toSlotsOwn.step hi hs
  refine ⟨hi', hown, ?_⟩
  cases hs with
  | @call _ op hs =>
    cases op with
    | execve fileName fs =>
      obtain ⟨res, hx⟩ := hs
      rcases processExecve_cases hx with ⟨-, rfl⟩ | ⟨pid, p, -, -, -, hps, -, hcase⟩
      · exact h.nonnull
      · intro i hlt hst
        by_cases hip : i = pid
        · subst hip
          rw [hps, update_self] at hst ⊢
          rcases hcase with ⟨-, -, hst', -⟩ | ⟨-, hpage, -⟩
          · exact absurd hst' hst
          · exact hpage
        · rw [hps, update_of_ne hip] at hst ⊢
          exact h.nonnull i hlt hst
    | update =>
      obtain ⟨s, -, rfl⟩ := hs
      exact h.nonnull
  | alloc => exact h.nonnull
  | free => exact h.nonnull
  | store => exact h.nonnull

end Ownership

/-! ## After `process_init` -/

/-- The table that `process_init` starts from. -/
def clearProcesses (ps : ProcessTable) : ProcessTable := fun i =>
  if i < maxProcesses then
    { ps i with pid := UInt32.ofNat i, state := .unused, processMemoryStart := 0 }
  else ps i

theorem clearProcesses_spec (ps : ProcessTable) {i : Nat} (hi : i < maxProcesses) :
    (clearProcesses ps i).state = .unused ∧ (clearProcesses ps i).processMemoryStart = 0 := by
  rw [clearProcesses, if_pos hi]
  exact ⟨rfl, rfl⟩

/-- `process_init` clears the table and sets slot 0 up with the next page. -/
theorem processInit_cases {σ : Type} {pmemAlloc : σ → Kern (UInt32 × σ)} {ps ps' : ProcessTable}
    {pages pages' : σ} (h : processInit pmemAlloc ps pages = .ok (ps', pages')) :
    ∃ p, pmemAlloc pages = .ok (p.processMemoryStart, pages') ∧ p.state = .runnable ∧
      ps' = update (clearProcesses ps) 0 p := by
  obtain ⟨⟨ps₁, pages₁⟩, hproc, h⟩ := bind_eq_ok.mp h
  have hproc : processInitProcess pmemAlloc idleProcessName 0 (clearProcesses ps) pages =
      .ok (ps₁, pages₁) := hproc
  obtain ⟨page, p, halloc, -, -, rfl, rfl⟩ := processInitProcess_cases hproc
  obtain ⟨rfl, rfl⟩ := Prod.mk.inj (Except.ok.inj h)
  exact ⟨{ p with state := .runnable }, halloc, rfl, by simp⟩

theorem processSchedInit_slotsOwn {ps : ProcessTable} {pm : Pmem} (hi : pm.Initialised)
    (h : processSchedInit pmemAlloc ps pm = .ok k0) : k0.pages.Initialised ∧ SlotsOwn k0 ∧
      ∃ page, pmemAlloc pm = .ok (page, k0.pages) ∧ (page ≠ 0 → Ownership k0) := by
  obtain ⟨⟨ps₁, pages₁⟩, hinit, h⟩ := bind_eq_ok.mp h
  obtain rfl := Except.ok.inj h
  obtain ⟨p, halloc, hst, rfl⟩ := processInit_cases hinit
  obtain ⟨hi', hnew, hall⟩ := pmemAlloc_allocated hi halloc
  have hclear : SlotsOwn ⟨clearProcesses ps, schedInit Sched.boot, pm⟩ := by
    refine ⟨?_, ?_, ?_⟩
    · intro i hlt hst
      exact absurd (clearProcesses_spec ps hlt).1 hst
    · intro i j hlt _ _ hst
      exact absurd (clearProcesses_spec ps hlt).1 hst
    · intro i hlt _
      exact (clearProcesses_spec ps hlt).2
  have hown : SlotsOwn ⟨update (clearProcesses ps) 0 p, schedInit Sched.boot, pages₁⟩ := by
    refine hclear.set rfl (fun q hq => (hall q).mpr (.inl hq)) ?_ ?_
    · intro hu
      rw [hst] at hu
      cases hu
    · exact fun _ => ⟨hnew, (hall _).mpr (.inr rfl)⟩
  refine ⟨hi', hown, p.processMemoryStart, halloc, fun hpage => ⟨hown, ?_⟩⟩
  intro i hlt hused
  by_cases hi0 : i = 0
  · subst hi0
    dsimp only
    rw [update_self]
    exact hpage
  · dsimp only at hused
    rw [update_of_ne hi0] at hused
    exact absurd (clearProcesses_spec ps hlt).1 hused

/-! ## Whole runs -/

/-- The pool has no page at address 0: its region has room for the records, or it passes the boot
test and does not begin there. -/
def NoNullPage (S L K : UInt32) (pm : Pmem) : Prop :=
  (¬ NoRoom S L K ∧ S.toNat + L.toNat ≤ 2 ^ 32) ∨
    (pmemRunTests pm = .ok () ∧ pm.pmemAllocStart ≠ 0)

theorem NoNullPage.next_ne_zero {S L K : UInt32} {pm0 pm pm' : Pmem} {m : Mem} {p : UInt32}
    (h : NoNullPage S L K pm0) (hset : pmemSetUp K S L (.boot m) = .ok pm0)
    (hi : pm.Initialised) (hl : pm0.SameLayout pm) (halloc : pmemAlloc pm = .ok (p, pm')) :
    p ≠ 0 := by
  obtain ⟨e, he, -, rfl, -⟩ := pmemAlloc_cases hi halloc
  rcases h with ⟨hroom, hregion⟩ | ⟨hpass, hstart⟩
  · exact (((pmemSetUp_layout hroom hregion hset).apart hregion).congr hl).pageAddr_ne_zero he
  · -- the pages go up from the first one
    have hend := ((pmemRunTests_iff (pmemSetUp_initialised rfl hset).size).mp hpass).1
    rw [← hl.allocStart, ← hl.length] at hend
    have haddr := toNat_pageAddr hi.size hend (UInt32.le_of_lt he)
    intro h0
    rw [h0, UInt32.toNat_zero] at haddr
    refine hstart (UInt32.toNat_inj.mp ?_)
    rw [← hl.allocStart, UInt32.toNat_zero]
    omega

/-- **Process memory.**  From `process_init` on, in every state of every run the slots in use own
their pages, the others have none, and the panic is out of reach.  In a pool that has no page at
address 0 no other slot has the pointer of a slot in use. -/
theorem process_ownership {mbd : Option MultibootInfo} {S L K : UInt32} {m : Mem} {pm0 pm : Pmem}
    {ps : ProcessTable} {tr : List (ProcSys Pmem × PoolOp)}
    (hsel : pmemSelect mbd K m = .ok (S, L)) (hinit : pmemInitialize mbd K (.boot m) = .ok pm0)
    (hreach : PmemReachable pm0 pm) (hstart : processSchedInit pmemAlloc ps pm = .ok k0)
    (hrun : Trace PoolStep k0 tr k) :
    SlotsOwn k ∧ NoLeak k ∧ (NoNullPage S L K pm0 → Ownership k ∧
      ∀ i j, i < maxProcesses → j < maxProcesses → i ≠ j → (k.processes i).state ≠ .unused →
        (k.processes j).processMemoryStart ≠ (k.processes i).processMemoryStart) := by
  rw [pmemInitialize_eq hsel] at hinit
  obtain ⟨hi, hl⟩ := hreach.keeps (pmemSetUp_initialised rfl hinit)
  obtain ⟨hi0, hown0, page, halloc, howned0⟩ := processSchedInit_slotsOwn hi hstart
  obtain ⟨-, hown⟩ := (hrun.invariant (I := fun x => x.pages.Initialised ∧ SlotsOwn x)
    ⟨hi0, hown0⟩ fun _ _ _ h hs => h.2.step h.1 hs).1
  refine ⟨hown, hown.noLeak, fun hpool => ?_⟩
  have hpage := hpool.next_ne_zero hinit hi hl halloc
  obtain ⟨-, howned⟩ := (hrun.invariant (I := fun x => x.pages.Initialised ∧ Ownership x)
    ⟨hi0, howned0 hpage⟩ fun _ _ _ h hs => h.2.step h.1 hs).1
  exact ⟨howned, fun i j hi hj => howned.apart hi hj⟩

/-- A pool of 31 pages; the second page goes to the first process after the idle one. -/
theorem process_ownership_two : ∃ pm0 k0 k,
    pmemInitialize (some ⟨0x40, 24, 0x9000⟩) 0x100000
      (.boot (wordsAt9000 [20, 0x100000, 0, 0x20000, 0, 1])) = .ok pm0 ∧
    pmemRunTests pm0 = .ok () ∧
    processSchedInit pmemAlloc (fun _ => default) pm0 = .ok k0 ∧
    processExecve pmemAlloc ⟨[0x41], by decide⟩ ⟨1, 0⟩ k0 = .ok (1, k) ∧
    (k.processes 1).processMemoryStart = 0x103000 ∧ Ownership k ∧ NoLeak k := by
  obtain ⟨pm0, k0, k, hinit, htest, hne, hstart, hx, hpage⟩ : ∃ pm0 k0 k,
      pmemInitialize (some ⟨0x40, 24, 0x9000⟩) 0x100000
        (.boot (wordsAt9000 [20, 0x100000, 0, 0x20000, 0, 1])) = .ok pm0 ∧
      pmemRunTests pm0 = .ok () ∧ pm0.pmemAllocStart ≠ 0 ∧
      processSchedInit pmemAlloc (fun _ => default) pm0 = .ok k0 ∧
      processExecve pmemAlloc ⟨[0x41], by decide⟩ ⟨1, 0⟩ k0 = .ok (1, k) ∧
      (k.processes 1).processMemoryStart = 0x103000 :=
    ⟨_, _, _, rfl, rfl, by decide, rfl, rfl, rfl⟩
  obtain ⟨-, hleak, hstrict⟩ := process_ownership rfl hinit .refl hstart
    (.next .start (@PoolStep.call _ _ (.execve ⟨[0x41], by decide⟩ ⟨1, 0⟩) ⟨1, hx⟩))
  exact ⟨pm0, k0, k, hinit, htest, hstart, hx, hpage, (hstrict (.inr ⟨htest, hne⟩)).1, hleak⟩

end KoizOs
