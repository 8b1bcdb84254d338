import KoizOs.Memory.Supply
import KoizOs.Process.Execve

/-!
# Starting a process, all or nothing

`process_execve` acquires a slot, a page, the contents of the file and an entry in the
scheduler, one after the other.  When the read of the file fails it marks the slot unused
and goes on: the slot becomes runnable all the same and is scheduled.  A page that is the
null pointer is not given back, and a call for which there is no page does not return.

    AllOrNothing ↔ denied at the start, or a page other than 0 is handed out to an empty
                   slot and the read reports success        (process_allOrNothing_iff)
-/

namespace KoizOs

open Function

variable {k k' : ProcSys Pmem} {fileName : CString} {fs : FsOutcome}

/-- One slot that was unused is runnable and at the front of the scheduler's first list; no
other slot has changed its state. -/
def Started (k k' : ProcSys Pmem) : Prop :=
  ∃ pid, 1 ≤ pid ∧ pid < maxProcesses ∧
    (k.processes pid).state = .unused ∧ (k'.processes pid).state = .runnable ∧
    k'.sched.procPriorityList 0 = some pid ∧ (k'.sched.procList pid).ptr = some pid ∧
    ∀ i, i ≠ pid → (k'.processes i).state = (k.processes i).state

/-- The slots' states, the records of the pages and the scheduler are what they were. -/
structure Untouched (k k' : ProcSys Pmem) : Prop where
  state : ∀ i, (k'.processes i).state = (k.processes i).state
  record : k'.pages.record = k.pages.record
  sched : k'.sched = k.sched

/-- The call returns 1 with the file read and one process started, or it returns 0 with
nothing changed. -/
def AllOrNothing (fileName : CString) (fs : FsOutcome) (k : ProcSys Pmem) : Prop :=
  ∃ res k', processExecve pmemAlloc fileName fs k = .ok (res, k') ∧
    ((res = 1 ∧ fs.fsFileRead = 0 ∧ Started k k') ∨ (res = 0 ∧ Untouched k k'))

/-- The first free slot holds no memory, and a page other than 0 is handed out. -/
def HasPage (k : ProcSys Pmem) : Prop :=
  (k.processes (processGetNextFreePid k.processes).toNat).processMemoryStart = 0 ∧
    ∃ page pm, pmemAlloc k.pages = .ok (page, pm) ∧ page ≠ 0

/-! ## The page -/

theorem pmemAllocLoop_marks {start p : UInt32} {fuel : Nat} {pm pm' : Pmem}
    (h : pmemAllocLoop start fuel pm = .ok (p, pm')) : pm'.record ≠ pm.record := by
  induction fuel generalizing pm with
  | zero => cases h
  | succ fuel ih =>
    unfold pmemAllocLoop at h
    split at h
    · cases h
    · dsimp only at h
      split at h
      · next hr =>
        obtain ⟨page, -, h⟩ := bind_eq_ok.mp h
        obtain ⟨-, rfl⟩ := Prod.mk.inj (Except.ok.inj h)
        intro heq
        have hcell := congrFun heq pm.pmemCurrAllocRecord
        have hset : (pm.setRecord pm.pmemCurrAllocRecord 1).record pm.pmemCurrAllocRecord = 1 :=
          Pmem.record_setRecord.trans (if_pos rfl)
        rw [show pm.record pm.pmemCurrAllocRecord = 0 from hr] at hcell
        exact absurd (hset.symm.trans hcell) (by decide)
      · exact @ih pm.nextRecord h

/-- Whatever the state of the pool, a page that is handed out leaves a mark. -/
theorem pmemAlloc_marks {p : UInt32} {pm pm' : Pmem} (h : pmemAlloc pm = .ok (p, pm')) :
    pm'.record ≠ pm.record := by
  unfold pmemAlloc at h
  split at h
  · cases h
  · exact @pmemAllocLoop_marks _ _ _ pm.nextRecord _ h

/-! ## The call -/

/-- A call that gets a page other than 0 starts the process, whether the file was read or not. -/
theorem allOrNothing_of_page {pid : Nat} (hden : ¬ Denied fs k)
    (hget : processGetNextFreePid k.processes = pid) (h1 : 1 ≤ pid) (hlt : pid < maxProcesses)
    (hunused : (k.processes pid).state = .unused)
    (hmem : (k.processes pid).processMemoryStart = 0) {page : UInt32} {pm : Pmem}
    (halloc : pmemAlloc k.pages = .ok (page, pm)) :
    AllOrNothing fileName fs k ↔ page ≠ 0 ∧ fs.fsFileRead = 0 := by
  have heq := @processExecve_eq _ pmemAlloc k fileName fs pid hden hget h1 hlt hmem
  rw [halloc] at heq
  simp only [ok_bind, pure_eq_ok] at heq
  by_cases hpage : page = 0
  · rw [if_pos hpage] at heq
    refine iff_of_false ?_ fun h => h.1 hpage
    rintro ⟨res, k', hx, hres⟩
    obtain ⟨rfl, rfl⟩ := Prod.mk.inj (Except.ok.inj (heq.symm.trans hx))
    rcases hres with ⟨h01, -⟩ | ⟨-, hsame⟩
    · exact absurd h01 (by decide)
    · exact pmemAlloc_marks halloc hsame.record
  · rw [if_neg hpage] at heq
    constructor
    · rintro ⟨res, k', hx, hres⟩
      obtain ⟨rfl, rfl⟩ := Prod.mk.inj (Except.ok.inj (heq.symm.trans hx))
      rcases hres with ⟨-, hread, -⟩ | ⟨h10, -⟩
      · exact ⟨hpage, hread⟩
      · exact absurd h10 (by decide)
    · rintro ⟨-, hread⟩
      refine ⟨_, _, heq, .inl ⟨rfl, hread, pid, h1, hlt, hunused, ?_⟩⟩
      refine ⟨by simp, by simp, by simp, ?_⟩
      intro i hi
      simp [hi]

/-- **All or nothing.** A call is so exactly when it is denied by its two first checks, or
gets a page for the slot and the file is read. -/
theorem process_allOrNothing_iff :
    AllOrNothing fileName fs k ↔
      Denied fs k ∨ (HasPage k ∧ fs.fsFileRead = 0) := by
  by_cases hden : Denied fs k
  · refine iff_of_true ?_ (.inl hden)
    exact ⟨0, k, processExecve_denied hden, .inr ⟨rfl, fun _ => rfl, rfl, rfl⟩⟩
  · obtain ⟨pid, hget, h1, hlt, hunused⟩ := exists_slot_of_not_denied hden
    have hslot : (processGetNextFreePid k.processes).toNat = pid := by rw [hget, Int.toNat_natCast]
    simp only [hden, false_or, HasPage, hslot]
    by_cases hmem : (k.processes pid).processMemoryStart = 0
    · cases halloc : pmemAlloc k.pages with
      | error e =>
        have heq := @processExecve_eq _ pmemAlloc k fileName fs pid hden hget h1 hlt hmem
        rw [halloc, error_bind] at heq
        apply iff_of_false
        · rintro ⟨res, k', hx, -⟩
          cases heq.symm.trans hx
        · rintro ⟨⟨-, page, pm, ha, -⟩, -⟩
          cases ha
      | ok r =>
        rw [allOrNothing_of_page hden hget h1 hlt hunused hmem halloc]
        constructor
        · rintro ⟨hpage, hread⟩
          exact ⟨⟨hmem, _, _, rfl, hpage⟩, hread⟩
        · rintro ⟨⟨-, page, pm, ha, hpage⟩, hread⟩
          obtain rfl := Except.ok.inj ha
          exact ⟨hpage, hread⟩
    · apply iff_of_false
      · rintro ⟨res, k', hx, -⟩
        exact panic_ne_ok _ _ ((processExecve_leak hden hget h1 hmem).symm.trans hx)
      · exact fun h => hmem h.1.1

/-- The file cannot be read: the process is started all the same. -/
theorem process_not_allOrNothing : ∃ pm0 k0 k,
    pmemInitialize (some ⟨0x40, 24, 0x9000⟩) 0x100000
      (.boot (wordsAt9000 [20, 0x100000, 0, 0x20000, 0, 1])) = .ok pm0 ∧
    processSchedInit pmemAlloc (fun _ => default) pm0 = .ok k0 ∧
    processExecve pmemAlloc ⟨[0x41], by decide⟩ ⟨1, 3⟩ k0 = .ok (1, k) ∧
    (k.processes 1).state = .runnable ∧ k.sched.procPriorityList 0 = some 1 ∧
    ¬ AllOrNothing ⟨[0x41], by decide⟩ ⟨1, 3⟩ k0 := by
  obtain ⟨pm0, k0, k, hinit, hstart, hx, hst, hhead⟩ : ∃ pm0 k0 k,
      pmemInitialize (some ⟨0x40, 24, 0x9000⟩) 0x100000
        (.boot (wordsAt9000 [20, 0x100000, 0, 0x20000, 0, 1])) = .ok pm0 ∧
      processSchedInit pmemAlloc (fun _ => default) pm0 = .ok k0 ∧
      processExecve pmemAlloc ⟨[0x41], by decide⟩ ⟨1, 3⟩ k0 = .ok (1, k) ∧
      (k.processes 1).state = .runnable ∧ k.sched.procPriorityList 0 = some 1 :=
    ⟨_, _, _, rfl, rfl, rfl, rfl, rfl⟩
  refine ⟨pm0, k0, k, hinit, hstart, hx, hst, hhead, ?_⟩
  rintro ⟨res, k', hx', hres⟩
  obtain ⟨rfl, rfl⟩ := Prod.mk.inj (Except.ok.inj (hx.symm.trans hx'))
  rcases hres with ⟨-, hread, -⟩ | ⟨h10, -⟩
  · exact absurd hread (by decide)
  · exact absurd h10 (by decide)

end KoizOs
