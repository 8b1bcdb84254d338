import KoizOs.Process.Sched

/-!
# Starting a process

`processExecve` sees the file system through what its two calls report: the number that
`fs_file_exists` returns and the code that `fs_file_read` returns.  What the read stores
in the process's page is not looked at again.
-/

namespace KoizOs

open Function

/-- What the file-system calls of one `process_execve` report. -/
structure FsOutcome where
  fsFileExists : UInt32
  fsFileRead : Int

structure ProcSys (σ : Type) where
  processes : ProcessTable
  sched : Sched
  pages : σ

variable {σ : Type} (pmemAlloc : σ → Kern (UInt32 × σ))

def setState (ps : ProcessTable) (pid : Nat) (st : ProcessState) : ProcessTable :=
  update ps pid { ps pid with state := st }

def processExecve (fileName : CString) (fs : FsOutcome) (k : ProcSys σ) : Kern (Int × ProcSys σ) :=
  -- Check if the program exists first
  if fs.fsFileExists = 0 then .ok (0, k)
  else
    let pid := processGetNextFreePid k.processes
    if pid ≤ 0 then .ok (0, k)
    else do
      let slot := pid.toNat
      let (ps, pages) ← processInitProcess pmemAlloc fileName slot k.processes k.pages
      if (ps slot).processMemoryStart = 0 then
        return (0, { k with processes := setState ps slot .unused, pages := pages })
      else
        -- a failed read marks the slot unused and goes on
        let ps := if fs.fsFileRead ≠ 0 then setState ps slot .unused else ps
        let ps := setState ps slot .runnable
        let sched ← schedAddpid ps pid k.sched
        return (1, { processes := ps, sched := sched, pages := pages })

/-- `process_init` on any earlier table, then `sched_init` on the boot values. -/
def processSchedInit (ps : ProcessTable) (pages : σ) : Kern (ProcSys σ) := do
  let (ps, pages) ← processInit pmemAlloc ps pages
  return { processes := ps, sched := schedInit Sched.boot, pages := pages }

inductive ProcOp where
  | execve (fileName : CString) (fs : FsOutcome)
  | update

/-- One call that returned. -/
def ProcStep (k : ProcSys σ) : ProcOp → ProcSys σ → Prop
  | .execve fileName fs, k' => ∃ res, processExecve pmemAlloc fileName fs k = .ok (res, k')
  | .update, k' => ∃ s, schedUpdate k.sched = .ok s ∧ k' = { k with sched := s }

/-! ## What one call can do -/

variable {pmemAlloc} {k k' : ProcSys σ} {fileName : CString} {fs : FsOutcome} {res : Int}

@[simp] theorem setState_update (ps : ProcessTable) (pid : Nat) (p : Process) (st : ProcessState) :
    setState (update ps pid p) pid st = update ps pid { p with state := st } := by
  simp [setState]

/-- The two checks that come first fail: there is no such file, or no free slot. -/
def Denied (fs : FsOutcome) (k : ProcSys σ) : Prop :=
  fs.fsFileExists = 0 ∨ processGetNextFreePid k.processes ≤ 0

instance (fs : FsOutcome) (k : ProcSys σ) : Decidable (Denied fs k) :=
  inferInstanceAs (Decidable (_ ∨ _))

theorem processExecve_denied (h : Denied fs k) :
    processExecve pmemAlloc fileName fs k = .ok (0, k) := by
  unfold processExecve
  by_cases hfile : fs.fsFileExists = 0
  · exact if_pos hfile
  · rw [if_neg hfile]
    exact if_pos (h.resolve_left hfile)

/-- A call that is not denied has a slot to set up. -/
theorem exists_slot_of_not_denied (h : ¬ Denied fs k) :
    ∃ pid : Nat, processGetNextFreePid k.processes = pid ∧ 1 ≤ pid ∧ pid < maxProcesses ∧
      (k.processes pid).state = .unused :=
  processGetNextFreePid_pos fun hpid => h (.inr hpid)

section Slot

variable {pid : Nat} (hden : ¬ Denied fs k)
  (hget : processGetNextFreePid k.processes = pid) (h1 : 1 ≤ pid)

include hden hget h1

/-- With memory in the slot the call does not return. -/
theorem processExecve_leak (hmem : (k.processes pid).processMemoryStart ≠ 0) :
    processExecve pmemAlloc fileName fs k = panic "Memory leak for process memory!" := by
  have hfile : fs.fsFileExists ≠ 0 := fun h => hden (.inl h)
  have hpos : ¬ (pid : Int) ≤ 0 := by omega
  have hblank : ((k.processes pid).blank fileName).processMemoryStart ≠ 0 := by simpa using hmem
  unfold processExecve
  simp only [if_neg hfile, hget, if_neg hpos, Int.toNat_natCast, processInitProcess, if_pos hblank,
    panic_bind]

/-- Without, the call is its page; what `fs_file_read` reports makes no difference. -/
theorem processExecve_eq (hlt : pid < maxProcesses)
    (hmem : (k.processes pid).processMemoryStart = 0) :
    processExecve pmemAlloc fileName fs k = do
      let (page, pages) ← pmemAlloc k.pages
      let p := ((k.processes pid).blank fileName).setMemory page
      if page = 0 then
        return (0, { k with
          processes := update k.processes pid { p with state := .unused }, pages := pages })
      else
        return (1, ⟨update k.processes pid { p with state := .runnable }, k.sched.enqueue pid,
          pages⟩) := by
  have hfile : fs.fsFileExists ≠ 0 := fun h => hden (.inl h)
  have hpos : ¬ (pid : Int) ≤ 0 := by omega
  unfold processExecve
  rw [if_neg hfile]
  simp only [hget, if_neg hpos, Int.toNat_natCast, processInitProcess_eq fileName hmem]
  cases halloc : pmemAlloc k.pages with
  | error e => rfl
  | ok r =>
    simp only [ok_bind, pure_eq_ok, update_self, Process.setMemory_processMemoryStart, setState_update]
    by_cases hpage : r.1 = 0
    · rw [if_pos hpage, if_pos hpage]
    · rw [if_neg hpage, if_neg hpage]
      split
      · rw [setState_update, schedAddpid_eq h1 hlt (by simp)]
        rfl
      · rw [setState_update, schedAddpid_eq h1 hlt (by simp)]
        rfl

end Slot

/-- A call that returned was denied, or set up one unused slot with the next page: the slot
stays unused when that is the null pointer, and is runnable and in the scheduler otherwise. -/
theorem processExecve_slot (h : processExecve pmemAlloc fileName fs k = .ok (res, k')) :
    (Denied fs k ∧ res = 0 ∧ k' = k) ∨
    ∃ pid page st, ¬ Denied fs k ∧ 1 ≤ pid ∧ pid < maxProcesses ∧
      (k.processes pid).state = .unused ∧ pmemAlloc k.pages = .ok (page, k'.pages) ∧
      k'.processes = update k.processes pid
        { ((k.processes pid).blank fileName).setMemory page with state := st } ∧
      ((res = 0 ∧ page = 0 ∧ st = .unused ∧ k'.sched = k.sched) ∨
        (res = 1 ∧ page ≠ 0 ∧ st = .runnable ∧ k'.sched = k.sched.enqueue pid)) := by
  by_cases hden : Denied fs k
  · rw [processExecve_denied hden] at h
    obtain ⟨rfl, rfl⟩ := Prod.mk.inj (Except.ok.inj h)
    exact .inl ⟨hden, rfl, rfl⟩
  · right
    obtain ⟨pid, hget, h1, hlt, hunused⟩ := exists_slot_of_not_denied hden
    by_cases hmem : (k.processes pid).processMemoryStart = 0
    · rw [processExecve_eq hden hget h1 hlt hmem] at h
      obtain ⟨⟨page, pages⟩, halloc, h⟩ := bind_eq_ok.mp h
      dsimp only at h
      split at h
      · next hpage =>
        obtain ⟨rfl, rfl⟩ := Prod.mk.inj (Except.ok.inj h)
        exact ⟨pid, page, .unused, hden, h1, hlt, hunused, halloc, rfl, .inl ⟨rfl, hpage, rfl, rfl⟩⟩
      · next hpage =>
        obtain ⟨rfl, rfl⟩ := Prod.mk.inj (Except.ok.inj h)
        exact ⟨pid, page, .runnable, hden, h1, hlt, hunused, halloc, rfl,
          .inr ⟨rfl, hpage, rfl, rfl⟩⟩
    · rw [processExecve_leak hden hget h1 hmem] at h
      exact absurd h (panic_ne_ok _ _)

/-- The same, without what the slot holds besides its page. -/
theorem processExecve_cases (h : processExecve pmemAlloc fileName fs k = .ok (res, k')) :
    (res = 0 ∧ k' = k) ∨
    ∃ pid p, 1 ≤ pid ∧ pid < maxProcesses ∧ (k.processes pid).state = .unused ∧
      k'.processes = update k.processes pid p ∧
      pmemAlloc k.pages = .ok (p.processMemoryStart, k'.pages) ∧
      ((res = 0 ∧ p.processMemoryStart = 0 ∧ p.state = .unused ∧ k'.sched = k.sched) ∨
        (res = 1 ∧ p.processMemoryStart ≠ 0 ∧ p.state = .runnable ∧
          schedAddpid k'.processes pid k.sched = .ok k'.sched)) := by
  rcases processExecve_slot h with ⟨-, rfl, rfl⟩ |
    ⟨pid, page, st, -, h1, hlt, hunused, halloc, hps, hcase⟩
  · exact .inl ⟨rfl, rfl⟩
  · refine .inr ⟨pid, _, h1, hlt, hunused, hps, halloc, ?_⟩
    rcases hcase with ⟨rfl, hpage, rfl, hsched⟩ | ⟨rfl, hpage, rfl, hsched⟩
    · exact .inl ⟨rfl, hpage, rfl, hsched⟩
    · refine .inr ⟨rfl, hpage, rfl, ?_⟩
      rw [hsched, hps]
      exact schedAddpid_eq h1 hlt (by simp) _

end KoizOs
