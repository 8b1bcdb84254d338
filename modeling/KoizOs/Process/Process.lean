import KoizOs.Libc.String

/-!
# The process table

The table is a fixed array of `maxProcesses` slots; a `struct process*` is the index of
its slot.  `processInitProcess` copies the name with `strcpy` into the 16 bytes in front
of the pid, so the name field and the pid are one piece of memory to it.

The page allocator is a parameter `pmemAlloc` on a state of its own.
-/

namespace KoizOs

open Function Lib

def processNameSize : Nat := 16
def maxProcesses : Nat := 64

structure ProcessRegisters where
  eax : UInt32
  ebx : UInt32
  ecx : UInt32
  edx : UInt32
  esi : UInt32
  edi : UInt32
  ebp : UInt32
  eip : UInt32
deriving DecidableEq, Inhabited

inductive ProcessState where
  | unused
  | runnable
  | running
  | interrruptableSleep
  | uninterruptableSleep
  | stopped
  | zombie
deriving DecidableEq, Inhabited

structure Process where
  name : Vector UInt8 16
  pid : UInt32
  cpuTimeMs : UInt32
  currentPriority : UInt32
  state : ProcessState
  killed : UInt32
  registers : ProcessRegisters
  /-- 0 is the null pointer -/
  processMemoryStart : UInt32
  processMemorySize : UInt32
deriving DecidableEq, Inhabited

abbrev ProcessTable := Nat → Process

/-- The memory from the name on: 16 bytes of name, then the pid. -/
def Process.nameMemory (p : Process) : Buffer :=
  Buffer.ofArray p.name fun i => byte32 p.pid (i - processNameSize)

/-- The process whose memory from the name on is `buf`. -/
def Process.setNameMemory (p : Process) (buf : Buffer) : Process :=
  { p with
    name := Vector.ofFn fun i => buf i
    pid := le32 (buf 16) (buf 17) (buf 18) (buf 19) }

def processGet (ps : ProcessTable) (pid : Int) : Option Nat :=
  if pid ≤ 0 ∨ pid ≥ maxProcesses then none
  else if (ps pid.toNat).state = .unused then none
  else some pid.toNat

/-- `n` slots are left to look at, the next one is `i`. -/
def processGetNextFreePidLoop (ps : ProcessTable) : (n i : Nat) → Int
  | 0, _ => -1
  | n + 1, i => if (ps i).state = .unused then i else processGetNextFreePidLoop ps n (i + 1)

def processGetNextFreePid (ps : ProcessTable) : Int :=
  processGetNextFreePidLoop ps (maxProcesses - 1) 1

/-- The fields that `process_init_process` blanks out. -/
def Process.blank (p : Process) (processName : CString) : Process :=
  { p.setNameMemory (strcpy p.nameMemory processName processNameSize) with
    currentPriority := 0
    cpuTimeMs := 0
    killed := 0
    registers := default }

def Process.setMemory (p : Process) (page : UInt32) : Process :=
  { p with processMemoryStart := page, processMemorySize := physBlockSize }

@[simp] theorem Process.setNameMemory_state (p : Process) (buf : Buffer) :
    (p.setNameMemory buf).state = p.state := by
  simp only [Process.setNameMemory]

@[simp] theorem Process.setNameMemory_processMemoryStart (p : Process) (buf : Buffer) :
    (p.setNameMemory buf).processMemoryStart = p.processMemoryStart := by
  simp only [Process.setNameMemory]

@[simp] theorem Process.blank_state (p : Process) (name : CString) :
    (p.blank name).state = p.state := by
  simp only [Process.blank, Process.setNameMemory_state]

@[simp] theorem Process.blank_processMemoryStart (p : Process) (name : CString) :
    (p.blank name).processMemoryStart = p.processMemoryStart := by
  simp only [Process.blank, Process.setNameMemory_processMemoryStart]

@[simp] theorem Process.setMemory_state (p : Process) (page : UInt32) :
    (p.setMemory page).state = p.state := rfl

@[simp] theorem Process.setMemory_processMemoryStart (p : Process) (page : UInt32) :
    (p.setMemory page).processMemoryStart = page := rfl

section Alloc

variable {σ : Type} (pmemAlloc : σ → Kern (UInt32 × σ))

def processInitProcess (processName : CString) (pid : Nat) (ps : ProcessTable) (pages : σ) :
    Kern (ProcessTable × σ) :=
  let p := (ps pid).blank processName
  if p.processMemoryStart ≠ 0 then panic "Memory leak for process memory!"
  else do
    let (page, pages) ← pmemAlloc pages
    return (update ps pid (p.setMemory page), pages)

/-- The name of process 0. -/
def idleProcessName : CString := ⟨[0x49, 0x64, 0x6c, 0x65], by decide⟩

def processInit (ps : ProcessTable) (pages : σ) : Kern (ProcessTable × σ) := do
  let ps : ProcessTable := fun i =>
    if i < maxProcesses then
      { ps i with pid := UInt32.ofNat i, state := .unused, processMemoryStart := 0 }
    else ps i
  let (ps, pages) ← processInitProcess pmemAlloc idleProcessName 0 ps pages
  return (update ps 0 { ps 0 with state := .runnable }, pages)

end Alloc

/-! ## The first free slot -/

theorem processGetNextFreePidLoop_spec (ps : ProcessTable) (n i : Nat) :
    (processGetNextFreePidLoop ps n i = -1 ∧ ∀ j, i ≤ j → j < i + n → (ps j).state ≠ .unused) ∨
    ∃ j : Nat, processGetNextFreePidLoop ps n i = j ∧ i ≤ j ∧ j < i + n ∧ (ps j).state = .unused := by
  induction n generalizing i with
  | zero => exact .inl ⟨rfl, by omega⟩
  | succ n ih =>
    unfold processGetNextFreePidLoop
    split
    · next hi => exact .inr ⟨i, rfl, by omega, by omega, hi⟩
    · next hi =>
      rcases ih (i + 1) with ⟨h, hall⟩ | ⟨j, h, hij, hj, hst⟩
      · refine .inl ⟨h, ?_⟩
        intro j hij hj
        rcases Nat.eq_or_lt_of_le hij with rfl | hij
        · exact hi
        · exact hall j hij (by omega)
      · exact .inr ⟨j, h, by omega, by omega, hst⟩

/-- A positive answer is an unused slot among `1 … 63`. -/
theorem processGetNextFreePid_pos {ps : ProcessTable} (h : ¬ processGetNextFreePid ps ≤ 0) :
    ∃ pid : Nat, processGetNextFreePid ps = pid ∧ 1 ≤ pid ∧ pid < maxProcesses ∧
      (ps pid).state = .unused := by
  rcases processGetNextFreePidLoop_spec ps (maxProcesses - 1) 1 with ⟨hn, -⟩ | ⟨j, hj, h1, hlt, hst⟩
  · exact absurd (by rw [processGetNextFreePid, hn]; decide) h
  · exact ⟨j, hj, h1, by simp only [maxProcesses] at hlt ⊢; omega, hst⟩

/-- With no memory in the slot, setting it up is asking for a page. -/
theorem processInitProcess_eq {σ : Type} {pmemAlloc : σ → Kern (UInt32 × σ)} {pid : Nat}
    {ps : ProcessTable} {pages : σ} (name : CString) (h : (ps pid).processMemoryStart = 0) :
    processInitProcess pmemAlloc name pid ps pages = do
      let (page, pages) ← pmemAlloc pages
      return (update ps pid (((ps pid).blank name).setMemory page), pages) := by
  unfold processInitProcess
  exact if_neg (by simp [h])

/-- Setting a process up changes its slot only, and leaves the slot's state alone. -/
theorem processInitProcess_cases {σ : Type} {pmemAlloc : σ → Kern (UInt32 × σ)}
    {name : CString} {pid : Nat} {ps ps' : ProcessTable} {pages pages' : σ}
    (h : processInitProcess pmemAlloc name pid ps pages = .ok (ps', pages')) :
    ∃ page p, pmemAlloc pages = .ok (page, pages') ∧ (ps pid).processMemoryStart = 0 ∧
      p.state = (ps pid).state ∧ p.processMemoryStart = page ∧ ps' = update ps pid p := by
  unfold processInitProcess at h
  simp only at h
  split at h
  · cases h
  · next hmem =>
    obtain ⟨⟨page, pages''⟩, ha, h⟩ := bind_eq_ok.mp h
    obtain ⟨rfl, rfl⟩ := Prod.mk.inj (Except.ok.inj h)
    refine ⟨page, ((ps pid).blank name).setMemory page, ha, ?_, by simp, by simp, rfl⟩
    simpa using hmem

end KoizOs
