import KoizOs.Lib.Run
import KoizOs.Libc.Copy
import KoizOs.Process.Execve

/-!
# The pid behind the name

`process_init_process` copies the file name with `strcpy` into the 16 bytes in front of
the pid.  The copy stops after 16 characters, and the NUL is then stored behind them: a
name of 16 characters or more puts it on the low byte of the pid (`blank_pid`).  Every pid
is below 64, so that byte is all there is of it.
-/

namespace KoizOs

open Function Lib

/-- The pid of a slot set up for a file: its low byte is cleared by a name of 16 characters
or more. -/
theorem blank_pid (p : Process) (name : CString) :
    (p.blank name).pid =
      if 16 ≤ name.chars.length then le32 0 (byte32 p.pid 1) (byte32 p.pid 2) (byte32 p.pid 3)
      else p.pid := by
  have hmem : ∀ j, p.nameMemory (16 + j) = byte32 p.pid j := by
    intro j
    rw [Process.nameMemory, Buffer.ofArray, dif_neg (by omega)]
    simp [processNameSize]
  have hbyte : ∀ j, strcpy p.nameMemory name processNameSize (16 + j) =
      if 16 ≤ name.chars.length ∧ 16 + j = 16 then 0 else byte32 p.pid j := by
    intro j
    rw [strcpy_behind (show processNameSize ≤ 16 + j from Nat.le_add_right 16 j), hmem]
    rfl
  show le32 (strcpy p.nameMemory name processNameSize (16 + 0)) (strcpy _ _ _ (16 + 1))
    (strcpy _ _ _ (16 + 2)) (strcpy _ _ _ (16 + 3)) = _
  rw [hbyte, hbyte, hbyte, hbyte]
  by_cases hlong : 16 ≤ name.chars.length
  · simp [hlong]
  · simp [hlong]

/-- A pid of the table is lost with its low byte. -/
theorem le32_low_cleared {i : Nat} (hi : i < maxProcesses) :
    le32 0 (byte32 (UInt32.ofNat i) 1) (byte32 (UInt32.ofNat i) 2) (byte32 (UInt32.ofNat i) 3) =
      0 := by
  have hall : ∀ i, i < 64 → le32 0 (byte32 (UInt32.ofNat i) 1) (byte32 (UInt32.ofNat i) 2)
      (byte32 (UInt32.ofNat i) 3) = 0 := by
    decide
  exact hall i hi

/-! ## Runs -/

variable {σ : Type} {pmemAlloc : σ → Kern (UInt32 × σ)} {k0 k' : ProcSys σ}

/-- Every slot holds its own number as its pid. -/
def PidsIntact (k : ProcSys σ) : Prop :=
  ∀ i, i < maxProcesses → (k.processes i).pid = UInt32.ofNat i

/-- A call of `process_execve` is denied, or its file name has fewer than 16 characters. -/
def KeepsPids (k : ProcSys σ) : ProcOp → Prop
  | .execve fileName fs => Denied fs k ∨ fileName.chars.length < 16
  | .update => True

theorem PidsIntact.step {k : ProcSys σ} {op : ProcOp} (h : PidsIntact k)
    (hs : ProcStep pmemAlloc k op k') : PidsIntact k' ↔ KeepsPids k op := by
  cases op with
  | update =>
    obtain ⟨s, -, rfl⟩ := hs
    exact iff_of_true h trivial
  | execve fileName fs =>
    obtain ⟨res, hx⟩ := hs
    rcases processExecve_slot hx with ⟨hden, -, rfl⟩ |
      ⟨pid, page, st, hden, h1, hlt, -, -, hps, -⟩
    · exact iff_of_true h (.inl hden)
    · have hpid : (k'.processes pid).pid =
          if 16 ≤ fileName.chars.length then 0 else UInt32.ofNat pid := by
        rw [hps, update_self]
        show ((k.processes pid).blank fileName).pid = _
        rw [blank_pid, h pid hlt, le32_low_cleared hlt]
      simp only [KeepsPids, hden, false_or]
      constructor
      · intro h'
        by_contra hlong
        rw [h' pid hlt, if_pos (Nat.not_lt.mp hlong)] at hpid
        have h0 := congrArg UInt32.toNat hpid
        have hlt' : pid < 64 := hlt
        rw [UInt32.toNat_ofNat', UInt32.toNat_zero] at h0
        omega
      · intro hshort i hi
        by_cases hip : i = pid
        · subst hip
          rw [hpid, if_neg (by omega)]
        · rw [hps, update_of_ne hip]
          exact h i hi

/-- `process_init` numbers the slots, and the name of the idle process fits. -/
theorem processSchedInit_pids {ps : ProcessTable} {pages : σ}
    (h : processSchedInit pmemAlloc ps pages = .ok k0) : PidsIntact k0 := by
  obtain ⟨⟨ps₁, pages₁⟩, hinit, h⟩ := bind_eq_ok.mp h
  obtain rfl := Except.ok.inj h
  obtain ⟨⟨ps₂, pages₂⟩, hproc, h⟩ := bind_eq_ok.mp hinit
  obtain ⟨rfl, rfl⟩ := Prod.mk.inj (Except.ok.inj h)
  rw [processInitProcess_eq idleProcessName (by simp [maxProcesses])] at hproc
  obtain ⟨⟨page, pages₃⟩, -, hproc⟩ := bind_eq_ok.mp hproc
  obtain ⟨rfl, rfl⟩ := Prod.mk.inj (Except.ok.inj hproc)
  intro i hi
  by_cases h0 : i = 0
  · subst h0
    simp only [update_self]
    show (Process.blank _ idleProcessName).pid = _
    rw [blank_pid, if_neg (by decide)]
    rfl
  · simp only [update_of_ne h0, if_pos hi]

/-- **Pids.** From `process_init` on, every slot holds its own number in every state of a run
exactly when every call that sets up a slot has a file name of fewer than 16 characters. -/
theorem process_pids_iff {ps : ProcessTable} {pages : σ} {k : ProcSys σ}
    {tr : List (ProcSys σ × ProcOp)}
    (hinit : processSchedInit pmemAlloc ps pages = .ok k0)
    (hrun : Trace (ProcStep pmemAlloc) k0 tr k) :
    (PidsIntact k ∧ ∀ e ∈ tr, PidsIntact e.1) ↔ ∀ e ∈ tr, KeepsPids e.1 e.2 :=
  hrun.holds_iff (I := fun _ => True) trivial (fun _ _ _ _ _ => trivial)
    (processSchedInit_pids hinit) fun _ _ _ _ h hs => h.step hs

/-- One program with a short name is started from boot. -/
theorem process_pids_iff_one : ∃ k0 k, processSchedInit pagesUpward (fun _ => default) 512 = .ok k0 ∧
    ProcStep pagesUpward k0 (.execve ⟨[0x61], by decide⟩ ⟨1, 0⟩) k ∧ PidsIntact k := by
  obtain ⟨k0, h0⟩ : ∃ k0, processSchedInit pagesUpward (fun _ => default) 512 = .ok k0 := ⟨_, rfl⟩
  obtain ⟨k, h1⟩ : ∃ k, ProcStep pagesUpward k0 (.execve ⟨[0x61], by decide⟩ ⟨1, 0⟩) k := by
    cases h0
    exact ⟨_, _, rfl⟩
  refine ⟨k0, k, h0, h1, ((process_pids_iff h0 (.next .start h1)).mpr ?_).1⟩
  intro e he
  obtain rfl := List.mem_singleton.mp he
  exact .inr (by decide)

/-- A name of 16 characters: the process in slot 1 has pid 0. -/
theorem process_not_pids : ∃ k0 k, processSchedInit pagesUpward (fun _ => default) 512 = .ok k0 ∧
    ProcStep pagesUpward k0 (.execve ⟨List.replicate 16 0x61, by decide⟩ ⟨1, 0⟩) k ∧
    (k.processes 1).pid = 0 ∧ ¬ PidsIntact k := by
  obtain ⟨k0, h0⟩ : ∃ k0, processSchedInit pagesUpward (fun _ => default) 512 = .ok k0 := ⟨_, rfl⟩
  obtain ⟨k, h1, hpid⟩ : ∃ k, ProcStep pagesUpward k0
      (.execve ⟨List.replicate 16 0x61, by decide⟩ ⟨1, 0⟩) k ∧ (k.processes 1).pid = 0 := by
    cases h0
    exact ⟨_, ⟨_, rfl⟩, rfl⟩
  refine ⟨k0, k, h0, h1, hpid, ?_⟩
  intro h
  have := (h 1 (by decide)).symm.trans hpid
  exact absurd this (by decide)

end KoizOs
