import KoizOs.Libc.Copy
import KoizOs.Process.Ownership
import KoizOs.Shell.Reports

/-!
# What `ps` lists

No slot of the process table is ever given back, so the slots in use are an initial segment
and slot `i` holds the `i`-th process started, the idle process being number 0.

A name of 16 characters or more has its NUL behind the name field, in the low byte of the
pid; it is printed with its first 16 characters, all others in a column of 15.
-/

namespace KoizOs

open Function Lib

/-! ## Algorithm -/

/-- `n` characters are left to fill, the next one is `i`. -/
def rpadLoop (padChar : UInt8) : (n i : Nat) → Buffer → Buffer
  | 0, _, str => str
  | n + 1, i, str => rpadLoop padChar n (i + 1) (update str i padChar)

def rpad (str : Buffer) (padChar : UInt8) (length : Nat) : Kern Buffer :=
  match strlen str memorySize with
  | none => .error .hang
  | some srcLength =>
    if srcLength ≥ length then .ok str
    else .ok (update (rpadLoop padChar (length - srcLength) srcLength str) (length - 1) 0)

def processStateToStr : ProcessState → CString
  | .unused => cstr "Unused"
  | .runnable => cstr "Runnable"
  | .running => cstr "Running"
  | .interrruptableSleep => cstr "Interruptable Sleep"
  | .uninterruptableSleep => cstr "Uninterruptable Sleep"
  | .stopped => cstr "Stopped"
  | .zombie => cstr "Zombie"

def printBufferSize : Nat := 64

/-- `n` slots are left to look at, the next one is `i`. -/
def processPrintlistLoop (ps : ProcessTable) :
    (n i : Nat) → (bufName bufState : Buffer) → Output → Except ReadFault Output
  | 0, _, _, _, out => .ok out
  | n + 1, i, bufName, bufState, out =>
    if (ps i).state ≠ .unused then do
      let name ← (bufferString (ps i).nameMemory).mapError .kern
      let bufName := strcpy bufName name printBufferSize
      let bufState := strcpy bufState (processStateToStr (ps i).state) printBufferSize
      let bufName ← (rpad bufName 0x20 16).mapError .kern
      let bufState ← (rpad bufState 0x20 12).mapError .kern
      let nameColumn ← (bufferString bufName).mapError .kern
      let stateColumn ← (bufferString bufState).mapError .kern
      let out ← say "%d | %s | %s | %d | %x\n"
        [.int (UInt32.ofNat i), .str nameColumn, .str stateColumn, .int (ps i).cpuTimeMs,
          .int (ps i).processMemoryStart] out
      processPrintlistLoop ps n (i + 1) bufName bufState out
    else processPrintlistLoop ps n (i + 1) bufName bufState out

/-- `stack` is what the two local buffers hold at first. -/
def processPrintlist (stack : Buffer) (ps : ProcessTable) (out : Output) :
    Except ReadFault Output := do
  let out ← say "PID | Process Name    | State       | Time  | Memory \n" [] out
  let out ← processPrintlistLoop ps maxProcesses 0 stack stack out
  say "\n" [] out

/-! ## Columns -/

variable {buf : Buffer} {w : List UInt8} {n i j : Nat} {c : UInt8}

/-- A column of `n` bytes, its NUL included; what is too long for it is not cut. -/
def column (n : Nat) (w : List UInt8) : List UInt8 :=
  if w.length ≥ n then w else w ++ List.replicate (n - 1 - w.length) 0x20

theorem rpadLoop_apply :
    rpadLoop c n i buf j = if i ≤ j ∧ j < i + n then c else buf j := by
  induction n generalizing i buf with
  | zero => rw [rpadLoop, if_neg (by omega)]
  | succ n ih =>
    rw [rpadLoop, ih, update_apply]
    split_ifs <;> first | rfl | omega

theorem length_column_le : (column n w).length ≤ max n w.length := by
  unfold column
  split
  · exact Nat.le_max_right ..
  · rw [List.length_append, List.length_replicate]
    omega

theorem column_no_nul (h : 0 ∉ w) : 0 ∉ column n w := by
  unfold column
  split
  · exact h
  · rw [List.mem_append, not_or]
    refine ⟨h, ?_⟩
    intro hmem
    exact absurd (List.eq_of_mem_replicate hmem) (by decide)

theorem rpad_spec (h : StringIn buf 0 w) (hlen : w.length < memorySize) :
    ∃ buf', rpad buf 0x20 n = .ok buf' ∧ StringIn buf' 0 (column n w) := by
  unfold rpad
  rw [h.strlen_eq hlen]
  by_cases hlong : w.length ≥ n
  · refine ⟨buf, if_pos hlong, ?_⟩
    rw [column, if_pos hlong]
    exact h
  · have hcol : column n w = w ++ List.replicate (n - 1 - w.length) 0x20 := if_neg hlong
    refine ⟨_, if_neg hlong, ?_, ?_, column_no_nul h.no_nul⟩
    · intro j hj
      rw [hcol, List.length_append, List.length_replicate] at hj
      simp only [hcol]
      rw [Nat.zero_add, update_of_ne (by omega), rpadLoop_apply, List.getElem_append]
      by_cases hjw : j < w.length
      · rw [if_neg (by omega), dif_pos hjw, h.getElem_eq hjw]
      · rw [if_pos (by omega), dif_neg hjw, List.getElem_replicate]
    · have hend : (column n w).length = n - 1 := by
        rw [hcol, List.length_append, List.length_replicate]
        omega
      rw [hend, Nat.zero_add, update_self]

/-- A string copied to a print buffer, brought to a column and read back. -/
theorem column_spec {src : CString} (hlen : src.chars.length < printBufferSize) (hn : n ≤ 64)
    (dst : Buffer) : ∃ buf', rpad (strcpy dst src printBufferSize) 0x20 n = .ok buf' ∧
      bufferString buf' = .ok ⟨column n src.chars, column_no_nul src.no_nul⟩ := by
  have hsize : printBufferSize < memorySize := by decide
  have h64 : (64 : Nat) < memorySize := by decide
  have hsmall : printBufferSize = 64 := rfl
  have hstring := stringIn_strcpy dst hlen
  obtain ⟨buf', hpad, hcol⟩ := @rpad_spec _ _ n hstring (by omega)
  have hle := @length_column_le src.chars n
  exact ⟨buf', hpad, bufferString_eq hcol (by omega)⟩

/-! ## The table -/

/-- The slot of a process started as `e.1` with the page `e.2`. -/
structure Process.Shows (p : Process) (e : CString × UInt32) : Prop where
  state : p.state = .runnable
  time : p.cpuTimeMs = 0
  memory : p.processMemoryStart = e.2
  name : StringIn p.nameMemory 0 (e.1.chars.take processNameSize)

/-- The slots in use are those of `es`, in order. -/
structure Lists (ps : ProcessTable) (es : List (CString × UInt32)) : Prop where
  length_le : es.length ≤ maxProcesses
  pos : 0 < es.length
  shows : ∀ i (hi : i < es.length), (ps i).Shows es[i]
  unused : ∀ i, es.length ≤ i → i < maxProcesses →
    (ps i).state = .unused ∧ (ps i).processMemoryStart = 0

theorem nameMemory_blank (p : Process) (name : CString) (hi : i ≤ processNameSize) :
    (p.blank name).nameMemory i = strcpy p.nameMemory name processNameSize i := by
  have hi' : i ≤ 16 := hi
  show Buffer.ofArray _ _ i = _
  rw [Buffer.ofArray]
  by_cases hlt : i < 16
  · rw [dif_pos hlt]
    exact Vector.getElem_ofFn ..
  · obtain rfl : i = 16 := by omega
    rw [dif_neg (by decide)]
    exact byte32_le32_zero ..

/-- The name of a slot that was set up: 16 characters of it at most, and a NUL behind. -/
theorem stringIn_blank (p : Process) (name : CString) :
    StringIn (p.blank name).nameMemory 0 (name.chars.take processNameSize) where
  chars j hj := by
    rw [List.length_take] at hj
    rw [Nat.zero_add, nameMemory_blank p name (by omega), strcpy_apply, if_pos (by omega),
      List.getElem_take, CString.get_eq (by omega)]
  nul := by
    rw [List.length_take, Nat.zero_add, nameMemory_blank p name (by omega), strcpy_apply,
      if_neg (by omega), if_pos (by omega)]
  no_nul hmem := name.no_nul (List.mem_of_mem_take hmem)

theorem shows_blank (p : Process) (name : CString) (page : UInt32) :
    ({ (p.blank name).setMemory page with state := .runnable } : Process).Shows (name, page) where
  state := rfl
  time := rfl
  memory := rfl
  name := stringIn_blank p name

namespace Lists

variable {ps : ProcessTable} {es : List (CString × UInt32)} {p : Process} {e : CString × UInt32}

/-- The first free slot is the one behind the list. -/
theorem nextFreePidLoop (h : Lists ps es) (hi : i ≤ es.length) (hn : i + n = maxProcesses) :
    processGetNextFreePidLoop ps n i = if es.length < maxProcesses then (es.length : Int) else -1 := by
  induction n generalizing i with
  | zero => exact (if_neg (by omega)).symm
  | succ n ih =>
    unfold processGetNextFreePidLoop
    by_cases hlt : i < es.length
    · rw [if_neg, ih (by omega) (by omega)]
      rw [(h.shows i hlt).state]
      decide
    · obtain rfl : i = es.length := by omega
      rw [if_pos (h.unused _ (Nat.le_refl _) (by omega)).1, if_pos (by omega)]

theorem nextFreePid (h : Lists ps es) : processGetNextFreePid ps =
    if es.length < maxProcesses then (es.length : Int) else -1 :=
  h.nextFreePidLoop h.pos (by decide)

theorem concat (h : Lists ps es) (hlt : es.length < maxProcesses) (hp : p.Shows e) :
    Lists (update ps es.length p) (es ++ [e]) where
  length_le := by
    rw [List.length_append, List.length_singleton]
    omega
  pos := by
    rw [List.length_append, List.length_singleton]
    omega
  shows i hi := by
    rw [List.length_append, List.length_singleton] at hi
    by_cases hie : i = es.length
    · subst hie
      rw [update_self, List.getElem_concat_length]
      exact hp
      rfl
    · rw [update_of_ne hie, List.getElem_append_left (by omega)]
      exact h.shows i (by omega)
  unused i hi hi' := by
    rw [List.length_append, List.length_singleton] at hi
    rw [update_of_ne (by omega)]
    exact h.unused i (by omega) hi'

theorem keep (h : Lists ps es) (hst : p.state = .unused) (hmem : p.processMemoryStart = 0) :
    Lists (update ps es.length p) es where
  length_le := h.length_le
  pos := h.pos
  shows i hi := by
    rw [update_of_ne (by omega)]
    exact h.shows i hi
  unused i hi hi' := by
    by_cases hie : i = es.length
    · rw [hie, update_self]
      exact ⟨hst, hmem⟩
    · rw [update_of_ne hie]
      exact h.unused i hi hi'

end Lists

/-! ## Runs -/

section Run

variable {σ : Type} (pmemAlloc : σ → Kern (UInt32 × σ))

/-- The process that a call of a run started, if it did. -/
def startedBy : ProcSys σ × ProcOp → Option (CString × UInt32)
  | (k, .execve fileName fs) =>
    if Denied fs k then none
    else
      match pmemAlloc k.pages with
      | .ok (page, _) => if page = 0 then none else some (fileName, page)
      | .error _ => none
  | (_, .update) => none

/-- The processes started during a run, in order. -/
def started (tr : List (ProcSys σ × ProcOp)) : List (CString × UInt32) :=
  tr.filterMap (startedBy pmemAlloc)

variable {pmemAlloc} {k k' k0 : ProcSys σ} {es : List (CString × UInt32)} {op : ProcOp}

theorem Lists.step (h : Lists k.processes es) (hs : ProcStep pmemAlloc k op k') :
    Lists k'.processes (es ++ (startedBy pmemAlloc (k, op)).toList) := by
  cases op with
  | update =>
    obtain ⟨s, -, rfl⟩ := hs
    exact (List.append_nil es).symm ▸ h
  | execve fileName fs =>
    obtain ⟨res, hx⟩ := hs
    by_cases hden : Denied fs k
    · rw [processExecve_denied hden] at hx
      obtain ⟨-, rfl⟩ := Prod.mk.inj (Except.ok.inj hx)
      rw [startedBy, if_pos hden]
      exact (List.append_nil es).symm ▸ h
    · have hpid := h.nextFreePid
      by_cases hlt : es.length < maxProcesses
      · rw [if_pos hlt] at hpid
        have hmem := (h.unused _ (Nat.le_refl _) hlt).2
        rw [processExecve_eq hden hpid h.pos hlt hmem] at hx
        obtain ⟨⟨page, pages⟩, halloc, hx⟩ := bind_eq_ok.mp hx
        rw [startedBy, if_neg hden, halloc]
        dsimp only at hx ⊢
        split at hx
        · next h0 =>
          obtain ⟨-, rfl⟩ := Prod.mk.inj (Except.ok.inj hx)
          rw [if_pos h0, Option.toList_none, List.append_nil]
          exact h.keep rfl h0
        · next h0 =>
          obtain ⟨-, rfl⟩ := Prod.mk.inj (Except.ok.inj hx)
          rw [if_neg h0, Option.toList_some]
          exact h.concat hlt (shows_blank _ fileName page)
      · refine absurd (.inr ?_) hden
        rw [hpid, if_neg hlt]
        decide

theorem processSchedInit_idle {ps : ProcessTable} {pages : σ}
    (hinit : processSchedInit pmemAlloc ps pages = .ok k0) :
    ∃ page pages', pmemAlloc pages = .ok (page, pages') ∧ k0.processes =
      update (clearProcesses ps) 0
        { ((clearProcesses ps 0).blank idleProcessName).setMemory page with state := .runnable } := by
  obtain ⟨⟨ps₁, pages₁⟩, hslot, h⟩ := bind_eq_ok.mp hinit
  obtain rfl := Except.ok.inj h
  obtain ⟨⟨ps₂, pages₂⟩, hproc, h⟩ := bind_eq_ok.mp hslot
  obtain ⟨rfl, rfl⟩ := Prod.mk.inj (Except.ok.inj h)
  have hproc : processInitProcess pmemAlloc idleProcessName 0 (clearProcesses ps) pages =
      .ok (ps₂, pages₂) := hproc
  rw [processInitProcess_eq idleProcessName (clearProcesses_spec ps (by decide)).2] at hproc
  obtain ⟨⟨page, pages₃⟩, halloc, h⟩ := bind_eq_ok.mp hproc
  obtain ⟨rfl, rfl⟩ := Prod.mk.inj (Except.ok.inj h)
  exact ⟨page, pages₃, halloc, by simp⟩

theorem processSchedInit_lists {ps : ProcessTable} {pages : σ}
    (hinit : processSchedInit pmemAlloc ps pages = .ok k0) :
    ∃ page pages', pmemAlloc pages = .ok (page, pages') ∧
      Lists k0.processes [(idleProcessName, page)] := by
  obtain ⟨page, pages', halloc, hps⟩ := processSchedInit_idle hinit
  refine ⟨page, pages', halloc, Nat.succ_le_of_lt (by decide), Nat.zero_lt_succ _, ?_, ?_⟩
  · intro i hi
    obtain rfl : i = 0 := Nat.lt_one_iff.mp hi
    rw [hps, update_self]
    exact shows_blank _ idleProcessName page
  · intro i hi hi'
    have hi : 1 ≤ i := hi
    rw [hps, update_of_ne (by omega)]
    exact clearProcesses_spec ps hi'

theorem started_concat (tr : List (ProcSys σ × ProcOp)) (k : ProcSys σ) (op : ProcOp) :
    started pmemAlloc (tr ++ [(k, op)]) =
      started pmemAlloc tr ++ (startedBy pmemAlloc (k, op)).toList := by
  rw [started, List.filterMap_append, List.filterMap_cons, List.filterMap_nil, started]
  cases startedBy pmemAlloc (k, op) <;> rfl

/-- The table after a run: the idle process, then the processes started. -/
theorem ps_run {ps : ProcessTable} {pages : σ} {tr : List (ProcSys σ × ProcOp)}
    (hinit : processSchedInit pmemAlloc ps pages = .ok k0)
    (hrun : Trace (ProcStep pmemAlloc) k0 tr k) :
    ∃ page pages', pmemAlloc pages = .ok (page, pages') ∧
      Lists k.processes ((idleProcessName, page) :: started pmemAlloc tr) := by
  obtain ⟨page, pages', halloc, hlists⟩ := processSchedInit_lists hinit
  refine ⟨page, pages', halloc, ?_⟩
  induction hrun with
  | start => exact hlists
  | next _ hs ih =>
    rw [started_concat]
    exact ih.step hs

end Run

/-! ## The report -/

/-- The line of slot `i`. -/
def processRow (i : Nat) (e : CString × UInt32) : Output :=
  line "%d | %s | %s | %d | %x\n"
    [.int (UInt32.ofNat i),
      .str ⟨column 16 (e.1.chars.take processNameSize),
        column_no_nul fun hmem => e.1.no_nul (List.mem_of_mem_take hmem)⟩,
      .str (cstr "Runnable   "), .int 0, .int e.2]

theorem processPrintlistLoop_eq {ps : ProcessTable} {es : List (CString × UInt32)}
    (h : Lists ps es) (bufName bufState : Buffer) (hn : i + n = maxProcesses) (out : Output) :
    processPrintlistLoop ps n i bufName bufState out =
      .ok (out ++ ((es.drop i).zipIdx i).flatMap fun e => processRow e.2 e.1) := by
  have hle := h.length_le
  induction n generalizing i bufName bufState out with
  | zero =>
    rw [processPrintlistLoop, List.drop_eq_nil_of_le (by omega)]
    exact congrArg Except.ok (List.append_nil out).symm
  | succ n ih =>
    unfold processPrintlistLoop
    by_cases hi : i < es.length
    · have hshows := h.shows i hi
      have hused : (ps i).state ≠ .unused := by
        rw [hshows.state]
        decide
      have hname : bufferString (ps i).nameMemory = .ok ⟨_, hshows.name.no_nul⟩ := by
        apply bufferString_eq hshows.name
        rw [List.length_take]
        exact Nat.lt_of_le_of_lt (Nat.min_le_left ..) (by decide)
      have hshort : (es[i].1.chars.take processNameSize).length < printBufferSize := by
        rw [List.length_take]
        exact Nat.lt_of_le_of_lt (Nat.min_le_left ..) (by decide)
      obtain ⟨buf₁, hpad₁, hcol₁⟩ := @column_spec 16 ⟨_, hshows.name.no_nul⟩ hshort (by decide) bufName
      obtain ⟨buf₂, hpad₂, hcol₂⟩ := @column_spec 12 (cstr "Runnable") (by decide) (by decide) bufState
      have hstate : (⟨column 12 (cstr "Runnable").chars, column_no_nul (cstr "Runnable").no_nul⟩ :
          CString) = cstr "Runnable   " := CString.eq_of_chars (by decide)
      rw [hstate] at hcol₂
      rw [if_pos hused, kern_bind hname, hshows.state, processStateToStr, kern_bind hpad₁,
        kern_bind hpad₂, kern_bind hcol₁, kern_bind hcol₂,
        say_bind [.int, .str, .str, .int, .int] rfl (by decide), ih _ _ (by omega),
        List.drop_eq_getElem_cons hi, List.zipIdx_cons, List.flatMap_cons, List.append_assoc,
        hshows.time, hshows.memory]
      rfl
    · have hunused := (h.unused i (by omega) (by omega)).1
      rw [if_neg (not_not.mpr hunused), ih _ _ (by omega), List.drop_eq_nil_of_le (by omega),
        List.drop_eq_nil_of_le (by omega)]
      rfl

theorem processPrintlist_eq {ps : ProcessTable} {es : List (CString × UInt32)} (h : Lists ps es)
    (stack : Buffer) (out : Output) : processPrintlist stack ps out = .ok (out ++
      (line "PID | Process Name    | State       | Time  | Memory \n" [] ++
        (es.zipIdx.flatMap fun e => processRow e.2 e.1) ++ line "\n" [])) := by
  have hloop := fun out => @processPrintlistLoop_eq maxProcesses 0 _ _ h stack stack
    (Nat.zero_add _) out
  unfold processPrintlist
  rw [say_bind [] rfl (by decide), bind_of_ok (hloop _), say_eq [] rfl (by decide),
    List.drop_zero]
  simp only [List.append_assoc]

/-- **`ps`.**  After any run of `process_execve` and timer updates from boot it lists the idle
process and the processes started, in order, each with its name and its page. -/
theorem ps_lists_started {σ : Type} {pmemAlloc : σ → Kern (UInt32 × σ)} {k0 k : ProcSys σ}
    {ps : ProcessTable} {pages : σ} {tr : List (ProcSys σ × ProcOp)}
    (hinit : processSchedInit pmemAlloc ps pages = .ok k0)
    (hrun : Trace (ProcStep pmemAlloc) k0 tr k) (stack : Buffer) (out : Output) :
    ∃ page pages', pmemAlloc pages = .ok (page, pages') ∧
      ((idleProcessName, page) :: started pmemAlloc tr).length ≤ maxProcesses ∧
      processPrintlist stack k.processes out = .ok (out ++
        (line "PID | Process Name    | State       | Time  | Memory \n" [] ++
        (((idleProcessName, page) :: started pmemAlloc tr).zipIdx.flatMap fun e =>
          processRow e.2 e.1) ++
        line "\n" [])) := by
  obtain ⟨page, pages', halloc, hlists⟩ := ps_run hinit hrun
  exact ⟨page, pages', halloc, hlists.length_le, processPrintlist_eq hlists stack out⟩

/-- A process named `A` gets the page behind that of the idle process. -/
theorem ps_lists_started_one : ∃ k0 k : ProcSys Nat,
    processSchedInit pagesUpward (fun _ => default) 512 = .ok k0 ∧
    processExecve pagesUpward ⟨[0x41], by decide⟩ ⟨1, 0⟩ k0 = .ok (1, k) ∧
    processPrintlist (fun _ => 0) k.processes [] = .ok (
      line "PID | Process Name    | State       | Time  | Memory \n" [] ++
        (processRow 0 (idleProcessName, 0x200000) ++
          (processRow 1 (⟨[0x41], by decide⟩, 0x201000) ++ [])) ++ line "\n" []) := by
  obtain ⟨k0, hinit, hpage⟩ : ∃ k0, processSchedInit pagesUpward (fun _ => default) 512 = .ok k0 ∧
      startedBy pagesUpward (k0, .execve ⟨[0x41], by decide⟩ ⟨1, 0⟩) =
        some (⟨[0x41], by decide⟩, 0x201000) := ⟨_, rfl, rfl⟩
  obtain ⟨k, hx⟩ : ∃ k, processExecve pagesUpward ⟨[0x41], by decide⟩ ⟨1, 0⟩ k0 = .ok (1, k) := by
    cases hinit
    exact ⟨_, rfl⟩
  have hs : ProcStep pagesUpward k0 (.execve ⟨[0x41], by decide⟩ ⟨1, 0⟩) k := ⟨1, hx⟩
  have hstarted : started pagesUpward ([] ++ [(k0, .execve ⟨[0x41], by decide⟩ ⟨1, 0⟩)]) =
      [(⟨[0x41], by decide⟩, 0x201000)] := by
    rw [started_concat, hpage]
    rfl
  obtain ⟨page, pages, halloc, -, hps⟩ :=
    ps_lists_started hinit (Trace.start.next hs) (fun _ => 0) []
  obtain rfl : page = 0x200000 := (Prod.mk.inj (Except.ok.inj halloc)).1.symm
  rw [hstarted] at hps
  exact ⟨k0, k, hinit, hx, hps⟩

end KoizOs
