import KoizOs.Process.Tickets
import KoizOs.Shell.Reports

/-!
# What `sched` shows

`sched_printinfo` follows the three lists and prints, for each entry, the pid of the process
that the entry points to.  It has to come to an end, and never to meet an entry that points to
no process: `SchedInv` says both of every state that a run reaches (`sched_prints_queues`).
-/

namespace KoizOs

open Function Lib

/-! ## Algorithm -/

/-- From `cptr` on, at most `fuel` entries. -/
def schedPrintList (ps : ProcessTable) (s : Sched) :
    (fuel : Nat) → (cptr : Option Nat) → Output → Except ReadFault Output
  | _, none, out => .ok out
  | 0, some _, _ => .error (.kern .hang)
  | fuel + 1, some cptr, out =>
    match s.ptr cptr with
    | none => .error (.kern (.panic "There exists a null process in the scheduler!\n"))
    | some p => do
      let out ← say " %d (%d) -> "
        [.int (ps p).pid, .int (UInt32.ofInt (s.tickets cptr))] out
      schedPrintList ps s fuel (s.next cptr) out

/-- `n` lists are left to print, the next one is `i`. -/
def schedPrintQueues (ps : ProcessTable) (s : Sched) :
    (n i : Nat) → Output → Except ReadFault Output
  | 0, _, out => .ok out
  | n + 1, i, out => do
    let out ← say "P%d:" [.int (UInt32.ofNat i)] out
    match s.procPriorityList i with
    | none =>
      let out ← say "<empty>\n" [] out
      schedPrintQueues ps s n (i + 1) out
    | some head =>
      let out ← schedPrintList ps s maxProcesses (some head) out
      let out ← say "\n" [] out
      schedPrintQueues ps s n (i + 1) out

def schedPrintinfo (ps : ProcessTable) (s : Sched) (out : Output) : Except ReadFault Output := do
  let out ← say "Current Process: " [] out
  match s.currentProcess with
  | none =>
    let out ← say "<empty>\n" [] out
    schedPrintQueues ps s maxPriorityQueues 0 out
  | some cur =>
    match s.ptr cur with
    | none => .error (.kern (.panic "There exists a null process in the scheduler!\n"))
    | some p =>
      let out ← say "%d\n" [.int (ps p).pid] out
      schedPrintQueues ps s maxPriorityQueues 0 out

/-! ## Entries point to their own slots -/

variable {s t : Sched} {cur p n i : Nat} {L : Nat → List Nat} {ps : ProcessTable}

/-- An entry points to no process, or to the one in the slot of its number. -/
def OwnPtr (s : Sched) : Prop := ∀ a, s.ptr a = none ∨ s.ptr a = some a

theorem schedUnlinkLoop_ptr {nx h : Option Nat} {fuel : Nat}
    (hu : schedUnlinkLoop cur nx fuel h s = .ok t) : t.ptr = s.ptr := by
  induction fuel generalizing h with
  | zero =>
    cases h with
    | none => exact absurd hu (panic_ne_ok _ _)
    | some a => cases hu
  | succ fuel ih =>
    cases h with
    | none => exact absurd hu (panic_ne_ok _ _)
    | some a =>
      unfold schedUnlinkLoop at hu
      split at hu
      · obtain rfl := Except.ok.inj hu
        exact Sched.setNext_ptr ..
      · exact ih hu

theorem schedUnlink_ptr (hu : schedUnlink cur p s = .ok t) : t.ptr = s.ptr := by
  unfold schedUnlink at hu
  split at hu
  · exact absurd hu (panic_ne_ok _ _)
  · split at hu
    · obtain rfl := Except.ok.inj hu
      rfl
    · exact schedUnlinkLoop_ptr hu

theorem schedDemote_ptr (hd : schedDemote cur s = .ok t) : t.ptr = s.ptr := by
  unfold schedDemote at hd
  dsimp only at hd
  split at hd
  · obtain ⟨u, hu, hd⟩ := bind_eq_ok.mp hd
    split at hd
    · exact absurd hd (panic_ne_ok _ _)
    · obtain rfl := Except.ok.inj hd
      rw [Sched.setHead_ptr, Sched.setEntry_ptr, ← schedUnlink_ptr hu]
      exact update_eq_self cur u.ptr
  · obtain rfl := Except.ok.inj hd
    rfl

/-- An update moves entries about; none of them comes to point to another process. -/
theorem schedUpdate_ptr (h : schedUpdate s = .ok t) : t.ptr = s.ptr := by
  have hswitch : ∀ u cur, (schedSwitch cur u).ptr = u.ptr := by
    intro u cur
    obtain ⟨c, hc⟩ := schedSwitch_eq cur u
    rw [hc]
    rfl
  cases hcur : s.currentProcess with
  | none =>
    rw [schedUpdate_none hcur] at h
    obtain rfl := Except.ok.inj h
    rfl
  | some cur =>
    rcases schedUpdate_cases h hcur with ⟨-, rfl⟩ | ⟨-, u, hu, rfl⟩
    · rw [hswitch, Sched.setTickets_ptr]
    · rw [hswitch, schedDemote_ptr hu, Sched.setTickets_ptr]

theorem OwnPtr.enqueue (h : OwnPtr s) (pid : Nat) : OwnPtr (s.enqueue pid) := by
  intro a
  rw [Sched.enqueue, Sched.setHead_ptr, Sched.setEntry_ptr, update_apply]
  split
  · next ha => exact .inr (congrArg some ha.symm)
  · exact h a

section Run

variable {σ : Type} {pmemAlloc : σ → Kern (UInt32 × σ)} {k0 k k' : ProcSys σ}

theorem OwnPtr.step {op : ProcOp} (h : OwnPtr k.sched) (hs : ProcStep pmemAlloc k op k') :
    OwnPtr k'.sched := by
  cases op with
  | update =>
    obtain ⟨s, hs, rfl⟩ := hs
    intro a
    rw [schedUpdate_ptr hs]
    exact h a
  | execve fileName fs =>
    obtain ⟨res, hx⟩ := hs
    rcases processExecve_slot hx with ⟨-, -, rfl⟩ |
      ⟨pid, page, st, -, -, -, -, -, -, ⟨-, -, -, hsched⟩ | ⟨-, -, -, hsched⟩⟩
    · exact h
    · rw [hsched]
      exact h
    · rw [hsched]
      exact h.enqueue pid

theorem processSchedInit_ownPtr {ps : ProcessTable} {pages : σ}
    (hinit : processSchedInit pmemAlloc ps pages = .ok k0) : OwnPtr k0.sched := by
  obtain ⟨⟨ps₁, pages₁⟩, -, h⟩ := bind_eq_ok.mp hinit
  obtain rfl := Except.ok.inj h
  exact fun _ => .inl rfl

theorem sched_run_ownPtr {ps : ProcessTable} {pages : σ} {tr : List (ProcSys σ × ProcOp)}
    (hinit : processSchedInit pmemAlloc ps pages = .ok k0)
    (hrun : Trace (ProcStep pmemAlloc) k0 tr k) : OwnPtr k.sched :=
  (hrun.invariant (I := fun k => OwnPtr k.sched) (processSchedInit_ownPtr hinit)
    fun _ _ _ => OwnPtr.step).1

end Run

theorem Queues.ptr_eq (h : Queues s L) (hown : OwnPtr s) (hi : i < 3) {a : Nat} (ha : a ∈ L i) :
    s.ptr a = some a :=
  (hown a).resolve_left (h.ptr i hi a ha)

/-! ## The report -/

/-- What is printed of an entry. -/
def entryText (ps : ProcessTable) (s : Sched) (a : Nat) : Output :=
  line " %d (%d) -> " [.int (ps a).pid, .int (UInt32.ofInt (s.tickets a))]

/-- The line of list `i` with the entries `l`. -/
def queueLine (ps : ProcessTable) (s : Sched) (l : List Nat) (i : Nat) : Output :=
  line "P%d:" [.int (UInt32.ofNat i)] ++
    if l = [] then line "<empty>\n" [] else l.flatMap (entryText ps s) ++ line "\n" []

/-- The line of the current process. -/
def currentLine (ps : ProcessTable) (s : Sched) : Output :=
  match s.currentProcess with
  | none => line "<empty>\n" []
  | some cur => line "%d\n" [.int (ps cur).pid]

theorem schedPrintList_eq {l : List Nat} {head : Option Nat} (hl : IsList s.next head l)
    (hptr : ∀ a ∈ l, s.ptr a = some a) (hlen : l.length ≤ n) (out : Output) :
    schedPrintList ps s n head out = .ok (out ++ l.flatMap (entryText ps s)) := by
  induction l generalizing head n out with
  | nil =>
    cases hl
    cases n <;> exact congrArg Except.ok (List.append_nil out).symm
  | cons a l ih =>
    obtain ⟨rfl, hrest⟩ := IsList.cons_iff.mp hl
    rw [List.length_cons] at hlen
    obtain ⟨n, rfl⟩ : ∃ m, n = m + 1 := ⟨n - 1, by omega⟩
    rw [schedPrintList, hptr a List.mem_cons_self]
    dsimp only
    rw [say_bind [.int, .int] rfl (by decide),
      ih hrest (fun b hb => hptr b (List.mem_cons_of_mem a hb)) (by omega), List.flatMap_cons,
      List.append_assoc]
    rfl

theorem schedPrintQueues_eq (h : Queues s L) (hown : OwnPtr s) (hn : i + n ≤ 3) (out : Output) :
    schedPrintQueues ps s n i out =
      .ok (out ++ (List.range' i n).flatMap fun j => queueLine ps s (L j) j) := by
  induction n generalizing i out with
  | zero => exact congrArg Except.ok (List.append_nil out).symm
  | succ n ih =>
    have hi : i < 3 := by omega
    have hempty := h.head_none_iff hi
    rw [schedPrintQueues, say_bind [.int] rfl (by decide), List.range'_succ, List.flatMap_cons]
    cases hhead : s.procPriorityList i with
    | none =>
      dsimp only
      rw [say_bind [] rfl (by decide), ih (by omega), queueLine, if_pos (hempty.mp hhead)]
      simp only [List.append_assoc]
    | some head =>
      have hlist := h.isList i hi
      rw [hhead] at hlist
      have hprint := fun out => @schedPrintList_eq s maxProcesses ps _ _ hlist
        (fun a ha => h.ptr_eq hown hi ha) (h.length_le hi) out
      have hne : L i ≠ [] := by
        rw [Ne, ← hempty, hhead]
        exact Option.some_ne_none head
      dsimp only
      rw [bind_of_ok (hprint _), say_bind [] rfl (by decide), ih (by omega), queueLine,
        if_neg hne]
      simp only [List.append_assoc]

theorem schedPrintinfo_eq (hinv : SchedInv ps s L) (hown : OwnPtr s) (out : Output) :
    schedPrintinfo ps s out = .ok (out ++
      (line "Current Process: " [] ++ currentLine ps s ++
        (List.range maxPriorityQueues).flatMap fun i => queueLine ps s (L i) i)) := by
  have hqueues := fun out => @schedPrintQueues_eq s maxPriorityQueues 0 L ps
    hinv.queues hown (by decide) out
  rw [← List.range_eq_range'] at hqueues
  unfold schedPrintinfo currentLine
  rw [say_bind [] rfl (by decide)]
  cases hcur : s.currentProcess with
  | none =>
    dsimp only
    rw [say_bind [] rfl (by decide), hqueues]
    simp only [List.append_assoc]
  | some cur =>
    obtain ⟨hprio, hmem⟩ := hinv.current cur hcur
    dsimp only
    rw [hinv.queues.ptr_eq hown hprio hmem]
    dsimp only
    rw [say_bind [.int] rfl (by decide), hqueues]
    simp only [List.append_assoc]

/-- **`sched`.**  In every state of a run it comes to an end: it prints the pid of the current
process, then of each list its entries in order, as `SchedInv` has them. -/
theorem sched_prints_queues {σ : Type} {pmemAlloc : σ → Kern (UInt32 × σ)} {k0 k : ProcSys σ}
    {pages : σ} {tr : List (ProcSys σ × ProcOp)}
    (hinit : processSchedInit pmemAlloc ps pages = .ok k0)
    (hrun : Trace (ProcStep pmemAlloc) k0 tr k) (out : Output) :
    ∃ L, SchedInv k.processes k.sched L ∧
      schedPrintinfo k.processes k.sched out = .ok (out ++
        (line "Current Process: " [] ++ currentLine k.processes k.sched ++
          (List.range maxPriorityQueues).flatMap fun i => queueLine k.processes k.sched (L i) i)) := by
  obtain ⟨L, hinv⟩ := sched_run_inv hinit hrun
  exact ⟨L, hinv, schedPrintinfo_eq hinv (sched_run_ownPtr hinit hrun) out⟩

/-- One process: its entry is the list of the best priority. -/
theorem sched_prints_queues_one : ∃ k0 k : ProcSys Nat,
    processSchedInit pagesUpward (fun _ => default) 512 = .ok k0 ∧
    ProcStep pagesUpward k0 execveA k ∧ ∃ L, SchedInv k.processes k.sched L ∧
      schedPrintinfo k.processes k.sched [] = .ok
        (line "Current Process: " [] ++ line "<empty>\n" [] ++
          (List.range maxPriorityQueues).flatMap fun i =>
            queueLine k.processes k.sched (L i) i) := by
  obtain ⟨k0, h0⟩ : ∃ k0, processSchedInit pagesUpward (fun _ => default) 512 = .ok k0 := ⟨_, rfl⟩
  obtain ⟨k, h1, hnone⟩ : ∃ k, ProcStep pagesUpward k0 execveA k ∧
      k.sched.currentProcess = none := by
    cases h0
    exact ⟨_, ⟨_, rfl⟩, rfl⟩
  obtain ⟨L, hinv, hprint⟩ := sched_prints_queues h0 (Trace.start.next h1) []
  rw [currentLine, hnone] at hprint
  exact ⟨k0, k, h0, h1, L, hinv, hprint⟩

end KoizOs
