import KoizOs.Process.Queues

/-!
# Who is in the lists, and who runs

`SchedInv ps s L`: the lists of `s` are the chains `L`, they hold exactly the live pids of
the table `ps`, and the current process is in the list of its priority.  Every call keeps
it (`schedUpdate_spec`, `processExecve_inv`), whatever the file system reports, and under
it no panic of `schedUpdate` can happen:

    every reachable state is well queued and its next update returns     (sched_membership)
    after an update the current process has the best priority there is   (sched_strict_priority)
-/

namespace KoizOs

open Function Lib

variable {s t : Sched} {L : Nat → List Nat} {cur : Nat}

/-- `pid` is a slot the scheduler is responsible for. -/
def Live (ps : ProcessTable) (pid : Nat) : Prop :=
  1 ≤ pid ∧ pid < maxProcesses ∧ (ps pid).state ≠ .unused

structure SchedInv (ps : ProcessTable) (s : Sched) (L : Nat → List Nat) : Prop where
  queues : Queues s L
  members : ∀ pid, (∃ i, i < 3 ∧ pid ∈ L i) ↔ Live ps pid
  current : ∀ c, s.currentProcess = some c → s.priority c < 3 ∧ c ∈ L (s.priority c)

/-! ## One update -/

/-- The lists after `cur` has gone from list `p` to the head of list `p + 1`. -/
def demoted (L : Nat → List Nat) (cur p : Nat) : Nat → List Nat :=
  update (update L p ((L p).erase cur)) (p + 1) (cur :: L (p + 1))

/-- `cur` is now in the next list only; everyone else is where they were. -/
theorem mem_demoted (h : Queues s L) {p i a : Nat} (hp : p < 2) (hi : i < 3) (hcur : cur ∈ L p) :
    a ∈ demoted L cur p i ↔ (a = cur ∧ i = p + 1) ∨ (a ≠ cur ∧ a ∈ L i) := by
  have hcn : i ≠ p → cur ∉ L i := fun hip hm => hip (h.disjoint hi (by omega) hm hcur)
  unfold demoted
  by_cases hip : i = p + 1
  · subst hip
    have := hcn (by omega)
    rw [update_self, List.mem_cons]
    by_cases hac : a = cur
    · simp [hac]
    · simp [hac]
  · rw [update_of_ne hip]
    by_cases hip' : i = p
    · subst hip'
      rw [update_self, (h.isList i hi).nodup.mem_erase_iff]
      simp
    · have := hcn hip'
      rw [update_of_ne hip']
      by_cases hac : a = cur
      · simp [hac, hip, this]
      · simp [hac]

theorem demoted_members (h : Queues s L) {p a : Nat} (hp : p < 2) (hcur : cur ∈ L p) :
    (∃ i, i < 3 ∧ a ∈ demoted L cur p i) ↔ ∃ i, i < 3 ∧ a ∈ L i := by
  constructor
  · rintro ⟨i, hi, ha⟩
    rcases (mem_demoted h hp hi hcur).mp ha with ⟨rfl, -⟩ | ⟨-, ha⟩
    · exact ⟨p, by omega, hcur⟩
    · exact ⟨i, hi, ha⟩
  · rintro ⟨i, hi, ha⟩
    by_cases hac : a = cur
    · exact ⟨p + 1, by omega, (mem_demoted h hp (by omega) hcur).mpr (.inl ⟨hac, rfl⟩)⟩
    · exact ⟨i, hi, (mem_demoted h hp hi hcur).mpr (.inr ⟨hac, ha⟩)⟩

/-- Demoting `cur` moves it to the head of the next list; nothing else moves. -/
theorem schedDemote_spec (h : Queues s L) (hp : s.priority cur < 2)
    (hcur : cur ∈ L (s.priority cur)) :
    ∃ t, schedDemote cur s = .ok t ∧ Queues t (demoted L cur (s.priority cur)) ∧
      t.priority cur = s.priority cur + 1 ∧ t.currentProcess = s.currentProcess := by
  generalize hpr : s.priority cur = p at hp hcur
  obtain ⟨u, hu, hqueues, hgone, hprio, hptr, hc⟩ := h.unlink (by omega) hcur
  let e : MlfqEntry :=
    { u.procList cur with
      priority := p + 1, ticketsRemaining := startingTickets,
      nextProcess := u.procPriorityList (p + 1) }
  have heq : schedDemote cur s = .ok ((u.setEntry cur e).setHead (p + 1) (some cur)) := by
    have hp2 : p < maxPriorityQueues - 1 := hp
    have hup : u.priority cur = p := by rw [hprio, hpr]
    have hnp : ¬ (p + 1 ≥ maxPriorityQueues) := Nat.not_le.mpr (Nat.succ_lt_succ hp)
    simp only [schedDemote, hpr, hp2, if_true, hu, ok_bind, hup, hnp, if_false, pure_eq_ok]
    rfl
  have heptr : e.ptr ≠ none := by
    have hcurptr := h.ptr p (by omega) cur hcur
    rw [← hptr] at hcurptr
    exact hcurptr
  have hpush := hqueues.push (p := p + 1) (e := e) rfl heptr rfl (h.pid p (by omega) cur hcur)
    hgone
  rw [update_of_ne (Nat.succ_ne_self p)] at hpush
  refine ⟨_, heq, hpush, ?_, ?_⟩
  · rw [Sched.setHead_priority, Sched.setEntry_priority, update_self]
  · rw [Sched.setHead_current, Sched.setEntry_current, hc]

/-- The current process of `t` is in the list of its priority, and every list of a better
priority is empty. -/
def RunsBest (t : Sched) (L : Nat → List Nat) : Prop :=
  (t.currentProcess = none → ∀ i, i < 3 → L i = []) ∧
  ∀ c, t.currentProcess = some c →
    t.priority c < 3 ∧ c ∈ L (t.priority c) ∧ ∀ i, i < t.priority c → L i = []

/-- Going round the list stays in the list. -/
theorem schedRoundRobin_spec (h : Queues s L) (hp : s.priority cur < 3)
    (hcur : cur ∈ L (s.priority cur)) :
    ∃ n, schedRoundRobin cur s = { s with currentProcess := some n } ∧ n ∈ L (s.priority cur) := by
  have hl := h.isList _ hp
  unfold schedRoundRobin
  simp only
  cases hn : s.next cur with
  | some n => exact ⟨n, rfl, hl.next_mem hcur hn⟩
  | none =>
    cases hh : s.procPriorityList (s.priority cur) with
    | none =>
      rw [(h.head_none_iff hp).mp hh] at hcur
      cases hcur
    | some n =>
      rw [hh] at hl
      exact ⟨n, rfl, hl.head_mem⟩

theorem schedSwitch_spec (h : Queues s L) (hp : s.priority cur < 3)
    (hcur : cur ∈ L (s.priority cur)) :
    ∃ n, schedSwitch cur s = { s with currentProcess := some n } ∧ s.priority n < 3 ∧
      n ∈ L (s.priority n) ∧ ∀ i, i < s.priority n → L i = [] := by
  obtain ⟨n, hn, hnl⟩ := schedRoundRobin_spec h hp hcur
  have hnp := h.priority _ hp n hnl
  unfold schedSwitch
  by_cases h0 : s.priority cur = 0
  · rw [if_neg (by simpa using h0)]
    refine ⟨n, hn, by omega, hnp ▸ hnl, ?_⟩
    omega
  · rw [if_pos h0]
    -- the scan over the heads finds a list, for that of `cur` is not empty
    rcases h.firstHead_cases with ⟨-, hempty⟩ | ⟨j, m, hj, hm, hml, hbefore⟩
    · rw [hempty _ hp] at hcur
      cases hcur
    · have hmp := h.priority j hj m hml
      have hjle : j ≤ s.priority cur := by
        by_contra hlt
        rw [hbefore _ (by omega)] at hcur
        cases hcur
      simp only [hm, Option.getD_some]
      by_cases hlt : s.priority m < s.priority cur
      · rw [if_pos hlt]
        exact ⟨m, rfl, by omega, hmp ▸ hml, hmp ▸ hbefore⟩
      · rw [if_neg hlt]
        have hjeq : j = s.priority cur := by omega
        refine ⟨n, hn, by omega, hnp ▸ hnl, ?_⟩
        rw [hnp, ← hjeq]
        exact hbefore

theorem schedSwitch_runsBest (h : Queues s L) (hp : s.priority cur < 3)
    (hcur : cur ∈ L (s.priority cur)) :
    Queues (schedSwitch cur s) L ∧ RunsBest (schedSwitch cur s) L := by
  obtain ⟨n, hn, hbest⟩ := schedSwitch_spec h hp hcur
  rw [hn]
  refine ⟨h.congr rfl rfl rfl rfl, by simp, ?_⟩
  intro c hcn
  obtain rfl := Option.some.inj hcn
  exact hbest

theorem schedUpdate_none (hcur : s.currentProcess = none) :
    schedUpdate s = .ok { s with currentProcess := s.firstHead } := by
  unfold schedUpdate
  rw [hcur]

/-- An update with a current process takes 10 tickets from it, or has none left to take. -/
theorem schedUpdate_some (hcur : s.currentProcess = some cur) :
    schedUpdate s =
      if s.ptr cur = none then panic "There exists a null process in the scheduler!\n"
      else if 10 ≤ s.tickets cur then .ok (schedSwitch cur (s.setTickets cur (s.tickets cur - 10)))
      else schedDemote cur (s.setTickets cur 0) >>= fun u => .ok (schedSwitch cur u) := by
  have htick : (s.setTickets cur (s.tickets cur - fullTimesliceCost)).tickets cur =
      s.tickets cur - 10 := by
    rw [Sched.setTickets_tickets, update_self]
    rfl
  unfold schedUpdate
  rw [hcur]
  dsimp only
  rw [htick, Sched.setTickets_twice]
  by_cases hten : 10 ≤ s.tickets cur
  · rw [if_pos hten, if_neg (show ¬ s.tickets cur - 10 < 0 by omega)]
    rfl
  · rw [if_neg hten, if_pos (show s.tickets cur - 10 < 0 by omega)]
    rfl

/-- An update returns; it moves at most the current process, one list down, and leaves
the best process running. -/
theorem schedUpdate_spec (h : Queues s L)
    (hc : ∀ c, s.currentProcess = some c → s.priority c < 3 ∧ c ∈ L (s.priority c)) :
    ∃ t L', schedUpdate s = .ok t ∧ Queues t L' ∧ RunsBest t L' ∧
      ∀ a, (∃ i, i < 3 ∧ a ∈ L' i) ↔ ∃ i, i < 3 ∧ a ∈ L i := by
  cases hcur : s.currentProcess with
  | none =>
    refine ⟨_, L, schedUpdate_none hcur, h.congr rfl rfl rfl rfl, ⟨?_, ?_⟩, fun _ => Iff.rfl⟩
    · intro hn
      rcases h.firstHead_cases with ⟨-, hempty⟩ | ⟨j, m, -, hm, -⟩
      · exact hempty
      · rw [hm] at hn
        cases hn
    · intro c hsome
      rcases h.firstHead_cases with ⟨hnone, -⟩ | ⟨j, m, hj, hm, hml, hbefore⟩
      · rw [hnone] at hsome
        cases hsome
      · obtain rfl : m = c := Option.some.inj (hm.symm.trans hsome)
        have hmp : s.priority m = j := h.priority j hj m hml
        exact ⟨hmp ▸ hj, hmp ▸ hml, hmp ▸ hbefore⟩
  | some cur =>
    obtain ⟨hp, hmem⟩ := hc cur hcur
    -- a change of tickets moves nothing
    have hq : ∀ n, Queues (s.setTickets cur n) L :=
      fun n => h.congr (by simp) (by simp) (by simp) (by simp)
    have hprio : ∀ n, (s.setTickets cur n).priority = s.priority := fun n => by simp
    have hswitch : ∀ n, Queues (schedSwitch cur (s.setTickets cur n)) L ∧
        RunsBest (schedSwitch cur (s.setTickets cur n)) L :=
      fun n => schedSwitch_runsBest (hq n) (by rwa [hprio]) (by rwa [hprio])
    rw [schedUpdate_some hcur, if_neg (h.ptr _ hp cur hmem)]
    by_cases hten : 10 ≤ s.tickets cur
    · rw [if_pos hten]
      exact ⟨_, L, rfl, (hswitch _).1, (hswitch _).2, fun _ => Iff.rfl⟩
    · rw [if_neg hten]
      by_cases hlast : s.priority cur < 2
      · obtain ⟨t, ht, hqt, hpt, -⟩ := schedDemote_spec (hq 0) (by rwa [hprio]) (by rwa [hprio])
        rw [hprio] at hqt hpt
        have hmemt : cur ∈ demoted L cur (s.priority cur) (t.priority cur) := by
          rw [hpt]
          exact (mem_demoted h hlast (by omega) hmem).mpr (.inl ⟨rfl, rfl⟩)
        obtain ⟨hq', hb⟩ := schedSwitch_runsBest hqt (by omega) hmemt
        rw [ht]
        exact ⟨_, _, rfl, hq', hb, fun a => demoted_members h hlast hmem⟩
      · have hdem : schedDemote cur (s.setTickets cur 0) = .ok (s.setTickets cur 0) := by
          have hlow : ¬ s.priority cur < maxPriorityQueues - 1 := hlast
          simp [schedDemote, hlow]
        rw [hdem]
        exact ⟨_, L, rfl, (hswitch 0).1, (hswitch 0).2, fun _ => Iff.rfl⟩

theorem SchedInv.update {ps : ProcessTable} (h : SchedInv ps s L) :
    ∃ t L', schedUpdate s = .ok t ∧ SchedInv ps t L' ∧ RunsBest t L' := by
  obtain ⟨t, L', ht, hq, hb, hm⟩ := schedUpdate_spec h.queues h.current
  refine ⟨t, L', ht, ⟨hq, fun pid => (hm pid).trans (h.members pid), ?_⟩, hb⟩
  intro c hc
  obtain ⟨hp, hmem, -⟩ := hb.2 c hc
  exact ⟨hp, hmem⟩

/-! ## Starting a process -/

/-- The current process, if there is one, is in the list of its priority. -/
def CurrentListed (s : Sched) (L : Nat → List Nat) : Prop :=
  ∀ c, s.currentProcess = some c → s.priority c < 3 ∧ c ∈ L (s.priority c)

/-- A fresh pid goes to the front of the first list; the current process stays where it is. -/
theorem Queues.enqueue (h : Queues s L) (hc : CurrentListed s L) {pid : Nat}
    (hpid : 1 ≤ pid ∧ pid < maxProcesses) (hnew : ∀ i, i < 3 → pid ∉ L i) :
    Queues (s.enqueue pid) (update L 0 (pid :: L 0)) ∧
    CurrentListed (s.enqueue pid) (update L 0 (pid :: L 0)) ∧
    ∀ a, (∃ i, i < 3 ∧ a ∈ update L 0 (pid :: L 0) i) ↔ a = pid ∨ ∃ i, i < 3 ∧ a ∈ L i := by
  refine ⟨h.push rfl (Option.some_ne_none pid) rfl hpid hnew, ?_, ?_⟩
  · intro c hcur
    obtain ⟨hpc, hcm⟩ := hc c hcur
    have hne : c ≠ pid := by
      rintro rfl
      exact hnew _ hpc hcm
    rw [Sched.enqueue, Sched.setHead_priority, Sched.setEntry_priority, update_of_ne hne]
    exact ⟨hpc, Queues.mem_push.mpr (.inr hcm)⟩
  · intro a
    constructor
    · rintro ⟨i, hi, ha⟩
      rcases Queues.mem_push.mp ha with ⟨rfl, -⟩ | ha
      · exact .inl rfl
      · exact .inr ⟨i, hi, ha⟩
    · rintro (rfl | ⟨i, hi, ha⟩)
      · exact ⟨0, by decide, Queues.mem_push.mpr (.inl ⟨rfl, rfl⟩)⟩
      · exact ⟨i, hi, Queues.mem_push.mpr (.inr ha)⟩

/-- A slot that comes into use is scheduled. -/
theorem schedAddpid_spec {ps : ProcessTable} {pid : Nat} (h : SchedInv ps s L) (h1 : 1 ≤ pid)
    (hlt : pid < maxProcesses) (hfresh : (ps pid).state = .unused) {p : Process}
    (hp : p.state ≠ .unused) (ht : schedAddpid (update ps pid p) pid s = .ok t) :
    SchedInv (update ps pid p) t (update L 0 (pid :: L 0)) := by
  have hnew : ∀ i, i < 3 → pid ∉ L i := fun i hi hm =>
    ((h.members pid).mp ⟨i, hi, hm⟩).2.2 hfresh
  rw [schedAddpid_eq h1 hlt (by simpa using hp)] at ht
  obtain rfl := Except.ok.inj ht
  obtain ⟨hq, hc, hm⟩ := h.queues.enqueue h.current ⟨h1, hlt⟩ hnew
  refine ⟨hq, ?_, hc⟩
  intro a
  rw [hm, h.members a]
  by_cases hap : a = pid
  · subst hap
    simp [Live, h1, hlt, hp]
  · simp [Live, hap]

variable {σ : Type} {pmemAlloc : σ → Kern (UInt32 × σ)} {k0 k k' : ProcSys σ}

theorem processExecve_inv {fileName : CString} {fs : FsOutcome} {res : Int}
    (h : SchedInv k.processes k.sched L)
    (hx : processExecve pmemAlloc fileName fs k = .ok (res, k')) :
    ∃ L', SchedInv k'.processes k'.sched L' := by
  rcases processExecve_cases hx with ⟨-, rfl⟩ | ⟨pid, p, h1, hlt, hun, hps, -, hcase⟩
  · exact ⟨L, h⟩
  · rw [hps] at hcase ⊢
    rcases hcase with ⟨-, -, hpst, hsame⟩ | ⟨-, -, hpst, hadd⟩
    · -- the slot is unused before and after
      refine ⟨L, hsame ▸ ⟨h.queues, fun a => (h.members a).trans ?_, h.current⟩⟩
      by_cases hap : a = pid
      · subst hap
        simp [Live, hun, hpst]
      · simp [Live, hap]
    · exact ⟨_, schedAddpid_spec h h1 hlt hun (by simp [hpst]) hadd⟩

theorem processSchedInit_inv {ps : ProcessTable} {pages : σ}
    (h : processSchedInit pmemAlloc ps pages = .ok k0) :
    SchedInv k0.processes k0.sched fun _ => [] := by
  obtain ⟨⟨ps', pages'⟩, hinit, h⟩ := bind_eq_ok.mp h
  obtain rfl := Except.ok.inj h
  have hheads : ∀ i, (schedInit Sched.boot).procPriorityList i = none := fun i => by
    simp [schedInit, Sched.boot]
  refine ⟨⟨?_, by simp, by simp, by simp⟩, ?_, ?_⟩
  · intro i _
    rw [hheads]
    exact .nil
  · intro pid
    obtain ⟨⟨ps'', pages''⟩, hproc, h⟩ := bind_eq_ok.mp hinit
    obtain ⟨rfl, rfl⟩ := Prod.mk.inj (Except.ok.inj h)
    obtain ⟨page, p, -, -, -, -, rfl⟩ := processInitProcess_cases hproc
    simp only [List.not_mem_nil, and_false, exists_false, false_iff]
    rintro ⟨h1, hlt, hst⟩
    have h0 : pid ≠ 0 := by omega
    simp [h0, hlt] at hst
  · intro c hc
    cases hc

theorem sched_run_inv {ps : ProcessTable} {pages : σ} {tr : List (ProcSys σ × ProcOp)}
    (hinit : processSchedInit pmemAlloc ps pages = .ok k0)
    (hrun : Trace (ProcStep pmemAlloc) k0 tr k) :
    ∃ L, SchedInv k.processes k.sched L := by
  refine (hrun.invariant (I := fun k => ∃ L, SchedInv k.processes k.sched L)
    ⟨_, processSchedInit_inv hinit⟩ ?_).1
  rintro k (⟨fileName, fs⟩ | _) k' ⟨L, h⟩ hs
  · obtain ⟨res, hx⟩ := hs
    exact processExecve_inv h hx
  · obtain ⟨s, hs, rfl⟩ := hs
    obtain ⟨t, L', ht, hinv, -⟩ := h.update
    obtain rfl : t = s := Except.ok.inj (ht.symm.trans hs)
    exact ⟨L', hinv⟩

/-! ## Whole runs -/

/-- **Membership.**  In every reachable state the lists are finite chains that hold each live
pid once, in the list of its priority, the current process among them, and `schedUpdate`
returns. -/
theorem sched_membership {ps : ProcessTable} {pages : σ} {tr : List (ProcSys σ × ProcOp)}
    (hinit : processSchedInit pmemAlloc ps pages = .ok k0)
    (hrun : Trace (ProcStep pmemAlloc) k0 tr k) :
    ∃ L : Nat → List Nat,
      (∀ i, i < 3 → IsList k.sched.next (k.sched.procPriorityList i) (L i)) ∧
      (L 0 ++ L 1 ++ L 2).Nodup ∧
      (∀ pid, pid ∈ L 0 ++ L 1 ++ L 2 ↔
        1 ≤ pid ∧ pid ≤ 63 ∧ (k.processes pid).state ≠ .unused) ∧
      (∀ i, i < 3 → ∀ pid ∈ L i, k.sched.priority pid = i) ∧
      (∀ c, k.sched.currentProcess = some c →
        k.sched.priority c < 3 ∧ c ∈ L (k.sched.priority c)) ∧
      ∃ s, schedUpdate k.sched = .ok s := by
  obtain ⟨L, h⟩ := sched_run_inv hinit hrun
  obtain ⟨t, -, ht, -⟩ := h.update
  have hdisj : ∀ i j, i < 3 → j < 3 → i ≠ j → ∀ a ∈ L i, ∀ b ∈ L j, a ≠ b := by
    rintro i j hi hj hij a ha b hb rfl
    exact hij (h.queues.disjoint hi hj ha hb)
  have hnd : ∀ i, i < 3 → (L i).Nodup := fun i hi => (h.queues.isList i hi).nodup
  refine ⟨L, h.queues.isList, ?_, ?_, h.queues.priority, h.current, t, ht⟩
  · refine List.nodup_append.mpr ⟨List.nodup_append.mpr ⟨hnd 0 (by decide), hnd 1 (by decide),
      hdisj 0 1 (by decide) (by decide) (by decide)⟩, hnd 2 (by decide), ?_⟩
    intro a ha b hb
    rcases List.mem_append.mp ha with ha | ha
    · exact hdisj 0 2 (by decide) (by decide) (by decide) a ha b hb
    · exact hdisj 1 2 (by decide) (by decide) (by decide) a ha b hb
  · intro pid
    have hlive : Live k.processes pid ↔
        1 ≤ pid ∧ pid ≤ 63 ∧ (k.processes pid).state ≠ .unused := by
      unfold Live maxProcesses
      exact ⟨fun ⟨h1, h2, h3⟩ => ⟨h1, by omega, h3⟩, fun ⟨h1, h2, h3⟩ => ⟨h1, by omega, h3⟩⟩
    rw [← hlive, ← h.members]
    simp only [List.mem_append]
    constructor
    · rintro ((ha | ha) | ha)
      · exact ⟨0, by decide, ha⟩
      · exact ⟨1, by decide, ha⟩
      · exact ⟨2, by decide, ha⟩
    · rintro ⟨i, hi, ha⟩
      obtain rfl | rfl | rfl : i = 0 ∨ i = 1 ∨ i = 2 := by omega
      · exact .inl (.inl ha)
      · exact .inl (.inr ha)
      · exact .inr ha

/-- A program that is found and read. -/
def execveA : ProcOp := .execve ⟨[0x61], by decide⟩ ⟨1, 0⟩

/-- Two programs are started from boot, each followed by an update. -/
theorem sched_membership_one : ∃ k0 k tr,
    processSchedInit pagesUpward (fun _ => default) 512 = .ok k0 ∧
    Trace (ProcStep pagesUpward) k0 tr k ∧
    tr.map Prod.snd = [execveA, .update, execveA, .update] ∧
    ∃ L : Nat → List Nat, (L 0 ++ L 1 ++ L 2).Nodup ∧ 1 ∈ L 0 ++ L 1 ++ L 2 ∧
      2 ∈ L 0 ++ L 1 ++ L 2 ∧ ∃ s, schedUpdate k.sched = .ok s := by
  obtain ⟨k0, h0⟩ : ∃ k0, processSchedInit pagesUpward (fun _ => default) 512 = .ok k0 := ⟨_, rfl⟩
  obtain ⟨k1, k2, k3, k4, h1, h2, h3, h4, hused⟩ : ∃ k1 k2 k3 k4,
      ProcStep pagesUpward k0 execveA k1 ∧ ProcStep pagesUpward k1 .update k2 ∧
      ProcStep pagesUpward k2 execveA k3 ∧ ProcStep pagesUpward k3 .update k4 ∧
      (k4.processes 1).state ≠ .unused ∧ (k4.processes 2).state ≠ .unused := by
    cases h0
    exact ⟨_, _, _, _, ⟨_, rfl⟩, ⟨_, rfl, rfl⟩, ⟨_, rfl⟩, ⟨_, rfl, rfl⟩, by decide, by decide⟩
  have hrun := (((Trace.start.next h1).next h2).next h3).next h4
  obtain ⟨L, -, hnodup, hmem, -, -, hupdate⟩ := sched_membership h0 hrun
  exact ⟨k0, k4, _, h0, hrun, rfl, L, hnodup, (hmem 1).mpr ⟨by decide, by decide, hused.1⟩,
    (hmem 2).mpr ⟨by decide, by decide, hused.2⟩, hupdate⟩

/-- **Strict priority.**  After an update no process runs only if all lists are empty, and
otherwise the running one is in the first non-empty list. -/
theorem sched_strict_priority {ps : ProcessTable} {pages : σ} {tr : List (ProcSys σ × ProcOp)}
    (hinit : processSchedInit pmemAlloc ps pages = .ok k0) (hrun : Trace (ProcStep pmemAlloc) k0 tr k)
    {s : Sched} (hs : schedUpdate k.sched = .ok s) :
    (s.currentProcess = none → ∀ i, i < 3 → s.procPriorityList i = none) ∧
    ∀ c, s.currentProcess = some c → s.priority c < 3 ∧ s.procPriorityList (s.priority c) ≠ none ∧
      ∀ i, i < s.priority c → s.procPriorityList i = none := by
  obtain ⟨L, h⟩ := sched_run_inv hinit hrun
  obtain ⟨t, L', ht, hinv, hnone, hbest⟩ := h.update
  obtain rfl : t = s := Except.ok.inj (ht.symm.trans hs)
  have hhead := fun i hi => hinv.queues.head_none_iff (i := i) hi
  refine ⟨fun hn i hi => (hhead i hi).mpr (hnone hn i hi), ?_⟩
  intro c hc
  obtain ⟨hp, hmem, hempty⟩ := hbest c hc
  refine ⟨hp, ?_, fun i hi => (hhead i (by omega)).mpr (hempty i hi)⟩
  rw [Ne, hhead _ hp]
  exact List.ne_nil_of_mem hmem

/-- One program is started from boot and picked by the first update. -/
theorem sched_strict_priority_one : ∃ k0 k s,
    processSchedInit pagesUpward (fun _ => default) 512 = .ok k0 ∧
    ProcStep pagesUpward k0 execveA k ∧ schedUpdate k.sched = .ok s ∧
    s.currentProcess = some 1 ∧ ∀ i, i < s.priority 1 → s.procPriorityList i = none := by
  obtain ⟨k0, h0⟩ : ∃ k0, processSchedInit pagesUpward (fun _ => default) 512 = .ok k0 := ⟨_, rfl⟩
  obtain ⟨k, s, h1, hs, hc⟩ : ∃ k s, ProcStep pagesUpward k0 execveA k ∧
      schedUpdate k.sched = .ok s ∧ s.currentProcess = some 1 := by
    cases h0
    exact ⟨_, _, ⟨_, rfl⟩, rfl, rfl⟩
  have h := sched_strict_priority h0 (.next .start h1) hs
  exact ⟨k0, k, s, h0, h1, hs, hc, (h.2 1 hc).2.2⟩

end KoizOs
