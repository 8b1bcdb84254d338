import KoizOs.Process.Scheduling
import Mathlib.Algebra.BigOperators.Group.List.Basic
import Mathlib.Algebra.Ring.Int.Defs

/-!
# Tickets and demotion

Runs of the scheduler alone: any interleaving of `sched_addpid` of pids that were not
added before, under any process tables, and `sched_update`.  An update charges the process
it began with 10 tickets; the update that finds fewer than 10 left moves it one level down
with 2000 new ones, as long as there is a level below.

    at the levels 0 and 1:  tickets = 2000 - 10 * turns           (sched_tickets)

`turns` counts in the run, so the law ties the entry to updates that may be far apart.
-/

namespace KoizOs

open Function Lib

/-! ## Runs of the scheduler -/

inductive SchedOp where
  | addpid (ps : ProcessTable) (pid : Nat)
  | update

/-- The scheduler, and the pids that have been added. -/
abbrev SchedSys := Sched × List Nat

/-- One call that returned. -/
def SchedStep (x : SchedSys) : SchedOp → SchedSys → Prop
  | .addpid ps pid, y => pid ∉ x.2 ∧ schedAddpid ps pid x.1 = .ok y.1 ∧ y.2 = pid :: x.2
  | .update, y => schedUpdate x.1 = .ok y.1 ∧ y.2 = x.2

/-- After `sched_init` at boot. -/
def schedStart : SchedSys := (schedInit .boot, [])

/-- The lists hold exactly the pids that were added, the current process among them. -/
structure Queued (x : SchedSys) (L : Nat → List Nat) : Prop where
  queues : Queues x.1 L
  members : ∀ a, (∃ i, i < 3 ∧ a ∈ L i) ↔ a ∈ x.2
  current : CurrentListed x.1 L
  nodup : x.2.Nodup

variable {x y : SchedSys} {L : Nat → List Nat} {op : SchedOp} {s t : Sched} {cur : Nat}

theorem schedAddpid_cases {ps : ProcessTable} {pid : Nat} (h : schedAddpid ps pid s = .ok t) :
    (1 ≤ pid ∧ pid < maxProcesses) ∧ t = s.enqueue pid := by
  by_cases hpid : 1 ≤ pid ∧ pid < maxProcesses ∧ (ps pid).state ≠ .unused
  · rw [schedAddpid_eq hpid.1 hpid.2.1 hpid.2.2] at h
    exact ⟨⟨hpid.1, hpid.2.1⟩, (Except.ok.inj h).symm⟩
  · have hget : processGet ps pid = none := by
      unfold processGet
      by_cases hrange : (pid : Int) ≤ 0 ∨ (pid : Int) ≥ maxProcesses
      · exact if_pos hrange
      · rw [if_neg hrange]
        refine if_pos ?_
        by_contra hused
        exact hpid ⟨by omega, by omega, hused⟩
    simp only [schedAddpid, hget, panic_ne_ok] at h

theorem schedStart_queued : Queued schedStart fun _ => [] where
  queues := by
    refine ⟨?_, by simp, by simp, by simp⟩
    intro i _
    simp only [schedStart, schedInit, Sched.boot, ite_self]
    exact .nil
  members := by simp [schedStart]
  current c hc := by cases hc
  nodup := List.nodup_nil

theorem Queued.step (h : Queued x L) (hs : SchedStep x op y) : ∃ L', Queued y L' := by
  cases op with
  | addpid ps pid =>
    obtain ⟨hnew, hadd, hy⟩ := hs
    obtain ⟨hpid, heq⟩ := schedAddpid_cases hadd
    have hnot : ∀ i, i < 3 → pid ∉ L i := fun i hi hm => hnew ((h.members pid).mp ⟨i, hi, hm⟩)
    obtain ⟨hq, hc, hm⟩ := h.queues.enqueue h.current hpid hnot
    rw [← heq] at hq hc
    refine ⟨_, hq, ?_, hc, hy ▸ List.nodup_cons.mpr ⟨hnew, h.nodup⟩⟩
    intro a
    rw [hm, hy, List.mem_cons, h.members]
  | update =>
    obtain ⟨hupdate, hy⟩ := hs
    obtain ⟨t, L', ht, hq, hbest, hm⟩ := schedUpdate_spec h.queues h.current
    obtain rfl := Except.ok.inj (ht.symm.trans hupdate)
    refine ⟨L', hq, ?_, ?_, hy ▸ h.nodup⟩
    · intro a
      rw [hm, hy, h.members]
    · intro c hc
      obtain ⟨hp, hmem, -⟩ := hbest.2 c hc
      exact ⟨hp, hmem⟩

theorem sched_run_queued {tr : List (SchedSys × SchedOp)} (hrun : Trace SchedStep schedStart tr x) :
    ∃ L, Queued x L :=
  (hrun.invariant (I := fun x => ∃ L, Queued x L) ⟨_, schedStart_queued⟩
    fun _ _ _ ⟨_, h⟩ hs => h.step hs).1

theorem Queued.current_mem (h : Queued x L) (hcur : x.1.currentProcess = some cur) : cur ∈ x.2 := by
  obtain ⟨hp, hmem⟩ := h.current cur hcur
  exact (h.members cur).mp ⟨_, hp, hmem⟩

/-! ## What one update charges -/

/-- Unlinking rewrites one pointer. -/
theorem schedUnlinkLoop_keeps {nx h : Option Nat} {fuel : Nat}
    (hu : schedUnlinkLoop cur nx fuel h s = .ok t) :
    t.priority = s.priority ∧ t.tickets = s.tickets := by
  induction fuel generalizing h with
  | zero =>
    cases h with
    | none => exact absurd hu (panic_ne_ok _ _)
    | some a => cases hu
  | succ fuel ih =>
    cases h with
    | none => exact absurd hu (panic_ne_ok _ _)
    | some a =>
      unfold schedUnlinkLoop at hu
      split at hu
      · obtain rfl := Except.ok.inj hu
        simp
      · exact ih hu

theorem schedUnlink_keeps {p : Nat} (hu : schedUnlink cur p s = .ok t) :
    t.priority = s.priority ∧ t.tickets = s.tickets := by
  unfold schedUnlink at hu
  split at hu
  · exact absurd hu (panic_ne_ok _ _)
  · split at hu
    · obtain rfl := Except.ok.inj hu
      exact ⟨rfl, rfl⟩
    · exact schedUnlinkLoop_keeps hu

/-- A demotion moves one process one level down and gives it new tickets. -/
theorem schedDemote_cases (hd : schedDemote cur s = .ok t) :
    (s.priority cur < 2 ∧ t.priority = update s.priority cur (s.priority cur + 1) ∧
      t.tickets = update s.tickets cur 2000) ∨
    (2 ≤ s.priority cur ∧ t = s) := by
  unfold schedDemote at hd
  dsimp only at hd
  split at hd
  · next hlow =>
    left
    obtain ⟨u, hu, hd⟩ := bind_eq_ok.mp hd
    obtain ⟨hprio, htick⟩ := schedUnlink_keeps hu
    split at hd
    · exact absurd hd (panic_ne_ok _ _)
    · obtain rfl := Except.ok.inj hd
      refine ⟨hlow, ?_, ?_⟩
      · rw [Sched.setHead_priority, Sched.setEntry_priority, hprio]
      · rw [← htick]
        exact Sched.setEntry_tickets ..
  · next hlow =>
    obtain rfl := Except.ok.inj hd
    exact .inr ⟨Nat.not_lt.mp hlow, rfl⟩

/-- The choice of the next process changes nothing else. -/
theorem schedSwitch_eq (cur : Nat) (s : Sched) :
    ∃ c, schedSwitch cur s = { s with currentProcess := c } := by
  have hround : ∃ c, schedRoundRobin cur s = { s with currentProcess := c } := by
    unfold schedRoundRobin
    dsimp only
    split
    · exact ⟨_, rfl⟩
    · split <;> exact ⟨_, rfl⟩
  unfold schedSwitch
  dsimp only
  split
  · split
    · exact ⟨_, rfl⟩
    · exact hround
  · exact hround

/-- An update takes 10 tickets from the process it began with, or with fewer than 10 left
demotes it, or leaves it with none at the lowest level. -/
theorem schedUpdate_cases (h : schedUpdate s = .ok t) (hcur : s.currentProcess = some cur) :
    (10 ≤ s.tickets cur ∧ t = schedSwitch cur (s.setTickets cur (s.tickets cur - 10))) ∨
    (s.tickets cur < 10 ∧ ∃ u, schedDemote cur (s.setTickets cur 0) = .ok u ∧
      t = schedSwitch cur u) := by
  rw [schedUpdate_some hcur] at h
  split_ifs at h with hptr hten
  · exact absurd h (panic_ne_ok _ _)
  · exact .inl ⟨hten, (Except.ok.inj h).symm⟩
  · obtain ⟨u, hu, h⟩ := bind_eq_ok.mp h
    exact .inr ⟨Int.not_le.mp hten, u, hu, (Except.ok.inj h).symm⟩

theorem schedUpdate_idle (h : schedUpdate s = .ok t) (hnone : s.currentProcess = none) :
    t.priority = s.priority ∧ t.tickets = s.tickets := by
  rw [schedUpdate_none hnone] at h
  obtain rfl := Except.ok.inj h
  exact ⟨rfl, rfl⟩

/-- The priorities and tickets after an update: at most those of the current process differ. -/
theorem schedUpdate_charge (h : schedUpdate s = .ok t) (hcur : s.currentProcess = some cur) :
    (∀ a, a ≠ cur → t.priority a = s.priority a ∧ t.tickets a = s.tickets a) ∧
    ((10 ≤ s.tickets cur ∧ t.priority cur = s.priority cur ∧
        t.tickets cur = s.tickets cur - 10) ∨
      (s.tickets cur < 10 ∧ s.priority cur < 2 ∧ t.priority cur = s.priority cur + 1 ∧
        t.tickets cur = 2000) ∨
      (s.tickets cur < 10 ∧ 2 ≤ s.priority cur ∧ t.priority cur = s.priority cur ∧
        t.tickets cur = 0)) := by
  have hswitch : ∀ u, (schedSwitch cur u).priority = u.priority ∧
      (schedSwitch cur u).tickets = u.tickets := by
    intro u
    obtain ⟨c, hc⟩ := schedSwitch_eq cur u
    rw [hc]
    exact ⟨rfl, rfl⟩
  rcases schedUpdate_cases h hcur with ⟨hten, rfl⟩ | ⟨hten, u, hu, rfl⟩
  · rw [(hswitch _).1, (hswitch _).2, Sched.setTickets_priority, Sched.setTickets_tickets]
    exact ⟨fun a ha => ⟨rfl, update_of_ne ha ..⟩, .inl ⟨hten, rfl, update_self ..⟩⟩
  · rw [(hswitch u).1, (hswitch u).2]
    rcases schedDemote_cases hu with ⟨hlow, hprio, htick⟩ | ⟨hlow, rfl⟩
    · rw [Sched.setTickets_priority] at hlow hprio
      rw [Sched.setTickets_tickets, update_idem] at htick
      rw [hprio, htick]
      refine ⟨fun a ha => ⟨update_of_ne ha .., update_of_ne ha ..⟩, .inr (.inl ?_)⟩
      exact ⟨hten, hlow, update_self .., update_self ..⟩
    · rw [Sched.setTickets_priority] at hlow ⊢
      rw [Sched.setTickets_tickets]
      refine ⟨fun a ha => ⟨rfl, update_of_ne ha ..⟩, .inr (.inr ?_)⟩
      exact ⟨hten, hlow, rfl, update_self ..⟩

/-! ## The law of a run -/

def SchedOp.isUpdate : SchedOp → Bool
  | .addpid _ _ => false
  | .update => true

/-- How many updates of the run began with `a` as the current process at priority `p`.  A
priority never decreases, so for the priority that `a` has these are the updates since it
got there. -/
def turns (a p : Nat) (tr : List (SchedSys × SchedOp)) : Nat :=
  tr.countP fun e => e.2.isUpdate && e.1.1.currentProcess == some a && e.1.1.priority a == p

/-- What all processes together still have to spend before they are at the lowest level. -/
def potential (x : SchedSys) : Int :=
  (x.2.map fun a => 2010 * (2 - (x.1.priority a : Int)) + x.1.tickets a).sum

variable {tr : List (SchedSys × SchedOp)} {a p : Nat}

theorem turns_addpid {ps : ProcessTable} {pid : Nat} :
    turns a p (tr ++ [(x, .addpid ps pid)]) = turns a p tr := by
  simp [turns, SchedOp.isUpdate]

theorem turns_update :
    turns a p (tr ++ [(x, .update)]) =
      turns a p tr + if x.1.currentProcess = some a ∧ x.1.priority a = p then 1 else 0 := by
  simp [turns, SchedOp.isUpdate, List.countP_append, List.countP_singleton]

/-- What the run `tr` has left in the entries of the processes. -/
structure Accounted (tr : List (SchedSys × SchedOp)) (x : SchedSys) : Prop where
  tickets : ∀ a ∈ x.2, x.1.priority a < 2 →
    x.1.tickets a = 2000 - 10 * (turns a (x.1.priority a) tr : Int)
  nonneg : ∀ a ∈ x.2, 0 ≤ x.1.tickets a
  later : ∀ a p, (a ∈ x.2 → x.1.priority a < p) → turns a p tr = 0

namespace Accounted

theorem start : Accounted [] schedStart where
  tickets a ha := by cases ha
  nonneg a ha := by cases ha
  later _ _ _ := rfl

theorem addpid {ps : ProcessTable} {pid : Nat} (h : Accounted tr x)
    (hs : SchedStep x (.addpid ps pid) y) : Accounted (tr ++ [(x, .addpid ps pid)]) y := by
  obtain ⟨hnew, hadd, hy⟩ := hs
  obtain ⟨-, heq⟩ := schedAddpid_cases hadd
  have hprio := heq ▸ Sched.enqueue_priority x.1 pid
  have htick := heq ▸ Sched.enqueue_tickets x.1 pid
  have hcases : ∀ a ∈ y.2, a = pid ∨ a ≠ pid ∧ a ∈ x.2 := by
    intro a ha
    rw [hy] at ha
    rcases List.mem_cons.mp ha with rfl | ha
    · exact .inl rfl
    · exact .inr ⟨fun hap => hnew (hap ▸ ha), ha⟩
  refine ⟨?_, ?_, ?_⟩
  · intro a ha hp
    rw [turns_addpid]
    rcases hcases a ha with rfl | ⟨hap, ha⟩
    · rw [htick, update_self, h.later a _ fun hmem => absurd hmem hnew]
      rfl
    · rw [hprio, update_of_ne hap] at hp ⊢
      rw [htick, update_of_ne hap]
      exact h.tickets a ha hp
  · intro a ha
    rw [htick]
    rcases hcases a ha with rfl | ⟨hap, ha⟩
    · rw [update_self]
      decide
    · rw [update_of_ne hap]
      exact h.nonneg a ha
  · intro a p hlater
    rw [turns_addpid]
    apply h.later
    intro ha
    have hap : a ≠ pid := fun hap => hnew (hap ▸ ha)
    have hmem : a ∈ y.2 := hy ▸ List.mem_cons_of_mem _ ha
    have hlt := hlater hmem
    rwa [hprio, update_of_ne hap] at hlt

/-- The current process is demoted with its last tickets gone, which is in its 201st turn. -/
theorem turns_eq_iff (h : Accounted tr x) (ha : a ∈ x.2) (hp : x.1.priority a < 2) :
    turns a (x.1.priority a) tr = 200 ↔ x.1.tickets a < 10 := by
  have htick := h.tickets a ha hp
  have hpos := h.nonneg a ha
  omega

/-- An update that begins with no process charges nobody. -/
theorem update_idle (h : Accounted tr x) (hnone : x.1.currentProcess = none)
    (hpids : y.2 = x.2) (hprio : y.1.priority = x.1.priority) (htick : y.1.tickets = x.1.tickets) :
    Accounted (tr ++ [(x, .update)]) y := by
  have hturns : ∀ a p, turns a p (tr ++ [(x, .update)]) = turns a p tr := by
    intro a p
    rw [turns_update]
    simp [hnone]
  refine ⟨?_, ?_, ?_⟩
  · rw [hpids, hprio, htick]
    intro a ha hp
    rw [hturns]
    exact h.tickets a ha hp
  · rw [hpids, htick]
    exact h.nonneg
  · rw [hpids, hprio]
    intro a p hlater
    rw [hturns]
    exact h.later a p hlater

/-- One more turn of the current process, at the priority it has. -/
theorem turns_current (hcur : x.1.currentProcess = some cur) :
    turns a p (tr ++ [(x, .update)]) =
      turns a p tr + if cur = a ∧ x.1.priority cur = p then 1 else 0 := by
  rw [turns_update, hcur]
  by_cases hac : cur = a
  · simp [hac]
  · simp [hac]

theorem update (hq : Queued x L) (h : Accounted tr x) (hs : SchedStep x .update y) :
    Accounted (tr ++ [(x, .update)]) y := by
  obtain ⟨hupdate, hy⟩ := hs
  cases hcur : x.1.currentProcess with
  | none =>
    obtain ⟨hprio, htick⟩ := schedUpdate_idle hupdate hcur
    exact h.update_idle hcur hy hprio htick
  | some cur =>
    obtain ⟨hother, hself⟩ := schedUpdate_charge hupdate hcur
    have hmem := hq.current_mem hcur
    refine ⟨?_, ?_, ?_⟩
    · intro a ha hp
      rw [hy] at ha
      rw [turns_current hcur]
      by_cases hac : cur = a
      · subst hac
        rcases hself with ⟨-, hprio, htick⟩ | ⟨-, -, hprio, htick⟩ | ⟨-, hlow, hprio, -⟩
        · rw [hprio] at hp ⊢
          have hleft := h.tickets cur ha hp
          rw [htick, if_pos ⟨rfl, rfl⟩]
          omega
        · -- a new level, with no turn yet
          rw [hprio, htick, h.later cur _ fun _ => Nat.lt_succ_self _, if_neg (by omega)]
          rfl
        · omega
      · obtain ⟨hprio, htick⟩ := hother a (Ne.symm hac)
        rw [hprio] at hp ⊢
        rw [htick, if_neg fun hca => hac hca.1]
        exact h.tickets a ha hp
    · intro a ha
      rw [hy] at ha
      have hpos := h.nonneg a ha
      by_cases hac : cur = a
      · subst hac
        omega
      · rwa [(hother a (Ne.symm hac)).2]
    · intro a p hlater
      rw [hy] at hlater
      rw [turns_current hcur]
      by_cases hac : cur = a
      · subst hac
        have hlt := hlater hmem
        rw [h.later cur p fun _ => by omega, if_neg (by omega)]
      · rw [if_neg fun hca => hac hca.1]
        apply h.later
        rwa [(hother a (Ne.symm hac)).1] at hlater

/-- The 201st turn at a level above the lowest is the one that demotes. -/
theorem priority_update (hq : Queued x L) (h : Accounted tr x) (hs : SchedStep x .update y)
    (a : Nat) :
    y.1.priority a =
      if x.1.currentProcess = some a ∧ x.1.priority a < 2 ∧ turns a (x.1.priority a) tr = 200 then
        x.1.priority a + 1
      else x.1.priority a := by
  cases hcur : x.1.currentProcess with
  | none =>
    rw [(schedUpdate_idle hs.1 hcur).1, if_neg]
    rintro ⟨hsome, -⟩
    cases hsome
  | some cur =>
    obtain ⟨hother, hself⟩ := schedUpdate_charge hs.1 hcur
    by_cases hac : a = cur
    · subst hac
      have hmem := hq.current_mem hcur
      rcases hself with ⟨hten, hprio, -⟩ | ⟨hten, hlow, hprio, -⟩ | ⟨-, hhigh, hprio, -⟩
      · rw [hprio, if_neg]
        rintro ⟨-, hlow, hlast⟩
        have := (h.turns_eq_iff hmem hlow).mp hlast
        omega
      · rw [hprio, if_pos ⟨rfl, hlow, (h.turns_eq_iff hmem hlow).mpr hten⟩]
      · rw [hprio, if_neg]
        rintro ⟨-, hlow, -⟩
        omega
    · rw [(hother a hac).1, if_neg]
      rintro ⟨hsome, -⟩
      exact hac (Option.some.inj hsome).symm

end Accounted

theorem sched_run_accounted (hrun : Trace SchedStep schedStart tr x) : Accounted tr x := by
  induction hrun with
  | start => exact .start
  | @next tr x y op hrun hs ih =>
    cases op with
    | addpid ps pid => exact ih.addpid hs
    | update =>
      obtain ⟨L, hq⟩ := sched_run_queued hrun
      exact ih.update hq hs

/-- A sum over different processes changes by what one of them changes. -/
theorem sum_map_of_one {f g : Nat → Int} {l : List Nat} (hnd : l.Nodup) (ha : a ∈ l)
    (hother : ∀ b, b ≠ a → g b = f b) : (l.map g).sum = (l.map f).sum + (g a - f a) := by
  have herase : (l.erase a).map g = (l.erase a).map f := by
    apply List.map_congr_left
    intro b hb
    exact hother b (hnd.mem_erase_iff.mp hb).1
  rw [← List.sum_map_erase f ha, ← List.sum_map_erase g ha, herase]
  omega

theorem Accounted.potential_update (hq : Queued x L) (hs : SchedStep x .update y)
    (hcur : x.1.currentProcess = some cur) (hlow : x.1.priority cur < 2)
    (h : Accounted tr x) : potential y = potential x - 10 := by
  obtain ⟨hupdate, hy⟩ := hs
  have hmem := hq.current_mem hcur
  obtain ⟨hother, hself⟩ := schedUpdate_charge hupdate hcur
  have hleft := h.tickets cur hmem hlow
  have hpos := h.nonneg cur hmem
  unfold potential
  rw [hy, sum_map_of_one hq.nodup hmem fun b hb => by rw [(hother b hb).1, (hother b hb).2]]
  rcases hself with ⟨-, hprio, htick⟩ | ⟨hten, -, hprio, htick⟩ | ⟨-, hhigh, -⟩
  · rw [hprio, htick]
    omega
  · -- the 10 that a new level does not give back
    have hspent : x.1.tickets cur = 0 := by omega
    rw [hprio, htick, hspent]
    push_cast
    omega
  · omega

/-- **Tickets.** After any run of additions and updates:

* at the priorities 0 and 1 a process has 2000 tickets less 10 for each of its turns there;
* a pid that is added gets priority 0, and no other priority or ticket changes;
* an update returns, and raises the priority of at most the process it began with, by one,
  exactly in the 201st of its turns at the priority 0 or 1;
* an update that began with a process at the priority 0 or 1 takes 10 from the potential. -/
theorem sched_tickets (hrun : Trace SchedStep schedStart tr x) :
    (∀ a ∈ x.2, x.1.priority a < 2 →
      x.1.tickets a = 2000 - 10 * (turns a (x.1.priority a) tr : Int)) ∧
    (∀ ps pid y, SchedStep x (.addpid ps pid) y → y.1.priority pid = 0 ∧
      ∀ a, a ≠ pid → y.1.priority a = x.1.priority a ∧ y.1.tickets a = x.1.tickets a) ∧
    (∃ y, SchedStep x .update y) ∧
    ∀ y, SchedStep x .update y →
      (∀ a, y.1.priority a =
        if x.1.currentProcess = some a ∧ x.1.priority a < 2 ∧ turns a (x.1.priority a) tr = 200 then
          x.1.priority a + 1
        else x.1.priority a) ∧
      ∀ a, x.1.currentProcess = some a → x.1.priority a < 2 → potential y = potential x - 10 := by
  obtain ⟨L, hq⟩ := sched_run_queued hrun
  have h := sched_run_accounted hrun
  refine ⟨h.tickets, ?_, ?_, ?_⟩
  · rintro ps pid y ⟨-, hadd, -⟩
    obtain ⟨-, heq⟩ := schedAddpid_cases hadd
    rw [heq, Sched.enqueue_priority, Sched.enqueue_tickets]
    exact ⟨update_self .., fun a ha => ⟨update_of_ne ha .., update_of_ne ha ..⟩⟩
  · obtain ⟨t, -, ht, -⟩ := schedUpdate_spec hq.queues hq.current
    exact ⟨(t, x.2), ht, rfl⟩
  · intro y hs
    exact ⟨h.priority_update hq hs, fun a ha hlow => h.potential_update hq hs ha hlow⟩

/-- A table in which the slots 1 and 2 are in use. -/
def twoRunnable : ProcessTable := fun i =>
  if i = 1 ∨ i = 2 then { (default : Process) with state := .runnable } else default

/-- The first turn of a process is the second update. -/
theorem sched_tickets_one : ∃ x y z, SchedStep schedStart (.addpid twoRunnable 1) x ∧
    SchedStep x .update y ∧ SchedStep y .update z ∧ y.1.currentProcess = some 1 ∧
    y.1.priority 1 = 0 ∧ potential z = potential y - 10 := by
  obtain ⟨x, h1⟩ : ∃ x, SchedStep schedStart (.addpid twoRunnable 1) x :=
    ⟨(_, _), List.not_mem_nil, rfl, rfl⟩
  obtain ⟨y, h2, hcur, hprio⟩ : ∃ y, SchedStep x .update y ∧ y.1.currentProcess = some 1 ∧
      y.1.priority 1 = 0 := by
    obtain ⟨s, pids⟩ := x
    obtain ⟨-, hadd, rfl⟩ := h1
    cases hadd
    exact ⟨(_, _), ⟨rfl, rfl⟩, rfl, rfl⟩
  obtain ⟨-, -, ⟨z, h3⟩, hupdate⟩ := sched_tickets (.next (.next .start h1) h2)
  exact ⟨x, y, z, h1, h2, h3, hcur, hprio, (hupdate z h3).2 1 hcur (by rw [hprio]; decide)⟩

end KoizOs
