import KoizOs.Process.Tickets
import Mathlib.Data.List.Rotate

/-!
# Round robin

`Round s L p j`: the first non-empty list of `s` is the one of priority `p`, and the
current process is at position `j` of it, counted round and round.  An update that demotes
nobody keeps the lists and goes on to position `j + 1` (`Round.step`), whatever the level
and whatever stands in the lists below:

    after n such updates each of the n members has had one turn   (sched_roundRobin)
-/

namespace KoizOs

open Function Lib

/-! ## Algorithm -/

def schedUpdates : Nat → Sched → Kern Sched
  | 0, s => .ok s
  | n + 1, s => do
    let s ← schedUpdates n s
    schedUpdate s

/-- Some process is at a lower level in `t` than in `s`. -/
def Demotes (s t : Sched) : Prop := ∃ a, s.priority a < t.priority a

/-! ## One update without a demotion -/

variable {s t : Sched} {L : Nat → List Nat} {cur p j : Nat}

/-- With nobody demoted, an update takes tickets and chooses the next process. -/
theorem schedUpdate_of_not_demotes (h : schedUpdate s = .ok t) (hd : ¬ Demotes s t)
    (hcur : s.currentProcess = some cur) : ∃ n, t = schedSwitch cur (s.setTickets cur n) := by
  rcases schedUpdate_cases h hcur with ⟨-, ht⟩ | ⟨-, u, hu, ht⟩
  · exact ⟨_, ht⟩
  · rcases schedDemote_cases hu with ⟨-, hprio, -⟩ | ⟨-, rfl⟩
    · refine absurd ⟨cur, ?_⟩ hd
      obtain ⟨b, hb⟩ := schedSwitch_eq cur u
      have hsame : t.priority = u.priority := by rw [ht, hb]; rfl
      rw [hsame, hprio, update_self, Sched.setTickets_priority]
      exact Nat.lt_succ_self _
    · exact ⟨0, ht⟩

theorem schedRoundRobin_eq (cur : Nat) (s : Sched) :
    schedRoundRobin cur s = { s with currentProcess :=
      ((s.next cur).or (s.procPriorityList (s.priority cur))).or s.currentProcess } := by
  unfold schedRoundRobin
  dsimp only
  cases s.next cur with
  | some n => rfl
  | none => cases s.procPriorityList (s.priority cur) <;> rfl

structure Round (s : Sched) (L : Nat → List Nat) (p j : Nat) : Prop where
  queues : Queues s L
  level : p < 3
  first : ∀ i < p, L i = []
  current : s.currentProcess = (L p)[j % (L p).length]?
  nonempty : L p ≠ []

namespace Round

theorem firstHead (h : Round s L p j) : ∃ a, s.firstHead = some a ∧ s.priority a = p := by
  rcases h.queues.firstHead_cases with ⟨-, hempty⟩ | ⟨i, a, hi, ha, hmem, hbefore⟩
  · exact absurd (hempty p h.level) h.nonempty
  · have hip : i = p := by
      rcases Nat.lt_trichotomy i p with hlt | heq | hgt
      · rw [h.first i hlt] at hmem
        cases hmem
      · exact heq
      · exact absurd (hbefore p hgt) h.nonempty
    exact ⟨a, ha, hip ▸ h.queues.priority i hi a hmem⟩

/-- The branch for the lower levels finds nobody better, so every level goes round. -/
theorem switch_eq (h : Round s L p j) (hcur : s.priority cur = p) :
    schedSwitch cur s = schedRoundRobin cur s := by
  obtain ⟨a, ha, hap⟩ := h.firstHead
  unfold schedSwitch
  split
  · rw [ha]
    exact if_neg (by rw [Option.getD_some, hap, hcur]; exact Nat.lt_irrefl _)
  · rfl

theorem exists_current (h : Round s L p j) :
    ∃ cur, s.currentProcess = some cur ∧ (L p)[j % (L p).length]? = some cur ∧
      s.priority cur = p := by
  have hlt : j % (L p).length < (L p).length :=
    Nat.mod_lt _ (List.length_pos_iff.mpr h.nonempty)
  have hget := List.getElem?_eq_getElem hlt
  refine ⟨(L p)[j % (L p).length], h.current.trans hget, hget, ?_⟩
  exact h.queues.priority p h.level _ (List.getElem_mem hlt)

theorem step (h : Round s L p j) (hu : schedUpdate s = .ok t) (hd : ¬ Demotes s t) :
    Round t L p (j + 1) := by
  obtain ⟨cur, hcur, hget, hprio⟩ := h.exists_current
  obtain ⟨n, ht⟩ := schedUpdate_of_not_demotes hu hd hcur
  -- taking tickets moves nothing
  have hs : Round (s.setTickets cur n) L p j :=
    ⟨h.queues.congr (by simp) (by simp) (by simp) (by simp), h.level, h.first, h.current, h.nonempty⟩
  have hround := (h.queues.isList p h.level).next_round hget
  have hnext : (j + 1) % (L p).length < (L p).length :=
    Nat.mod_lt _ (List.length_pos_iff.mpr h.nonempty)
  rw [hs.switch_eq (by rw [Sched.setTickets_priority, hprio]), schedRoundRobin_eq,
    Sched.setTickets_next, Sched.setTickets_heads, Sched.setTickets_priority, hprio, hround,
    List.getElem?_eq_getElem hnext, Option.some_or] at ht
  rw [ht]
  refine ⟨hs.queues.congr rfl rfl rfl rfl, h.level, h.first, ?_, h.nonempty⟩
  exact (List.getElem?_eq_getElem hnext).symm

/-- The updates go round the list from the position they start at. -/
theorem run {u : Nat → Sched} {n : Nat} (h : Round (u 0) L p j)
    (hu : ∀ i, schedUpdate (u i) = .ok (u (i + 1))) (hd : ∀ i < n, ¬ Demotes (u i) (u (i + 1))) :
    ∀ i ≤ n, Round (u i) L p (j + i) := by
  intro i
  induction i with
  | zero => exact fun _ => h
  | succ i ih =>
    intro hi
    exact (ih (by omega)).step (hu i) (hd i (by omega))

end Round

/-! ## Whole rounds -/

/-- One time round the list, from any position, is a rotation of it. -/
theorem map_range_round {α : Type} {c : Nat → Option α} {l : List α} {j : Nat}
    (hc : ∀ i < l.length, c i = l[(j + i) % l.length]?) :
    (List.range l.length).map c = (l.rotate j).map some := by
  apply List.ext_getElem?
  intro i
  by_cases hi : i < l.length
  · rw [List.getElem?_map, List.getElem?_range hi, List.getElem?_map, List.getElem?_rotate hi,
      Option.map_some, hc i hi, Nat.add_comm j i]
    have hlt : (i + j) % l.length < l.length := Nat.mod_lt _ (by omega)
    rw [List.getElem?_eq_getElem hlt]
    rfl
  · rw [List.getElem?_eq_none, List.getElem?_eq_none]
    · simpa using hi
    · simpa using hi

theorem Queued.updates_return {x : SchedSys} (h : Queued x L) :
    ∃ u : Nat → Sched, (∀ i, schedUpdates i x.1 = .ok (u i)) ∧
      ∀ i, schedUpdate (u i) = .ok (u (i + 1)) := by
  have hreturns : ∀ i, ∃ t, schedUpdates i x.1 = .ok t ∧ ∃ L, Queued (t, x.2) L := by
    intro i
    induction i with
    | zero => exact ⟨x.1, rfl, L, h⟩
    | succ i ih =>
      obtain ⟨s, hs, L', hq⟩ := ih
      obtain ⟨t, -, ht, -⟩ := schedUpdate_spec hq.queues hq.current
      refine ⟨t, ?_, @Queued.step _ (t, x.2) _ .update hq ⟨ht, rfl⟩⟩
      rw [schedUpdates, hs]
      exact ht
  choose u hu _ using hreturns
  refine ⟨u, hu, fun i => ?_⟩
  have hnext := hu (i + 1)
  rw [schedUpdates, hu i] at hnext
  exact hnext

/-- **Round robin.** From any reachable state in which the current process is in the first
list that is not empty, the next updates return, and if none of them demotes a process
then over as many of them as the list has members each member is current once. -/
theorem sched_roundRobin {x : SchedSys} {tr : List (SchedSys × SchedOp)} {l : List Nat}
    (hrun : Trace SchedStep schedStart tr x) (hp : p < 3)
    (hfirst : ∀ i < p, x.1.procPriorityList i = none)
    (hl : IsList x.1.next (x.1.procPriorityList p) l)
    (hcur : x.1.currentProcess = some cur) (hmem : cur ∈ l) :
    l.Nodup ∧ ∃ u : Nat → Sched, (∀ i, schedUpdates i x.1 = .ok (u i)) ∧
      ((∀ i < l.length, ¬ Demotes (u i) (u (i + 1))) →
        ((List.range l.length).map fun i => (u (i + 1)).currentProcess).Perm (l.map some)) := by
  obtain ⟨L, hq⟩ := sched_run_queued hrun
  obtain rfl := hl.unique (hq.queues.isList p hp)
  obtain ⟨u, hu, hstep⟩ := hq.updates_return
  refine ⟨hl.nodup, u, hu, fun hd => ?_⟩
  obtain ⟨j, hj, hget⟩ := List.mem_iff_getElem.mp hmem
  have hu0 : u 0 = x.1 := (Except.ok.inj (hu 0)).symm
  have hround : Round (u 0) L p j := by
    rw [hu0]
    refine ⟨hq.queues, hp, ?_, ?_, List.ne_nil_of_mem hmem⟩
    · intro i hi
      exact (hq.queues.head_none_iff (by omega)).mp (hfirst i hi)
    · rw [Nat.mod_eq_of_lt hj, List.getElem?_eq_getElem hj, hget, hcur]
  have hturn : ∀ i < (L p).length,
      (u (i + 1)).currentProcess = (L p)[(j + 1 + i) % (L p).length]? := by
    intro i hi
    rw [(hround.run hstep hd (i + 1) (by omega)).current, Nat.add_right_comm j 1 i]
    rfl
  rw [map_range_round hturn]
  exact (List.rotate_perm _ _).map _

/-- With tickets left nobody is demoted. -/
theorem not_demotes {s t : Sched} {cur : Nat} (h : schedUpdate s = .ok t)
    (hcur : s.currentProcess = some cur) (hten : 10 ≤ s.tickets cur) : ¬ Demotes s t := by
  rintro ⟨a, ha⟩
  obtain ⟨hother, hself⟩ := schedUpdate_charge h hcur
  by_cases hac : a = cur
  · subst hac
    omega
  · rw [(hother a hac).1] at ha
    exact Nat.lt_irrefl _ ha

/-- Two processes, and the second one was picked. -/
def twoQueued : Sched := { (schedStart.1.enqueue 1).enqueue 2 with currentProcess := some 2 }

/-- Each of the two has one of the next two turns. -/
theorem sched_roundRobin_two : ∃ u : Nat → Sched,
    (∀ i, schedUpdates i twoQueued = .ok (u i)) ∧
      [(u 1).currentProcess, (u 2).currentProcess].Perm [some 2, some 1] := by
  have h₁ : SchedStep schedStart (.addpid twoRunnable 1) (schedStart.1.enqueue 1, [1]) :=
    ⟨List.not_mem_nil, rfl, rfl⟩
  have h₂ : SchedStep (schedStart.1.enqueue 1, [1]) (.addpid twoRunnable 2)
      ((schedStart.1.enqueue 1).enqueue 2, [2, 1]) := ⟨by decide, rfl, rfl⟩
  have h₃ : SchedStep ((schedStart.1.enqueue 1).enqueue 2, [2, 1]) .update (twoQueued, [2, 1]) :=
    ⟨rfl, rfl⟩
  have hlist : IsList twoQueued.next (twoQueued.procPriorityList 0) [2, 1] := .cons (.cons .nil)
  obtain ⟨-, u, hu, hround⟩ := sched_roundRobin (.next (.next (.next .start h₁) h₂) h₃)
    (by decide) (fun i hi => absurd hi (Nat.not_lt_zero i)) hlist rfl (List.mem_cons_self ..)
  refine ⟨u, hu, hround ?_⟩
  obtain ⟨t, ht, hcur, htick⟩ : ∃ t, schedUpdate twoQueued = .ok t ∧ t.currentProcess = some 1 ∧
      t.tickets 1 = 2000 := ⟨_, rfl, rfl, rfl⟩
  have h0 : u 0 = twoQueued := (Except.ok.inj (hu 0)).symm
  have h1 : u 1 = t := (Except.ok.inj (ht.symm.trans (hu 1))).symm
  have h2 : schedUpdate t = .ok (u 2) := by
    have hlast := hu 2
    rw [schedUpdates, hu 1, h1] at hlast
    exact hlast
  intro i hi
  match i, hi with
  | 0, _ => exact h0 ▸ h1 ▸ not_demotes ht rfl (by decide)
  | 1, _ => exact h1 ▸ not_demotes h2 hcur (by rw [htick]; decide)

end KoizOs
