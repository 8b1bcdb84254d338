import KoizOs.Lib.LinkedList
import KoizOs.Lib.Run
import KoizOs.Lib.Search
import KoizOs.Process.Execve
import Mathlib.Data.List.Perm.Subperm

/-!
# The scheduler's three lists

`Queues s L` says that the lists of `s` are the finite chains `L 0`, `L 1`, `L 2`, each
entry in the list of its own priority.  This module has what one pointer operation does
to them: `Queues.unlink` for taking an entry out, `Queues.push` for a new one at a head,
`Queues.firstHead_cases` for the scan over the heads.
-/

namespace KoizOs

open Function Lib

/-! ## Small lemmas on the updates of a scheduler state -/

namespace Sched

variable (s : Sched) (a b i : Nat) (e : MlfqEntry) (h : Option Nat) (n : Int)

def ptr : Option Nat := (s.procList a).ptr

@[simp] theorem setEntry_heads : (s.setEntry a e).procPriorityList = s.procPriorityList := rfl
@[simp] theorem setEntry_current : (s.setEntry a e).currentProcess = s.currentProcess := rfl

theorem setEntry_next : (s.setEntry a e).next = update s.next a e.nextProcess := by
  funext b
  simp only [next, setEntry, update_apply]
  split <;> rfl

theorem setEntry_priority : (s.setEntry a e).priority = update s.priority a e.priority := by
  funext b
  simp only [priority, setEntry, update_apply]
  split <;> rfl

theorem setEntry_ptr : (s.setEntry a e).ptr = update s.ptr a e.ptr := by
  funext b
  simp only [ptr, setEntry, update_apply]
  split <;> rfl

theorem setEntry_tickets : (s.setEntry a e).tickets = update s.tickets a e.ticketsRemaining := by
  funext b
  simp only [tickets, setEntry, update_apply]
  split <;> rfl

theorem setTickets_tickets : (s.setTickets a n).tickets = update s.tickets a n :=
  setEntry_tickets s a _

@[simp] theorem setTickets_twice (m : Int) :
    (s.setTickets a m).setTickets a n = s.setTickets a n := by
  simp [setTickets, setEntry]

@[simp] theorem setTickets_heads : (s.setTickets a n).procPriorityList = s.procPriorityList := rfl
@[simp] theorem setTickets_current : (s.setTickets a n).currentProcess = s.currentProcess := rfl

@[simp] theorem setTickets_next : (s.setTickets a n).next = s.next := by
  rw [setTickets, setEntry_next]
  exact update_eq_self a s.next

@[simp] theorem setTickets_priority : (s.setTickets a n).priority = s.priority := by
  rw [setTickets, setEntry_priority]
  exact update_eq_self a s.priority

@[simp] theorem setTickets_ptr : (s.setTickets a n).ptr = s.ptr := by
  rw [setTickets, setEntry_ptr]
  exact update_eq_self a s.ptr

@[simp] theorem setNext_heads : (s.setNext a h).procPriorityList = s.procPriorityList := rfl
@[simp] theorem setNext_current : (s.setNext a h).currentProcess = s.currentProcess := rfl

@[simp] theorem setNext_next : (s.setNext a h).next = update s.next a h := setEntry_next s a _

@[simp] theorem setNext_priority : (s.setNext a h).priority = s.priority := by
  rw [setNext, setEntry_priority]
  exact update_eq_self a s.priority

@[simp] theorem setNext_ptr : (s.setNext a h).ptr = s.ptr := by
  rw [setNext, setEntry_ptr]
  exact update_eq_self a s.ptr

@[simp] theorem setNext_tickets : (s.setNext a h).tickets = s.tickets := by
  rw [setNext, setEntry_tickets]
  exact update_eq_self a s.tickets

@[simp] theorem setHead_heads :
    (s.setHead i h).procPriorityList = update s.procPriorityList i h := rfl
@[simp] theorem setHead_current : (s.setHead i h).currentProcess = s.currentProcess := rfl
@[simp] theorem setHead_next : (s.setHead i h).next = s.next := rfl
@[simp] theorem setHead_priority : (s.setHead i h).priority = s.priority := rfl
@[simp] theorem setHead_ptr : (s.setHead i h).ptr = s.ptr := rfl
@[simp] theorem setHead_tickets : (s.setHead i h).tickets = s.tickets := rfl

theorem enqueue_priority : (s.enqueue a).priority = update s.priority a 0 := by
  rw [enqueue, setHead_priority, setEntry_priority]

theorem enqueue_tickets : (s.enqueue a).tickets = update s.tickets a 2000 := by
  rw [enqueue, setHead_tickets, setEntry_tickets]
  rfl

end Sched

/-! ## Taking an entry out of its list -/

variable {s t : Sched} {L : Nat → List Nat} {cur : Nat}

/-- The search stops at the entry `q` in front of `cur`. -/
theorem schedUnlinkLoop_eq {nx h : Option Nat} {l₁ l₂ : List Nat} {q fuel : Nat}
    (hl : IsList s.next h (l₁ ++ q :: cur :: l₂)) (hf : l₁.length < fuel) :
    schedUnlinkLoop cur nx fuel h s = .ok (s.setNext q nx) := by
  induction l₁ generalizing h fuel with
  | nil =>
    obtain ⟨fuel, rfl⟩ := Nat.exists_eq_add_of_lt hf
    obtain ⟨rfl, hc⟩ := IsList.cons_iff.mp hl
    have hq : s.next q = some cur := (IsList.cons_iff.mp hc).1
    simp [schedUnlinkLoop, hq]
  | cons c l₁ ih =>
    obtain ⟨fuel, rfl⟩ := Nat.exists_eq_add_of_lt hf
    obtain ⟨rfl, hc⟩ := IsList.cons_iff.mp hl
    have hne : s.next c ≠ some cur := by
      intro heq
      have hnd := hc.nodup
      have hh := hc.head?
      rw [heq] at hh
      cases l₁ with
      | nil => simp_all
      | cons d l₁ => simp_all
    simp only [List.length_cons, schedUnlinkLoop, hne, if_false]
    exact ih hc (by omega)

/-- `schedUnlink` takes `cur` out of its list; entries outside the list keep their links,
and `cur` keeps its own. -/
theorem schedUnlink_spec {i : Nat} {l : List Nat} (hl : IsList s.next (s.procPriorityList i) l)
    (hcur : cur ∈ l) (hlen : l.length ≤ maxProcesses) :
    ∃ t, schedUnlink cur i s = .ok t ∧ IsList t.next (t.procPriorityList i) (l.erase cur) ∧
      (∀ j, j ≠ i → t.procPriorityList j = s.procPriorityList j) ∧
      (∀ a, a ∉ l.erase cur → t.next a = s.next a) ∧
      t.priority = s.priority ∧ t.ptr = s.ptr ∧ t.currentProcess = s.currentProcess := by
  obtain ⟨l₁, l₂, rfl⟩ := List.append_of_mem hcur
  have hnd := hl.nodup
  have hne : cur ∉ l₁ := fun h => (List.nodup_append.mp hnd).2.2 cur h cur List.mem_cons_self rfl
  rw [List.erase_append_right _ hne, List.erase_cons_head]
  rcases List.eq_nil_or_concat l₁ with rfl | ⟨l₁, q, rfl⟩
  · -- `cur` is the head
    obtain ⟨hh, hl⟩ := IsList.cons_iff.mp hl
    refine ⟨s.setHead i (s.next cur), by simp [schedUnlink, hh], by simpa using hl, ?_, ?_⟩
    · intro j hj
      exact update_of_ne hj _ _
    · exact ⟨fun _ _ => rfl, rfl, rfl, rfl⟩
  · simp only [List.concat_eq_append, List.append_assoc, List.cons_append, List.nil_append] at *
    obtain ⟨head, hh⟩ : ∃ head, s.procPriorityList i = some head := by
      rw [← hl.head?]
      cases l₁ <;> simp
    have hhead : head ≠ cur := by
      rintro rfl
      have := hl.head?
      rw [hh] at this
      cases l₁ <;> simp_all
    have hloop : schedUnlinkLoop cur (s.next cur) maxProcesses (some head) s =
        .ok (s.setNext q (s.next cur)) := by
      rw [← hh]
      refine schedUnlinkLoop_eq hl ?_
      simp only [List.length_append, List.length_cons] at hlen
      omega
    refine ⟨s.setNext q (s.next cur), by simp [schedUnlink, hh, hhead, hloop], ?_, ?_, ?_⟩
    · simpa using hl.unlink
    · exact fun _ _ => rfl
    · refine ⟨?_, by simp, by simp, rfl⟩
      intro a ha
      rw [Sched.setNext_next]
      refine update_of_ne ?_ _ _
      rintro rfl
      simp at ha

/-! ## The lists -/

structure Queues (s : Sched) (L : Nat → List Nat) : Prop where
  isList : ∀ i, i < 3 → IsList s.next (s.procPriorityList i) (L i)
  priority : ∀ i, i < 3 → ∀ a ∈ L i, s.priority a = i
  ptr : ∀ i, i < 3 → ∀ a ∈ L i, s.ptr a ≠ none
  pid : ∀ i, i < 3 → ∀ a ∈ L i, 1 ≤ a ∧ a < maxProcesses

namespace Queues

theorem disjoint (h : Queues s L) {i j a : Nat} (hi : i < 3) (hj : j < 3) (ha : a ∈ L i)
    (ha' : a ∈ L j) : i = j :=
  (h.priority i hi a ha).symm.trans (h.priority j hj a ha')

theorem length_le (h : Queues s L) {i : Nat} (hi : i < 3) : (L i).length ≤ maxProcesses := by
  have hsub : L i ⊆ List.range maxProcesses :=
    fun a ha => List.mem_range.mpr (h.pid i hi a ha).2
  simpa using (List.subperm_of_subset (h.isList i hi).nodup hsub).length_le

theorem head_none_iff (h : Queues s L) {i : Nat} (hi : i < 3) :
    s.procPriorityList i = none ↔ L i = [] := by
  rw [← (h.isList i hi).head?, List.head?_eq_none_iff]

/-- A change of tickets or of the current process leaves the lists alone. -/
theorem congr (h : Queues s L) (hn : t.next = s.next) (hh : t.procPriorityList = s.procPriorityList)
    (hp : t.priority = s.priority) (hptr : t.ptr = s.ptr) : Queues t L := by
  refine ⟨?_, ?_, ?_, h.pid⟩
  · rw [hn, hh]
    exact h.isList
  · rw [hp]
    exact h.priority
  · rw [hptr]
    exact h.ptr

/-- Unlinking takes `cur` out of its list. -/
theorem unlink (h : Queues s L) {p : Nat} (hp : p < 3) (hcur : cur ∈ L p) :
    ∃ t, schedUnlink cur p s = .ok t ∧ Queues t (update L p ((L p).erase cur)) ∧
      (∀ i, i < 3 → cur ∉ update L p ((L p).erase cur) i) ∧
      t.priority = s.priority ∧ t.ptr = s.ptr ∧ t.currentProcess = s.currentProcess := by
  obtain ⟨t, ht, hlist, hheads, hnext, hprio, hptr, hc⟩ :=
    schedUnlink_spec (h.isList p hp) hcur (h.length_le hp)
  have hsub : ∀ i, ∀ a ∈ update L p ((L p).erase cur) i, a ∈ L i := by
    intro i a ha
    by_cases hip : i = p
    · subst hip
      rw [update_self] at ha
      exact List.mem_of_mem_erase ha
    · rwa [update_of_ne hip] at ha
  refine ⟨t, ht, ⟨?_, ?_, ?_, ?_⟩, ?_, hprio, hptr, hc⟩
  · intro i hi
    by_cases hip : i = p
    · subst hip
      rwa [update_self]
    · rw [update_of_ne hip, hheads i hip]
      apply (h.isList i hi).congr
      intro a ha
      exact hnext a fun hmem => hip (h.disjoint hi hp ha (List.mem_of_mem_erase hmem))
  · intro i hi a ha
    rw [hprio]
    exact h.priority i hi a (hsub i a ha)
  · intro i hi a ha
    rw [hptr]
    exact h.ptr i hi a (hsub i a ha)
  · exact fun i hi a ha => h.pid i hi a (hsub i a ha)
  · intro i hi hmem
    obtain rfl := h.disjoint hi hp (hsub i cur hmem) hcur
    rw [update_self] at hmem
    exact ((h.isList i hi).nodup.mem_erase_iff.mp hmem).1 rfl

theorem mem_push {p i a b : Nat} :
    b ∈ update L p (a :: L p) i ↔ (b = a ∧ i = p) ∨ b ∈ L i := by
  by_cases hip : i = p
  · subst hip
    simp
  · simp [hip]

/-- A new entry in front of list `p`. -/
theorem push (h : Queues s L) {p a : Nat} {e : MlfqEntry} (hp : e.priority = p)
    (hptr : e.ptr ≠ none) (hnext : e.nextProcess = s.procPriorityList p)
    (hpid : 1 ≤ a ∧ a < maxProcesses) (hnew : ∀ i, i < 3 → a ∉ L i) :
    Queues ((s.setEntry a e).setHead p (some a)) (update L p (a :: L p)) := by
  have hkeep : ∀ i, i < 3 → ∀ b ∈ L i, b ≠ a := by
    rintro i hi b hb rfl
    exact hnew i hi hb
  refine ⟨?_, ?_, ?_, ?_⟩
  · intro i hi
    simp only [Sched.setHead_next, Sched.setEntry_next, Sched.setHead_heads, Sched.setEntry_heads]
    by_cases hip : i = p
    · subst hip
      rw [update_self, update_self, hnext]
      exact (h.isList i hi).push (hnew i hi)
    · rw [update_of_ne hip, update_of_ne hip]
      exact (h.isList i hi).congr fun b hb => update_of_ne (hkeep i hi b hb) _ _
  · intro i hi b hb
    rw [Sched.setHead_priority, Sched.setEntry_priority]
    rcases mem_push.mp hb with ⟨rfl, rfl⟩ | hb
    · rw [update_self, hp]
    · rw [update_of_ne (hkeep i hi b hb)]
      exact h.priority i hi b hb
  · intro i hi b hb
    rw [Sched.setHead_ptr, Sched.setEntry_ptr]
    rcases mem_push.mp hb with ⟨rfl, rfl⟩ | hb
    · rwa [update_self]
    · rw [update_of_ne (hkeep i hi b hb)]
      exact h.ptr i hi b hb
  · intro i hi b hb
    rcases mem_push.mp hb with ⟨rfl, -⟩ | hb
    · exact hpid
    · exact h.pid i hi b hb

/-- The lists are empty, or the first non-empty one starts with `firstHead`. -/
theorem firstHead_cases (h : Queues s L) :
    (s.firstHead = none ∧ ∀ i, i < 3 → L i = []) ∨
    ∃ j n, j < 3 ∧ s.firstHead = some n ∧ n ∈ L j ∧ ∀ i, i < j → L i = [] := by
  rcases findSome?_range_cases s.procPriorityList maxPriorityQueues with
    ⟨hnone, hheads⟩ | ⟨j, n, hj, hsome, hhead, hbefore⟩
  · exact .inl ⟨hnone, fun i hi => (h.head_none_iff hi).mp (hheads i hi)⟩
  · have hj' : j < 3 := hj
    have hl := h.isList j hj'
    rw [hhead] at hl
    refine .inr ⟨j, n, hj', hsome, hl.head_mem, ?_⟩
    intro i hi
    exact (h.head_none_iff (by omega)).mp (hbefore i hi)

end Queues

end KoizOs
