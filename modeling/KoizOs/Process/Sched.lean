import KoizOs.Process.Process

/-!
# The scheduler

Three intrusive lists, one per priority, of entries that live in a fixed array; a
`struct mlfq_entry*` is the index of its entry.  `schedUpdate` is one timer update of the
current process: take tickets, demote, pre-empt, or go round the list.
-/

namespace KoizOs

open Function

def maxPriorityQueues : Nat := 3
def startingTickets : Int := 2000
def fullTimesliceCost : Int := 10

structure MlfqEntry where
  ptr : Option Nat
  priority : Nat
  ticketsRemaining : Int
  nextProcess : Option Nat
deriving DecidableEq, Inhabited

structure Sched where
  procList : Nat → MlfqEntry
  procPriorityList : Nat → Option Nat
  currentProcess : Option Nat

namespace Sched

/-- The static variables at boot. -/
def boot : Sched where
  procList _ := { ptr := none, priority := 0, ticketsRemaining := 0, nextProcess := none }
  procPriorityList _ := none
  currentProcess := none

variable (s : Sched)

def next (a : Nat) : Option Nat := (s.procList a).nextProcess

def priority (a : Nat) : Nat := (s.procList a).priority

def tickets (a : Nat) : Int := (s.procList a).ticketsRemaining

def setEntry (a : Nat) (e : MlfqEntry) : Sched := { s with procList := update s.procList a e }

def setTickets (a : Nat) (n : Int) : Sched :=
  s.setEntry a { s.procList a with ticketsRemaining := n }

def setNext (a : Nat) (b : Option Nat) : Sched := s.setEntry a { s.procList a with nextProcess := b }

def setHead (i : Nat) (h : Option Nat) : Sched :=
  { s with procPriorityList := update s.procPriorityList i h }

/-- The head of the first priority list that is not empty. -/
def firstHead : Option Nat := (List.range maxPriorityQueues).findSome? s.procPriorityList

end Sched

/-! ## Algorithm -/

def schedInit (s : Sched) : Sched :=
  { s with procPriorityList := fun i => if i < maxPriorityQueues then none else s.procPriorityList i }

def schedAddpid (ps : ProcessTable) (pid : Int) (s : Sched) : Kern Sched :=
  match processGet ps pid with
  | none => panic "Tried to schedule null process!"
  | some ptr =>
    let pid := pid.toNat
    let s := s.setEntry pid
      { ptr := some ptr, priority := 0, ticketsRemaining := startingTickets,
        nextProcess := s.procPriorityList 0 }
    .ok (s.setHead 0 (some pid))

/-- Look for the entry in front of `cur`, from `curr` on, and make it point to `next`. -/
def schedUnlinkLoop (cur : Nat) (next : Option Nat) : (fuel : Nat) → Option Nat → Sched → Kern Sched
  | _, none, _ => panic "Cannot find current process in priority!"
  | 0, some _, _ => .error .hang
  | fuel + 1, some curr, s =>
    if s.next curr = some cur then .ok (s.setNext curr next)
    else schedUnlinkLoop cur next fuel (s.next curr) s

/-- Take `cur` out of the list of priority `cprior`. -/
def schedUnlink (cur cprior : Nat) (s : Sched) : Kern Sched :=
  match s.procPriorityList cprior with
  | none => panic "Head of current priority list is empty!"
  | some head =>
    if head = cur then .ok (s.setHead cprior (s.next cur))
    else schedUnlinkLoop cur (s.next cur) maxProcesses (some head) s

/-- Bump the process down the queue if we can. -/
def schedDemote (cur : Nat) (s : Sched) : Kern Sched :=
  let cprior := s.priority cur
  if cprior < maxPriorityQueues - 1 then do
    let s ← schedUnlink cur cprior s
    let newprior := s.priority cur + 1
    if newprior ≥ maxPriorityQueues then panic "Moved to an out of bounds priority!"
    else
      let s := s.setEntry cur
        { s.procList cur with
          priority := newprior
          ticketsRemaining := startingTickets
          nextProcess := s.procPriorityList newprior }
      return s.setHead newprior (some cur)
  else .ok s

/-- Scenerio 3: the next process in line, or the head of the list again. -/
def schedRoundRobin (cur : Nat) (s : Sched) : Sched :=
  let cpr := s.priority cur
  match s.next cur with
  | some n => { s with currentProcess := some n }
  | none =>
    match s.procPriorityList cpr with
    | some h => { s with currentProcess := some h }
    | none => s

/-- Scenerio 2, or else 3: a process of higher priority, or the next one in line. -/
def schedSwitch (cur : Nat) (s : Sched) : Sched :=
  if s.priority cur ≠ 0 then
    let newProcess := s.firstHead.getD cur
    if s.priority newProcess < s.priority cur then { s with currentProcess := some newProcess }
    else schedRoundRobin cur s
  else schedRoundRobin cur s

def schedUpdate (s : Sched) : Kern Sched :=
  match s.currentProcess with
  -- Scenerio 1: no current process, take the first one there is
  | none => .ok { s with currentProcess := s.firstHead }
  | some cur =>
    if (s.procList cur).ptr = none then panic "There exists a null process in the scheduler!\n"
    else do
      let s := s.setTickets cur (s.tickets cur - fullTimesliceCost)
      let s ← if s.tickets cur < 0 then schedDemote cur (s.setTickets cur 0) else pure s
      return schedSwitch cur s

/-! ## Adding a process -/

/-- Entry `pid` at the front of the first list, as `sched_addpid` sets it up. -/
def Sched.enqueue (s : Sched) (pid : Nat) : Sched :=
  (s.setEntry pid ⟨some pid, 0, startingTickets, s.procPriorityList 0⟩).setHead 0 (some pid)

@[simp] theorem Sched.enqueue_head (s : Sched) (pid : Nat) :
    (s.enqueue pid).procPriorityList 0 = some pid := by
  simp [enqueue, setHead]

@[simp] theorem Sched.enqueue_procList (s : Sched) (pid : Nat) :
    (s.enqueue pid).procList pid = ⟨some pid, 0, startingTickets, s.procPriorityList 0⟩ := by
  simp [enqueue, setHead, setEntry]

theorem schedAddpid_eq {ps : ProcessTable} {pid : Nat} (h1 : 1 ≤ pid) (hlt : pid < maxProcesses)
    (hst : (ps pid).state ≠ .unused) (s : Sched) : schedAddpid ps pid s = .ok (s.enqueue pid) := by
  have h0 : pid ≠ 0 := by omega
  have hget : processGet ps pid = some pid := by simp [processGet, h0, hlt, hst]
  unfold schedAddpid
  rw [hget]
  rfl

end KoizOs
