import KoizOs.Kernel.Service
import KoizOs.Lib.Visible

/-!
# What the interrupts make of the keys

| result | content |
|--------|---------|
| `taking_run` | each line that is completed is called, once and in order |
| `kernel_timing` | when the other interrupts come makes no difference to memory, files, processes |

The first holds whatever the commands do to the memory.  The second says of a run that came to
its end where it ended: whether the next interrupt comes back depends on the scheduler, and that
is what the timer works on.  It is about what the keys find on the stack as well as about the
keys, because a file that is written has bytes of the stack in its entry.
-/

namespace KoizOs

open Function Lib

/-- The character of an interrupt, and what its locals hold. -/
def Event.keystroke (e : Event) : Option (UInt8 × Buffer) := e.char.map fun c => (c, e.stack)

/-- The characters that were typed in a run. -/
def typed (tr : List (Kernel × Event)) : List UInt8 := visible Event.char tr

def keystrokes (tr : List (Kernel × Event)) : List (UInt8 × Buffer) := visible Event.keystroke tr

/-- The timer interrupts of a run. -/
def ticks (tr : List (Kernel × Event)) : Nat := (tr.map fun x => x.2.ticks).sum

theorem ticks_concat (tr : List (Kernel × Event)) (k : Kernel) (e : Event) :
    ticks (tr ++ [(k, e)]) = ticks tr + e.ticks := by
  simp [ticks]

theorem Event.keystroke_eq_none {e : Event} : e.keystroke = none ↔ e.char = none :=
  Option.map_eq_none_iff

theorem Event.keystroke_eq_some {e : Event} {c : UInt8} {stack : Buffer} :
    e.keystroke = some (c, stack) ↔ e.char = some c ∧ e.stack = stack := by
  rw [Event.keystroke, Option.map_eq_some_iff]
  constructor
  · rintro ⟨a, ha, heq⟩
    obtain ⟨rfl, hstack⟩ := Prod.mk.inj heq
    exact ⟨ha, hstack⟩
  · rintro ⟨ha, rfl⟩
    exact ⟨c, ha, rfl⟩

namespace Kernel

variable {k k' k₀ k₁ k₂ k₁' k₂' : Kernel} {stack : Buffer} {s : Split} {fileName : CString}
  {c : UInt8} {e : Event} {page : UInt32} {pm : Pmem} {tr : List (Kernel × Event)}

/-! ## Lines -/

/-- Between two interrupts nothing waits. -/
structure Settled (k : Kernel) : Prop where
  ready : k.pmem.pmemInitialized = true
  idle : k.stdin.Idle

theorem Settled.next (h : k.Settled) (hs : KernelStep k e k') : k'.Settled := by
  cases handle_serviced h.ready h.idle hs with
  | quiet => exact ⟨h.ready, h.idle⟩
  | @typed c page pm k₁ sched _ _ _ hpage htook _ =>
    obtain ⟨-, hstdin, -, hready⟩ := htook.shell
    refine ⟨hready.trans (hpage.ready.trans h.ready), ?_⟩
    rw [show k₁.stdin = _ from hstdin]
    exact took_idle k h.idle c page pm

/-- The kernel has taken the keys of the run `tr`. -/
structure Taking (k₀ : Kernel) (tr : List (Kernel × Event)) (k : Kernel) : Prop where
  settled : k.Settled
  typed : Typed k₀.shell k.shell (typed tr)
  args : ArgsFit (KoizOs.typed tr)

/-- The counter stops the kernel before it is negative. -/
theorem Counts.toNat {count : UInt32} (h : k.Counts e count)
    (hlow : k.pitInterruptCount.toNat < 2 ^ 31) :
    count.toNat = k.pitInterruptCount.toNat + e.ticks ∧ count.toNat < 2 ^ 31 := by
  rcases h with ⟨hticks, rfl⟩ | ⟨hticks, rfl, hne⟩
  · exact ⟨by rw [hticks, Nat.add_zero], hlow⟩
  · have hone : (k.pitInterruptCount + 1).toNat = k.pitInterruptCount.toNat + 1 := by
      rw [UInt32.toNat_add, show (1 : UInt32).toNat = 1 from rfl]
      omega
    have hne : (k.pitInterruptCount + 1).toNat ≠ 2 ^ 31 := fun h => hne (UInt32.toNat.inj h)
    rw [hticks]
    omega

/-- A character that the shell has taken is the next one of its stream. -/
theorem Took.typed {start : Shell} {ys : List UInt8} (h : Took stack k c k')
    (htyped : Typed start k.shell ys) (hargs : ArgsFit ys) (hc : c ≠ 0) :
    Typed start k'.shell (ys ++ [c]) ∧ ArgsFit (ys ++ [c]) := by
  have hshell := h.shell.1
  rcases @Typed.char_cases start k.shell ys c (fun _ b => b) htyped hargs hc with
    ⟨-, herror⟩ | ⟨-, htake⟩
  · cases hshell.symm.trans herror
  · split at htake
    · next hargs' =>
      obtain ⟨sh, hok, htyped'⟩ := htake
      obtain rfl := Except.ok.inj (hshell.symm.trans hok)
      exact ⟨htyped', hargs'⟩
    · cases hshell.symm.trans htake

theorem Taking.next (h : Taking k₀ tr k) (hs : KernelStep k e k') :
    Taking k₀ (tr ++ [(k, e)]) k' := by
  have hsettled := h.settled.next hs
  cases handle_serviced h.settled.ready h.settled.idle hs with
  | quiet hchar =>
    have hsilent : KoizOs.typed (tr ++ [(k, e)]) = KoizOs.typed tr := visible_silent hchar tr k
    have htyped := h.typed
    have hargs := h.args
    rw [← hsilent] at htyped hargs
    exact ⟨hsettled, htyped, hargs⟩
  | @typed c page pm k₁ sched hchar _ hc _ htook _ =>
    have hnext : KoizOs.typed (tr ++ [(k, e)]) = KoizOs.typed tr ++ [c] :=
      visible_concat hchar tr k
    obtain ⟨htyped, hargs⟩ := htook.typed h.typed h.args hc
    rw [← hnext] at htyped hargs
    exact ⟨hsettled, htyped, hargs⟩

theorem settled_run (hset : k₀.Settled) (hrun : Trace KernelStep k₀ tr k) : k.Settled :=
  (hrun.invariant hset fun _ _ _ h hs => h.next hs).1

theorem taking_run (hset : k₀.Settled) (hptr : k₀.shell.commandBufferPtr = 0)
    (hrun : Trace KernelStep k₀ tr k) : Taking k₀ tr k := by
  induction hrun with
  | start =>
    refine ⟨hset, .start_nil hptr, ?_⟩
    intro l hl
    rw [typed, visible_nil, lines_nil] at hl
    exact absurd hl List.not_mem_nil
  | next _ hs ih => exact ih.next hs

theorem count_run (hset : k₀.Settled) (hcount : k₀.pitInterruptCount.toNat < 2 ^ 31)
    (hrun : Trace KernelStep k₀ tr k) :
    k.pitInterruptCount.toNat = k₀.pitInterruptCount.toNat + ticks tr ∧
      k.pitInterruptCount.toNat < 2 ^ 31 := by
  induction hrun with
  | start => exact ⟨rfl, hcount⟩
  | @next tr t u e hrun hs ih =>
    obtain ⟨heq, hlow⟩ := ih
    have hset' := settled_run hset hrun
    rw [ticks_concat, ← Nat.add_assoc, ← heq]
    cases handle_serviced hset'.ready hset'.idle hs with
    | quiet _ hcounts => exact hcounts.toNat hlow
    | @typed c page pm k₁ sched _ hticks _ _ htook _ =>
      have hsame : k₁.pitInterruptCount = t.pitInterruptCount := htook.shell.2.2.1
      rw [hticks]
      show k₁.pitInterruptCount.toNat = _ ∧ k₁.pitInterruptCount.toNat < _
      rw [hsame]
      exact ⟨rfl, hlow⟩

/-! ## Timing -/

/-- The same memory, files, input, shell and processes. -/
structure Agrees (k₁ k₂ : Kernel) : Prop where
  pmem : k₁.pmem = k₂.pmem
  stdin : k₁.stdin = k₂.stdin
  shell : k₁.shell = k₂.shell
  slabs : k₁.slabs = k₂.slabs
  ramdiskBlockSize : k₁.ramdiskBlockSize = k₂.ramdiskBlockSize
  ramdiskBlockPointers : k₁.ramdiskBlockPointers = k₂.ramdiskBlockPointers
  processes : k₁.processes = k₂.processes

namespace Agrees

theorem refl (k : Kernel) : k.Agrees k := ⟨rfl, rfl, rfl, rfl, rfl, rfl, rfl⟩

theorem symm (h : k₁.Agrees k₂) : k₂.Agrees k₁ :=
  ⟨h.pmem.symm, h.stdin.symm, h.shell.symm, h.slabs.symm, h.ramdiskBlockSize.symm,
    h.ramdiskBlockPointers.symm, h.processes.symm⟩

theorem trans (h : k₁.Agrees k) (h' : k.Agrees k₂) : k₁.Agrees k₂ :=
  ⟨h.pmem.trans h'.pmem, h.stdin.trans h'.stdin, h.shell.trans h'.shell, h.slabs.trans h'.slabs,
    h.ramdiskBlockSize.trans h'.ramdiskBlockSize,
    h.ramdiskBlockPointers.trans h'.ramdiskBlockPointers, h.processes.trans h'.processes⟩

/-- The other fields are the scheduler's, the timer's and the output's. -/
theorem eq (h : k₁.Agrees k₂) : k₂ = { k₁ with
    sched := k₂.sched
    pitInterruptCount := k₂.pitInterruptCount
    out := k₂.out } := by
  obtain ⟨pmem, stdin, shell, slabs, size, pointers, processes, sched, count, out⟩ := k₁
  obtain ⟨rfl, rfl, rfl, rfl, rfl, rfl, rfl⟩ := h
  rfl

end Agrees

theorem Printed.agrees (h : k.Printed k') : k.Agrees k' := by
  rw [h]
  exact ⟨rfl, rfl, rfl, rfl, rfl, rfl, rfl⟩

/-- What both print leaves them as they agreed. -/
theorem Printed.both (h₁ : k₁.Printed k₁') (h₂ : k₂.Printed k₂') (h : k₁.Agrees k₂) :
    k₁'.Agrees k₂' :=
  h₁.agrees.symm.trans (h.trans h₂.agrees)

theorem TakesSlot.unique {pid pid' : Nat} {page' : UInt32} {pm' : Pmem}
    (h₁ : k₁.TakesSlot pid page pm) (h₂ : k₂.TakesSlot pid' page' pm') (h : k₁.Agrees k₂) :
    pid = pid' ∧ page = page' ∧ pm = pm' := by
  have hslot := h₂.slot
  have halloc := h₂.alloc
  rw [← h.processes] at hslot
  rw [← h.pmem] at halloc
  have hpid : pid = pid' := Int.ofNat_inj.mp (h₁.slot.symm.trans hslot)
  obtain ⟨hpage, hpm⟩ := Prod.mk.inj (Except.ok.inj (h₁.alloc.symm.trans halloc))
  exact ⟨hpid, hpage, hpm⟩

theorem TakesSlot.not_full {pid : Nat} (h : k.TakesSlot pid page pm) :
    ¬ processGetNextFreePid k.processes ≤ 0 := by
  have hpos := h.pos
  rw [h.slot]
  omega

/-- `k` with another clock, other queues and another output. -/
def clocked (k : Kernel) (sched : Sched) (count : UInt32) (out : Output) : Kernel :=
  { k with sched := sched, pitInterruptCount := count, out := out }

theorem Agrees.clocked (h : k₁.Agrees k₂) : ∃ sched count out, k₂ = k₁.clocked sched count out :=
  ⟨_, _, _, h.eq⟩

theorem clocked_agrees (k : Kernel) (sched : Sched) (count : UInt32) (out : Output) :
    k.Agrees (k.clocked sched count out) := ⟨rfl, rfl, rfl, rfl, rfl, rfl, rfl⟩

theorem Launched.both (h₁ : Launched stack fileName k₁ k₁') (h₂ : Launched stack fileName k₂ k₂')
    (h : k₁.Agrees k₂) : k₁'.Agrees k₂' := by
  obtain ⟨sched, count, out, rfl⟩ := h.clocked
  -- the same file is there or not, and the same slot is free or none
  have hsame {n n' : Nat} (hn : ramdiskFat16FileExists stack fileName k₁.rd = .ok (n, k₁.rd))
      (hn' : ramdiskFat16FileExists stack fileName k₁.rd = .ok (n', k₁.rd)) : n = n' :=
    (Prod.mk.inj (Except.ok.inj (hn.symm.trans hn'))).1
  cases h₁ with
  | missing hfound hprint =>
    cases h₂ with
    | missing _ hprint' => exact hprint.both hprint' h
    | full _ hprint' => exact hprint.both hprint' h
    | nowhere hfound' hn => exact absurd (hsame hfound' hfound) hn
    | started hfound' hn => exact absurd (hsame hfound' hfound) hn
  | full hfull hprint =>
    cases h₂ with
    | missing _ hprint' => exact hprint.both hprint' h
    | full _ hprint' => exact hprint.both hprint' h
    | nowhere _ _ hslot => exact absurd hfull hslot.not_full
    | started _ _ hslot => exact absurd hfull hslot.not_full
  | nowhere hfound hn hslot heq =>
    cases h₂ with
    | missing hfound' _ => exact absurd (hsame hfound hfound') hn
    | full hfull _ => exact absurd hfull hslot.not_full
    | nowhere _ _ hslot' heq' =>
      obtain ⟨rfl, -, rfl⟩ := hslot.unique hslot' h
      rw [heq, heq']
      exact ⟨rfl, rfl, rfl, rfl, rfl, rfl, rfl⟩
    | started _ _ hslot' hpage => exact absurd (hslot.unique hslot' h).2.1.symm hpage
  | started hfound hn hslot hpage hread heq =>
    cases h₂ with
    | missing hfound' _ => exact absurd (hsame hfound hfound') hn
    | full hfull _ => exact absurd hfull hslot.not_full
    | nowhere _ _ hslot' => exact absurd (hslot.unique hslot' h).2.1 hpage
    | started _ _ hslot' _ hread' heq' =>
      obtain ⟨rfl, rfl, rfl⟩ := hslot.unique hslot' h
      obtain ⟨-, rfl⟩ := Prod.mk.inj (Except.ok.inj (hread.symm.trans hread'))
      rw [heq, heq']
      exact ⟨rfl, rfl, rfl, rfl, rfl, rfl, rfl⟩

theorem Called.both (h₁ : Called stack s k₁ k₁') (h₂ : Called stack s k₂ k₂')
    (h : k₁.Agrees k₂) : k₁'.Agrees k₂' := by
  obtain ⟨sched, count, out, rfl⟩ := h.clocked
  by_cases hw : s.Writes
  · obtain ⟨res, rd, hwrite, hprint⟩ := h₁.of_writes hw
    obtain ⟨res', rd', hwrite', hprint'⟩ := h₂.of_writes hw
    obtain ⟨-, rfl⟩ := Prod.mk.inj (Except.ok.inj (hwrite.symm.trans hwrite'))
    exact hprint.both hprint' (clocked_agrees _ sched count out)
  by_cases hr : s.Reads
  · obtain ⟨p, heap, n, hmalloc, hfound, hdone⟩ := h₁.of_reads hr
    obtain ⟨p', heap', n', hmalloc', hfound', hdone'⟩ := h₂.of_reads hr
    obtain ⟨rfl, rfl⟩ := Prod.mk.inj (Except.ok.inj (hmalloc.symm.trans hmalloc'))
    obtain rfl : n = n' := (Prod.mk.inj (Except.ok.inj (hfound.symm.trans hfound'))).1
    split at hdone
    · next hn =>
      rw [if_pos hn] at hdone'
      exact hdone.both hdone' (clocked_agrees _ sched count out)
    · next hn =>
      rw [if_neg hn] at hdone'
      obtain ⟨res, rd, heap₁, hread, hfree, hprint⟩ := hdone
      obtain ⟨res', rd', heap₁', hread', hfree', hprint'⟩ := hdone'
      obtain ⟨-, rfl⟩ := Prod.mk.inj (Except.ok.inj (hread.symm.trans hread'))
      obtain rfl : heap₁ = heap₁' := Except.ok.inj (hfree.symm.trans hfree')
      exact hprint.both hprint' (clocked_agrees _ sched count out)
  by_cases hx : s.Runs
  · obtain ⟨k, hlaunched, hprint⟩ := h₁.of_runs hx
    obtain ⟨k', hlaunched', hprint'⟩ := h₂.of_runs hx
    exact hprint.both hprint' (hlaunched.both hlaunched' h)
  · have hs : s.Prints := ⟨hw, hr, hx⟩
    exact (h₁.of_prints hs).both (h₂.of_prints hs) h

theorem Took.both (h₁ : Took stack k₁ c k₁') (h₂ : Took stack k₂ c k₂') (h : k₁.Agrees k₂) :
    k₁'.Agrees k₂' := by
  obtain ⟨sched, count, out, rfl⟩ := h.clocked
  cases h₁ with
  | other hc hstore hprint =>
    cases h₂ with
    | other _ hstore' hprint' =>
      obtain rfl := Except.ok.inj (hstore.symm.trans hstore')
      exact hprint.both hprint' (clocked_agrees _ sched count out)
    | line => exact absurd rfl hc
  | @line sh s out₁ k _ hstore hsplit hcall hprint =>
    cases h₂ with
    | other hc => exact absurd rfl hc
    | @line _ _ out₂ k' _ hstore' hsplit' hcall' hprint' =>
      obtain rfl := Except.ok.inj (hstore.symm.trans hstore')
      obtain rfl := Except.ok.inj (hsplit.symm.trans hsplit')
      have hready : (k₁.ready sh s out₁).Agrees
          ((k₁.clocked sched count out).ready sh s out₂) := ⟨rfl, rfl, rfl, rfl, rfl, rfl, rfl⟩
      have hcalled := hcall.both hcall' hready
      refine hprint.both hprint' ?_
      rw [hcalled.eq]
      exact ⟨rfl, rfl, rfl, rfl, rfl, rfl, rfl⟩

theorem InputPage.unique {page' : UInt32} {pm' : Pmem} (h₁ : k₁.InputPage page pm)
    (h₂ : k₂.InputPage page' pm') (h : k₁.Agrees k₂) : page = page' ∧ pm = pm' := by
  rw [InputPage, ← h.pmem, ← h.stdin] at h₂
  rcases h₁ with ⟨hinit, rfl, rfl⟩ | ⟨hinit, halloc⟩
  · rcases h₂ with ⟨-, rfl, rfl⟩ | ⟨hraw, -⟩
    · exact ⟨rfl, rfl⟩
    · cases hinit.symm.trans hraw
  · rcases h₂ with ⟨hinit', -, -⟩ | ⟨-, halloc'⟩
    · cases hinit.symm.trans hinit'
    · exact Prod.mk.inj (Except.ok.inj (halloc.symm.trans halloc'))

/-- An interrupt without a key. -/
theorem silent_agrees (hset : k.Settled) (hs : KernelStep k e k') (hnone : e.keystroke = none) :
    k.Agrees k' := by
  cases handle_serviced hset.ready hset.idle hs with
  | quiet => exact ⟨rfl, rfl, rfl, rfl, rfl, rfl, rfl⟩
  | typed hchar => cases hchar.symm.trans (Event.keystroke_eq_none.mp hnone)

/-- The same key, and the same left on the stack. -/
theorem typed_agrees {e' : Event} (hset : k₁.Settled) (hset' : k₂.Settled) (h : k₁.Agrees k₂)
    (hkey : e.keystroke = some (c, stack)) (hkey' : e'.keystroke = some (c, stack))
    (hs : KernelStep k₁ e k₁') (hs' : KernelStep k₂ e' k₂') : k₁'.Agrees k₂' := by
  obtain ⟨hchar, rfl⟩ := Event.keystroke_eq_some.mp hkey
  obtain ⟨hchar', hstack⟩ := Event.keystroke_eq_some.mp hkey'
  cases handle_serviced hset.ready hset.idle hs with
  | quiet hnone => cases hnone.symm.trans hchar
  | @typed d page pm k sched hd _ _ hpage htook _ =>
    obtain rfl := Option.some.inj (hd.symm.trans hchar)
    cases handle_serviced hset'.ready hset'.idle hs' with
    | quiet hnone => cases hnone.symm.trans hchar'
    | @typed d' page' pm' k' sched' hd' _ _ hpage' htook' _ =>
      obtain rfl := Option.some.inj (hd'.symm.trans hchar')
      obtain ⟨rfl, rfl⟩ := hpage.unique hpage' h
      obtain ⟨sched₁, count, out, rfl⟩ := h.clocked
      rw [hstack] at htook'
      have hk := htook.both htook' (clocked_agrees _ sched₁ count out)
      rw [hk.eq]
      exact ⟨rfl, rfl, rfl, rfl, rfl, rfl, rfl⟩

theorem kernel_unseen : Unseen KernelStep Event.keystroke Settled Agrees where
  inv _ _ _ h hs := h.next hs
  left _ _ _ _ hset hs hnone h := (silent_agrees hset hs hnone).symm.trans h
  right _ _ _ _ hset hs hnone h := h.trans (silent_agrees hset hs hnone)
  both _ _ _ _ _ _ _ hset hset' h hkey hkey' hs hs' := typed_agrees hset hset' h hkey hkey' hs hs'

end Kernel

variable {k₀ k k₁ k₂ : Kernel} {tr tr₁ tr₂ : List (Kernel × Event)}

/-- A kernel at rest that has no memory but the page of its input. -/
def restingKernel : Kernel where
  pmem := ⟨true, 0, 0, 0, 0, 0, fun _ => 0⟩
  stdin := ⟨false, true, 0x1000, 0, 0, 4096, false⟩
  shell := ⟨fun _ => 0, fun _ => 0, 0, []⟩
  slabs _ := ⟨fun _ => ⟨0, 0⟩, 0, 0, 0, fun _ => 0, 0⟩
  ramdiskBlockSize := 0
  ramdiskBlockPointers := 0
  processes _ := default
  sched := .boot
  pitInterruptCount := 0
  out := []

theorem restingKernel_settled : restingKernel.Settled where
  ready := rfl
  idle :=
    { settled := rfl
      tail := rfl
      raw := fun h => nomatch h
      ready := fun _ => ⟨rfl, by decide⟩ }

def timerEvent : Event := ⟨.timer, fun _ => 0⟩

/-- The key `a`. -/
def keyEvent : Event := ⟨.keyboard 0x1E, fun _ => 0⟩

/-- **Timing.**  Two runs in which the same keys come, each of them finding the same bytes on the
stack, end with the same memory, files and processes. -/
theorem kernel_timing (hset : k₀.Settled) (hrun₁ : Trace KernelStep k₀ tr₁ k₁)
    (hrun₂ : Trace KernelStep k₀ tr₂ k₂) (hkeys : keystrokes tr₁ = keystrokes tr₂) : k₁.Agrees k₂ :=
  Kernel.kernel_unseen.runs hrun₁ hrun₂ hset hset (.refl k₀) hkeys

/-- A timer interrupt before the key, or behind it. -/
theorem kernel_timing_one : ∃ k₁ k₂ k₃ k₄,
    KernelStep restingKernel timerEvent k₁ ∧ KernelStep k₁ keyEvent k₂ ∧
    KernelStep restingKernel keyEvent k₃ ∧ KernelStep k₃ timerEvent k₄ ∧ k₂.Agrees k₄ := by
  have htimer := (@Trace.start _ _ KernelStep restingKernel).next (o := timerEvent) rfl
  have hkey := (@Trace.start _ _ KernelStep restingKernel).next (o := keyEvent) rfl
  exact ⟨_, _, _, _, rfl, rfl, rfl, rfl,
    kernel_timing restingKernel_settled (htimer.next (o := keyEvent) rfl)
      (hkey.next (o := timerEvent) rfl) rfl⟩

end KoizOs
