import KoizOs.Fat.Store
import KoizOs.Kernel.Effects

/-!
# Lines and files

Over a run of interrupts the disk is the store that the lines make of it, one after the other:

    write f c    adds the file `f`, if no file answers to its name and a cluster is left
    any other    leaves the files as they are

Keys, timer, programs that are started, pages that are taken and everything that is printed are
in between and do not show, as long as the largest slab has no page right before a page of the
disk.
-/

namespace KoizOs

open Function Lib

namespace FileStore

/-- What a line makes of the store. -/
def call (st : FileStore) (cmd : Command) : FileStore :=
  if cmd.Writes then st.write (cmd.word 1) (cmd.word 2).chars else st

def run (st : FileStore) (cmds : List Command) : FileStore := cmds.foldl call st

end FileStore

variable {s : Split} {buf : Buffer} {n i p : Nat}

theorem stringAt_length_le (buf : Buffer) (n p : Nat) : (stringAt buf n p).length ≤ n := by
  induction n generalizing p with
  | zero => exact Nat.le_refl 0
  | succ n ih =>
    rw [stringAt]
    split
    · exact Nat.zero_le _
    · exact Nat.succ_le_succ (ih (p + 1))

theorem stringAt_getElem (h : i < (stringAt buf n p).length) :
    (stringAt buf n p)[i] = buf (p + i) := by
  induction n generalizing p i with
  | zero => exact absurd h (Nat.not_lt_zero i)
  | succ n ih =>
    by_cases h0 : buf p = 0
    · simp only [stringAt, if_pos h0] at h
      exact absurd h (Nat.not_lt_zero i)
    · simp only [stringAt, if_neg h0] at h ⊢
      cases i with
      | zero => rfl
      | succ i =>
        rw [List.getElem_cons_succ, ih (Nat.lt_of_succ_lt_succ h), Nat.add_right_comm]
        rfl

namespace Kernel

variable {k k' k₀ k₁ : Kernel} {e : Event} {tr : List (Kernel × Event)} {G : UInt32 → Prop}
  {st : FileStore}

/-! ## One line -/

theorem Kept.image_eq (h : Kept G k k') (hk : k.Housed G) : k'.rd.image = k.rd.image :=
  (hk.fatOk_congr h.size h.pointers h.same).2.1

theorem Did.represents (h : Did G s k k') (hk : k.Housed G) (hst : k.rd.image.Represents st) :
    k'.rd.image.Represents (st.call s.command) := by
  unfold FileStore.call
  cases h with
  | kept hw _ hkept _ =>
    rw [if_neg (mt Split.writes_iff.mp hw), hkept.image_eq hk]
    exact hst
  | @wrote x hs hname hdata hsize hstep _ _ _ _ =>
    have hargs := hs.2
    rw [if_pos (Split.writes_iff.mpr hs), s.word_command (by omega), s.word_command (by omega),
      ← hname]
    have hle : (s.arg 2).chars.length ≤ 1024 :=
      Nat.le_trans (stringAt_length_le _ _ _) (Nat.sub_le _ _)
    refine hst.write hk.disk hstep ?_ ?_
    · rw [hsize, UInt32.toNat_ofNat']
      omega
    · intro i hi
      rw [hdata]
      exact (stringAt_getElem hi).symm
  | ran hx hkept _ _ =>
    have hw : ¬ s.Writes := fun hw => absurd (hx.1.symm.trans hw.1) (by decide)
    rw [if_neg (mt Split.writes_iff.mp hw), hkept.image_eq hk]
    exact hst

/-! ## Runs -/

/-- `k` has executed some lines more than `k₀`, and its disk is the store they make of `st`. -/
def Filed (st : FileStore) (k₀ k : Kernel) : Prop :=
  ∃ cmds, k.shell.executed = k₀.shell.executed ++ cmds ∧ k.rd.image.Represents (st.run cmds)

theorem Filed.step (h : Filed st k₀ k) (hk : k.Housed G) (hs : Stepped G k k') :
    Filed st k₀ k' := by
  obtain ⟨cmds, hexec, hst⟩ := h
  cases hs with
  | quiet hkept hsame _ =>
    refine ⟨cmds, hsame.trans hexec, ?_⟩
    rw [hkept.image_eq hk]
    exact hst
  | @line s k₁ hkept _ hnext hdid =>
    refine ⟨cmds ++ [s.command], ?_, ?_⟩
    · rw [hnext, hexec, List.append_assoc]
    · rw [← hkept.image_eq hk] at hst
      rw [FileStore.run, List.foldl_append]
      exact hdid.represents hkept.housed hst

theorem filed_run (hset : k₀.Settled) (hhoused : k₀.Housed G) (hst : k₀.rd.image.Represents st)
    (hrun : Trace KernelStep k₀ tr k) (hclear : k.Clear G) : Filed st k₀ k := by
  induction hrun with
  | start => exact ⟨[], (List.append_nil _).symm, hst⟩
  | next hrun hs ih =>
    have hset' := settled_run hset hrun
    have hgrows := step_slabGrows hset' (run_slabGrows hset hhoused.slab hrun).slab hs
    have hclear' := hgrows.clear hclear
    have hguards := run_guards hset hhoused hrun hclear'
    exact (ih hclear').step hguards.housed (step_stepped hset' hguards.housed hclear hs)

/-- **Files.**  At the end of a run the disk is the store that the lines typed make of it. -/
theorem files_run (hset : k₀.Settled) (hptr : k₀.shell.commandBufferPtr = 0)
    (hhoused : k₀.Housed G) (hst : k₀.rd.image.Represents st) (hrun : Trace KernelStep k₀ tr k)
    (hclear : k.Clear G) :
    k.rd.image.Represents (st.run ((lines newline (typed tr)).map tokenize)) := by
  obtain ⟨cmds, hexec, hrep⟩ := filed_run hset hhoused hst hrun hclear
  have htyped := (taking_run hset hptr hrun).typed.executed
  rwa [List.append_cancel_left (hexec.symm.trans htyped)] at hrep

end Kernel

end KoizOs
