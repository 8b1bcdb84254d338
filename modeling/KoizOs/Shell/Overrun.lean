import KoizOs.Shell.Portions

/-!
# Typing past the end

`shell_update` does not compare `command_buffer_ptr` with `COMMAND_BUFFER_SIZE`; the index
goes back to zero only when a newline has called a line.

    StaysInside at the end of a run  ↔  Bounded (what was typed during the run)

`Bounded` is about the characters alone, so how they were split among the calls does not
matter.
-/

namespace KoizOs

open Lib

section Overrun

variable {σ : Type} {pmemAlloc : σ → Kern (UInt32 × σ)} {shellCmd : Command → Buffer → Buffer}
  {start : Shell} {cs : List UInt8}

/-- The next call of `shell_update` stores nothing outside of `command_buffer`. -/
def StaysInside (shellCmd : Command → Buffer → Buffer) (x : ShellSys σ) : Prop :=
  ∀ i, shellUpdate shellCmd true x.io x.shell ≠ .error (.commandBuffer i)

/-- **The command buffer.**  After any run, in which every store stayed inside because every
call returned: those of the next call do so too exactly when no character was typed behind
1024 others of its line. -/
theorem shell_staysInside_iff {m : Mem} {s : σ} {tr : List (ShellSys σ × ShellOp)}
    {x : ShellSys σ} (hptr : start.commandBufferPtr = 0)
    (hrun : Trace (ShellStep pmemAlloc shellCmd) ⟨Io.boot false m s, start⟩ tr x) :
    StaysInside shellCmd x ↔ Bounded (keys tr) := by
  rcases shellUpdate_cases hptr hrun with ⟨hover, herror⟩ | ⟨hb, hrest⟩
  · exact iff_of_false (fun hin => hin _ herror) hover
  · refine iff_of_true ?_ hb
    intro i herror
    split at hrest
    · obtain ⟨io', sh', hok, -⟩ := hrest
      cases herror.symm.trans hok
    · cases herror.symm.trans hrest

/-! ## Keys without a pause -/

/-- A line with no end in sight. -/
theorem not_bounded (hnl : newline ∉ cs) (hlen : commandBufferSize < cs.length) : ¬ Bounded cs := by
  rcases List.eq_nil_or_concat' cs with rfl | ⟨ys, c, rfl⟩
  · exact absurd hlen (Nat.not_lt_zero _)
  · rw [List.mem_append, not_or] at hnl
    rw [List.length_append] at hlen
    obtain ⟨hlines, hlast⟩ := split_of_not_mem hnl.1
    intro h
    have hlt := h ys c (List.prefix_refl _) (by simp [ArgsFit, hlines])
    rw [hlast] at hlt
    exact absurd hlen (Nat.not_lt.mpr hlt)

end Overrun

/-- Keys that fit into the stream buffer, with no call among them. -/
theorem keys_ahead {cs : List UInt8} (hnul : 0 ∉ cs) (hlen : cs.length ≤ 4095) :
    ∃ tr x, Trace (ShellStep pagesUpward fun _ b => b)
      ⟨Io.boot false (fun _ => 0) 1, usedShell⟩ tr x ∧ keys tr = cs := by
  obtain ⟨tr, io, hrun, hops, -⟩ := @typed_ahead _ pagesUpward (fun _ b => b) cs [] []
    ⟨Io.boot false (fun _ => 0) 1, usedShell⟩ _ _ .start (boot_stores false _ _) rfl
    (.inr ⟨_, _, rfl⟩) hnul (by rw [List.length_nil, Nat.zero_add]; exact hlen)
  refine ⟨tr, _, hrun, ?_⟩
  rw [keys_eq_filterMap, hops]
  exact filterMap_char_keys cs

/-- `a b`, a newline and a `c`, typed ahead. -/
theorem shell_staysInside_two : ∃ tr x, Trace (ShellStep pagesUpward fun _ b => b)
      ⟨Io.boot false (fun _ => 0) 1, usedShell⟩ tr x ∧
    keys tr = [0x61, 0x20, 0x62, newline, 0x63] ∧ StaysInside (fun _ b => b) x := by
  obtain ⟨tr, x, hrun, hkeys⟩ := @keys_ahead [0x61, 0x20, 0x62, newline, 0x63] (by decide)
    (by decide)
  have hfits : Fits (keys tr) := by
    rw [hkeys]
    exact ⟨by decide, by decide⟩
  exact ⟨tr, _, hrun, hkeys, (shell_staysInside_iff rfl hrun).mpr hfits.bounded⟩

/-- 1025 letters and no newline: the last one is stored behind the buffer. -/
theorem shell_overrun : ∃ tr x, Trace (ShellStep pagesUpward fun _ b => b)
      ⟨Io.boot false (fun _ => 0) 1, usedShell⟩ tr x ∧
    keys tr = List.replicate 1025 0x61 ∧
    shellUpdate (fun _ b => b) true x.io x.shell = .error (.commandBuffer 1024) ∧
    ¬ StaysInside (fun _ b => b) x := by
  have hnone : ∀ c : UInt8, c ≠ 0x61 → c ∉ List.replicate 1025 0x61 :=
    fun c hc hmem => hc (List.eq_of_mem_replicate hmem)
  have hlen : (List.replicate 1025 (0x61 : UInt8)).length = 1025 := List.length_replicate
  obtain ⟨tr, x, hrun, hkeys⟩ := keys_ahead (hnone 0 (by decide)) (hlen.trans_le (by decide))
  have hover : ¬ Bounded (keys tr) := by
    rw [hkeys]
    exact not_bounded (hnone newline (by decide)) (Nat.lt_of_lt_of_eq (by decide) hlen.symm)
  rcases shellUpdate_cases rfl hrun with ⟨-, herror⟩ | ⟨hb, -⟩
  · exact ⟨tr, _, hrun, hkeys, herror, fun hin => hin _ herror⟩
  · exact absurd hb hover

end KoizOs
