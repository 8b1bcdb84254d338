import KoizOs.Shell.Input

/-!
# What may be typed between two calls

The stream buffer of the standard input keeps up to 4095 characters and is not flushed.  So the
ways of splitting a stream that are runs are those in which no more than 4095 characters wait
for a call of `shell_update`.

| result | content |
|--------|---------|
| `shell_portions` | portions of up to 4095 characters, each followed by a call, are a run |
| `keys_ahead_le` | before the first call no more than 4095 are typed |
| `shell_lines_burst` | 4096 newlines before the first call end in a panic |
-/

namespace KoizOs

open Lib

/-- A portion of keys, and the call behind it. -/
def portion (cs : List UInt8) : List ShellOp := cs.map .key ++ [.update]

section Portions

variable {σ : Type} {pmemAlloc : σ → Kern (UInt32 × σ)} {shellCmd : Command → Buffer → Buffer}
  {start : Shell} {cs ws : List UInt8} {tr : List (ShellSys σ × ShellOp)} {m : Mem} {s : σ}

/-- The characters that arrived, in the order of the operations. -/
theorem keys_eq_filterMap (tr : List (ShellSys σ × ShellOp)) :
    keys tr = (tr.map Prod.snd).filterMap ShellOp.char := by
  rw [List.filterMap_map]
  rfl

theorem filterMap_char_keys (cs : List UInt8) :
    (cs.map ShellOp.key).filterMap ShellOp.char = cs := by
  rw [List.filterMap_map]
  exact List.filterMap_some

/-! ## Up to 4095 -/

/-- Whatever fits beside what is stored may be typed before the shell is called. -/
theorem typed_ahead {x₀ : ShellSys σ} {io : Io σ} {sh : Shell}
    (hrun : Trace (ShellStep pmemAlloc shellCmd) x₀ tr ⟨io, sh⟩) (hio : Stores io ws)
    (hauto : io.inBuff.autoflushToScreen = false) (hcan : io.CanStart pmemAlloc)
    (hnul : 0 ∉ cs) (hlen : ws.length + cs.length ≤ 4095) :
    ∃ tr' io', Trace (ShellStep pmemAlloc shellCmd) x₀ tr' ⟨io', sh⟩ ∧
      tr'.map Prod.snd = tr.map Prod.snd ++ cs.map .key ∧ Stores io' (ws ++ cs) ∧
      io'.inBuff.autoflushToScreen = false ∧ io'.CanStart pmemAlloc := by
  induction cs using List.reverseRecOn with
  | nil => exact ⟨tr, io, hrun, by simp, by rw [List.append_nil]; exact hio, hauto, hcan⟩
  | append_singleton cs c ih =>
    rw [List.mem_append, List.mem_singleton, not_or] at hnul
    rw [List.length_append, ← Nat.add_assoc] at hlen
    have hc : c ≠ 0 := Ne.symm hnul.2
    obtain ⟨tr', io', hrun', hops, hio', hauto', hcan'⟩ := ih hnul.1 (Nat.le_of_add_right_le hlen)
    have hplace := hio'.place_plain hcan' hauto' (msgStr c)
    rw [msgStr_chars hc, if_pos (by rw [List.length_append]; exact hlen)] at hplace
    obtain ⟨io'', hput, hio'', -, hauto''⟩ := hplace
    rw [List.append_assoc] at hio''
    refine ⟨_, io'', hrun'.next (.key hc hput), ?_, hio'', hauto'', ?_⟩
    · rw [List.map_append, hops, List.map_append, List.append_assoc]
      rfl
    · exact .inl (hio''.isInit_of_mem
        (List.mem_append_right _ (List.mem_append_right _ List.mem_cons_self)))

/-- **Portions.**  A stream that fits may be typed in portions of up to 4095 characters. -/
theorem shell_portions {ps : List (List UInt8)} (hptr : start.commandBufferPtr = 0)
    (hstart : (Io.boot false m s).CanStart pmemAlloc) (hnul : 0 ∉ ps.flatten)
    (hwait : ∀ p ∈ ps, p.length ≤ 4095) (hfits : Fits ps.flatten) :
    ∃ tr x, Trace (ShellStep pmemAlloc shellCmd) ⟨Io.boot false m s, start⟩ tr x ∧
      tr.map Prod.snd = ps.flatMap portion ∧ Stores x.io [] ∧
      x.io.inBuff.autoflushToScreen = false ∧ x.io.CanStart pmemAlloc ∧
      Typed start x.shell ps.flatten := by
  induction ps using List.reverseRecOn with
  | nil => exact ⟨[], _, .start, rfl, boot_stores false m s, rfl, hstart, .start_nil hptr⟩
  | append_singleton ps p ih =>
    rw [List.flatten_append, List.flatten_singleton] at hnul hfits ⊢
    rw [List.mem_append, not_or] at hnul
    rw [List.forall_mem_append, List.forall_mem_singleton] at hwait
    obtain ⟨tr, ⟨io, sh⟩, hrun, hops, hio, hauto, hcan, htyped⟩ :=
      ih hnul.1 hwait.1 hfits.of_append
    obtain ⟨tr', io', hrun', hops', hio', hauto', hcan'⟩ :=
      typed_ahead hrun hio hauto hcan hnul.2 (by rw [List.length_nil, Nat.zero_add]; exact hwait.2)
    -- the call takes the portion
    rcases @shellUpdateLoop_cases start sh p ps.flatten shellCmd _ io' _ hio' htyped
      hfits.of_append.args hfits.of_append.bounded (Nat.lt_succ_of_le hio'.length_le)
      with ⟨hover, -⟩ | ⟨-, hrest⟩
    · exact absurd hfits.bounded hover
    · obtain ⟨io'', sh'', hok, hio'', hauto'', hinit, hpmem, htyped''⟩ :=
        (if_pos hfits.args).mp hrest
      refine ⟨_, ⟨io'', sh''⟩, hrun'.next (.update hok), ?_, hio'', hauto''.trans hauto', ?_,
        htyped''⟩
      · rw [List.map_append, hops', hops, List.flatMap_append, List.flatMap_singleton, portion,
          List.append_assoc]
        rfl
      · unfold Io.CanStart at hcan' ⊢
        rw [hinit, hpmem]
        exact hcan'

/-! ## And no more -/

/-- What was typed before the first call is all stored. -/
theorem stores_ahead {x : ShellSys σ}
    (hrun : Trace (ShellStep pmemAlloc shellCmd) ⟨Io.boot false m s, start⟩ tr x)
    (hops : tr.map Prod.snd = cs.map .key) :
    Stores x.io cs ∧ x.io.inBuff.autoflushToScreen = false := by
  induction hrun generalizing cs with
  | start =>
    obtain rfl := List.map_eq_nil_iff.mp hops.symm
    exact ⟨boot_stores false m s, rfl⟩
  | @next tr x y op _ hs ih =>
    rw [List.map_append, List.map_singleton] at hops
    obtain ⟨cs, cs', rfl, hbefore, hlast⟩ := List.map_eq_append_iff.mp hops.symm
    obtain ⟨c, rfl, hop⟩ := List.map_eq_singleton_iff.mp hlast
    obtain ⟨hio, hauto⟩ := ih hbefore.symm
    dsimp only at hop
    subst hop
    cases hs with
    | key hc hput =>
      obtain ⟨hio', -, hauto'⟩ := hio.place_behind hauto hput
      rw [msgStr_chars hc] at hio'
      exact ⟨hio', hauto'⟩

theorem Stores.length_lt {io : Io σ} {xs : List UInt8} (h : Stores io xs) : xs.length < 4096 := by
  cases hinit : io.inBuff.isInit with
  | true => exact (h.ring hinit).2.room
  | false =>
    rw [(h.raw hinit).1]
    exact Nat.zero_lt_succ _

theorem keys_ahead_le {x : ShellSys σ}
    (hrun : Trace (ShellStep pmemAlloc shellCmd) ⟨Io.boot false m s, start⟩ tr x)
    (hops : tr.map Prod.snd = cs.map .key) : cs.length ≤ 4095 :=
  Nat.le_of_lt_succ (stores_ahead hrun hops).1.length_lt

/-- A character that is one too many. -/
theorem put_full {io : Io σ} {c : UInt8} (hio : Stores io ws)
    (hauto : io.inBuff.autoflushToScreen = false) (hcan : io.CanStart pmemAlloc) (hc : c ≠ 0)
    (hfull : ws.length = 4095) :
    stdlibPutStdioInputChar pmemAlloc true false c io = panic ioBufferOverflow := by
  have hplace := hio.place_plain hcan hauto (msgStr c)
  rw [msgStr_chars hc, hfull, List.length_singleton, if_neg (by decide)] at hplace
  exact hplace

theorem lines_newlines (n : Nat) : lines newline (List.replicate n newline) = List.replicate n [] ∧
    lastLine newline (List.replicate n newline) = [] := by
  induction n with
  | zero => exact ⟨rfl, rfl⟩
  | succ n ih =>
    rw [List.replicate_succ', lines_concat_self, lastLine_concat_self, ih.1, ih.2,
      ← List.replicate_succ']
    exact ⟨rfl, rfl⟩

end Portions

/-- 4096 newlines and no call: their lines are empty, but the last newline panics. -/
theorem shell_lines_burst :
    (∀ l ∈ (List.replicate 4096 newline).splitOn newline, l.length ≤ 1023) ∧
    (∀ l ∈ lines newline (List.replicate 4096 newline), (tokenize l).argc ≤ 50) ∧
    (∃ tr x, Trace (ShellStep pagesUpward fun _ b => b)
        ⟨Io.boot false (fun _ => 0) 1, usedShell⟩ tr x ∧
      tr.map Prod.snd = List.replicate 4095 (.key newline) ∧
      stdlibPutStdioInputChar pagesUpward true false newline x.io = panic ioBufferOverflow) ∧
    ¬ ∃ tr x, Trace (ShellStep pagesUpward fun _ b => b)
        ⟨Io.boot false (fun _ => 0) 1, usedShell⟩ tr x ∧
      tr.map Prod.snd = List.replicate 4096 (.key newline) := by
  obtain ⟨hlines, hlast⟩ := lines_newlines 4096
  refine ⟨?_, ?_, ?_, ?_⟩
  · intro l hl
    rw [← lines_append_lastLine, hlines, hlast, ← List.replicate_succ'] at hl
    rw [List.eq_of_mem_replicate hl]
    exact Nat.zero_le _
  · intro l hl
    rw [hlines] at hl
    rw [List.eq_of_mem_replicate hl]
    decide
  · have hnul : (0 : UInt8) ∉ List.replicate 4095 newline := fun hmem =>
      absurd (List.eq_of_mem_replicate hmem) (by decide)
    have hlen : ([] : List UInt8).length + (List.replicate 4095 newline).length = 4095 := by
      rw [List.length_replicate, List.length_nil]
    obtain ⟨tr, io, hrun, hops, hio, hauto, hcan⟩ := @typed_ahead _ pagesUpward (fun _ b => b)
      (List.replicate 4095 newline) [] [] ⟨Io.boot false (fun _ => 0) 1, usedShell⟩ _ _ .start
      (boot_stores false _ _) rfl (.inr ⟨_, _, rfl⟩) hnul hlen.le
    refine ⟨tr, _, hrun, hops.trans List.map_replicate, ?_⟩
    exact put_full hio hauto hcan (by decide) ((List.length_append ..).trans hlen)
  · rintro ⟨tr, x, hrun, hops⟩
    have hle := keys_ahead_le hrun (hops.trans (List.map_replicate (f := ShellOp.key)).symm)
    rw [List.length_replicate] at hle
    exact absurd hle (by decide)

end KoizOs
