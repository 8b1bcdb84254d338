import KoizOs.Io.Fifo
import KoizOs.Lib.Lines
import KoizOs.Shell.Tokens

/-!
# Typing

Characters reach the shell through the standard input, in any portions: keys go into the
stream buffer and each `shell_update` takes out what has arrived.  What the shell makes of
them depends on the characters alone: it calls the meaning of each complete line, and
`command_buffer` begins with the line that is not complete (`Typed`).
-/

namespace KoizOs

open Function Lib

def newline : UInt8 := 0x0A

/-- What `start` has become when it has taken the characters `ys`. -/
structure Typed (start sh : Shell) (ys : List UInt8) : Prop where
  executed : sh.executed = start.executed ++ (lines newline ys).map tokenize
  ptr : sh.commandBufferPtr = (lastLine newline ys).length
  chars : ∀ j (h : j < (lastLine newline ys).length),
    sh.commandBuffer j = (lastLine newline ys)[j]
  no_nul : 0 ∉ lastLine newline ys

/-- The lines fit into `command_buffer`, and those that are called into `c_argv`. -/
structure Fits (zs : List UInt8) : Prop where
  length : ∀ l ∈ zs.splitOn newline, l.length < commandBufferSize
  args : ∀ l ∈ lines newline zs, (tokenize l).argc ≤ shellMaxArgs

/-- The lines that are called have places for their words in `c_argv`. -/
def ArgsFit (zs : List UInt8) : Prop := ∀ l ∈ lines newline zs, (tokenize l).argc ≤ shellMaxArgs

instance (zs : List UInt8) : Decidable (ArgsFit zs) :=
  inferInstanceAs (Decidable (∀ l ∈ lines newline zs, (tokenize l).argc ≤ shellMaxArgs))

/-- No character arrives when `command_buffer` is full of the line it is part of.  What comes
after a line of too many words is left out of account. -/
def Bounded (zs : List UInt8) : Prop :=
  ∀ ys c, ys ++ [c] <+: zs → ArgsFit ys → (lastLine newline ys).length < commandBufferSize

variable {start sh : Shell} {xs ys zs : List UInt8} {c : UInt8}
  {shellCmd : Command → Buffer → Buffer}

/-- What fits, fits while it is being typed. -/
theorem Fits.of_append (h : Fits (xs ++ ys)) : Fits xs where
  length l hl := by
    rw [← lines_append_lastLine, List.mem_append, List.mem_singleton] at hl
    rcases hl with hl | rfl
    · apply h.length
      rw [← lines_append_lastLine]
      exact List.mem_append_left _ ((lines_mono newline xs ys).subset hl)
    · obtain ⟨l, hl, hpre⟩ := lastLine_extends newline xs ys
      exact Nat.lt_of_le_of_lt hpre.length_le (h.length l hl)
  args l hl := h.args l ((lines_mono newline xs ys).subset hl)

theorem Fits.lastLine_lt (h : Fits xs) : (lastLine newline xs).length < commandBufferSize := by
  apply h.length
  rw [← lines_append_lastLine]
  simp

theorem Fits.bounded (h : Fits zs) : Bounded zs := by
  rintro ys c ⟨ws, rfl⟩ -
  exact h.of_append.of_append.lastLine_lt

theorem ArgsFit.of_append (h : ArgsFit (xs ++ ys)) : ArgsFit xs :=
  fun l hl => h l ((lines_mono newline xs ys).subset hl)

theorem argsFit_concat_of_ne (hne : c ≠ newline) : ArgsFit (ys ++ [c]) ↔ ArgsFit ys := by
  rw [ArgsFit, lines_concat_of_ne hne]
  rfl

theorem argsFit_concat_newline : ArgsFit (ys ++ [newline]) ↔
    ArgsFit ys ∧ (tokenize (lastLine newline ys)).argc ≤ shellMaxArgs := by
  rw [ArgsFit, lines_concat_self, List.forall_mem_append, List.forall_mem_singleton]
  rfl

theorem bounded_nil : Bounded [] := by
  intro ys c hpre
  simp at hpre

theorem Bounded.concat (h : Bounded ys) (hlt : (lastLine newline ys).length < commandBufferSize)
    (c : UInt8) : Bounded (ys ++ [c]) := by
  intro zs d hpre hargs
  rcases List.prefix_concat_iff.mp hpre with heq | hpre
  · rw [(List.append_inj' heq rfl).1]
    exact hlt
  · exact h zs d hpre hargs

/-- The line that is not complete fits `command_buffer`, if only just. -/
theorem Bounded.lastLine_le (h : Bounded ys) (hargs : ArgsFit ys) :
    (lastLine newline ys).length ≤ commandBufferSize := by
  rcases List.eq_nil_or_concat' ys with rfl | ⟨zs, c, rfl⟩
  · exact Nat.zero_le _
  · have hlt := h zs c (List.prefix_refl _) hargs.of_append
    by_cases hc : c = newline
    · subst hc
      rw [lastLine_concat_self]
      exact Nat.zero_le _
    · rw [lastLine_concat_of_ne hc, List.length_append]
      exact hlt

/-- Behind a line of too many words nothing more is asked. -/
theorem Bounded.append (h : Bounded ys) (hargs : ¬ ArgsFit ys) (xs : List UInt8) :
    Bounded (ys ++ xs) := by
  intro zs d hpre hzs
  rcases List.prefix_or_prefix_of_prefix hpre (List.prefix_append ys xs) with hin | hout
  · exact h zs d hin hzs
  · rcases List.prefix_concat_iff.mp hout with rfl | ⟨rest, rfl⟩
    · exact h zs d (List.prefix_refl _) hzs
    · exact absurd hzs.of_append hargs

/-! ## Characters -/

namespace Typed

theorem start_nil (hptr : start.commandBufferPtr = 0) : Typed start start [] where
  executed := by simp [lines_nil]
  ptr := hptr
  chars j h := absurd h (Nat.not_lt_zero j)
  no_nul := List.not_mem_nil

/-- A store behind the last line. -/
theorem store (h : Typed start sh ys) (hlt : (lastLine newline ys).length < commandBufferSize)
    (c : UInt8) :
    sh.store c = .ok { sh with
      commandBuffer := update sh.commandBuffer (lastLine newline ys).length c
      commandBufferPtr := (lastLine newline ys).length + 1 } := by
  unfold Shell.store
  rw [h.ptr, if_pos hlt]

theorem char_other (h : Typed start sh ys)
    (hlt : (lastLine newline ys).length < commandBufferSize) (hc : c ≠ 0) (hne : c ≠ newline) :
    ∃ sh', shellChar shellCmd c sh = .ok sh' ∧ Typed start sh' (ys ++ [c]) := by
  refine ⟨_, (if_neg hne).trans (h.store hlt c), ?_, ?_, ?_, ?_⟩
  · rw [lines_concat_of_ne hne]
    exact h.executed
  · rw [lastLine_concat_of_ne hne, List.length_append, List.length_singleton]
  · intro j hj
    simp only [lastLine_concat_of_ne hne] at hj ⊢
    rw [List.length_append, List.length_singleton] at hj
    by_cases hlast : j = (lastLine newline ys).length
    · subst hlast
      rw [update_self, List.getElem_concat_length rfl]
    · rw [update_of_ne hlast, List.getElem_append_left (by omega)]
      exact h.chars j (by omega)
  · rw [lastLine_concat_of_ne hne, List.mem_append, List.mem_singleton, not_or]
    exact ⟨h.no_nul, Ne.symm hc⟩

/-- The line that a newline completes. -/
theorem line (h : Typed start sh ys) :
    StringIn (update sh.commandBuffer (lastLine newline ys).length 0) 0 (lastLine newline ys) where
  chars j hj := by
    rw [Nat.zero_add, update_of_ne (by omega)]
    exact h.chars j hj
  nul := by rw [Nat.zero_add, update_self]
  no_nul := h.no_nul

/-- The newline is stored as a NUL, and the line is called. -/
theorem char_newline_eq (h : Typed start sh ys)
    (hlt : (lastLine newline ys).length < commandBufferSize) :
    shellChar shellCmd newline sh = shellExecuteCommand shellCmd { sh with
      commandBuffer := update sh.commandBuffer (lastLine newline ys).length 0
      commandBufferPtr := (lastLine newline ys).length + 1 } := by
  unfold shellChar
  rw [if_pos (show newline = 0x0A from rfl), h.store hlt]
  rfl

theorem char_newline (h : Typed start sh ys)
    (hlt : (lastLine newline ys).length < commandBufferSize)
    (hargs : (tokenize (lastLine newline ys)).argc ≤ shellMaxArgs) :
    ∃ sh', shellChar shellCmd newline sh = .ok sh' ∧ Typed start sh' (ys ++ [newline]) := by
  rw [h.char_newline_eq hlt]
  obtain ⟨sh', hok, hptr, hexec⟩ := @shellExecuteCommand_spec (lastLine newline ys) { sh with
      commandBuffer := update sh.commandBuffer (lastLine newline ys).length 0
      commandBufferPtr := (lastLine newline ys).length + 1 } shellCmd h.line hlt hargs
  refine ⟨sh', hok, ?_, ?_, ?_, ?_⟩
  · rw [hexec, lines_concat_self, List.map_append, ← List.append_assoc, ← h.executed]
    rfl
  · rw [lastLine_concat_self]
    exact hptr
  · intro j hj
    simp only [lastLine_concat_self] at hj
    exact absurd hj (Nat.not_lt_zero j)
  · rw [lastLine_concat_self]
    exact List.not_mem_nil

/-- **One character** is taken as the next one of the stream, unless `command_buffer` is full
or the line it completes has too many words. -/
theorem char_cases (h : Typed start sh ys) (hargs : ArgsFit ys) (hc : c ≠ 0) :
    (¬ (lastLine newline ys).length < commandBufferSize ∧
      shellChar shellCmd c sh = .error (.commandBuffer (lastLine newline ys).length)) ∨
    ((lastLine newline ys).length < commandBufferSize ∧
      if ArgsFit (ys ++ [c]) then
        ∃ sh', shellChar shellCmd c sh = .ok sh' ∧ Typed start sh' (ys ++ [c])
      else shellChar shellCmd c sh = .error (.cArgv shellMaxArgs)) := by
  by_cases hlt : (lastLine newline ys).length < commandBufferSize
  · refine .inr ⟨hlt, ?_⟩
    by_cases hne : c = newline
    · subst hne
      by_cases hfew : (tokenize (lastLine newline ys)).argc ≤ shellMaxArgs
      · rw [if_pos (argsFit_concat_newline.mpr ⟨hargs, hfew⟩)]
        exact h.char_newline hlt hfew
      · rw [if_neg fun hall => hfew (argsFit_concat_newline.mp hall).2, h.char_newline_eq hlt]
        exact @shellExecuteCommand_overflow (lastLine newline ys) { sh with
          commandBuffer := update sh.commandBuffer (lastLine newline ys).length 0
          commandBufferPtr := (lastLine newline ys).length + 1 } shellCmd h.line hlt
          (Nat.not_le.mp hfew)
    · rw [if_pos ((argsFit_concat_of_ne hne).mpr hargs)]
      exact h.char_other hlt hc hne
  · refine .inl ⟨hlt, ?_⟩
    have hstore : ∀ d, sh.store d = .error (.commandBuffer (lastLine newline ys).length) := by
      intro d
      unfold Shell.store
      rw [h.ptr, if_neg hlt]
    unfold shellChar
    rw [hstore, hstore]
    split <;> rfl

end Typed

/-! ## Portions -/

section Input

variable {σ : Type} {pmemAlloc : σ → Kern (UInt32 × σ)} {io : Io σ}

theorem shellUpdateLoop_nil (hio : Stores io []) (n : Nat) (sh : Shell) :
    shellUpdateLoop shellCmd true (n + 1) io sh = .ok (io, sh) := by
  have hpop : stdlibPopStdioInputChar true io = (0, io) := by
    unfold stdlibPopStdioInputChar
    rw [hio.pop_nil]
    split <;> rfl
  unfold shellUpdateLoop
  rw [hpop]
  rfl

/-- A round of the loop takes the first character that is stored. -/
theorem shellUpdateLoop_cons (hio : Stores io (c :: xs)) : ∃ io₁, Stores io₁ xs ∧
    io₁.inBuff.autoflushToScreen = io.inBuff.autoflushToScreen ∧
    io₁.inBuff.isInit = io.inBuff.isInit ∧ io₁.pmem = io.pmem ∧ c ≠ 0 ∧
    ∀ n sh, shellUpdateLoop shellCmd true (n + 1) io sh =
      shellChar shellCmd c sh >>= fun sh => shellUpdateLoop shellCmd true n io₁ sh := by
  have hinit := hio.isInit_of_mem List.mem_cons_self
  obtain ⟨io₁, hpop, hio₁, -, hpmem, hbuff⟩ := hio.pop
  have hc : c ≠ 0 := by
    rintro rfl
    exact hio.no_nul List.mem_cons_self
  have hpop : stdlibPopStdioInputChar true io = (c, io₁) := by
    unfold stdlibPopStdioInputChar
    rw [hinit]
    exact hpop
  refine ⟨io₁, hio₁, by rw [hbuff], by rw [hbuff], hpmem, hc, ?_⟩
  intro n sh
  rw [shellUpdateLoop, hpop]
  exact if_pos hc

/-- What has arrived is taken, unless it does not fit; and then it is `command_buffer` or
`c_argv` that overflows first. -/
theorem shellUpdateLoop_cases {n : Nat} (hio : Stores io xs) (h : Typed start sh ys)
    (hargs : ArgsFit ys) (hb : Bounded ys) (hn : xs.length < n) :
    (¬ Bounded (ys ++ xs) ∧
      shellUpdateLoop shellCmd true n io sh = .error (.commandBuffer commandBufferSize)) ∨
    (Bounded (ys ++ xs) ∧
      if ArgsFit (ys ++ xs) then
        ∃ io' sh', shellUpdateLoop shellCmd true n io sh = .ok (io', sh') ∧ Stores io' [] ∧
          io'.inBuff.autoflushToScreen = io.inBuff.autoflushToScreen ∧
          io'.inBuff.isInit = io.inBuff.isInit ∧ io'.pmem = io.pmem ∧
          Typed start sh' (ys ++ xs)
      else shellUpdateLoop shellCmd true n io sh = .error (.cArgv shellMaxArgs)) := by
  induction xs generalizing n io sh ys with
  | nil =>
    obtain ⟨n, rfl⟩ : ∃ k, n = k + 1 := ⟨n - 1, by rw [List.length_nil] at hn; omega⟩
    rw [List.append_nil]
    exact .inr ⟨hb, (if_pos hargs).mpr
      ⟨io, sh, shellUpdateLoop_nil hio n sh, hio, rfl, rfl, rfl, h⟩⟩
  | cons c xs ih =>
    rw [List.length_cons] at hn
    obtain ⟨n, rfl⟩ : ∃ k, n = k + 1 := ⟨n - 1, by omega⟩
    obtain ⟨io₁, hio₁, hauto, hinit, hpmem, hc, hloop⟩ := shellUpdateLoop_cons hio
    rw [hloop, List.append_cons]
    rcases h.char_cases hargs hc with ⟨hge, hchar⟩ | ⟨hlt, hchar⟩
    · left
      rw [hchar, Nat.le_antisymm (hb.lastLine_le hargs) (Nat.not_lt.mp hge)]
      exact ⟨fun hall => hge (hall ys c (List.prefix_append _ _) hargs), rfl⟩
    · have hb' := hb.concat hlt c
      split at hchar
      · next hargs' =>
        obtain ⟨sh₁, hchar, h₁⟩ := hchar
        have hrest := ih hio₁ h₁ hargs' hb' (Nat.lt_of_succ_lt_succ hn)
        rw [hauto, hinit, hpmem] at hrest
        rw [hchar]
        exact hrest
      · next hargs' =>
        right
        rw [hchar, if_neg fun hall => hargs' hall.of_append]
        exact ⟨hb'.append hargs' xs, rfl⟩

/-! ## Runs -/

structure ShellSys (σ : Type) where
  /-- the standard input -/
  io : Io σ
  shell : Shell

inductive ShellOp where
  | key (c : UInt8)
  | update

/-- A key that arrives, or a call of `shell_update`, once the memory is set up.  A key on which
`stdlib_put_stdio_input_char` panics is no step. -/
inductive ShellStep (pmemAlloc : σ → Kern (UInt32 × σ)) (shellCmd : Command → Buffer → Buffer) :
    ShellSys σ → ShellOp → ShellSys σ → Prop
  | key {io io' : Io σ} {sh : Shell} {c : UInt8} :
      c ≠ 0 → stdlibPutStdioInputChar pmemAlloc true false c io = .ok io' →
      ShellStep pmemAlloc shellCmd ⟨io, sh⟩ (.key c) ⟨io', sh⟩
  | update {io io' : Io σ} {sh sh' : Shell} :
      shellUpdate shellCmd true io sh = .ok (io', sh') →
      ShellStep pmemAlloc shellCmd ⟨io, sh⟩ .update ⟨io', sh'⟩

def ShellOp.char : ShellOp → Option UInt8
  | .key c => some c
  | .update => none

/-- The characters that arrived during a run. -/
def keys (tr : List (ShellSys σ × ShellOp)) : List UInt8 := tr.filterMap fun e => e.2.char

theorem keys_key (tr : List (ShellSys σ × ShellOp)) (x : ShellSys σ) (c : UInt8) :
    keys (tr ++ [(x, .key c)]) = keys tr ++ [c] := by
  simp [keys, ShellOp.char]

theorem keys_update (tr : List (ShellSys σ × ShellOp)) (x : ShellSys σ) :
    keys (tr ++ [(x, .update)]) = keys tr := by
  simp [keys, ShellOp.char]

/-- The shell has taken a part of what arrived, and the standard input stores the rest. -/
theorem shell_run {m : Mem} {s : σ} {tr : List (ShellSys σ × ShellOp)} {x : ShellSys σ}
    (hptr : start.commandBufferPtr = 0)
    (hrun : Trace (ShellStep pmemAlloc shellCmd) ⟨Io.boot false m s, start⟩ tr x) :
    ∃ ys xs, keys tr = ys ++ xs ∧ Stores x.io xs ∧ x.io.inBuff.autoflushToScreen = false ∧
      Typed start x.shell ys ∧ ArgsFit ys ∧ Bounded ys := by
  induction hrun with
  | start =>
    refine ⟨[], [], rfl, boot_stores false m s, rfl, .start_nil hptr, ?_, bounded_nil⟩
    intro l hl
    rw [lines_nil] at hl
    exact absurd hl List.not_mem_nil
  | @next tr x y op _ hs ih =>
    obtain ⟨ys, xs, heq, hio, hauto, htyped, hargs, hb⟩ := ih
    cases hs with
    | @key io io' sh c hc hput =>
      have hplace : ioBufferPlace pmemAlloc (msgStr c) io = .ok io' := hput
      obtain ⟨hio', -, hauto'⟩ := hio.place_behind hauto hplace
      rw [msgStr_chars hc] at hio'
      refine ⟨ys, xs ++ [c], ?_, hio', hauto', htyped, hargs, hb⟩
      rw [keys_key, heq, List.append_assoc]
    | @update io io' sh sh' hupdate =>
      -- a call that returned has taken all that was stored
      rcases @shellUpdateLoop_cases start sh xs ys shellCmd _ io _ hio htyped hargs hb
        (Nat.lt_succ_of_le hio.length_le) with ⟨-, herror⟩ | ⟨hb', hrest⟩
      · cases hupdate.symm.trans herror
      · split at hrest
        · next hargs' =>
          obtain ⟨io₁, sh₁, hok, hio₁, hauto₁, -, -, htyped₁⟩ := hrest
          obtain ⟨rfl, rfl⟩ := Prod.mk.inj (Except.ok.inj (hupdate.symm.trans hok))
          refine ⟨ys ++ xs, [], ?_, hio₁, hauto₁.trans hauto, htyped₁, hargs', hb'⟩
          rw [keys_update, heq, List.append_nil]
        · cases hupdate.symm.trans hrest

/-- The call of `shell_update` that ends a run takes the rest of what has arrived. -/
theorem shellUpdate_cases {m : Mem} {s : σ} {tr : List (ShellSys σ × ShellOp)} {x : ShellSys σ}
    (hptr : start.commandBufferPtr = 0)
    (hrun : Trace (ShellStep pmemAlloc shellCmd) ⟨Io.boot false m s, start⟩ tr x) :
    (¬ Bounded (keys tr) ∧
      shellUpdate shellCmd true x.io x.shell = .error (.commandBuffer commandBufferSize)) ∨
    (Bounded (keys tr) ∧
      if ArgsFit (keys tr) then
        ∃ io' sh', shellUpdate shellCmd true x.io x.shell = .ok (io', sh') ∧
          Typed start sh' (keys tr)
      else shellUpdate shellCmd true x.io x.shell = .error (.cArgv shellMaxArgs)) := by
  obtain ⟨ys, xs, heq, hio, -, htyped, hargs, hb⟩ := shell_run hptr hrun
  rw [heq]
  rcases @shellUpdateLoop_cases start x.shell xs ys shellCmd _ x.io _ hio htyped hargs hb
    (Nat.lt_succ_of_le hio.length_le) with hover | ⟨hb', hrest⟩
  · exact .inl hover
  · refine .inr ⟨hb', ?_⟩
    split at hrest
    · next hargs' =>
      obtain ⟨io', sh', hok, -, -, -, -, htyped'⟩ := hrest
      exact (if_pos hargs').mpr ⟨io', sh', hok, htyped'⟩
    · next hargs' => exact (if_neg hargs').mpr hrest

/-- **Lines.**  However the characters arrived among the calls of `shell_update`, and
whatever the buffers held before: once the last of them are taken, the lines have been
called one after the other, and the last one, not complete, begins `command_buffer`. -/
theorem shell_lines {m : Mem} {s : σ} {tr : List (ShellSys σ × ShellOp)} {x : ShellSys σ}
    (hptr : start.commandBufferPtr = 0)
    (hrun : Trace (ShellStep pmemAlloc shellCmd) ⟨Io.boot false m s, start⟩ tr x)
    (hlen : ∀ l ∈ (keys tr).splitOn newline, l.length ≤ 1023)
    (hargs : ∀ l ∈ lines newline (keys tr), (tokenize l).argc ≤ 50) :
    ∃ io' sh', shellUpdate shellCmd true x.io x.shell = .ok (io', sh') ∧
      sh'.executed = start.executed ++ (lines newline (keys tr)).map tokenize ∧
      sh'.commandBufferPtr = (lastLine newline (keys tr)).length ∧
      ∀ j (h : j < (lastLine newline (keys tr)).length),
        sh'.commandBuffer j = (lastLine newline (keys tr))[j] := by
  have hfits : Fits (keys tr) := ⟨fun l hl => Nat.lt_succ_of_le (hlen l hl), hargs⟩
  rcases shellUpdate_cases hptr hrun with ⟨hover, -⟩ | ⟨-, hrest⟩
  · exact absurd hfits.bounded hover
  · obtain ⟨io', sh', hok, htyped⟩ := (if_pos (show ArgsFit _ from hfits.args)).mp hrest
    exact ⟨io', sh', hok, htyped.executed, htyped.ptr, htyped.chars⟩

/-- A shell with a long command behind it. -/
def usedShell : Shell where
  commandBuffer := fun _ => 0x7A
  workingBuffer := fun _ => 0x7A
  commandBufferPtr := 0
  executed := [⟨1, [[0x7A, 0x7A, 0x7A]]⟩]

/-- `a b`, with a call of `shell_update` behind the space, and a `c` on the next line. -/
theorem shell_lines_two : ∃ tr x, Trace (ShellStep pagesUpward fun _ b => b)
      ⟨Io.boot false (fun _ => 0) 1, usedShell⟩ tr x ∧
    keys tr = [0x61, 0x20, 0x62, newline, 0x63] ∧
    ∃ io' sh', shellUpdate (fun _ b => b) true x.io x.shell = .ok (io', sh') ∧
      sh'.executed = [⟨1, [[0x7A, 0x7A, 0x7A]]⟩, ⟨2, [[0x61], [0x62]]⟩] ∧
      sh'.commandBufferPtr = 1 := by
  have h₀ : Trace (ShellStep pagesUpward fun _ b => b)
    ⟨Io.boot false (fun _ => 0) 1, usedShell⟩ [] _ := .start
  have h₁ := h₀.next (.key (c := 0x61) (by decide) rfl)
  have h₂ := h₁.next (.key (c := 0x20) (by decide) rfl)
  have h₃ := h₂.next (.update rfl)
  have h₄ := h₃.next (.key (c := 0x62) (by decide) rfl)
  have h₅ := h₄.next (.key (c := newline) (by decide) rfl)
  have h₆ := h₅.next (.key (c := 0x63) (by decide) rfl)
  obtain ⟨io', sh', hok, hexec, hptr, -⟩ := shell_lines rfl h₆ (by decide) (by decide)
  exact ⟨_, _, h₆, rfl, io', sh', hok, hexec, hptr⟩

end Input

end KoizOs
