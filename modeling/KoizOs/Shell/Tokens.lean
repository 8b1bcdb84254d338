import KoizOs.Shell.Shell

/-!
# What a line means

`tokenize` is the meaning of a command line: its characters one after the other, with no
buffer.  `shellExecuteCommand_spec`: the loop in `working_buffer` computes it.

The state of the loop and of `tokens` correspond as follows (`SplitInv`):

| loop | `tokens` |
|------|----------|
| `insideDQuoteState` | `inside` |
| `newStringState` | no word has begun |
| the last pointer | the word that has begun |
| the other pointers | the words that are complete, each with its NUL |
-/

namespace KoizOs

open Function

/-- The words of a line.  A quote turns a quotation on or off and stays in the word; a
space outside of a quotation ends a word; the next word begins at the first character
that is neither.  `cur` is the word that has begun. -/
def tokens (inside : Bool) (cur : Option (List UInt8)) : List UInt8 → List (List UInt8)
  | [] => cur.toList
  | c :: cs =>
    if c = 0x27 then tokens (!inside) (cur.map (· ++ [c])) cs
    else if c = 0x20 then
      if inside then tokens inside (cur.map (· ++ [c])) cs
      else cur.toList ++ tokens inside none cs
    else tokens inside (some (cur.getD [] ++ [c])) cs

/-- The command of a line.  Its first word begins with the line. -/
def tokenize (cstr : List UInt8) : Command where
  argc := (tokens false (some []) cstr).length
  argv := tokens false (some []) cstr

example : tokens false (some []) [0x61, 0x20, 0x27, 0x62, 0x20, 0x27] =
    [[0x61], [0x62, 0x20, 0x27]] := by
  decide

/-! ## The loop -/

/-- Before character `i`: the words `ws` are complete, and `cur` has begun. -/
structure SplitInv (cstr : List UInt8) (i : Nat) (s : Split) (ws : List (List UInt8))
    (cur : Option (List UInt8)) : Prop where
  rest : ∀ j (h : j < cstr.length), i ≤ j → s.workingBuffer j = cstr[j]
  nul : s.workingBuffer cstr.length = 0
  argc : s.cArgc = (ws ++ cur.toList).length
  new : s.newStringState = cur.isNone
  word : ∀ k (h : k < ws.length),
    StringIn s.workingBuffer (s.cArgv k) ws[k] ∧ s.cArgv k + ws[k].length < i
  begun : ∀ w, cur = some w → s.cArgv ws.length + w.length = i ∧ 0 ∉ w ∧
    ∀ j (h : j < w.length), s.workingBuffer (s.cArgv ws.length + j) = w[j]

namespace SplitInv

variable {cstr : List UInt8} {i : Nat} {s : Split} {ws : List (List UInt8)}
  {cur : Option (List UInt8)}

/-- The loop starts with a word that begins with the line. -/
theorem start {wb : Buffer} (h : StringIn wb 0 cstr) :
    SplitInv cstr 0 ⟨wb, 1, fun _ => 0, false, false⟩ [] (some []) where
  rest _ hj _ := h.getElem_eq hj
  nul := by
    have hnul := h.nul
    rwa [Nat.zero_add] at hnul
  argc := rfl
  new := rfl
  word k hk := absurd hk (Nat.not_lt_zero k)
  begun w hw := by
    obtain rfl := Option.some.inj hw
    exact ⟨rfl, List.not_mem_nil, fun j hj => absurd hj (Nat.not_lt_zero j)⟩

/-- A character that does not end a word, and begins none. -/
theorem extend (h : SplitInv cstr i s ws cur) (hi : i < cstr.length) (hne : cstr[i] ≠ 0)
    (b : Bool) :
    SplitInv cstr (i + 1) { s with insideDQuoteState := b } ws (cur.map (· ++ [cstr[i]])) where
  rest j hj hij := h.rest j hj (Nat.le_of_succ_le hij)
  nul := h.nul
  argc := by
    rw [h.argc]
    cases cur <;> simp
  new := by
    rw [h.new]
    cases cur <;> simp
  word k hk := ⟨(h.word k hk).1, Nat.lt_succ_of_lt (h.word k hk).2⟩
  begun w' hw' := by
    obtain ⟨w, hw, rfl⟩ := Option.map_eq_some_iff.mp hw'
    obtain ⟨hpos, hnul, hchars⟩ := h.begun w hw
    refine ⟨?_, ?_, ?_⟩
    · rw [List.length_append, List.length_singleton]
      show s.cArgv ws.length + (w.length + 1) = i + 1
      omega
    · rw [List.mem_append, List.mem_singleton, not_or]
      exact ⟨hnul, Ne.symm hne⟩
    · intro j hj
      rw [List.length_append, List.length_singleton] at hj
      by_cases hlast : j = w.length
      · subst hlast
        rw [List.getElem_concat_length rfl]
        show s.workingBuffer (s.cArgv ws.length + w.length) = _
        rw [hpos]
        exact h.rest i hi (Nat.le_refl i)
      · rw [List.getElem_append_left (by omega)]
        exact hchars j (by omega)

/-- A NUL at `i` ends the word that has begun, and every word is a string then. -/
theorem word_ended {wb : Buffer} (h : SplitInv cstr i s ws cur) (hnul : wb i = 0)
    (hsame : ∀ j, j < i → wb j = s.workingBuffer j) {k : Nat}
    (hk : k < (ws ++ cur.toList).length) :
    StringIn wb (s.cArgv k) (ws ++ cur.toList)[k] ∧
      s.cArgv k + (ws ++ cur.toList)[k].length ≤ i := by
  by_cases hlt : k < ws.length
  · obtain ⟨hstr, hend⟩ := h.word k hlt
    rw [List.getElem_append_left hlt]
    exact ⟨hstr.congr fun j hj => hsame _ (by omega), Nat.le_of_lt hend⟩
  · cases cur with
    | none =>
      simp only [Option.toList_none, List.append_nil] at hk
      exact absurd hk hlt
    | some w =>
      simp only [Option.toList_some, List.length_append, List.length_singleton] at hk
      obtain rfl : k = ws.length := by omega
      obtain ⟨hpos, hno, hchars⟩ := h.begun w rfl
      simp only [Option.toList_some, List.getElem_concat_length rfl]
      refine ⟨⟨?_, ?_, hno⟩, by omega⟩
      · intro j hj
        rw [hsame _ (by omega)]
        exact hchars j hj
      · rw [hpos]
        exact hnul

/-- The space that ends a word, or stands between two. -/
theorem cut (h : SplitInv cstr i s ws cur) (hi : i < cstr.length) :
    SplitInv cstr (i + 1)
      { s with workingBuffer := update s.workingBuffer i 0, newStringState := true }
      (ws ++ cur.toList) none where
  rest j hj hij := (update_of_ne (by omega) _ _).trans (h.rest j hj (Nat.le_of_succ_le hij))
  nul := (update_of_ne (by omega) _ _).trans h.nul
  argc := by simpa using h.argc
  new := rfl
  word k hk := by
    obtain ⟨hstr, hend⟩ := h.word_ended (update_self i 0 s.workingBuffer)
      (fun j hj => update_of_ne (Nat.ne_of_lt hj) _ _) hk
    exact ⟨hstr, Nat.lt_succ_of_le hend⟩
  begun w hw := by cases hw

/-- The first character of a word. -/
theorem begin (h : SplitInv cstr i s ws none) (hi : i < cstr.length) (hne : cstr[i] ≠ 0) :
    SplitInv cstr (i + 1)
      { s with cArgv := update s.cArgv s.cArgc i, cArgc := s.cArgc + 1, newStringState := false }
      ws (some [cstr[i]]) where
  rest j hj hij := h.rest j hj (Nat.le_of_succ_le hij)
  nul := h.nul
  argc := by
    have := h.argc
    simp at this ⊢
    exact this
  new := rfl
  word k hk := by
    have hargc := h.argc
    simp only [Option.toList_none, List.append_nil] at hargc
    dsimp only
    rw [update_of_ne (by omega)]
    exact ⟨(h.word k hk).1, Nat.lt_succ_of_lt (h.word k hk).2⟩
  begun w hw := by
    have hargc := h.argc
    simp only [Option.toList_none, List.append_nil] at hargc
    obtain rfl := Option.some.inj hw
    dsimp only
    rw [hargc, update_self]
    refine ⟨rfl, by simpa using Ne.symm hne, ?_⟩
    intro j hj
    obtain rfl : j = 0 := by simpa using hj
    exact h.rest i hi (Nat.le_refl i)

/-- The NUL of the line ends its last word. -/
theorem command_eq (h : SplitInv cstr cstr.length s ws cur)
    (hlen : cstr.length < commandBufferSize) :
    s.command = ⟨(ws ++ cur.toList).length, ws ++ cur.toList⟩ := by
  unfold Split.command
  rw [h.argc]
  congr 1
  apply List.ext_getElem
  · rw [List.length_map, List.length_range]
  · intro k hk hk'
    obtain ⟨hstr, hend⟩ := h.word_ended h.nul (fun _ _ => rfl) hk'
    rw [List.getElem_map, List.getElem_range]
    exact hstr.stringAt_eq (by omega)

end SplitInv

/-- A word that has begun is one of the words. -/
theorem tokens_begun_length (inside : Bool) (w cs : List UInt8) :
    0 < (tokens inside (some w) cs).length := by
  induction cs generalizing inside w with
  | nil => exact Nat.zero_lt_one
  | cons c cs ih =>
    unfold tokens
    split_ifs
    · exact ih _ _
    · exact ih _ _
    · rw [List.length_append]
      exact Nat.lt_of_lt_of_le Nat.zero_lt_one (Nat.le_add_right _ _)
    · exact ih _ _

/-- **One character.**  The words of the rest of the line stay the same, unless the character
begins a word that has no place in `c_argv`. -/
theorem splitChar_cases {cstr : List UInt8} {i : Nat} {s : Split} {ws : List (List UInt8)}
    {cur : Option (List UInt8)} (h : SplitInv cstr i s ws cur) (hi : i < cstr.length)
    (hne : cstr[i] ≠ 0) (hargc : (ws ++ cur.toList).length ≤ shellMaxArgs) :
    (∃ s' ws' cur', splitChar i s = .ok s' ∧ SplitInv cstr (i + 1) s' ws' cur' ∧
      (ws' ++ cur'.toList).length ≤ shellMaxArgs ∧
      ∀ cs, ws ++ tokens s.insideDQuoteState cur (cstr[i] :: cs) =
        ws' ++ tokens s'.insideDQuoteState cur' cs) ∨
    (splitChar i s = .error (.cArgv shellMaxArgs) ∧
      ∀ cs, ¬ (ws ++ tokens s.insideDQuoteState cur (cstr[i] :: cs)).length ≤ shellMaxArgs) := by
  have hchar : s.workingBuffer i = cstr[i] := h.rest i hi (Nat.le_refl i)
  have hextend : ∀ f : List UInt8 → List UInt8,
      (ws ++ (cur.map f).toList).length ≤ shellMaxArgs := by
    intro f
    cases cur <;> simpa using hargc
  simp only [tokens]
  unfold splitChar
  rw [hchar]
  by_cases hquote : cstr[i] = 0x27
  · simp only [if_pos hquote]
    exact .inl ⟨_, _, _, rfl, h.extend hi hne (!s.insideDQuoteState), hextend _, fun _ => rfl⟩
  · simp only [if_neg hquote]
    by_cases hspace : cstr[i] = 0x20
    · simp only [if_pos hspace]
      by_cases hin : s.insideDQuoteState = true
      · have hout : ¬ (!s.insideDQuoteState) = true := by simp [hin]
        simp only [if_pos hin, if_neg hout]
        exact .inl ⟨_, _, _, rfl, h.extend hi hne s.insideDQuoteState, hextend _, fun _ => rfl⟩
      · have hout : (!s.insideDQuoteState) = true := by simp [hin]
        simp only [if_neg hin, if_pos hout]
        exact .inl ⟨_, _, _, rfl, h.cut hi, by simpa using hargc,
          fun _ => (List.append_assoc _ _ _).symm⟩
    · simp only [if_neg hspace]
      cases cur with
      | none =>
        have hnew : s.newStringState = true := h.new
        have hcount := h.argc
        rw [Option.toList_none, List.append_nil] at hcount
        rw [hnew, if_pos rfl]
        by_cases hroom : s.cArgc < shellMaxArgs
        · rw [if_pos hroom]
          refine .inl ⟨_, _, _, rfl, h.begin hi hne, ?_, fun _ => rfl⟩
          rw [List.length_append, ← hcount]
          exact hroom
        · -- the word that begins here is one too many
          rw [Option.toList_none, List.append_nil] at hargc
          have hfull : s.cArgc = shellMaxArgs := by omega
          rw [if_neg hroom, hfull]
          refine .inr ⟨rfl, fun cs => ?_⟩
          have hbegun := tokens_begun_length s.insideDQuoteState [cstr[i]] cs
          rw [Option.getD_none, List.nil_append, List.length_append]
          omega
      | some w =>
        have hnew : s.newStringState = false := h.new
        rw [hnew, if_neg Bool.false_ne_true]
        exact .inl ⟨_, _, _, rfl, h.extend hi hne s.insideDQuoteState, hextend _, fun _ => rfl⟩

/-- The loop computes the words of what is left of the line, or ends at the first word that
has no place in `c_argv`. -/
theorem splitLoop_spec {cstr : List UInt8} {n i : Nat} {s : Split} {ws : List (List UInt8)}
    {cur : Option (List UInt8)} (hnul : 0 ∉ cstr) (h : SplitInv cstr i s ws cur)
    (hlen : i + n = cstr.length) (hargc : (ws ++ cur.toList).length ≤ shellMaxArgs) :
    if (ws ++ tokens s.insideDQuoteState cur (cstr.drop i)).length ≤ shellMaxArgs then
      ∃ s' ws' cur', splitLoop n i s = .ok s' ∧ SplitInv cstr cstr.length s' ws' cur' ∧
        ws' ++ cur'.toList = ws ++ tokens s.insideDQuoteState cur (cstr.drop i)
    else splitLoop n i s = .error (.cArgv shellMaxArgs) := by
  induction n generalizing i s ws cur with
  | zero =>
    obtain rfl : i = cstr.length := by omega
    rw [List.drop_length]
    exact (if_pos hargc).mpr ⟨s, ws, cur, rfl, h, rfl⟩
  | succ n ih =>
    have hi : i < cstr.length := by omega
    have hne : cstr[i] ≠ 0 := fun h0 => hnul (h0 ▸ List.getElem_mem hi)
    rw [List.drop_eq_getElem_cons hi, splitLoop]
    rcases splitChar_cases h hi hne hargc with ⟨s', ws', cur', hok, h', hargc', hwords⟩ |
      ⟨hfault, hmore⟩
    · rw [hwords, hok]
      exact ih h' (by omega) hargc'
    · rw [hfault]
      exact (if_neg (hmore _)).mpr rfl

/-! ## One command -/

section Execute

variable {cstr : List UInt8} {sh : Shell} {buf : Buffer}

theorem StringIn.copied (h : StringIn buf 0 cstr) (hlen : cstr.length < commandBufferSize)
    (dst : Buffer) : StringIn (memcpy dst buf commandBufferSize) 0 cstr := by
  apply h.congr
  intro j hj
  exact memcpy_of_lt (by omega)

/-- **One command.**  What is called is the meaning of the line, whatever the two buffers
hold besides it. -/
theorem shellExecuteCommand_spec (shellCmd : Command → Buffer → Buffer)
    (hline : StringIn sh.commandBuffer 0 cstr) (hlen : cstr.length < commandBufferSize)
    (hargs : (tokenize cstr).argc ≤ shellMaxArgs) :
    ∃ sh', shellExecuteCommand shellCmd sh = .ok sh' ∧ sh'.commandBufferPtr = 0 ∧
      sh'.executed = sh.executed ++ [tokenize cstr] := by
  have hcopy := hline.copied hlen sh.workingBuffer
  obtain ⟨s, ws, cur, hloop, hinv, hwords⟩ :=
    (if_pos hargs).mp (splitLoop_spec hline.no_nul (.start hcopy) (Nat.zero_add cstr.length)
      (by decide))
  have hcommand := hinv.command_eq hlen
  rw [hwords] at hcommand
  refine ⟨{ sh with
    workingBuffer := shellCmd s.command s.workingBuffer
    commandBufferPtr := 0
    executed := sh.executed ++ [s.command] }, ?_, rfl, ?_⟩
  · unfold shellExecuteCommand
    rw [hline.strlen_eq hlen]
    dsimp only
    rw [hloop]
    rfl
  · show sh.executed ++ [s.command] = _
    rw [hcommand]
    rfl

/-- A line of too many words ends in a store behind `c_argv`. -/
theorem shellExecuteCommand_overflow (shellCmd : Command → Buffer → Buffer)
    (hline : StringIn sh.commandBuffer 0 cstr) (hlen : cstr.length < commandBufferSize)
    (hargs : shellMaxArgs < (tokenize cstr).argc) :
    shellExecuteCommand shellCmd sh = .error (.cArgv shellMaxArgs) := by
  have hcopy := hline.copied hlen sh.workingBuffer
  have hloop := (if_neg (Nat.not_le.mpr hargs)).mp
    (splitLoop_spec hline.no_nul (.start hcopy) (Nat.zero_add cstr.length) (by decide))
  unfold shellExecuteCommand
  rw [hline.strlen_eq hlen]
  dsimp only
  rw [hloop]
  rfl

/-- No argument is stored outside of `c_argv`. -/
def ArgsInside (shellCmd : Command → Buffer → Buffer) (sh : Shell) : Prop :=
  ∀ i, shellExecuteCommand shellCmd sh ≠ .error (.cArgv i)

/-- **Arguments.**  The loop does not count against `SHELL_MAX_ARGS`: a line that fits
`command_buffer` stays inside `c_argv` exactly when it has at most 50 words. -/
theorem shell_argsInside_iff (shellCmd : Command → Buffer → Buffer)
    (hline : StringIn sh.commandBuffer 0 cstr) (hlen : cstr.length ≤ 1023) :
    ArgsInside shellCmd sh ↔ (tokens false (some []) cstr).length ≤ 50 := by
  have hlen' : cstr.length < commandBufferSize := Nat.lt_succ_of_le hlen
  constructor
  · intro hin
    by_contra hmore
    exact hin _ (shellExecuteCommand_overflow shellCmd hline hlen' (Nat.not_le.mp hmore))
  · intro hargs i herror
    obtain ⟨sh', hok, -⟩ := shellExecuteCommand_spec shellCmd hline hlen' hargs
    rw [hok] at herror
    cases herror

end Execute

/-- A shell with `cstr` in `command_buffer`. -/
def lineShell (cstr : List UInt8) : Shell where
  commandBuffer := fun i => cstr.getD i 0
  workingBuffer := fun _ => 0
  commandBufferPtr := cstr.length + 1
  executed := []

theorem stringIn_lineShell {cstr : List UInt8} (hnul : 0 ∉ cstr) :
    StringIn (lineShell cstr).commandBuffer 0 cstr where
  chars j hj := by
    show cstr.getD (0 + j) 0 = cstr[j]
    rw [Nat.zero_add, List.getD_eq_getElem?_getD, List.getElem?_eq_getElem hj, Option.getD_some]
  nul := by
    show cstr.getD (0 + cstr.length) 0 = 0
    rw [Nat.zero_add, List.getD_eq_getElem?_getD, List.getElem?_eq_none (Nat.le_refl _),
      Option.getD_none]
  no_nul := hnul

theorem shell_argsInside_iff_two : ArgsInside (fun _ b => b) (lineShell [0x61, 0x20, 0x62]) :=
  (shell_argsInside_iff _ (stringIn_lineShell (by decide)) (by decide)).mpr (by decide)

/-- 51 words of one letter each, in a line of 101 characters. -/
theorem shell_args_overflow :
    shellExecuteCommand (fun _ b => b)
      (lineShell ((List.replicate 50 [0x61, 0x20]).flatten ++ [0x61])) = .error (.cArgv 50) ∧
    ¬ ArgsInside (fun _ b => b)
      (lineShell ((List.replicate 50 [0x61, 0x20]).flatten ++ [0x61])) := by
  have hfault := shellExecuteCommand_overflow (fun _ b => b)
    (@stringIn_lineShell ((List.replicate 50 [0x61, 0x20]).flatten ++ [0x61]) (by decide))
    (by decide) (by decide)
  exact ⟨hfault, fun h => h 50 hfault⟩

end KoizOs
