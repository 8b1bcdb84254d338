import KoizOs.Shell.Tokens

/-!
# Quoted words

`writeLine` writes words as a user would: bare, or between quotes when there is a space in
the word.  What the shell reads back is one list of characters for each word (`heard`): a
bare word comes back as it is; a quoted one begins at its first character that is not a
space and keeps the closing quote; the first word of the line keeps both quotes.

    SplitsBack shellCmd sh words ↔ no word contains a space          (shell_quoting_iff)
-/

namespace KoizOs

/-- A word as it is written. -/
def quoted (w : List UInt8) : List UInt8 := if 0x20 ∈ w then 0x27 :: (w ++ [0x27]) else w

/-- The word `w`, and the words `ws`, each with the number of spaces before it, less one. -/
def writeLine (w : List UInt8) (ws : List (Nat × List UInt8)) : List UInt8 :=
  quoted w ++ ws.flatMap fun v => List.replicate (v.1 + 1) 0x20 ++ quoted v.2

/-- The shell calls the command of these words. -/
def SplitsBack (shellCmd : Command → Buffer → Buffer) (sh : Shell) (words : List (List UInt8)) :
    Prop :=
  ∃ sh', shellExecuteCommand shellCmd sh = .ok sh' ∧
    sh'.executed = sh.executed ++ [⟨words.length, words⟩]

/-- What the shell makes of a word that is not the first of its line. -/
def heard (w : List UInt8) : Option (List UInt8) :=
  if 0x20 ∈ w then
    match w.dropWhile (· = 0x20) with
    | [] => none
    | v => some (v ++ [0x27])
  else some w

variable {u v w cs : List UInt8} {ws : List (Nat × List UInt8)} {b : Bool}

/-! ## Parts of a line -/

/-- A space outside of a quotation ends the word that has begun, and more spaces change
nothing. -/
theorem tokens_spaces (n : Nat) (cur : Option (List UInt8)) (cs : List UInt8) :
    tokens false cur (List.replicate (n + 1) 0x20 ++ cs) = cur.toList ++ tokens false none cs := by
  induction n generalizing cur with
  | zero => rfl
  | succ n ih =>
    have hone : tokens false cur (List.replicate (n + 1 + 1) 0x20 ++ cs) =
        cur.toList ++ tokens false none (List.replicate (n + 1) 0x20 ++ cs) := rfl
    rw [hone, ih none, Option.toList_none, List.nil_append]

/-- Characters other than quotes continue a word, in a quotation spaces do, too. -/
theorem tokens_continue (hquote : 0x27 ∉ w) (hspace : b = true ∨ 0x20 ∉ w) :
    tokens b (some u) (w ++ cs) = tokens b (some (u ++ w)) cs := by
  induction w generalizing u with
  | nil => rw [List.nil_append, List.append_nil]
  | cons c w ih =>
    obtain ⟨hc, hquote⟩ := not_or.mp (fun hmem => hquote (List.mem_cons.mpr hmem))
    have hrest : b = true ∨ 0x20 ∉ w := hspace.imp_right fun hno hmem =>
      hno (List.mem_cons_of_mem c hmem)
    rw [List.cons_append, tokens, if_neg (Ne.symm hc)]
    by_cases h20 : c = 0x20
    · have hb : b = true := hspace.resolve_right fun hno => hno (h20 ▸ List.mem_cons_self)
      rw [if_pos h20, if_pos hb, Option.map_some, ih hquote hrest, List.append_assoc]
      rfl
    · rw [if_neg h20, Option.getD_some, ih hquote hrest, List.append_assoc]
      rfl

/-- In a quotation a word begins at the first character that is not a space. -/
theorem tokens_quotation (hquote : 0x27 ∉ w) :
    tokens true none (w ++ 0x27 :: cs) = tokens false
      (match w.dropWhile (· = 0x20) with
        | [] => none
        | v => some (v ++ [0x27])) cs := by
  induction w with
  | nil => rfl
  | cons c w ih =>
    obtain ⟨hc, hquote'⟩ := not_or.mp (fun hmem => hquote (List.mem_cons.mpr hmem))
    rw [List.cons_append, tokens, if_neg (Ne.symm hc)]
    by_cases h20 : c = 0x20
    · rw [if_pos h20, if_pos rfl, List.dropWhile_cons_of_pos (by simp [h20])]
      exact ih hquote'
    · rw [if_neg h20, List.dropWhile_cons_of_neg (by simp [h20])]
      show tokens true (some [c]) (w ++ 0x27 :: cs) = tokens false (some (c :: w ++ [0x27])) cs
      rw [tokens_continue hquote' (.inl rfl)]
      rfl

theorem tokens_quoted (hne : w ≠ []) (hquote : 0x27 ∉ w) :
    tokens false none (quoted w ++ cs) = tokens false (heard w) cs := by
  unfold quoted heard
  by_cases hspace : 0x20 ∈ w
  · rw [if_pos hspace, if_pos hspace, ← tokens_quotation hquote]
    show tokens true none (w ++ [0x27] ++ cs) = _
    rw [List.append_assoc]
    rfl
  · rw [if_neg hspace, if_neg hspace]
    obtain ⟨c, w, rfl⟩ := List.exists_cons_of_ne_nil hne
    obtain ⟨hc, hquote⟩ := not_or.mp (fun hmem => hquote (List.mem_cons.mpr hmem))
    obtain ⟨h20, hspace⟩ := not_or.mp (fun hmem => hspace (List.mem_cons.mpr hmem))
    rw [List.cons_append, tokens, if_neg (Ne.symm hc), if_neg (Ne.symm h20)]
    exact tokens_continue hquote (.inr hspace)

/-- The first word has begun before its opening quote. -/
theorem tokens_first (hquote : 0x27 ∉ w) :
    tokens false (some []) (quoted w ++ cs) = tokens false (some (quoted w)) cs := by
  unfold quoted
  by_cases hspace : 0x20 ∈ w
  · rw [if_pos hspace]
    show tokens true (some [0x27]) (w ++ [0x27] ++ cs) = _
    rw [List.append_assoc, tokens_continue hquote (.inl rfl)]
    rfl
  · rw [if_neg hspace]
    exact tokens_continue hquote (.inr hspace)

/-- The words of a line that was written. -/
theorem tokens_writeLine (hw : 0x27 ∉ w) (hws : ∀ v ∈ ws, v.2 ≠ [] ∧ 0x27 ∉ v.2) :
    tokens false (some []) (writeLine w ws) = quoted w :: (ws.map Prod.snd).filterMap heard := by
  have hrest : ∀ cur, tokens false cur
      (ws.flatMap fun v => List.replicate (v.1 + 1) 0x20 ++ quoted v.2) =
      cur.toList ++ (ws.map Prod.snd).filterMap heard := by
    induction ws with
    | nil =>
      intro cur
      exact (List.append_nil _).symm
    | cons v ws ih =>
      intro cur
      obtain ⟨hne, hquote⟩ := hws v List.mem_cons_self
      have ih := ih fun v' hv' => hws v' (List.mem_cons_of_mem v hv')
      rw [List.flatMap_cons, List.append_assoc, tokens_spaces, tokens_quoted hne hquote, ih,
        List.map_cons, List.filterMap_cons]
      cases heard v.2 <;> rfl
  unfold writeLine
  rw [tokens_first hw, hrest]
  rfl

/-! ## Reading back -/

theorem quoted_eq_iff : quoted w = w ↔ 0x20 ∉ w := by
  unfold quoted
  constructor
  · intro h hspace
    rw [if_pos hspace] at h
    have hlen := congrArg List.length h
    rw [List.length_cons, List.length_append, List.length_singleton] at hlen
    omega
  · exact fun hspace => if_neg hspace

theorem heard_eq_iff (hquote : 0x27 ∉ w) : heard w = some w ↔ 0x20 ∉ w := by
  unfold heard
  constructor
  · intro h hspace
    rw [if_pos hspace] at h
    split at h
    · cases h
    · -- the closing quote
      apply hquote
      rw [← Option.some.inj h]
      simp
  · exact fun hspace => if_neg hspace

theorem filterMap_heard_eq_iff {l : List (List UInt8)} (hl : ∀ v ∈ l, 0x27 ∉ v) :
    l.filterMap heard = l ↔ ∀ v ∈ l, 0x20 ∉ v := by
  induction l with
  | nil => simp
  | cons v l ih =>
    have hv := hl v List.mem_cons_self
    have ih := ih fun v' hv' => hl v' (List.mem_cons_of_mem v hv')
    rw [List.forall_mem_cons, ← heard_eq_iff hv, ← ih, List.filterMap_cons]
    constructor
    · intro h
      cases hheard : heard v with
      | none =>
        -- one word less
        rw [hheard] at h
        have hlen := List.length_filterMap_le heard l
        have hlen' := congrArg List.length h
        rw [List.length_cons] at hlen'
        dsimp only at hlen'
        omega
      | some v' =>
        rw [hheard] at h
        obtain ⟨rfl, hrest⟩ := List.cons.inj h
        exact ⟨rfl, hrest⟩
    · rintro ⟨hheard, hrest⟩
      rw [hheard]
      exact congrArg (List.cons v) hrest

/-- **Quoting.** A line of up to 50 words, written with quotes around those that contain a
space, is read back exactly when there are none of these. -/
theorem shell_quoting_iff {sh : Shell} (shellCmd : Command → Buffer → Buffer)
    (hwords : ∀ v ∈ w :: ws.map Prod.snd, v ≠ [] ∧ 0x27 ∉ v)
    (hcount : (w :: ws.map Prod.snd).length ≤ 50)
    (hline : StringIn sh.commandBuffer 0 (writeLine w ws)) (hlen : (writeLine w ws).length ≤ 1023) :
    SplitsBack shellCmd sh (w :: ws.map Prod.snd) ↔ ∀ v ∈ w :: ws.map Prod.snd, 0x20 ∉ v := by
  obtain ⟨⟨-, hw⟩, hrest⟩ := List.forall_mem_cons.mp hwords
  have htokens := tokens_writeLine hw fun v hv => hrest v.2 (List.mem_map_of_mem hv)
  have hargs : (tokenize (writeLine w ws)).argc ≤ shellMaxArgs := by
    show (tokens false (some []) (writeLine w ws)).length ≤ 50
    have hle := List.length_filterMap_le heard (ws.map Prod.snd)
    rw [htokens]
    rw [List.length_cons] at hcount ⊢
    omega
  obtain ⟨sh', hok, -, hexec⟩ :=
    shellExecuteCommand_spec shellCmd hline (Nat.lt_succ_of_le hlen) hargs
  have hsplits : SplitsBack shellCmd sh (w :: ws.map Prod.snd) ↔
      tokens false (some []) (writeLine w ws) = w :: ws.map Prod.snd := by
    constructor
    · rintro ⟨sh'', hok', hexec'⟩
      obtain rfl := Except.ok.inj (hok.symm.trans hok')
      have hcommand := List.append_cancel_left (hexec.symm.trans hexec')
      exact congrArg Command.argv (List.cons.inj hcommand).1
    · intro heq
      refine ⟨sh', hok, ?_⟩
      rw [hexec, tokenize, heq]
  rw [hsplits, htokens, List.cons.injEq, quoted_eq_iff,
    filterMap_heard_eq_iff fun v hv => (hrest v hv).2, List.forall_mem_cons]

/-- `read`, two spaces and `a`. -/
theorem shell_quoting_iff_two :
    SplitsBack (fun _ b => b) (lineShell [0x72, 0x65, 0x61, 0x64, 0x20, 0x20, 0x61])
      [[0x72, 0x65, 0x61, 0x64], [0x61]] :=
  (@shell_quoting_iff [0x72, 0x65, 0x61, 0x64] [(1, [0x61])]
    (lineShell [0x72, 0x65, 0x61, 0x64, 0x20, 0x20, 0x61]) (fun _ b => b) (by decide) (by decide)
    (stringIn_lineShell (by decide)) (by decide)).mpr (by decide)

/-- `read 'a b'`: the argument of the command is `a b'`. -/
theorem shell_quote_kept : ∃ sh',
    shellExecuteCommand (fun _ b => b)
      (lineShell (writeLine [0x72, 0x65, 0x61, 0x64] [(0, [0x61, 0x20, 0x62])])) = .ok sh' ∧
    sh'.executed = [⟨2, [[0x72, 0x65, 0x61, 0x64], [0x61, 0x20, 0x62, 0x27]]⟩] ∧
    ¬ SplitsBack (fun _ b => b)
      (lineShell (writeLine [0x72, 0x65, 0x61, 0x64] [(0, [0x61, 0x20, 0x62])]))
      [[0x72, 0x65, 0x61, 0x64], [0x61, 0x20, 0x62]] := by
  have hline := @stringIn_lineShell
    (writeLine [0x72, 0x65, 0x61, 0x64] [(0, [0x61, 0x20, 0x62])]) (by decide)
  obtain ⟨sh', hok, -, hexec⟩ :=
    shellExecuteCommand_spec (fun _ b => b) hline (by decide) (by decide)
  have hcommand : sh'.executed = [⟨2, [[0x72, 0x65, 0x61, 0x64], [0x61, 0x20, 0x62, 0x27]]⟩] := by
    rw [hexec]
    rfl
  refine ⟨sh', hok, hcommand, ?_⟩
  rintro ⟨sh'', hok', hexec'⟩
  obtain rfl := Except.ok.inj (hok.symm.trans hok')
  rw [hcommand] at hexec'
  exact absurd hexec' (by decide)

end KoizOs
