import KoizOs.Libc.Printf

/-!
# What a format means

A format is cut into pieces from left to right: characters that stand for themselves,
conversions, and at most one tail that `printf` stops at.  `emits` is what the pieces say
with their arguments; `printf_renders`: `printf` emits it.
-/

namespace KoizOs

inductive Conversion where
  | s
  | c
  | d
  | x
  | b
deriving DecidableEq

inductive Piece where
  | literal (c : UInt8)
  | conversion (k : Conversion)
  /-- a `%` with nothing behind it -/
  | lonePercent
  /-- a `%` with a character behind it that is no conversion -/
  | unknown (c : UInt8)
deriving DecidableEq

inductive ArgKind where
  | str
  | int
deriving DecidableEq

def Conversion.char : Conversion → UInt8
  | .s => 0x73
  | .c => 0x63
  | .d => 0x64
  | .x => 0x78
  | .b => 0x62

def Conversion.kind : Conversion → ArgKind
  | .s => .str
  | _ => .int

def Arg.kind : Arg → ArgKind
  | .str _ => .str
  | .int _ => .int

def conversionOf (c : UInt8) : Option Conversion :=
  [Conversion.s, .c, .d, .x, .b].find? fun k => k.char = c

/-- The pieces of a format.  Behind a tail that is none nothing is read. -/
def pieces : List UInt8 → List Piece
  | [] => []
  | [c] => if c = 0x25 then [.lonePercent] else [.literal c]
  | c :: next :: format =>
    if c = 0x25 then
      if next = 0x25 then .literal 0x25 :: pieces format
      else
        match conversionOf next with
        | some k => .conversion k :: pieces format
        | none => [.unknown next]
    else .literal c :: pieces (next :: format)

/-- The kinds of arguments that the conversions take, in order. -/
def kinds (ps : List Piece) : List ArgKind :=
  ps.filterMap fun p =>
    match p with
    | .conversion k => some k.kind
    | _ => none

/-- One argument of the right kind for each conversion, in order.  There may be more. -/
def ArgsFor (ps : List Piece) (args : List Arg) : Prop := kinds ps <+: args.map Arg.kind

instance (ps : List Piece) (args : List Arg) : Decidable (ArgsFor ps args) :=
  inferInstanceAs (Decidable (kinds ps <+: args.map Arg.kind))

/-- What a conversion makes of its argument. -/
def Conversion.text : Conversion → Arg → List UInt8
  | .s, .str string => string.chars
  | .c, .int n => [n.toUInt8]
  | .d, .int n => numeral 10 n.toNat
  | .x, .int n => [0x30, 0x78] ++ numeral 16 n.toNat
  | .b, .int n => [0x30, 0x62] ++ numeral 2 n.toNat
  | _, _ => []

/-- The text of the pieces one behind the other; a tail that is none is replaced by an error
message. -/
def emits : List Piece → List Arg → Output
  | [], _ => []
  | .literal c :: ps, args => (.stdout, c) :: emits ps args
  | .conversion k :: ps, a :: args => (k.text a).map (Prod.mk .stdout) ++ emits ps args
  | .conversion _ :: _, [] => []
  | .lonePercent :: _, _ => (ascii "printf error: next character is null").map (Prod.mk .stderr)
  | .unknown c :: _, _ =>
    (ascii "printf error: Unknown escape sequence %").map (Prod.mk .stderr) ++ [(.stdout, c)]

/-- `50%: %s` and a newline. -/
example : emits (pieces [0x35, 0x30, 0x25, 0x25, 0x3A, 0x20, 0x25, 0x73, 0x0A])
    [.str ⟨[0x6F, 0x6B], by decide⟩] =
    [0x35, 0x30, 0x25, 0x3A, 0x20, 0x6F, 0x6B, 0x0A].map (Prod.mk .stdout) := by
  decide

variable {format : CString} {pre rest : List UInt8} {c next : UInt8} {n : Nat} {args : List Arg}
  {out : Output} {a : Arg} {k : Conversion} {ps : List Piece}

/-! ## Arguments -/

theorem argsFor_literal : ArgsFor (.literal c :: ps) args ↔ ArgsFor ps args := Iff.rfl

theorem argsFor_nil : ArgsFor (.conversion k :: ps) [] ↔ False := by
  simp [ArgsFor, kinds]

theorem argsFor_cons : ArgsFor (.conversion k :: ps) (a :: args) ↔
    a.kind = k.kind ∧ ArgsFor ps args := by
  show k.kind :: kinds ps <+: a.kind :: args.map Arg.kind ↔ _
  rw [List.cons_prefix_cons, eq_comm]
  rfl

theorem conversionOf_eq_some : conversionOf c = some k → c = k.char := by
  intro h
  have hfound := List.find?_some h
  exact (of_decide_eq_true hfound).symm

theorem conversionOf_eq_none (h : conversionOf c = none) (k : Conversion) : c ≠ k.char := by
  rintro rfl
  have hall := List.find?_eq_none.mp h k (by cases k <;> decide)
  simp at hall

/-! ## Reading the format -/

theorem formatAt_end : formatAt format format.chars.length = .ok 0 := by
  unfold formatAt CString.get
  rw [if_pos (Nat.le_refl _), List.getD_eq_getElem?_getD, List.getElem?_eq_none (Nat.le_refl _)]
  rfl

theorem formatAt_char (heq : format.chars = pre ++ c :: rest) :
    formatAt format pre.length = .ok c ∧ c ≠ 0 := by
  have hlen : pre.length ≤ format.chars.length := by
    rw [heq, List.length_append]
    exact Nat.le_add_right _ _
  constructor
  · unfold formatAt CString.get
    rw [if_pos hlen, heq, List.getD_eq_getElem?_getD, List.getElem?_append_right (Nat.le_refl _),
      Nat.sub_self]
    rfl
  · rintro rfl
    apply format.no_nul
    rw [heq]
    simp

/-- The character behind a `%`. -/
theorem formatAt_next (heq : format.chars = pre ++ c :: next :: rest) :
    formatAt format (pre.length + 1) = .ok next ∧ next ≠ 0 := by
  have heq' : format.chars = (pre ++ [c]) ++ next :: rest := by
    rw [heq, List.append_assoc]
    rfl
  have hnext := formatAt_char heq'
  rwa [List.length_append] at hnext

/-! ## Rounds -/

theorem printfLoop_literal (heq : format.chars = pre ++ c :: rest) (hc : c ≠ 0x25) :
    printfLoop format (n + 1) pre.length args out =
      printfLoop format n (pre.length + 1) args (stdPrint [c] out) := by
  obtain ⟨hread, h0⟩ := formatAt_char heq
  rw [printfLoop, hread]
  exact (if_neg h0).trans (if_neg hc)

/-- A conversion takes one argument, if that is of its kind. -/
theorem printfEscape_conversion (k : Conversion) (a : Arg) (args : List Arg) (out : Output) :
    printfEscape k.char (a :: args) out =
      if a.kind = k.kind then .ok (true, args, stdPrint (k.text a) out)
      else .error .argument := by
  cases a with
  | str string => cases k <;> rfl
  | int number =>
    have hnumber : ∀ base : UInt32, 2 ≤ base.toNat → base.toNat ≤ 16 →
        (printUintToString number base out >>= fun out => .ok (true, args, out)) = Except.ok
          (true, args, stdPrint (numeralPrefix base ++ numeral base.toNat number.toNat) out) := by
      intro base hlow hhigh
      rw [printUintToString_spec hlow hhigh]
      rfl
    cases k with
    | s => rfl
    | c => rfl
    | d => exact hnumber 10 (by decide) (by decide)
    | x => exact hnumber 16 (by decide) (by decide)
    | b => exact hnumber 2 (by decide) (by decide)

theorem printfEscape_no_args (k : Conversion) (out : Output) :
    printfEscape k.char [] out = .error .argument := by
  cases k <;> rfl

/-- Behind a tail that is none the loop ends. -/
theorem printfEscape_unknown (h0 : next ≠ 0) (hpercent : next ≠ 0x25)
    (hnone : conversionOf next = none) (args : List Arg) (out : Output) :
    printfEscape next args out = .ok (false, args, out ++ emits [.unknown next] []) := by
  have hs : next ≠ 0x73 := conversionOf_eq_none hnone .s
  have hc : next ≠ 0x63 := conversionOf_eq_none hnone .c
  have hd : next ≠ 0x64 := conversionOf_eq_none hnone .d
  have hx : next ≠ 0x78 := conversionOf_eq_none hnone .x
  have hb : next ≠ 0x62 := conversionOf_eq_none hnone .b
  unfold printfEscape
  rw [if_neg hpercent, if_neg hs, if_neg hc, if_neg hd, if_neg hx, if_neg hb, if_neg h0]
  show Except.ok (false, args, _ ++ _ ++ _) = _
  rw [List.append_assoc]
  rfl

/-- A round that reads a `%`. -/
theorem printfLoop_percent (heq : format.chars = pre ++ 0x25 :: rest)
    (hread : formatAt format (pre.length + 1) = .ok next) :
    printfLoop format (n + 1) pre.length args out =
      printfEscape next args out >>= fun r =>
        if r.1 then printfLoop format n (pre.length + 2) r.2.1 r.2.2 else .ok r.2.2 := by
  rw [printfLoop, (formatAt_char heq).1]
  show formatAt format (pre.length + 1) >>= _ = _
  rw [hread]
  rfl

/-! ## The whole format -/

/-- The outcome `r` is what the pieces say, or the lack of an argument. -/
def Prints (r : Except PrintfFault Output) (ps : List Piece) (args : List Arg) (out : Output) :
    Prop :=
  if ArgsFor ps args then r = .ok (out ++ emits ps args) else r = .error .argument

namespace Prints

variable {r : Except PrintfFault Output}

theorem nil (args : List Arg) (out : Output) : Prints (.ok out) [] args out :=
  (if_pos List.nil_prefix).mpr (congrArg Except.ok (List.append_nil out).symm)

/-- What was emitted before moves in front of the rest. -/
theorem literal (h : Prints r ps args (stdPrint [c] out)) :
    Prints r (.literal c :: ps) args out := by
  unfold Prints at h ⊢
  simp only [argsFor_literal]
  split at h
  · next hargs =>
    rw [if_pos hargs, h, stdPrint, List.append_assoc]
    rfl
  · next hargs =>
    rw [if_neg hargs]
    exact h

theorem conversion (hkind : a.kind = k.kind) (h : Prints r ps args (stdPrint (k.text a) out)) :
    Prints r (.conversion k :: ps) (a :: args) out := by
  unfold Prints at h ⊢
  simp only [argsFor_cons, hkind, true_and]
  split at h
  · next hargs =>
    rw [if_pos hargs, h, stdPrint, List.append_assoc]
    rfl
  · next hargs =>
    rw [if_neg hargs]
    exact h

theorem wrong_kind (hkind : a.kind ≠ k.kind) :
    Prints (.error .argument) (.conversion k :: ps) (a :: args) out :=
  (if_neg fun hargs => hkind (argsFor_cons.mp hargs).1).mpr rfl

theorem no_args : Prints (.error .argument) (.conversion k :: ps) [] out :=
  (if_neg argsFor_nil.mp).mpr rfl

/-- No argument is asked for at a tail. -/
theorem tail {p : Piece} (hp : p = .lonePercent ∨ p = .unknown c) :
    Prints (.ok (out ++ emits [p] [])) [p] args out := by
  rcases hp with rfl | rfl
  · exact (if_pos List.nil_prefix).mpr rfl
  · exact (if_pos List.nil_prefix).mpr rfl

end Prints

/-- A `%` with the character behind it, before the rest of the format. -/
theorem printfEscape_prints {loop : List Arg → Output → Except PrintfFault Output} (h0 : next ≠ 0)
    (hrest : ∀ args out, Prints (loop args out) (pieces rest) args out) :
    Prints (printfEscape next args out >>= fun r => if r.1 then loop r.2.1 r.2.2 else .ok r.2.2)
      (pieces (0x25 :: next :: rest)) args out := by
  by_cases hpercent : next = 0x25
  · subst hpercent
    exact (hrest args (stdPrint [0x25] out)).literal
  · have hpieces : pieces (0x25 :: next :: rest) =
        match conversionOf next with
        | some k => .conversion k :: pieces rest
        | none => [.unknown next] := (if_pos rfl).trans (if_neg hpercent)
    rw [hpieces]
    cases hconv : conversionOf next with
    | none =>
      rw [printfEscape_unknown h0 hpercent hconv]
      exact .tail (.inr rfl)
    | some k =>
      obtain rfl := conversionOf_eq_some hconv
      cases args with
      | nil =>
        rw [printfEscape_no_args]
        exact .no_args
      | cons a args =>
        rw [printfEscape_conversion]
        by_cases hkind : a.kind = k.kind
        · rw [if_pos hkind]
          exact .conversion hkind (hrest args (stdPrint (k.text a) out))
        · rw [if_neg hkind]
          exact .wrong_kind hkind

/-- From any place of the format on. -/
theorem printfLoop_prints (heq : format.chars = pre ++ rest) (hn : rest.length < n) :
    Prints (printfLoop format n pre.length args out) (pieces rest) args out := by
  induction n generalizing pre rest args out with
  | zero => omega
  | succ n ih =>
    match rest, heq, hn with
    | [], heq, _ =>
      rw [List.append_nil] at heq
      have hread := @formatAt_end format
      rw [heq] at hread
      rw [printfLoop, hread]
      exact .nil args out
    | c :: rest, heq, hn =>
      have hstep : format.chars = (pre ++ [c]) ++ rest := by
        rw [heq, List.append_assoc]
        rfl
      by_cases hc : c = 0x25
      · subst hc
        cases rest with
        | nil =>
          have hread := @formatAt_end format
          rw [heq, List.length_append] at hread
          rw [printfLoop_percent heq hread]
          exact .tail (c := 0) (.inl rfl)
        | cons next rest =>
          obtain ⟨hread, h0⟩ := formatAt_next heq
          have hrest : ∀ args out, Prints (printfLoop format n (pre.length + 2) args out)
              (pieces rest) args out := by
            intro args out
            have hstep' : format.chars = (pre ++ [0x25, next]) ++ rest := by
              rw [heq, List.append_assoc]
              rfl
            have h := @ih (pre ++ [0x25, next]) rest args out hstep'
              (by rw [List.length_cons, List.length_cons] at hn; omega)
            rwa [List.length_append] at h
          rw [printfLoop_percent heq hread]
          exact printfEscape_prints h0 hrest
      · have hrest := @ih (pre ++ [c]) rest args (stdPrint [c] out) hstep
          (Nat.lt_of_succ_lt_succ hn)
        have hpieces : pieces (c :: rest) = .literal c :: pieces rest := by
          cases rest with
          | nil => exact if_neg hc
          | cons next rest => exact if_neg hc
        rw [List.length_append] at hrest
        rw [hpieces, printfLoop_literal heq hc]
        exact hrest.literal

theorem printf_prints (format : CString) (args : List Arg) (out : Output) :
    Prints (printf format args out) (pieces format.chars) args out :=
  @printfLoop_prints format [] format.chars (format.chars.length + 1) args out rfl
    (Nat.lt_succ_self _)

/-- **Formats.**  For every format and every argument list `printf` ends without looking behind
the NUL; with an argument of the right kind for each conversion it emits what the format
means. -/
theorem printf_renders (format : CString) (args : List Arg) (out : Output) :
    (∀ i, printf format args out ≠ .error (.format i)) ∧
      (ArgsFor (pieces format.chars) args →
        printf format args out = .ok (out ++ emits (pieces format.chars) args)) := by
  have hprints := printf_prints format args out
  unfold Prints at hprints
  split at hprints
  · next hargs =>
    refine ⟨?_, fun _ => hprints⟩
    intro i herror
    rw [hprints] at herror
    cases herror
  · next hargs =>
    refine ⟨?_, fun h => absurd h hargs⟩
    intro i herror
    rw [hprints] at herror
    cases herror

/-- `%x%%%s` and a newline. -/
theorem printf_renders_two :
    printf ⟨[0x25, 0x78, 0x25, 0x25, 0x25, 0x73, 0x0A], by decide⟩
      [.int 0, .str ⟨[0x6F, 0x6B], by decide⟩] [] =
      .ok ([0x30, 0x78, 0x30, 0x25, 0x6F, 0x6B, 0x0A].map (Prod.mk .stdout)) :=
  (printf_renders ⟨[0x25, 0x78, 0x25, 0x25, 0x25, 0x73, 0x0A], by decide⟩
    [.int 0, .str ⟨[0x6F, 0x6B], by decide⟩] []).2 (by decide)

end KoizOs
