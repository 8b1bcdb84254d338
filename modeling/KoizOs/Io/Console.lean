import KoizOs.Io.Fifo
import KoizOs.Lib.Delayed
import KoizOs.Libc.Printf
import KoizOs.Video.Printing
import Mathlib.Data.List.Induction

/-!
# The console

Standard output goes through its stream buffer, once there are pages; standard error and a
panic go to the screen at once.  All of it is logged to the serial port.

    sent   =  a shuffle of output and errors
    typed  =  the same, with errors in front of at most 4095 characters of output

What `printf` emits is all logged (`logged_eq_emitted`); a NUL of it does not pass the buffer
(`sent_eq_emitted`).
-/

namespace KoizOs

open Lib

structure Console (σ : Type) where
  pmemIsinit : Bool
  /-- the standard output; its `screen` is empty between two calls -/
  out : Io σ
  vga : Vga
  /-- what was written to `PORT_COM1` -/
  serial : List UInt8

def defaultTextColor : UInt8 := 0x0F
def defaultErrorColor : UInt8 := 0x05

variable {σ : Type}

/-- Before the page allocator is there. -/
def Console.boot (m : Mem) (s : σ) (v : Vga) : Console σ where
  pmemIsinit := false
  out := Io.boot true m s
  vga := v
  serial := []

/-! ## Algorithm -/

namespace Console

def log (message : List UInt8) (k : Console σ) : Console σ :=
  { k with serial := k.serial ++ message }

/-- A call on the stream buffer.  Each character it prints is a `vga_print_screen_char`. -/
def onOut (f : Io σ → Kern (Io σ)) (k : Console σ) : Kern (Console σ) := do
  let out ← f k.out
  return { k with
    out := { out with screen := [] }
    vga := out.screen.foldl (fun v c => v.printScreenChar c defaultTextColor) k.vga }

section PageSource

variable (pmemAlloc : σ → Kern (UInt32 × σ))

def stdPrint (message : CString) (k : Console σ) : Kern (Console σ) :=
  let k := k.log message.chars
  if k.pmemIsinit && !k.out.inBuff.isInitializing then
    k.onOut (ioBufferPlace pmemAlloc message)
  else .ok { k with vga := k.vga.printScreen message defaultTextColor }

def stdPrintChar (message : UInt8) (k : Console σ) : Kern (Console σ) :=
  let k := k.log [message]
  if k.pmemIsinit && !k.out.inBuff.isInitializing then
    k.onOut (ioBufferPlace pmemAlloc (msgStr message))
  else .ok { k with vga := k.vga.printScreenChar message defaultTextColor }

end PageSource

def stdError (message : CString) (k : Console σ) : Console σ :=
  let k := k.log message.chars
  { k with vga := k.vga.printScreen message defaultErrorColor }

def stdlibFlushstdio (k : Console σ) : Kern (Console σ) := k.onOut ioBufferFlushToScreen

/-- `"KERNEL PANIC: "` -/
def kernelPanic : CString where
  chars := [0x4B, 0x45, 0x52, 0x4E, 0x45, 0x4C, 0x20, 0x50, 0x41, 0x4E, 0x49, 0x43, 0x3A, 0x20]
  no_nul := by decide

/-- The screen that `panic(message)` leaves. -/
def panicScreen (message : CString) (k : Console σ) : Vga :=
  let v := k.vga.printScreen ⟨[0x0A], by decide⟩ defaultErrorColor
  let v := v.printScreen kernelPanic defaultErrorColor
  v.printScreen message defaultErrorColor

end Console

inductive ConsoleOp where
  | print (message : CString)
  | printChar (message : UInt8)
  | error (message : CString)
  | flush
  | pool

/-- A call that returned, or what others do to the page pool, setting it up at first. -/
inductive ConsoleStep (pmemAlloc : σ → Kern (UInt32 × σ)) :
    Console σ → ConsoleOp → Console σ → Prop
  | print {k k' : Console σ} {message : CString} :
      k.stdPrint pmemAlloc message = .ok k' → ConsoleStep pmemAlloc k (.print message) k'
  | printChar {k k' : Console σ} {message : UInt8} :
      k.stdPrintChar pmemAlloc message = .ok k' → ConsoleStep pmemAlloc k (.printChar message) k'
  | error {k : Console σ} {message : CString} :
      ConsoleStep pmemAlloc k (.error message) (k.stdError message)
  | flush {k k' : Console σ} :
      k.stdlibFlushstdio = .ok k' → ConsoleStep pmemAlloc k .flush k'
  | pool {k : Console σ} {ready : Bool} {s : σ} :
      (k.pmemIsinit = true → ready = true) →
      ConsoleStep pmemAlloc k .pool { k with pmemIsinit := ready, out := { k.out with pmem := s } }

/-- What an operation sends to the screen.  A NUL is no string, so the buffer never gets it. -/
def ConsoleOp.sent (buffered : Bool) : ConsoleOp → Output
  | .print message => message.chars.map (Prod.mk .stdout)
  | .printChar message =>
    (if buffered then (msgStr message).chars else [message]).map (Prod.mk .stdout)
  | .error message => message.chars.map (Prod.mk .stderr)
  | .flush => []
  | .pool => []

def ConsoleOp.logged : ConsoleOp → List UInt8
  | .print message => message.chars
  | .printChar message => [message]
  | .error message => message.chars
  | .flush => []
  | .pool => []

/-- What was sent during a run. -/
def sent (tr : List (Console σ × ConsoleOp)) : Output := tr.flatMap fun e => e.2.sent e.1.pmemIsinit

/-- What the serial port got during a run. -/
def logged (tr : List (Console σ × ConsoleOp)) : List UInt8 := tr.flatMap fun e => e.2.logged

/-- What the operation emits where the console is left out. -/
def ConsoleOp.emit : ConsoleOp → Output → Output
  | .print message => stdPrint message.chars
  | .printChar message => stdPrintChar message
  | .error message => stdError message.chars
  | .flush => id
  | .pool => id

/-- What `printf` and the others emitted during a run. -/
def emitted (tr : List (Console σ × ConsoleOp)) : Output := tr.foldl (fun out e => e.2.emit out) []

/-! ## Emitted, logged and sent

`stdPrintChar` emits any character.  All of them are logged, and of those that are sent only a NUL
can be missing. -/

def notNul (x : Stream × UInt8) : Bool := x.2 ≠ 0

theorem ConsoleOp.emit_eq (op : ConsoleOp) (out : Output) : op.emit out = out ++ op.sent false := by
  cases op with
  | print message => rfl
  | printChar message => rfl
  | error message => rfl
  | flush => exact (List.append_nil out).symm
  | pool => exact (List.append_nil out).symm

theorem ConsoleOp.logged_eq (op : ConsoleOp) : op.logged = (op.sent false).map Prod.snd := by
  have hsnd : ∀ (kind : Stream) (cs : List UInt8), (cs.map (Prod.mk kind)).map Prod.snd = cs := by
    intro kind cs
    rw [List.map_map]
    exact List.map_id cs
  cases op with
  | print message => exact (hsnd .stdout _).symm
  | printChar message => rfl
  | error message => exact (hsnd .stderr _).symm
  | flush => rfl
  | pool => rfl

theorem ConsoleOp.sent_notNul (op : ConsoleOp) (buffered : Bool) :
    (op.sent buffered).filter notNul = (op.sent false).filter notNul := by
  cases op with
  | printChar message =>
    cases buffered with
    | false => rfl
    | true =>
      by_cases h0 : message = 0
      · subst h0
        rfl
      · show ((msgStr message).chars.map _).filter notNul = _
        rw [msgStr_chars h0]
        rfl
  | print => rfl
  | error => rfl
  | flush => rfl
  | pool => rfl

/-- The serial port gets just what is emitted. -/
theorem logged_eq_emitted (tr : List (Console σ × ConsoleOp)) :
    logged tr = (emitted tr).map Prod.snd := by
  induction tr using List.reverseRecOn with
  | nil => rfl
  | append_singleton tr e ih =>
    rw [emitted, List.foldl_append, List.foldl_cons, List.foldl_nil, e.2.emit_eq, List.map_append,
      ← e.2.logged_eq, logged, List.flatMap_append, List.flatMap_singleton]
    exact congrArg (· ++ _) ih

/-- And so does the screen, with the NULs left aside. -/
theorem sent_eq_emitted (tr : List (Console σ × ConsoleOp)) :
    (sent tr).filter notNul = (emitted tr).filter notNul := by
  induction tr using List.reverseRecOn with
  | nil => rfl
  | append_singleton tr e ih =>
    rw [emitted, List.foldl_append, List.foldl_cons, List.foldl_nil, e.2.emit_eq,
      List.filter_append, ← e.2.sent_notNul e.1.pmemIsinit, sent, List.flatMap_append,
      List.flatMap_singleton, List.filter_append]
    exact congrArg (· ++ _) ih

/-! ## The flags of the buffer -/

variable {pmemAlloc : σ → Kern (UInt32 × σ)} {io io' : Io σ} {k k' : Console σ} {v : Vga}
  {m : Mem} {s : σ} {c : UInt8} {n : Nat} {pending : List UInt8} {message : CString}
  {sent₀ typed : Output}

/-- Neither of the two flags is the buffer's own business, once it is set up. -/
def SameFlags (b b' : StdioBuffer) : Prop :=
  b'.isInitializing = b.isInitializing ∧ b'.autoflushToScreen = b.autoflushToScreen

theorem ioBufferPop_flags (io : Io σ) : SameFlags io.inBuff (ioBufferPop io).2.inBuff := by
  unfold ioBufferPop
  split_ifs <;> exact ⟨rfl, rfl⟩

theorem ioBufferFlushLoop_flags (h : ioBufferFlushLoop n c io = .ok io') :
    SameFlags io.inBuff io'.inBuff := by
  induction n generalizing c io with
  | zero => cases h
  | succ n ih =>
    unfold ioBufferFlushLoop at h
    split at h
    · have hpop := ioBufferPop_flags (vgaPrintScreenChar c io)
      have hrest := ih h
      exact ⟨hrest.1.trans hpop.1, hrest.2.trans hpop.2⟩
    · obtain rfl := Except.ok.inj h
      exact ⟨rfl, rfl⟩

theorem ioBufferFlushToScreen_flags (h : ioBufferFlushToScreen io = .ok io') :
    SameFlags io.inBuff io'.inBuff := by
  have hpop := ioBufferPop_flags io
  have hrest := ioBufferFlushLoop_flags h
  exact ⟨hrest.1.trans hpop.1, hrest.2.trans hpop.2⟩

theorem ioBufferPlaceChar_flags (h : ioBufferPlaceChar c io = .ok io') :
    SameFlags io.inBuff io'.inBuff := by
  unfold ioBufferPlaceChar at h
  dsimp only at h
  split at h
  · obtain ⟨io₁, hflush, h⟩ := bind_eq_ok.mp h
    have hflags := ioBufferFlushToScreen_flags hflush
    split_ifs at h
    · exact absurd h (panic_ne_ok _ _)
    · exact absurd h (panic_ne_ok _ _)
    · obtain rfl := Except.ok.inj h
      exact hflags
  · rw [ok_bind] at h
    split_ifs at h
    · exact absurd h (panic_ne_ok _ _)
    · exact absurd h (panic_ne_ok _ _)
    · obtain rfl := Except.ok.inj h
      exact ⟨rfl, rfl⟩

theorem ioBufferPlaceLoop_flags {cs : List UInt8} (h : ioBufferPlaceLoop cs io = .ok io') :
    SameFlags io.inBuff io'.inBuff := by
  induction cs generalizing io with
  | nil =>
    obtain rfl := Except.ok.inj h
    exact ⟨rfl, rfl⟩
  | cons c cs ih =>
    obtain ⟨io₁, hchar, h⟩ := bind_eq_ok.mp h
    have hfirst := ioBufferPlaceChar_flags hchar
    have hrest := ih h
    exact ⟨hrest.1.trans hfirst.1, hrest.2.trans hfirst.2⟩

/-- The initialisation is over when the call returns. -/
theorem ioBufferPlace_flags (h : ioBufferPlace pmemAlloc message io = .ok io')
    (hsettled : io.inBuff.isInitializing = false) : SameFlags io.inBuff io'.inBuff := by
  obtain ⟨io₁, hinit, h⟩ := bind_eq_ok.mp h
  have hloop := ioBufferPlaceLoop_flags h
  unfold ioBufferInit at hinit
  split_ifs at hinit
  · exact absurd hinit (panic_ne_ok _ _)
  · obtain ⟨⟨bAddr, pmem⟩, -, hinit⟩ := bind_eq_ok.mp hinit
    obtain rfl := Except.ok.inj hinit
    exact ⟨hloop.1.trans hsettled.symm, hloop.2⟩
  · obtain rfl := Except.ok.inj hinit
    exact hloop

/-! ## Typing -/

/-- The colour that a stream is typed in. -/
def Stream.color : Stream → UInt8
  | .stdout => defaultTextColor
  | .stderr => defaultErrorColor

/-- The text when `out` is typed at its cursor, each character in the colour of its stream. -/
def typeOutput (out : Output) (t : Text Cell) : Text Cell :=
  out.foldl (fun t e => typeChar e.1.color e.2 t) t

theorem typeOutput_append (out out' : Output) (t : Text Cell) :
    typeOutput (out ++ out') t = typeOutput out' (typeOutput out t) := List.foldl_append

theorem typeOutput_map (stream : Stream) (cs : List UInt8) (t : Text Cell) :
    typeOutput (cs.map (Prod.mk stream)) t = Vga.typeText stream.color cs t := by
  unfold typeOutput Vga.typeText
  rw [List.foldl_map]

namespace Vga

variable {t : Text Cell} {color : UInt8}

theorem printScreenChar_shows (h : v.Shows t) (c color : UInt8) :
    (v.printScreenChar c color).Shows (typeChar (charColor color) c t) := by
  have h' : Shows { v with index := 15 } t := h
  obtain ⟨v', hok, -, hshows, -⟩ := shows_char h' c color
  have hcur : Vga.cursor { v with index := 15 } = v.cursor := rfl
  unfold printScreenChar
  rw [getCursorOffset_eq]
  dsimp only
  rw [toNat_cursorOffset h.1, ← hcur, hok]
  exact hshows

theorem foldl_printScreenChar_shows {cs : List UInt8} (h : v.Shows t) (color : UInt8) :
    (cs.foldl (fun v c => v.printScreenChar c color) v).Shows
      (typeText (charColor color) cs t) := by
  induction cs generalizing v t with
  | nil => exact h
  | cons c cs ih => exact ih (printScreenChar_shows h c color)

end Vga

/-! ## One operation -/

/-- Standard output waits in the buffer behind what is typed, standard error is typed. -/
structure ConsoleInv (v : Vga) (sent typed : Output) (pending : List UInt8) (k : Console σ) :
    Prop where
  stores : Stores k.out pending
  settled : k.out.inBuff.isInitializing = false
  auto : k.out.inBuff.autoflushToScreen = true
  blank : k.out.screen = []
  /-- before there are pages nothing is buffered -/
  early : k.pmemIsinit = false → pending = []
  delayed : Delayed .stdout 4095 sent typed pending
  shows : k.vga.Shows (typeOutput typed v.firstText)

namespace ConsoleInv

theorem boot (hcur : v.cursor < 2000) : ConsoleInv v [] [] [] (Console.boot m s v) where
  stores := boot_stores true m s
  settled := rfl
  auto := rfl
  blank := rfl
  early _ := rfl
  delayed := .nil
  shows := Vga.shows_first hcur

theorem log (h : ConsoleInv v sent₀ typed pending k) (message : List UInt8) :
    ConsoleInv v sent₀ typed pending (k.log message) :=
  ⟨h.stores, h.settled, h.auto, h.blank, h.early, h.delayed, h.shows⟩

theorem pool (h : ConsoleInv v sent₀ typed pending k) {ready : Bool} (s : σ)
    (hready : k.pmemIsinit = true → ready = true) : ConsoleInv v sent₀ typed pending
      { k with pmemIsinit := ready, out := { k.out with pmem := s } } where
  stores := ⟨h.stores.no_nul, h.stores.ring, h.stores.raw⟩
  settled := h.settled
  auto := h.auto
  blank := h.blank
  early hnot := h.early (Bool.not_eq_true _ ▸ fun hyes => by rw [hready hyes] at hnot; cases hnot)
  delayed := h.delayed
  shows := h.shows

/-- A call on the buffer that prints `shown` and leaves `rest`. -/
theorem onOut {f : Io σ → Kern (Io σ)} {cs shown rest : List UInt8}
    (h : ConsoleInv v sent₀ typed pending k) (hf : f k.out = .ok io') (hstores : Stores io' rest)
    (hflags : SameFlags k.out.inBuff io'.inBuff) (hscreen : io'.screen = k.out.screen ++ shown)
    (heq : shown ++ rest = pending ++ cs) (hearly : k.pmemIsinit = false → rest = []) :
    ∃ k', k.onOut f = .ok k' ∧ k'.serial = k.serial ∧ k'.pmemIsinit = k.pmemIsinit ∧
      ConsoleInv v (sent₀ ++ cs.map (Prod.mk .stdout)) (typed ++ shown.map (Prod.mk .stdout))
        rest k' := by
  rw [h.blank, List.nil_append] at hscreen
  have hlen : rest.length ≤ 4095 := by
    cases hinit : io'.inBuff.isInit with
    | true => exact Nat.le_of_lt_succ (hstores.ring hinit).2.room
    | false =>
      rw [(hstores.raw hinit).1]
      exact Nat.zero_le _
  refine ⟨_, bind_eq_ok.mpr ⟨io', hf, rfl⟩, rfl, rfl, ?_⟩
  refine ⟨⟨hstores.no_nul, hstores.ring, hstores.raw⟩, hflags.1.trans h.settled,
    hflags.2.trans h.auto, rfl, hearly, h.delayed.transfer (by decide) heq hlen, ?_⟩
  rw [typeOutput_append, typeOutput_map, hscreen]
  exact Vga.foldl_printScreenChar_shows h.shows defaultTextColor

/-- Output that is buffered. -/
theorem place (h : ConsoleInv v sent₀ typed pending k) (hinit : k.pmemIsinit = true)
    (hstart : k.out.CanStart pmemAlloc) (message : CString) :
    ∃ k', ∃ shown rest : List UInt8,
      k.onOut (ioBufferPlace pmemAlloc message) = .ok k' ∧ k'.serial = k.serial ∧
      ConsoleInv v (sent₀ ++ message.chars.map (Prod.mk .stdout))
        (typed ++ shown.map (Prod.mk .stdout)) rest k' := by
  obtain ⟨io', shown, rest, hplace, hstores, hscreen, heq⟩ :=
    h.stores.place_autoflush hstart h.auto message
  obtain ⟨k', hok, hserial, -, hinv⟩ := h.onOut hplace hstores
    (ioBufferPlace_flags hplace h.settled) hscreen heq
    (fun hnot => absurd (hinit.symm.trans hnot) Bool.noConfusion)
  exact ⟨k', shown, rest, hok, hserial, hinv⟩

/-- Flushing types what is pending. -/
theorem flush (h : ConsoleInv v sent₀ typed pending k) :
    ∃ k', k.stdlibFlushstdio = .ok k' ∧ k'.serial = k.serial ∧
      ConsoleInv v sent₀ (typed ++ pending.map (Prod.mk .stdout)) [] k' := by
  obtain ⟨io', hflush, hstores, hscreen, -⟩ := h.stores.flush
  obtain ⟨k', hok, hserial, -, hinv⟩ := h.onOut hflush hstores
    (ioBufferFlushToScreen_flags hflush) hscreen rfl (fun _ => rfl)
  rw [List.map_nil, List.append_nil] at hinv
  exact ⟨k', hok, hserial, hinv⟩

/-- Output that is typed at once: nothing is pending then. -/
theorem type (h : ConsoleInv v sent₀ typed pending k) (hinit : k.pmemIsinit = false) {v' : Vga}
    {cs : List UInt8} (hshows : v'.Shows (Vga.typeText defaultTextColor cs
      (typeOutput typed v.firstText))) :
    ConsoleInv v (sent₀ ++ cs.map (Prod.mk .stdout)) (typed ++ cs.map (Prod.mk .stdout)) []
      { k with vga := v' } := by
  obtain rfl := h.early hinit
  refine ⟨h.stores, h.settled, h.auto, h.blank, h.early,
    h.delayed.transfer (by decide) (List.append_nil cs) (Nat.zero_le _), ?_⟩
  rw [typeOutput_append, typeOutput_map]
  exact hshows

/-- An error is typed at once, whatever is pending. -/
theorem error (h : ConsoleInv v sent₀ typed pending k) (message : CString) :
    ConsoleInv v (sent₀ ++ message.chars.map (Prod.mk .stderr))
      (typed ++ message.chars.map (Prod.mk .stderr)) pending (k.stdError message) := by
  refine ⟨h.stores, h.settled, h.auto, h.blank, h.early,
    h.delayed.pass_all (by decide) message.chars, ?_⟩
  rw [typeOutput_append, typeOutput_map]
  exact (Vga.printScreen_shows h.shows message defaultErrorColor).1

theorem stdPrint_eq (h : ConsoleInv v sent₀ typed pending k) (message : CString) :
    k.stdPrint pmemAlloc message =
      if k.pmemIsinit then (k.log message.chars).onOut (ioBufferPlace pmemAlloc message)
      else .ok { k.log message.chars with
        vga := k.vga.printScreen message defaultTextColor } := by
  have hflag : (k.pmemIsinit && !k.out.inBuff.isInitializing) = k.pmemIsinit := by
    rw [h.settled, Bool.not_false, Bool.and_true]
  exact congrArg (fun b : Bool => if b then _ else _) hflag

theorem stdPrintChar_eq (h : ConsoleInv v sent₀ typed pending k) (c : UInt8) :
    k.stdPrintChar pmemAlloc c =
      if k.pmemIsinit then (k.log [c]).onOut (ioBufferPlace pmemAlloc (msgStr c))
      else .ok { k.log [c] with vga := k.vga.printScreenChar c defaultTextColor } := by
  have hflag : (k.pmemIsinit && !k.out.inBuff.isInitializing) = k.pmemIsinit := by
    rw [h.settled, Bool.not_false, Bool.and_true]
  exact congrArg (fun b : Bool => if b then _ else _) hflag

/-- `std_print` returns, when the buffer has its page or can get one. -/
theorem stdPrint (h : ConsoleInv v sent₀ typed pending k)
    (hstart : k.pmemIsinit = true → k.out.CanStart pmemAlloc) (message : CString) :
    ∃ k', ∃ shown rest : List UInt8, k.stdPrint pmemAlloc message = .ok k' ∧
      k'.serial = k.serial ++ message.chars ∧
      ConsoleInv v (sent₀ ++ message.chars.map (Prod.mk .stdout))
        (typed ++ shown.map (Prod.mk .stdout)) rest k' := by
  have hlog := h.log message.chars
  rw [h.stdPrint_eq]
  by_cases hinit : k.pmemIsinit = true
  · rw [if_pos hinit]
    exact hlog.place hinit (hstart hinit) message
  · rw [if_neg hinit]
    have hshows := (Vga.printScreen_shows hlog.shows message defaultTextColor).1
    exact ⟨_, message.chars, [], rfl, rfl, hlog.type (Bool.eq_false_iff.mpr hinit) hshows⟩

theorem stdPrintChar (h : ConsoleInv v sent₀ typed pending k)
    (hstart : k.pmemIsinit = true → k.out.CanStart pmemAlloc) (c : UInt8) :
    ∃ k', ∃ shown rest : List UInt8, k.stdPrintChar pmemAlloc c = .ok k' ∧
      k'.serial = k.serial ++ [c] ∧
      ConsoleInv v (sent₀ ++ (ConsoleOp.printChar c).sent k.pmemIsinit)
        (typed ++ shown.map (Prod.mk .stdout)) rest k' := by
  have hlog := h.log [c]
  rw [h.stdPrintChar_eq, ConsoleOp.sent]
  by_cases hinit : k.pmemIsinit = true
  · rw [if_pos hinit, if_pos hinit]
    exact hlog.place hinit (hstart hinit) (msgStr c)
  · rw [if_neg hinit, if_neg hinit]
    have hshows := Vga.printScreenChar_shows hlog.shows c defaultTextColor
    exact ⟨_, [c], [], rfl, rfl, hlog.type (Bool.eq_false_iff.mpr hinit) hshows⟩

/-- A call on the buffer that returned had a page, if it needed one. -/
theorem canStart (h : ConsoleInv v sent₀ typed pending k)
    (hplace : k.onOut (ioBufferPlace pmemAlloc message) = .ok k') : k.out.CanStart pmemAlloc := by
  obtain ⟨io, hplace, -⟩ := bind_eq_ok.mp hplace
  exact h.stores.canStart hplace

end ConsoleInv

/-- **One operation** adds to what is typed, and leaves the rest of what was sent pending. -/
theorem ConsoleInv.step {op : ConsoleOp} (h : ConsoleInv v sent₀ typed pending k)
    (hs : ConsoleStep pmemAlloc k op k') : ∃ shown rest,
    ConsoleInv v (sent₀ ++ op.sent k.pmemIsinit) (typed ++ shown) rest k' ∧
      k'.serial = k.serial ++ op.logged := by
  cases hs with
  | @print _ message hprint =>
    have hstart : k.pmemIsinit = true → k.out.CanStart pmemAlloc := by
      intro hinit
      rw [h.stdPrint_eq, if_pos hinit] at hprint
      exact (h.log message.chars).canStart hprint
    obtain ⟨k₁, shown, rest, hok, hserial, hinv⟩ := h.stdPrint hstart message
    obtain rfl := Except.ok.inj (hprint.symm.trans hok)
    exact ⟨_, rest, hinv, hserial⟩
  | @printChar _ c hprint =>
    have hstart : k.pmemIsinit = true → k.out.CanStart pmemAlloc := by
      intro hinit
      rw [h.stdPrintChar_eq, if_pos hinit] at hprint
      exact (h.log [c]).canStart hprint
    obtain ⟨k₁, shown, rest, hok, hserial, hinv⟩ := h.stdPrintChar hstart c
    obtain rfl := Except.ok.inj (hprint.symm.trans hok)
    exact ⟨_, rest, hinv, hserial⟩
  | error => exact ⟨_, pending, h.error _, rfl⟩
  | flush hflush =>
    obtain ⟨k₁, hok, hserial, hinv⟩ := h.flush
    obtain rfl := Except.ok.inj (hflush.symm.trans hok)
    refine ⟨pending.map (Prod.mk .stdout), [], ?_, ?_⟩
    · rw [ConsoleOp.sent, List.append_nil]
      exact hinv
    · rw [ConsoleOp.logged, List.append_nil]
      exact hserial
  | pool hready =>
    refine ⟨[], pending, ?_, ?_⟩
    · rw [ConsoleOp.sent, List.append_nil, List.append_nil]
      exact h.pool _ hready
    · rw [ConsoleOp.logged, List.append_nil]

/-! ## Runs -/

theorem console_inv (hcur : v.cursor < 2000) {tr : List (Console σ × ConsoleOp)}
    (hrun : Trace (ConsoleStep pmemAlloc) (Console.boot m s v) tr k) :
    ∃ typed pending, ConsoleInv v (sent tr) typed pending k ∧ k.serial = logged tr := by
  induction hrun with
  | start => exact ⟨[], [], .boot hcur, rfl⟩
  | next _ hs ih =>
    obtain ⟨typed, pending, hinv, hserial⟩ := ih
    obtain ⟨shown, rest, hinv', hserial'⟩ := hinv.step hs
    refine ⟨typed ++ shown, rest, ?_, ?_⟩
    · rw [sent, List.flatMap_append, List.flatMap_singleton]
      exact hinv'
    · rw [hserial', hserial, logged, logged, List.flatMap_append, List.flatMap_singleton]

/-- What the screen and the buffer hold of what was sent. -/
structure Console.Delivers (v : Vga) (sent : Output) (k : Console σ) (typed : Output)
    (pending : List UInt8) : Prop where
  /-- the screen is a window on what is typed -/
  shows : k.vga.Shows (typeOutput typed v.firstText)
  stored : k.out.stored = pending
  room : pending.length ≤ 4095
  stdout : ofKind .stdout typed ++ pending = ofKind .stdout sent
  stderr : ofKind .stderr typed = ofKind .stderr sent
  /-- an error is in front of 4095 characters of output at most that were sent before it -/
  overtakes : ∀ t c t', typed = t ++ (.stderr, c) :: t' → ∃ s s' p,
    sent = s ++ (.stderr, c) :: s' ∧ p.length ≤ 4095 ∧
      ofKind .stdout t ++ p = ofKind .stdout s ∧ ofKind .stderr t = ofKind .stderr s

theorem ConsoleInv.delivers (h : ConsoleInv v sent₀ typed pending k) :
    k.Delivers v sent₀ typed pending where
  shows := h.shows
  stored := h.stores.stored_eq
  room := h.delayed.length_le
  stdout := h.delayed.queued
  stderr := h.delayed.direct (by decide)
  overtakes t c t' heq := by
    obtain ⟨s, s', p, hsent, hp, hout, herr⟩ := h.delayed.overtakes (by decide) heq
    exact ⟨s, s', p, hsent, hp, hout, herr .stderr (by decide)⟩

/-- **The console.**  In every state of a run from boot, the screen is a window on a text in
which output and errors each stand in the order they were sent; what is missing is pending in
the buffer, and one flush types it.  The serial port has everything; a panic comes right
behind what is typed. -/
theorem console_delivers (hcur : v.cursor < 25 * 80) {tr : List (Console σ × ConsoleOp)}
    (hrun : Trace (ConsoleStep pmemAlloc) (Console.boot m s v) tr k) :
    k.serial = logged tr ∧ ∃ typed pending, k.Delivers v (sent tr) typed pending ∧
      (∃ k', k.stdlibFlushstdio = .ok k' ∧
        k'.Delivers v (sent tr) (typed ++ pending.map (Prod.mk .stdout)) []) ∧
      ∀ message : CString, (k.panicScreen message).Shows
        (typeOutput (typed ++ ([0x0A] ++ Console.kernelPanic.chars ++ message.chars).map
          (Prod.mk .stderr)) v.firstText) := by
  obtain ⟨typed, pending, hinv, hserial⟩ := console_inv hcur hrun
  obtain ⟨k', hflush, -, hinv'⟩ := hinv.flush
  refine ⟨hserial, typed, pending, hinv.delivers, ⟨k', hflush, hinv'.delivers⟩, ?_⟩
  intro message
  rw [typeOutput_append, typeOutput_map, Vga.typeText, List.foldl_append, List.foldl_append]
  have hnewline := (Vga.printScreen_shows hinv.shows ⟨[0x0A], by decide⟩ defaultErrorColor).1
  have hpanic := (Vga.printScreen_shows hnewline Console.kernelPanic defaultErrorColor).1
  exact (Vga.printScreen_shows hpanic message defaultErrorColor).1

/-- An `a` before there are pages, then a `b` that an error overtakes. -/
theorem console_delivers_overtaken : ∃ tr k,
    Trace (ConsoleStep pagesUpward) (Console.boot (fun _ => 0) 1 cornerScreen) tr k ∧
    sent tr = [(.stdout, 0x61), (.stdout, 0x62), (.stderr, 0x21)] ∧
    k.serial = [0x61, 0x62, 0x21] ∧
    ∃ typed, k.Delivers cornerScreen (sent tr) typed [0x62] := by
  have h₀ : Trace (ConsoleStep pagesUpward) (Console.boot (fun _ => 0) 1 cornerScreen) [] _ :=
    .start
  have h₁ := h₀.next (@ConsoleStep.print _ _ _ _ ⟨[0x61], by decide⟩ rfl)
  have h₂ := h₁.next (@ConsoleStep.pool _ _ _ true 1 fun _ => rfl)
  have h₃ := h₂.next (@ConsoleStep.printChar _ _ _ _ 0x62 rfl)
  have h₄ := h₃.next (@ConsoleStep.error _ _ _ ⟨[0x21], by decide⟩)
  obtain ⟨hserial, typed, pending, hdelivers, -⟩ := console_delivers (by decide) h₄
  obtain rfl := hdelivers.stored
  exact ⟨_, _, h₄, rfl, hserial, typed, hdelivers⟩

end KoizOs
