import KoizOs.Io.Stdio
import KoizOs.Lib.Run
import KoizOs.Memory.Pmem

/-!
# The stream buffer is a queue

A run of `io_buffer_place`, `io_buffer_pop` and `io_buffer_flush_to_screen`, with two ghost
lists: what was placed, and what left the buffer, popped or printed.

    what left, then what is stored  =  what was placed

A message is refused when `pmem_alloc` has no page for the first of them, or when it does
not fit and nothing may be flushed.
-/

namespace KoizOs

open Lib

inductive IoOp where
  | place (message : CString)
  | pop
  | flush

/-- The buffer, and the characters that were placed and that left so far. -/
structure IoRun (σ : Type) where
  io : Io σ
  placed : List UInt8
  left : List UInt8

variable {σ : Type}

/-- One call that returned.  What it printed is what it added to the screen. -/
inductive IoStep (pmemAlloc : σ → Kern (UInt32 × σ)) : IoRun σ → IoOp → IoRun σ → Prop
  | place {io io' : Io σ} {placed left shown : List UInt8} {message : CString} :
      ioBufferPlace pmemAlloc message io = .ok io' → io'.screen = io.screen ++ shown →
      IoStep pmemAlloc ⟨io, placed, left⟩ (.place message)
        ⟨io', placed ++ message.chars, left ++ shown⟩
  | pop {io : Io σ} {placed left : List UInt8} :
      IoStep pmemAlloc ⟨io, placed, left⟩ .pop
        ⟨(ioBufferPop io).2, placed, left ++ (msgStr (ioBufferPop io).1).chars⟩
  | flush {io io' : Io σ} {placed left shown : List UInt8} :
      ioBufferFlushToScreen io = .ok io' → io'.screen = io.screen ++ shown →
      IoStep pmemAlloc ⟨io, placed, left⟩ .flush ⟨io', placed, left ++ shown⟩

/-- The buffer has its page, or can get one. -/
def Io.CanStart (pmemAlloc : σ → Kern (UInt32 × σ)) (io : Io σ) : Prop :=
  io.inBuff.isInit = true ∨ ∃ q t, pmemAlloc io.pmem = .ok (q, t)

variable {pmemAlloc : σ → Kern (UInt32 × σ)} {io io' : Io σ} {xs shown : List UInt8}
  {message : CString} {x y : IoRun σ} {op : IoOp}

namespace Stores

/-- Without a page nothing is placed, and the call ends as `pmem_alloc` does. -/
theorem place_no_page {e : Fault} (h : Stores io xs) (hinit : io.inBuff.isInit = false)
    (he : pmemAlloc io.pmem = .error e) : ioBufferPlace pmemAlloc message io = .error e := by
  have hi := h.init pmemAlloc
  rw [hinit, if_neg Bool.false_ne_true, he] at hi
  unfold ioBufferPlace
  rw [hi]
  rfl

/-- Placing is the loop over the message, on a buffer that has its page. -/
theorem place_eq (h : Stores io xs) (hstart : io.CanStart pmemAlloc) (message : CString) :
    ∃ io₁, ioBufferPlace pmemAlloc message io = ioBufferPlaceLoop message.chars io₁ ∧
      Stores io₁ xs ∧ io₁.screen = io.screen ∧ io₁.inBuff.isInit = true ∧
      io₁.inBuff.autoflushToScreen = io.inBuff.autoflushToScreen := by
  have hi := h.init pmemAlloc
  unfold ioBufferPlace
  cases hinit : io.inBuff.isInit with
  | true =>
    rw [hinit, if_pos rfl] at hi
    rw [hi]
    exact ⟨io, rfl, h, rfl, hinit, rfl⟩
  | false =>
    rcases hstart with hinit' | ⟨q, t, hq⟩
    · rw [hinit] at hinit'
      cases hinit'
    · rw [hinit, if_neg Bool.false_ne_true, hq] at hi
      obtain ⟨io₁, hok, hrest⟩ := hi
      rw [hok]
      exact ⟨io₁, rfl, hrest⟩

/-- With autoflush every message is placed. -/
theorem place_autoflush (h : Stores io xs) (hstart : io.CanStart pmemAlloc)
    (hauto : io.inBuff.autoflushToScreen = true) (message : CString) :
    ∃ io' shown ys, ioBufferPlace pmemAlloc message io = .ok io' ∧ Stores io' ys ∧
      io'.screen = io.screen ++ shown ∧ shown ++ ys = xs ++ message.chars := by
  obtain ⟨io₁, heq, h₁, hscreen, hinit, hauto₁⟩ := h.place_eq hstart message
  rw [heq, ← hscreen]
  exact h₁.placeLoop_autoflush hinit (hauto₁.trans hauto) message.no_nul

/-- Without it the message has to fit. -/
theorem place_plain (h : Stores io xs) (hstart : io.CanStart pmemAlloc)
    (hauto : io.inBuff.autoflushToScreen = false) (message : CString) :
    if xs.length + message.chars.length ≤ 4095 then
      ∃ io', ioBufferPlace pmemAlloc message io = .ok io' ∧ Stores io' (xs ++ message.chars) ∧
        io'.screen = io.screen ∧ io'.inBuff.autoflushToScreen = false
    else ioBufferPlace pmemAlloc message io = panic ioBufferOverflow := by
  obtain ⟨io₁, heq, h₁, hscreen, hinit, hauto₁⟩ := h.place_eq hstart message
  rw [heq, ← hscreen]
  exact h₁.placeLoop_plain hinit (hauto₁.trans hauto) message.no_nul

/-- A call that returned had a page. -/
theorem canStart (h : Stores io xs) (hplace : ioBufferPlace pmemAlloc message io = .ok io') :
    io.CanStart pmemAlloc := by
  cases hinit : io.inBuff.isInit with
  | true => exact .inl hinit
  | false =>
    cases hq : pmemAlloc io.pmem with
    | ok r => exact .inr ⟨r.1, r.2, hq⟩
    | error e =>
      rw [h.place_no_page hinit hq] at hplace
      cases hplace

/-- A call that returned without autoflush placed its message behind what was stored. -/
theorem place_behind (h : Stores io xs) (hauto : io.inBuff.autoflushToScreen = false)
    (hplace : ioBufferPlace pmemAlloc message io = .ok io') :
    Stores io' (xs ++ message.chars) ∧ io'.screen = io.screen ∧
      io'.inBuff.autoflushToScreen = false := by
  have hplain := h.place_plain (h.canStart hplace) hauto message
  split at hplain
  · obtain ⟨io₁, hok, hrest⟩ := hplain
    obtain rfl := Except.ok.inj (hplace.symm.trans hok)
    exact hrest
  · rw [hplain] at hplace
    exact absurd hplace (panic_ne_ok _ _)

/-- A call that placed its message lost nothing. -/
theorem place_conserves (h : Stores io xs) (hplace : ioBufferPlace pmemAlloc message io = .ok io')
    (hscreen : io'.screen = io.screen ++ shown) :
    ∃ ys, Stores io' ys ∧ shown ++ ys = xs ++ message.chars := by
  cases hauto : io.inBuff.autoflushToScreen with
  | true =>
    obtain ⟨io₁, shown₁, ys, hok, hys, hscreen₁, heq⟩ :=
      h.place_autoflush (h.canStart hplace) hauto message
    obtain rfl := Except.ok.inj (hplace.symm.trans hok)
    rw [hscreen₁] at hscreen
    rw [← List.append_cancel_left hscreen]
    exact ⟨ys, hys, heq⟩
  | false =>
    obtain ⟨hys, hscreen₁, -⟩ := h.place_behind hauto hplace
    rw [hscreen₁] at hscreen
    obtain rfl := List.self_eq_append_right.mp hscreen
    exact ⟨_, hys, rfl⟩

end Stores

/-! ## Runs -/

/-- What left, then what is stored, is what was placed. -/
def Lossless (x : IoRun σ) : Prop := ∃ xs, Stores x.io xs ∧ x.left ++ xs = x.placed

theorem Lossless.step (h : Lossless x) (hs : IoStep pmemAlloc x op y) : Lossless y := by
  obtain ⟨xs, hxs, heq⟩ := h
  cases hs with
  | @place io io' placed left shown message hplace hscreen =>
    obtain ⟨ys, hys, hcons⟩ := hxs.place_conserves hplace hscreen
    refine ⟨ys, hys, ?_⟩
    show left ++ shown ++ ys = placed ++ message.chars
    rw [List.append_assoc, hcons, ← List.append_assoc]
    exact congrArg (· ++ message.chars) heq
  | @pop io placed left =>
    cases xs with
    | nil =>
      have hpop : ioBufferPop io = (0, io) := hxs.pop_nil
      rw [hpop]
      refine ⟨[], hxs, ?_⟩
      rw [← heq]
      exact List.append_nil _
    | cons c xs =>
      obtain ⟨io', hpop, hrest, -⟩ := hxs.pop
      have hpop : ioBufferPop io = (c, io') := hpop
      have hc : c ≠ 0 := by
        rintro rfl
        exact hxs.no_nul List.mem_cons_self
      rw [hpop]
      refine ⟨xs, hrest, ?_⟩
      rw [← heq]
      show left ++ (msgStr c).chars ++ xs = left ++ c :: xs
      rw [msgStr_chars hc, List.append_assoc]
      rfl
  | @flush io io' placed left shown hflush hscreen =>
    obtain ⟨io₁, hok, hempty, hscreen₁, -⟩ := hxs.flush
    obtain rfl := Except.ok.inj (hflush.symm.trans hok)
    rw [hscreen₁] at hscreen
    obtain rfl := List.append_cancel_left hscreen
    refine ⟨[], hempty, ?_⟩
    rw [← heq]
    exact List.append_nil _

/-- **A lossless queue.** In every state of a run from a zeroed buffer, what left it and
what is stored are what was placed, in order; popping and flushing succeed, and placing
does too, unless the buffer cannot get its page, or it may not flush and the message does
not fit beside what is stored. -/
theorem io_buffer_fifo {autoflush : Bool} {m : Mem} {s : σ} {tr : List (IoRun σ × IoOp)}
    (htr : Trace (IoStep pmemAlloc) ⟨Io.boot autoflush m s, [], []⟩ tr x) :
    x.left ++ x.io.stored = x.placed ∧ (∃ y, IoStep pmemAlloc x .pop y) ∧
      (∃ y, IoStep pmemAlloc x .flush y) ∧
      ∀ message,
        (x.io.CanStart pmemAlloc →
          if x.io.inBuff.autoflushToScreen then ∃ y, IoStep pmemAlloc x (.place message) y
          else if x.io.stored.length + message.chars.length ≤ 4095 then
            ∃ y, IoStep pmemAlloc x (.place message) y
          else ioBufferPlace pmemAlloc message x.io = panic ioBufferOverflow) ∧
        ∀ e, x.io.inBuff.isInit = false → pmemAlloc x.io.pmem = .error e →
          ioBufferPlace pmemAlloc message x.io = .error e := by
  obtain ⟨xs, hxs, heq⟩ : Lossless x :=
    (htr.invariant ⟨[], boot_stores autoflush m s, rfl⟩ fun _ _ _ h hs => h.step hs).1
  rw [hxs.stored_eq]
  obtain ⟨io, placed, left⟩ := x
  refine ⟨heq, ⟨_, .pop⟩, ?_, ?_⟩
  · obtain ⟨io', hok, -, hscreen, -⟩ := hxs.flush
    exact ⟨_, .flush hok hscreen⟩
  · intro message
    refine ⟨?_, fun e hinit he => hxs.place_no_page hinit he⟩
    intro hstart
    cases hauto : io.inBuff.autoflushToScreen with
    | true =>
      rw [if_pos rfl]
      obtain ⟨io', shown, -, hok, -, hscreen, -⟩ := hxs.place_autoflush hstart hauto
        message
      exact ⟨_, .place hok hscreen⟩
    | false =>
      rw [if_neg Bool.false_ne_true]
      have hplain := hxs.place_plain hstart hauto message
      split at hplain
      · next hfits =>
        obtain ⟨io', hok, -, hscreen, -⟩ := hplain
        rw [if_pos hfits]
        exact ⟨_, .place hok (hscreen.trans (List.append_nil _).symm)⟩
      · next hfits =>
        rw [if_neg hfits]
        exact hplain

theorem io_buffer_fifo_one : ∃ io : Io Nat,
    ioBufferPlace pagesUpward ⟨[72, 105], by decide⟩ (Io.boot false (fun _ => 0) 1) = .ok io ∧
    (ioBufferPop io).1 = 72 ∧ [72] ++ (ioBufferPop io).2.stored = [72, 105] := by
  have hplace : IoStep pagesUpward ⟨Io.boot false (fun _ => 0) 1, [], []⟩
      (.place ⟨[72, 105], by decide⟩) ⟨_, [72, 105], []⟩ := .place rfl (List.append_nil _).symm
  exact ⟨_, rfl, rfl, (io_buffer_fifo ((Trace.start.next hplace).next .pop)).1⟩

/-- The standard output before its first message, when every page is taken. -/
theorem io_buffer_no_page :
    ioBufferPlace KoizOs.pmemAlloc ⟨[72, 105], by decide⟩
      (Io.boot true (fun _ => 0) ⟨true, 0x100000, 8192, 0x101000, 2, 0, fun _ => 1⟩) =
    panic "out of memory!" := rfl

end KoizOs
