import KoizOs.Kernel.Basic
import KoizOs.Lib.Ring

/-!
# The stream buffer

A ring of 4096 bytes in a page that the first `io_buffer_place` allocates.  Indices are
natural numbers, flags are `Bool`; what goes to the screen is the list `screen`.

| result | content |
|--------|---------|
| `Stores.pop`, `Stores.flush` | characters leave in order |
| `Stores.placeLoop_autoflush` | a message of any length is placed, what is in its way flushed |
| `Stores.placeLoop_plain` | without autoflush it has to fit |
-/

namespace KoizOs

open Function Lib

structure StdioBuffer where
  isInitializing : Bool
  isInit : Bool
  bAddr : UInt32
  headPtr : Nat
  tailPtr : Nat
  bSize : Nat
  autoflushToScreen : Bool

/-- A buffer, the memory, what was printed on the screen and the state of `pmem_alloc`. -/
structure Io (σ : Type) where
  inBuff : StdioBuffer
  mem : Mem
  screen : List UInt8
  pmem : σ

variable {σ : Type}

/-- A zeroed `stdio_buffer_t`, apart from the autoflush flag. -/
def Io.boot (autoflush : Bool) (m : Mem) (s : σ) : Io σ where
  inBuff := ⟨false, false, 0, 0, 0, 0, autoflush⟩
  mem := m
  screen := []
  pmem := s

/-! ## Algorithm -/

def ioBufferEmpty (inBuff : StdioBuffer) : Bool := inBuff.headPtr = inBuff.tailPtr

def ioBufferPop (io : Io σ) : UInt8 × Io σ :=
  if !io.inBuff.isInit then (0, io)
  else if ioBufferEmpty io.inBuff then (0, io)
  else (io.mem (io.inBuff.bAddr + UInt32.ofNat io.inBuff.tailPtr),
    { io with inBuff :=
      { io.inBuff with tailPtr := (io.inBuff.tailPtr + 1) % io.inBuff.bSize } })

def vgaPrintScreenChar (c : UInt8) (io : Io σ) : Io σ := { io with screen := io.screen ++ [c] }

/-- The while loop, for at most `n` characters; `nextChar` has been popped. -/
def ioBufferFlushLoop : (n : Nat) → (nextChar : UInt8) → Io σ → Kern (Io σ)
  | 0, _, _ => .error .hang
  | n + 1, nextChar, io =>
    if nextChar ≠ 0 then
      let (nextChar, io) := ioBufferPop (vgaPrintScreenChar nextChar io)
      ioBufferFlushLoop n nextChar io
    else .ok io

def ioBufferFlushToScreen (io : Io σ) : Kern (Io σ) :=
  let (nextChar, io) := ioBufferPop io
  ioBufferFlushLoop (io.inBuff.bSize + 1) nextChar io

def ioBufferOverflow : String :=
  "StdLib IO Buffer overflow! TODO: Flush what we have at this point automatically! " ++
    "Log to overflows! "

/-- One round of the loop over the message. -/
def ioBufferPlaceChar (c : UInt8) (io : Io σ) : Kern (Io σ) := do
  let nextHeadPtr := (io.inBuff.headPtr + 1) % io.inBuff.bSize
  let io ←
    if nextHeadPtr = io.inBuff.tailPtr ∧ io.inBuff.autoflushToScreen then ioBufferFlushToScreen io
    else .ok io
  if nextHeadPtr ≠ (io.inBuff.headPtr + 1) % io.inBuff.bSize then
    panic "next_head_ptr mutated unexpectedly"
  else
    let io := { io with
      mem := update io.mem (io.inBuff.bAddr + UInt32.ofNat io.inBuff.headPtr) c
      inBuff := { io.inBuff with headPtr := nextHeadPtr } }
    if io.inBuff.headPtr = io.inBuff.tailPtr then
      panic ioBufferOverflow
    else .ok io

def ioBufferPlaceLoop : (message : List UInt8) → Io σ → Kern (Io σ)
  | [], io => .ok io
  | c :: message, io => do
    let io ← ioBufferPlaceChar c io
    ioBufferPlaceLoop message io

/-- `msg_str`, the string of one character, or of none when that is NUL. -/
def msgStr (character : UInt8) : CString where
  chars := if character = 0 then [] else [character]
  no_nul := by
    split
    · exact List.not_mem_nil
    · next h => exact fun hmem => h (List.mem_singleton.mp hmem).symm

theorem msgStr_chars {c : UInt8} (hc : c ≠ 0) : (msgStr c).chars = [c] := if_neg hc

section PageSource

variable (pmemAlloc : σ → Kern (UInt32 × σ))

/-- The lazy initialisation. -/
def ioBufferInit (io : Io σ) : Kern (Io σ) :=
  if !io.inBuff.isInit then
    if io.inBuff.isInitializing then panic "io_buffer_place infinite loop detected!"
    else do
      let (bAddr, pmem) ← pmemAlloc io.pmem
      return { io with
        inBuff := { io.inBuff with
          bAddr := bAddr, bSize := physBlockSize.toNat, isInit := true, isInitializing := false }
        pmem := pmem }
  else .ok io

def ioBufferPlace (message : CString) (io : Io σ) : Kern (Io σ) := do
  let io ← ioBufferInit pmemAlloc io
  ioBufferPlaceLoop message.chars io

/-- `io` is the standard input; the two flags are `pmem_isinit` and `is_initializing` of the
standard output. -/
def stdlibPutStdioInputChar (pmemIsinit outputInitializing : Bool) (character : UInt8)
    (io : Io σ) : Kern (Io σ) :=
  if pmemIsinit && !outputInitializing then ioBufferPlace pmemAlloc (msgStr character) io
  else .ok io

end PageSource

def stdlibPopStdioInputChar (pmemIsinit : Bool) (io : Io σ) : UInt8 × Io σ :=
  if pmemIsinit && io.inBuff.isInit then ioBufferPop io else (0, io)

/-! ## What is stored -/

/-- The page of the buffer, as slots. -/
def Io.slot (io : Io σ) (k : Nat) : UInt8 := io.mem (io.inBuff.bAddr + UInt32.ofNat k)

/-- The characters stored. -/
def Io.stored (io : Io σ) : List UInt8 :=
  Ring.content io.slot io.inBuff.bSize io.inBuff.headPtr io.inBuff.tailPtr

/-- The buffer stores the characters `xs`. -/
structure Stores (io : Io σ) (xs : List UInt8) : Prop where
  no_nul : 0 ∉ xs
  ring : io.inBuff.isInit = true →
    io.inBuff.bSize = 4096 ∧ Ring io.slot 4096 io.inBuff.headPtr io.inBuff.tailPtr xs
  raw : io.inBuff.isInit = false → xs = [] ∧ io.inBuff.isInitializing = false ∧
    io.inBuff.headPtr = 0 ∧ io.inBuff.tailPtr = 0 ∧ io.inBuff.bSize = 0

variable {io io' : Io σ} {xs : List UInt8} {c : UInt8} {pmemAlloc : σ → Kern (UInt32 × σ)}

theorem boot_stores (autoflush : Bool) (m : Mem) (s : σ) : Stores (Io.boot autoflush m s) [] where
  no_nul := List.not_mem_nil
  ring h := by cases h
  raw _ := ⟨rfl, rfl, rfl, rfl, rfl⟩

/-- A slot store, seen as slots. -/
theorem update_slot {m : Mem} {a : UInt32} {k j : Nat} (hk : k < 4096) (hj : j < 4096) :
    update m (a + UInt32.ofNat k) c (a + UInt32.ofNat j) =
      update (fun i => m (a + UInt32.ofNat i)) k c j := by
  by_cases hjk : j = k
  · rw [hjk, update_self, update_self]
  · rw [update_of_ne hjk, update_of_ne]
    intro heq
    have := congrArg UInt32.toNat ((UInt32.add_right_inj a).mp heq)
    rw [UInt32.toNat_ofNat', UInt32.toNat_ofNat'] at this
    omega

namespace Stores

theorem stored_eq (h : Stores io xs) : io.stored = xs := by
  unfold Io.stored
  cases hinit : io.inBuff.isInit with
  | true =>
    obtain ⟨hsize, hring⟩ := h.ring hinit
    rw [hsize]
    exact hring.content_eq
  | false =>
    obtain ⟨rfl, -, hhead, htail, hsize⟩ := h.raw hinit
    rw [hsize, hhead, htail]
    rfl

theorem unique {ys : List UInt8} (h : Stores io xs) (h' : Stores io ys) : xs = ys :=
  h.stored_eq.symm.trans h'.stored_eq

/-- Printing touches the screen only. -/
theorem print (h : Stores io xs) (c : UInt8) : Stores (vgaPrintScreenChar c io) xs :=
  ⟨h.no_nul, h.ring, h.raw⟩

theorem isInit_of_mem (h : Stores io xs) (hc : c ∈ xs) : io.inBuff.isInit = true := by
  by_contra hinit
  obtain ⟨rfl, -⟩ := h.raw (Bool.not_eq_true _ ▸ hinit)
  exact absurd hc List.not_mem_nil

/-- No more is stored than the ring has slots. -/
theorem length_le (h : Stores io xs) : xs.length ≤ io.inBuff.bSize := by
  cases hinit : io.inBuff.isInit with
  | true =>
    obtain ⟨hsize, hring⟩ := h.ring hinit
    rw [hsize]
    exact Nat.le_of_lt hring.room
  | false =>
    rw [(h.raw hinit).1]
    exact Nat.zero_le _

theorem pop_nil (h : Stores io []) : ioBufferPop io = (0, io) := by
  unfold ioBufferPop
  cases hinit : io.inBuff.isInit with
  | true =>
    have hempty := (h.ring hinit).2.empty_iff.mpr rfl
    simp [ioBufferEmpty, hempty]
  | false => rfl

/-- The buffer with the first character gone. -/
theorem pop (h : Stores io (c :: xs)) : ∃ io', ioBufferPop io = (c, io') ∧ Stores io' xs ∧
    io'.screen = io.screen ∧ io'.pmem = io.pmem ∧
    io'.inBuff = { io.inBuff with tailPtr := io'.inBuff.tailPtr } := by
  have hinit := h.isInit_of_mem List.mem_cons_self
  obtain ⟨hsize, hring⟩ := h.ring hinit
  obtain ⟨hslot, hpop⟩ := hring.pop
  have hne : io.inBuff.headPtr ≠ io.inBuff.tailPtr := by
    rw [ne_eq, hring.empty_iff]
    exact List.cons_ne_nil c xs
  refine ⟨{ io with inBuff := { io.inBuff with tailPtr := (io.inBuff.tailPtr + 1) % 4096 } },
    ?_, ⟨?_, fun _ => ⟨hsize, hpop⟩, ?_⟩, rfl, rfl, rfl⟩
  · unfold ioBufferPop
    rw [← hslot, hsize]
    simp [ioBufferEmpty, hne, hinit, Io.slot]
  · exact fun hmem => h.no_nul (List.mem_cons_of_mem c hmem)
  · intro hraw
    exact absurd hraw (by simp [hinit])

/-- The flush loop drains the buffer, given a round for each character. -/
theorem flushLoop {n : Nat} (h : Stores io xs) (hn : xs.length ≤ n) :
    ∃ io', ioBufferFlushLoop (n + 1) (ioBufferPop io).1 (ioBufferPop io).2 = .ok io' ∧
      Stores io' [] ∧ io'.screen = io.screen ++ xs ∧
      io'.inBuff = { io.inBuff with tailPtr := io'.inBuff.tailPtr } := by
  induction xs generalizing n io with
  | nil =>
    rw [h.pop_nil]
    exact ⟨io, rfl, h, (List.append_nil _).symm, rfl⟩
  | cons c xs ih =>
    obtain ⟨io₁, hpop, hrest, hscreen, -, hbuff⟩ := h.pop
    have hc : c ≠ 0 := by
      rintro rfl
      exact h.no_nul List.mem_cons_self
    obtain ⟨n, rfl⟩ : ∃ k, n = k + 1 := ⟨n - 1, by rw [List.length_cons] at hn; omega⟩
    obtain ⟨io', hloop, hempty, hscreen', hbuff'⟩ := ih (hrest.print c)
      (Nat.le_of_succ_le_succ hn)
    rw [hpop]
    refine ⟨io', ?_, hempty, ?_, ?_⟩
    · rw [ioBufferFlushLoop, if_pos hc]
      exact hloop
    · rw [hscreen', vgaPrintScreenChar, hscreen, List.append_assoc]
      rfl
    · rw [hbuff', vgaPrintScreenChar, hbuff]

/-- Flushing sends all that is stored to the screen. -/
theorem flush (h : Stores io xs) : ∃ io', ioBufferFlushToScreen io = .ok io' ∧ Stores io' [] ∧
    io'.screen = io.screen ++ xs ∧
    io'.inBuff = { io.inBuff with tailPtr := io'.inBuff.tailPtr } := by
  have hsize : (ioBufferPop io).2.inBuff.bSize = io.inBuff.bSize := by
    unfold ioBufferPop
    split_ifs <;> rfl
  unfold ioBufferFlushToScreen
  dsimp only
  rw [hsize]
  exact h.flushLoop h.length_le

/-- A character is stored in the slot at the head. -/
theorem push (h : Stores io xs) (hinit : io.inBuff.isInit = true) (hc : c ≠ 0)
    (hroom : xs.length + 1 < 4096) :
    Stores { io with
      mem := update io.mem (io.inBuff.bAddr + UInt32.ofNat io.inBuff.headPtr) c
      inBuff := { io.inBuff with headPtr := (io.inBuff.headPtr + 1) % 4096 } } (xs ++ [c]) := by
  obtain ⟨hsize, hring⟩ := h.ring hinit
  refine ⟨?_, fun _ => ⟨hsize, ?_⟩, ?_⟩
  · rw [List.mem_append, List.mem_singleton]
    rintro (hmem | heq)
    · exact h.no_nul hmem
    · exact hc heq.symm
  · apply (hring.push hroom c).congr
    intro k hk
    exact update_slot hring.head_lt hk
  · intro hraw
    exact absurd hraw (by simp [hinit])

/-- One round on a buffer that has room. -/
theorem placeChar_room (h : Stores io xs) (hinit : io.inBuff.isInit = true) (hc : c ≠ 0)
    (hroom : xs.length + 1 < 4096) : ∃ io', ioBufferPlaceChar c io = .ok io' ∧
      Stores io' (xs ++ [c]) ∧ io'.screen = io.screen ∧ io'.inBuff.isInit = true ∧
      io'.inBuff.autoflushToScreen = io.inBuff.autoflushToScreen := by
  obtain ⟨hsize, hring⟩ := h.ring hinit
  have hnext : (io.inBuff.headPtr + 1) % 4096 ≠ io.inBuff.tailPtr := by
    rw [ne_eq, hring.full_iff]
    omega
  refine ⟨_, ?_, h.push hinit hc hroom, rfl, hinit, rfl⟩
  unfold ioBufferPlaceChar
  rw [hsize]
  dsimp only
  rw [if_neg (fun hfull => hnext hfull.1), ok_bind, hsize, if_neg (not_not.mpr rfl),
    if_neg hnext]

/-- One round on a full buffer: it is flushed first, if that is asked for. -/
theorem placeChar_full (h : Stores io xs) (hinit : io.inBuff.isInit = true) (hc : c ≠ 0)
    (hfull : xs.length + 1 = 4096) :
    if io.inBuff.autoflushToScreen then ∃ io', ioBufferPlaceChar c io = .ok io' ∧
      Stores io' [c] ∧ io'.screen = io.screen ++ xs ∧ io'.inBuff.isInit = true ∧
      io'.inBuff.autoflushToScreen = true
    else ioBufferPlaceChar c io = panic ioBufferOverflow := by
  obtain ⟨hsize, hring⟩ := h.ring hinit
  have hnext : (io.inBuff.headPtr + 1) % 4096 = io.inBuff.tailPtr := hring.full_iff.mpr hfull
  by_cases hauto : io.inBuff.autoflushToScreen = true
  · rw [if_pos hauto]
    obtain ⟨io₁, hflush, hempty, hscreen, hbuff⟩ := h.flush
    have hinit₁ : io₁.inBuff.isInit = true := by rw [hbuff]; exact hinit
    have hhead₁ : io₁.inBuff.headPtr = io.inBuff.headPtr := by rw [hbuff]
    have hsize₁ : io₁.inBuff.bSize = 4096 := by rw [hbuff]; exact hsize
    have hnext₁ : (io.inBuff.headPtr + 1) % 4096 ≠ io₁.inBuff.tailPtr := by
      rw [← hhead₁, ne_eq, (hempty.ring hinit₁).2.full_iff]
      exact Nat.ne_of_lt (by decide)
    refine ⟨_, ?_, hempty.push hinit₁ hc (by decide), hscreen, hinit₁, ?_⟩
    · unfold ioBufferPlaceChar
      rw [hsize]
      dsimp only
      rw [if_pos ⟨hnext, hauto⟩, hflush, ok_bind, hhead₁, hsize₁, if_neg (not_not.mpr rfl),
        if_neg hnext₁]
    · show io₁.inBuff.autoflushToScreen = true
      rw [hbuff]
      exact hauto
  · rw [if_neg hauto]
    unfold ioBufferPlaceChar
    rw [hsize]
    dsimp only
    rw [if_neg (fun hflush => hauto hflush.2), ok_bind, hsize, if_neg (not_not.mpr rfl),
      if_pos hnext]

/-- With autoflush the message is placed, and what was in its way is on the screen. -/
theorem placeLoop_autoflush {cs : List UInt8} (h : Stores io xs) (hinit : io.inBuff.isInit = true)
    (hauto : io.inBuff.autoflushToScreen = true) (hcs : 0 ∉ cs) :
    ∃ io' shown ys, ioBufferPlaceLoop cs io = .ok io' ∧ Stores io' ys ∧
      io'.screen = io.screen ++ shown ∧ shown ++ ys = xs ++ cs := by
  induction cs generalizing io xs with
  | nil => exact ⟨io, [], xs, rfl, h, (List.append_nil _).symm, (List.append_nil _).symm⟩
  | cons c cs ih =>
    obtain ⟨hc, hcs⟩ := not_or.mp (fun hmem => hcs (List.mem_cons.mpr hmem))
    have hstep : ∃ io₁ shown ys, ioBufferPlaceChar c io = .ok io₁ ∧ Stores io₁ ys ∧
        io₁.screen = io.screen ++ shown ∧ shown ++ ys = xs ++ [c] ∧
        io₁.inBuff.isInit = true ∧ io₁.inBuff.autoflushToScreen = true := by
      have hlen := (h.ring hinit).2.room
      by_cases hfull : xs.length + 1 = 4096
      · have hplace := h.placeChar_full hinit (Ne.symm hc) hfull
        rw [if_pos hauto] at hplace
        obtain ⟨io₁, hplace, hys, hscreen, hinit₁, hauto₁⟩ := hplace
        exact ⟨io₁, xs, [c], hplace, hys, hscreen, rfl, hinit₁, hauto₁⟩
      · obtain ⟨io₁, hplace, hys, hscreen, hinit₁, hauto₁⟩ :=
          h.placeChar_room hinit (Ne.symm hc) (by omega)
        exact ⟨io₁, [], xs ++ [c], hplace, hys, by rw [hscreen, List.append_nil], rfl, hinit₁,
          hauto₁.trans hauto⟩
    obtain ⟨io₁, shown, ys, hplace, hys, hscreen, heq, hinit₁, hauto₁⟩ := hstep
    obtain ⟨io', shown', ys', hloop, hys', hscreen', heq'⟩ := ih hys hinit₁ hauto₁ hcs
    refine ⟨io', shown ++ shown', ys', ?_, hys', ?_, ?_⟩
    · rw [ioBufferPlaceLoop, hplace]
      exact hloop
    · rw [hscreen', hscreen, List.append_assoc]
    · rw [List.append_assoc, heq', ← List.append_assoc, heq, List.append_assoc]
      rfl

/-- Without autoflush the message has to fit beside what is stored. -/
theorem placeLoop_plain {cs : List UInt8} (h : Stores io xs) (hinit : io.inBuff.isInit = true)
    (hauto : io.inBuff.autoflushToScreen = false) (hcs : 0 ∉ cs) :
    if xs.length + cs.length ≤ 4095 then ∃ io', ioBufferPlaceLoop cs io = .ok io' ∧
      Stores io' (xs ++ cs) ∧ io'.screen = io.screen ∧ io'.inBuff.autoflushToScreen = false
    else ioBufferPlaceLoop cs io = panic ioBufferOverflow := by
  have hroom := (h.ring hinit).2.room
  induction cs generalizing io xs with
  | nil =>
    rw [if_pos (by rw [List.length_nil]; omega), List.append_nil]
    exact ⟨io, rfl, h, rfl, hauto⟩
  | cons c cs ih =>
    obtain ⟨hc, hcs⟩ := not_or.mp (fun hmem => hcs (List.mem_cons.mpr hmem))
    rw [List.length_cons]
    by_cases hfull : xs.length + 1 = 4096
    · have hplace := h.placeChar_full hinit (Ne.symm hc) hfull
      rw [if_neg (by simp [hauto])] at hplace
      rw [if_neg (by omega), ioBufferPlaceLoop, hplace]
      rfl
    · obtain ⟨io₁, hplace, hys, hscreen, hinit₁, hauto₁⟩ :=
        h.placeChar_room hinit (Ne.symm hc) (by omega)
      have hrest := ih hys hinit₁ (hauto₁.trans hauto) hcs (by
        rw [List.length_append]
        exact Nat.lt_of_le_of_ne hroom hfull)
      rw [List.length_append, List.length_singleton, Nat.add_assoc, Nat.add_comm 1,
        List.append_assoc, hscreen] at hrest
      rw [ioBufferPlaceLoop, hplace]
      exact hrest

/-- The lazy initialisation needs a page the first time, and changes nothing that is stored. -/
theorem init (h : Stores io xs) (pmemAlloc : σ → Kern (UInt32 × σ)) :
    if io.inBuff.isInit then ioBufferInit pmemAlloc io = .ok io
    else match pmemAlloc io.pmem with
      | .error e => ioBufferInit pmemAlloc io = .error e
      | .ok _ => ∃ io', ioBufferInit pmemAlloc io = .ok io' ∧ Stores io' xs ∧
        io'.screen = io.screen ∧ io'.inBuff.isInit = true ∧
        io'.inBuff.autoflushToScreen = io.inBuff.autoflushToScreen := by
  cases hinit : io.inBuff.isInit with
  | true =>
    simp [ioBufferInit, hinit]
  | false =>
    obtain ⟨rfl, hraw, hhead, htail, -⟩ := h.raw hinit
    have heq : ioBufferInit pmemAlloc io = pmemAlloc io.pmem >>= fun r => .ok { io with
        inBuff := { io.inBuff with
          bAddr := r.1, bSize := physBlockSize.toNat, isInit := true, isInitializing := false }
        pmem := r.2 } := by
      unfold ioBufferInit
      rw [hinit, hraw]
      rfl
    rw [if_neg Bool.false_ne_true, heq]
    cases pmemAlloc io.pmem with
    | error e => rfl
    | ok r =>
      refine ⟨_, rfl, ⟨h.no_nul, fun _ => ⟨rfl, ?_⟩, fun hne => by cases hne⟩, rfl, rfl, rfl⟩
      dsimp only
      rw [hhead, htail]
      exact .start (by decide) _

end Stores

end KoizOs
