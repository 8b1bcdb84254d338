import KoizOs.Heap.Capacity
import KoizOs.Memory.Pages
import KoizOs.Shell.Read

/-!
# What the memory commands report

`free` counts the records of the page pool, `slabinfo` prints the counters of the slabs.
Neither changes anything, so a report is a function of the state to the characters it adds
to the output; a literal format with its arguments adds `line format args`.

| result | content |
|--------|---------|
| `free_reports_held` | `free` prints how many pages are held |
| `slabinfo_reports_live` | `slabinfo` prints how many blocks of each size are live |
-/

namespace KoizOs

open Lib

/-! ## Lines -/

/-- `printf` of a literal format. -/
def say (format : String) (args : List Arg) (out : Output) : Except ReadFault Output :=
  (printf (cstr format) args out).mapError .printf

/-- What a literal format means. -/
def line (format : String) (args : List Arg) : Output := emits (pieces (cstr format).chars) args

theorem say_eq {format : String} {args : List Arg} (ks : List ArgKind)
    (hargs : args.map Arg.kind = ks) (hkinds : kinds (pieces (cstr format).chars) <+: ks)
    (out : Output) : say format args out = .ok (out ++ line format args) := by
  have hfor : ArgsFor (pieces (cstr format).chars) args := by
    rw [ArgsFor, hargs]
    exact hkinds
  unfold say
  rw [(if_pos hfor).mp (printf_prints (cstr format) args out)]
  rfl

theorem say_bind {format : String} {args : List Arg} (ks : List ArgKind)
    (hargs : args.map Arg.kind = ks) (hkinds : kinds (pieces (cstr format).chars) <+: ks)
    (out : Output) {β : Type} (g : Output → Except ReadFault β) :
    (say format args out >>= g) = g (out ++ line format args) := by
  rw [say_eq ks hargs hkinds]
  rfl

theorem bind_of_ok {ε α β : Type} {x : Except ε α} {a : α} (h : x = .ok a)
    (g : α → Except ε β) : (x >>= g) = g a := by
  rw [h]
  rfl

/-- A call of the kernel that returned. -/
theorem kern_bind {α β : Type} {x : Kern α} {a : α} (h : x = .ok a)
    (g : α → Except ReadFault β) : (x.mapError .kern >>= g) = g a := by
  rw [h]
  rfl

theorem StringIn.stringAt_length {buf : Buffer} {p : Nat} {w : List UInt8} (h : StringIn buf p w) :
    stringAt buf w.length p = w := by
  induction w generalizing p with
  | nil => rfl
  | cons c w ih =>
    have hc : buf p = c := h.chars 0 (Nat.zero_lt_succ _)
    have hne : c ≠ 0 := by
      rintro rfl
      exact h.no_nul List.mem_cons_self
    rw [List.length_cons, stringAt, hc, if_neg hne, ih h.tail]

theorem bufferString_eq {buf : Buffer} {w : List UInt8} (h : StringIn buf 0 w)
    (hlen : w.length < memorySize) : bufferString buf = .ok ⟨w, h.no_nul⟩ := by
  unfold bufferString
  rw [h.strlen_eq hlen]
  exact congrArg Except.ok (CString.eq_of_chars h.stringAt_length)

/-! ## Algorithm -/

/-- `n` records are left to look at, the next one is `i`. -/
def pagesInUseLoop (pm : Pmem) : (n i : Nat) → (pagesInUse : UInt32) → UInt32
  | 0, _, pagesInUse => pagesInUse
  | n + 1, i, pagesInUse =>
    pagesInUseLoop pm n (i + 1)
      (if pm.mem (pm.recordPtr (UInt32.ofNat i)) ≠ 0x00 then pagesInUse + 1 else pagesInUse)

def pmemListInfo (pm : Pmem) (out : Output) : Except ReadFault Output := do
  let out ← say "Memory Start: %x \n" [.int pm.pmemMainMemoryStart] out
  let out ← say "Memory Size: %d mb\n" [.int (pm.pmemMainMemoryLength / 1024 / 1024)] out
  let pagesInUse := pagesInUseLoop pm pm.pmemMgrReservedSize.toNat 0 0
  let out ← say "Pages in Use: %d / %d\n" [.int pagesInUse, .int pm.pmemMgrReservedSize] out
  say "Memory In Use: %d mb / %d mb\n"
    [.int (pagesInUse * physBlockSize / 1024 / 1024),
      .int (pm.pmemMainMemoryLength / 1024 / 1024)] out

def printKmeminfo (slab : Kmemslab) (slabSize : Nat) (out : Output) : Except ReadFault Output :=
  say "%db | Entries Used: %d/%d | Free: %d | Pages Used: %d/%d\n"
    [.int (UInt32.ofNat slabSize),
      .int (UInt32.ofNat slab.maxEntries - UInt32.ofNat slab.freeEntries),
      .int (UInt32.ofNat slab.maxEntries), .int (UInt32.ofNat slab.freeEntries),
      .int (UInt32.ofNat slab.currentPage), .int (UInt32.ofNat slabMaxPageCount)] out

/-- `n` slabs are left to print, the next one is `i`. -/
def kmemlistLoop (slabs : Nat → Kmemslab) :
    (n i currentSize : Nat) → Output → Except ReadFault Output
  | 0, _, _, out => .ok out
  | n + 1, i, currentSize, out => do
    let out ← printKmeminfo (slabs i) currentSize out
    kmemlistLoop slabs n (i + 1) (currentSize / 2) out

/-- `sizeof(slabs)`: each has 1000 entries of 8 bytes, 100 page addresses and 4 counters. -/
def sizeofSlabs : Nat :=
  slabCount * (slabEntryCount * 8 + slabMaxPageCount * 4 + 4 * 4)

def kmemlist (slabs : Nat → Kmemslab) (out : Output) : Except ReadFault Output := do
  let out ← say "=====KMemList=====\n" [] out
  let out ← say "Size of Slab Library: %d kb\n" [.int (UInt32.ofNat (sizeofSlabs / 1024))] out
  kmemlistLoop slabs slabCount 0 physBlockSize.toNat out

/-! ## The page pool -/

variable {σ : Type} {pm : Pmem} {n i : Nat}

/-- How many pages are taken. -/
def Pmem.takenPages (pm : Pmem) : Nat :=
  ((List.range pm.pmemMgrReservedSize.toNat).map UInt32.ofNat).countP fun e => pm.record e ≠ 0

theorem mem_range_ofNat {size e : UInt32} :
    e ∈ (List.range size.toNat).map UInt32.ofNat ↔ e < size := by
  rw [List.mem_map, UInt32.lt_iff_toNat_lt]
  constructor
  · rintro ⟨k, hk, rfl⟩
    rw [List.mem_range] at hk
    rw [UInt32.toNat_ofNat']
    omega
  · intro he
    exact ⟨e.toNat, List.mem_range.mpr he, UInt32.ofNat_toNat⟩

theorem nodup_range_ofNat {size : UInt32} : ((List.range size.toNat).map UInt32.ofNat).Nodup := by
  apply List.Nodup.map_on _ List.nodup_range
  intro j hj k hk heq
  rw [List.mem_range] at hj hk
  have hlt := size.toNat_lt
  have heq := congrArg UInt32.toNat heq
  rw [UInt32.toNat_ofNat', UInt32.toNat_ofNat'] at heq
  omega

theorem pagesInUseLoop_eq (c : UInt32) : pagesInUseLoop pm n i c =
    c + UInt32.ofNat (((List.range' i n).map UInt32.ofNat).countP fun e => pm.record e ≠ 0) := by
  induction n generalizing i c with
  | zero => exact (UInt32.add_zero c).symm
  | succ n ih =>
    have hrecord : pm.mem (pm.recordPtr (UInt32.ofNat i)) = pm.record (UInt32.ofNat i) := rfl
    rw [pagesInUseLoop, ih, List.range'_succ, List.map_cons, List.countP_cons, hrecord]
    by_cases hr : pm.record (UInt32.ofNat i) = 0
    · rw [if_neg (not_not.mpr hr), if_neg (by simp [hr])]
      rfl
    · rw [if_pos hr, if_pos (by simp [hr]), UInt32.ofNat_add, UInt32.add_assoc,
        UInt32.add_comm 1]
      rfl

theorem pagesInUse_eq (pm : Pmem) :
    pagesInUseLoop pm pm.pmemMgrReservedSize.toNat 0 0 = UInt32.ofNat pm.takenPages := by
  rw [pagesInUseLoop_eq, UInt32.zero_add, ← List.range_eq_range', Pmem.takenPages]

theorem pmemListInfo_eq (pm : Pmem) (out : Output) : pmemListInfo pm out = .ok (out ++
    (line "Memory Start: %x \n" [.int pm.pmemMainMemoryStart] ++
    line "Memory Size: %d mb\n" [.int (pm.pmemMainMemoryLength / 1024 / 1024)] ++
    line "Pages in Use: %d / %d\n"
      [.int (UInt32.ofNat pm.takenPages), .int pm.pmemMgrReservedSize] ++
    line "Memory In Use: %d mb / %d mb\n"
      [.int (UInt32.ofNat pm.takenPages * physBlockSize / 1024 / 1024),
        .int (pm.pmemMainMemoryLength / 1024 / 1024)])) := by
  unfold pmemListInfo
  rw [pagesInUse_eq, say_bind [.int] rfl (by decide), say_bind [.int] rfl (by decide),
    say_bind [.int, .int] rfl (by decide), say_eq [.int, .int] rfl (by decide)]
  simp only [List.append_assoc]

/-- The taken pages of a pool in use are the held ones. -/
theorem PoolInv.takenPages_eq {pm0 : Pmem} {live : List UInt32} (h : PoolInv pm0 pm live) :
    pm.takenPages = live.length := by
  have hsize := h.size
  let records := ((List.range pm.pmemMgrReservedSize.toNat).map UInt32.ofNat).filter
    fun e => pm.record e ≠ 0
  have hmem : ∀ e, e ∈ records ↔ e < pm0.pmemMgrReservedSize ∧ pm0.pageAddr e ∈ live := by
    intro e
    rw [List.mem_filter, mem_range_ofNat, hsize, decide_eq_true_iff]
    refine and_congr_right fun he => ?_
    rw [← h.live_iff e he]
    rcases h.bit e he with h0 | h1
    · rw [h0]
      decide
    · rw [h1]
      decide
  have hnodup : (records.map pm0.pageAddr).Nodup := by
    apply List.Nodup.map_on _ (nodup_range_ofNat.filter _)
    intro e he f hf heq
    exact h.pageAddr_inj ((hmem e).mp he).1 ((hmem f).mp hf).1 heq
  have hperm : (records.map pm0.pageAddr).Perm live := by
    rw [List.perm_ext_iff_of_nodup hnodup h.nodup]
    intro p
    rw [List.mem_map]
    constructor
    · rintro ⟨e, he, rfl⟩
      exact ((hmem e).mp he).2
    · intro hp
      obtain ⟨e, he, rfl⟩ := h.isPage p hp
      exact ⟨e, (hmem e).mpr ⟨he, hp⟩, rfl⟩
  rw [← hperm.length_eq, List.length_map, Pmem.takenPages, List.countP_eq_length_filter]

/-- **`free`.**  After any run of allocations and frees of held pages it prints how many
pages are held, of how many. -/
theorem free_reports_held {pm0 : Pmem} {tr : List ((Pmem × List UInt32) × Event UInt32)}
    {live : List UInt32} (h0 : pm0.Initialised)
    (hfree : ∀ e, e < pm0.pmemMgrReservedSize → pm0.record e = 0) (hrun : PmemRun pm0 tr pm live)
    (out : Output) : pmemListInfo pm out = .ok (out ++
    (line "Memory Start: %x \n" [.int pm.pmemMainMemoryStart] ++
    line "Memory Size: %d mb\n" [.int (pm.pmemMainMemoryLength / 1024 / 1024)] ++
    line "Pages in Use: %d / %d\n"
      [.int (UInt32.ofNat live.length), .int pm0.pmemMgrReservedSize] ++
    line "Memory In Use: %d mb / %d mb\n"
      [.int (UInt32.ofNat live.length * physBlockSize / 1024 / 1024),
        .int (pm.pmemMainMemoryLength / 1024 / 1024)])) := by
  have h : PoolInv pm0 pm live :=
    (hrun.invariant (I := fun x => PoolInv pm0 x.1 x.2) (PoolInv.start_run h0 hfree) PoolInv.step).1
  rw [pmemListInfo_eq, h.takenPages_eq, h.size]

/-- One page of the three is held. -/
theorem free_reports_held_one :
    pmemListInfo ((pmemThreePages.setCursor 1).setRecord 1 1) [] = .ok
      (line "Memory Start: %x \n" [.int 0x100000] ++ line "Memory Size: %d mb\n" [.int 0] ++
      line "Pages in Use: %d / %d\n" [.int 1, .int 3] ++
      line "Memory In Use: %d mb / %d mb\n" [.int 0, .int 0]) := by
  have h0 : pmemThreePages.Initialised := ⟨rfl, rfl, by decide⟩
  have hrun : PmemRun pmemThreePages _ ((pmemThreePages.setCursor 1).setRecord 1 1) [0x201000] :=
    .next .start (.take rfl)
  exact free_reports_held h0 (fun _ _ => rfl) hrun []

/-! ## The slabs -/

/-- The line of slab `i`, with `used` entries in use. -/
def slabLine (slab : Kmemslab) (used : Nat) (i : Nat) : Output :=
  line "%db | Entries Used: %d/%d | Free: %d | Pages Used: %d/%d\n"
    [.int (UInt32.ofNat (slabSize i)), .int (UInt32.ofNat used),
      .int (UInt32.ofNat slab.maxEntries), .int (UInt32.ofNat slab.freeSet.card),
      .int (UInt32.ofNat slab.currentPage), .int (UInt32.ofNat slabMaxPageCount)]

theorem kmemlistLoop_eq {x : Heap σ × List Block} (hc : Counted x) (hn : i + n ≤ slabCount)
    (out : Output) : kmemlistLoop x.1.slabs n i (slabSize i) out =
      .ok (out ++ (List.range' i n).flatMap fun j => slabLine (x.1.slabs j) (liveCount x.2 j) j) := by
  induction n generalizing i out with
  | zero => exact congrArg Except.ok (List.append_nil out).symm
  | succ n ih =>
    have hhalf : slabSize i / 2 = slabSize (i + 1) := by
      unfold slabSize
      rw [Nat.div_div_eq_div_mul, ← Nat.pow_succ]
    have hused : UInt32.ofNat (x.1.slabs i).maxEntries - UInt32.ofNat (x.1.slabs i).freeEntries =
        UInt32.ofNat (liveCount x.2 i) := by
      rw [← hc.used i (by omega), UInt32.ofNat_add, UInt32.add_sub_cancel]
    rw [kmemlistLoop, printKmeminfo,
      say_bind [.int, .int, .int, .int, .int, .int] rfl (by decide), hhalf, ih (by omega),
      List.range'_succ, List.flatMap_cons, List.append_assoc, hused,
      ← hc.free i (by omega)]
    rfl

/-- **`slabinfo`.**  After any run of `malloc`, and of `free` of live blocks, it prints of each
slab how many live blocks it has, and how many of its entries are free. -/
theorem slabinfo_reports_live {pmemAlloc : σ → Kern (UInt32 × σ)} {s : σ}
    {x : Heap σ × List Block} {tr : List ((Heap σ × List Block) × HeapOp)}
    (hfresh : FreshPages pmemAlloc s)
    (hrun : Trace (HeapStep pmemAlloc) (Heap.boot s, []) tr x) (out : Output) :
    kmemlist x.1.slabs out = .ok (out ++ (line "=====KMemList=====\n" [] ++
      line "Size of Slab Library: %d kb\n" [.int 57] ++
      (List.range slabCount).flatMap fun i => slabLine (x.1.slabs i) (liveCount x.2 i) i)) := by
  have hinv : HeapInv pmemAlloc s x ∧ Counted x := by
    refine (hrun.invariant (I := fun x => HeapInv pmemAlloc s x ∧ Counted x) ⟨?_, .boot s⟩ ?_).1
    · exact ⟨.boot pmemAlloc s, fun _ hb => absurd hb List.not_mem_nil, List.nodup_nil⟩
    · rintro x op y ⟨h, hc⟩ hs
      exact ⟨h.step hfresh hs, hc.step h hfresh hs⟩
  have hkb : UInt32.ofNat (sizeofSlabs / 1024) = 57 := by decide
  have hfirst : physBlockSize.toNat = slabSize 0 := by decide
  unfold kmemlist
  rw [say_bind [] rfl (by decide), say_bind [.int] rfl (by decide), hkb, hfirst,
    kmemlistLoop_eq hinv.2 (by decide), List.range_eq_range']
  simp only [List.append_assoc]

/-- One block of 2048 bytes is live, and one entry of its page is left. -/
theorem slabinfo_reports_live_one : ∃ hp : Heap Nat,
    malloc pagesUpward 2048 (Heap.boot 1) = .ok (6144, hp) ∧
    kmemlist hp.slabs [] = .ok (line "=====KMemList=====\n" [] ++
      line "Size of Slab Library: %d kb\n" [.int 57] ++
      (List.range slabCount).flatMap fun i =>
        slabLine (hp.slabs i) (liveCount [⟨6144, 1⟩] i) i) :=
  ⟨_, rfl, slabinfo_reports_live (x := (_, [⟨6144, 1⟩])) (pagesUpward_fresh 1)
    (Trace.start.next (.malloc (c := 2048)
      (rfl : malloc pagesUpward 2048 (Heap.boot 1) = .ok (6144, _)) rfl)) []⟩

end KoizOs
