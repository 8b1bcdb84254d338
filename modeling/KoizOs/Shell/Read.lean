import KoizOs.Fat.ReadBack
import KoizOs.Heap.Live
import KoizOs.Libc.Format
import KoizOs.Shell.Shell

/-!
# The read command

`sh_read` takes a block of 4096 bytes before it looks for the file, and gives it back only
when the file was there.  `fs_file_exists` and `fs_file_read` are those of the ramdisk.

    no block is lost during a run  ↔  each read command finds its file    (read_noLeak_iff)
-/

namespace KoizOs

open Lib

inductive ReadFault where
  | kern (e : Fault)
  | printf (e : PrintfFault)

/-- What `sh_read` works on. -/
structure ReadSys (σ : Type) where
  heap : Heap σ
  rd : Ramdisk
  out : Output

/-- A string literal. -/
def cstr (s : String) : CString where
  chars := (ascii s).takeWhile fun c => c ≠ 0
  no_nul hmem := by
    have hall := List.all_takeWhile (p := fun c : UInt8 => decide (c ≠ 0)) (l := ascii s)
    exact of_decide_eq_true (List.all_eq_true.mp hall 0 hmem) rfl

/-- How many bytes there are from a pointer on, going round the address space. -/
def memorySize : Nat := 0x100000000

theorem stringAt_no_nul (buf : Buffer) (n i : Nat) : 0 ∉ stringAt buf n i := by
  induction n generalizing i with
  | zero => exact List.not_mem_nil
  | succ n ih =>
    unfold stringAt
    split
    · exact List.not_mem_nil
    · next hne =>
      rw [List.mem_cons, not_or]
      exact ⟨Ne.symm hne, ih (i + 1)⟩

/-- The string that a pointer to `buf` stands for.  Without a NUL it has no end. -/
def bufferString (buf : Buffer) : Kern CString :=
  match strlen buf memorySize with
  | none => .error .hang
  | some len => .ok ⟨stringAt buf len 0, stringAt_no_nul buf len 0⟩

theorem stringAt_congr {buf buf' : Buffer} {n i : Nat} (h : ∀ j, j < i + n → buf' j = buf j) :
    stringAt buf' n i = stringAt buf n i := by
  induction n generalizing i with
  | zero => rfl
  | succ n ih =>
    unfold stringAt
    rw [h i (by omega), ih fun j hj => h j (by omega)]

theorem bufferString_congr {buf buf' : Buffer} (h : ∀ j, j < memorySize → buf' j = buf j) :
    bufferString buf' = bufferString buf := by
  have hstrlen : strlen buf' memorySize = strlen buf memorySize :=
    strlenLoop_congr fun j hj => h j (by rwa [Nat.zero_add] at hj)
  unfold bufferString
  rw [hstrlen]
  cases hlen : strlen buf memorySize with
  | none => rfl
  | some len =>
    have hlt := strlenLoop_lt hlen
    exact congrArg Except.ok (CString.eq_of_chars (stringAt_congr fun j hj => h j (by omega)))

variable {σ : Type}

/-- `fileBuffer` is what the block and the memory behind it hold. -/
def shRead (pmemAlloc : σ → Kern (UInt32 × σ)) (stack fileBuffer : Buffer) (argc : Int)
    (argv : Nat → CString) (sys : ReadSys σ) : Except ReadFault (Int × ReadSys σ) :=
  if argc < 2 then do
    let out ← (printf (cstr "read needs 1 argument: filename") [] sys.out).mapError .printf
    return (-1, { sys with out := out })
  else do
    let (filePtr, heap) ← (malloc pmemAlloc 4096 sys.heap).mapError .kern
    let (found, rd) ← (ramdiskFat16FileExists stack (argv 1) sys.rd).mapError .kern
    if found = 0 then
      let out ← (printf (cstr "file does not exist\n") [] sys.out).mapError .printf
      return (-1, ⟨heap, rd, out⟩)
    else
      let (_, fileBuffer, rd) ←
        (ramdiskFat16FileRead stack (argv 1) fileBuffer 0 rd).mapError .kern
      let string ← (bufferString fileBuffer).mapError .kern
      let out ← (printf (cstr "%s\n") [.str string] sys.out).mapError .printf
      let heap ← (free filePtr heap).mapError .kern
      return (0, ⟨heap, rd, out⟩)

/-- `fs_file_exists` says that the file is not there. -/
def FileMissing (stack : Buffer) (fileName : CString) (rd : Ramdisk) : Prop :=
  ∃ rd', ramdiskFat16FileExists stack fileName rd = .ok (0, rd')

variable {pmemAlloc : σ → Kern (UInt32 × σ)} {s : σ} {stack fileBuffer : Buffer} {argc res : Int}
  {argv : Nat → CString} {sys sys' : ReadSys σ}

/-- On a disk with a file system: no entry of 1 .. 31 is in use and taken for the name. -/
theorem fileMissing_iff {fileName : CString} {rd : Ramdisk} (h : rd.Valid 1024) :
    FileMissing stack fileName rd ↔
      ∀ i, rd.image.IsFile i → ¬ NameMatches fileName (rd.image.rootEntry i).entryName := by
  rw [← Image.lookup_eq_zero_iff]
  unfold FileMissing
  rw [ramdiskFat16FileExists_eq h]
  constructor
  · rintro ⟨rd', hok⟩
    exact (Prod.mk.inj (Except.ok.inj hok)).1
  · intro h0
    rw [h0]
    exact ⟨rd, rfl⟩

/-! ## One command -/

theorem mapError_bind_eq_ok {ε ε' α β : Type} {x : Except ε α} {g : ε → ε'} {f : α → Except ε' β}
    {b : β} : x.mapError g >>= f = .ok b ↔ ∃ a, x = .ok a ∧ f a = .ok b := by
  cases x with
  | ok a => exact ⟨fun h => ⟨a, rfl, h⟩, fun ⟨_, ha, h⟩ => Except.ok.inj ha ▸ h⟩
  | error e => exact ⟨fun h => (nomatch h), fun ⟨_, ha, _⟩ => (nomatch ha)⟩

/-- What a call that returned did to the heap. -/
theorem shRead_cases (h : shRead pmemAlloc stack fileBuffer argc argv sys = .ok (res, sys')) :
    (argc < 2 ∧ sys'.heap = sys.heap) ∨
    (¬ argc < 2 ∧ ∃ p heap, malloc pmemAlloc 4096 sys.heap = .ok (p, heap) ∧
      ((FileMissing stack (argv 1) sys.rd ∧ sys'.heap = heap) ∨
        (¬ FileMissing stack (argv 1) sys.rd ∧ free p heap = .ok sys'.heap))) := by
  unfold shRead at h
  split at h
  · next hargc =>
    obtain ⟨out, -, h⟩ := mapError_bind_eq_ok.mp h
    obtain ⟨-, rfl⟩ := Prod.mk.inj (Except.ok.inj h)
    exact .inl ⟨hargc, rfl⟩
  · next hargc =>
    obtain ⟨⟨p, heap⟩, hm, h⟩ := mapError_bind_eq_ok.mp h
    obtain ⟨⟨found, rd⟩, hfound, h⟩ := mapError_bind_eq_ok.mp h
    refine .inr ⟨hargc, p, heap, hm, ?_⟩
    dsimp only at h
    split at h
    · next h0 =>
      subst h0
      obtain ⟨out, -, h⟩ := mapError_bind_eq_ok.mp h
      obtain ⟨-, rfl⟩ := Prod.mk.inj (Except.ok.inj h)
      exact .inl ⟨⟨rd, hfound⟩, rfl⟩
    · next h0 =>
      obtain ⟨⟨code, buf, rd₁⟩, -, h⟩ := mapError_bind_eq_ok.mp h
      obtain ⟨string, -, h⟩ := mapError_bind_eq_ok.mp h
      obtain ⟨out, -, h⟩ := mapError_bind_eq_ok.mp h
      obtain ⟨heap', hf, h⟩ := mapError_bind_eq_ok.mp h
      obtain ⟨-, rfl⟩ := Prod.mk.inj (Except.ok.inj h)
      refine .inr ⟨?_, hf⟩
      rintro ⟨rd', hmissing⟩
      rw [hfound] at hmissing
      exact h0 (Prod.mk.inj (Except.ok.inj hmissing)).1

/-- **One read command** keeps the live blocks exactly when it is called without a name or
finds its file.  Then the next one gets its block, if this one could. -/
theorem HeapLayout.shRead (hl : HeapLayout pmemAlloc s sys.heap) (hfresh : FreshPages pmemAlloc s)
    (h : shRead pmemAlloc stack fileBuffer argc argv sys = .ok (res, sys')) :
    HeapLayout pmemAlloc s sys'.heap ∧
      (sys'.heap.live = sys.heap.live ↔ argc < 2 ∨ ¬ FileMissing stack (argv 1) sys.rd) ∧
      (argc < 2 ∨ ¬ FileMissing stack (argv 1) sys.rd → sys.heap.CanMalloc pmemAlloc 4096 →
        sys'.heap.CanMalloc pmemAlloc 4096) := by
  rcases shRead_cases h with ⟨hargc, heq⟩ | ⟨hargc, p, heap, hm, hexit⟩
  · rw [heq]
    exact ⟨hl, iff_of_true rfl (.inl hargc), fun _ hcan => hcan⟩
  · obtain ⟨hl₁, hlive, hnew, i, k, hclass, he⟩ := hl.malloc_live hfresh hm
    rcases hexit with ⟨hmissing, heq⟩ | ⟨hfound, hf⟩
    · have hcond : ¬ (argc < 2 ∨ ¬ FileMissing stack (argv 1) sys.rd) :=
        not_or.mpr ⟨hargc, not_not.mpr hmissing⟩
      rw [heq]
      refine ⟨hl₁, iff_of_false ?_ hcond, fun hgood => absurd hgood hcond⟩
      intro hsame
      apply hnew
      rw [← hsame, hlive]
      exact Set.mem_insert p _
    · obtain heq := Except.ok.inj (hf.symm.trans (hl₁.free_entryAt hfresh he))
      have hgive := hl₁.give_live hfresh he
      have hl₂ : HeapLayout pmemAlloc s (heap.setSlab i ((heap.slabs i).give k)) :=
        hl₁.setSlab ((hl₁.slab i he.slab).give he.entry) rfl rfl
      rw [heq]
      refine ⟨hl₂, iff_of_true ?_ (.inr hfound), fun _ _ => hl₂.canMalloc (k := k) hclass ?_ ?_⟩
      · rw [hgive, hlive]
        exact Set.insert_sdiff_self_of_notMem hnew
      · rw [setSlab_self]
        exact he.entry
      · rw [used_give]
        exact fun hused => hused.1 ⟨rfl, rfl⟩

theorem printf_returns {format : CString} {args : List Arg}
    (hargs : ArgsFor (pieces format.chars) args) (out : Output) :
    ∃ out', printf format args out = .ok out' :=
  ⟨_, (if_pos hargs).mp (printf_prints format args out)⟩

/-- The exit for a file that is not there. -/
theorem shRead_missing {p : UInt32} {heap : Heap σ} {rd : Ramdisk} (hargc : ¬ argc < 2)
    (hm : malloc pmemAlloc 4096 sys.heap = .ok (p, heap))
    (hmissing : ramdiskFat16FileExists stack (argv 1) sys.rd = .ok (0, rd)) :
    ∃ out, shRead pmemAlloc stack fileBuffer argc argv sys = .ok (-1, ⟨heap, rd, out⟩) := by
  obtain ⟨out, hprint⟩ := @printf_returns (cstr "file does not exist\n") [] (by decide) sys.out
  refine ⟨out, (if_neg hargc).trans ?_⟩
  refine mapError_bind_eq_ok.mpr ⟨_, hm, mapError_bind_eq_ok.mpr ⟨_, hmissing, ?_⟩⟩
  exact mapError_bind_eq_ok.mpr ⟨_, hprint, rfl⟩

/-- The exit for a file that was printed. -/
theorem shRead_found {p : UInt32} {heap heap' : Heap σ} {rd' rd'' : Ramdisk} {found len : Nat}
    {code : Int} {buf : Buffer} (hargc : ¬ argc < 2)
    (hm : malloc pmemAlloc 4096 sys.heap = .ok (p, heap)) (h0 : found ≠ 0)
    (hfound : ramdiskFat16FileExists stack (argv 1) sys.rd = .ok (found, rd'))
    (hread : ramdiskFat16FileRead stack (argv 1) fileBuffer 0 rd' = .ok (code, buf, rd''))
    (hlen : strlen buf memorySize = some len) (hf : free p heap = .ok heap') :
    ∃ out, shRead pmemAlloc stack fileBuffer argc argv sys = .ok (0, ⟨heap', rd'', out⟩) := by
  have hstring : bufferString buf = .ok ⟨stringAt buf len 0, stringAt_no_nul buf len 0⟩ := by
    unfold bufferString
    rw [hlen]
  have hkinds : kinds (pieces (cstr "%s\n").chars) <+: [ArgKind.str] := by decide
  obtain ⟨out, hprint⟩ := @printf_returns (cstr "%s\n")
    [.str ⟨stringAt buf len 0, stringAt_no_nul buf len 0⟩] hkinds sys.out
  refine ⟨out, (if_neg hargc).trans ?_⟩
  refine mapError_bind_eq_ok.mpr ⟨_, hm, mapError_bind_eq_ok.mpr ⟨_, hfound, ?_⟩⟩
  refine (if_neg h0).trans (mapError_bind_eq_ok.mpr ⟨_, hread, ?_⟩)
  refine mapError_bind_eq_ok.mpr ⟨_, hstring, mapError_bind_eq_ok.mpr ⟨_, hprint, ?_⟩⟩
  exact mapError_bind_eq_ok.mpr ⟨_, hf, rfl⟩

/-! ## Runs -/

inductive ReadOp where
  | read (stack fileBuffer : Buffer) (argc : Int) (argv : Nat → CString)
  | other (rd : Ramdisk) (out : Output)

/-- A read command that returned, or anything that happens to the disk and the output
between two of them. -/
inductive ReadStep (pmemAlloc : σ → Kern (UInt32 × σ)) : ReadSys σ → ReadOp → ReadSys σ → Prop
  | read {stack fileBuffer : Buffer} {argc res : Int} {argv : Nat → CString}
      {sys sys' : ReadSys σ} :
      shRead pmemAlloc stack fileBuffer argc argv sys = .ok (res, sys') →
      ReadStep pmemAlloc sys (.read stack fileBuffer argc argv) sys'
  | other {sys : ReadSys σ} {rd : Ramdisk} {out : Output} :
      ReadStep pmemAlloc sys (.other rd out) { sys with rd := rd, out := out }

/-- A read command without a file name, or for a file that is there. -/
def FindsFile (sys : ReadSys σ) : ReadOp → Prop
  | .read stack _ argc argv => argc < 2 ∨ ¬ FileMissing stack (argv 1) sys.rd
  | .other .. => True

theorem ReadStep.keeps {op : ReadOp} (hl : HeapLayout pmemAlloc s sys.heap)
    (hfresh : FreshPages pmemAlloc s) (hs : ReadStep pmemAlloc sys op sys') :
    HeapLayout pmemAlloc s sys'.heap ∧
      (sys'.heap.live = sys.heap.live ↔ FindsFile sys op) ∧
      (FindsFile sys op → sys.heap.CanMalloc pmemAlloc 4096 →
        sys'.heap.CanMalloc pmemAlloc 4096) := by
  cases hs with
  | read h => exact hl.shRead hfresh h
  | other => exact ⟨hl, iff_of_true rfl trivial, fun _ hcan => hcan⟩

/-- While every command finds its file, the heap goes on serving them. -/
theorem read_run_canMalloc {tr : List (ReadSys σ × ReadOp)} {x : ReadSys σ}
    (hl : HeapLayout pmemAlloc s sys.heap) (hfresh : FreshPages pmemAlloc s)
    (hrun : Trace (ReadStep pmemAlloc) sys tr x) (hfinds : ∀ e ∈ tr, FindsFile e.1 e.2)
    (hcan : sys.heap.CanMalloc pmemAlloc 4096) : x.heap.CanMalloc pmemAlloc 4096 := by
  induction hrun with
  | start => exact hcan
  | @next tr t u op hrun hs ih =>
    have hlt : HeapLayout pmemAlloc s t.heap :=
      (hrun.invariant (I := fun t => HeapLayout pmemAlloc s t.heap) hl
        fun _ _ _ h hs => (hs.keeps h hfresh).1).1
    have hlast := hfinds (t, op) (by simp)
    exact (hs.keeps hlt hfresh).2.2 hlast (ih fun e he => hfinds e (List.mem_append_left _ he))

/-- **Leaks.**  From a heap that any calls of `malloc` and `free` led to, a run of read
commands keeps the set of live blocks exactly when none of them misses its file; then it
does not exhaust the heap either. -/
theorem read_noLeak_iff {calls : List (Heap σ × HeapOp)} {hp : Heap σ} {rd : Ramdisk}
    {out : Output} {tr : List (ReadSys σ × ReadOp)} {x : ReadSys σ}
    (hfresh : FreshPages pmemAlloc s)
    (hheap : Trace (HeapCall pmemAlloc) (Heap.boot s) calls hp)
    (hrun : Trace (ReadStep pmemAlloc) ⟨hp, rd, out⟩ tr x) :
    ((x.heap.live = hp.live ∧ ∀ e ∈ tr, e.1.heap.live = hp.live) ↔
        ∀ e ∈ tr, FindsFile e.1 e.2) ∧
      ((∀ e ∈ tr, FindsFile e.1 e.2) → hp.CanMalloc pmemAlloc 4096 →
        x.heap.CanMalloc pmemAlloc 4096) := by
  have hl := heap_call_layout hfresh hheap
  have hl₀ : HeapLayout pmemAlloc s (ReadSys.mk hp rd out).heap := hl
  refine ⟨?_, read_run_canMalloc hl₀ hfresh hrun⟩
  refine hrun.holds_iff (I := fun t => HeapLayout pmemAlloc s t.heap)
    (P := fun t => t.heap.live = hp.live) hl (fun _ _ _ h hs => (hs.keeps h hfresh).1) rfl ?_
  intro t op u h hlive hs
  rw [← hlive]
  exact (hs.keeps h hfresh).2.1

/-- An empty file is read, and its block given back. -/
theorem read_noLeak_iff_empty : ∃ rd tr x,
    Trace (ReadStep pagesUpward) ⟨Heap.boot 1, rd, []⟩ tr x ∧ tr.length = 1 ∧
      x.heap.live = (Heap.boot 1).live ∧ x.heap.CanMalloc pagesUpward 4096 := by
  obtain ⟨rd₀, s, rd, -, hfat, -, hroot, hw⟩ :=
    exists_first_write (cstr "a") zeroSector 1 (by decide)
  have hv : rd.Valid 1024 := (hfat.ok.written hw).2.1.valid
  have hfound : ramdiskFat16FileExists zeroSector (cstr "a") rd = .ok (1, rd) := by
    rw [ramdiskFat16FileExists_eq hv, hfat.ok.lookup_written hw, hroot]
  obtain ⟨contents, hread, hcontents⟩ := hfat.ok.read_written hw (by rw [hroot]; decide)
  have hlen : strlen (patch zeroSector 0 512 contents) memorySize = some 0 := by
    apply strlen_eq (by decide) fun j hj => absurd hj (Nat.not_lt_zero j)
    rw [patch_of_mem (Nat.le_refl 0) (by decide)]
    exact (hcontents 0 (by decide)).trans rfl
  obtain ⟨heap, heap', hm, hf⟩ : ∃ heap heap', malloc pagesUpward 4096 (Heap.boot 1) =
      .ok (8192, heap) ∧ free 8192 heap = .ok heap' := ⟨_, _, rfl, rfl⟩
  obtain ⟨out, hcall⟩ := @shRead_found _ pagesUpward zeroSector zeroSector 2 (fun _ => cstr "a")
    ⟨Heap.boot 1, rd, []⟩ _ _ _ _ _ _ _ _ _ (by decide) hm (by decide) hfound
    (hread zeroSector zeroSector) hlen hf
  have hrun := Trace.start.next (ReadStep.read hcall)
  have hnot : ¬ FileMissing zeroSector (cstr "a") rd := by
    rintro ⟨rd', hmissing⟩
    rw [hfound] at hmissing
    cases hmissing
  have hfinds : ∀ e ∈ [((⟨Heap.boot 1, rd, []⟩ : ReadSys Nat),
      ReadOp.read zeroSector zeroSector 2 fun _ => cstr "a")], FindsFile e.1 e.2 := by
    intro e he
    obtain rfl := List.mem_singleton.mp he
    exact .inr hnot
  obtain ⟨hiff, hserves⟩ := read_noLeak_iff (pagesUpward_fresh 1) .start hrun
  exact ⟨rd, _, _, hrun, rfl, (hiff.mpr hfinds).1, hserves hfinds ⟨_, _, hm⟩⟩

/-- On a disk without files: the block stays behind. -/
theorem read_leaks : ∃ rd x,
    Trace (ReadStep pagesUpward) ⟨Heap.boot 1, rd, []⟩
      [(⟨Heap.boot 1, rd, []⟩, .read zeroSector zeroSector 2 fun _ => cstr "a")] x ∧
    8192 ∈ x.heap.live ∧ 8192 ∉ (Heap.boot 1).live := by
  obtain ⟨rd, -, -, hfat⟩ := exists_fatInit
  have hmissing : ramdiskFat16FileExists zeroSector (cstr "a") rd = _ :=
    ramdiskFat16FileExists_eq hfat.spec.1
  rw [(hfat.empty (cstr "a")).1] at hmissing
  obtain ⟨heap, hm⟩ : ∃ heap, malloc pagesUpward 4096 (Heap.boot 1) = .ok (8192, heap) := ⟨_, rfl⟩
  obtain ⟨out, hread⟩ := @shRead_missing _ pagesUpward zeroSector zeroSector 2 (fun _ => cstr "a")
    ⟨Heap.boot 1, rd, []⟩ _ _ _ (by decide) hm hmissing
  obtain ⟨-, hlive, hnew, -⟩ :=
    (HeapLayout.boot pagesUpward 1).malloc_live (pagesUpward_fresh 1) hm
  refine ⟨rd, _, Trace.start.next (.read hread), ?_, hnew⟩
  show 8192 ∈ heap.live
  rw [hlive]
  exact Set.mem_insert _ _

end KoizOs
