import KoizOs.Kernel.Owners

/-!
# Programs

`execbg f` reads the first sector of `f` into the page of a new process.  From then on nobody
stores there, with one exception.  The block that `read` reads to is behind its page:

    page of the largest slab | block of `read`, whoever's page that is

So a program stays what it was as long as its page is not right behind a page of that slab.
-/

namespace KoizOs

open Function Lib

variable {st : FileStore} {name : CString} {f : StoredFile} {cmd : Command}

namespace FileStore

/-- No file goes away, and none comes in before another. -/
theorem find_write {w : List UInt8} {name' : CString} (h : st.find name = some f) :
    (st.write name' w).find name = some f := by
  obtain ⟨i, hi, hindex, rfl⟩ := find_eq_some h
  unfold write
  split
  · exact h
  · split
    · have hindex' : (st.files ++ [(⟨name', readable w⟩ : StoredFile)]).findIdx?
          (fun g => g.Answers name) = some i := by
        rw [List.findIdx?_append,
          show st.files.findIdx? (fun g => g.Answers name) = some i from hindex]
        rfl
      rw [find, index]
      dsimp only
      rw [hindex', Option.bind_some, List.getElem?_append_left hi, List.getElem?_eq_getElem hi]
    · exact h

theorem find_call (h : st.find name = some f) : (st.call cmd).find name = some f := by
  unfold call
  split
  · exact find_write h
  · exact h

theorem find_of_number (h : st.number name ≠ 0) : ∃ f, st.find name = some f := by
  unfold number at h
  cases hindex : st.index name with
  | none =>
    rw [hindex] at h
    exact absurd rfl h
  | some i =>
    obtain ⟨hi, -⟩ := index_eq_some_iff.mp hindex
    refine ⟨st.files[i], ?_⟩
    rw [find, hindex, Option.bind_some, List.getElem?_eq_getElem hi]

end FileStore

namespace Kernel

variable {k k' k₀ : Kernel} {G : UInt32 → Prop} {e : Event} {x : CString × UInt32} {p : UInt32}
  {es : List (CString × UInt32)} {progs : List CString}

/-- One page more is guarded. -/
theorem Housed.insert (h : k.Housed G) (hp : k.pmem.Allocated p)
    (hin : k.stdin.isInit = true → k.stdin.bAddr ≠ p) : k.Housed fun q => G q ∨ q = p where
  sound := h.sound
  guarded q hq := by
    rcases hq with hq | rfl
    · exact h.guarded q hq
    · exact hp
  input hinit := by
    refine ⟨(h.input hinit).1, ?_⟩
    rintro (hq | hq)
    · exact (h.input hinit).2 hq
    · exact hin hinit hq
  slab := h.slab
  pages := h.pages
  disk := h.disk
  uses q hq := .inl (h.uses q hq)

/-- A page that is neither the standard input's nor the disk's. -/
structure Private (k : Kernel) (p : UInt32) : Prop where
  allocated : k.pmem.Allocated p
  input : k.stdin.isInit = true → k.stdin.bAddr ≠ p
  disk : ¬ k.rd.Uses 1024 p

/-- The page `x.2` begins with the bytes of the file `x.1`, as long as no page of the largest slab
is right before it. -/
def Holds (st : FileStore) (k : Kernel) (x : CString × UInt32) : Prop :=
  ∃ f, st.find x.1 = some f ∧ (k.Clear (· = x.2) →
    ∀ i (h : i < f.bytes.length), k.pmem.mem (x.2 + UInt32.ofNat i) = f.bytes[i])

theorem Holds.step (h : k.Holds st x) (hst : k.rd.image.Represents st) (hset : k.Settled)
    (hhoused : k.Housed G) (hp : k.Private x.2) (hclear : k'.Clear G) (hs : KernelStep k e k') :
    k'.Holds st x := by
  obtain ⟨f, hfound, hbytes⟩ := h
  refine ⟨f, hfound, fun hclear' i hi => ?_⟩
  obtain ⟨hi', -⟩ := (hst.headCluster_bytes hfound).2 i hi
  have hmore := hhoused.insert hp.allocated hp.input
  have hboth : k'.Clear fun q => G q ∨ q = x.2 := by
    rintro j hj (hq | hq)
    · exact hclear j hj hq
    · exact hclear' j hj hq
  have hguards := (step_stepped hset hmore hboth hs).guards hmore
  have hgrows := step_slabGrows hset hhoused.slab hs
  rw [hguards.same x.2 (.inr rfl) hp.disk i (by omega)]
  exact hbytes (hgrows.clear hclear') i hi

theorem Holds.call (h : k.Holds st x) (cmd : Command) : k.Holds (st.call cmd) x := by
  obtain ⟨f, hfound, hbytes⟩ := h
  exact ⟨f, FileStore.find_call hfound, hbytes⟩

/-- The processes are `es`, the idle one first.  The others were started by some of the lines, in
order, and hold their programs. -/
structure Running (st : FileStore) (progs : List CString) (k : Kernel)
    (es : List (CString × UInt32)) : Prop where
  lists : Lists k.processes es
  started : (es.tail.map Prod.fst).Sublist progs
  loaded : ∀ x ∈ es.tail, k.Holds st x

theorem Running.step (h : Running st progs k es) (hst : k.rd.image.Represents st)
    (hset : k.Settled) (hhoused : k.Housed G) (hpages : ∀ x ∈ es.tail, k.Private x.2)
    (hclear : k'.Clear G) (hs : KernelStep k e k') :
    ∃ cmds es', k'.shell.executed = k.shell.executed ++ cmds ∧
      Running (st.run cmds) (progs ++ cmds.filterMap Command.program) k' es' := by
  have hholds : ∀ x ∈ es.tail, k'.Holds st x := fun x hx =>
    (h.loaded x hx).step hst hset hhoused (hpages x hx) hclear hs
  cases step_stepped hset hhoused hclear hs with
  | quiet _ hexec hps =>
    refine ⟨[], es, hexec.trans (List.append_nil _).symm, ?_, ?_, hholds⟩
    · rw [hps]
      exact h.lists
    · rw [List.filterMap_nil, List.append_nil]
      exact h.started
  | @line s k₁ hkept hps hexec hdid =>
    have hcalled : ∀ x ∈ es.tail, k'.Holds (st.run [s.command]) x :=
      fun x hx => (hholds x hx).call s.command
    have hsame : ¬ s.Runs → k'.processes = k₁.processes → Running (st.run [s.command])
        (progs ++ [s.command].filterMap Command.program) k' es := by
      intro hruns hps'
      refine ⟨?_, ?_, hcalled⟩
      · rw [hps', hps]
        exact h.lists
      · rw [List.filterMap_cons_none (Split.program_of_not_runs hruns), List.filterMap_nil,
          List.append_nil]
        exact h.started
    cases hdid with
    | kept _ hruns _ hps' => exact ⟨_, es, hexec, hsame hruns hps'⟩
    | wrote hw _ _ _ _ _ _ _ hps' =>
      exact ⟨_, es, hexec, hsame (fun hx => absurd (hx.1.symm.trans hw.1) (by decide)) hps'⟩
    | ran hruns _ _ hplaced =>
      have hprogs : progs ++ [s.command].filterMap Command.program = progs ++ [s.arg 1] := by
        rw [List.filterMap_cons_some (Split.program_of_runs hruns), List.filterMap_nil]
      cases hplaced with
      | refused _ hps' =>
        refine ⟨_, es, hexec, ?_, ?_, hcalled⟩
        · rw [hps', hps]
          exact h.lists
        · rw [hprogs]
          exact h.started.trans (List.sublist_append_left _ _)
      | @placed pid page pm hfile hslot _ _ hps' hbytes =>
        rw [hps] at hps'
        have himage := hkept.image_eq hhoused
        rw [himage] at hfile hbytes
        have hpid : pid = es.length ∧ es.length < maxProcesses := by
          have hslot' := hslot.slot
          have hpos := hslot.pos
          rw [hps, h.lists.nextFreePid] at hslot'
          split at hslot' <;> omega
        obtain ⟨rfl, hlt⟩ := hpid
        have hlists := h.lists.concat hlt (shows_blank (k.processes es.length) (s.arg 1) page)
        have htail : (es ++ [(s.arg 1, page)]).tail = es.tail ++ [(s.arg 1, page)] :=
          List.tail_append_of_ne_nil (List.ne_nil_of_length_pos h.lists.pos)
        refine ⟨_, es ++ [(s.arg 1, page)], hexec, ?_, ?_, ?_⟩
        · rw [hps']
          exact hlists
        · rw [hprogs, htail, List.map_append]
          exact h.started.append (List.Sublist.refl _)
        · rw [htail]
          intro x hx
          rcases List.mem_append.mp hx with hx | hx
          · exact hcalled x hx
          · obtain rfl := List.mem_singleton.mp hx
            obtain ⟨f, hfound⟩ := FileStore.find_of_number (hst.lookup_eq (s.arg 1) ▸ hfile)
            have hfound' : k'.Holds st (s.arg 1, page) := by
              refine ⟨f, hfound, fun _ i hi => ?_⟩
              obtain ⟨hi', hbyte⟩ := (hst.headCluster_bytes hfound).2 i hi
              exact (hbytes i hi').trans hbyte
            exact hfound'.call s.command

end Kernel

variable {dir : UInt32} {k₀ k : Kernel} {tr : List (Kernel × Event)}

/-- The process of a slot but the first has a page of its own. -/
theorem Up.isPrivate (hup : Up dir k₀) (hrun : Trace KernelStep k₀ tr k) {i : Nat} (h1 : 1 ≤ i)
    (hi : i < maxProcesses) (hst : (k.processes i).state ≠ .unused) :
    k.Private (k.processes i).processMemoryStart := by
  obtain ⟨n, hbooted, -⟩ := hup.booted
  obtain ⟨ptr, hsep, hheld⟩ := hup.separate hrun
  refine ⟨hsep.owned.taken i hi hst, fun hinit heq => ?_, fun huses => ?_⟩
  · have hmem : k.stdin.bAddr ∈ k.held := by
      unfold Kernel.held
      rw [if_pos hinit]
      exact List.mem_append_left _ (List.mem_singleton_self _)
    exact hsep.apart _ (hheld.mem_iff.mp hmem) i hi hst heq.symm
  · exact hsep.fresh i hi hst (hbooted.unused h1 hi)
      (hbooted.uses _ (((hup.guards hrun).uses _).mp huses))

theorem Up.running (hup : Up dir k₀) : ∃ n, ∀ tr k, Trace KernelStep k₀ tr k →
    ∃ es, Kernel.Running ((Kernel.startingFiles n).run ((lines newline (typed tr)).map tokenize))
      (((lines newline (typed tr)).map tokenize).filterMap Command.program) k es := by
  obtain ⟨n, -, hrep⟩ := hup.represents
  obtain ⟨m, hbooted, -⟩ := hup.booted
  have hexec : ∀ {tr k}, Trace KernelStep k₀ tr k →
      k.shell.executed = (lines newline (typed tr)).map tokenize := by
    intro tr k hrun
    have htyped := (hup.taking hrun).typed.executed
    rwa [hbooted.quiet.2, List.nil_append] at htyped
  refine ⟨n, fun tr k hrun => ?_⟩
  induction hrun with
  | start =>
    obtain ⟨ps, pm, -, hinit⟩ := hbooted.procs
    obtain ⟨page, -, -, hlists⟩ := processSchedInit_lists hinit
    exact ⟨_, hlists, List.nil_sublist _, fun x hx => absurd hx List.not_mem_nil⟩
  | @next tr k e k' hrun hs ih =>
    obtain ⟨es, hes⟩ := ih
    have hset := (hup.taking hrun).settled
    have hpages : ∀ x ∈ es.tail, k.Private x.2 := by
      intro x hx
      obtain ⟨i, hi, rfl⟩ := List.getElem_of_mem hx
      rw [List.length_tail] at hi
      have hle := hes.lists.length_le
      have hshows := hes.lists.shows (i + 1) (by omega)
      rw [List.getElem_tail, ← hshows.memory]
      refine hup.isPrivate hrun (Nat.succ_pos i) (by omega) ?_
      rw [hshows.state]
      decide
    obtain ⟨cmds, es', hcmds, hes'⟩ := hes.step (hrep tr k hrun) hset (hup.guards hrun).housed
      hpages (hup.clear (.next hrun hs)) hs
    refine ⟨es', ?_⟩
    rw [hexec hrun] at hcmds
    rw [← hexec (.next hrun hs), hcmds, List.filterMap_append, FileStore.run, List.foldl_append]
    exact hes'

end KoizOs
