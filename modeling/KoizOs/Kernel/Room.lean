import KoizOs.Kernel.Boot
import KoizOs.Kernel.Refines
import Mathlib.Data.Finset.Card

/-!
# Room for a run

No page is given back while the kernel runs, so the pages it takes are those behind the cursor,
one after the other:

    1 for the standard input + at most 100 for the largest slab + at most 64 for processes

With 165 pages behind record `c` the pages up to record `c` have none of the largest slab right
before them: what boot has set up is never stored into by a `read`.
-/

namespace KoizOs

open Function Lib

/-! ## Slots in use -/

variable {ps : ProcessTable} {pid : Nat} {p : Process}

def usedSlots (ps : ProcessTable) : Nat :=
  ((Finset.range maxProcesses).filter fun i => (ps i).state ≠ .unused).card

theorem usedSlots_le (ps : ProcessTable) : usedSlots ps ≤ maxProcesses :=
  (Finset.card_filter_le _ _).trans_eq (Finset.card_range _)

/-- A slot comes into use. -/
theorem usedSlots_update (hpid : pid < maxProcesses) (hunused : (ps pid).state = .unused)
    (hst : p.state ≠ .unused) : usedSlots (update ps pid p) = usedSlots ps + 1 := by
  have hset : ((Finset.range maxProcesses).filter fun i => (update ps pid p i).state ≠ .unused) =
      insert pid ((Finset.range maxProcesses).filter fun i => (ps i).state ≠ .unused) := by
    ext i
    rw [Finset.mem_insert, Finset.mem_filter, Finset.mem_filter, Finset.mem_range]
    by_cases hi : i = pid
    · subst hi
      rw [update_self]
      exact ⟨fun _ => .inl rfl, fun _ => ⟨hpid, hst⟩⟩
    · rw [update_of_ne hi]
      exact ⟨.inr, fun h => h.resolve_left hi⟩
  have hnew : pid ∉ (Finset.range maxProcesses).filter fun i => (ps i).state ≠ .unused :=
    fun hmem => (Finset.mem_filter.mp hmem).2 hunused
  rw [usedSlots, hset, Finset.card_insert_of_notMem hnew]
  rfl

/-! ## Pages, one after the other -/

section Order

variable {s t u : ProcSys Pmem} {ptr : List (ProcSys Pmem × PoolOp)} {op : PoolOp} {c n : Nat}

/-- `t` comes from `s`, whose pages are those up to record `c`, and has `n` pages more: those of
`ptr` and those of processes. -/
structure Onward (s : ProcSys Pmem) (c : Nat) (ptr : List (ProcSys Pmem × PoolOp)) (n : Nat)
    (t : ProcSys Pmem) : Prop where
  opened : t.pages.Open (c + n)
  count : n + usedSlots s.processes = (visible PoolOp.page ptr).length + usedSlots t.processes
  grows : s.pages.Grows t.pages
  behind : ∀ p ∈ visible PoolOp.page ptr,
    ∃ e, e < s.pages.pmemMgrReservedSize ∧ c < e.toNat ∧ p = s.pages.pageAddr e

namespace Onward

theorem start (h : s.pages.Open c) : Onward s c [] 0 s where
  opened := h
  count := rfl
  grows := .refl h.sound.initialised
  behind _ hp := absurd hp List.not_mem_nil

/-- The next page. -/
theorem take {pm : Pmem} {p : UInt32} (h : Onward s c ptr n t)
    (hroom : c + n + 1 < s.pages.pmemMgrReservedSize.toNat)
    (halloc : pmemAlloc t.pages = .ok (p, pm)) : pm.Open (c + (n + 1)) ∧ s.pages.Grows pm ∧
      p ≠ 0 ∧ ∃ e, e < s.pages.pmemMgrReservedSize ∧ c < e.toNat ∧ p = s.pages.pageAddr e := by
  rw [← h.grows.layout.size] at hroom
  obtain ⟨p', pm', halloc', hp, hopen, hgrows, hnew, -, -⟩ := h.opened.take hroom
  obtain ⟨rfl, rfl⟩ := Prod.mk.inj (Except.ok.inj (halloc'.symm.trans halloc))
  have hnat := Pmem.Frontier.record_toNat h.opened.sound.initialised hroom
  refine ⟨hopen, h.grows.trans hgrows, hopen.sound.allocated_ne_zero hnew,
    UInt32.ofNat (c + n + 1), ?_, ?_, hp.trans ?_⟩
  · rw [← h.grows.layout.size, UInt32.lt_iff_toNat_lt, hnat]
    exact hroom
  · omega
  · unfold Pmem.pageAddr
    rw [h.grows.layout.allocStart]

theorem next (h : Onward s c ptr n t) (hs : PoolStep t op u) (hop : ¬ op.Frees)
    (hroom : c + n + 1 < s.pages.pmemMgrReservedSize.toNat) :
    ∃ n', Onward s c (ptr ++ [(t, op)]) n' u := by
  cases hs with
  | @call _ op hs =>
    have hsame : visible PoolOp.page (ptr ++ [(t, .call op)]) = visible PoolOp.page ptr :=
      visible_silent rfl ptr t
    cases op with
    | execve fileName fs =>
      obtain ⟨res, hx⟩ := hs
      rcases processExecve_slot hx with ⟨-, -, rfl⟩ |
        ⟨pid, page, st, -, -, hlt, hunused, halloc, hps, hcase⟩
      · exact ⟨n, h.opened, hsame ▸ h.count, h.grows, hsame ▸ h.behind⟩
      · obtain ⟨hopen, hgrows, hne, -⟩ := h.take hroom halloc
        rcases hcase with ⟨-, hpage, -⟩ | ⟨-, -, rfl, -⟩
        · exact absurd hpage hne
        · refine ⟨n + 1, hopen, ?_, hgrows, hsame ▸ h.behind⟩
          have hcount := h.count
          rw [hsame, hps, usedSlots_update hlt hunused (by simp)]
          omega
    | update =>
      obtain ⟨sched, -, rfl⟩ := hs
      exact ⟨n, h.opened, hsame ▸ h.count, h.grows, hsame ▸ h.behind⟩
  | @alloc p pm halloc =>
    obtain ⟨hopen, hgrows, -, hbehind⟩ := h.take hroom halloc
    have hlast : visible PoolOp.page (ptr ++ [(t, .alloc p)]) = visible PoolOp.page ptr ++ [p] :=
      visible_concat (show PoolOp.page (.alloc p) = some p from rfl) ptr t
    refine ⟨n + 1, hopen, ?_, hgrows, ?_⟩
    · have hcount := h.count
      rw [hlast, List.length_append, List.length_singleton]
      dsimp only
      omega
    · intro q hq
      rw [hlast, List.mem_append, List.mem_singleton] at hq
      rcases hq with hq | rfl
      · exact h.behind q hq
      · exact hbehind
  | free => exact absurd ⟨_, rfl⟩ hop
  | @store m hm =>
    have hsame : visible PoolOp.page (ptr ++ [(t, .store)]) = visible PoolOp.page ptr :=
      visible_silent rfl ptr t
    have hgrows := h.opened.sound.grows_of_records hm
    exact ⟨n, ⟨h.opened.sound.grows hgrows, h.opened.frontier.store hm⟩, hsame ▸ h.count,
      h.grows.trans hgrows, hsame ▸ h.behind⟩

/-- A run without frees, as long as there is room. -/
theorem run (hopen : s.pages.Open c) (hrun : Trace PoolStep s ptr t)
    (hkept : ∀ x ∈ ptr, ¬ x.2.Frees)
    (hroom : c + (visible PoolOp.page ptr).length + maxProcesses + 1 <
      s.pages.pmemMgrReservedSize.toNat) : ∃ n, Onward s c ptr n t := by
  induction hrun with
  | start => exact ⟨0, .start hopen⟩
  | @next ptr t u op hrun hs ih =>
    rw [visible_append, List.length_append] at hroom
    obtain ⟨n, h⟩ := ih (fun x hx => hkept x (List.mem_append_left _ hx)) (by omega)
    have hop := hkept (t, op) (List.mem_append_right _ (List.mem_singleton_self _))
    have hcount := h.count
    have hused := usedSlots_le t.processes
    exact h.next hs hop (by omega)

end Onward

end Order

/-! ## The kernel -/

namespace Kernel

variable {k k₀ : Kernel} {ptr : List (ProcSys Pmem × PoolOp)} {tr : List (Kernel × Event)}
  {st : FileStore} {c : Nat} {dir : UInt32}

theorem held_length_le (hS : SlabOk 0 (k.slabs 0)) : k.held.length ≤ 1 + slabMaxPageCount := by
  have hpages := hS.currentPage_le
  rw [held, List.length_append, List.length_map, List.length_range]
  refine Nat.add_le_add ?_ hpages
  split
  · exact Nat.le_refl 1
  · exact Nat.zero_le 1

namespace Booted

theorem held_eq (h : k₀.Booted st c dir) : k₀.held = [] := by
  rw [held, h.noPages, h.stdin]
  rfl

/-- The pages that are taken from boot on. -/
theorem onward (h : k₀.Booted st c dir) (hroom : c + 166 < k₀.pmem.pmemMgrReservedSize.toNat)
    (hp : k₀.Pools ptr k) : ∃ n, Onward k₀.procs c ptr n k.procs := by
  have hlen := hp.held.length_eq
  rw [h.held_eq, List.nil_append] at hlen
  have hle := held_length_le hp.slab
  have hslots : maxProcesses = 64 := rfl
  have hpages : slabMaxPageCount = 100 := rfl
  refine Onward.run h.opened hp.run hp.kept ?_
  rw [← hlen, show k₀.procs.pages = k₀.pmem from rfl]
  omega

/-- None of them is right before a page of boot. -/
theorem clear (h : k₀.Booted st c dir) (hroom : c + 166 < k₀.pmem.pmemMgrReservedSize.toNat)
    (hp : k₀.Pools ptr k) : k.Clear (k₀.Reserved dir) := by
  obtain ⟨n, horder⟩ := h.onward hroom hp
  intro j hj hG
  have hheld : (k.slabs 0).pages j ∈ k.held :=
    List.mem_append_right _ (List.mem_map.mpr ⟨j, List.mem_range.mpr hj, rfl⟩)
  have hmem := hp.held.mem_iff.mp hheld
  rw [h.held_eq, List.nil_append] at hmem
  obtain ⟨e, he, hce, heq⟩ := horder.behind _ hmem
  obtain ⟨e', he', hle, heq'⟩ := h.opened.frontier.le_of_allocated (h.guarded hG)
  have hs := h.opened.sound
  have htop := hs.top
  have hlt : e.toNat < k₀.pmem.pmemMgrReservedSize.toNat := UInt32.lt_iff_toNat_lt.mp he
  have hnat := congrArg UInt32.toNat heq'
  rw [heq, UInt32.toNat_add, hs.apart.pageAddr_toNat he',
    show (4096 : UInt32).toNat = 4096 from rfl, show k₀.procs.pages = k₀.pmem from rfl,
    hs.apart.pageAddr_toNat he] at hnat
  omega

end Booted

/-- The pools of a run, from what every run of the process system leaves clear. -/
theorem run_pools {G : UInt32 → Prop} (hset : k₀.Settled) (h : k₀.Housed G)
    (hclear : ∀ ptr k₁, k₀.Pools ptr k₁ → k₁.Clear G) (hrun : Trace KernelStep k₀ tr k) :
    ∃ ptr, k₀.Pools ptr k ∧ (visible PoolOp.update ptr).length = tr.length ∧
      ∃ cmds, k.shell.executed = k₀.shell.executed ++ cmds ∧
        visible PoolOp.program ptr = cmds.filterMap Command.program := by
  induction hrun with
  | start =>
    refine ⟨[], .of_eq h.slab rfl rfl rfl, rfl, [], (List.append_nil _).symm, rfl⟩
  | next hrun hs ih =>
    obtain ⟨ptr, hp, hcount, cmds, hexec, hprogram⟩ := ih
    have hset' := settled_run hset hrun
    have hguards := run_guards hset h hrun (hclear ptr _ hp)
    obtain ⟨ptr', hp', hupdate, cmds', hexec', hprogram'⟩ :=
      step_pools hset' hguards.housed (fun _ _ h' => hclear _ _ (hp.trans h')) hs
    refine ⟨ptr ++ ptr', hp.trans hp', ?_, cmds ++ cmds', ?_, ?_⟩
    · rw [visible_append, hupdate, List.length_append, List.length_append, hcount]
      rfl
    · rw [hexec', hexec, List.append_assoc]
    · rw [visible_append, hprogram, hprogram', List.filterMap_append]

end Kernel

end KoizOs
