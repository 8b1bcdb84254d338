import KoizOs.Kernel.System

/-!
# Who owns which page

Each page of the pool that is taken when the kernel runs has one owner:

    boot | the standard input | the largest slab | a process

The process system alone knows the last of these (`Ownership`); the others are among the pages
that were taken from it.
-/

namespace KoizOs

open Function Lib

section Separate

variable {s t u : ProcSys Pmem} {ptr : List (ProcSys Pmem × PoolOp)} {op : PoolOp} {p : UInt32}

/-- In `t`, which comes from `s`, the pages that were taken are different ones, none was taken in
`s`, and none is a process's; nor is the page of a process that is new one of `s`. -/
structure Separate (s : ProcSys Pmem) (ptr : List (ProcSys Pmem × PoolOp)) (t : ProcSys Pmem) :
    Prop where
  sound : t.pages.Sound
  grows : s.pages.Grows t.pages
  owned : Ownership t
  nodup : (visible PoolOp.page ptr).Nodup
  taken : ∀ p ∈ visible PoolOp.page ptr, t.pages.Allocated p ∧ ¬ s.pages.Allocated p
  apart : ∀ p ∈ visible PoolOp.page ptr, ∀ i, i < maxProcesses →
    (t.processes i).state ≠ .unused → (t.processes i).processMemoryStart ≠ p
  fresh : ∀ i, i < maxProcesses → (t.processes i).state ≠ .unused →
    (s.processes i).state = .unused → ¬ s.pages.Allocated (t.processes i).processMemoryStart

namespace Separate

theorem start (hs : s.pages.Sound) (h : Ownership s) : Separate s [] s where
  sound := hs
  grows := .refl hs.initialised
  owned := h
  nodup := List.nodup_nil
  taken _ hp := absurd hp List.not_mem_nil
  apart _ hp := absurd hp List.not_mem_nil
  fresh _ _ hused hunused := absurd hunused hused

theorem next (h : Separate s ptr t) (hs : PoolStep t op u) (hop : ¬ op.Frees) :
    Separate s (ptr ++ [(t, op)]) u := by
  obtain ⟨-, howned⟩ := h.owned.step h.sound.initialised hs
  cases hs with
  | @call _ op hs =>
    have hsame : visible PoolOp.page (ptr ++ [(t, .call op)]) = visible PoolOp.page ptr :=
      visible_silent rfl ptr t
    cases op with
    | execve fileName fs =>
      obtain ⟨res, hx⟩ := hs
      rcases processExecve_slot hx with ⟨-, -, rfl⟩ |
        ⟨pid, page, st, -, -, hlt, hunused, halloc, hps, -⟩
      · exact ⟨h.sound, h.grows, h.owned, hsame ▸ h.nodup, hsame ▸ h.taken, hsame ▸ h.apart,
          h.fresh⟩
      · obtain ⟨hgrows, -, hnew, -⟩ := h.sound.alloc halloc
        have hself : (u.processes pid).processMemoryStart = page := by
          rw [hps, update_self]
          rfl
        have hother : ∀ i, i ≠ pid → u.processes i = t.processes i := by
          intro i hi
          rw [hps, update_of_ne hi]
        refine ⟨h.sound.grows hgrows, h.grows.trans hgrows, howned, hsame ▸ h.nodup, ?_, ?_, ?_⟩
        · rw [hsame]
          exact fun p hp => ⟨hgrows.allocated p (h.taken p hp).1, (h.taken p hp).2⟩
        · rw [hsame]
          intro p hp i hi hst
          by_cases hip : i = pid
          · subst hip
            rw [hself]
            rintro rfl
            exact hnew (h.taken _ hp).1
          · rw [hother i hip] at hst ⊢
            exact h.apart p hp i hi hst
        · intro i hi hst hbefore
          by_cases hip : i = pid
          · subst hip
            rw [hself]
            exact fun hq => hnew (h.grows.allocated _ hq)
          · rw [hother i hip] at hst ⊢
            exact h.fresh i hi hst hbefore
    | update =>
      obtain ⟨sched, -, rfl⟩ := hs
      exact ⟨h.sound, h.grows, howned, hsame ▸ h.nodup, hsame ▸ h.taken, hsame ▸ h.apart, h.fresh⟩
  | @alloc p pm halloc =>
    obtain ⟨hgrows, hp, hnew, -⟩ := h.sound.alloc halloc
    have hlast : visible PoolOp.page (ptr ++ [(t, .alloc p)]) = visible PoolOp.page ptr ++ [p] :=
      visible_concat (show PoolOp.page (.alloc p) = some p from rfl) ptr t
    have hfresh : p ∉ visible PoolOp.page ptr := fun hmem => hnew (h.taken p hmem).1
    refine ⟨h.sound.grows hgrows, h.grows.trans hgrows, howned, ?_, ?_, ?_, h.fresh⟩
    · rw [hlast, ← List.concat_eq_append]
      exact h.nodup.concat hfresh
    · intro q hq
      rw [hlast, List.mem_append, List.mem_singleton] at hq
      rcases hq with hq | rfl
      · exact ⟨hgrows.allocated q (h.taken q hq).1, (h.taken q hq).2⟩
      · exact ⟨hp, fun hq => hnew (h.grows.allocated _ hq)⟩
    · intro q hq i hi hst
      rw [hlast, List.mem_append, List.mem_singleton] at hq
      rcases hq with hq | rfl
      · exact h.apart q hq i hi hst
      · rintro rfl
        exact hnew (h.owned.taken i hi hst)
  | free => exact absurd ⟨_, rfl⟩ hop
  | @store m hm =>
    have hsame : visible PoolOp.page (ptr ++ [(t, .store)]) = visible PoolOp.page ptr :=
      visible_silent rfl ptr t
    have hgrows := h.sound.grows_of_records hm
    refine ⟨h.sound.grows hgrows, h.grows.trans hgrows, howned, hsame ▸ h.nodup, ?_,
      hsame ▸ h.apart, h.fresh⟩
    rw [hsame]
    exact fun p hp => ⟨hgrows.allocated p (h.taken p hp).1, (h.taken p hp).2⟩

theorem run (hs : s.pages.Sound) (h : Ownership s) (hrun : Trace PoolStep s ptr t)
    (hkept : ∀ x ∈ ptr, ¬ x.2.Frees) : Separate s ptr t := by
  induction hrun with
  | start => exact .start hs h
  | @next ptr t u op hrun hs' ih =>
    exact (ih fun x hx => hkept x (List.mem_append_left _ hx)).next hs'
      (hkept (t, op) (List.mem_append_right _ (List.mem_singleton_self _)))

end Separate

end Separate

/-! ## The kernel -/

variable {dir : UInt32} {k₀ k : Kernel} {tr : List (Kernel × Event)}

theorem Up.separate (hup : Up dir k₀) (hrun : Trace KernelStep k₀ tr k) :
    ∃ ptr, Separate k₀.procs ptr k.procs ∧ k.held.Perm (visible PoolOp.page ptr) := by
  obtain ⟨n, hbooted, -⟩ := hup.booted
  obtain ⟨ptr, hp, -⟩ := hup.pools hrun
  have hheld := hp.held
  rw [hbooted.held_eq, List.nil_append] at hheld
  exact ⟨ptr, .run hbooted.opened.sound hbooted.ownership hp.run hp.kept, hheld⟩

end KoizOs
