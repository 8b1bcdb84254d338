import KoizOs.Lib.Run

/-!
# Lending resources to a client that returns only what it holds

`Client take give` runs a provider, whose steps are `take` and `give`, together with the
list of what the client holds: a resource taken is held from then on, and only a held
resource is given back.  `Lend pool` is the provider seen from outside: it lends members
of `pool`, and never one that is held.  `Client.refines` is the rule for showing that a
provider is one: an invariant under which `take` only yields unheld members of the pool.
-/

namespace Lib

variable {σ α : Type} [DecidableEq α]

inductive Event (α : Type) where
  | take (a : α)
  | give (a : α)

inductive Client (take give : σ → α → σ → Prop) : σ × List α → Event α → σ × List α → Prop
  | take {s t : σ} {held : List α} {a : α} :
      take s a t → Client take give (s, held) (.take a) (t, a :: held)
  | give {s t : σ} {held : List α} {a : α} :
      a ∈ held → give s a t → Client take give (s, held) (.give a) (t, held.erase a)

inductive Lend (pool : α → Prop) : List α → Event α → List α → Prop
  | take {held : List α} {a : α} : pool a → a ∉ held → Lend pool held (.take a) (a :: held)
  | give {held : List α} {a : α} : a ∈ held → Lend pool held (.give a) (held.erase a)

/-- What is held is held once, and comes from the pool. -/
theorem Lend.held_nodup {pool : α → Prop} {held : List α} {tr : List (List α × Event α)}
    (htr : Trace (Lend pool) [] tr held) : held.Nodup ∧ ∀ a ∈ held, pool a := by
  refine (htr.invariant (I := fun held => held.Nodup ∧ ∀ a ∈ held, pool a) (by simp) ?_).1
  rintro held o held' ⟨hnd, hpool⟩ hs
  cases hs with
  | take ha hna => exact ⟨List.nodup_cons.mpr ⟨hna, hnd⟩, by simpa using ⟨ha, hpool⟩⟩
  | give ha => exact ⟨hnd.erase _, fun b hb => hpool b (List.mem_of_mem_erase hb)⟩

/-- A provider whose `take` only yields unheld members of the pool lends from the pool. -/
theorem Client.refines {take give : σ → α → σ → Prop} {pool : α → Prop} {I : σ × List α → Prop}
    {s t : σ} {held : List α} {tr : List ((σ × List α) × Event α)}
    (htr : Trace (Client take give) (s, []) tr (t, held)) (h0 : I (s, []))
    (hI : ∀ x o y, I x → Client take give x o y → I y)
    (htake : ∀ s a t held, I (s, held) → take s a t → pool a ∧ a ∉ held) :
    Trace (Lend pool) [] (tr.map fun e => (e.1.2, e.2)) held := by
  refine htr.refines Prod.snd h0 hI ?_
  rintro ⟨s, held⟩ o ⟨s', held'⟩ hx hs
  cases hs with
  | take ha =>
    obtain ⟨hp, hn⟩ := htake _ _ _ _ hx ha
    exact .take hp hn
  | give ha _ => exact .give ha

end Lib
