import Mathlib.Order.Lattice
import Mathlib.Data.List.Basic

/-!
# The newest of the values that came

A register keeps what it holds when something older comes, and else takes what comes. The values are
compared by a rank, their version, and several values may have the same one.

Results:
1. `IsNewest.keep`: the register holds a value that is as new as all that came.
2. `IsNewest.unique`: with one value for each rank, what is held does not depend on the order in
   which the values came, nor on how often.
-/

namespace Newest

variable {ε ι : Type*} [LinearOrder ι] (rank : ε → ι)

/-- What a register holds after a value has come. -/
def keep (held came : ε) : ε := if rank came < rank held then held else came

/-- The value is in the list, and no other one of the list is newer. -/
structure IsNewest (held : ε) (log : List ε) : Prop where
  mem : held ∈ log
  le : ∀ e ∈ log, rank e ≤ rank held

variable {rank}

theorem keep_old {held came : ε} (h : rank came < rank held) : keep rank held came = held :=
  if_pos h

theorem keep_new {held came : ε} (h : ¬ rank came < rank held) : keep rank held came = came :=
  if_neg h

theorem le_keep (rank : ε → ι) (held came : ε) :
    rank held ≤ rank (keep rank held came) ∧ rank came ≤ rank (keep rank held came) := by
  by_cases h : rank came < rank held
  · rw [keep_old h]
    exact ⟨le_refl _, le_of_lt h⟩
  · rw [keep_new h]
    exact ⟨not_lt.mp h, le_refl _⟩

theorem IsNewest.single (e : ε) : IsNewest rank e [e] :=
  ⟨List.mem_singleton_self e, fun e' he => by rw [List.mem_singleton.mp he]⟩

theorem IsNewest.keep {held : ε} {log : List ε} (h : IsNewest rank held log) (came : ε) :
    IsNewest rank (keep rank held came) (log ++ [came]) := by
  obtain ⟨hheld, hcame⟩ := le_keep rank held came
  constructor
  · unfold Newest.keep
    split
    · exact List.mem_append_left _ h.mem
    · exact List.mem_append_right _ (List.mem_singleton_self came)
  · intro e he
    rcases List.mem_append.mp he with he | he
    · exact le_trans (h.le e he) hheld
    · rwa [List.mem_singleton.mp he]

/-- Two registers to which the same values came hold the same one. -/
theorem IsNewest.unique {held held' : ε} {log log' : List ε} (h : IsNewest rank held log)
    (h' : IsNewest rank held' log') (hsame : ∀ e, e ∈ log ↔ e ∈ log')
    (hrank : ∀ e ∈ log, ∀ e' ∈ log, rank e = rank e' → e = e') : held = held' := by
  have hmem : held' ∈ log := (hsame held').mpr h'.mem
  refine hrank held h.mem held' hmem (le_antisymm (h'.le held ((hsame held).mp h.mem)) ?_)
  exact h.le held' hmem

end Newest
