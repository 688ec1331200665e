import Mathlib.Data.List.Basic

/-!
# Logs whose events follow from those before

A log grows at its end, and what may be added to it is a relation between the events so far and the
next one.

Results:
1. `Chronicle.nil`, `Chronicle.snoc`: how a log keeps the relation.
2. `Chronicle.of_mem`: what holds of an event of the log, with the events before it.
-/

variable {ε : Type*} {R : List ε → ε → Prop} {log : List ε}

/-- Every event of the log is related to the events before it. -/
def Chronicle (R : List ε → ε → Prop) (log : List ε) : Prop :=
  ∀ before e after, log = before ++ e :: after → R before e

namespace Chronicle

theorem nil : Chronicle R [] := by
  intro before e after h
  exact absurd h.symm (List.append_ne_nil_of_right_ne_nil before (List.cons_ne_nil e after))

theorem snoc {e : ε} (h : Chronicle R log) (he : R log e) : Chronicle R (log ++ [e]) := by
  intro before e' after heq
  rcases after.eq_nil_or_concat with rfl | ⟨after, last, rfl⟩
  · obtain ⟨rfl, hlast⟩ := List.append_inj' heq rfl
    cases hlast
    exact he
  · rw [List.concat_eq_append, ← List.cons_append, ← List.append_assoc] at heq
    exact h before e' after (List.append_inj' heq rfl).1

theorem of_mem (h : Chronicle R log) {e : ε} (he : e ∈ log) :
    ∃ before after, log = before ++ e :: after ∧ R before e := by
  obtain ⟨before, after, rfl⟩ := List.append_of_mem he
  exact ⟨before, after, rfl, h before e after rfl⟩

end Chronicle
