import Mathlib.Data.List.Chain

/-!
# Alternating sequences

A sequence of openings and closings, one after the other, that starts with an opening.
-/

namespace Alternation

variable {α : Type*} {opens : α → Bool} {l l' : List α} {x : α}

/-- The items open and close in turn. The sequence starts as if a closing came before it. -/
def Alternates (opens : α → Bool) (l : List α) : Prop :=
  (false :: l.map opens).IsChain (· ≠ ·)

instance (opens : α → Bool) (l : List α) : Decidable (Alternates opens l) :=
  inferInstanceAs (Decidable ((false :: l.map opens).IsChain (· ≠ ·)))

/-- The last item opens. -/
def isOpen (opens : α → Bool) (l : List α) : Bool :=
  (l.getLast?.map opens).getD false

@[simp]
theorem isOpen_append_singleton : isOpen opens (l ++ [x]) = opens x := by
  rw [isOpen, List.getLast?_append_of_ne_nil _ (List.cons_ne_nil x []), List.getLast?_singleton]
  rfl

theorem alternates_nil : Alternates opens ([] : List α) := List.isChain_singleton false

theorem getLast?_cons_map : (false :: l.map opens).getLast? = some (isOpen opens l) := by
  rcases l.eq_nil_or_concat with rfl | ⟨l, x, rfl⟩
  · rfl
  · rw [List.concat_eq_append, isOpen_append_singleton, List.map_append, ← List.cons_append]
    exact List.getLast?_concat

theorem alternates_append_singleton :
    Alternates opens (l ++ [x]) ↔ Alternates opens l ∧ isOpen opens l ≠ opens x := by
  rw [Alternates, List.map_append, ← List.cons_append, List.isChain_append, getLast?_cons_map]
  constructor
  · rintro ⟨hl, -, hne⟩
    exact ⟨hl, hne _ rfl _ rfl⟩
  · rintro ⟨hl, hne⟩
    refine ⟨hl, List.isChain_singleton _, fun b hb c hc => ?_⟩
    cases hb
    cases hc
    exact hne

/-- A sequence that alternates did so before it was continued. -/
theorem Alternates.left_of_append (h : Alternates opens (l ++ l')) : Alternates opens l := by
  rw [Alternates, List.map_append, ← List.cons_append] at h
  exact List.IsChain.left_of_append h

end Alternation
