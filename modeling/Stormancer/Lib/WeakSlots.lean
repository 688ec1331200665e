import Mathlib.Data.Fin.Tuple.Basic

/-!
# Tables of weak references

A table has a fixed number of slots. A slot is empty or holds a weak reference, which can be
locked while its object is alive. A new object takes the first slot that cannot be locked.

Results:
1. `firstFree_eq_some`, `firstFree_eq_none`: which slot is taken, and when there is none.
2. `lock_store`, `lock_reset`: a write changes what is held in its slot only.
3. `lock_of_destroy`: the destruction of an object empties the slots that hold it.
-/

namespace WeakSlots

variable {n : Nat} {α : Type}

/-- A table of `n` slots. -/
abbrev Table (n : Nat) (α : Type) := Fin n → Option α

/-- The table of empty slots. -/
def empty : Table n α := fun _ => none

/-- The object that the slot holds, if it is alive. -/
def lock (alive : α → Bool) (t : Table n α) (i : Fin n) : Option α := (t i).filter alive

def store (t : Table n α) (i : Fin n) (x : α) : Table n α := Function.update t i (some x)

def reset (t : Table n α) (i : Fin n) : Table n α := Function.update t i none

/-- The first slot that cannot be locked. -/
def firstFree (alive : α → Bool) (t : Table n α) : Option (Fin n) :=
  Fin.find? fun i => (lock alive t i).isNone

variable {alive : α → Bool} {t : Table n α}

theorem lock_eq_some {i : Fin n} {x : α} :
    lock alive t i = some x ↔ t i = some x ∧ alive x = true := by
  unfold lock
  rw [Option.filter_eq_some_iff]

theorem lock_store {i j : Fin n} {x : α} (hx : alive x = true) :
    lock alive (store t i x) j = if j = i then some x else lock alive t j := by
  unfold lock store
  rw [Function.update_apply]
  split
  · exact Option.filter_some_pos hx
  · rfl

theorem lock_reset {i j : Fin n} :
    lock alive (reset t i) j = if j = i then none else lock alive t j := by
  unfold lock reset
  rw [Function.update_apply]
  split <;> rfl

/-- What is held after some objects were destroyed was held before. -/
theorem lock_of_destroy {alive' : α → Bool} (h : ∀ x, alive' x = true → alive x = true)
    {i : Fin n} {x : α} (hlock : lock alive' t i = some x) : lock alive t i = some x := by
  obtain ⟨heq, hx⟩ := lock_eq_some.mp hlock
  exact lock_eq_some.mpr ⟨heq, h x hx⟩

theorem firstFree_eq_some {i : Fin n} :
    firstFree alive t = some i ↔
      lock alive t i = none ∧ ∀ j < i, (lock alive t j).isSome = true := by
  unfold firstFree
  rw [Fin.find?_eq_some_iff, Option.isNone_iff_eq_none]
  simp only [Option.isNone_eq_false_iff]

theorem firstFree_eq_none :
    firstFree alive t = none ↔ ∀ i, (lock alive t i).isSome = true := by
  unfold firstFree
  rw [Fin.find?_eq_none_iff]
  simp only [Option.isNone_eq_false_iff]

end WeakSlots
