import Mathlib.Data.List.Basic

/-!
# Heaps

The objects that were made, in the order in which they were made. The index of an object is its
reference: an object is made at the end, and the others keep their references.
-/

namespace Heap

variable {α : Type*} {heap : List α} {x y : α} {i j : Nat}

/-- The objects after one more was made. -/
theorem get_make (heap : List α) (x : α) (i : Nat) :
    (heap ++ [x])[i]? = if i = heap.length then some x else heap[i]? := by
  rcases Nat.lt_trichotomy i heap.length with hlt | rfl | hgt
  · rw [List.getElem?_append_left hlt, if_neg (Nat.ne_of_lt hlt)]
  · rw [List.getElem?_concat_length, if_pos rfl]
  · rw [if_neg (Nat.ne_of_gt hgt), List.getElem?_eq_none (Nat.le_of_lt hgt), List.getElem?_eq_none]
    rw [List.length_append, List.length_singleton]
    exact hgt

/-- An object is one of the old ones, or it is the new one. -/
theorem of_make (h : (heap ++ [x])[i]? = some y) :
    heap[i]? = some y ∨ i = heap.length ∧ y = x := by
  rw [get_make] at h
  split at h
  · next heq => exact .inr ⟨heq, (Option.some.inj h).symm⟩
  · exact .inl h

/-- An object is as it was, or it is the one that was changed. -/
theorem of_set (h : (heap.set i x)[j]? = some y) :
    (j ≠ i ∧ heap[j]? = some y) ∨ j = i ∧ y = x := by
  rw [List.getElem?_set] at h
  split at h
  · next heq =>
    split at h
    · exact .inr ⟨heq.symm, (Option.some.inj h).symm⟩
    · cases h
  · next hne => exact .inl ⟨Ne.symm hne, h⟩

/-- The objects around one of them, which a change of it leaves alone. -/
theorem split (h : heap[i]? = some x) : ∃ before after, heap = before ++ x :: after ∧
    ∀ y, heap.set i y = before ++ y :: after := by
  obtain ⟨hi, hx⟩ := List.getElem?_eq_some_iff.mp h
  refine ⟨heap.take i, heap.drop (i + 1), ?_, fun y => ?_⟩
  · rw [← hx, List.getElem_cons_drop, List.take_append_drop]
  · exact List.set_eq_take_append_cons_drop.trans (if_pos hi)

/-- The objects other than the one that was changed. -/
theorem mem_set_of_ne (h : heap[i]? = some x) (hy : y ∈ heap) (hne : y ≠ x) (z : α) :
    y ∈ heap.set i z := by
  obtain ⟨before, after, hheap, hset⟩ := split h
  rw [hheap, List.mem_append, List.mem_cons] at hy
  rw [hset, List.mem_append, List.mem_cons]
  exact hy.imp_right fun hy => .inr (hy.resolve_left hne)

theorem mem_set_self (h : heap[i]? = some x) (z : α) : z ∈ heap.set i z := by
  obtain ⟨before, after, -, hset⟩ := split h
  rw [hset]
  exact List.mem_append_right _ List.mem_cons_self

end Heap
