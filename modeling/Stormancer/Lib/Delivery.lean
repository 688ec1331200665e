import Mathlib.Data.List.Perm.Basic

/-!
# A transport that delivers once, in partial order

Every message arrives exactly once. Messages that are ordered on the same channel arrive in the
order in which they were sent; the others may arrive at any time.

Results:
1. `Delivers.eq_of_one_channel`: if every message is ordered on one channel, they arrive as they
   were sent.
2. `Delivers.last_overtakes`: the last message may overtake one of another channel, when all sent
   between them are of its own channel.
-/

namespace Delivery

variable {α κ : Type*} [DecidableEq κ]

/-- The messages that were sent and the order in which they arrive. `channel` is the channel on
which a message is ordered, if it is. -/
structure Delivers (channel : α → Option κ) (sent arrived : List α) : Prop where
  once : arrived.Perm sent
  order : ∀ k, arrived.filter (fun m => channel m = some k) =
    sent.filter fun m => channel m = some k

/-- The last element of a list that does not have a property. -/
theorem exists_split_last {l : List α} {p : α → Prop} (h : ∃ x ∈ l, ¬ p x) :
    ∃ l₁ x l₂, l = l₁ ++ x :: l₂ ∧ ¬ p x ∧ ∀ y ∈ l₂, p y := by
  induction l with
  | nil =>
    obtain ⟨x, hx, _⟩ := h
    cases hx
  | cons a l ih =>
    by_cases hl : ∃ x ∈ l, ¬ p x
    · obtain ⟨l₁, x, l₂, rfl, hx, hall⟩ := ih hl
      exact ⟨a :: l₁, x, l₂, rfl, hx, hall⟩
    · have hall : ∀ y ∈ l, p y := by simpa using hl
      obtain ⟨x, hx, hnot⟩ := h
      rcases List.mem_cons.mp hx with rfl | hx
      · exact ⟨[], x, l, rfl, hnot, hall⟩
      · exact absurd (hall x hx) hnot

namespace Delivers

variable {channel : α → Option κ} {sent arrived : List α}

theorem eq_of_one_channel (h : Delivers channel sent arrived) {k : κ}
    (hall : ∀ m ∈ sent, channel m = some k) : arrived = sent := by
  have harr : ∀ m ∈ arrived, channel m = some k := fun m hm => hall m (h.once.mem_iff.mp hm)
  have horder := h.order k
  rw [List.filter_eq_self.mpr fun m hm => decide_eq_true (harr m hm),
    List.filter_eq_self.mpr fun m hm => decide_eq_true (hall m hm)] at horder
  exact horder

theorem last_overtakes {l₁ l₂ : List α} {m last : α} (hm : channel m ≠ channel last)
    (hl₂ : ∀ x ∈ l₂, channel x = channel last) :
    Delivers channel (l₁ ++ m :: l₂ ++ [last]) (l₁ ++ l₂ ++ [last, m]) where
  once := by
    rw [List.append_assoc, List.append_assoc]
    refine List.Perm.append_left l₁ ?_
    show (l₂ ++ ([last] ++ [m])).Perm ([m] ++ (l₂ ++ [last]))
    rw [← List.append_assoc]
    exact List.perm_append_comm
  order := by
    intro k
    by_cases hk : channel m = some k
    · -- What overtakes `m` is not ordered with it.
      have hlast : channel last ≠ some k := fun h => hm (hk.trans h.symm)
      have hnone : l₂.filter (fun x => channel x = some k) = [] := by
        rw [List.filter_eq_nil_iff]
        intro x hx
        simpa [hl₂ x hx] using hlast
      simp [List.filter_append, hk, hlast, hnone]
    · simp [List.filter_append, List.filter_cons, hk]

end Delivers

end Delivery
