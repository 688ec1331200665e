import Stormancer.Lib.Slots

/-!
# Waiters under the keys of a table

Waiters are numbered. `waits i = some key` says that waiter `i` waits under `key`, and
`waits i = none` that there is no such waiter, or that it waits no more. A table leads from a key
to one waiter, so whoever has an answer for a key can reach only that one.

Results:
1. `Paired.unique`, `Paired.free_iff_forall`: when each waiter is found under its key, one waits
   under a key at most, and none under a key that is free.
2. `Paired.add`, `Paired.removeKey`: a waiter that comes under a free key is found, and one that
   leaves with its entry leaves the others where they are.
-/

namespace Waiters

variable {κ : Type} [DecidableEq κ] {waits waits' : Nat → Option κ}
  {table table' : Slots.Table κ Nat} {n i j : Nat} {key : κ}

/-- Each waiter is found under its key, and who is found is waiting. -/
def Paired (waits : Nat → Option κ) (table : Slots.Table κ Nat) : Prop :=
  ∀ i key, waits i = some key ↔ table.lookup key = some i

namespace Paired

theorem empty : Paired (fun _ => none) (∅ : Slots.Table κ Nat) := by
  intro i key
  simp [AList.lookup_empty]

theorem unique (h : Paired waits table) (hi : waits i = some key) (hj : waits j = some key) :
    i = j :=
  Option.some.inj (((h i key).mp hi).symm.trans ((h j key).mp hj))

theorem free_iff (h : Paired waits table) : table.lookup key = none ↔ ∀ i, waits i ≠ some key := by
  constructor
  · intro hfree i hi
    cases hfree.symm.trans ((h i key).mp hi)
  · intro hnone
    cases hlookup : table.lookup key with
    | none => rfl
    | some i => exact absurd ((h i key).mpr hlookup) (hnone i)

/-- The waiters are the members of a list. -/
theorem free_iff_forall {β : Type} {waitsFor : β → Option κ} {waiters : List β}
    (h : Paired (fun i => waiters[i]?.bind waitsFor) table) :
    table.lookup key = none ↔ ∀ w ∈ waiters, waitsFor w ≠ some key := by
  rw [h.free_iff]
  constructor
  · intro hnone w hmem hwaits
    obtain ⟨i, hi⟩ := List.mem_iff_getElem?.mp hmem
    exact hnone i (Option.bind_eq_some_iff.mpr ⟨w, hi, hwaits⟩)
  · intro hall i hi
    obtain ⟨w, hw, hwaits⟩ := Option.bind_eq_some_iff.mp hi
    exact hall w (List.mem_of_getElem? hw) hwaits

/-- A new waiter comes under a key that nobody waits under. -/
theorem add (h : Paired waits table) (hnew : waits n = none) (hfree : table.lookup key = none)
    (hwaits : ∀ i, waits' i = if i = n then some key else waits i)
    (htable : ∀ key', table'.lookup key' = if key' = key then some n else table.lookup key') :
    Paired waits' table' := by
  intro i key'
  rw [hwaits, htable]
  split
  · next hi =>
    subst hi
    split
    · next hkey => simp [hkey]
    · next hkey =>
      constructor
      · exact fun heq => absurd (Option.some.inj heq).symm hkey
      · intro hlookup
        cases hnew.symm.trans ((h i key').mpr hlookup)
  · next hi =>
    split
    · next hkey =>
      subst hkey
      constructor
      · intro hwait
        cases hfree.symm.trans ((h i key').mp hwait)
      · exact fun heq => absurd (Option.some.inj heq).symm hi
    · exact h i key'

/-- Whoever waits under a key leaves, and the entry of the key goes as well. -/
theorem removeKey (h : Paired waits table)
    (hwaits : ∀ i, waits' i = if waits i = some key then none else waits i)
    (htable : ∀ key', table'.lookup key' = if key' = key then none else table.lookup key') :
    Paired waits' table' := by
  intro i key'
  rw [hwaits, htable]
  split
  · next hi =>
    split
    · simp
    · next hne =>
      have hnot : waits i ≠ some key' := by
        rw [hi]
        exact fun heq => hne (Option.some.inj heq).symm
      simpa using fun hlookup => hnot ((h i key').mpr hlookup)
  · next hi =>
    split
    · next heq => simpa [heq] using hi
    · exact h i key'

/-- A waiter leaves, and the entry of its key goes with it. -/
theorem remove (h : Paired waits table) (hn : waits n = some key)
    (hwaits : ∀ i, waits' i = if i = n then none else waits i)
    (htable : ∀ key', table'.lookup key' = if key' = key then none else table.lookup key') :
    Paired waits' table' := by
  refine h.removeKey (fun i => ?_) htable
  rw [hwaits]
  split
  · next hi => rw [hi, if_pos hn]
  · next hi => rw [if_neg fun hwait => hi (h.unique hwait hn)]

end Paired

end Waiters
