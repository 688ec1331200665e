import Mathlib.Data.List.AList
import Mathlib.Data.UInt
import Mathlib.Logic.Function.Iterate

/-!
# Slot tables keyed by a wrapping counter

A table of live entries is keyed by a small counter that wraps. A new entry takes the first
key after the counter that is not occupied; the search visits each key at most once. Tables
are association lists with unique keys (`AList`).

Results:
1. `nextFree_free`, `nextFree_of_free`: the key found is not occupied, and it is the next key if
   that one is not occupied.
2. `nextFree_some`, `nextFree_eq_none`: the key found is the first that is not occupied, and none is
   found only when all that are tried are occupied.
3. `nextFree_le`, `nextFree_isSome_iff`: with 16 bits, the key found comes first going on from the
   counter, and one is found as long as fewer than 65536 are occupied.
4. `mem_values`: an entry is in the list of values exactly when some key leads to it.
5. `lookup_insert_eq`, `lookup_emplace`, `lookup_erase_eq`: what a lookup finds after a write.
-/

namespace Slots

variable {κ α : Type}

/-! ## The search for a key -/

/-- The first key after `counter` that is not occupied, among at most `n` keys. -/
def nextFree (succ : κ → κ) (occupied : κ → Bool) : Nat → κ → Option κ
  | 0, _ => none
  | n + 1, counter =>
    if occupied (succ counter) then nextFree succ occupied n (succ counter)
    else some (succ counter)

theorem nextFree_free {succ : κ → κ} {occupied : κ → Bool} {n : Nat} {counter key : κ}
    (h : nextFree succ occupied n counter = some key) : occupied key = false := by
  induction n generalizing counter with
  | zero => cases h
  | succ n ih =>
    unfold nextFree at h
    split at h
    · exact ih h
    · next hfree =>
      cases h
      simpa using hfree

theorem nextFree_of_free {succ : κ → κ} {occupied : κ → Bool} {n : Nat} {counter : κ}
    (hn : 0 < n) (h : occupied (succ counter) = false) :
    nextFree succ occupied n counter = some (succ counter) := by
  cases n with
  | zero => cases hn
  | succ n =>
    unfold nextFree
    rw [h]
    rfl

/-- The keys that are tried before the one that is found are occupied. -/
theorem nextFree_some {succ : κ → κ} {occupied : κ → Bool} {n : Nat} {counter key : κ}
    (h : nextFree succ occupied n counter = some key) :
    ∃ i < n, key = succ^[i + 1] counter ∧ ∀ j < i, occupied (succ^[j + 1] counter) = true := by
  induction n generalizing counter with
  | zero => cases h
  | succ n ih =>
    unfold nextFree at h
    split at h
    · next hoccupied =>
      obtain ⟨i, hi, hkey, hbefore⟩ := ih h
      refine ⟨i + 1, by omega, hkey, fun j hj => ?_⟩
      cases j with
      | zero => exact hoccupied
      | succ j => exact hbefore j (by omega)
    · cases h
      exact ⟨0, by omega, rfl, by omega⟩

theorem nextFree_eq_none {succ : κ → κ} {occupied : κ → Bool} {n : Nat} {counter : κ} :
    nextFree succ occupied n counter = none ↔
      ∀ i < n, occupied (succ^[i + 1] counter) = true := by
  induction n generalizing counter with
  | zero => exact ⟨fun _ => by omega, fun _ => rfl⟩
  | succ n ih =>
    unfold nextFree
    split
    · next hoccupied =>
      rw [ih]
      constructor
      · intro h i hi
        cases i with
        | zero => exact hoccupied
        | succ i => exact h i (by omega)
      · exact fun h i hi => h (i + 1) (by omega)
    · next hfree => exact ⟨nofun, fun h => absurd (h 0 (by omega)) hfree⟩

/-! ## Tables -/

/-- A table from keys to entries, as the code's unordered maps are. -/
abbrev Table (κ α : Type) := AList (fun _ : κ => α)

/-- The entries of a table, in some order. -/
def Table.values (t : Table κ α) : List α := t.entries.map Sigma.snd

variable [DecidableEq κ]

theorem Table.mem_values {t : Table κ α} {x : α} :
    x ∈ t.values ↔ ∃ key, t.lookup key = some x := by
  unfold Table.values
  rw [List.mem_map]
  constructor
  · rintro ⟨⟨key, y⟩, hmem, rfl⟩
    exact ⟨key, AList.mem_lookup_iff.mpr hmem⟩
  · rintro ⟨key, hkey⟩
    exact ⟨⟨key, x⟩, AList.mem_lookup_iff.mp hkey, rfl⟩

theorem Table.lookup_insert_eq (t : Table κ α) (key key' : κ) (x : α) :
    (t.insert key x).lookup key' = if key' = key then some x else t.lookup key' := by
  split
  · next h =>
    subst h
    exact AList.lookup_insert t
  · next h => exact AList.lookup_insert_ne h

theorem Table.lookup_erase_eq (t : Table κ α) (key key' : κ) :
    (t.erase key).lookup key' = if key' = key then none else t.lookup key' := by
  split
  · next h =>
    subst h
    exact AList.lookup_erase key' t
  · next h => exact AList.lookup_erase_ne h

/-- An insertion that keeps the entry of a key that has one, as `emplace` does. -/
def Table.emplace (t : Table κ α) (key : κ) (x : α) : Table κ α :=
  if key ∈ t then t else t.insert key x

theorem Table.lookup_emplace (t : Table κ α) (key key' : κ) (x : α) :
    (t.emplace key x).lookup key' =
      if key' = key then some ((t.lookup key).getD x) else t.lookup key' := by
  unfold Table.emplace
  split
  · next hmem =>
    split
    · next h =>
      subst h
      obtain ⟨y, hy⟩ := Option.isSome_iff_exists.mp (AList.lookup_isSome.mpr hmem)
      rw [hy, Option.getD_some]
    · rfl
  · next hmem =>
    rw [AList.lookup_eq_none.mpr hmem, Option.getD_none]
    exact Table.lookup_insert_eq t key key' x

/-- A table with one entry more. -/
theorem Table.length_keys_add {t t' : Table κ α} {key : κ} {x : α} (hfree : t.lookup key = none)
    (h : ∀ key', t'.lookup key' = if key' = key then some x else t.lookup key') :
    t'.keys.length = t.keys.length + 1 := by
  have hmem : ∀ key', key' ∈ t'.keys ↔ key' ∈ key :: t.keys := by
    intro key'
    rw [← AList.mem_keys, ← AList.lookup_isSome, h, List.mem_cons, ← AList.mem_keys,
      ← AList.lookup_isSome]
    split
    · next heq => simp [heq]
    · next hne => simp [hne]
  have hnodup : (key :: t.keys).Nodup :=
    List.nodup_cons.mpr ⟨AList.lookup_eq_none.mp hfree, t.keys_nodup⟩
  rw [((List.perm_ext_iff_of_nodup t'.keys_nodup hnodup).mpr hmem).length_eq, List.length_cons]

/-! ## Keys of 16 bits -/

section Keys16

variable {β : Type}

theorem iterate_succ (counter : UInt16) (i : Nat) :
    (· + 1)^[i] counter = counter + UInt16.ofNat i := by
  induction i with
  | zero => simp
  | succ i ih => rw [Function.iterate_succ_apply', ih, UInt16.ofNat_add, UInt16.add_assoc]; rfl

/-- Where a key lies, going on from the counter. -/
theorem eq_iterate_iff (counter key : UInt16) {i : Nat} (hi : i < 0x10000) :
    key = (· + 1)^[i + 1] counter ↔ (key - counter - 1).toNat = i := by
  have hshift : key = counter + (UInt16.ofNat i + 1) ↔ key - counter - 1 = UInt16.ofNat i := by
    grind
  rw [iterate_succ, UInt16.ofNat_add]
  refine hshift.trans ⟨fun h => ?_, fun h => ?_⟩
  · rw [h]
    exact UInt16.toNat_ofNat_of_lt' hi
  · rw [← h, UInt16.ofNat_toNat]

/-- The search tries every key. -/
theorem exists_iterate (counter key : UInt16) :
    ∃ i < 0x10000, key = (· + 1)^[i + 1] counter :=
  ⟨_, UInt16.toNat_lt _, (eq_iterate_iff counter key (UInt16.toNat_lt _)).mpr rfl⟩

/-- The key that is found comes first among those that are not occupied. -/
theorem nextFree_le {occupied : UInt16 → Bool} {counter key key' : UInt16}
    (h : nextFree (· + 1) occupied 0x10000 counter = some key) (hfree : occupied key' = false) :
    (key - counter - 1).toNat ≤ (key' - counter - 1).toNat := by
  obtain ⟨i, hi, hkey, hbefore⟩ := nextFree_some h
  obtain ⟨j, hj, hkey'⟩ := exists_iterate counter key'
  rw [(eq_iterate_iff counter key hi).mp hkey, (eq_iterate_iff counter key' hj).mp hkey']
  by_contra hlt
  have hoccupied := hbefore j (by omega)
  rw [← hkey', hfree] at hoccupied
  cases hoccupied

theorem exists_free_iff (t : Table UInt16 β) :
    (∃ key, t.lookup key = none) ↔ t.keys.length < 0x10000 := by
  have hnumbers : (t.keys.map UInt16.toNat).Nodup :=
    t.keys_nodup.map fun _ _ h => UInt16.toNat_inj.mp h
  have hrange : t.keys.map UInt16.toNat ⊆ List.range 0x10000 := by
    intro n hn
    obtain ⟨key, -, rfl⟩ := List.mem_map.mp hn
    exact List.mem_range.mpr key.toNat_lt
  constructor
  · rintro ⟨key, hkey⟩
    have hnot : key ∉ t.keys := AList.lookup_eq_none.mp hkey
    have hmore : (key.toNat :: t.keys.map UInt16.toNat).Nodup := by
      refine List.nodup_cons.mpr ⟨fun hmem => ?_, hnumbers⟩
      obtain ⟨key', hkey', heq⟩ := List.mem_map.mp hmem
      exact hnot (UInt16.toNat_inj.mp heq ▸ hkey')
    have hle := (hmore.subperm (List.cons_subset.mpr
      ⟨List.mem_range.mpr key.toNat_lt, hrange⟩)).length_le
    rw [List.length_cons, List.length_map, List.length_range] at hle
    exact hle
  · intro hlt
    by_contra hall
    have hsub : List.range 0x10000 ⊆ t.keys.map UInt16.toNat := by
      intro n hn
      refine List.mem_map.mpr ⟨UInt16.ofNat n, ?_, ?_⟩
      · by_contra hnot
        exact hall ⟨_, AList.lookup_eq_none.mpr hnot⟩
      · exact UInt16.toNat_ofNat_of_lt' (List.mem_range.mp hn)
    have hle := (List.nodup_range.subperm hsub).length_le
    rw [List.length_map, List.length_range] at hle
    omega

/-- A key is found, from every counter, as long as not all are occupied. -/
theorem nextFree_isSome_iff (t : Table UInt16 β) (counter : UInt16) :
    (nextFree (· + 1) (fun key => (t.lookup key).isSome) 0x10000 counter).isSome = true ↔
      t.keys.length < 0x10000 := by
  rw [← exists_free_iff, ← Option.ne_none_iff_isSome, Ne, nextFree_eq_none]
  constructor
  · intro hnot
    by_contra hall
    refine hnot fun i _ => ?_
    rw [← Option.ne_none_iff_isSome]
    exact fun hnone => hall ⟨_, hnone⟩
  · rintro ⟨key, hkey⟩ hall
    obtain ⟨i, hi, rfl⟩ := exists_iterate counter key
    have hsome := hall i hi
    rw [hkey] at hsome
    cases hsome

end Keys16

end Slots
