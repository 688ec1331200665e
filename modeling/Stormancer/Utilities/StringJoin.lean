import Stormancer.Utilities.StringSplit

/-!
# `stringSplit` and `stringJoin`

What `stringSplit` returns for separators of any length, and when its loop ends. The loop moves the
cursor by the length of the separator, and an empty separator is found where the cursor is.

Results:
1. `intercalate_of_splitLoop`: the pieces and the separators between them are the string.
2. `stringJoin_stringSplit`: joining the pieces gives the string back.
3. `stringSplit_ends_iff`: the loop ends exactly when the separator is not empty.
-/

namespace Stormancer.StringUtilities

/-! ## Definitions -/

/-- The loop of `stringJoin` from the index `i` on, with what `ss` holds. -/
def joinLoop (glue : Str) : (i : Nat) → List Str → (ss : Str) → Str
  | _, [], ss => ss
  | i, piece :: vector, ss =>
    joinLoop glue (i + 1) vector ((if i ≠ 0 then ss ++ glue else ss) ++ piece)

def stringJoin (vector : List Str) (glue : Str) : Str := joinLoop glue 0 vector []

/-- The loop of `stringSplit` ends, after any number of tests. -/
def SplitEnds (str separator : Str) : Prop :=
  ∃ n, (splitLoop str separator n [] 0 0).isSome = true

namespace StringJoinLemmas

variable {str separator : Str}

/-! ### Joining -/

theorem joinLoop_succ (glue : Str) (i : Nat) (vector : List Str) (ss : Str) :
    joinLoop glue (i + 1) vector ss = ss ++ (vector.map (glue ++ ·)).flatten := by
  induction vector generalizing i ss with
  | nil => simp [joinLoop]
  | cons piece vector ih =>
    rw [joinLoop, ih, if_pos (Nat.succ_ne_zero i)]
    simp

theorem flatten_map_append (glue piece : Str) (vector : List Str) :
    piece ++ (vector.map (glue ++ ·)).flatten = glue.intercalate (piece :: vector) := by
  induction vector generalizing piece with
  | nil => simp
  | cons next vector ih =>
    rw [List.intercalate_cons_cons, ← ih next]
    simp

theorem stringJoin_eq (vector : List Str) (glue : Str) :
    stringJoin vector glue = glue.intercalate vector := by
  unfold stringJoin
  cases vector with
  | nil => rfl
  | cons piece vector =>
    rw [joinLoop, joinLoop_succ, ← flatten_map_append]
    rfl

/-! ### Splitting -/

theorem prefix_of_find {pos cursor : Nat} (h : find str separator pos = some cursor) :
    separator <+: str.drop cursor := by
  have hsome := List.find?_some h
  exact List.isPrefixOf_iff_prefix.mp hsome

/-- The string from a cursor on is the piece up to the next separator, this separator, and the
string after it. -/
theorem drop_of_find {pos cursor : Nat} (h : find str separator pos = some cursor) :
    str.drop pos = substr str pos (cursor - pos) ++
      (separator ++ str.drop (cursor + separator.length)) := by
  obtain ⟨hle, -⟩ := find_bounds h
  obtain ⟨rest, hrest⟩ := prefix_of_find h
  have hafter : str.drop (cursor + separator.length) = rest := by
    rw [← List.drop_drop, ← hrest, List.drop_left]
  have hcursor : str.drop cursor = (str.drop pos).drop (cursor - pos) := by
    rw [List.drop_drop, Nat.add_sub_cancel' hle]
  rw [hafter, hrest, hcursor, substr, List.take_append_drop]

/-- By induction on the turns: what the loop adds, joined by the separator, is the string from the
cursor on. -/
theorem intercalate_of_splitLoop {n cursor : Nat} {splitted pieces : List Str}
    (h : splitLoop str separator n splitted cursor cursor = some pieces) :
    ∃ added, pieces = splitted ++ added ∧ added ≠ [] ∧
      separator.intercalate added = str.drop cursor := by
  induction n generalizing splitted cursor with
  | zero => cases h
  | succ n ih =>
    unfold splitLoop at h
    cases hfind : find str separator cursor with
    | none =>
      rw [hfind] at h
      cases h
      refine ⟨_, rfl, List.cons_ne_nil _ _, ?_⟩
      rw [List.intercalate_singleton, substr]
      exact List.take_of_length_le (Nat.le_of_eq List.length_drop)
    | some next =>
      rw [hfind] at h
      obtain ⟨added, rfl, hne, hadded⟩ := ih h
      refine ⟨substr str cursor (next - cursor) :: added, by simp, List.cons_ne_nil _ _, ?_⟩
      rw [List.intercalate_cons_of_ne_nil hne, hadded, drop_of_find hfind, List.append_assoc]

theorem not_mem_of_mem_splitOn (s : Str) (c : Char) : ∀ piece ∈ s.splitOn c, c ∉ piece := by
  induction s with
  | nil => simp [List.splitOn_nil]
  | cons x s ih =>
    rw [List.splitOn_cons_eq_if_modifyHead]
    split
    · exact List.forall_mem_cons.mpr ⟨List.not_mem_nil, ih⟩
    · next hx =>
      obtain ⟨piece, pieces, hpieces⟩ := List.exists_cons_of_ne_nil (List.splitOn_ne_nil c s)
      rw [hpieces, List.forall_mem_cons] at ih
      rw [hpieces, List.modifyHead_cons, List.forall_mem_cons]
      refine ⟨?_, ih.2⟩
      rw [List.mem_cons, not_or]
      exact ⟨fun heq => hx (beq_iff_eq.mpr heq.symm), ih.1⟩

/-! ### The empty separator -/

theorem find_empty {cursor : Nat} (hcursor : cursor ≤ str.length) :
    find str [] cursor = some cursor := by
  unfold find
  obtain ⟨m, hm⟩ := Nat.exists_eq_add_of_le' (Nat.sub_pos_of_lt (Nat.lt_succ_of_le hcursor))
  rw [hm, List.range'_succ]
  rfl

/-- The cursor stays where it is. -/
theorem splitLoop_empty {n cursor : Nat} {splitted : List Str} (hcursor : cursor ≤ str.length) :
    splitLoop str [] n splitted cursor cursor = none := by
  induction n generalizing splitted with
  | zero => rfl
  | succ n ih =>
    unfold splitLoop
    rw [find_empty hcursor]
    exact ih

end StringJoinLemmas

open StringJoinLemmas

/-! ## Results -/

/-- For every string and every separator that is not empty. -/
theorem stringJoin_stringSplit (str : Str) {separator : Str} (hsep : separator ≠ []) :
    ∃ pieces, stringSplit str separator = some pieces ∧ stringJoin pieces separator = str ∧
      ∀ c, separator = [c] → ∀ piece ∈ pieces, c ∉ piece := by
  have hends : (stringSplit str separator).isSome = true :=
    splitLoop_isSome hsep (Nat.zero_le _) (by omega)
  obtain ⟨pieces, hpieces⟩ := Option.isSome_iff_exists.mp hends
  refine ⟨pieces, hpieces, ?_, ?_⟩
  · obtain ⟨added, rfl, -, hadded⟩ := intercalate_of_splitLoop hpieces
    rw [stringJoin_eq]
    exact hadded
  · rintro c rfl
    rw [stringSplit_char, stringSplitChar_eq] at hpieces
    cases hpieces
    exact not_mem_of_mem_splitOn str c

/-- Separators at both ends and next to each other. -/
theorem join_split_overlapping :
    ∃ pieces, stringSplit ['a', 'a', 'a', 'b', 'a', 'a'] ['a', 'a'] = some pieces ∧
      stringJoin pieces ['a', 'a'] = ['a', 'a', 'a', 'b', 'a', 'a'] ∧
      ∀ c, ['a', 'a'] = [c] → ∀ piece ∈ pieces, c ∉ piece :=
  stringJoin_stringSplit ['a', 'a', 'a', 'b', 'a', 'a'] (List.cons_ne_nil _ _)

/-- For every string and every separator. -/
theorem stringSplit_ends_iff (str separator : Str) :
    SplitEnds str separator ↔ separator ≠ [] := by
  constructor
  · rintro ⟨n, hn⟩ rfl
    rw [splitLoop_empty (Nat.zero_le _)] at hn
    cases hn
  · intro hsep
    exact ⟨str.length + 1, splitLoop_isSome hsep (Nat.zero_le _) (by omega)⟩

/-- An empty separator is found again and again at the start of the string. -/
theorem empty_separator_never_ends : ¬ ∀ str separator, SplitEnds str separator := by
  intro h
  obtain ⟨n, hn⟩ := h ['a'] []
  have hnone : splitLoop ['a'] [] n [] 0 0 = none := splitLoop_empty (Nat.zero_le _)
  rw [hnone] at hn
  cases hn

end Stormancer.StringUtilities
