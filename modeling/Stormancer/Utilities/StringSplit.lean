import Mathlib.Data.List.Basic

/-!
# `stringSplit`

The loop of `stringSplit`, with a bound on the number of its tests. A `std::string` is the list
of its bytes, written as characters.

Results:
1. `find_bounds`: where `find` finds the separator.
2. `stringSplit_char`: with a separator of one character the loop ends within its bound.
3. `stringSplitChar_eq`: the pieces are those between the separators.
-/

namespace Stormancer

/-- A `std::string`. -/
abbrev Str := List Char

namespace StringUtilities

/-! ## `std::string` -/

/-- `std::string::find`. `none` is `npos`. -/
def find (str separator : Str) (pos : Nat) : Option Nat :=
  (List.range' pos (str.length + 1 - pos)).find? fun i => separator.isPrefixOf (str.drop i)

/-- `std::string::substr`. -/
def substr (str : Str) (pos count : Nat) : Str := (str.drop pos).take count

theorem find_bounds {str separator : Str} {pos cursor : Nat}
    (h : find str separator pos = some cursor) :
    pos ≤ cursor ∧ cursor + separator.length ≤ str.length := by
  have hmem := List.mem_of_find?_eq_some h
  have hsome := List.find?_some h
  have hlen := (List.isPrefixOf_iff_prefix.mp hsome).length_le
  rw [List.length_drop] at hlen
  rw [List.mem_range'_1] at hmem
  omega

/-! ## The loop -/

/-- The loop of `stringSplit`, with at most `n` tests of its condition: `none` if it goes on. -/
def splitLoop (str separator : Str) : Nat → List Str → Nat → Nat → Option (List Str)
  | 0, _, _, _ => none
  | n + 1, splitted, cursor, lastCursor =>
    match find str separator cursor with
    | some cursor =>
      splitLoop str separator n (splitted ++ [substr str lastCursor (cursor - lastCursor)])
        (cursor + separator.length) (cursor + separator.length)
    | none => some (splitted ++ [substr str lastCursor (str.length - lastCursor)])

def stringSplit (str separator : Str) : Option (List Str) :=
  splitLoop str separator (str.length + 1) [] 0 0

/-- The overload with a `char`. -/
def stringSplitChar (str : Str) (separator : Char) : List Str :=
  (stringSplit str [separator]).getD []

/-- Each turn of the loop moves the cursor past a separator, so the rest of the string bounds
the number of turns. -/
theorem splitLoop_isSome {str separator : Str} (hsep : separator ≠ []) {n : Nat}
    {splitted : List Str} {cursor lastCursor : Nat} (hcursor : cursor ≤ str.length)
    (hn : str.length < cursor + n) :
    (splitLoop str separator n splitted cursor lastCursor).isSome = true := by
  induction n generalizing splitted cursor lastCursor with
  | zero => omega
  | succ n ih =>
    have hlen := List.length_pos_of_ne_nil hsep
    unfold splitLoop
    cases hfind : find str separator cursor with
    | none => rfl
    | some next =>
      obtain ⟨hle, hend⟩ := find_bounds hfind
      exact ih hend (by omega)

theorem stringSplit_char (str : Str) (separator : Char) :
    stringSplit str [separator] = some (stringSplitChar str separator) := by
  have h : (stringSplit str [separator]).isSome = true :=
    splitLoop_isSome (List.cons_ne_nil _ _) (Nat.zero_le _) (by omega)
  obtain ⟨pieces, hpieces⟩ := Option.isSome_iff_exists.mp h
  rw [stringSplitChar, hpieces, Option.getD_some]

/-! ## The pieces -/

theorem isPrefixOf_drop_iff (p s : Str) (separator : Char) (i : Nat) :
    [separator].isPrefixOf ((p ++ s).drop (p.length + i)) = true ↔ s[i]? = some separator := by
  rw [List.isPrefixOf_iff_prefix, List.singleton_prefix_iff_head?_eq_some, List.head?_drop,
    List.getElem?_append_right (Nat.le_add_right _ _), Nat.add_sub_cancel_left]

/-- No separator is left. -/
theorem find_of_not_mem {p s : Str} {separator : Char} (h : separator ∉ s) :
    find (p ++ s) [separator] p.length = none := by
  unfold find
  rw [List.find?_range'_eq_none]
  intro i hle hlt
  obtain ⟨j, rfl⟩ := Nat.exists_eq_add_of_le hle
  rw [Bool.not_eq_true', ← Bool.not_eq_true, isPrefixOf_drop_iff]
  exact fun hsep => h (List.mem_of_getElem? hsep)

/-- The first separator that is left. -/
theorem find_first {p piece rest : Str} {separator : Char} (h : separator ∉ piece) :
    find (p ++ (piece ++ separator :: rest)) [separator] p.length =
      some (p.length + piece.length) := by
  unfold find
  rw [List.find?_range'_eq_some]
  refine ⟨?_, ?_, ?_⟩
  · rw [isPrefixOf_drop_iff]
    simp
  · rw [List.mem_range'_1]
    simp
    omega
  · intro i hle hlt
    obtain ⟨j, rfl⟩ := Nat.exists_eq_add_of_le hle
    have hj : j < piece.length := by omega
    rw [Bool.not_eq_true', ← Bool.not_eq_true, isPrefixOf_drop_iff, List.getElem?_append_left hj]
    exact fun hsep => h (List.mem_of_getElem? hsep)

/-- A turn of the loop takes a piece up to the next separator. -/
theorem splitLoop_eq {separator : Char} {n : Nat} {p s : Str} {splitted : List Str}
    (hn : s.length < n) :
    splitLoop (p ++ s) [separator] n splitted p.length p.length =
      some (splitted ++ s.splitOn separator) := by
  induction n generalizing p s splitted with
  | zero => omega
  | succ n ih =>
    unfold splitLoop
    by_cases hmem : separator ∈ s
    · obtain ⟨piece, rest, rfl, hpiece⟩ := List.eq_append_cons_of_mem hmem
      have hnext : p ++ (piece ++ separator :: rest) = (p ++ piece ++ [separator]) ++ rest := by
        simp
      have hcursor : p.length + piece.length + [separator].length =
          (p ++ piece ++ [separator]).length := by
        rw [List.length_append, List.length_append]
      have hpiece' : substr (p ++ (piece ++ separator :: rest)) p.length
          (p.length + piece.length - p.length) = piece := by
        simp [substr]
      have hrest : rest.length < n := by
        rw [List.length_append, List.length_cons] at hn
        omega
      rw [find_first hpiece]
      dsimp only
      rw [hpiece', hcursor, hnext, ih hrest, List.splitOn_append_cons_self_of_not_mem hpiece,
        List.append_assoc, List.singleton_append]
    · rw [find_of_not_mem hmem, List.splitOn_eq_singleton hmem]
      simp [substr]

theorem stringSplitChar_eq (str : Str) (separator : Char) :
    stringSplitChar str separator = str.splitOn separator := by
  have h : splitLoop ([] ++ str) [separator] (str.length + 1) [] 0 0 =
      some ([] ++ str.splitOn separator) := splitLoop_eq (Nat.lt_succ_self str.length)
  unfold stringSplitChar stringSplit
  rw [List.nil_append] at h
  rw [h, Option.getD_some, List.nil_append]

example : stringSplitChar ['a', ':', '1'] ':' = [['a'], ['1']] := by decide

end StringUtilities

end Stormancer
