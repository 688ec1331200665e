import Mathlib.Data.List.Basic

/-!
# Reading a sequence up to a delimiter

The loop `while (std::getline(stream, piece, delim))`: each turn reads a piece up to the next
delimiter, which it takes off the stream, or up to the end. A turn that finds nothing left to
read ends the loop, so a delimiter at the end opens no empty piece.

Results:
1. `not_mem_of_mem_readAll`: no piece has the delimiter in it.
2. `readAll_intercalate`: pieces without the delimiter, joined by it, are read back, when the
   last of them is not empty.
3. `getLast?_readAll`: the last piece is empty exactly when the sequence ends in two delimiters.
-/

namespace Lines

variable {α : Type*} [DecidableEq α]

/-! ## Definitions -/

/-- The loop when `piece` has been read since the last delimiter. -/
def readFrom (delim : α) (piece : List α) : List α → List (List α)
  | [] => if piece = [] then [] else [piece]
  | a :: s => if a = delim then piece :: readFrom delim [] s else readFrom delim (piece ++ [a]) s

def readAll (delim : α) (s : List α) : List (List α) := readFrom delim [] s

/-! ## One piece -/

variable {delim : α}

theorem readFrom_delim (piece s : List α) :
    readFrom delim piece (delim :: s) = piece :: readFrom delim [] s := by
  rw [readFrom, if_pos rfl]

theorem readFrom_append {t : List α} (ht : delim ∉ t) (piece s : List α) :
    readFrom delim piece (t ++ s) = readFrom delim (piece ++ t) s := by
  induction t generalizing piece with
  | nil => rw [List.nil_append, List.append_nil]
  | cons a t ih =>
    rw [List.mem_cons, not_or] at ht
    rw [List.cons_append, readFrom, if_neg (Ne.symm ht.1), ih ht.2, List.append_assoc,
      List.singleton_append]

theorem readAll_of_not_mem {t : List α} (hne : t ≠ []) (ht : delim ∉ t) :
    readAll delim t = [t] := by
  have hread := readFrom_append ht [] []
  rw [List.append_nil, List.nil_append, readFrom, if_neg hne] at hread
  exact hread

theorem readAll_append_delim {t : List α} (ht : delim ∉ t) (s : List α) :
    readAll delim (t ++ delim :: s) = t :: readAll delim s := by
  rw [readAll, readFrom_append ht, readFrom_delim, List.nil_append]
  rfl

theorem readFrom_ne_nil (piece : List α) {s : List α} (hs : s ≠ []) :
    readFrom delim piece s ≠ [] := by
  induction s generalizing piece with
  | nil => exact absurd rfl hs
  | cons a s ih =>
    unfold readFrom
    split
    · simp
    · cases s with
      | nil => simp [readFrom]
      | cons b s => exact ih _ (by simp)

/-! ## All pieces -/

theorem not_mem_of_mem_readFrom {piece s t : List α} (hpiece : delim ∉ piece)
    (ht : t ∈ readFrom delim piece s) : delim ∉ t := by
  induction s generalizing piece with
  | nil =>
    unfold readFrom at ht
    split at ht
    · cases ht
    · rw [List.mem_singleton] at ht
      exact ht ▸ hpiece
  | cons a s ih =>
    unfold readFrom at ht
    split at ht
    · rcases List.mem_cons.mp ht with rfl | hrest
      · exact hpiece
      · exact ih (by simp) hrest
    · next hne =>
      refine ih ?_ ht
      rw [List.mem_append, List.mem_singleton, not_or]
      exact ⟨hpiece, Ne.symm hne⟩

theorem not_mem_of_mem_readAll {s t : List α} (ht : t ∈ readAll delim s) : delim ∉ t :=
  not_mem_of_mem_readFrom List.not_mem_nil ht

theorem readAll_intercalate {ts : List (List α)} (hts : ∀ t ∈ ts, delim ∉ t)
    (hlast : ts.getLast? ≠ some []) : readAll delim ([delim].intercalate ts) = ts := by
  induction ts with
  | nil => rfl
  | cons t ts ih =>
    have ht := hts t List.mem_cons_self
    cases ts with
    | nil =>
      have hne : t ≠ [] := by
        rintro rfl
        exact hlast rfl
      simpa [List.intercalate] using readAll_of_not_mem hne ht
    | cons u us =>
      have hrest := ih (fun t ht => hts t (List.mem_cons_of_mem _ ht)) (by simpa using hlast)
      rw [List.intercalate_cons_cons, List.append_assoc, List.singleton_append,
        readAll_append_delim ht, hrest]

/-! ## The last piece -/

theorem getLast?_readFrom {piece s : List α} :
    (readFrom delim piece s).getLast? = some [] ↔
      (piece = [] ∧ s = [delim]) ∨ [delim, delim] <:+ s := by
  induction s generalizing piece with
  | nil =>
    unfold readFrom
    split
    · simp
    · next hne => simp [hne]
  | cons a s ih =>
    unfold readFrom
    rw [List.suffix_cons_iff]
    split
    · next heq =>
      subst heq
      cases s with
      | nil => simp [readFrom]
      | cons b s =>
        have hrest : readFrom a [] (b :: s) ≠ [] := readFrom_ne_nil [] (List.cons_ne_nil b s)
        obtain ⟨p, ps, hps⟩ := List.exists_cons_of_ne_nil hrest
        have hcomm : b = a ↔ a = b := eq_comm
        rw [hps, List.getLast?_cons_cons, ← hps, ih]
        simp [hcomm]
    · next hne =>
      rw [ih]
      simp [hne, Ne.symm hne]

theorem getLast?_readAll {s : List α} (hs : s ≠ [delim]) :
    (readAll delim s).getLast? = some [] ↔ [delim, delim] <:+ s := by
  rw [readAll, getLast?_readFrom]
  simp [hs]

end Lines
