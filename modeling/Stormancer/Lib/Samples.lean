import Mathlib.Algebra.BigOperators.Group.List.Basic
import Mathlib.Algebra.Order.BigOperators.Group.List
import Mathlib.Algebra.Order.Field.Basic
import Mathlib.Analysis.Real.Sqrt
import Mathlib.Tactic.FieldSimp
import Mathlib.Tactic.Ring

/-!
# Mean, median and variance of a list

The samples are a list over a linearly ordered field. The variance divides by the number of the
samples, and the median of an even number of samples is the upper one of the two in the middle.

Results:
1. `mean_eq_iff_of_le`: the mean is an upper bound of the samples only if all samples are it.
2. `variance_eq_zero_iff`: the variance is zero exactly when all samples are equal.
3. `lt_add_sqrt_iff`: a comparison with a mean plus a standard deviation, without the root.
-/

namespace Samples

variable {α : Type*} [Field α]

/-! ## Definitions -/

def mean (xs : List α) : α := xs.sum / xs.length

def variance (xs : List α) : α := (xs.map fun x => (x - mean xs) ^ 2).sum / xs.length

/-- The element in the middle of a sorted list. -/
def median (xs : List α) : α := xs.getD (xs.length / 2) 0

/-! ## The median -/

theorem median_mem {xs : List α} (hne : xs ≠ []) : median xs ∈ xs := by
  have hlt : xs.length / 2 < xs.length :=
    Nat.div_lt_self (List.length_pos_of_ne_nil hne) Nat.one_lt_two
  rw [median, List.getD_eq_getElem?_getD, List.getElem?_eq_getElem hlt, Option.getD_some]
  exact List.getElem_mem hlt

/-! ## The mean -/

variable [LinearOrder α] [IsStrictOrderedRing α]

theorem length_ne_zero {xs : List α} (hne : xs ≠ []) : (xs.length : α) ≠ 0 := by
  rw [Nat.cast_ne_zero]
  exact fun hzero => hne (List.length_eq_zero_iff.mp hzero)

omit [LinearOrder α] [IsStrictOrderedRing α] in
theorem sum_map_add_right (c : α) (xs : List α) :
    (xs.map fun x => x + c).sum = xs.sum + xs.length * c := by
  rw [List.sum_map_add, List.map_id', List.map_const', List.sum_replicate, nsmul_eq_mul]

omit [LinearOrder α] [IsStrictOrderedRing α] in
theorem sum_map_sub_left (b : α) (xs : List α) :
    (xs.map fun x => b - x).sum = xs.length * b - xs.sum := by
  have hneg : ∀ x : α, b - x = -1 * (x + -b) := by
    intro x
    ring
  simp only [hneg]
  rw [List.sum_map_mul_left, sum_map_add_right]
  ring

theorem mean_map_add {xs : List α} (hne : xs ≠ []) (c : α) :
    mean (xs.map fun x => x + c) = mean xs + c := by
  have hlength := length_ne_zero hne
  rw [mean, sum_map_add_right, List.length_map, mean]
  field_simp

theorem mean_eq_iff {xs : List α} (hne : xs ≠ []) {b : α} :
    mean xs = b ↔ (xs.map fun x => b - x).sum = 0 := by
  rw [mean, div_eq_iff (length_ne_zero hne), sum_map_sub_left, sub_eq_zero, mul_comm, eq_comm]

/-- The sum of the distances to the bound is zero only if each of them is. -/
theorem mean_eq_iff_of_le {xs : List α} (hne : xs ≠ []) {b : α} (hle : ∀ x ∈ xs, x ≤ b) :
    mean xs = b ↔ ∀ x ∈ xs, x = b := by
  rw [mean_eq_iff hne]
  constructor
  · intro hsum x hx
    have hnonneg : ∀ y ∈ xs.map fun x => b - x, 0 ≤ y := by
      rw [List.forall_mem_map]
      exact fun y hy => sub_nonneg.mpr (hle y hy)
    have hzero := List.all_zero_of_le_zero_le_of_sum_eq_zero hnonneg hsum
      (List.mem_map_of_mem (f := fun x => b - x) hx)
    exact (sub_eq_zero.mp hzero).symm
  · intro hall
    refine List.sum_eq_zero ?_
    rw [List.forall_mem_map]
    exact fun x hx => sub_eq_zero.mpr (hall x hx).symm

theorem mean_of_all_eq {xs : List α} (hne : xs ≠ []) {c : α} (hall : ∀ x ∈ xs, x = c) :
    mean xs = c :=
  (mean_eq_iff_of_le hne fun x hx => (hall x hx).le).mpr hall

/-! ## The variance -/

theorem squares_nonneg (xs : List α) : ∀ y ∈ xs.map fun x => (x - mean xs) ^ 2, 0 ≤ y := by
  rw [List.forall_mem_map]
  exact fun x _ => sq_nonneg (x - mean xs)

theorem variance_nonneg (xs : List α) : 0 ≤ variance xs :=
  div_nonneg (List.sum_nonneg (squares_nonneg xs)) (Nat.cast_nonneg _)

theorem variance_eq_zero_iff {xs : List α} : variance xs = 0 ↔ ∀ x ∈ xs, ∀ y ∈ xs, x = y := by
  constructor
  · intro hzero x hx y hy
    have hlength := length_ne_zero (List.ne_nil_of_mem hx)
    have hsum := (div_eq_zero_iff.mp hzero).resolve_right hlength
    have hmean : ∀ z ∈ xs, z = mean xs := fun z hz => by
      have hsquare := List.all_zero_of_le_zero_le_of_sum_eq_zero (squares_nonneg xs) hsum
        (List.mem_map_of_mem (f := fun x => (x - mean xs) ^ 2) hz)
      exact sub_eq_zero.mp (pow_eq_zero_iff two_ne_zero |>.mp hsquare)
    rw [hmean x hx, hmean y hy]
  · intro hall
    rw [variance, List.sum_eq_zero, zero_div]
    rw [List.forall_mem_map]
    intro x hx
    rw [mean_of_all_eq (List.ne_nil_of_mem hx) fun y hy => hall y hy x hx, sub_self]
    exact zero_pow two_ne_zero

/-- `m + √v` is above `x` when `m` is, or when the distance from `m` is less than `√v`. -/
theorem lt_add_sqrt_iff {x m v : ℝ} : x < m + √v ↔ x < m ∨ (x - m) ^ 2 < v := by
  rcases lt_or_ge x m with hlt | hle
  · exact ⟨fun _ => .inl hlt, fun _ => hlt.trans_le (le_add_of_nonneg_right (Real.sqrt_nonneg v))⟩
  · rw [← sub_lt_iff_lt_add', Real.lt_sqrt (sub_nonneg.mpr hle)]
    exact ⟨.inr, fun h => h.resolve_left hle.not_gt⟩

end Samples
