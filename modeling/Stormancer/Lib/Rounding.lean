import Mathlib.Algebra.Order.Ring.Int
import Mathlib.Tactic.Ring

/-!
# Rounding to a number of binary digits

A natural number is rounded to the nearest number with `P` digits, and to the even one of two that
are equally near. The distance of such numbers around `n` is `ulp P n`.

Results:
1. `roundTo_eq_iff`: which numbers are rounded to a given multiple.
2. `round_eq_self`, `isFloat_round`: the numbers that are kept are the values of the rounding.
3. `round_twice_iff`: when the sum of a number and a rounded one is rounded to the sum of both.
-/

namespace Rounding

/-! ## Definitions -/

def ulp (P n : Nat) : Nat := 2 ^ (n.log2 + 1 - P)

/-- The number has at most `P` digits before its trailing zeros. -/
def IsFloat (P n : Nat) : Prop := ulp P n ∣ n

/-- The nearest multiple of `u`; of two, the even one. -/
def roundTo (u n : Nat) : Nat :=
  if 2 * (n % u) < u ∨ 2 * (n % u) = u ∧ n / u % 2 = 0 then n / u * u else (n / u + 1) * u

def round (P n : Nat) : Nat := roundTo (ulp P n) n

/-- The number lies in the middle between two numbers with `P` digits. -/
def Midpoint (P n : Nat) : Prop := 2 * (n % ulp P n) = ulp P n

instance (P n : Nat) : Decidable (IsFloat P n) := inferInstanceAs (Decidable (_ ∣ _))

instance (P n : Nat) : Decidable (Midpoint P n) := inferInstanceAs (Decidable (_ = _))

theorem ulp_pos (P n : Nat) : 0 < ulp P n := Nat.two_pow_pos _

/-! ## Multiples -/

theorem dvd_roundTo (u n : Nat) : u ∣ roundTo u n := by
  unfold roundTo
  split
  · exact Nat.dvd_mul_left u _
  · exact Nat.dvd_mul_left u _

/-- The quotient and the remainder are the two summands of a number. -/
theorem div_mul_add_mod (n u : Nat) : n / u * u + n % u = n := by
  rw [Nat.mul_comm]
  exact Nat.div_add_mod n u

/-- The rounded number is at most half of `u` away, and just so for the middle of two multiples. -/
theorem roundTo_near {u : Nat} (hu : 0 < u) (n : Nat) :
    2 * roundTo u n ≤ 2 * n + u ∧ 2 * n ≤ 2 * roundTo u n + u ∧
      ((2 * roundTo u n = 2 * n + u ∨ 2 * n = 2 * roundTo u n + u) ↔ 2 * (n % u) = u) := by
  have hsplit := div_mul_add_mod n u
  have hlt := Nat.mod_lt n hu
  unfold roundTo
  split
  · omega
  · rw [Nat.add_mul, Nat.one_mul]
    omega

/-- A multiple is what is nearer to it than half of `u`; at that distance it has to be even. -/
theorem roundTo_eq_iff {u : Nat} (hu : 0 < u) {m n : Nat} (hle : 2 * n ≤ 2 * (m * u) + u)
    (hge : 2 * (m * u) ≤ 2 * n + u) :
    roundTo u n = m * u ↔
      (2 * n = 2 * (m * u) + u ∨ 2 * (m * u) = 2 * n + u → m % 2 = 0) := by
  have hsplit := div_mul_add_mod n u
  have hlt := Nat.mod_lt n hu
  by_cases hbelow : n < m * u
  · -- the quotient is the number before `m`
    have hdiv : n / u + 1 = m := by
      have hless : n / u < m := (Nat.div_lt_iff_lt_mul hu).mpr hbelow
      by_contra hne
      have hstep : (n / u + 2) * u ≤ m * u := Nat.mul_le_mul_right u (by omega)
      rw [Nat.add_mul] at hstep
      omega
    subst hdiv
    rw [Nat.add_mul, Nat.one_mul] at hle hge hbelow ⊢
    unfold roundTo
    rw [Nat.add_mul, Nat.one_mul]
    split <;> omega
  · have hdiv : n / u = m := by
      have hge' : m ≤ n / u := (Nat.le_div_iff_mul_le hu).mpr (by omega)
      by_contra hne
      have hstep : (m + 1) * u ≤ n / u * u := Nat.mul_le_mul_right u (by omega)
      rw [Nat.add_mul, Nat.one_mul] at hstep
      omega
    subst hdiv
    unfold roundTo
    rw [Nat.add_mul, Nat.one_mul]
    split <;> omega

/-! ## Digits -/

variable {P : Nat}

theorem ulp_eq {n L : Nat} (hle : 2 ^ L ≤ n) (hlt : n < 2 ^ (L + 1)) :
    ulp P n = 2 ^ (L + 1 - P) := by
  have hne : n ≠ 0 := (Nat.two_pow_pos L |>.trans_le hle).ne'
  unfold ulp
  rw [(Nat.log2_eq_iff hne).mpr ⟨hle, hlt⟩]

theorem ulp_dvd_pow (hP : 0 < P) (n : Nat) : ulp P n ∣ 2 ^ n.log2 := Nat.pow_dvd_pow 2 (by omega)

theorem ulp_of_lt (hP : 0 < P) {n : Nat} (h : n < 2 ^ P) : ulp P n = 1 := by
  have hlog : n.log2 + 1 - P = 0 := by
    by_cases hne : n = 0
    · rw [hne, Nat.log2_zero]
      omega
    · have hlt := (Nat.log2_lt hne).mpr h
      omega
  unfold ulp
  rw [hlog, pow_zero]

/-- The numbers with `P` digits are kept, and no others. -/
theorem round_eq_self {n : Nat} : round P n = n ↔ IsFloat P n := by
  have hpos := ulp_pos P n
  constructor
  · intro h
    have hdvd := dvd_roundTo (ulp P n) n
    rwa [show roundTo (ulp P n) n = n from h] at hdvd
  · rintro ⟨m, hm⟩
    rw [Nat.mul_comm] at hm
    have hround := roundTo_eq_iff hpos (m := m) (n := n) (by omega) (by omega)
    unfold round
    rw [hround.mpr (by omega), ← hm]

theorem isFloat_of_lt (hP : 0 < P) {n : Nat} (h : n < 2 ^ P) : IsFloat P n := by
  unfold IsFloat
  rw [ulp_of_lt hP h]
  exact one_dvd n

/-- A number is not rounded below the power of two before it, nor beyond the next one. -/
theorem round_bounds (hP : 0 < P) {n : Nat} (hne : n ≠ 0) :
    2 ^ n.log2 ≤ round P n ∧ round P n ≤ 2 ^ (n.log2 + 1) := by
  have hpos := ulp_pos P n
  obtain ⟨a, ha⟩ := ulp_dvd_pow hP n
  have hbelow := Nat.log2_self_le hne
  have habove : n < 2 * 2 ^ n.log2 := by
    rw [← Nat.pow_succ']
    exact Nat.lt_log2_self
  have hquotient : a ≤ n / ulp P n := by
    rw [Nat.le_div_iff_mul_le hpos, Nat.mul_comm, ← ha]
    exact hbelow
  have hquotient' : n / ulp P n < 2 * a := by
    rw [Nat.div_lt_iff_lt_mul hpos, Nat.mul_assoc, Nat.mul_comm a, ← ha]
    exact habove
  rw [Nat.pow_succ', ha]
  have hlow : ulp P n * a ≤ n / ulp P n * ulp P n := by
    rw [Nat.mul_comm]
    exact Nat.mul_le_mul_right _ hquotient
  have hhigh : (n / ulp P n + 1) * ulp P n ≤ 2 * (ulp P n * a) := by
    rw [Nat.mul_comm (ulp P n) a, ← Nat.mul_assoc]
    exact Nat.mul_le_mul_right _ hquotient'
  rw [Nat.add_mul, Nat.one_mul] at hhigh
  unfold round roundTo
  rw [Nat.add_mul, Nat.one_mul]
  split <;> omega

/-- A rounded number has `P` digits, also when it is the next power of two. -/
theorem isFloat_round (hP : 0 < P) (n : Nat) : IsFloat P (round P n) := by
  by_cases hne : n = 0
  · subst hne
    rw [round_eq_self.mpr (isFloat_of_lt hP (Nat.two_pow_pos P))]
    exact isFloat_of_lt hP (Nat.two_pow_pos P)
  obtain ⟨hlow, hhigh⟩ := round_bounds hP hne
  rcases Nat.lt_or_eq_of_le hhigh with hlt | heq
  · have hulp : ulp P (round P n) = ulp P n := ulp_eq hlow hlt
    unfold IsFloat
    rw [hulp]
    exact dvd_roundTo _ _
  · rw [heq]
    have hdvd := ulp_dvd_pow hP (2 ^ (n.log2 + 1))
    rwa [Nat.log2_two_pow] at hdvd

/-- Rounding does not go below a number that is kept. -/
theorem le_round (hP : 0 < P) {k n : Nat} (hk : k < 2 ^ P) (hle : k ≤ n) : k ≤ round P n := by
  by_cases hsmall : n < 2 ^ P
  · rwa [round_eq_self.mpr (isFloat_of_lt hP hsmall)]
  · have hne : n ≠ 0 := by omega
    have hlog : P ≤ n.log2 := (Nat.le_log2 hne).mpr (by omega)
    have hpow : 2 ^ P ≤ 2 ^ n.log2 := Nat.pow_le_pow_right (by decide) hlog
    have hbound := (round_bounds hP hne).1
    omega

/-! ## Sums -/

/-- Numbers below `2 ^ P` are kept. -/
theorem round_of_lt (hP : 0 < P) {n : Nat} (h : n < 2 ^ P) : round P n = n :=
  round_eq_self.mpr (isFloat_of_lt hP h)

/-- Two multiples that differ by less than the divisor are equal. -/
theorem eq_of_dvd_of_lt {u a b : Nat} (ha : u ∣ a) (hb : u ∣ b) (hle : a ≤ b) (hlt : b < a + u) :
    a = b := by
  obtain ⟨m, rfl⟩ := ha
  obtain ⟨n, rfl⟩ := hb
  have hn : n < m + 1 := by
    refine Nat.lt_of_mul_lt_mul_left (a := u) ?_
    rw [Nat.mul_add, Nat.mul_one]
    exact hlt
  have hle' := Nat.mul_le_mul_left u (Nat.lt_succ_iff.mp hn)
  omega

/-- The digits of the double are one place further. -/
theorem two_mul_ulp_le {d N : Nat} (hd : 2 * d ≤ N) (hlarge : 2 ^ P ≤ d) :
    2 * ulp P d ≤ ulp P N := by
  have hne : d ≠ 0 := (Nat.two_pow_pos P |>.trans_le hlarge).ne'
  have hlog : d.log2 + 1 ≤ N.log2 := by
    rw [← Nat.log2_two_mul hne]
    exact (Nat.le_log2 (by omega)).mpr ((Nat.log2_self_le (by omega)).trans hd)
  have hdigits : P ≤ d.log2 := (Nat.le_log2 hne).mpr hlarge
  unfold ulp
  rw [← Nat.pow_succ']
  exact Nat.pow_le_pow_right (by decide) (by omega)

/-- A sum in a lower power of two than the exact one: the exact sum is a power of two. -/
theorem pow_of_log2_lt (hP : 0 < P) {d N x : Nat} (hN : IsFloat P N) (hd : 2 * d ≤ N)
    (hlarge : 2 ^ P ≤ d) (hx : x + 2 * d = N + 2 * round P d) (hlow : x < 2 ^ N.log2) :
    N = 2 ^ N.log2 ∧ 4 * ulp P d ≤ ulp P N ∧ ulp P N = 2 * ulp P x := by
  have hpos := Nat.two_pow_pos P
  have hdne : d ≠ 0 := by omega
  have hdouble := two_mul_ulp_le hd hlarge
  have hu := ulp_pos P N
  have hnear := (roundTo_near (ulp_pos P d) d).2.1
  change 2 * d ≤ 2 * round P d + ulp P d at hnear
  have hpow : 2 ^ N.log2 = N :=
    eq_of_dvd_of_lt (ulp_dvd_pow hP N) hN (Nat.log2_self_le (by omega)) (by omega)
  have hless : 2 * d ≠ N := by
    intro heq
    have htwice : 2 * 2 ^ d.log2 = 2 * d := by
      rw [← Nat.pow_succ', Nat.succ_eq_add_one, ← Nat.log2_two_mul hdne, heq, hpow]
    have hexact : round P d = d := by
      rw [round_eq_self]
      have hdvd := ulp_dvd_pow hP d
      rwa [Nat.eq_of_mul_eq_mul_left (by decide) htwice] at hdvd
    omega
  obtain ⟨L, hL⟩ : ∃ L, N.log2 = L + 1 :=
    Nat.exists_eq_add_one.mpr (Nat.pos_of_ne_zero fun hzero => by
      rw [hzero, pow_zero] at hpow
      omega)
  rw [hL, Nat.pow_succ'] at hpow hlow
  have hlog : d.log2 < L := (Nat.log2_lt hdne).mpr (by omega)
  have hdigits : P ≤ d.log2 := (Nat.le_log2 hdne).mpr hlarge
  have hfour : 4 * ulp P d ≤ ulp P N := by
    unfold ulp
    rw [show 4 = 2 ^ 2 from rfl, ← Nat.pow_add, hL]
    exact Nat.pow_le_pow_right (by decide) (by omega)
  have hle : ulp P N ≤ N := Nat.le_of_dvd (by omega) hN
  have hhalf : ulp P x = 2 ^ (L + 1 - P) := ulp_eq (by omega) (by rw [Nat.pow_succ']; omega)
  refine ⟨by rw [hL, Nat.pow_succ', hpow], hfour, ?_⟩
  rw [hhalf, ← Nat.pow_succ']
  unfold ulp
  rw [hL]
  congr 1
  omega

/-- The sum of twice a rounded number and another one, for an exact sum with `P` digits. -/
theorem round_near (hP : 0 < P) {d N x : Nat} (hN : IsFloat P N) (hd : 2 * d ≤ N)
    (hlarge : 2 ^ P ≤ d) (hx : x + 2 * d = N + 2 * round P d) :
    round P x = N ↔ (Midpoint P d ∧ ulp P N = 2 * ulp P d → N / ulp P N % 2 = 0) := by
  have hv := ulp_pos P d
  have hu := ulp_pos P N
  have hdouble := two_mul_ulp_le hd hlarge
  have hne : N ≠ 0 := by
    have hpos := Nat.two_pow_pos P
    omega
  obtain ⟨hnear, hnear', hmid⟩ := roundTo_near hv d
  change 2 * round P d ≤ 2 * d + ulp P d at hnear
  change 2 * d ≤ 2 * round P d + ulp P d at hnear'
  change (2 * round P d = 2 * d + ulp P d ∨ 2 * d = 2 * round P d + ulp P d) ↔ Midpoint P d at hmid
  have hquotient : N / ulp P N * ulp P N = N := Nat.div_mul_cancel hN
  by_cases hlow : x < 2 ^ N.log2
  · obtain ⟨-, hfour, hhalf⟩ := pow_of_log2_lt hP hN hd hlarge hx hlow
    have hmultiple : N / ulp P N * 2 * ulp P x = N := by
      rw [Nat.mul_assoc, ← hhalf, hquotient]
    have hround := roundTo_eq_iff (ulp_pos P x) (m := N / ulp P N * 2) (n := x) (by omega)
      (by omega)
    rw [hmultiple] at hround
    refine iff_of_true (hround.mpr fun _ => Nat.mul_mod_left _ 2) ?_
    rintro ⟨-, htwice⟩
    omega
  · have hhigh : x < 2 ^ (N.log2 + 1) := by
      have hdvd : ulp P N ∣ 2 ^ (N.log2 + 1) := Nat.pow_dvd_pow 2 (by omega)
      have hnext := Nat.lt_log2_self (n := N)
      by_contra hout
      have heq := eq_of_dvd_of_lt hN hdvd hnext.le (by omega)
      omega
    have hulp : ulp P x = ulp P N := ulp_eq (by omega) hhigh
    have hround := roundTo_eq_iff hu (m := N / ulp P N) (n := x) (by omega) (by omega)
    rw [hquotient] at hround
    unfold round
    rw [hulp, hround]
    refine imp_congr_left ?_
    rw [← hmid]
    omega

/-- The sum of twice the rounded `d` and `p` is rounded to the exact sum if and only if that has `P`
digits and, when `d` lies in the middle of two numbers and the sum has the digits of `2 * d`, its
last digit is even. -/
theorem round_twice_iff (hP : 0 < P) (d p : Nat) :
    round P (2 * round P d + p) = 2 * d + p ↔
      IsFloat P (2 * d + p) ∧
        (Midpoint P d ∧ ulp P (2 * d + p) = 2 * ulp P d →
          (2 * d + p) / ulp P (2 * d + p) % 2 = 0) := by
  by_cases hfloat : IsFloat P (2 * d + p)
  · rw [and_iff_right hfloat]
    by_cases hlarge : 2 ^ P ≤ d
    · exact round_near hP hfloat (by omega) hlarge (by omega)
    · have hexact : round P d = d := round_of_lt hP (by omega)
      rw [hexact, round_eq_self]
      refine iff_of_true hfloat ?_
      rintro ⟨hmid, -⟩
      unfold Midpoint at hmid
      rw [ulp_of_lt hP (by omega)] at hmid
      omega
  · refine iff_of_false (fun heq => hfloat ?_) fun h => hfloat h.1
    rw [← heq]
    exact isFloat_round hP _

end Rounding
