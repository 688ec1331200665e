import Mathlib.Algebra.Order.Ring.Nat
import Mathlib.Data.UInt
import Mathlib.Tactic.Ring

/-!
# Blocks of memory and the bytes of numbers

A block of memory is a list. A number is in memory as a fixed number of bytes, in the byte order
of the machine.

Results:
1. `length_overwrite`, `take_overwrite`, `overwrite_append`: what a write into a block leaves.
2. `toNat_ofNat`, `ofNat_toNat`: the bytes of a number that fits give it back, and bytes are those of
   their number, in both byte orders.
-/

namespace Bytes

/-! ## Blocks -/

section Blocks

variable {α : Type*}

/-- The block after a write of `xs` at the index `i`. -/
def overwrite (m : List α) (i : Nat) (xs : List α) : List α :=
  m.take i ++ xs ++ m.drop (i + xs.length)

theorem overwrite_nil (m : List α) (i : Nat) : overwrite m i [] = m := by
  simp [overwrite]

theorem overwrite_whole {m xs : List α} (h : xs.length = m.length) : overwrite m 0 xs = xs := by
  rw [overwrite, List.take_zero, List.nil_append, List.drop_eq_nil_of_le (by omega),
    List.append_nil]

theorem length_overwrite {m : List α} {i : Nat} {xs : List α} (h : i + xs.length ≤ m.length) :
    (overwrite m i xs).length = m.length := by
  simp only [overwrite, List.length_append, List.length_take, List.length_drop]
  omega

/-- Up to the end of the write, the block is what was before it and the write. -/
theorem take_overwrite {m : List α} {i : Nat} {xs : List α} (h : i ≤ m.length) :
    (overwrite m i xs).take (i + xs.length) = m.take i ++ xs := by
  have hlength : (m.take i ++ xs).length = i + xs.length := by
    rw [List.length_append, List.length_take_of_le h]
  rw [overwrite, ← hlength, List.take_left]

theorem drop_overwrite {m : List α} {i : Nat} {xs : List α} (h : i ≤ m.length) :
    (overwrite m i xs).drop (i + xs.length) = m.drop (i + xs.length) := by
  have hlength : (m.take i ++ xs).length = i + xs.length := by
    rw [List.length_append, List.length_take_of_le h]
  rw [overwrite]
  nth_rewrite 1 [← hlength]
  rw [List.drop_left]

/-- Two writes, the second where the first ends, are one. -/
theorem overwrite_append {m : List α} {i : Nat} {xs : List α} (h : i ≤ m.length) (ys : List α) :
    overwrite (overwrite m i xs) (i + xs.length) ys = overwrite m i (xs ++ ys) := by
  have hdrop : (overwrite m i xs).drop (i + xs.length + ys.length) =
      m.drop (i + (xs ++ ys).length) := by
    rw [← List.drop_drop, drop_overwrite h, List.drop_drop, List.length_append, Nat.add_assoc]
  rw [overwrite, take_overwrite h, hdrop, overwrite, List.append_assoc (m.take i)]

theorem set_eq_overwrite {m : List α} {i : Nat} (h : i < m.length) (x : α) :
    m.set i x = overwrite m i [x] := by
  rw [List.set_eq_take_append_cons_drop, if_pos h, overwrite]
  simp

end Blocks

/-! ## Numbers -/

/-- The `w` low bytes of a number, the lowest first. -/
def ofNatLE : Nat → Nat → List UInt8
  | 0, _ => []
  | w + 1, n => UInt8.ofNat n :: ofNatLE w (n / 256)

def toNatLE : List UInt8 → Nat
  | [] => 0
  | b :: bs => b.toNat + 256 * toNatLE bs

theorem length_ofNatLE (w n : Nat) : (ofNatLE w n).length = w := by
  induction w generalizing n with
  | zero => rfl
  | succ w ih => rw [ofNatLE, List.length_cons, ih]

theorem toNatLE_ofNatLE (w n : Nat) : toNatLE (ofNatLE w n) = n % 256 ^ w := by
  induction w generalizing n with
  | zero => rw [ofNatLE, toNatLE, pow_zero, Nat.mod_one]
  | succ w ih =>
    have hlow : (UInt8.ofNat n).toNat = n % 256 := UInt8.toNat_ofNat'
    rw [ofNatLE, toNatLE, ih, hlow, pow_succ', Nat.mod_mul]

inductive Order
  | little
  | big
deriving DecidableEq

/-- The `w` low bytes of a number in a byte order. -/
def ofNat : Order → Nat → Nat → List UInt8
  | .little, w, n => ofNatLE w n
  | .big, w, n => (ofNatLE w n).reverse

def toNat : Order → List UInt8 → Nat
  | .little, bs => toNatLE bs
  | .big, bs => toNatLE bs.reverse

@[simp] theorem length_ofNat (order : Order) (w n : Nat) : (ofNat order w n).length = w := by
  cases order with
  | little => exact length_ofNatLE w n
  | big => rw [ofNat, List.length_reverse, length_ofNatLE]

/-- A number that fits is given back by its bytes. -/
theorem toNat_ofNat (order : Order) {w n : Nat} (h : n < 256 ^ w) :
    toNat order (ofNat order w n) = n := by
  cases order with
  | little => rw [ofNat, toNat, toNatLE_ofNatLE, Nat.mod_eq_of_lt h]
  | big => rw [ofNat, toNat, List.reverse_reverse, toNatLE_ofNatLE, Nat.mod_eq_of_lt h]

theorem toNatLE_lt (bs : List UInt8) : toNatLE bs < 256 ^ bs.length := by
  induction bs with
  | nil => exact Nat.one_pos
  | cons b bs ih =>
    have hb : b.toNat < 256 := b.toNat_lt
    rw [toNatLE, List.length_cons, pow_succ']
    omega

theorem ofNatLE_toNatLE (bs : List UInt8) : ofNatLE bs.length (toNatLE bs) = bs := by
  induction bs with
  | nil => rfl
  | cons b bs ih =>
    have hb : b.toNat < 256 := b.toNat_lt
    have hlow : UInt8.ofNat (b.toNat + 256 * toNatLE bs) = b := by
      apply UInt8.toNat_inj.mp
      rw [UInt8.toNat_ofNat']
      omega
    have hhigh : (b.toNat + 256 * toNatLE bs) / 256 = toNatLE bs := by omega
    rw [List.length_cons, toNatLE, ofNatLE, hlow, hhigh, ih]

theorem toNat_lt (order : Order) (bs : List UInt8) : toNat order bs < 256 ^ bs.length := by
  cases order with
  | little => exact toNatLE_lt bs
  | big =>
    rw [← List.length_reverse]
    exact toNatLE_lt bs.reverse

/-- Bytes are those of their number. -/
theorem ofNat_toNat (order : Order) (bs : List UInt8) :
    ofNat order bs.length (toNat order bs) = bs := by
  cases order with
  | little => exact ofNatLE_toNatLE bs
  | big =>
    have hbytes := ofNatLE_toNatLE bs.reverse
    rw [List.length_reverse] at hbytes
    rw [ofNat, toNat, hbytes, List.reverse_reverse]

end Bytes
