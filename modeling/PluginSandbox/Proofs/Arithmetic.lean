import Mathlib.Data.Int.Basic
import PluginSandbox.Arithmetic

/-!
# Exact arithmetic

Every operation of checked arithmetic gives the exact result where that is a 64-bit integer, and nothing elsewhere
(`Arithmetic.Exact`).  The exact results are those of the integers: sums, differences, products, negatives, absolute
values and powers, and quotients and remainders with `l = q * r + m`, where `m` is smaller than the divisor and has
the sign of the dividend (`Arithmetic.Divides`).

The quotient of the least integer by minus one is the only one that does not fit.
-/

namespace PluginSandbox
namespace Arithmetic

/-- An integer has 64 bits. -/
def InRange (n : Int) : Prop :=
  -(1 <<< 63) ≤ n ∧ n < 1 <<< 63

/-- A result is an exact integer, or missing because that does not fit. -/
def Exact (n : Int) (result : Option Int64) : Prop :=
  (∃ v : Int64, v.toInt = n ∧ result = some v) ∨ ¬ InRange n ∧ result = none

/-- An integer is a multiple of a divisor and a remainder, which is smaller than the divisor and has the sign of the
dividend. -/
structure Divides (l r q m : Int) : Prop where
  eq : l = q * r + m
  lt : m.natAbs < r.natAbs
  sign : m = 0 ∨ m.sign = l.sign

theorem inRange_toInt (n : Int64) : InRange n.toInt :=
  ⟨n.le_toInt, n.toInt_lt⟩

theorem toInt_ofInt {n : Int} (h : InRange n) : (Int64.ofInt n).toInt = n :=
  Int64.toInt_ofInt_of_le h.1 h.2

/-- Putting an integer back into 64 bits loses nothing. -/
theorem exact_fit? (n : Int) : Exact n (fit? n) := by
  by_cases h : InRange n
  · exact .inl ⟨Int64.ofInt n, toInt_ofInt h, if_pos h⟩
  · exact .inr ⟨h, if_neg h⟩

theorem exact_abs? (n : Int64) : Exact n.toInt.natAbs (abs? n) :=
  exact_fit? _

theorem fit?_eq_none {n : Int} : fit? n = none ↔ ¬ InRange n := by
  rw [fit?]
  exact ite_eq_right_iff.trans (by simp [InRange])

theorem fit?_of_inRange {n : Int} (h : InRange n) : fit? n = some (Int64.ofInt n) :=
  if_pos h

/-! ## Powers -/

theorem pow_succ (b : Int) (n : Nat) : b.pow (n + 1) = b.pow n * b :=
  Int.pow_succ b n

/-- The powers of 0, 1 and -1 repeat from the exponent one on, so a small exponent will do. -/
theorem pow_smallExponent {b : Int} (hb : b.natAbs ≤ 1) : ∀ n : Nat, b.pow (smallExponent n) = b.pow n
  | 0 | 1 | 2 => rfl
  | n + 3 => by
    have hcube : b * b * b = b := by
      obtain rfl | rfl | rfl : b = 0 ∨ b = 1 ∨ b = -1 := by omega
      all_goals rfl
    have hrepeat : b.pow (n + 3) = b.pow (n + 1) :=
      calc b.pow (n + 3) = b.pow n * b * b * b := by rw [pow_succ, pow_succ, pow_succ]
        _ = b.pow n * (b * b * b) := by simp only [Int.mul_assoc]
        _ = b.pow (n + 1) := by rw [hcube, pow_succ]
    have hsmall : smallExponent (n + 3) = smallExponent (n + 1) := by
      rw [smallExponent, smallExponent, if_neg (by omega), if_neg (by omega)]
      omega
    rw [hsmall, pow_smallExponent hb (n + 1), hrepeat]

/-- A power with an exponent of 64 or more does not fit, unless its base is 0, 1 or -1. -/
theorem not_inRange_pow {b : Int} (hb : 1 < b.natAbs) {n : Nat} (hn : 64 ≤ n) : ¬ InRange (b.pow n) := by
  have habs : (b.pow n).natAbs = b.natAbs.pow n := Int.natAbs_pow b n
  have hbase : Nat.pow 2 n ≤ b.natAbs.pow n := Nat.pow_le_pow_left hb n
  have hexponent : Nat.pow 2 64 ≤ Nat.pow 2 n := Nat.pow_le_pow_right (by omega) hn
  have hlarge : (18446744073709551616 : Nat) ≤ Nat.pow 2 64 := by decide
  rintro ⟨hlow, hhigh⟩
  have hbound : (1 <<< 63 : Int) = 9223372036854775808 := by decide
  omega

theorem exact_pow? (base : Int64) (exponent : Nat) : Exact (base.toInt.pow exponent) (pow? base exponent) := by
  rw [pow?]
  split
  · next hbase =>
    rw [pow_smallExponent hbase]
    exact exact_fit? _
  · next hbase =>
    split
    · exact exact_fit? _
    · next hexponent => exact .inr ⟨not_inRange_pow (by omega) (by omega), rfl⟩

/-! ## Quotients and remainders -/

theorem divides_tdiv {l r : Int} (hr : r ≠ 0) : Divides l r (l.tdiv r) (l.tmod r) := by
  constructor
  · rw [Int.mul_comm]
    exact (Int.mul_tdiv_add_tmod l r).symm
  · rw [Int.natAbs_tmod]
    exact Nat.mod_lt _ (Int.natAbs_pos.2 hr)
  · by_cases hdvd : r ∣ l
    · exact .inl (Int.tmod_eq_zero_of_dvd hdvd)
    · refine .inr ?_
      rw [Int.sign_tmod, if_neg hdvd]

/-- Only the quotient of the least integer by minus one does not fit. -/
theorem inRange_tdiv (l r : Int64) : InRange (l.toInt.tdiv r.toInt) ↔ ¬ (l.toInt = -(1 <<< 63) ∧ r.toInt = -1) := by
  obtain ⟨hlow, hhigh⟩ := inRange_toInt l
  have hbound : (1 <<< 63 : Int) = 9223372036854775808 := by decide
  rw [hbound] at hlow hhigh ⊢
  rw [InRange, hbound]
  by_cases hminus : r.toInt = -1
  · have hquotient : l.toInt.tdiv r.toInt = -l.toInt := by rw [hminus, Int.tdiv_neg, Int.tdiv_one]
    omega
  by_cases hone : r.toInt = 1
  · rw [hone, Int.tdiv_one]
    omega
  -- Any other divisor makes the quotient smaller than half of the dividend, or zero.
  have habs : (l.toInt.tdiv r.toInt).natAbs = l.toInt.natAbs / r.toInt.natAbs := Int.natAbs_tdiv _ _
  have hhalf : l.toInt.natAbs / r.toInt.natAbs ≤ l.toInt.natAbs / 2 := by
    by_cases hzero : r.toInt.natAbs = 0
    · simp [hzero]
    · exact Nat.div_le_div_left (by omega) (by decide)
  omega

theorem inRange_tmod (l r : Int64) : InRange (l.toInt.tmod r.toInt) := by
  obtain ⟨hlow, hhigh⟩ := inRange_toInt l
  obtain ⟨hlow', hhigh'⟩ := inRange_toInt r
  have hbound : (1 <<< 63 : Int) = 9223372036854775808 := by decide
  rw [hbound] at hlow hhigh hlow' hhigh'
  rw [InRange, hbound]
  by_cases hzero : r.toInt = 0
  · rw [hzero, Int.tmod_zero]
    omega
  · have hlt := (divides_tdiv (l := l.toInt) hzero).lt
    omega

/-- The quotient and the remainder are there and exact, unless the quotient is the one that does not fit. -/
theorem div?_rem? (l r : Int64) :
    (l.toInt = -(1 <<< 63) ∧ r.toInt = -1 ∧ div? l r = none ∧ rem? l r = none) ∨
      ¬ (l.toInt = -(1 <<< 63) ∧ r.toInt = -1) ∧ ∃ q m : Int64, div? l r = some q ∧ rem? l r = some m ∧
        q.toInt = l.toInt.tdiv r.toInt ∧ m.toInt = l.toInt.tmod r.toInt := by
  by_cases hleast : l.toInt = -(1 <<< 63) ∧ r.toInt = -1
  · have hnone : div? l r = none := fit?_eq_none.2 fun h => (inRange_tdiv l r).1 h hleast
    refine .inl ⟨hleast.1, hleast.2, hnone, ?_⟩
    rw [rem?, hnone]
    rfl
  · have hquotient := (inRange_tdiv l r).2 hleast
    have hremainder := inRange_tmod l r
    refine .inr ⟨hleast, Int64.ofInt (l.toInt.tdiv r.toInt), Int64.ofInt (l.toInt.tmod r.toInt),
      fit?_of_inRange hquotient, ?_, toInt_ofInt hquotient, toInt_ofInt hremainder⟩
    rw [rem?, div?, fit?_of_inRange hquotient, Option.bind_some, fit?_of_inRange hremainder]

end Arithmetic
end PluginSandbox
