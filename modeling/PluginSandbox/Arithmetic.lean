/-!
# Checked 64-bit arithmetic

The integers of the plugin language are signed 64-bit numbers, and no operation on them wraps: a result
is the exact one or there is none.  Every operation is computed on the integers and then put back
(`fit?`), so a result exists exactly when the exact result lies between -2^63 and 2^63 - 1.

Quotients are rounded toward zero, and a remainder has the sign of the dividend.  The quotient of the
least integer by minus one does not fit; its remainder counts as not fitting either.
-/

namespace PluginSandbox
namespace Arithmetic

/-- The 64-bit integer of a value, if it lies in range. -/
def fit? (n : Int) : Option Int64 :=
  if -(1 <<< 63) ≤ n ∧ n < 1 <<< 63 then some (Int64.ofInt n) else none

/-- The sum. -/
def add? (l r : Int64) : Option Int64 :=
  fit? (l.toInt + r.toInt)

/-- The difference. -/
def sub? (l r : Int64) : Option Int64 :=
  fit? (l.toInt - r.toInt)

/-- The product. -/
def mul? (l r : Int64) : Option Int64 :=
  fit? (l.toInt * r.toInt)

/-- The negative. -/
def neg? (n : Int64) : Option Int64 :=
  fit? (-n.toInt)

/-- The absolute value. -/
def abs? (n : Int64) : Option Int64 :=
  fit? n.toInt.natAbs

/-- The quotient by a divisor that is not zero. -/
def div? (l r : Int64) : Option Int64 :=
  fit? (l.toInt.tdiv r.toInt)

/-- The remainder by a divisor that is not zero, if the quotient fits. -/
def rem? (l r : Int64) : Option Int64 :=
  (div? l r).bind fun _ => fit? (l.toInt.tmod r.toInt)

/-- An exponent that gives the same power of 0, 1 and -1 and is at most two. -/
def smallExponent (exponent : Nat) : Nat :=
  if exponent = 0 then 0 else 2 - exponent % 2

/-- The power.  A base of absolute value two or more has no power in range from the exponent 64 on. -/
def pow? (base : Int64) (exponent : Nat) : Option Int64 :=
  if base.toInt.natAbs ≤ 1 then fit? (base.toInt.pow (smallExponent exponent))
  else if exponent < 64 then fit? (base.toInt.pow exponent)
  else none

end Arithmetic
end PluginSandbox
