import PluginSandbox.Arithmetic
import PluginSandbox.Failure

/-!
# Operations on values

What unary and binary operations give, and the faults where they give nothing.  Equality compares values
of any types; sums join integers or strings; orders compare integers, or strings by their code points;
everything else takes integers only.
-/

namespace PluginSandbox

/-- The integer that an operation gives, or the fault where it does not fit. -/
def fittingInt : Option Int64 → Except Fault Value
  | some n => .ok (.int n)
  | none => .error .integerOverflow

/-- What a unary operation gives. -/
def UnaryOp.apply : UnaryOp → Value → Except Fault Value
  | .neg, .int n => fittingInt (Arithmetic.neg? n)
  | .not, .bool b => .ok (.bool !b)
  | op, value => .error (.notApplicable op value.type)

/-- What a binary operation gives on integers. -/
def BinaryOp.applyInts (l r : Int64) : BinaryOp → Except Fault Value
  | .add => fittingInt (Arithmetic.add? l r)
  | .sub => fittingInt (Arithmetic.sub? l r)
  | .mul => fittingInt (Arithmetic.mul? l r)
  | .div => if r = 0 then .error .divisionByZero else fittingInt (Arithmetic.div? l r)
  | .rem => if r = 0 then .error .divisionByZero else fittingInt (Arithmetic.rem? l r)
  | .eq => .ok (.bool (decide (l = r)))
  | .ne => .ok (.bool (decide (l ≠ r)))
  | .lt => .ok (.bool (decide (l.toInt < r.toInt)))
  | .le => .ok (.bool (decide (l.toInt ≤ r.toInt)))
  | .gt => .ok (.bool (decide (r.toInt < l.toInt)))
  | .ge => .ok (.bool (decide (r.toInt ≤ l.toInt)))

/-- What a binary operation gives on strings. -/
def BinaryOp.applyStrings (l r : String) : BinaryOp → Except Fault Value
  | .add => .ok (.str (l ++ r))
  | .eq => .ok (.bool (decide (l = r)))
  | .ne => .ok (.bool (decide (l ≠ r)))
  | .lt => .ok (.bool (decide (l < r)))
  | .le => .ok (.bool !(decide (r < l)))
  | .gt => .ok (.bool (decide (r < l)))
  | .ge => .ok (.bool !(decide (l < r)))
  | op => .error (.notApplicable₂ op .str .str)

/-- What a binary operation gives. -/
def BinaryOp.apply (op : BinaryOp) (l r : Value) : Except Fault Value :=
  match l, r with
  | .int l, .int r => op.applyInts l r
  | .str l, .str r => op.applyStrings l r
  | l, r =>
    match op with
    | .eq => .ok (.bool (decide (l = r)))
    | .ne => .ok (.bool (decide (l ≠ r)))
    | op => .error (.notApplicable₂ op l.type r.type)

end PluginSandbox
