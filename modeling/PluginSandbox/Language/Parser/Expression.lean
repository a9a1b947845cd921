import PluginSandbox.Language.Parser.Basic

/-!
# Parsing expressions

From the loosest to the tightest, the operators are `||`, `&&`, the two equalities, the four orders,
sum and difference, and product, quotient and remainder, all of them associating to the left; then come
the unary operators, calls, names, literals and parentheses.

## Nesting

Every parser takes the number of levels that it may still nest.  A complete expression takes one, the
operand of a unary operator takes one, and each operator of a chain takes one for its right operand
and all that follows in the chain.  A level is taken by recursion on that number, so it is given back
when the parser returns, whether or not it failed.

Because parentheses and arguments hold complete expressions again, `exprAt` takes a bound on the depth of
that recursion beside the levels.  Every expression inside another one has fewer levels, so a bound
equal to the levels never runs out first.
-/

namespace PluginSandbox
namespace Parser

/-- How an operator joins its operands, given its place. -/
abbrev Join := Expr → Expr → Position → Expr

/-- The operators of a chain, each with how it joins its operands. -/
abbrev Operators := TokenKind → Option Join

/-- The loosest operator. -/
def orOperators : Operators
  | .orOr => some Expr.or
  | _ => none

/-- The operator that needs both operands to hold. -/
def andOperators : Operators
  | .andAnd => some Expr.and
  | _ => none

/-- Equality and inequality. -/
def equalityOperators : Operators
  | .equal => some (.binary .eq)
  | .notEqual => some (.binary .ne)
  | _ => none

/-- The four orders. -/
def orderOperators : Operators
  | .less => some (.binary .lt)
  | .lessEqual => some (.binary .le)
  | .greater => some (.binary .gt)
  | .greaterEqual => some (.binary .ge)
  | _ => none

/-- Sum and difference. -/
def sumOperators : Operators
  | .plus => some (.binary .add)
  | .minus => some (.binary .sub)
  | _ => none

/-- Product, quotient and remainder. -/
def productOperators : Operators
  | .star => some (.binary .mul)
  | .slash => some (.binary .div)
  | .percent => some (.binary .rem)
  | _ => none

/-- The unary operators, each with how it applies to its operand. -/
def unaryOperator? : TokenKind → Option (Expr → Position → Expr)
  | .minus => some .neg
  | .bang => some .not
  | _ => none

/-- The rest of a chain of operators behind its first operand, with some levels left. -/
def chainTail (ops : Operators) (operand : Nat → Parser Expr) : Nat → Expr → Parser Expr
  | 0, left => do
    match ops (← peek).kind with
    | none => return left
    | some _ => failTooDeep
  | levels + 1, left => do
    match ops (← peek).kind with
    | none => return left
    | some join =>
      let t ← advance
      let right ← operand levels
      chainTail ops operand levels (join left right t.position)

/-- A chain of operators that associate to the left. -/
def chain (ops : Operators) (operand : Nat → Parser Expr) (levels : Nat) : Parser Expr := do
  let first ← operand levels
  chainTail ops operand levels first

/-- The arguments of a call that has at least one more, up to and without the closing parenthesis,
behind those that were read before, which are in reverse.  The bound limits their number. -/
def moreArgs (arg : Parser Expr) : Nat → List Expr → Parser (List Expr)
  | 0, read => return read.reverse
  | bound + 1, read => do
    let e ← arg
    if ← eat .comma then moreArgs arg bound (e :: read) else return (e :: read).reverse

/-- The arguments of a call in parentheses. -/
def args (arg : Parser Expr) : Parser (List Expr) := do
  let _ ← expect .openParen
  let es ← if ← check .closeParen then pure [] else moreArgs arg ((← remaining) + 1) []
  let _ ← expect .closeParen
  return es

/-- A name, a call, a literal or an expression in parentheses; `nested` reads a complete expression. -/
def primary (nested : Parser Expr) : Parser Expr := do
  let t ← peek
  match t.kind with
  | .integer value =>
    let _ ← advance
    return .int value t.position
  | .stringLiteral =>
    let _ ← advance
    return .str t.text t.position
  | .trueWord =>
    let _ ← advance
    return .bool true t.position
  | .falseWord =>
    let _ ← advance
    return .bool false t.position
  | .openParen =>
    let _ ← advance
    let inner ← nested
    let _ ← expect .closeParen
    return inner
  | .identifier =>
    let _ ← advance
    if ← check .openParen then
      return .call t.text (← args nested) t.position
    else if ← eat .dot then
      let method ← expect .identifier
      return .memberCall t.text method.text (← args nested) t.position
    else return .var t.text t.position
  | _ => failExpected "expression"

/-- An operand with the unary operators in front of it. -/
def unary (nested : Nat → Parser Expr) : Nat → Parser Expr
  | 0 => do
    match unaryOperator? (← peek).kind with
    | none => primary (nested 0)
    | some _ =>
      let _ ← advance
      failTooDeep
  | levels + 1 => do
    match unaryOperator? (← peek).kind with
    | none => primary (nested (levels + 1))
    | some apply =>
      let t ← advance
      let operand ← unary nested levels
      return apply operand t.position

/-- Everything that an expression may be, with some levels left; `nested` reads a complete expression. -/
def operators (nested : Nat → Parser Expr) : Nat → Parser Expr :=
  chain orOperators <| chain andOperators <| chain equalityOperators <| chain orderOperators <|
    chain sumOperators <| chain productOperators <| unary nested

/-- A complete expression with some levels left, of at most the given depth. -/
def exprAt : Nat → Nat → Parser Expr
  | 0, _ => failTooDeep
  | _ + 1, 0 => failTooDeep
  | depth + 1, levels + 1 => operators (exprAt depth) levels

/-- What holds of the failure where no level is left, and of the operators around expressions of which it holds, holds
of every complete expression. -/
theorem exprAt_induction {P : Nat → Parser Expr → Prop} (hdeep : ∀ levels, P levels failTooDeep)
    (hoperators : ∀ nested : Nat → Parser Expr, (∀ levels, P levels (nested levels)) →
      ∀ levels, P (levels + 1) (operators nested levels)) (depth levels : Nat) : P levels (exprAt depth levels) := by
  induction depth generalizing levels with
  | zero => exact hdeep levels
  | succ depth ih =>
    cases levels with
    | zero => exact hdeep 0
    | succ levels => exact hoperators (exprAt depth) ih levels

/-- A complete expression with some levels left. -/
def expr (levels : Nat) : Parser Expr :=
  exprAt levels levels

end Parser
end PluginSandbox
