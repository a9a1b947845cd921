import PluginSandbox.Language.Parser.Expression

/-!
# Parsing statements

A statement takes one nesting level, and so does the branch behind `else` when it is another branch; the
statements of a block have the levels that are left.  A statement that cannot be read is an error, and
reading goes on behind it (`block`), so one block can report many independent problems.
-/

namespace PluginSandbox
namespace Parser

/-- The statements of a block up to and without its closing brace, behind those that were read before,
which are in reverse.  The bound limits their number. -/
def statements (statement : Parser Stmt) : Nat → List Stmt → Parser (List Stmt)
  | 0, read => return read.reverse
  | bound + 1, read => do
    match (← peek).kind with
    | .closeBrace => return read.reverse
    | .endOfInput => return read.reverse
    | _ =>
      match ← orRecover statement with
      | some s => statements statement bound (s :: read)
      | none => statements statement bound read

/-- A block in braces.  It never fails: without an opening brace it is empty. -/
def block (statement : Parser Stmt) : Parser (List Stmt) := do
  match ← attempt (expect .openBrace) with
  | none => return []
  | some _ =>
    let body ← statements statement ((← remaining) + 1) []
    let _ ← attempt (expect .closeBrace)
    return body

/-- A block, which must begin here. -/
def requiredBlock (body : Parser (List Stmt)) : Parser (List Stmt) := do
  if ← check .openBrace then body else failExpected TokenKind.openBrace.text

/-- A branch, given how to read its condition, its bodies, and the branch behind `else`. -/
def branchOf (condition : Parser Expr) (body : Parser (List Stmt)) (elseIf : Parser Stmt) :
    Parser Stmt := do
  let _ ← advance
  let c ← condition
  let thenBody ← requiredBlock body
  if ← eat .elseWord then
    if ← check .ifWord then
      let s ← elseIf
      return .branch c thenBody (some [s])
    else if ← check .openBrace then
      let elseBody ← body
      return .branch c thenBody (some elseBody)
    else failExpected "`\x7b` or `if`"
  else return .branch c thenBody none

/-- A branch with some levels left; `body` reads a block with the levels it is given. -/
def branch (body : Nat → Parser (List Stmt)) : Nat → Parser Stmt
  | 0 => branchOf (expr 0) (body 0) failTooDeep
  | levels + 1 => branchOf (expr (levels + 1)) (body (levels + 1)) (branch body levels)

/-- A statement with some levels left; `nested` reads a statement of a block inside it. -/
def statement (nested : Nat → Parser Stmt) (levels : Nat) : Parser Stmt := do
  let t ← peek
  match t.kind with
  | .letWord =>
    let _ ← advance
    let name ← expect .identifier
    let _ ← expect .assign
    let value ← expr levels
    let _ ← expect .semicolon
    return .declare name.text value t.position
  | .ifWord => branch (fun levels => block (nested levels)) levels
  | .whileWord =>
    let _ ← advance
    let condition ← expr levels
    let body ← requiredBlock (block (nested levels))
    return .loop condition body
  | .returnWord =>
    let _ ← advance
    let value ← if ← check .semicolon then pure none else some <$> expr levels
    let _ ← expect .semicolon
    return .ret value t.position
  | kind =>
    if kind == .identifier && (← peekSecond) == .assign then
      let _ ← advance
      let _ ← advance
      let value ← expr levels
      let _ ← expect .semicolon
      return .assign t.text value t.position
    else
      let value ← expr levels
      let _ ← expect .semicolon
      return .expr value

/-- A statement that takes one of the levels left, of at most the given depth. -/
def stmtAt : Nat → Nat → Parser Stmt
  | 0, _ => failTooDeep
  | _ + 1, 0 => failTooDeep
  | depth + 1, levels + 1 => statement (stmtAt depth) levels

/-- What holds of the failure where no level is left, and of statements around others of which it holds, holds of every
statement. -/
theorem stmtAt_induction {P : Nat → Parser Stmt → Prop} (hdeep : ∀ levels, P levels failTooDeep)
    (hstatement : ∀ nested : Nat → Parser Stmt, (∀ levels, P levels (nested levels)) →
      ∀ levels, P (levels + 1) (statement nested levels)) (depth levels : Nat) : P levels (stmtAt depth levels) := by
  induction depth generalizing levels with
  | zero => exact hdeep levels
  | succ depth ih =>
    cases levels with
    | zero => exact hdeep 0
    | succ levels => exact hstatement (stmtAt depth) ih levels

/-- A statement that takes one of the levels left. -/
def stmt (levels : Nat) : Parser Stmt :=
  stmtAt levels levels

end Parser
end PluginSandbox
