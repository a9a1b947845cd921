import PluginSandbox.Language.Lexer
import PluginSandbox.Language.Tree

/-!
# Parsers over tokens

A parser reads tokens from the front of what has not been read and may record errors.  It can fail, and
what it has read and recorded until then stays read and recorded; so a failing parser says where
recovery has to begin.

The end of the input is a token like any other to look at, but it is never read.
-/

namespace PluginSandbox

/-- What a parser works on: the tokens that have not been read, what stands behind the last one, and the errors that
have been recorded, the last one first. -/
structure ParserState where
  tokens : List Token
  endToken : Token
  errors : List SyntaxError

/-- A parser: what it reads, unless it fails, and the state behind it. -/
def Parser (α : Type) : Type :=
  ParserState → Option α × ParserState

namespace Parser

variable {α β : Type}

@[always_inline] instance : Monad Parser where
  pure a := fun s => (some a, s)
  bind p f := fun s =>
    match p s with
    | (some a, s) => f a s
    | (none, s) => (none, s)

/-- The parser that fails. -/
def fail : Parser α :=
  fun s => (none, s)

/-- The parser that reads the same and does not fail, but says whether the other one did. -/
def attempt (p : Parser α) : Parser (Option α) :=
  fun s => let (a, s) := p s; (some a, s)

/-- The next token. -/
def peek : Parser Token :=
  fun s => (some (s.tokens.head?.getD s.endToken), s)

/-- The kind of the token behind the next one. -/
def peekSecond : Parser TokenKind :=
  fun s => (some ((s.tokens.tail.head?.getD s.endToken).kind), s)

/-- Reads the next token. -/
def advance : Parser Token :=
  fun s => (some (s.tokens.head?.getD s.endToken), { s with tokens := s.tokens.tail })

/-- The number of tokens that have not been read. -/
def remaining : Parser Nat :=
  fun s => (some s.tokens.length, s)

/-- Whether the next token is of some kind. -/
def check (kind : TokenKind) : Parser Bool := do
  return (← peek).kind == kind

/-- Reads the next token if it is of some kind, and says whether it was. -/
def eat (kind : TokenKind) : Parser Bool := do
  if ← check kind then
    let _ ← advance
    return true
  else return false

/-- Records an error at a place. -/
def report (problem : SyntaxProblem) (position : Position) : Parser Unit :=
  fun s => (some (), { s with errors := ⟨problem, position⟩ :: s.errors })

/-- Records that something else than the next token was expected. -/
def reportExpected (expected : String) : Parser Unit := do
  let t ← peek
  report (.unexpectedToken expected t.found) t.position

/-- Records that something else than the next token was expected, and fails. -/
def failExpected (expected : String) : Parser α := do
  reportExpected expected
  fail

/-- Records that the next token is nested too deeply, and fails. -/
def failTooDeep : Parser α := do
  report .tooDeep (← peek).position
  fail

/-- Reads a token of some kind, or fails. -/
def expect (kind : TokenKind) : Parser Token := do
  if ← check kind then advance else failExpected kind.text

/-- Skips to the next token that satisfies a test, or to the end of the input. -/
def skipTo (p : TokenKind → Bool) : Parser Unit :=
  fun s => (some (), { s with tokens := s.tokens.dropWhile fun t => !p t.kind })

/-- The tokens behind a statement that could not be read: behind the next semicolon, or from the brace
that closes the block around it.  Blocks that open on the way are skipped whole; the number says how
many are open. -/
def afterStatement : Nat → List Token → List Token
  | _, [] => []
  | depth, t :: rest =>
    match t.kind, depth with
    | .semicolon, 0 => rest
    | .closeBrace, 0 => t :: rest
    | .closeBrace, depth + 1 => afterStatement depth rest
    | .openBrace, depth => afterStatement (depth + 1) rest
    | _, depth => afterStatement depth rest

/-- Skips a statement that could not be read. -/
def recover : Parser Unit :=
  fun s => (some (), { s with tokens := afterStatement 0 s.tokens })

/-- Runs a parser, skips a statement if it fails, and says what it read if it did not. -/
def orRecover (p : Parser α) : Parser (Option α) := do
  match ← attempt p with
  | some a => return some a
  | none =>
    recover
    return none

end Parser
end PluginSandbox
