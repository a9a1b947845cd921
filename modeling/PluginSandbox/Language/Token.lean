import PluginSandbox.Value

/-!
# Tokens and positions

The words of the plugin language, where they stand in a source text, and what can be wrong with the
text.  Positions count lines and columns from one, a column being one character.
-/

namespace PluginSandbox

/-- A place in a source text: its line and its column, both counted from one. -/
structure Position where
  line : Nat
  column : Nat
  deriving DecidableEq, Inhabited

namespace Position

/-- The place of the first character. -/
def first : Position := ⟨1, 1⟩

/-- The place behind a character that stands here. -/
def next (p : Position) (c : Char) : Position :=
  if c = '\n' then ⟨p.line + 1, 1⟩ else ⟨p.line, p.column + 1⟩

/-- The place behind some characters that stand here. -/
def after (p : Position) (cs : List Char) : Position :=
  cs.foldl next p

@[simp] theorem after_nil (p : Position) : p.after [] = p := rfl

@[simp] theorem after_cons (p : Position) (c : Char) (cs : List Char) :
    p.after (c :: cs) = (p.next c).after cs := rfl

/-- Places are ordered by line, then by column. -/
def le (p q : Position) : Bool :=
  p.line < q.line || (p.line == q.line && p.column ≤ q.column)

end Position

/-- The kinds of tokens: keywords, identifiers, literals, punctuation, operators, and what stands behind the last
token. -/
inductive TokenKind where
  | importWord
  | pluginWord
  | fnWord
  | letWord
  | ifWord
  | elseWord
  | whileWord
  | returnWord
  | trueWord
  | falseWord
  | identifier
  | integer (value : Int64)
  | stringLiteral
  | openBrace
  | closeBrace
  | openParen
  | closeParen
  | comma
  | semicolon
  | colon
  | dot
  | plus
  | minus
  | star
  | slash
  | percent
  | bang
  | assign
  | equal
  | notEqual
  | less
  | lessEqual
  | greater
  | greaterEqual
  | andAnd
  | orOr
  | endOfInput
  deriving DecidableEq, Inhabited

/-- How a kind of token is called in messages. -/
def TokenKind.text : TokenKind → String
  | .importWord => "`import`"
  | .pluginWord => "`plugin`"
  | .fnWord => "`fn`"
  | .letWord => "`let`"
  | .ifWord => "`if`"
  | .elseWord => "`else`"
  | .whileWord => "`while`"
  | .returnWord => "`return`"
  | .trueWord => "`true`"
  | .falseWord => "`false`"
  | .identifier => "identifier"
  | .integer _ => "integer"
  | .stringLiteral => "string literal"
  | .openBrace => "`\x7b`"
  | .closeBrace => "`\x7d`"
  | .openParen => "`(`"
  | .closeParen => "`)`"
  | .comma => "`,`"
  | .semicolon => "`;`"
  | .colon => "`:`"
  | .dot => "`.`"
  | .plus => "`+`"
  | .minus => "`-`"
  | .star => "`*`"
  | .slash => "`/`"
  | .percent => "`%`"
  | .bang => "`!`"
  | .assign => "`=`"
  | .equal => "`==`"
  | .notEqual => "`!=`"
  | .less => "`<`"
  | .lessEqual => "`<=`"
  | .greater => "`>`"
  | .greaterEqual => "`>=`"
  | .andAnd => "`&&`"
  | .orOr => "`||`"
  | .endOfInput => "end of input"

/-- The words that are no identifiers. -/
def keywords : List (String × TokenKind) :=
  [("import", .importWord), ("plugin", .pluginWord), ("fn", .fnWord), ("let", .letWord),
   ("if", .ifWord), ("else", .elseWord), ("while", .whileWord), ("return", .returnWord),
   ("true", .trueWord), ("false", .falseWord)]

/-- The kind of a word. -/
def TokenKind.ofWord (word : String) : TokenKind :=
  ((keywords.find? fun k => k.1 = word).map Prod.snd).getD .identifier

/-- A token of a source text, with the place of its first character.  The text of a string literal is the text that it
stands for. -/
structure Token where
  kind : TokenKind
  text : String
  position : Position
  deriving DecidableEq, Inhabited

/-- What a token is called when another one was expected: an identifier or an integer shows its
text. -/
def Token.found (t : Token) : String :=
  match t.kind with
  | .identifier => s!"`{t.text}`"
  | .integer _ => s!"`{t.text}`"
  | kind => kind.text

/-- The deepest nesting of statements and expressions that a unit may use. -/
def maxNesting : Nat := 64

/-- What can be wrong with a source text.  A string literal has to be closed on its line, and an integer has to fit in
63 bits. -/
inductive SyntaxProblem where
  | unexpectedCharacter (c : Char)
  | unterminatedString
  | unterminatedComment
  | unknownEscape (c : Char)
  | integerOutOfRange (text : String)
  | unexpectedToken (expected found : String)
  | tooDeep
  | incompleteImport
  | secondPlugin
  deriving DecidableEq

/-- The text of a problem. -/
def SyntaxProblem.text : SyntaxProblem → String
  | .unexpectedCharacter c => s!"unexpected character `{c}`"
  | .unterminatedString => "unterminated string literal"
  | .unterminatedComment => "unterminated block comment"
  | .unknownEscape c => s!"unknown escape sequence `\\{c}`"
  | .integerOutOfRange text => s!"integer literal `{text}` is out of range"
  | .unexpectedToken expected found => s!"expected {expected}, found {found}"
  | .tooDeep => s!"nesting exceeds {maxNesting} levels"
  | .incompleteImport => "import must name a package and a symbol"
  | .secondPlugin => "a unit declares exactly one plugin"

/-- A problem at a place in a source text. -/
structure SyntaxError where
  problem : SyntaxProblem
  position : Position
  deriving DecidableEq

end PluginSandbox
