import PluginSandbox.Language.Token
import PluginSandbox.Text.Blank
import PluginSandbox.Text.Dotted

/-!
# From source text to tokens

A source text is cut into pieces, from left to right and without a gap: white space, comments, tokens,
and what is rejected, which is a single unexpected character or a string literal that is not closed.
Each piece has the place it starts at, its characters, the token it holds if it holds one, and what is
wrong with it.  Reading never stops at a problem, so the pieces of any text make up the whole of it.

The tokens of a text are those of its pieces (`Lexed.tokens`), and its lexical errors are those of its
pieces in order (`Lexed.errors`).

## Rules

* A word is an identifier unless it is a keyword; letters and digits are ASCII.
* An integer is a sequence of digits that may hold underscores.  One that does not fit in 63 bits is an
  error and counts as zero.
* A string literal ends at the next quote on its line.  An unknown escape is an error and adds nothing
  to the string; the error points at the character before the one that follows the escape, so behind an
  escaped line break it has column zero.
* A block comment ends at the first closing mark; comments do not nest.
-/

namespace PluginSandbox

/-- A piece of a source text: the place of its first character, its characters, the token it holds, and what is wrong
with it. -/
structure Piece where
  start : Position
  chars : List Char
  token : Option Token
  errors : List SyntaxError
  deriving DecidableEq

/-- What remains of a string literal behind its opening quote: the characters up to and with the one that ends it, the
text that it stands for, if it is closed, its unknown escapes, and the characters behind it. -/
structure StringTail where
  chars : List Char
  value : Option (List Char)
  errors : List SyntaxError
  rest : List Char

namespace Lexer

/-- The character that an escape stands for. -/
def escape? (c : Char) : Option Char :=
  if c = 'n' then some '\n'
  else if c = 't' then some '\t'
  else if c = '"' then some '"'
  else if c = '\\' then some '\\'
  else none

/-- The rest of a string literal.  The place is that of the first character given; the last three
arguments hold what was read before it, each in reverse. -/
def stringTail (p : Position) :
    List Char → List Char → List Char → List SyntaxError → StringTail
  | [], chars, _, errors => ⟨chars.reverse, none, errors.reverse, []⟩
  | '"' :: rest, chars, value, errors =>
    ⟨('"' :: chars).reverse, some value.reverse, errors.reverse, rest⟩
  | '\n' :: rest, chars, _, errors => ⟨('\n' :: chars).reverse, none, errors.reverse, rest⟩
  | ['\\'], chars, _, errors => ⟨('\\' :: chars).reverse, none, errors.reverse, []⟩
  | '\\' :: c :: rest, chars, value, errors =>
    let p := (p.next '\\').next c
    match escape? c with
    | some e => stringTail p rest (c :: '\\' :: chars) (e :: value) errors
    | none =>
      stringTail p rest (c :: '\\' :: chars) value
        (⟨.unknownEscape c, ⟨p.line, p.column - 1⟩⟩ :: errors)
  | c :: rest, chars, value, errors => stringTail (p.next c) rest (c :: chars) (c :: value) errors

/-- The rest of a block comment behind its opening mark: its characters, whether it is closed, and the
characters behind it.  The second argument holds what was read before, in reverse. -/
def commentTail : List Char → List Char → List Char × Bool × List Char
  | [], chars => (chars.reverse, false, [])
  | '*' :: '/' :: rest, chars => (('/' :: '*' :: chars).reverse, true, rest)
  | c :: rest, chars => commentTail rest (c :: chars)

/-- The value of decimal digits. -/
def digitsValue (digits : List Char) : Nat :=
  digits.foldl (fun n d => 10 * n + (d.toNat - 48)) 0

/-- Whether a character may go on an integer. -/
def isIntegerRest (c : Char) : Bool :=
  c.isDigit || c == '_'

/-- A piece that is a token whose text is its characters. -/
def tokenPiece (p : Position) (kind : TokenKind) (chars : List Char) : Piece :=
  ⟨p, chars, some ⟨kind, String.ofList chars, p⟩, []⟩

/-- The piece of an integer. -/
def integerPiece (p : Position) (chars : List Char) : Piece :=
  let value := digitsValue (chars.filter fun c => c != '_')
  if value < 1 <<< 63 then tokenPiece p (.integer (Int64.ofNat value)) chars
  else
    { tokenPiece p (.integer 0) chars with
      errors := [⟨.integerOutOfRange (String.ofList chars), p⟩] }

/-- The piece of a string literal whose tail has been read. -/
def stringPiece (p : Position) (tail : StringTail) : Piece :=
  match tail.value with
  | some value =>
    ⟨p, '"' :: tail.chars, some ⟨.stringLiteral, String.ofList value, p⟩, tail.errors⟩
  | none => ⟨p, '"' :: tail.chars, none, tail.errors ++ [⟨.unterminatedString, p⟩]⟩

/-- The kind of a token that one character makes on its own, whatever follows it. -/
def single? : Char → Option TokenKind
  | '{' => some .openBrace
  | '}' => some .closeBrace
  | '(' => some .openParen
  | ')' => some .closeParen
  | ',' => some .comma
  | ';' => some .semicolon
  | ':' => some .colon
  | '.' => some .dot
  | '+' => some .plus
  | '-' => some .minus
  | '*' => some .star
  | '/' => some .slash
  | '%' => some .percent
  | '!' => some .bang
  | '=' => some .assign
  | '<' => some .less
  | '>' => some .greater
  | _ => none

/-- The kind of a token that two characters make together. -/
def double? : Char → Char → Option TokenKind
  | '!', '=' => some .notEqual
  | '=', '=' => some .equal
  | '<', '=' => some .lessEqual
  | '>', '=' => some .greaterEqual
  | '&', '&' => some .andAnd
  | '|', '|' => some .orOr
  | _, _ => none

/-- The piece of a mark, or of a character that begins no token, and the characters behind it. -/
def markPiece (p : Position) (c : Char) : List Char → Piece × List Char
  | d :: rest =>
    match double? c d with
    | some kind => (tokenPiece p kind [c, d], rest)
    | none => (oneMark, d :: rest)
  | [] => (oneMark, [])
where
  /-- The piece of one character. -/
  oneMark : Piece :=
    match single? c with
    | some kind => tokenPiece p kind [c]
    | none => ⟨p, [c], none, [⟨.unexpectedCharacter c, p⟩]⟩

/-- The piece that begins with a character, and the characters behind it. -/
def pieceAt (p : Position) (c : Char) (rest : List Char) : Piece × List Char :=
  if isBlank c then
    let (blanks, rest) := rest.span isBlank
    (⟨p, c :: blanks, none, []⟩, rest)
  else if c = '/' && rest.head? = some '/' then
    let (line, rest) := rest.span fun d => d != '\n'
    (⟨p, c :: line, none, []⟩, rest)
  else if c = '/' && rest.head? = some '*' then
    let (tail, closed, rest) := commentTail rest.tail []
    (⟨p, c :: '*' :: tail, none, if closed then [] else [⟨.unterminatedComment, p⟩]⟩, rest)
  else if c = '"' then
    let tail := stringTail (p.next c) rest [] [] []
    (stringPiece p tail, tail.rest)
  else if c.isDigit then
    let (digits, rest) := rest.span isIntegerRest
    (integerPiece p (c :: digits), rest)
  else if isIdentifierStart c then
    let (letters, rest) := rest.span isIdentifierRest
    (tokenPiece p (.ofWord (String.ofList (c :: letters))) (c :: letters), rest)
  else markPiece p c rest

/-- The pieces of some characters, the first of which stands at the given place, behind the pieces that
were read before them, which are in reverse.  The bound limits their number. -/
def piecesFrom : Nat → Position → List Char → List Piece → List Piece
  | 0, _, _, read => read.reverse
  | _, _, [], read => read.reverse
  | bound + 1, p, c :: rest, read =>
    let (piece, rest) := pieceAt p c rest
    piecesFrom bound (p.after piece.chars) rest (piece :: read)

/-- The pieces of a source text; it has no more pieces than characters. -/
def pieces (source : String) : List Piece :=
  piecesFrom source.toList.length .first source.toList []

end Lexer

/-- The tokens of a source text in order, without what stands behind the last one, the place behind the last character,
and the lexical errors in the order they were found. -/
structure Lexed where
  tokens : List Token
  stop : Position
  errors : List SyntaxError
  deriving DecidableEq

namespace Lexed

/-- The tokens and errors of a source text. -/
def ofSource (source : String) : Lexed :=
  let pieces := Lexer.pieces source
  { tokens := pieces.filterMap Piece.token
    stop := Position.first.after source.toList
    errors := pieces.flatMap Piece.errors }

/-- What stands behind the last token. -/
def endToken (l : Lexed) : Token :=
  ⟨.endOfInput, "", l.stop⟩

/-- The tokens in order, the end of the input last. -/
def stream (l : Lexed) : List Token :=
  l.tokens ++ [l.endToken]

end Lexed
end PluginSandbox
