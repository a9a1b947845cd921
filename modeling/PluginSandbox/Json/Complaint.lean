import PluginSandbox.Text.Quoted

/-!
# What can be wrong with a JSON text

A text that does not stand for the data it should is met by a complaint: what is wrong, and where.  A text is
wrong in its syntax, or it is a JSON text of another form than the data has.

A place is a line and a column.  Lines count from one; the column is the number of bytes of the line up to
the place.
-/

namespace PluginSandbox
namespace Json

/-- What was found where something else was expected.  A number that is no integer is given as it is shown. -/
inductive Found where
  | null
  | bool (value : Bool)
  | int (value : Int)
  | decimal (text : String)
  | str (text : String)
  | sequence
  | map
  | bareVariant
  deriving DecidableEq, Inhabited

/-- How a complaint names what was found. -/
def Found.text : Found → String
  | .null => "null"
  | .bool value => s!"boolean `{value}`"
  | .int value => s!"integer `{value}`"
  | .decimal text => s!"floating point `{text}`"
  | .str text => s!"string {quoted text}"
  | .sequence => "sequence"
  | .map => "map"
  | .bareVariant => "unit variant"

/-- What can be wrong: the text itself up to `trailingText`, or behind that what it says. -/
inductive Problem where
  | endInList
  | endInObject
  | endInString
  | endInValue
  | noColon
  | noListEnd
  | noObjectEnd
  | noWord
  | noValue
  | badEscape
  | badNumber
  | hugeNumber
  | badEncoding
  | controlCharacter
  | noKey
  | loneSurrogate
  | noSecondSurrogate
  | trailingComma
  | trailingText
  | wrongType (found : Found) (expected : String)
  | wrongValue (found : Found) (expected : String)
  | wrongLength (actual : Nat) (expected : String)
  | missingField (name : String)
  | duplicateField (name : String)
  | unknownVariant (name : String) (expected : List String)
  deriving DecidableEq, Inhabited

/-- Names to choose from. -/
def choiceText : List String → String
  | [a] => s!"`{a}`"
  | [a, b] => s!"`{a}` or `{b}`"
  | names => "one of " ++ ", ".intercalate (names.map fun n => s!"`{n}`")

/-- The text of a problem. -/
def Problem.text : Problem → String
  | .endInList => "EOF while parsing a list"
  | .endInObject => "EOF while parsing an object"
  | .endInString => "EOF while parsing a string"
  | .endInValue => "EOF while parsing a value"
  | .noColon => "expected `:`"
  | .noListEnd => "expected `,` or `]`"
  | .noObjectEnd => "expected `,` or `\x7d`"
  | .noWord => "expected ident"
  | .noValue => "expected value"
  | .badEscape => "invalid escape"
  | .badNumber => "invalid number"
  | .hugeNumber => "number out of range"
  | .badEncoding => "invalid unicode code point"
  | .controlCharacter => "control character (\\u0000-\\u001F) found while parsing a string"
  | .noKey => "key must be a string"
  | .loneSurrogate => "lone leading surrogate in hex escape"
  | .noSecondSurrogate => "unexpected end of hex escape"
  | .trailingComma => "trailing comma"
  | .trailingText => "trailing characters"
  | .wrongType found expected => s!"invalid type: {found.text}, expected {expected}"
  | .wrongValue found expected => s!"invalid value: {found.text}, expected {expected}"
  | .wrongLength actual expected => s!"invalid length {actual}, expected {expected}"
  | .missingField name => s!"missing field `{name}`"
  | .duplicateField name => s!"duplicate field `{name}`"
  | .unknownVariant name expected => s!"unknown variant `{name}`, expected {choiceText expected}"

/-- A place in a text: its line, counted from one, and the number of bytes of the line up to the place. -/
structure Place where
  line : Nat := 1
  column : Nat := 0
  deriving DecidableEq, Inhabited

/-- The place behind a byte. -/
def Place.after (p : Place) (b : UInt8) : Place :=
  if b = 10 then { line := p.line + 1, column := 0 } else { p with column := p.column + 1 }

/-- What is wrong with a text, and where, as far as that is known. -/
structure Complaint where
  problem : Problem
  place : Option Place
  deriving DecidableEq, Inhabited

/-- The text of a complaint. -/
def Complaint.text (c : Complaint) : String :=
  match c.place with
  | none => c.problem.text
  | some p => s!"{c.problem.text} at line {p.line} column {p.column}"

end Json
end PluginSandbox
