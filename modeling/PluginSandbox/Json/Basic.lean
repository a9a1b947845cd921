/-!
# JSON documents and their written forms

`Json` is a document to be written: objects keep their members in the order they are given, and all
numbers are integers.  A document has two written forms, the compact one (`Json.compact`), which is
one line without blanks, and the indented one (`Json.pretty`).

## Strings

A string is written between quotes.  The quote, the backslash and the control characters below the
space are escaped, the common ones by a letter and the others by four hexadecimal digits; every
other character stands for itself.  So a written document holds no control character of its
contents, and in particular no line break.
-/

namespace PluginSandbox

/-- A JSON document.  The members of an object stand in the order in which they are written. -/
inductive Json where
  | null
  | bool (value : Bool)
  | int (value : Int)
  | str (text : String)
  | arr (items : List Json)
  | obj (members : List (String × Json))
  deriving Inhabited

namespace Json

/-- A count as a document. -/
def nat (n : Nat) : Json :=
  .int n

/-- An optional part of a document: null when it is absent. -/
def option {α : Type} (write : α → Json) : Option α → Json
  | none => .null
  | some a => write a

/-- An array of strings. -/
def strings (texts : List String) : Json :=
  .arr (texts.map .str)

/-- An object with one member, the form of a variant that carries a value. -/
def tagged (name : String) (value : Json) : Json :=
  .obj [(name, value)]

/-- The lowercase hexadecimal digit of a number below sixteen. -/
def hexDigit (n : Nat) : Char :=
  if n < 10 then Char.ofNat (48 + n) else Char.ofNat (87 + n)

/-- A character as it is written inside a string. -/
def escapeChar (c : Char) : List Char :=
  if c = '"' then ['\\', '"']
  else if c = '\\' then ['\\', '\\']
  else if c.toNat = 8 then ['\\', 'b']
  else if c.toNat = 12 then ['\\', 'f']
  else if c = '\n' then ['\\', 'n']
  else if c = '\r' then ['\\', 'r']
  else if c = '\t' then ['\\', 't']
  else if c.toNat < 32 then ['\\', 'u', '0', '0', hexDigit (c.toNat / 16), hexDigit (c.toNat % 16)]
  else [c]

/-- A string in quotes. -/
def quoteChars (s : String) : List Char :=
  '"' :: s.toList.flatMap escapeChar ++ ['"']

/-- The digits of an integer, with a sign when it is negative. -/
def intChars : Int → List Char
  | .ofNat n => Nat.toDigits 10 n
  | .negSucc n => '-' :: Nat.toDigits 10 (n + 1)

mutual

/-- The compact form of a document, as characters. -/
def chars : Json → List Char
  | .null => "null".toList
  | .bool true => "true".toList
  | .bool false => "false".toList
  | .int value => intChars value
  | .str text => quoteChars text
  | .arr items => '[' :: itemChars items ++ [']']
  | .obj members => '{' :: memberChars members ++ ['}']

/-- The items of an array, separated by commas. -/
def itemChars : List Json → List Char
  | [] => []
  | item :: rest => chars item ++ moreItemChars rest

/-- The items of an array after the first, each behind a comma. -/
def moreItemChars : List Json → List Char
  | [] => []
  | item :: rest => ',' :: chars item ++ moreItemChars rest

/-- The members of an object, separated by commas. -/
def memberChars : List (String × Json) → List Char
  | [] => []
  | (key, value) :: rest => quoteChars key ++ ':' :: chars value ++ moreMemberChars rest

/-- The members of an object after the first, each behind a comma. -/
def moreMemberChars : List (String × Json) → List Char
  | [] => []
  | (key, value) :: rest => ',' :: quoteChars key ++ ':' :: chars value ++ moreMemberChars rest

end

/-- The compact form of a document: one line, without blanks. -/
def compact (j : Json) : String :=
  String.ofList j.chars

/-- The characters that start a new line at some depth: two blanks for each level. -/
def indent (depth : Nat) : List Char :=
  '\n' :: List.replicate (2 * depth) ' '

mutual

/-- The indented form of a document at some depth, as characters. -/
def prettyChars (depth : Nat) : Json → List Char
  | .null => "null".toList
  | .bool true => "true".toList
  | .bool false => "false".toList
  | .int value => intChars value
  | .str text => quoteChars text
  | .arr [] => "[]".toList
  | .arr (item :: rest) =>
    '[' :: indent (depth + 1) ++ prettyChars (depth + 1) item ++ prettyItemChars (depth + 1) rest
      ++ indent depth ++ [']']
  | .obj [] => "\x7b\x7d".toList
  | .obj ((key, value) :: rest) =>
    '{' :: indent (depth + 1) ++ quoteChars key ++ ": ".toList ++ prettyChars (depth + 1) value
      ++ prettyMemberChars (depth + 1) rest ++ indent depth ++ ['}']

/-- The items of an array after the first, each on a line of its own. -/
def prettyItemChars (depth : Nat) : List Json → List Char
  | [] => []
  | item :: rest => ',' :: indent depth ++ prettyChars depth item ++ prettyItemChars depth rest

/-- The members of an object after the first, each on a line of its own. -/
def prettyMemberChars (depth : Nat) : List (String × Json) → List Char
  | [] => []
  | (key, value) :: rest =>
    ',' :: indent depth ++ quoteChars key ++ ": ".toList ++ prettyChars depth value
      ++ prettyMemberChars depth rest

end

/-- The indented form of a document: one member or item a line, two blanks a level; an empty array
or object takes no line of its own. -/
def pretty (j : Json) : String :=
  String.ofList (j.prettyChars 0)

end Json
end PluginSandbox
