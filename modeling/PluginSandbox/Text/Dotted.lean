/-!
# Identifiers and dotted names

An identifier is an ASCII letter or an underscore followed by ASCII letters, digits and
underscores.  A dotted name is a sequence of identifiers with a full stop between each two, and it
names a package, a unit or a function.

## Splitting

`splitSegments` cuts a text at every full stop and always gives at least one segment.
`splitLast?` cuts it at its last full stop, into the package and the simple name.
-/

namespace PluginSandbox

/-- An ASCII letter or an underscore: what an identifier may begin with. -/
def isIdentifierStart (c : Char) : Bool :=
  c.isAlpha || c == '_'

/-- An ASCII letter, an ASCII digit or an underscore: what an identifier may go on with. -/
def isIdentifierRest (c : Char) : Bool :=
  c.isAlphanum || c == '_'

/-- The identifiers, as a test on the characters of a text. -/
def isIdentifierChars : List Char → Bool
  | [] => false
  | c :: rest => isIdentifierStart c && rest.all isIdentifierRest

/-- Whether a text is an identifier. -/
def isIdentifier (s : String) : Bool :=
  isIdentifierChars s.toList

/-- The segments between the full stops of a text, the first of them apart. -/
def splitSegmentsFrom : List Char → List Char × List (List Char)
  | [] => ([], [])
  | c :: rest =>
    let (first, others) := splitSegmentsFrom rest
    if c = '.' then ([], first :: others) else (c :: first, others)

/-- The segments between the full stops of a text; a text without one is its only segment. -/
def splitSegments (s : List Char) : List (List Char) :=
  (splitSegmentsFrom s).1 :: (splitSegmentsFrom s).2

/-- Whether a text is a dotted name: every segment of it is an identifier. -/
def isDottedName (s : String) : Bool :=
  (splitSegments s.toList).all isIdentifierChars

/-- The parts of a text before and after its last full stop, if it has one. -/
def splitLastChars? : List Char → Option (List Char × List Char)
  | [] => none
  | c :: rest =>
    match splitLastChars? rest with
    | some (before, after) => some (c :: before, after)
    | none => if c = '.' then some ([], rest) else none

/-- The package and the simple name of a qualified name, if it holds a full stop. -/
def splitLast? (s : String) : Option (String × String) :=
  (splitLastChars? s.toList).map fun (before, after) => (String.ofList before, String.ofList after)

/-- The name of `name` inside `package`. -/
def qualify (package name : String) : String :=
  package ++ "." ++ name

/-- The text of a path of segments. -/
def joinPath (segments : List String) : String :=
  ".".intercalate segments

end PluginSandbox
