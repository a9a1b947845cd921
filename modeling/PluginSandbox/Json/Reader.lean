/-!
# Reading JSON texts

`Json.parse` reads a JSON text given as bytes into a `Json.Parsed` tree, or refuses it.  What is
read keeps every string as it was written (`RawText`): the syntax of escapes is checked while the
text is read, but a string is decoded only when a reader of typed data asks for it
(`Json.decodeText`).  So a part of a text that nobody asks for need not be valid UTF-8 inside its
strings, and may name surrogates that stand alone.

## Bytes

The text is ASCII outside strings, so its bytes are compared as numbers: 34 is the quote, 92 the
backslash, 44 the comma, 58 the colon, 91 and 93 the brackets, 123 and 125 the braces, 45 the minus
sign, 46 the full stop, 117 the letter that begins an escape by digits.

## Numbers

Only the numbers that are written as integers and fit in 64 bits, signed or unsigned, are read as
integers.  A number with a fraction or an exponent, one that is too large, and minus zero are
valid but have no integer value.

## Termination

Reading takes a bound on its depth of recursion.  Twice the length of the text is enough, since
every value takes at least one byte and is entered from at most one surrounding array or object.
-/

namespace PluginSandbox
namespace Json

/-- The bytes between the quotes of a string, as written. -/
abbrev RawText := List UInt8

/-- A JSON text as read.  A number has its value if it is a 64-bit integer, strings are as written, and the members of
an object stand in the order they were written. -/
inductive Parsed where
  | null
  | bool (value : Bool)
  | number (value : Option Int)
  | text (raw : RawText)
  | list (items : List Parsed)
  | object (members : List (RawText × Parsed))
  deriving Inhabited

/-- Whether a byte is the space, the tab, the line feed or the carriage return. -/
def isBlankByte (b : UInt8) : Bool :=
  b == 32 || b == 9 || b == 10 || b == 13

/-- The rest of a text after leading blanks. -/
def skipBlanks (input : List UInt8) : List UInt8 :=
  input.dropWhile isBlankByte

/-- Whether a byte is a decimal digit. -/
def isDigitByte (b : UInt8) : Bool :=
  48 ≤ b && b ≤ 57

/-- The value of a hexadecimal digit of either case. -/
def hexValue? (b : UInt8) : Option Nat :=
  if 48 ≤ b && b ≤ 57 then some (b.toNat - 48)
  else if 97 ≤ b && b ≤ 102 then some (b.toNat - 87)
  else if 65 ≤ b && b ≤ 70 then some (b.toNat - 55)
  else none

/-- The character that a backslash and a letter stand for. -/
def simpleEscape? (b : UInt8) : Option UInt8 :=
  if b == 34 then some 34
  else if b == 92 then some 92
  else if b == 47 then some 47
  else if b == 98 then some 8
  else if b == 102 then some 12
  else if b == 110 then some 10
  else if b == 114 then some 13
  else if b == 116 then some 9
  else none

/-- The string whose opening quote has been read, and the text after its closing quote.  An escape
must be one of the known letters or four hexadecimal digits, and a control character must not stand
for itself. -/
def readText : List UInt8 → RawText → Option (RawText × List UInt8)
  | [], _ => none
  | 34 :: rest, read => some (read.reverse, rest)
  | 92 :: 117 :: a :: b :: c :: d :: rest, read =>
    if [a, b, c, d].all fun digit => (hexValue? digit).isSome then
      readText rest (d :: c :: b :: a :: 117 :: 92 :: read)
    else none
  | 92 :: letter :: rest, read =>
    if (simpleEscape? letter).isSome then readText rest (letter :: 92 :: read) else none
  | b :: rest, read => if b < 32 || b == 92 then none else readText rest (b :: read)

/-- The value of a sequence of decimal digits. -/
def digitsValue (digits : List UInt8) : Nat :=
  digits.foldl (fun n d => 10 * n + (d.toNat - 48)) 0

/-- The integer that a sign and digits stand for, when 64 bits hold it.  Minus zero is no
integer. -/
def integerValue? (negative : Bool) (digits : List UInt8) : Option Int :=
  let n := digitsValue digits
  if negative then
    if n = 0 || n > 1 <<< 63 then none else some (-n)
  else if n < 1 <<< 64 then some n else none

/-- The text after a fraction, if one begins here. -/
def skipFraction : List UInt8 → Option (Bool × List UInt8)
  | 46 :: rest =>
    let (digits, rest) := rest.span isDigitByte
    if digits.isEmpty then none else some (true, rest)
  | input => some (false, input)

/-- The text after an exponent, if one begins here. -/
def skipExponent : List UInt8 → Option (Bool × List UInt8)
  | b :: rest =>
    if b == 101 || b == 69 then
      let unsigned := match rest with
        | sign :: digits => if sign == 43 || sign == 45 then digits else rest
        | [] => []
      let (digits, rest) := unsigned.span isDigitByte
      if digits.isEmpty then none else some (true, rest)
    else some (false, b :: rest)
  | [] => some (false, [])

/-- Whether a text begins with a minus sign, and the text after it. -/
def splitSign : List UInt8 → Bool × List UInt8
  | 45 :: rest => (true, rest)
  | input => (false, input)

/-- The number at the start of a text, and the text after it.  A number does not begin with a zero
unless that is its only digit before the fraction. -/
def readNumber (input : List UInt8) : Option (Parsed × List UInt8) := do
  let (negative, unsigned) := splitSign input
  let (digits, rest) := unsigned.span isDigitByte
  if digits.isEmpty || (digits.head? == some 48 && digits.length > 1) then none
  let (hasFraction, rest) ← skipFraction rest
  let (hasExponent, rest) ← skipExponent rest
  let value := if hasFraction || hasExponent then none else integerValue? negative digits
  return (.number value, rest)

mutual

/-- The value at the start of a text, and the text after it. -/
def readValue : Nat → List UInt8 → Option (Parsed × List UInt8)
  | 0, _ => none
  | bound + 1, input =>
    match skipBlanks input with
    | 34 :: rest => (readText rest []).map fun (raw, rest) => (.text raw, rest)
    | 91 :: rest =>
      match skipBlanks rest with
      | 93 :: rest => some (.list [], rest)
      | rest => readItems bound rest []
    | 123 :: rest =>
      match skipBlanks rest with
      | 125 :: rest => some (.object [], rest)
      | rest => readMembers bound rest []
    | 110 :: 117 :: 108 :: 108 :: rest => some (.null, rest)
    | 116 :: 114 :: 117 :: 101 :: rest => some (.bool true, rest)
    | 102 :: 97 :: 108 :: 115 :: 101 :: rest => some (.bool false, rest)
    | rest => readNumber rest

/-- The items of an array that has at least one more, up to its closing bracket. -/
def readItems : Nat → List UInt8 → List Parsed → Option (Parsed × List UInt8)
  | 0, _, _ => none
  | bound + 1, input, read =>
    match readValue bound input with
    | none => none
    | some (item, rest) =>
      match skipBlanks rest with
      | 44 :: rest => readItems bound rest (item :: read)
      | 93 :: rest => some (.list (item :: read).reverse, rest)
      | _ => none

/-- The members of an object that has at least one more, up to its closing brace. -/
def readMembers : Nat → List UInt8 → List (RawText × Parsed) → Option (Parsed × List UInt8)
  | 0, _, _ => none
  | bound + 1, input, read =>
    match skipBlanks input with
    | 34 :: rest =>
      match readText rest [] with
      | none => none
      | some (key, rest) =>
        match skipBlanks rest with
        | 58 :: rest =>
          match readValue bound rest with
          | none => none
          | some (value, rest) =>
            match skipBlanks rest with
            | 44 :: rest => readMembers bound rest ((key, value) :: read)
            | 125 :: rest => some (.object ((key, value) :: read).reverse, rest)
            | _ => none
        | _ => none
    | _ => none

end

/-- The value that a whole text stands for; nothing but blanks may surround it. -/
def parse (input : List UInt8) : Option Parsed :=
  match readValue (2 * input.length + 2) input with
  | some (value, rest) => if (skipBlanks rest).isEmpty then some value else none
  | none => none

/-- The number that four hexadecimal digits stand for. -/
def hexQuad? (a b c d : UInt8) : Option Nat := do
  let a ← hexValue? a
  let b ← hexValue? b
  let c ← hexValue? c
  let d ← hexValue? d
  return ((a * 16 + b) * 16 + c) * 16 + d

/-- The UTF-8 bytes of a code point, put in front of some bytes in reverse. -/
def pushCodePoint (n : Nat) (read : List UInt8) : List UInt8 :=
  (String.utf8EncodeChar (Char.ofNat n)).reverse ++ read

/-- The bytes that a string as written stands for.  Escaped digits that name a high surrogate must
be followed by ones that name a low surrogate, and the two stand for one code point; a low surrogate
must not stand alone. -/
def unescape : RawText → List UInt8 → Option (List UInt8)
  | [], read => some read.reverse
  | 92 :: 117 :: a :: b :: c :: d :: 92 :: 117 :: e :: f :: g :: h :: rest,
      read =>
    match hexQuad? a b c d, hexQuad? e f g h with
    | some high, some low =>
      if 0xD800 ≤ high && high < 0xDC00 then
        if 0xDC00 ≤ low && low < 0xE000 then
          unescape rest (pushCodePoint (0x10000 + (high - 0xD800) * 0x400 + (low - 0xDC00)) read)
        else none
      else if 0xDC00 ≤ high && high < 0xE000 then none
      else
        unescape (92 :: 117 :: e :: f :: g :: h :: rest) (pushCodePoint high read)
    | _, _ => none
  | 92 :: 117 :: a :: b :: c :: d :: rest, read =>
    match hexQuad? a b c d with
    | some n => if 0xD800 ≤ n && n < 0xE000 then none else unescape rest (pushCodePoint n read)
    | none => none
  | 92 :: letter :: rest, read =>
    match simpleEscape? letter with
    | some b => unescape rest (b :: read)
    | none => none
  | b :: rest, read => unescape rest (b :: read)

/-- The text that a string as written stands for, if it is valid. -/
def decodeText (raw : RawText) : Option String := do
  let bytes ← unescape raw []
  String.fromUTF8? ⟨bytes.toArray⟩

end Json
end PluginSandbox
