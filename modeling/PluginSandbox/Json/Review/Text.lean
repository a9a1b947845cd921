import PluginSandbox.Json.Review.Basic

/-!
# Reviewing strings

A string ends at the first quote that is not escaped.  It has no control characters, its escapes are those of
JSON, of surrogates it has only pairs, and its bytes are UTF-8.

The string of an unknown field is read for its syntax alone: its encoding and its surrogates do not matter
(`ignoreText`).
-/

namespace PluginSandbox
namespace Json
namespace Review

variable {α : Type}

/-- The number that the next four bytes stand for as hexadecimal digits. -/
def hexDigits : Review Nat := fun c =>
  match c.rest with
  | x :: y :: z :: w :: _ =>
    let after := c.behind.behind.behind.behind
    match hexQuad? x y z w with
    | some n => .ok n after
    | none => fail .badEscape after
  | _ => fail .endInString (c.skip fun _ => true)

/-- Reads a byte that must be the given one, inside an escaped pair of surrogates. -/
def pairByte (b : UInt8) : Review Unit := do
  match ← look with
  | none => fail .endInString
  | some found =>
    eat
    if found = b then return () else fail .noSecondSurrogate

/-- The code point of an escape by digits, whose backslash and letter have been read. -/
def codePoint : Review Nat := do
  let first ← hexDigits
  if 0xDC00 ≤ first ∧ first < 0xE000 then fail .loneSurrogate
  else if 0xD800 ≤ first ∧ first < 0xDC00 then do
    pairByte 92
    pairByte 117
    let second ← hexDigits
    if 0xDC00 ≤ second ∧ second < 0xE000 then
      return 0x10000 + (first - 0xD800) * 0x400 + (second - 0xDC00)
    else fail .loneSurrogate
  else return first

/-- The bytes of a string up to its closing quote, behind those that have been read. -/
def textBytes : Nat → List UInt8 → Review (List UInt8)
  | 0, _ => fail .endInString
  | bound + 1, read => do
    match ← next with
    | none => fail .endInString
    | some 34 => return read.reverse
    | some 92 =>
      match ← next with
      | none => fail .endInString
      | some 117 => textBytes bound (pushCodePoint (← codePoint) read)
      | some letter =>
        match simpleEscape? letter with
        | some b => textBytes bound (b :: read)
        | none => fail .badEscape
    | some b => if b < 32 then fail .controlCharacter else textBytes bound (b :: read)

/-- The number of bytes in front of the first one that begins no character, counting from some byte on, which
begins a character if it is one of them. -/
def validBytes (bytes : ByteArray) : Nat → Nat → Nat
  | 0, i => i
  | bound + 1, i =>
    match bytes.utf8DecodeChar? i with
    | some c => validBytes bytes bound (i + c.utf8Size)
    | none => i

/-- Complains about the encoding of the string that has been read.  The place lies as many bytes in front of
the end of the string as it has bytes from the first wrong one on; so if no escape follows on that one, the
place is behind it. -/
def failEncoding (bytes : ByteArray) : Review α := fun c =>
  let wrong := bytes.size - validBytes bytes bytes.size 0
  .error
    { problem := .badEncoding, place := some { c.place with column := c.place.column - wrong } } c

/-- The string whose opening quote has been read. -/
def text : Review String := do
  let bytes : ByteArray := ⟨(← textBytes ((← get).rest.length + 1) []).toArray⟩
  match String.fromUTF8? bytes with
  | some s => return s
  | none => failEncoding bytes

/-- Reads a string, whose opening quote has been read, for its syntax alone. -/
def ignoreText : Nat → Review Unit
  | 0 => fail .endInString
  | bound + 1 => do
    match ← look with
    | none => fail .endInString
    | some 34 => eat
    | some 92 =>
      eat
      match ← next with
      | none => fail .endInString
      | some 117 =>
        discard hexDigits
        ignoreText bound
      | some letter =>
        if (simpleEscape? letter).isSome then ignoreText bound else fail .badEscape
    | some b =>
      if b < 32 then fail .controlCharacter
      else
        eat
        ignoreText bound

end Review
end Json
end PluginSandbox
