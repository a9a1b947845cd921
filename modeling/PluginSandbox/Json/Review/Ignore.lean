import PluginSandbox.Json.Review.Structure

/-!
# Reviewing values that nobody asks for

The value of an unknown field is read for its syntax alone.

The readers take a bound.  Each call at a smaller bound has read another byte, so the length of the text is
enough.
-/

namespace PluginSandbox
namespace Json
namespace Review

mutual

/-- Reads a value for its syntax alone. -/
def ignore : Nat → Review Unit
  | 0 => fail .noValue
  | bound + 1 => do
    match ← peek with
    | none => failNext .endInValue
    | some 110 => eat; nullWord
    | some 116 => eat; trueWord
    | some 102 => eat; falseWord
    | some 45 => eat; ignoreNumber
    | some 34 => eat; ignoreText ((← get).rest.length + 1)
    | some 91 =>
      eat
      match ← peek with
      | some 93 => eat
      | none => failNext .endInList
      | some _ => ignoreItems bound
    | some 123 =>
      eat
      match ← peek with
      | some 125 => eat
      | none => failNext .endInObject
      | some _ => ignoreMembers bound
    | some b => if isDigitByte b then ignoreNumber else failNext .noValue

/-- Reads the items of an array that has at least one more, for their syntax alone. -/
def ignoreItems : Nat → Review Unit
  | 0 => fail .noValue
  | bound + 1 => do
    ignore bound
    match ← peek with
    | some 44 => eat; ignoreItems bound
    | some 93 => eat
    | some _ => failNext .noListEnd
    | none => failNext .endInList

/-- Reads the members of an object that has at least one more, for their syntax alone. -/
def ignoreMembers : Nat → Review Unit
  | 0 => fail .noValue
  | bound + 1 => do
    match ← peek with
    | some 34 => eat
    | some _ => failNext .noKey
    | none => failNext .endInObject
    ignoreText ((← get).rest.length + 1)
    colon
    ignore bound
    match ← peek with
    | some 44 => eat; ignoreMembers bound
    | some 125 => eat
    | some _ => failNext .noObjectEnd
    | none => failNext .endInObject

end

end Review
end Json
end PluginSandbox
