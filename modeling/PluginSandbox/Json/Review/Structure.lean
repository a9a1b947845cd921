import PluginSandbox.Json.Review.Number
import PluginSandbox.Json.Review.Text

/-!
# Reviewing what stands between values

The steps from one item of an array or one member of an object to the next, and the start of a value, where
everything that the value cannot begin with is refused.
-/

namespace PluginSandbox
namespace Json
namespace Review

variable {α : Type}

/-- Complains about the value that comes next, where something else was expected. -/
def refuse (expected : String) : Review α := do
  let wrong (found : Found) : Review α := failLater (.wrongType found expected)
  match ← look with
  | some 110 => eat; nullWord; wrong .null
  | some 116 => eat; trueWord; wrong (.bool true)
  | some 102 => eat; falseWord; wrong (.bool false)
  | some 45 => eat; wrong (← number true)
  | some 34 => eat; wrong (.str (← text))
  | some 91 => wrong .sequence
  | some 123 => wrong .map
  | some b => if isDigitByte b then wrong (← number false) else failNext .noValue
  | none => failNext .noValue

/-- Reads a value that comes next, or complains that there is none or another one than expected. -/
def value (expected : String) (read : UInt8 → Option (Review α)) : Review α := settle do
  match ← peek with
  | none => failNext .endInValue
  | some b =>
    match read b with
    | some read => read
    | none => refuse expected

/-- Reads the colon behind a name. -/
def colon : Review Unit := do
  match ← peek with
  | some 58 => eat
  | some _ => failNext .noColon
  | none => failNext .endInObject

/-- Reads up to the next item of an array, or finds its end. -/
def nextItem (first : Bool) : Review Bool := do
  let item : Option UInt8 → Review Bool
    | some 93 => failNext .trailingComma
    | some _ => return true
    | none => failNext .endInValue
  match ← peek with
  | some 93 => return false
  | some b =>
    if first then return true
    else if b = 44 then
      eat
      item (← peek)
    else failNext .noListEnd
  | none => failNext .endInList

/-- Reads up to the name of the next member of an object, or finds its end. -/
def nextKey (first : Bool) : Review Bool := do
  let key : Option UInt8 → Review Bool
    | some 34 => return true
    | some 125 => failNext .trailingComma
    | some _ => failNext .noKey
    | none => failNext .endInValue
  match ← peek with
  | some 125 => return false
  | some b =>
    if first then key (some b)
    else if b = 44 then
      eat
      key (← peek)
    else failNext .noObjectEnd
  | none => failNext .endInObject

/-- Reads the end of an array. -/
def closeList : Review Unit := do
  match ← peek with
  | some 93 => eat
  | some 44 =>
    eat
    match ← peek with
    | some 93 => failNext .trailingComma
    | _ => failNext .trailingText
  | some _ => failNext .trailingText
  | none => failNext .endInList

/-- Reads the end of an object. -/
def closeObject : Review Unit := do
  match ← peek with
  | some 125 => eat
  | some 44 => failNext .trailingComma
  | some _ => failNext .trailingText
  | none => failNext .endInObject

end Review
end Json
end PluginSandbox
