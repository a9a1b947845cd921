import PluginSandbox.Json.Reader

/-!
# Typed data in JSON texts

Readers of typed data from a `Json.Parsed` tree.  Each is a function into `Option`: what does not
have the expected form is refused, and nothing is said about the reason.

## Records

A record is an object or an array.  As an object it may hold members of unknown names, whose values
are ignored, but every name must be valid text and a known name must not occur twice.  As an array
it holds the fields in their order (`Parsed.fields?`).  A record whose fields have defaults may be a
shorter array (`Parsed.partialFields?`).

## Variants

A variant is a string that names it, or an object with one member whose name is that of the variant
and whose value is what the variant carries (`Parsed.variant?`).  A variant that carries nothing is a
string or has the value null.
-/

namespace PluginSandbox
namespace Json
namespace Parsed

/-- A truth value. -/
def bool? : Parsed → Option Bool
  | .bool b => some b
  | _ => none

/-- An integer from `low` to `high`. -/
def intBetween? (low high : Int) : Parsed → Option Int
  | .number (some n) => if low ≤ n ∧ n ≤ high then some n else none
  | _ => none

/-- A natural number below `bound`. -/
def natBelow? (bound : Nat) : Parsed → Option Nat
  | .number (some (.ofNat n)) => if n < bound then some n else none
  | _ => none

/-- A count: a natural number below 2^64. -/
def count? (p : Parsed) : Option Nat :=
  p.natBelow? (1 <<< 64)

/-- A signed 64-bit integer. -/
def int64? (p : Parsed) : Option Int64 :=
  (p.intBetween? (-(1 <<< 63)) ((1 <<< 63) - 1)).map Int64.ofInt

/-- A string. -/
def string? : Parsed → Option String
  | .text raw => decodeText raw
  | _ => none

/-- A value that may be null. -/
def nullable? {α : Type} (read : Parsed → Option α) : Parsed → Option (Option α)
  | .null => some none
  | p => (read p).map some

/-- The items of an array. -/
def list? {α : Type} (read : Parsed → Option α) : Parsed → Option (List α)
  | .list items => items.mapM read
  | _ => none

/-- The members of an object with their names, in the order they were written. -/
def members? {α : Type} (read : Parsed → Option α) : Parsed → Option (List (String × α))
  | .object members => members.mapM fun (key, value) => do
    let key ← decodeText key
    let value ← read value
    return (key, value)
  | _ => none

/-- The values of a name among members, in the order they were written. -/
def named (name : String) (members : List (String × Parsed)) : List Parsed :=
  members.filterMap fun (key, value) => if key = name then some value else none

/-- The value of each of some names among members, if it occurs; none may occur twice. -/
def select? (names : List String) (members : List (String × Parsed)) :
    Option (List (Option Parsed)) :=
  names.mapM fun name =>
    match named name members with
    | [] => some none
    | [value] => some (some value)
    | _ => none

/-- The fields of a record: as many as there are names, each with its value if it is there. -/
def fields? (names : List String) : Parsed → Option (List (Option Parsed))
  | .list items => if items.length = names.length then some (items.map some) else none
  | p => do select? names (← p.members? some)

/-- The fields of a record that all have defaults: an array may end before the last of them. -/
def partialFields? (names : List String) : Parsed → Option (List (Option Parsed))
  | .list items =>
    if items.length ≤ names.length then
      some (items.map some ++ List.replicate (names.length - items.length) none)
    else none
  | p => do select? names (← p.members? some)

/-- The name of a variant, and what it carries if anything was written. -/
def variant? : Parsed → Option (String × Option Parsed)
  | .text raw => (decodeText raw).map fun name => (name, none)
  | .object [(key, value)] => (decodeText key).map fun name => (name, some value)
  | _ => none

/-- The name of a variant that carries nothing. -/
def bareVariant? (p : Parsed) : Option String := do
  match ← p.variant? with
  | (name, none) => some name
  | (name, some .null) => some name
  | _ => none

/-- The value of a field that must be there. -/
def required? {α : Type} (read : Parsed → Option α) (field : Option Parsed) : Option α :=
  field.bind read

/-- The value of a field that may be left out or be null. -/
def optional? {α : Type} (read : Parsed → Option α) : Option Parsed → Option (Option α)
  | none => some none
  | some p => p.nullable? read

/-- The value of a field that has a default. -/
def withDefault? {α : Type} (fallback : α) (read : Parsed → Option α) : Option Parsed → Option α
  | none => some fallback
  | some p => read p

end Parsed
end Json
end PluginSandbox
