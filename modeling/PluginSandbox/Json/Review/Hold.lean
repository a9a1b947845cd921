import PluginSandbox.Json.Review.Ignore
import PluginSandbox.Json.Shape

/-!
# Holding texts against shapes

`Shape.complaint?` tells what is wrong first in a text that should have some shape.  The text is read from its
start to its end, and what it stands for is compared with the shape as soon as it is read; so of two faults
the complaint is about the one that is met first.

A record is written as an object or as an array.  In an object its fields have any order and none occurs
twice; in an array they have their own order.

## Termination

The readers take a bound.  Each call at a smaller bound has read another byte or goes into a smaller shape,
so twice the length of the text and the depth of its shape are enough.
-/

namespace PluginSandbox
namespace Json
namespace Review

/-- Reads the value of a variant that carries nothing. -/
def nothing : Review Unit :=
  value "unit" fun b => if b = 110 then some (do eat; nullWord) else none

/-- The name of a variant, which is one of some names. -/
def variantName (names : List String) : Review String :=
  value "variant identifier" fun b =>
    if b = 34 then
      some do
        eat
        let name ← text
        if name ∈ names then return name else failLater (.unknownVariant name names)
    else none

/-- Reads up to the name of the variant that an object holds. -/
def variantKey : Review Unit := do
  match ← peek with
  | some 34 => return ()
  | some 125 => failNext .noValue
  | some _ => failNext .noKey
  | none => failNext .endInObject

/-- A number of some kind lies between its bounds. -/
def inRange (kind : String) (low high : Int) (found : Found) : Review Unit :=
  match found with
  | .int n => if low ≤ n ∧ n ≤ high then return () else failLater (.wrongValue found kind)
  | found => failLater (.wrongType found kind)

/-- The first field that was not read, if one had to be. -/
def missing? (defaults : Bool) (fields : List (String × Shape)) (seen : List String) :
    Option String :=
  if defaults then none else (fields.map Prod.fst).find? fun n => n ∉ seen

mutual

/-- Holds the value that comes next against a shape. -/
def hold : Nat → Shape → Review Unit
  | 0, _ => fail .noValue
  | bound + 1, shape =>
    match shape with
    | .bool => value "a boolean" fun b =>
      if b = 116 then some (do eat; trueWord)
      else if b = 102 then some (do eat; falseWord)
      else none
    | .int kind low high => value kind fun b =>
      if b = 45 then some (do eat; inRange kind low high (← number true))
      else if isDigitByte b then some (do inRange kind low high (← number false))
      else none
    | .str kind => value kind fun b => if b = 34 then some (do eat; discard text) else none
    | .nullable inner => do
      match ← peek with
      | some 110 => eat; nullWord
      | _ => hold bound inner
    | .list item => value "a sequence" fun b =>
      if b = 91 then some (do eat; closing (items bound item true) closeList) else none
    | .map inner => value "a map" fun b =>
      if b = 123 then some (do eat; closing (entries bound inner true) closeObject) else none
    | .record title defaults fields => value title fun b =>
      if b = 91 then
        some (do eat; closing (row bound title defaults fields.length 0 fields) closeList)
      else if b = 123 then
        some do
          eat
          closing (do
            let seen ← members bound fields [] true
            match missing? defaults fields seen with
            | some name => failLater (.missingField name)
            | none => return ()) closeObject
      else none
    | .variant cases => do
      match ← peek with
      | some 123 =>
        eat
        variantKey
        let name ← variantName (cases.map Prod.fst)
        colon
        match cases.lookup name with
        | some (some payload) => hold bound payload
        | _ => nothing
        match ← peek with
        | some 125 => eat
        | some _ => fail .noValue
        | none => fail .endInObject
      | some 34 =>
        let name ← variantName (cases.map Prod.fst)
        match cases.lookup name with
        | some (some payload) =>
          failLater (.wrongType .bareVariant
            (if payload.isRecord then "struct variant" else "newtype variant"))
        | _ => return ()
      | some _ => failNext .noValue
      | none => failNext .endInValue

/-- Holds the items of an array against a shape. -/
def items : Nat → Shape → Bool → Review Unit
  | 0, _, _ => fail .noValue
  | bound + 1, item, first => do
    if ← nextItem first then
      hold bound item
      items bound item false

/-- Holds the values of an object against a shape. -/
def entries : Nat → Shape → Bool → Review Unit
  | 0, _, _ => fail .noValue
  | bound + 1, inner, first => do
    if ← nextKey first then
      eat
      discard text
      colon
      hold bound inner
      entries bound inner false

/-- Holds the items of an array against the fields of a record from one of them on. -/
def row : Nat → String → Bool → Nat → Nat → List (String × Shape) → Review Unit
  | 0, _, _, _, _, _ => fail .noValue
  | _, _, _, _, _, [] => return ()
  | bound + 1, title, defaults, size, index, (_, shape) :: rest => do
    if ← nextItem (index = 0) then
      hold bound shape
      row bound title defaults size (index + 1) rest
    else if defaults then return ()
    else failLater (.wrongLength index (Shape.arrayTitle title size))

/-- Holds the members of an object against the fields of a record, some of which have been read.  The result
is the names of all that have been. -/
def members : Nat → List (String × Shape) → List String → Bool → Review (List String)
  | 0, _, _, _ => fail .noValue
  | bound + 1, fields, seen, first => do
    if ← nextKey first then
      eat
      let name ← text
      match fields.lookup name with
      | some shape =>
        if name ∈ seen then failLater (.duplicateField name)
        else
          colon
          hold bound shape
          members bound fields (name :: seen) false
      | none =>
        colon
        ignore bound
        members bound fields seen false
    else return seen

end

end Review

/-- What is wrong first in a text that should have a shape. -/
def Shape.complaint? (shape : Shape) (input : List UInt8) : Option Complaint :=
  let read : Review Unit := do
    Review.hold (2 * input.length + 64) shape
    match ← Review.peek with
    | some _ => Review.failNext .trailingText
    | none => return ()
  match read { rest := input } with
  | .ok _ _ => none
  | .error e _ => some e

/-- What is wrong first in a text that is known not to have a shape. -/
def Shape.complaint (shape : Shape) (input : List UInt8) : Complaint :=
  (shape.complaint? input).getD default

end Json
end PluginSandbox
