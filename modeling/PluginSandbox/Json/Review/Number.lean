import PluginSandbox.Json.Decimal
import PluginSandbox.Json.Review.Basic

/-!
# Reviewing numbers

An integer that fits in 64 bits stands for itself.  Every other number stands for a floating-point one: its
leading digits, as far as 64 bits have room for them, are scaled by a power of ten, and the result is rounded
at each step.  A number that is too large for that is a fault, and one that is too small is zero.

The number of an unknown field is read for its syntax alone: its size does not matter (`ignoreNumber`).
-/

namespace PluginSandbox
namespace Json
namespace Review

/-- The decimal digits that come next. -/
def digits : Review (List UInt8) := fun c =>
  .ok (c.rest.takeWhile isDigitByte) (c.skip isDigitByte)

/-- The digits of an integer, of which there is at least one.  No digit follows a leading zero. -/
def integerDigits : Review (List UInt8) := do
  match ← next with
  | none => fail .endInValue
  | some b =>
    if b = 48 then
      if ((← look).map isDigitByte).getD false then failNext .badNumber else return [b]
    else if isDigitByte b then return b :: (← digits)
    else fail .badNumber

/-- A number in the making: its leading digits, as a number below 2^64, and the power of ten that they are multiplied
with. -/
structure Scientific where
  significand : Nat
  exponent : Int

/-- A number with another digit, if there is room for it. -/
def Scientific.push? (s : Scientific) (digit : UInt8) : Option Nat :=
  let n := 10 * s.significand + (digit.toNat - 48)
  if n < 1 <<< 64 then some n else none

/-- A number behind the digits of its integer part.  Where there is no room for a digit, it and those behind
it only count. -/
def Scientific.ofInteger (s : Scientific) : List UInt8 → Scientific
  | [] => s
  | d :: rest =>
    match s.push? d with
    | some n => ofInteger { s with significand := n } rest
    | none => { s with exponent := s.exponent + (rest.length + 1 : Nat) }

/-- A number behind the digits of its fraction.  Where there is no room for a digit, it and those behind it
are left out. -/
def Scientific.withFraction (s : Scientific) : List UInt8 → Scientific
  | [] => s
  | d :: rest =>
    match s.push? d with
    | some n => withFraction { significand := n, exponent := s.exponent - 1 } rest
    | none => s

/-- The floating-point number that a product of digits and a power of ten is computed as, unless it is too
large. -/
def scale? (f : Float) (exponent : Int) : Nat → Option Float
  | 0 => some f
  | bound + 1 =>
    if exponent.natAbs ≤ 308 then
      let power := Float.ofScientific 1 false exponent.natAbs
      if 0 ≤ exponent then
        let f := f * power
        if f.isInf then none else some f
      else some (f / power)
    else if f == 0 then some f
    else if 0 ≤ exponent then none
    else scale? (f / Float.ofScientific 1 false 308) (exponent + 308) bound

/-- How a number is shown that is no integer. -/
def decimal (negative : Bool) (f : Float) : Found :=
  .decimal (Decimal.text (if negative then -f else f))

/-- The number that has been read. -/
def scaled (negative : Bool) (s : Scientific) : Review Found :=
  match scale? s.significand.toUInt64.toFloat s.exponent 8 with
  | some f => return decimal negative f
  | none => fail .hugeNumber

/-- The value of an exponent, given that of its first digits and how many others have been read.  One that
does not fit in 31 bits is given up, and only the number of digits read by then is known. -/
def exponentValue (n read : Nat) : List UInt8 → Except Nat Nat
  | [] => .ok n
  | d :: rest =>
    let n := 10 * n + (d.toNat - 48)
    if n < 1 <<< 31 then exponentValue n (read + 1) rest else .error (read + 1)

/-- The number with an exponent whose letter comes next. -/
def exponent (negative : Bool) (s : Scientific) : Review Found := do
  eat
  let down ← do
    match ← look with
    | some 43 => eat; pure false
    | some 45 => eat; pure true
    | _ => pure false
  match ← next with
  | none => fail .endInValue
  | some b =>
    if !isDigitByte b then fail .badNumber
    else
      let start ← get
      match exponentValue (b.toNat - 48) 0 (← digits) with
      | .ok n =>
        let e : Int := n
        scaled negative { s with exponent := if down then s.exponent - e else s.exponent + e }
      | .error read =>
        if s.significand = 0 ∨ down then return decimal negative 0
        else
          set ((List.range read).foldl (fun c _ => c.behind) start)
          fail .hugeNumber

/-- The number with a fraction whose full stop comes next. -/
def fraction (negative : Bool) (s : Scientific) : Review Found := do
  eat
  let ds ← digits
  if ds.isEmpty then
    if (← look).isSome then failNext .badNumber else failNext .endInValue
  else
    let s := s.withFraction ds
    match ← look with
    | some 101 => exponent negative s
    | some 69 => exponent negative s
    | _ => scaled negative s

/-- A number, whose sign has been read if it has one. -/
def number (negative : Bool) : Review Found := do
  let ds ← integerDigits
  let s := Scientific.ofInteger { significand := 0, exponent := 0 } ds
  match ← look with
  | some 46 => fraction negative s
  | some 101 => exponent negative s
  | some 69 => exponent negative s
  | _ =>
    if s.exponent ≠ 0 then scaled negative s
    else if !negative then return .int s.significand
    else if 0 < s.significand ∧ s.significand ≤ 1 <<< 63 then return .int (-s.significand)
    else return decimal true s.significand.toUInt64.toFloat

/-- Reads a number, whose sign has been read if it has one, for its syntax alone. -/
def ignoreNumber : Review Unit := do
  match ← look with
  | none => fail .badNumber
  | some _ => discard integerDigits
  let exponent : Review Unit := do
    eat
    match ← look with
    | some 43 => eat
    | some 45 => eat
    | _ => pure ()
    match ← next with
    | some b => if isDigitByte b then discard digits else fail .badNumber
    | none => fail .badNumber
  match ← look with
  | some 46 =>
    eat
    if (← digits).isEmpty then failNext .badNumber
    else
      match ← look with
      | some 101 => exponent
      | some 69 => exponent
      | _ => return ()
  | some 101 => exponent
  | some 69 => exponent
  | _ => return ()

end Review
end Json
end PluginSandbox
