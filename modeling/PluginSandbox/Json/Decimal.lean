/-!
# The shortest decimal of a number

A floating-point number stands for every real number that rounds to it, and is shown by the shortest decimal
among them; of several, by the nearest.  The number is `mantissa * 2 ^ exponent`, and the reals that round to
it reach half the way to its neighbours.  All of this is exact arithmetic on natural numbers.

Small and large numbers are shown with an exponent, which has a sign, and every other number with a full stop.
-/

namespace PluginSandbox
namespace Json
namespace Decimal

/-- A ratio of natural numbers. -/
structure Ratio where
  num : Nat
  den : Nat
  deriving Inhabited

/-- A number times a power of two. -/
def scaled (n : Nat) (exponent : Int) : Ratio :=
  if 0 ≤ exponent then ⟨n <<< exponent.toNat, 1⟩ else ⟨n, 1 <<< (-exponent).toNat⟩

/-- A ratio divided by a power of ten. -/
def Ratio.shift (r : Ratio) (power : Int) : Ratio :=
  if 0 ≤ power then ⟨r.num, r.den * Nat.pow 10 power.toNat⟩ else ⟨r.num * Nat.pow 10 (-power).toNat, r.den⟩

/-- The order of a ratio and a natural number. -/
def Ratio.compareNat (r : Ratio) (n : Nat) : Ordering :=
  compare r.num (n * r.den)

/-- The reals that round to a number: two bounds, which may belong to them, with the number between them. -/
structure Range where
  low : Ratio
  value : Ratio
  high : Ratio
  closed : Bool
  deriving Inhabited

/-- The range of a positive number.  The neighbour below a power of two is only half as far away. -/
def rangeOf (mantissa : Nat) (exponent : Int) : Range :=
  let narrow := mantissa = 1 <<< 52 ∧ -1074 < exponent
  { low := scaled (4 * mantissa - if narrow then 1 else 2) (exponent - 2)
    value := scaled (4 * mantissa) (exponent - 2)
    high := scaled (4 * mantissa + 2) (exponent - 2)
    closed := mantissa % 2 = 0 }

/-- A multiple of a power of ten lies in a range. -/
def Range.holds (r : Range) (n : Nat) (power : Int) : Bool :=
  let low := (r.low.shift power).compareNat n
  let high := (r.high.shift power).compareNat n
  (low == .lt || (r.closed && low == .eq)) && (high == .gt || (r.closed && high == .eq))

/-- The multiple of a power of ten that is nearest to the number of a range, if one lies in it. -/
def Range.nearest? (r : Range) (power : Int) : Option Nat :=
  let v := r.value.shift power
  let below := v.num / v.den
  let upper := 2 * (v.num % v.den) > v.den ∨ (2 * (v.num % v.den) = v.den ∧ below % 2 = 1)
  let (first, second) := if upper then (below + 1, below) else (below, below + 1)
  if 0 < first ∧ r.holds first power then some first
  else if 0 < second ∧ r.holds second power then some second
  else none

/-- The least power of ten that is greater than a ratio, if it is not below 10 to the negative bound. -/
def magnitude (r : Ratio) : Nat → Int
  | 0 => 0
  | bound + 1 =>
    if r.num < r.den then magnitude ⟨r.num * 10, r.den⟩ bound - 1
    else (Nat.toDigits 10 (r.num / r.den)).length

/-- The first multiple that is found among the powers of ten downwards from one. -/
def search (r : Range) (power : Int) : Nat → Nat × Int
  | 0 => (0, 0)
  | more + 1 =>
    match r.nearest? power with
    | some n => (n, power)
    | none => search r (power - 1) more

/-- The digits of a number and the power of ten of the last of them, without zeros at the end. -/
def trimmed (n : Nat) (power : Int) : List Char × Int :=
  let digits := Nat.toDigits 10 n
  let kept := (digits.reverse.dropWhile (· = '0')).reverse
  (kept, power + (digits.length - kept.length : Nat))

/-- The digits of a positive number and the power of ten of the last of them. -/
def shortest (mantissa : Nat) (exponent : Int) : List Char × Int :=
  let r := rangeOf mantissa exponent
  let (n, power) := search r (magnitude r.value 400) 20
  trimmed n power

/-- The text of digits and a power of ten. -/
def layout (digits : List Char) (power : Int) : List Char :=
  let point : Int := digits.length + power
  if 0 ≤ power ∧ point ≤ 16 then digits ++ List.replicate power.toNat '0' ++ ['.', '0']
  else if 0 < point ∧ point ≤ 16 then digits.take point.toNat ++ '.' :: digits.drop point.toNat
  else if -5 < point ∧ point ≤ 0 then '0' :: '.' :: List.replicate (-point).toNat '0' ++ digits
  else
    let exponent := (if 0 < point then ['+'] else []) ++ (toString (point - 1)).toList
    match digits with
    | [d] => d :: 'e' :: exponent
    | d :: rest => d :: '.' :: rest ++ 'e' :: exponent
    | [] => []

/-- The text of a finite floating-point number. -/
def text (f : Float) : String :=
  let bits := f.toBits.toNat
  let sign := if 1 <<< 63 ≤ bits then ['-'] else []
  let fraction : Nat := bits % (1 <<< 52)
  let level : Nat := bits / (1 <<< 52) % (1 <<< 11)
  let chars :=
    if level = 0 ∧ fraction = 0 then ['0', '.', '0']
    else
      let (digits, power) :=
        if level = 0 then shortest fraction (-1074)
        else shortest ((1 <<< 52) + fraction) ((level : Int) - 1075)
      layout digits power
  String.ofList (sign ++ chars)

end Decimal
end Json
end PluginSandbox
