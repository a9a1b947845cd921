/-!
# Timestamps

A moment is what a host's clock shows when it is read.  Nothing is assumed of the readings of a clock (`Clock`): it may
stand still, and it may be set back.

The form that a moment is written in (`Timestamp.text`) is the date and the time of day of the Gregorian calendar, with as
many digits of the second as it takes, and a `Z` for the time zone.
-/

namespace PluginSandbox

/-- A time stamp: the whole seconds since the start of 1970, and the nanoseconds behind them.  The nanoseconds of a leap
second go on beyond a second. -/
structure Timestamp where
  seconds : Int
  nanos : Nat
  deriving DecidableEq, Inhabited

/-- The readings of a host's clock, in the order in which they are taken. -/
structure Clock where
  reading : Nat → Timestamp

namespace Clock

/-- The clock that always shows the same moment. -/
def still (m : Timestamp) : Clock :=
  ⟨fun _ => m⟩

/-- The clock when some readings have been taken. -/
def behind (c : Clock) (count : Nat) : Clock :=
  ⟨fun n => c.reading (count + n)⟩

end Clock

/-- How moments are written as text, and read back. -/
structure TimeFormat where
  text : Timestamp → String
  read? : String → Option Timestamp

/-! ## The calendar -/

/-- A day of the Gregorian calendar.  Months, and the days of a month, are counted from one. -/
structure CalendarDay where
  year : Int
  month : Nat
  day : Nat
  deriving DecidableEq, Inhabited

namespace CalendarDay

/-- A day of a year that is counted from March on, so that the day that a leap year adds is the last one of its
year. -/
def ofYearDay (year : Int) (dayOfYear : Nat) : CalendarDay :=
  let fromMarch := (5 * dayOfYear + 2) / 153
  let month := if fromMarch < 10 then fromMarch + 3 else fromMarch - 9
  { year := year + (if month ≤ 2 then 1 else 0)
    month
    day := dayOfYear - (153 * fromMarch + 2) / 5 + 1 }

/-- The day that is some number of days behind the first of January 1970.  A cycle of 400 years is 146097 days. -/
def ofEpochDays (days : Int) : CalendarDay :=
  let shifted := days + 719468
  let cycle := shifted / 146097
  let dayOfCycle := (shifted % 146097).toNat
  let yearOfCycle := (dayOfCycle - dayOfCycle / 1460 + dayOfCycle / 36524 - dayOfCycle / 146096) / 365
  ofYearDay (yearOfCycle + 400 * cycle)
    (dayOfCycle - (365 * yearOfCycle + yearOfCycle / 4 - yearOfCycle / 100))

/-- The number of days from the first of January 1970 to a day. -/
def epochDays (d : CalendarDay) : Int :=
  let year := if d.month ≤ 2 then d.year - 1 else d.year
  let yearOfCycle := (year % 400).toNat
  let fromMarch := if d.month ≤ 2 then d.month + 9 else d.month - 3
  let dayOfYear := (153 * fromMarch + 2) / 5 + d.day - 1
  let dayOfCycle := 365 * yearOfCycle + yearOfCycle / 4 - yearOfCycle / 100 + dayOfYear
  year / 400 * 146097 + dayOfCycle - 719468

end CalendarDay

/-! ## The written form -/

/-- A count with zeros in front of it, at least so many digits long. -/
def zeroPadded (width n : Nat) : String :=
  String.ofList ((Nat.toDigits 10 n).leftpad width '0')

/-- The written form of a year: one that does not have four digits has a sign. -/
def yearText (year : Int) : String :=
  if 0 ≤ year ∧ year ≤ 9999 then zeroPadded 4 year.toNat
  else (if year < 0 then "-" else "+") ++ zeroPadded 4 year.natAbs

/-- The digits of a second behind its point: none, three, six or nine of them. -/
def secondFraction (nanos : Nat) : String :=
  if nanos = 0 then ""
  else if nanos % 1000000 = 0 then "." ++ zeroPadded 3 (nanos / 1000000)
  else if nanos % 1000 = 0 then "." ++ zeroPadded 6 (nanos / 1000)
  else "." ++ zeroPadded 9 nanos

namespace Timestamp

/-- The number of nanoseconds in a second. -/
def nanosInSecond : Nat :=
  1000000000

/-- The written form of a moment.  A leap second is the sixty-first of its minute. -/
def text (m : Timestamp) : String :=
  let date := CalendarDay.ofEpochDays (m.seconds / 86400)
  let time := (m.seconds % 86400).toNat
  yearText date.year ++ "-" ++ zeroPadded 2 date.month ++ "-" ++ zeroPadded 2 date.day ++ "T" ++
    zeroPadded 2 (time / 3600) ++ ":" ++ zeroPadded 2 (time / 60 % 60) ++ ":" ++
    zeroPadded 2 (time % 60 + m.nanos / nanosInSecond) ++ secondFraction (m.nanos % nanosInSecond) ++ "Z"

/-- The number that so many digits at the start of some characters stand for, and what is behind them. -/
def digits? (count : Nat) (cs : List Char) : Option (Nat × List Char) :=
  let digits := cs.take count
  if digits.length = count ∧ digits.all Char.isDigit then
    some (Nat.ofDigitChars 10 digits 0, cs.drop count)
  else none

/-- What is behind a character that some characters start with. -/
def behind? (c : Char) : List Char → Option (List Char)
  | [] => none
  | first :: rest => if first = c then some rest else none

/-- The nanoseconds that the end of a written form stands for. -/
def nanosOfText? : List Char → Option Nat
  | ['Z'] => some 0
  | '.' :: rest => do
    let count := rest.length - 1
    let (fraction, rest) ← digits? count rest
    if rest = ['Z'] then some (fraction * Nat.pow 10 (9 - count)) else none
  | _ => none

/-- The moment that a written form stands for, where its year has four digits. -/
def ofText? (text : String) : Option Timestamp := do
  let (year, cs) ← digits? 4 text.toList
  let (month, cs) ← digits? 2 (← behind? '-' cs)
  let (day, cs) ← digits? 2 (← behind? '-' cs)
  let (hour, cs) ← digits? 2 (← behind? 'T' cs)
  let (minute, cs) ← digits? 2 (← behind? ':' cs)
  let (second, cs) ← digits? 2 (← behind? ':' cs)
  let nanos ← nanosOfText? cs
  let leap := second / 60
  return {
    seconds := (CalendarDay.mk year month day).epochDays * 86400 + (hour * 3600 + minute * 60 + (second - leap))
    nanos := nanos + leap * nanosInSecond }

end Timestamp

/-- The written form of moments, as it is read back. -/
def TimeFormat.utc : TimeFormat where
  text := Timestamp.text
  read? := Timestamp.ofText?

end PluginSandbox
