import Statechart.Text.Seen

set_option autoImplicit false

namespace Statechart

/-- Whole seconds since the beginning of 1970 and nanoseconds after them, which reach beyond a
second during a leap second. -/
structure Timestamp where
  seconds : Int
  nanos : Nat
  deriving DecidableEq

namespace Timestamp

/-- The number of days from the beginning of 1970 to a date of the Gregorian calendar. Years
begin in March here, so that a leap day is the last of its year. -/
def dayNumber (year : Int) (month day : Nat) : Int :=
  let year := if month ≤ 2 then year - 1 else year
  let era := year.fdiv 400
  let yearOfEra := year - era * 400
  let dayOfYear : Int := (153 * (if 2 < month then (month : Int) - 3 else month + 9) + 2) / 5 +
    day - 1
  era * 146097 + (yearOfEra * 365 + yearOfEra / 4 - yearOfEra / 100 + dayOfYear) - 719468

def ofDayNumber (number : Int) : Int × Nat × Nat :=
  let shifted := number + 719468
  let era := shifted.fdiv 146097
  let dayOfEra := shifted - era * 146097
  let yearOfEra := (dayOfEra - dayOfEra / 1460 + dayOfEra / 36524 - dayOfEra / 146096) / 365
  let dayOfYear := dayOfEra - (365 * yearOfEra + yearOfEra / 4 - yearOfEra / 100)
  let shiftedMonth := (5 * dayOfYear + 2) / 153
  let day := dayOfYear - (153 * shiftedMonth + 2) / 5 + 1
  let month := if shiftedMonth < 10 then shiftedMonth + 3 else shiftedMonth - 9
  (if month ≤ 2 then yearOfEra + era * 400 + 1 else yearOfEra + era * 400, month.toNat, day.toNat)

/-- Whether a date exists: its day number leads back to it. -/
def isDate (year : Int) (month day : Nat) : Bool :=
  1 ≤ month && month ≤ 12 && ofDayNumber (dayNumber year month day) = (year, month, day)

/-- Drops blanks at the front. -/
def skipBlanks (cs : List Char) : List Char :=
  cs.dropWhile Text.isBlank

/-- The number written by at least one and at most so many digits at the front, and the rest. -/
def number? (most : Nat) (cs : List Char) : Option (Nat × List Char) :=
  let digits := (cs.take most).takeWhile Char.isDigit
  if digits.isEmpty then none
  else some (digits.foldl (fun n c => 10 * n + (c.toNat - '0'.toNat)) 0, cs.drop digits.length)

/-- A number of at most two digits, after blanks. -/
def twoDigits? (cs : List Char) : Option (Nat × List Char) :=
  number? 2 (skipBlanks cs)

/-- A year: at most four digits, or any number of them after a sign. -/
def year? (cs : List Char) : Option (Int × List Char) :=
  match skipBlanks cs with
  | '-' :: rest => (number? rest.length rest).map (fun read => (-(read.1 : Int), read.2))
  | '+' :: rest => (number? rest.length rest).map (fun read => ((read.1 : Int), read.2))
  | rest => (number? 4 rest).map (fun read => ((read.1 : Int), read.2))

/-- One given character, after blanks. -/
def mark? (mark : Char) (cs : List Char) : Option (List Char) :=
  match skipBlanks cs with
  | c :: rest => if c = mark then some rest else none
  | [] => none

/-- The decimals of a second as nanoseconds; decimals after the ninth are dropped. -/
def decimals? : List Char → Option (Nat × List Char)
  | '.' :: rest => do
    let (n, _) ← number? 9 rest
    let count := ((rest.take 9).takeWhile Char.isDigit).length
    return (n * Nat.pow 10 (9 - count), rest.dropWhile Char.isDigit)
  | rest => some (0, rest)

/-- The offset from universal time in seconds: `Z`, `UTC`, or hours and minutes after a sign. -/
def offset? (cs : List Char) : Option (Int × List Char) :=
  if (cs.take 3).map Char.toUpper = ['U', 'T', 'C'] then some (0, cs.drop 3)
  else match cs with
    | [] => none
    | sign :: rest =>
      if sign = 'Z' ∨ sign = 'z' then some (0, rest)
      else do
        let negative ← if sign = '+' then some false
          else if sign = '-' ∨ sign = '\u2212' then some true else none
        let hours ← if (rest.take 2).all Char.isDigit ∧ 2 ≤ rest.length then number? 2 rest
          else none
        let tail := hours.2.dropWhile (fun c => c = ':' || Text.isBlank c)
        let minutes ← if (tail.take 2).all Char.isDigit ∧ 2 ≤ tail.length then number? 2 tail
          else none
        if minutes.1 < 60 ∧ hours.1 < 24 then
          let seconds : Int := hours.1 * 3600 + minutes.1 * 60
          some (if negative then -seconds else seconds, minutes.2)
        else none

/-- Whether a year is one that instants can be in. -/
def isYear (year : Int) : Bool :=
  -262143 ≤ year && year ≤ 262142

/-- The instant that a text spells, where blanks between the parts, short fields and an offset
from universal time are allowed. Its year has to be in range both as it is written and in
universal time. -/
def ofText? (text : String) : Option Timestamp := do
  let (year, cs) ← year? text.toList
  let (month, cs) ← twoDigits? (← mark? '-' cs)
  let (day, cs) ← twoDigits? (← mark? '-' cs)
  let cs ← match cs with
    | c :: rest => if c = 'T' ∨ c = 't' ∨ c = ' ' then some rest else none
    | [] => none
  let (hour, cs) ← twoDigits? cs
  let (minute, cs) ← twoDigits? (← mark? ':' cs)
  let (second, cs) ← twoDigits? (← mark? ':' cs)
  let (nanos, cs) ← decimals? cs
  let (offset, cs) ← offset? (skipBlanks cs)
  if (skipBlanks cs).isEmpty ∧ isYear year ∧ isDate year month day ∧ hour < 24 ∧ minute < 60 ∧
      second ≤ 60 then
    let (second, nanos) := if second = 60 then (59, nanos + 1000000000) else (second, nanos)
    let seconds := dayNumber year month day * 86400 + hour * 3600 + minute * 60 + second - offset
    if isYear (ofDayNumber (seconds.fdiv 86400)).1 then some ⟨seconds, nanos⟩ else none
  else none

def padded (width n : Nat) : String :=
  let digits := toString n
  String.ofList (List.replicate (width - digits.length) '0') ++ digits

/-- A year of four digits, or with a sign if it needs more or is negative. -/
def yearText (year : Int) : String :=
  if 0 ≤ year ∧ year ≤ 9999 then padded 4 year.toNat
  else (if year < 0 then "-" else "+") ++ padded 4 year.natAbs

def decimalsText (nanos : Nat) : String :=
  if nanos = 0 then ""
  else if nanos % 1000000 = 0 then "." ++ padded 3 (nanos / 1000000)
  else if nanos % 1000 = 0 then "." ++ padded 6 (nanos / 1000)
  else "." ++ padded 9 nanos

/-- An instant as in `2024-02-29T12:34:56.789Z`, with as many of three, six or nine decimals as
it needs. -/
def text (t : Timestamp) : String :=
  let (year, month, day) := ofDayNumber (t.seconds.fdiv 86400)
  let inDay := (t.seconds.fmod 86400).toNat
  let (second, nanos) := if 1000000000 ≤ t.nanos then (inDay % 60 + 1, t.nanos - 1000000000)
    else (inDay % 60, t.nanos)
  yearText year ++ "-" ++ padded 2 month ++ "-" ++ padded 2 day ++ "T" ++
    padded 2 (inDay / 3600) ++ ":"
    ++ padded 2 (inDay / 60 % 60) ++ ":" ++ padded 2 second ++ decimalsText nanos ++ "Z"

end Timestamp

end Statechart
