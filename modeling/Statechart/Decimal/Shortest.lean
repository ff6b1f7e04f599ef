import Statechart.Decimal.Binary64

set_option autoImplicit false

namespace Statechart.Binary64

/-- A decimal `digits · 10 ^ exponent`. -/
structure Decimal where
  digits : Nat
  exponent : Int
  deriving DecidableEq

/-- The values that round to a number, in quarters of its last place: the number, the ends of
the interval, the numerator and denominator of a quarter of its last place, and whether the ends
belong to the interval. -/
structure Interval where
  centre : Nat
  low : Nat
  high : Nat
  num : Nat
  den : Nat
  closed : Bool

/-- Below a power of two the next number is only half as far away. -/
def interval (x : Binary64) : Interval :=
  let (num, den) := shifted 1 1 (x.exponent - 2)
  let below := if x.mantissa = Nat.pow 2 52 ∧ -1074 < x.exponent then 1 else 2
  ⟨4 * x.mantissa, 4 * x.mantissa - below, 4 * x.mantissa + 2, num, den, x.mantissa % 2 = 0⟩

def decimalFraction (digits : Nat) (power : Int) : Nat × Nat :=
  if 0 ≤ power then (digits * Nat.pow 10 power.toNat, 1) else (digits, Nat.pow 10 (-power).toNat)

/-- Whether a decimal rounds to the number of the interval. -/
def Interval.contains (i : Interval) (digits : Nat) (power : Int) : Bool :=
  let (num, den) := decimalFraction digits power
  let place := num * i.den
  let low := i.low * i.num * den
  let high := i.high * i.num * den
  if i.closed then low ≤ place && place ≤ high else low < place && place < high

/-- The power of ten just above `num / den`. -/
def decimalMagnitude (num den : Nat) : Int :=
  let guess : Int := ((Nat.toDigits 10 num).length : Int) - (Nat.toDigits 10 den).length
  let (scaled, unit) :=
    if 0 ≤ guess then (num, den * Nat.pow 10 guess.toNat)
      else (num * Nat.pow 10 (-guess).toNat, den)
  if scaled < unit then guess else guess + 1

/-- The best decimal with a given number of digits, if one rounds to the number. On the grid of
a digit count only the two neighbours of the number can be nearest. -/
def decimalWith? (x : Binary64) (count : Nat) : Option Decimal :=
  let i := x.interval
  let num := i.centre * i.num
  let power := decimalMagnitude num i.den - count
  let (gridNum, gridDen) := decimalFraction 1 power
  let floor := num * gridDen / (i.den * gridNum)
  let twice := 2 * (num * gridDen % (i.den * gridNum))
  let upper := i.den * gridNum < twice ∨ (i.den * gridNum = twice ∧ floor % 2 = 1)
  match i.contains floor power, i.contains (floor + 1) power with
  | true, true => some (if upper then ⟨floor + 1, power⟩ else ⟨floor, power⟩)
  | true, false => some ⟨floor, power⟩
  | false, true => some ⟨floor + 1, power⟩
  | false, false => none

def Decimal.trim (fuel : Nat) (d : Decimal) : Decimal :=
  match fuel with
  | 0 => d
  | fuel + 1 =>
    if d.digits ≠ 0 ∧ d.digits % 10 = 0 then trim fuel ⟨d.digits / 10, d.exponent + 1⟩ else d

/-- The decimal of fewest digits that rounds to the number, and of those the nearest to it;
seventeen digits always suffice. -/
def shortest (x : Binary64) : Decimal :=
  if x.isZero then ⟨0, 0⟩
  else (((List.range' 1 17).findSome? x.decimalWith?).getD ⟨0, 0⟩).trim 18

def exponentText (exponent : Int) : String :=
  (if exponent < 0 then "-" else "+") ++ toString exponent.natAbs

/-- How a number is written: positional with at least one decimal while the point falls within
sixteen digits, or at most five places before the first one; else with an exponent. -/
def text (x : Binary64) : String :=
  let d := x.shortest
  let digits := Nat.toDigits 10 d.digits
  let count := digits.length
  let point : Int := count + d.exponent
  let body :=
    if x.isZero then "0.0"
    else if 0 ≤ d.exponent ∧ point ≤ 16 then
      String.ofList (digits ++ List.replicate d.exponent.toNat '0') ++ ".0"
    else if 0 < point ∧ point ≤ 16 then
      String.ofList (digits.take point.toNat) ++ "." ++ String.ofList (digits.drop point.toNat)
    else if -5 < point ∧ point ≤ 0 then
      "0." ++ String.ofList (List.replicate (-point).toNat '0' ++ digits)
    else if count = 1 then
      String.ofList digits ++ "e" ++ exponentText (point - 1)
    else
      String.ofList (digits.take 1) ++ "." ++ String.ofList (digits.drop 1) ++ "e" ++
        exponentText (point - 1)
  if x.negative then "-" ++ body else body

end Statechart.Binary64
