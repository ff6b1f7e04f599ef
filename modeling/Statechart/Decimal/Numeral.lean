import Statechart.Decimal.Shortest

set_option autoImplicit false

namespace Statechart

/-- A numeral as it is written; digits are values below ten. Without fraction and exponent it
denotes an integer if that fits a 64-bit word, otherwise a binary64 number. -/
structure Numeral where
  negative : Bool
  whole : List Nat
  fraction : Option (List Nat)
  exponent : Option Int
  deriving DecidableEq

namespace Numeral

/-- The digits at the front of a text, and the rest of it. -/
def digits (cs : List Char) : List Nat × List Char :=
  ((cs.takeWhile Char.isDigit).map (fun c => c.toNat - '0'.toNat), cs.dropWhile Char.isDigit)

def ofDigits (ds : List Nat) : Nat :=
  ds.foldl (fun n d => 10 * n + d) 0

/-- The exponent part, if the text is one or is empty. -/
def exponentPart? : List Char → Option (Option Int)
  | [] => some none
  | mark :: rest =>
    if mark = 'e' ∨ mark = 'E' then
      let (negative, body) := match rest with
        | '-' :: body => (true, body)
        | '+' :: body => (false, body)
        | body => (false, body)
      match digits body with
      | ([], _) => none
      | (ds, []) => some (some (if negative then -(ofDigits ds : Int) else ofDigits ds))
      | (_, _ :: _) => none
    else none

def ofChars? (cs : List Char) : Option Numeral :=
  let (negative, body) := match cs with
    | '-' :: body => (true, body)
    | body => (false, body)
  match digits body with
  | ([], _) => none
  | (0 :: _ :: _, _) => none
  | (whole, '.' :: rest) =>
    match digits rest with
    | ([], _) => none
    | (fraction, rest) => (exponentPart? rest).map (⟨negative, whole, some fraction, ·⟩)
  | (whole, rest) => (exponentPart? rest).map (⟨negative, whole, none, ·⟩)

/-- Reads digits onto a number while it fits a 64-bit word; the second part counts the digits
read. -/
def accumulate : Nat → List Nat → Nat × Nat
  | n, [] => (n, 0)
  | n, d :: ds =>
    if 10 * n + d < UInt64.size then
      let (total, count) := accumulate (10 * n + d) ds
      (total, count + 1)
    else (n, 0)

/-- Divides by a power of ten, in steps of at most `10 ^ 308`. -/
def scaleDown (x : Binary64) (power : Nat) : Option Binary64 :=
  if small : power ≤ 308 then x.divNat? (Nat.pow 10 power)
  else if x.isZero then some x
  else do scaleDown (← x.divNat? (Nat.pow 10 308)) (power - 308)
termination_by power

/-- The binary64 number of a numeral. The digits that fit a 64-bit word are rounded first, then
scaled by a rounded power of ten; a number beyond the largest one has no value. -/
def float? (n : Numeral) : Option Binary64 := do
  let (head, headCount) := accumulate 0 n.whole
  let (significand, fractionCount) := accumulate head (n.fraction.getD [])
  let power : Int := (n.whole.length - headCount : Nat) - (fractionCount : Int) + n.exponent.getD 0
  let x ← Binary64.round? n.negative significand 1
  if x.isZero then some x
  else if power < 0 then scaleDown x power.natAbs
  else if power ≤ 308 then x.mulNat? (Nat.pow 10 power.toNat)
  else none

/-- The integer of a numeral without fraction and exponent, if it fits a 64-bit word, signed if
it is negative. -/
def integer? (n : Numeral) : Option Int :=
  match n.fraction, n.exponent with
  | none, none =>
    let value := ofDigits n.whole
    if n.negative then if 0 < value ∧ value ≤ Nat.pow 2 63 then some (-(value : Int)) else none
    else if value < UInt64.size then some value
    else none
  | _, _ => none

end Numeral

end Statechart
