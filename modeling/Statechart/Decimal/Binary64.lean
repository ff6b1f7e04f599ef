set_option autoImplicit false

namespace Statechart

/-- A finite binary64 number `± mantissa · 2 ^ exponent`. As produced by `Binary64.round?` the
mantissa is below `2 ^ 53`, the exponent is at least `-1074`, and the mantissa is at least
`2 ^ 52` unless the exponent is `-1074`. -/
structure Binary64 where
  negative : Bool
  mantissa : Nat
  exponent : Int
  deriving DecidableEq

namespace Binary64

/-- The integer nearest to `num / den`; of two equally near ones the even one. -/
def roundDiv (num den : Nat) : Nat :=
  let floor := num / den
  let twice := 2 * (num % den)
  if twice < den then floor
  else if den < twice then floor + 1
  else if floor % 2 = 0 then floor
  else floor + 1

/-- The fraction `num · 2 ^ shift / den` as numerator and denominator. -/
def shifted (num den : Nat) (shift : Int) : Nat × Nat :=
  if 0 ≤ shift then (num * Nat.pow 2 shift.toNat, den) else (num, den * Nat.pow 2 (-shift).toNat)

/-- The exponent at which the mantissa of `num / den` fills its 53 bits, or the least exponent. -/
def exponentOf (num den : Nat) : Int :=
  let guess : Int := (Nat.log2 num : Int) - Nat.log2 den
  let (scaled, unit) := shifted num den (-guess)
  max (-1074) ((if scaled < unit then guess - 1 else guess) - 52)

/-- The binary64 number nearest to `± num / den`, unless that lies beyond the largest one. -/
def round? (negative : Bool) (num den : Nat) : Option Binary64 :=
  if num = 0 then some ⟨negative, 0, -1074⟩
  else
    let exponent := exponentOf num den
    let (scaled, unit) := shifted num den (-exponent)
    let mantissa := roundDiv scaled unit
    let carried : Binary64 :=
      if mantissa = Nat.pow 2 53 then ⟨negative, Nat.pow 2 52, exponent + 1⟩
        else ⟨negative, mantissa, exponent⟩
    if carried.exponent ≤ 971 then some carried else none

/-- The magnitude as numerator and denominator. -/
def magnitude (x : Binary64) : Nat × Nat :=
  shifted x.mantissa 1 x.exponent

def isZero (x : Binary64) : Bool :=
  x.mantissa = 0

/-- The product with a natural number that was itself rounded, unless it is too large. -/
def mulNat? (x : Binary64) (n : Nat) : Option Binary64 := do
  let factor ← round? false n 1
  let (num, den) := x.magnitude
  let (num', den') := factor.magnitude
  round? x.negative (num * num') (den * den')

/-- The quotient by a natural number that was itself rounded. -/
def divNat? (x : Binary64) (n : Nat) : Option Binary64 := do
  let divisor ← round? false n 1
  let (num, den) := x.magnitude
  let (num', den') := divisor.magnitude
  round? x.negative (num * den') (den * num')

end Binary64

end Statechart
