import TickGrid.Decimal.Basic

/-!
# Arithmetic on decimals

Products, quotients, powers, distances and comparison of `Decimal`s. Each result is computed
exactly and then rounded by `Decimal.ofParts` to `workingDigits` significant digits.

A quotient is computed with one digit more than is kept, plus a sticky digit that is non-zero
exactly when the division left a remainder; the sticky digit keeps an inexact quotient off the
half-way point, so the final half-even rounding rounds the true quotient.
-/

namespace TickGrid

namespace Decimal

/-- The product, rounded: signs multiply, coefficients multiply and exponents add. -/
def mul (a b : Decimal) : Checked Decimal := do
  let coefficient ← Word512.mul a.coefficient b.coefficient
  let exponent ← Word64.add a.exponent b.exponent
  ofParts (a.negative != b.negative) coefficient exponent

/-- The quotient `a / b`, rounded; `none` when `b` is zero. The dividend is scaled so that the
quotient has `workingDigits + 1` digits, and a sticky digit records a non-zero remainder. -/
def div? (a b : Decimal) : Checked (Option Decimal) := do
  if b.isZero then return none
  if a.isZero then return some zero
  let top := workingDigits + 1 + digitCount b.coefficient
  if digitCount a.coefficient > top then throw .sub
  let shift := top - digitCount a.coefficient
  let dividend ← Word512.mul a.coefficient (← tenPower shift)
  let sticky := if dividend % b.coefficient = 0 then 0 else 1
  let coefficient ← Word512.add (← Word512.mul (dividend / b.coefficient) 10) sticky
  let e₁ ← Word64.sub a.exponent b.exponent
  let e₂ ← Word64.sub e₁ shift
  let e₃ ← Word64.sub e₂ 1
  some <$> ofParts (a.negative != b.negative) coefficient e₃

/-- The reciprocal `1 / x`, rounded; `none` when `x` is zero. -/
def recip? (x : Decimal) : Checked (Option Decimal) := div? one x

/-- Square-and-multiply from the low bit of `remaining`: `result * square ^ remaining`. The
square is only formed while bits remain. -/
def powStep (result square : Decimal) (remaining : Nat) : Checked Decimal :=
  if remaining = 0 then pure result else do
    let result ← if remaining % 2 = 1 then mul result square else pure result
    if remaining / 2 = 0 then pure result else do
      let square ← mul square square
      powStep result square (remaining / 2)
termination_by remaining
decreasing_by omega

/-- The power `x ^ n`, by square-and-multiply from `one`, each product rounded. -/
def pow (x : Decimal) (n : Nat) : Checked Decimal := powStep one x n

/-- Compares magnitudes: zeros first, then the positions of the leading digits, then the
coefficients brought to a common exponent. -/
def cmpMagnitude (a b : Decimal) : Checked Ordering :=
  match a.isZero, b.isZero with
  | true, true => pure .eq
  | true, false => pure .lt
  | false, true => pure .gt
  | false, false => do
    let aa ← a.adjusted
    let ba ← b.adjusted
    if aa ≠ ba then return compare aa ba
    if a.exponent ≥ b.exponent then
      let d ← Word64.sub a.exponent b.exponent
      return compare (← Word512.mul a.coefficient (← tenPower d.toNat)) b.coefficient
    else
      let d ← Word64.sub b.exponent a.exponent
      return compare a.coefficient (← Word512.mul b.coefficient (← tenPower d.toNat))

/-- Numeric order: a negative value is below a non-negative one, two non-negative values
compare by magnitude and two negative values by reversed magnitude. Zeros of any sign or
exponent are equal. -/
def cmp (a b : Decimal) : Checked Ordering :=
  match a.isNegative, b.isNegative with
  | false, true => pure .gt
  | true, false => pure .lt
  | false, false => cmpMagnitude a b
  | true, true => cmpMagnitude b a

/-- The distance `|a - b|`, rounded. When the smaller magnitude is zero, or lies more than
`workingDigits + 2` places below the larger, the larger magnitude is the rounded distance and
is returned unchanged. Otherwise both are aligned at the smaller exponent and subtracted or
added according to their sign flags. -/
def absDiff (a b : Decimal) : Checked Decimal := do
  let order ← cmpMagnitude a b
  let (big, small) := if order = .lt then (b, a) else (a, b)
  if small.isZero then return big.abs
  let bigAt ← big.adjusted
  let smallAt ← small.adjusted
  let gap ← Word64.sub bigAt smallAt
  if gap > workingDigits + 2 then return big.abs
  let exponent := min big.exponent small.exponent
  let bigShift ← Word64.sub big.exponent exponent
  let smallShift ← Word64.sub small.exponent exponent
  let bigScaled ← Word512.mul big.coefficient (← tenPower bigShift.toNat)
  let smallScaled ← Word512.mul small.coefficient (← tenPower smallShift.toNat)
  let coefficient ← if a.negative = b.negative then Word512.sub bigScaled smallScaled
    else Word512.add bigScaled smallScaled
  ofParts false coefficient exponent

end Decimal

end TickGrid
