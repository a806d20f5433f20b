import TickGrid.Overflow

/-!
# Decimal numbers

A `Decimal` is a sign, a natural coefficient and a base-ten exponent, and stands for
`(-1) ^ sign * coefficient * 10 ^ exponent`. Trailing zeros of the coefficient are kept, so
`1.00` (coefficient `100`, exponent `-2`) and `1` are different values of the type with the
same number. The sign of a zero coefficient is carried but never shown: a zero is neither
negative nor positive.

Every arithmetic result is rounded half-even to `workingDigits` significant digits by
`Decimal.ofParts`. Rounding moves the exponent, the exponent is a 64-bit integer and the
coefficient a 512-bit one, so the rounding steps run in `Checked`.

`digitCount` is the number of decimal digits of a 512-bit coefficient and `Decimal.adjusted` the
exponent of the leading digit. `Decimal.dropDigits`, `Decimal.roundSig` and `Decimal.quantize` round
half-even at a digit count, at a number of significant digits and at a place, and `Decimal.ofParts`
gives the rounded value of a sign, a coefficient and an exponent.
-/

namespace TickGrid

/-- Arithmetic results keep this many significant digits. -/
def workingDigits : Nat := 70

/-- The greatest exponent `n` with `10 ^ n` below `2 ^ 512`, the width of a coefficient. -/
def greatestTenPower : Nat := 154

/-- The power `10 ^ n` as a 512-bit coefficient: past `10 ^ 154` it does not fit. -/
def tenPower (n : Nat) : Checked Nat :=
  if n ≤ greatestTenPower then pure (Nat.pow 10 n) else throw .wide

/-- Raises a digit count `d` while `10 ^ d ≤ n`, at most `steps` times. -/
def digitCountFrom (n : Nat) : Nat → Nat → Nat
  | 0, d => d
  | steps + 1, d => if Nat.pow 10 d ≤ n then digitCountFrom n steps (d + 1) else d

/-- The number of decimal digits of a 512-bit coefficient; zero has none. The estimate
`⌊(bits - 1) * 30102 / 100000⌋ + 1` from the bit length never exceeds the count, since
`0.30102 < log₁₀ 2`, and `digitCountFrom` corrects it upward, never past
`greatestTenPower + 1` digits. -/
def digitCount (n : Nat) : Nat :=
  if n = 0 then 0 else
    let estimate := Nat.log2 n * 30102 / 100000 + 1
    digitCountFrom n (greatestTenPower + 1 - estimate) estimate

/-- A signed decimal floating-point number `(-1) ^ negative * coefficient * 10 ^ exponent`. -/
structure Decimal where
  /-- The sign flag; it is kept on a zero coefficient but a zero is never negative. -/
  negative : Bool
  /-- The digits, as a natural number. -/
  coefficient : Nat
  /-- The power of ten of the last digit, a 64-bit integer. -/
  exponent : Int
  deriving DecidableEq, Repr, Inhabited

namespace Decimal

/-- The canonical zero: positive, exponent zero. -/
def zero : Decimal := ⟨false, 0, 0⟩

/-- The canonical one: coefficient one, exponent zero. -/
def one : Decimal := ⟨false, 1, 0⟩

/-- A value is zero when its coefficient is. -/
def isZero (x : Decimal) : Bool := x.coefficient == 0

/-- A value is negative when its sign flag is set and it is not zero. -/
def isNegative (x : Decimal) : Bool := x.negative && x.coefficient != 0

/-- A value is positive when its sign flag is clear and it is not zero. -/
def isPositive (x : Decimal) : Bool := !x.negative && x.coefficient != 0

/-- The magnitude: the same digits and exponent with the sign flag cleared. -/
def abs (x : Decimal) : Decimal := { x with negative := false }

/-- The exponent of the leading digit, `exponent + digitCount coefficient - 1`. -/
def adjusted (x : Decimal) : Checked Int := do
  let top ← Word64.add x.exponent (digitCount x.coefficient)
  Word64.sub top 1

/-- Removes the `drop` last digits, rounding half-even (a remainder of exactly half a unit goes
to the even quotient), and raises the exponent by `drop`. When more digits are removed than there
are, what is left is below half a unit of the new last place, so the value becomes a positive
zero. A zero quotient loses its sign. -/
def dropDigits (x : Decimal) (drop : Nat) : Checked Decimal :=
  if drop = 0 then pure x else do
    let exponent ← Word64.add x.exponent drop
    if drop > digitCount x.coefficient then
      pure ⟨false, 0, exponent⟩
    else
      let divisor ← tenPower drop
      let q := x.coefficient / divisor
      let r := x.coefficient % divisor
      let q ← if r > divisor / 2 ∨ (r = divisor / 2 ∧ q % 2 = 1) then Word512.add q 1
        else pure q
      pure ⟨x.negative && q != 0, q, exponent⟩

/-- Rounds half-even to `digits` significant digits. A carry that makes one digit too many
(`99.5` to `100`) is taken back by dropping the last digit, which is then a zero. -/
def roundSig (x : Decimal) (digits : Nat) : Checked Decimal := do
  let count := digitCount x.coefficient
  if count ≤ digits then return x
  let r ← x.dropDigits (count - digits)
  if digitCount r.coefficient > digits then
    let exponent ← Word64.add r.exponent 1
    return { r with coefficient := r.coefficient / 10, exponent := exponent }
  return r

/-- Rounds half-even so that the last digit stands at `10 ^ place`. A value whose last digit is
already at or above that place is kept. A shift past the 32-bit range of digit counts leaves a
positive zero at that place. -/
def quantize (x : Decimal) (place : Int) : Checked Decimal := do
  if x.exponent ≥ place then return x
  let drop ← Word64.sub place x.exponent
  if drop < 4294967296 then x.dropDigits drop.toNat else return ⟨false, 0, place⟩

/-- The value of a sign, coefficient and exponent, rounded to `workingDigits` significant
digits; a zero coefficient gives the canonical zero. -/
def ofParts (negative : Bool) (coefficient : Nat) (exponent : Int) : Checked Decimal :=
  if coefficient = 0 then pure zero else roundSig ⟨negative, coefficient, exponent⟩ workingDigits

/-- The non-negative value `coefficient * 10 ^ exponent`, rounded to `workingDigits` digits. -/
def ofScaled (coefficient : Nat) (exponent : Int) : Checked Decimal :=
  ofParts false coefficient exponent

/-- The value `(hi * 10 ^ 35 + lo) * 10 ^ exponent`, for constants longer than 128 bits. -/
def ofHalves (hi lo : Nat) (exponent : Int) : Checked Decimal := do
  let high ← Word512.mul hi (← tenPower 35)
  ofParts false (← Word512.add high lo) exponent

end Decimal

end TickGrid
