import TickGrid.Decimal.Arith
import TickGrid.Decimal.Printer

/-!
# The price grid

Prices live on the geometric grid `1.0001 ^ t` for integer ticks `t` with `|t| ≤ 559680`. The
price of a tick is the power `1.0001 ^ |t|` by square-and-multiply at `workingDigits`
significant digits, inverted for negative ticks, and then rounded to `priceDigits` digits.

A conversion outside the grid fails with a `RangeError`; an arithmetic overflow is still an
`Overflow`, so grid computations run in `RangeM`, where a range error is an ordinary answer and
an overflow ends the computation.
-/

namespace TickGrid

namespace Grid

/-- The greatest tick magnitude. -/
def maxTick : Nat := 559680

/-- Prices handed out keep this many significant digits. -/
def priceDigits : Nat := 50

end Grid

/-- Why a tick or a price is outside the domain of a conversion. -/
inductive RangeError where
  /-- A tick whose magnitude exceeds `Grid.maxTick`. -/
  | tickOutOfBounds (tick : Int)
  /-- A price that is zero or negative. -/
  | priceNotPositive
  /-- A positive price below the least or above the greatest price of the grid. -/
  | priceOutOfBounds (price least greatest : Decimal)
  deriving DecidableEq, Repr

namespace RangeError

/-- The text that describes the fault. The price is written canonically and the bounds with
five places of scientific form. -/
def message : RangeError → Checked String
  | .tickOutOfBounds tick =>
    pure ("Tick " ++ toString tick ++ " is out of bounds. Max: ±" ++ toString Grid.maxTick)
  | .priceNotPositive => pure "Price must be positive"
  | .priceOutOfBounds price least greatest => do
    let p ← price.toText
    let lo ← least.toScientific 5
    let hi ← greatest.toScientific 5
    pure ("Price " ++ p ++ " is out of bounds [" ++ lo ++ ", " ++ hi ++ "]")

end RangeError

/-- Grid computations: a range error is an answer, an overflow ends everything. -/
abbrev RangeM := ExceptT RangeError Checked

namespace Grid

/-- Runs a step that can only overflow. -/
def lift {α : Type} (c : Checked α) : RangeM α := ExceptT.lift c

/-- The grid ratio `1.0001`. -/
def base : Decimal := ⟨false, 10001, -4⟩

/-- The square root of `1.0001` to seventy digits; `1.0001 ^ t * sqrtBase` is the geometric
midpoint between the prices of `t` and `t + 1`. -/
def sqrtBase : Decimal :=
  ⟨false, 1000049998750062496094023416993798697215498950656864788436870065842192, -69⟩

/-- The ratio is what the scaled constant `10001 * 10 ^ -4` rounds to. -/
theorem ofScaled_base : Decimal.ofScaled 10001 (-4) = .ok base := by rfl

/-- The root is what its two halves of thirty-five digits give. -/
theorem ofHalves_sqrtBase :
    (Decimal.ofHalves 10000499987500624960940234169937986 97215498950656864788436870065842192
      (-69)).toOption = some sqrtBase := by
  decide +kernel

/-- The power `1.0001 ^ t` at working precision, with no range check: a negative tick gives the
reciprocal of the power of its magnitude. -/
def priceAt (t : Int) : Checked Decimal := do
  let magnitude ← base.pow t.natAbs
  if t ≥ 0 then return magnitude
  return (← magnitude.recip?).getD Decimal.zero

/-- The least price of the grid, `1.0001 ^ -559680` to `priceDigits` digits. -/
def least : Checked Decimal := do (← priceAt (-maxTick)).roundSig priceDigits

/-- The greatest price of the grid, `1.0001 ^ 559680` to `priceDigits` digits. -/
def greatest : Checked Decimal := do (← priceAt maxTick).roundSig priceDigits

/-- The price of a tick, `1.0001 ^ t` to `priceDigits` digits; ticks past `maxTick` in magnitude
are out of bounds. -/
def priceOfTick (t : Int) : RangeM Decimal := do
  if t.natAbs > maxTick then throw (.tickOutOfBounds t)
  let p ← lift (priceAt t)
  lift (p.roundSig priceDigits)

/-- The reciprocal of a positive price to `priceDigits` digits: the price of the other token in
the first. -/
def reciprocal (p : Decimal) : RangeM Decimal := do
  if !p.isPositive then throw .priceNotPositive
  match ← lift p.recip? with
  | some inverse => lift (inverse.roundSig priceDigits)
  | none => throw .priceNotPositive

end Grid

end TickGrid
