import TickGrid.Grid.Tick

/-!
# Conversions

The two reports a user asks for. A `TickConversion` gives the price of a tick in both
directions and whether the tick survives a round trip. A `PriceConversion` gives the tick of a
price, the price of that tick, the reciprocal price and how far the tick's price is from the
given one, in percent; below `0.001` percent the snap counts as highly accurate.

`exampleRows` lists five ticks whose prices are close to round ratios.
-/

namespace TickGrid

/-- The price of a tick, in both directions, and the round-trip check. -/
structure TickConversion where
  /-- The tick asked for. -/
  tick : Int
  /-- The price of the first token in the second. -/
  price : Decimal
  /-- The price of the second token in the first. -/
  inverse : Decimal
  /-- Whether the tick of `price` is within one of `tick`. -/
  roundTripOk : Bool
  deriving Repr

namespace TickConversion

/-- The conversion of a tick, its round trip searched from the estimate of `logBase`; a tick out of
bounds is a range error. -/
def ofTickWith (logBase : Binary64 → Int) (t : Int) : RangeM TickConversion := do
  let price ← Grid.priceOfTick t
  let inverse ← Grid.reciprocal price
  let ok ← Grid.lift (Grid.roundTripOkWith logBase t)
  return ⟨t, price, inverse, ok⟩

/-- The conversion of a tick; a tick out of bounds is a range error. -/
def ofTick (t : Int) : RangeM TickConversion := ofTickWith Grid.logTicks t

end TickConversion

/-- The tick of a price, with the price it snaps to and the accuracy of the snap. -/
structure PriceConversion where
  /-- The price asked for. -/
  price : Decimal
  /-- Its tick. -/
  tick : Int
  /-- The price of that tick. -/
  verified : Decimal
  /-- The reciprocal of the price asked for. -/
  inverse : Decimal
  /-- The distance from `verified` to `price`, in percent of `price`. -/
  accuracy : Binary64
  deriving Repr

namespace PriceConversion

/-- Snaps closer than this many percent are highly accurate. -/
def highAccuracyPercent : Binary64 := (⟨false, 1, -3⟩ : Decimal).toBinary64

/-- The conversion of a price, its tick searched from the estimate of `logBase`; a price that is
not positive or off the grid is a range error. -/
def ofPriceWith (logBase : Binary64 → Int) (p : Decimal) : RangeM PriceConversion := do
  let t ← Grid.tickOfPriceWith logBase p
  let verified ← Grid.priceOfTick t
  let inverse ← Grid.reciprocal p
  let accuracy ← Grid.accuracy p t
  return ⟨p, t, verified, inverse, accuracy⟩

/-- The conversion of a price; a price that is not positive or off the grid is a range error. -/
def ofPrice (p : Decimal) : RangeM PriceConversion := ofPriceWith Grid.logTicks p

/-- Whether the snap is closer than `highAccuracyPercent`. -/
def highAccuracy (c : PriceConversion) : Bool := c.accuracy.lt highAccuracyPercent

end PriceConversion

/-- A tick shown as an example, with its price and what the price is close to. -/
structure ExampleRow where
  /-- The tick. -/
  tick : Int
  /-- Its price. -/
  price : Decimal
  /-- The ratio the price is close to. -/
  description : String
  deriving Repr

/-- The example ticks: one, about ten, a tenth, a thousand and a thousandth. -/
def exampleTicks : List (Int × String) :=
  [(0, "1:1 price ratio"), (23027, "~10:1 price ratio"), (-23027, "~0.1:1 price ratio"),
    (69078, "~1000:1 price ratio"), (-69078, "~0.001:1 price ratio")]

/-- The example rows, in the order of `exampleTicks`. -/
def exampleRows : RangeM (List ExampleRow) :=
  exampleTicks.mapM fun (t, description) => do
    return ⟨t, ← Grid.priceOfTick t, description⟩

end TickGrid
