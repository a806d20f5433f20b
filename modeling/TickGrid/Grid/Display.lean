import TickGrid.Decimal.Arith
import TickGrid.Decimal.Printer

/-!
# Prices for people

`Grid.showPrice` writes a price for a reader: zero as `0`; magnitudes below `10 ^ -6` in
scientific form with two places (`4.95e-25`); magnitudes below `1000` with ten places and
magnitudes from `1000` on with six, trailing zeros and a trailing point removed.
-/

namespace TickGrid

namespace Grid

/-- Removes trailing zeros and then a trailing point from a text that has a point; a text
without a point is an integer and is kept. -/
def stripZeros (s : String) : String :=
  let cs := s.toList
  if cs.contains '.' then
    String.ofList ((cs.reverse.dropWhile (· = '0')).dropWhile (· = '.')).reverse
  else s

/-- The written form of a price for a reader. -/
def showPrice (p : Decimal) : Checked String := do
  if p.isZero then return "0"
  if (← p.abs.cmp ⟨false, 1, -6⟩) == .lt then return ← p.toScientific 2
  if (← p.abs.cmp ⟨false, 1000, 0⟩) == .lt then return stripZeros (← p.toFixed 10)
  return stripZeros (← p.toFixed 6)

end Grid

end TickGrid
