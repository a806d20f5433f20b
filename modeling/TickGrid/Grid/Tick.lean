import TickGrid.Grid.Basic
import TickGrid.Binary64.Basic

/-!
# The tick of a price

The tick of a price `p` is the tick nearest in log space: the `t` with
`1.0001 ^ (t - 1/2) ≤ p < 1.0001 ^ (t + 1/2)`, the midpoints computed as `upperMidpoint`.

A floating-point logarithm gives a starting tick (`estimate`), and `walk` moves it one tick at a
time until the price lies between the midpoints below and above it. Both tests of a step use the
same `upperMidpoint` function, so the walk never turns back; where it stops does not depend on
where it starts, and the estimate only shortens the walk.
-/

namespace TickGrid

namespace Grid

/-- The geometric midpoint between the prices of `t` and `t + 1`, at working precision. -/
def upperMidpoint (t : Int) : Checked Decimal := do (← priceAt t).mul sqrtBase

/-- One step of the walk: up while the price reaches the midpoint above, else down while it is
below the midpoint below, else `none`. The walk never leaves `[-maxTick, maxTick]`. -/
def walkStep (p : Decimal) (t : Int) : Checked (Option Int) := do
  if t < maxTick then
    if (← p.cmp (← upperMidpoint t)) != .lt then return some (t + 1)
  if t > -(maxTick : Int) then
    if (← p.cmp (← upperMidpoint (t - 1))) == .lt then return some (t - 1)
  return none

/-- Walks from `t` for at most `fuel` steps and answers the tick where no step applies. -/
def walkFor (p : Decimal) : Nat → Int → Checked Int
  | 0, t => pure t
  | fuel + 1, t => do
    match ← walkStep p t with
    | some next => walkFor p fuel next
    | none => pure t

/-- The walk from `t`. A walk never turns back inside `[-maxTick, maxTick]`, so
`2 * maxTick + 1` steps are always enough. -/
def walk (p : Decimal) (t : Int) : Checked Int := walkFor p (2 * maxTick + 1) t

/-- The logarithm of a positive double to the base `1.0001`, rounded half away from zero, as a
32-bit integer (saturating; NaN gives zero). -/
def logTicks (x : Binary64) : Int :=
  let ratio := Float.log (Float.ofBits x.bits) / Float.log (Float.ofBits base.toBinary64.bits)
  let t := ratio.round.toInt64.toInt
  max (-2147483648) (min t 2147483647)

/-- A starting tick from a floating-point logarithm `logBase` of the price, or of its reciprocal
below one so that the logarithm never sees a value near zero; clamped to the grid. The negation
of a logarithm at the bottom of the 32-bit range overflows. -/
def estimateWith (logBase : Binary64 → Int) (p : Decimal) : Checked Int := do
  let t ← if (← p.cmp Decimal.one) != .lt then pure (logBase p.toBinary64)
    else match ← p.recip? with
      | some inverse =>
        let u := logBase inverse.toBinary64
        if u = -2147483648 then throw .neg else pure (-u)
      | none => pure 0
  return max (-(maxTick : Int)) (min t maxTick)

/-- The tick of a positive price between `least` and `greatest`, the walk starting from the
estimate of `logBase`. The precision of the platform logarithm is not fixed (it varies with the
platform), so the search takes it as a parameter; `tickOfPrice` runs it with `logTicks`. -/
def tickOfPriceWith (logBase : Binary64 → Int) (p : Decimal) : RangeM Int := do
  if !p.isPositive then throw .priceNotPositive
  let lo ← lift least
  let hi ← lift greatest
  if (← lift (p.cmp lo)) == .lt then throw (.priceOutOfBounds p lo hi)
  if (← lift (p.cmp hi)) == .gt then throw (.priceOutOfBounds p lo hi)
  lift (walk p (← lift (estimateWith logBase p)))

/-- The tick of a positive price between `least` and `greatest`. -/
def tickOfPrice (p : Decimal) : RangeM Int := tickOfPriceWith logTicks p

/-- Whether the tick of the price of `t` is within one of `t`, the tick found with `logBase`; any
range error counts as a failed round trip. -/
def roundTripOkWith (logBase : Binary64 → Int) (t : Int) : Checked Bool := do
  match ← (do tickOfPriceWith logBase (← priceOfTick t) : RangeM Int).run with
  | .ok back => return (t - back).natAbs ≤ 1
  | .error _ => return false

/-- Whether the tick of the price of `t` is within one of `t`; any range error counts as a failed
round trip. -/
def roundTripOk (t : Int) : Checked Bool := roundTripOkWith logTicks t

/-- The double `100`. -/
def hundred : Binary64 := (⟨false, 100, 0⟩ : Decimal).toBinary64

/-- The distance between a positive price and the price of a tick, relative to the price, in
percent: the relative distance to the nearest double, times one hundred in binary64. -/
def accuracy (p : Decimal) (t : Int) : RangeM Binary64 := do
  if !p.isPositive then throw .priceNotPositive
  let snapped ← priceOfTick t
  let distance ← lift (p.absDiff snapped)
  match ← lift (distance.div? p) with
  | some relative => return relative.toBinary64.mul hundred
  | none => throw .priceNotPositive

end Grid

end TickGrid
