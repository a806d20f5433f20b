import TickGrid.Binary64.Basic

/-!
# Shortest decimal digits of a double

The scientific text of a finite non-zero double uses the fewest significant digits that read
back as the same double, and of those the nearest to its exact value.

A double `m * 2 ^ e` reads back from every real strictly between the midpoints to its two
neighbours; the midpoints themselves belong to it when the significand is even, since a tie
then rounds to it. All subnormals have an even stored significand in this sense, so their
intervals are closed. The neighbour below a power of two is twice as close, which narrows the
interval below.

For `n = 1, 2, …, 17` the value's two neighbours on the grid of `n`-digit decimals are tested
in exact arithmetic; the first `n` with a neighbour in the interval wins, and of two neighbours
in it the nearer one, with an exact tie going up. If any `n`-digit decimal lies in the interval,
one of the two neighbours does, so no shorter text reads back.
-/

namespace TickGrid

namespace Binary64

/-- Compares `x * 10 ^ j` with `y * 2 ^ t`, exactly. -/
def comparePowers (x : Nat) (j : Int) (y : Nat) (t : Int) : Ordering :=
  compare (x * Nat.pow 10 j.toNat * Nat.pow 2 (-t).toNat) (y * Nat.pow 2 t.toNat * Nat.pow 10 (-j).toNat)

/-- The exponent of the leading decimal digit of `m * 2 ^ e`, for `0 < m`: the length of the
decimal numeral of the integer `m * 2 ^ e * 10 ^ -e` (or `m * 2 ^ e` when `0 ≤ e`) less the
decimal shift. -/
def decimalLead (m : Nat) (e : Int) : Int :=
  ((Nat.repr (m * Nat.pow 2 e.toNat * Nat.pow 5 (-e).toNat)).length : Int) - 1 - (-e).toNat

/-- The rounding interval of a double `m * 2 ^ e`, in units of `2 ^ (e - 2)`: it reaches
`below` units under the value `4 * m` and two units over it, ends included when `closed`. -/
structure Interval where
  /-- The significand. -/
  m : Nat
  /-- The binary exponent. -/
  e : Int
  /-- Units of `2 ^ (e - 2)` from the value down to the lower end. -/
  below : Nat
  /-- Whether the ends read back as the value. -/
  closed : Bool

namespace Interval

/-- Whether a comparison with an end admits the point: strictly inside, or on a closed end. -/
def admits (i : Interval) (inside : Ordering) (o : Ordering) : Bool :=
  o == inside || (o == .eq && i.closed)

/-- The floor of the value on the grid of `10 ^ j`. -/
def floorAt (i : Interval) (j : Int) : Nat :=
  i.m * Nat.pow 2 i.e.toNat * Nat.pow 10 (-j).toNat / (Nat.pow 2 (-i.e).toNat * Nat.pow 10 j.toNat)

/-- The neighbour of the value on the grid of `10 ^ j` that reads back, as a count of
`10 ^ j`, if either does: the nearer one when both do, the upper one on a tie. -/
def pickAt (i : Interval) (j : Int) : Option Nat :=
  let a := i.floorAt j
  let down := i.admits .gt (comparePowers a j (4 * i.m - i.below) (i.e - 2))
  let up := i.admits .lt (comparePowers (a + 1) j (4 * i.m + 2) (i.e - 2))
  if down && up then
    if comparePowers (2 * a + 1) j (8 * i.m) (i.e - 2) == .gt then some a else some (a + 1)
  else if down then some a
  else if up then some (a + 1)
  else none

/-- The nearer neighbour on the grid of `10 ^ j`, whether or not it reads back. -/
def nearestAt (i : Interval) (j : Int) : Nat :=
  let a := i.floorAt j
  if comparePowers (2 * a + 1) j (8 * i.m) (i.e - 2) == .gt then a else a + 1

/-- The shortest digits that read back and the exponent of their last digit: the first of the
grids of 1 to 17 significant digits with a neighbour in the interval. -/
def shortest (i : Interval) : Nat × Int :=
  let lead := decimalLead i.m i.e
  let found := (List.range 17).findSome? fun (n : Nat) =>
    (i.pickAt (lead - n)).map fun d => (d, lead - n)
  found.getD (i.nearestAt (lead - 16), lead - 16)

end Interval

/-- The rounding interval of a finite double with significand `m > 0` and exponent `e`, as
decoded by `kind`. -/
def interval (x : Binary64) (m : Nat) (e : Int) : Interval :=
  if x.biased = 0 then ⟨m, e, 2, true⟩
  else ⟨m, e, if m = Nat.pow 2 52 then 1 else 2, m % 2 == 0⟩

/-- A digit string without its trailing zeros. -/
def dropTrailingZeros (ds : List Char) : List Char :=
  (ds.reverse.dropWhile (· = '0')).reverse

/-- The first digit, then a point and the other digits if there are any. -/
def pointAfterLead : List Char → String
  | [] => ""
  | [d] => String.singleton d
  | d :: rest => String.singleton d ++ "." ++ String.ofList rest

/-- The scientific text with the shortest digits that read back: `d.ddd` then `e` and the
exponent, with a minus sign only when negative (`2.2031893037608204e-5`, `1e0`). Zeros are
`0e0` and `-0e0`, infinities `inf` and `-inf`, and NaN is `NaN`. -/
def toScientific (x : Binary64) : String :=
  let sign (negative : Bool) : String := if negative then "-" else ""
  match x.kind with
  | .nan => "NaN"
  | .infinite s => sign s ++ "inf"
  | .finite s m e =>
    if m = 0 then sign s ++ "0e0"
    else
      let (d, j) := (x.interval m e).shortest
      let ds := (Nat.repr d).toList
      sign s ++ pointAfterLead (dropTrailingZeros ds) ++ "e" ++ toString (j + ds.length - 1)

end Binary64

end TickGrid
