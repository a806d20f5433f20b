import TickGrid.Decimal.Basic

/-!
# Writing decimals

Three written forms of a `Decimal`:

* `Decimal.toText`, the canonical form: positional when the exponent is at most zero and the
  leading digit is at most six places after the point (`0.000001234`), otherwise one digit, a
  point, the rest of the digits and `E` with a signed exponent (`1.234E-7`, `1E+3`). All digits
  of the coefficient are written, trailing zeros included.
* `Decimal.toFixed`, a fixed number of places after the point, rounded half-even. Values whose
  leading digit is past `10 ^ 100` are written in scientific form instead.
* `Decimal.toScientific`, a fixed number of digits after the point of a scientific form with a
  lower-case `e` and a sign on the exponent (`4.95019e-25`).

A sign is written only for a non-zero negative value. The exponent arithmetic is 64-bit, so
these run in `Checked`.
-/

namespace TickGrid

namespace Decimal

/-- The digits of a natural number, most significant first; zero is written `0`. -/
def digitsOf (n : Nat) : List Char := (Nat.repr n).toList

/-- A run of `n` zero digits. -/
def zeros (n : Nat) : List Char := List.replicate n '0'

/-- The first digit, then a point and the other digits if there are any. -/
def pointAfterFirst : List Char → String
  | [] => ""
  | [d] => String.singleton d
  | d :: rest => String.singleton d ++ "." ++ String.ofList rest

/-- The sign written before a value: a minus for a non-zero negative value, else nothing. -/
def signText (x : Decimal) : String := if x.isNegative then "-" else ""

/-- The canonical text. The exponent written in scientific form is the position of the leading
digit, counted from the written digits (so a zero counts one digit). -/
def toText (x : Decimal) : Checked String := do
  let digits := digitsOf x.coefficient
  let top ← Word64.add x.exponent digits.length
  let lead ← Word64.sub top 1
  if x.exponent ≤ 0 ∧ lead ≥ -6 then
    if x.exponent = 0 then return signText x ++ String.ofList digits
    let point ← Word64.add digits.length x.exponent
    if point > 0 then
      return signText x ++ String.ofList (digits.take point.toNat) ++ "." ++
        String.ofList (digits.drop point.toNat)
    else
      return signText x ++ "0." ++ String.ofList (zeros (-point).toNat) ++ String.ofList digits
  else
    let size ← Word64.natAbs lead
    let mark := if lead < 0 then "E-" else "E+"
    return signText x ++ pointAfterFirst digits ++ mark ++ toString size

/-- The scientific form with `places` digits after the point: the value is rounded half-even to
`places + 1` significant digits and padded with zeros. A zero has exponent zero. -/
def toScientific (x : Decimal) (places : Nat) : Checked String := do
  let wanted ← Word32.succ places
  let v ← x.roundSig wanted
  let lead ← if v.isZero then pure 0 else v.adjusted
  let digits := digitsOf v.coefficient
  let digits := digits ++ zeros (wanted - digits.length)
  let size ← Word64.natAbs lead
  let mark := if lead < 0 then "e-" else "e+"
  return signText v ++ pointAfterFirst digits ++ mark ++ toString size

/-- The fixed form with `places` digits after the point, rounded half-even at `10 ^ -places`;
the integer part has at least one digit. A non-zero value whose leading digit is past `10 ^ 100`
is written by `toScientific` with the same number of places. -/
def toFixed (x : Decimal) (places : Nat) : Checked String := do
  if !x.isZero then
    let lead ← x.adjusted
    if lead > 100 then return ← x.toScientific places
  let v ← x.quantize (-places)
  let digits := digitsOf v.coefficient
  let digits ← if v.exponent > -places then do
      let pad ← Word64.add v.exponent places
      pure (digits ++ zeros pad.toNat)
    else pure digits
  let digits := if digits.length ≤ places then zeros (places + 1 - digits.length) ++ digits
    else digits
  if places = 0 then return signText v ++ String.ofList digits
  let cut := digits.length - places
  return signText v ++ String.ofList (digits.take cut) ++ "." ++ String.ofList (digits.drop cut)

end Decimal

end TickGrid
