import TickGrid.Decimal.Basic

/-!
# Binary64 floating-point numbers

A `Binary64` is an IEEE 754 double given by its 64-bit pattern: one sign bit, eleven bits of
biased exponent and fifty-two bits of fraction. `Binary64.kind` decodes it into NaN, a signed
infinity, or a finite value `(-1) ^ sign * significand * 2 ^ exponent`.

All arithmetic here is exact arithmetic on natural numbers followed by one rounding,
`Binary64.round`: the nearest binary64 value of a positive rational, ties to the even
significand, magnitudes past the largest finite value to infinity. From it come the nearest
double of a decimal (`Decimal.toBinary64`) and the product of two doubles (`Binary64.mul`).
-/

namespace TickGrid

/-- An IEEE 754 binary64 value, by its bit pattern. -/
structure Binary64 where
  /-- The sign bit, then eleven exponent bits, then fifty-two fraction bits. -/
  bits : UInt64
  deriving DecidableEq, Repr, Inhabited

namespace Binary64

/-- What a bit pattern stands for: `finite negative m e` is `(-1) ^ negative * m * 2 ^ e`. -/
inductive Kind where
  /-- Not a number. -/
  | nan
  /-- An infinity of the given sign. -/
  | infinite (negative : Bool)
  /-- A finite value, zero included. -/
  | finite (negative : Bool) (significand : Nat) (exponent : Int)
  deriving DecidableEq, Repr

/-- The sign bit. -/
def negative (x : Binary64) : Bool := x.bits.toNat ≥ Nat.pow 2 63

/-- The eleven bits of biased exponent. -/
def biased (x : Binary64) : Nat := x.bits.toNat / Nat.pow 2 52 % Nat.pow 2 11

/-- The fifty-two bits of fraction. -/
def fraction (x : Binary64) : Nat := x.bits.toNat % Nat.pow 2 52

/-- Decodes the bit pattern. A biased exponent of zero holds subnormals, scaled by `2 ^ -1074`;
otherwise the significand has its leading one at bit fifty-two. -/
def kind (x : Binary64) : Kind :=
  if x.biased = 2047 then
    if x.fraction = 0 then .infinite x.negative else .nan
  else if x.biased = 0 then .finite x.negative x.fraction (-1074)
  else .finite x.negative (x.fraction + Nat.pow 2 52) ((x.biased : Int) - 1075)

/-- The bit pattern of a sign, a biased exponent and a fraction. -/
def ofFields (negative : Bool) (biased fraction : Nat) : Binary64 :=
  ⟨UInt64.ofNat ((if negative then Nat.pow 2 63 else 0) + biased * Nat.pow 2 52 + fraction)⟩

/-- The infinity of a sign. -/
def infinity (negative : Bool) : Binary64 := ofFields negative 2047 0

/-- The zero of a sign. -/
def zero (negative : Bool) : Binary64 := ofFields negative 0 0

/-- The quiet NaN with no payload. -/
def nan : Binary64 := ofFields false 2047 (Nat.pow 2 51)

/-- Half-even rounding of `n / d` to a natural number, for `0 < d`. -/
def divRound (n d : Nat) : Nat :=
  let q := n / d
  let r := n % d
  if 2 * r > d ∨ (2 * r = d ∧ q % 2 = 1) then q + 1 else q

/-- The floor of the binary logarithm of `n / d`, for positive `n` and `d`: the difference of the
bit lengths, or one less. -/
def floorLog2 (n d : Nat) : Int :=
  let t : Int := (Nat.log2 n : Int) - Nat.log2 d
  if n * Nat.pow 2 (-t).toNat ≥ d * Nat.pow 2 t.toNat then t else t - 1

/-- The binary64 value nearest to `n / d * 2 ^ s` with the given sign, for `0 < d`: the
significand has fifty-three bits (fewer below the normal range, whose last bit is `2 ^ -1074`),
a tie goes to the even significand, and a value that rounds past the largest finite one becomes
an infinity. A zero numerator gives the zero of the sign. -/
def round (negative : Bool) (n d : Nat) (s : Int) : Binary64 :=
  if n = 0 then zero negative else
    let k := max (floorLog2 n d + s - 52) (-1074)
    let m := divRound (n * Nat.pow 2 (s - k).toNat) (d * Nat.pow 2 (k - s).toNat)
    let (m, k) := if m = Nat.pow 2 53 then (Nat.pow 2 52, k + 1) else (m, k)
    if m < Nat.pow 2 52 then ofFields negative 0 m
    else if k + 1075 ≥ 2047 then infinity negative
    else ofFields negative (k + 1075).toNat (m - Nat.pow 2 52)

/-- The rounded product: NaN if either factor is NaN or an infinity meets a zero, an infinity if
either factor is infinite, else the exact product rounded by `round`. The sign is the exclusive
or of the signs. -/
def mul (a b : Binary64) : Binary64 :=
  match a.kind, b.kind with
  | .nan, _ => nan
  | _, .nan => nan
  | .infinite s, .infinite t => infinity (s != t)
  | .infinite s, .finite t m _ => if m = 0 then nan else infinity (s != t)
  | .finite s m _, .infinite t => if m = 0 then nan else infinity (s != t)
  | .finite s m e, .finite t n f => round (s != t) (m * n) 1 (e + f)

/-- The signed value `(-1) ^ negative * m * 2 ^ (e - base)` as an integer, for `base ≤ e`. -/
def scaledValue (negative : Bool) (m : Nat) (e base : Int) : Int :=
  let v : Int := (m * Nat.pow 2 (e - base).toNat : Nat)
  if negative then -v else v

/-- The order of two values that are not NaN; zeros of both signs are equal. -/
def compareKinds : Kind → Kind → Ordering
  | .infinite s, .infinite t => if s = t then .eq else if s then .lt else .gt
  | .infinite s, _ => if s then .lt else .gt
  | _, .infinite t => if t then .gt else .lt
  | .finite s m e, .finite t n f =>
    let base := min e f
    compare (scaledValue s m e base) (scaledValue t n f base)
  | _, _ => .eq

/-- The comparison `a < b`; false whenever either side is NaN. -/
def lt (a b : Binary64) : Bool :=
  match a.kind, b.kind with
  | .nan, _ => false
  | _, .nan => false
  | k, l => compareKinds k l == .lt

end Binary64

namespace Decimal

/-- The nearest binary64 value, ties to even, negated when the decimal is negative (so a tiny
negative decimal gives the negative zero). A leading digit at `10 ^ 309` or above is past every
finite double and gives an infinity; one at `10 ^ -325` or below is under half the least
subnormal and gives a zero. -/
def toBinary64 (x : Decimal) : Binary64 :=
  let negative := x.isNegative
  let lead := x.exponent + digitCount x.coefficient - 1
  if x.coefficient = 0 then Binary64.zero false
  else if lead ≥ 309 then Binary64.infinity negative
  else if lead ≤ -325 then Binary64.zero negative
  else if x.exponent ≥ 0 then
    Binary64.round negative (x.coefficient * Nat.pow 10 x.exponent.toNat) 1 0
  else
    Binary64.round negative x.coefficient (Nat.pow 10 (-x.exponent).toNat) 0

end Decimal

end TickGrid
