import TickGrid.Decimal.Basic
import TickGrid.Text.Blank
import TickGrid.Text.Integer

/-!
# Reading decimals

`Decimal.read` reads the text of a decimal number. The grammar, after blanks are trimmed from
both ends:

* an optional sign `+` or `-`;
* a mantissa of ASCII digits with at most one point, not empty, though either side of the point
  may be;
* an optional exponent: `e` or `E`, an optional sign and at least one ASCII digit, at most nine
  of them after leading zeros.

The exponent is read before the mantissa, so a text with faults in both reports the exponent's.
A mantissa with more than `workingDigits + 1` significant digits keeps that many, followed by a
sticky digit that is one exactly when a dropped digit is not zero; the value is then rounded to
`workingDigits` digits, so the result is the correctly rounded value of the whole text.
-/

namespace TickGrid

/-- Why a text is not a decimal number. -/
inductive ReadError where
  /-- Nothing but blanks. -/
  | empty
  /-- A mantissa that is empty or holds a character other than an ASCII digit and one point. -/
  | invalidDigit
  /-- An exponent that is empty or holds a character other than ASCII digits after its sign. -/
  | invalidExponent
  /-- An exponent with more than nine digits after its leading zeros. -/
  | exponentOutOfRange
  deriving DecidableEq, Repr, Inhabited

namespace ReadError

/-- The text that describes the fault. -/
def message : ReadError → String
  | .empty => "empty decimal"
  | .invalidDigit => "invalid digit in decimal"
  | .invalidExponent => "invalid exponent"
  | .exponentOutOfRange => "exponent out of range"

end ReadError

namespace Decimal

/-- The text with one leading `+` or `-` removed, if it has one. -/
def dropSign : List Char → List Char
  | c :: rest => if c = '+' ∨ c = '-' then rest else c :: rest
  | [] => []

/-- Reads the exponent after the `e`: a sign, then one to nine significant ASCII digits. -/
def readExponent (text : List Char) : Except ReadError Int :=
  let digits := dropSign text
  if digits.isEmpty || !digits.all Char.isDigit then .error .invalidExponent
  else
    let magnitude := digits.dropWhile (· = '0')
    if magnitude.length > 9 then .error .exponentOutOfRange
    else
      let value : Int := Text.digitValue magnitude
      .ok (if text.head? = some '-' then -value else value)

/-- The mantissa and the exponent text: the exponent starts after the first `e` or `E`. -/
def splitExponent (text : List Char) : List Char × Option (List Char) :=
  match text.span (fun c => c ≠ 'e' ∧ c ≠ 'E') with
  | (mantissa, _ :: exponent) => (mantissa, some exponent)
  | (mantissa, []) => (mantissa, none)

/-- The digits before and after the first point. -/
def splitPoint (mantissa : List Char) : List Char × List Char :=
  match mantissa.span (· ≠ '.') with
  | (integer, _ :: fraction) => (integer, fraction)
  | (integer, []) => (integer, [])

/-- Digits kept from a long mantissa before the sticky digit. -/
def keptDigits : Nat := workingDigits + 1

/-- The value of the significant digits (no leading zero) at the given exponent, with a sign:
past `keptDigits` digits the rest is folded into one sticky digit, then rounded. -/
def ofDigits (negative : Bool) (significant : List Char) (exponent : Int) : Checked Decimal := do
  if significant.length > keptDigits then
    let tail := significant.drop keptDigits
    let sticky := if tail.any (· ≠ '0') then 1 else 0
    let exponent ← Word64.add exponent (tail.length - 1)
    let head ← Word512.mul (Text.digitValue (significant.take keptDigits)) 10
    ofParts negative (← Word512.add head sticky) exponent
  else
    ofParts negative (Text.digitValue significant) exponent

/-- What a decimal's text says before any arithmetic: the sign, the digits before and after the
point, and the exponent written after the `e`. -/
structure Literal where
  /-- The text starts with `-`. -/
  negative : Bool
  /-- The digits before the point. -/
  integer : List Char
  /-- The digits after the point. -/
  fraction : List Char
  /-- The value of the exponent text, zero when there is none. -/
  exponent : Int
  deriving DecidableEq, Repr

/-- Reads the digits before and after the point of a mantissa: at least one digit, and nothing
but digits besides the first point. -/
def readMantissa (mantissa : List Char) : Except ReadError (List Char × List Char) := do
  let (integer, fraction) := splitPoint mantissa
  if integer.isEmpty && fraction.isEmpty then throw .invalidDigit
  if !(integer ++ fraction).all Char.isDigit then throw .invalidDigit
  return (integer, fraction)

/-- Reads the parts of a trimmed text, or its fault. The exponent is read before the mantissa. -/
def readLiteral (text : List Char) : Except ReadError Literal := do
  if text.isEmpty then throw .empty
  let (mantissa, exponentText) := splitExponent (dropSign text)
  let exponent ← match exponentText with
    | some t => readExponent t
    | none => pure 0
  let (integer, fraction) ← readMantissa mantissa
  return ⟨text.head? = some '-', integer, fraction, exponent⟩

/-- The decimal a literal stands for: the exponent is moved by the length of the fraction, and
the digits without their leading zeros are rounded by `ofDigits`; no significant digit is the
canonical zero. -/
def Literal.value (l : Literal) : Checked Decimal := do
  let exponent ← Word64.sub l.exponent l.fraction.length
  let significant := (l.integer ++ l.fraction).dropWhile (· = '0')
  if significant.isEmpty then return zero
  ofDigits l.negative significant exponent

/-- Reads a decimal number; see the module documentation for the grammar. -/
def read (s : String) : ExceptT ReadError Checked Decimal := do
  let literal ← ExceptT.mk (pure (readLiteral (Text.trimBlank s.toList)))
  ExceptT.lift literal.value

end Decimal

end TickGrid
