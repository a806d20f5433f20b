/-!
# Overflow of fixed-width arithmetic

Decimal exponents are signed 64-bit integers, digit counts are unsigned 32-bit integers and
coefficients are unsigned 512-bit integers. The exact result is computed in `Int` or `Nat`;
when it leaves the range of its width the computation stops with an `Overflow` that says which
step failed. Nothing wraps around.

`Checked` is the monad of computations that may stop this way. Every decimal operation of the
library runs in it, so a chain of operations that pushes an exponent past `2 ^ 63` ends in a
definite, named failure rather than in a wrong value.
-/

namespace TickGrid

/-- Which arithmetic step left the range of its width. -/
inductive Overflow where
  /-- A sum left the range of its width. -/
  | add
  /-- A difference left the range of its width. -/
  | sub
  /-- The negation of the least 64-bit integer has no 64-bit value. -/
  | neg
  /-- A coefficient operation left the unsigned 512-bit range. -/
  | wide
  deriving DecidableEq, Repr, Inhabited

namespace Overflow

/-- The text that names the failed step. -/
def message : Overflow → String
  | .add => "attempt to add with overflow"
  | .sub => "attempt to subtract with overflow"
  | .neg => "attempt to negate with overflow"
  | .wide => "arithmetic operation overflow"

end Overflow

/-- Computations that stop with an `Overflow` when a fixed-width step leaves its range. -/
abbrev Checked := Except Overflow

namespace Word64

/-- The least signed 64-bit integer, `-2 ^ 63`. -/
def least : Int := -9223372036854775808

/-- The greatest signed 64-bit integer, `2 ^ 63 - 1`. -/
def greatest : Int := 9223372036854775807

/-- An integer fits in 64 signed bits when it lies between `least` and `greatest`. -/
def Fits (x : Int) : Prop := least ≤ x ∧ x ≤ greatest

instance (x : Int) : Decidable (Fits x) := inferInstanceAs (Decidable (_ ∧ _))

/-- The sum of two 64-bit integers, or `Overflow.add` when it does not fit. -/
def add (a b : Int) : Checked Int :=
  if Fits (a + b) then pure (a + b) else throw .add

/-- The difference of two 64-bit integers, or `Overflow.sub` when it does not fit. -/
def sub (a b : Int) : Checked Int :=
  if Fits (a - b) then pure (a - b) else throw .sub

/-- The magnitude of a 64-bit integer, or `Overflow.neg` for `least`, whose negation does not
fit. -/
def natAbs (a : Int) : Checked Nat :=
  if a = least then throw .neg else pure a.natAbs

@[simp] theorem add_eq_ok {a b s : Int} : add a b = .ok s ↔ Fits (a + b) ∧ a + b = s := by
  unfold add
  split <;> simp_all [pure, Except.pure, throw, throwThe, MonadExceptOf.throw]

@[simp] theorem sub_eq_ok {a b s : Int} : sub a b = .ok s ↔ Fits (a - b) ∧ a - b = s := by
  unfold sub
  split <;> simp_all [pure, Except.pure, throw, throwThe, MonadExceptOf.throw]

end Word64

namespace Word32

/-- The greatest unsigned 32-bit integer, `2 ^ 32 - 1`. -/
def greatest : Nat := 4294967295

/-- One more than a 32-bit count, or `Overflow.add` past `greatest`. -/
def succ (n : Nat) : Checked Nat :=
  if n + 1 ≤ greatest then pure (n + 1) else throw .add

end Word32

namespace Word512

/-- Coefficients are unsigned 512-bit integers: every value is below `2 ^ 512`. -/
def bound : Nat := Nat.pow 2 512

/-- The sum of two coefficients, or `Overflow.wide` past `2 ^ 512`. -/
def add (a b : Nat) : Checked Nat :=
  if a + b < bound then pure (a + b) else throw .wide

/-- The difference of two coefficients, or `Overflow.wide` below zero. -/
def sub (a b : Nat) : Checked Nat :=
  if b ≤ a then pure (a - b) else throw .wide

/-- The product of two coefficients, or `Overflow.wide` past `2 ^ 512`. -/
def mul (a b : Nat) : Checked Nat :=
  if a * b < bound then pure (a * b) else throw .wide

end Word512

end TickGrid
