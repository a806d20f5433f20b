import TickGrid.Proofs.Decimal.Quotient

/-!
# Correctly rounded distances

`Decimal.absDiff` orders its operands by magnitude and then takes one of two routes. When the
smaller is zero, or its leading digit lies more than `workingDigits + 2` places below the larger
one's, it returns the larger magnitude itself, unrounded. Otherwise it aligns both coefficients at
the smaller exponent, subtracts or adds them by sign, and rounds.

The shortcut is still the correctly rounded distance: the smaller operand moves the distance
away from the larger magnitude by less than a thousandth of the unit of its last kept digit,
far less than the half unit a rounding to `workingDigits` digits could absorb, and the larger
magnitude has at most `workingDigits` digits, so it is its own rounding. This holds also when
the larger magnitude is a power of ten, because the bound is taken against the unit of its own
decade, which the distance never leaves downward by more than the smaller operand.

The one failure is in the exponent arithmetic: the gap between the leading positions is a 64-bit
difference, and it overflows for operands at opposite ends of the exponent range
(`absDiff_far_exponent_overflows`).

So a distance is the exact distance rounded half-even, with a clear sign flag (`absDiff_holds`); it
is zero exactly for equal operands and does not depend on their order (`absDiff_rounds_distance`).
-/

namespace TickGrid

namespace Decimal

/-- The rounding that ends every operation keeps the sign flag it is given, except that a zero
coefficient gives the canonical zero. -/
lemma ofParts_negative {negative : Bool} {c : ℕ} {e : ℤ} (hc : c < 10 ^ 155) :
    Checked.Holds (· = .add) (fun r => r.negative = (negative && c != 0)) (ofParts negative c e) := by
  by_cases hc0 : c = 0
  · rw [ofParts, if_pos hc0, Checked.pure_eq, Checked.holds_ok]
    simp [zero, hc0]
  · rw [ofParts, if_neg hc0]
    refine (roundSig_spec (x := ⟨negative, c, e⟩) (by decide) hc).mono (fun _ h => h) ?_
    intro r hr
    simp [hr.negative_eq, hc0]

/-- The magnitude of a decimal is worth the absolute value of the decimal. -/
lemma val_abs (x : Decimal) : x.abs.val = |x.val| := by
  rw [abs_val]
  simp [val, abs]

/-! ## The shortcut -/

/-- A decimal moves a larger one of at most `D` digits by less than a thousandth of a unit of the
larger one's last place when its leading digit stands more than `D + 2` places lower; the
distance then rounds to `D` digits to the larger magnitude itself. -/
lemma roundSignificant_abs_sub_of_far {big small : Decimal} {D : ℕ} (hD : 0 < D)
    (hb0 : big.coefficient ≠ 0) (hbc : big.coefficient < 10 ^ 155)
    (hcount : digitCount big.coefficient ≤ D) (hsc : small.coefficient < 10 ^ 155)
    (hfar : small.exponent + digitCount small.coefficient + (D + 2) <
      big.exponent + digitCount big.coefficient) :
    roundSignificant D |big.val - small.val| = |big.val| := by
  set k := big.exponent + digitCount big.coefficient - D with hk
  -- the smaller operand is below the unit of the larger one's last place, over a thousand
  have hsmall : |small.val| ≤ 10 ^ (k - 3) := by
    by_cases hs0 : small.coefficient = 0
    · rw [(val_eq_zero_iff small).2 hs0, abs_zero]
      positivity
    calc |small.val| ≤ 10 ^ (small.exponent + digitCount small.coefficient - 1 + 1) :=
          (abs_val_bounds hs0 hsc).2.le
      _ ≤ 10 ^ (k - 3) := zpow_le_zpow_right₀ (by norm_num) (by omega)
  have hunit : (10 : ℚ) ^ k = 10 ^ (k - 3) * 1000 := by
    rw [show k = k - 3 + 3 by ring, zpow_add₀ (by norm_num)]
    norm_num
  have hnear : |(|big.val - small.val|) - big.coefficient * 10 ^ big.exponent| <
      10 ^ (big.exponent + digitCount big.coefficient - D) / 20 := by
    rw [← abs_val, ← hk, hunit]
    calc |(|big.val - small.val| - |big.val|)| ≤ |big.val - small.val - big.val| :=
          abs_abs_sub_abs_le_abs_sub _ _
      _ = |small.val| := by rw [sub_sub_cancel_left, abs_neg]
      _ < 10 ^ (k - 3) * 1000 / 20 := by linarith [zpow_pos (by norm_num : (0 : ℚ) < 10) (k - 3)]
  rw [abs_val]
  exact roundSignificant_eq_of_near hD hb0 hbc hcount hnear

/-- The larger magnitude returned by the shortcut is the distance rounded to `workingDigits`
digits, both when the smaller operand is zero and when it lies far below. -/
lemma val_abs_eq_roundSignificant {a b big small : Decimal} (ha : a.Narrow) (hb : b.Narrow)
    (hwhich : big = a ∧ small = b ∨ big = b ∧ small = a) (hle : |small.val| ≤ |big.val|)
    (hfar : small.coefficient = 0 ∨ small.exponent + digitCount small.coefficient +
      (workingDigits + 2) < big.exponent + digitCount big.coefficient) :
    big.abs.val = roundSignificant workingDigits |a.val - b.val| := by
  have hbig : big.Narrow ∧ small.Narrow := by
    rcases hwhich with ⟨rfl, rfl⟩ | ⟨rfl, rfl⟩
    · exact ⟨ha, hb⟩
    · exact ⟨hb, ha⟩
  have hdist : |a.val - b.val| = |big.val - small.val| := by
    rcases hwhich with ⟨rfl, rfl⟩ | ⟨rfl, rfl⟩
    · rfl
    · exact abs_sub_comm _ _
  rw [val_abs, hdist]
  by_cases hs0 : small.coefficient = 0
  · -- a zero operand: the distance is the larger magnitude, of at most `workingDigits` digits
    rw [(val_eq_zero_iff small).2 hs0, sub_zero, ← val_abs,
      roundSignificant_val_of_digitCount_le (x := big.abs) hbig.1.lt_ten_pow hbig.1.digitCount_le]
  have hb0 : big.coefficient ≠ 0 := by
    intro h
    rw [(val_eq_zero_iff big).2 h, abs_zero] at hle
    exact hs0 ((val_eq_zero_iff small).1 (abs_nonpos_iff.1 hle))
  exact (roundSignificant_abs_sub_of_far (by decide) hb0 hbig.1.lt_ten_pow
    hbig.1.digitCount_le hbig.2.lt_ten_pow (hfar.resolve_left hs0)).symm

/-! ## Distances -/

/-- A distance between decimals of the working width, with 64-bit exponents, has a clear sign flag
and is the exact distance rounded half-even to `workingDigits` digits; it fails only in the
exponent arithmetic, and only at an exponent past `2 ^ 61` in magnitude. -/
theorem absDiff_holds {a b : Decimal} (ha : a.Narrow) (hb : b.Narrow)
    (hea : Word64.Fits a.exponent) (heb : Word64.Fits b.exponent) :
    Checked.Holds (fun f => f.InExponent ∧ ¬ (a.Moderate ∧ b.Moderate))
      (fun r => r.negative = false ∧ r.val = roundSignificant workingDigits |a.val - b.val|)
      (a.absDiff b) := by
  refine absDiff_unless ha hb hea heb (fun big small hwhich hle hfar => ⟨rfl, ?_⟩) ?_
  · exact val_abs_eq_roundSignificant ha hb hwhich hle hfar
  -- the aligned route: the sum or difference of the aligned coefficients, rounded with no sign
  intro c hc hcv
  have hroom : a.Moderate ∧ b.Moderate →
      Word64.Fits (min a.exponent b.exponent) ∧
        min a.exponent b.exponent + digitCount c ≤ Word64.greatest := by
    rintro ⟨hma, hmb⟩
    rw [Moderate, abs_le] at hma hmb
    exact fits_room hc (abs_le.2 ⟨by omega, by omega⟩)
  refine ((ofParts_unless hc hroom).and ((ofParts_holds hc).and (ofParts_negative hc))).mono
    (fun _ h => h) ?_
  rintro r ⟨-, ⟨hval, -⟩, hneg⟩
  refine ⟨by simpa using hneg, ?_⟩
  rw [hval, ← hcv]
  simp

/-- Distances between decimals of the working width with 64-bit exponents: a distance has a clear
sign flag and is `|a - b|` rounded half-even to `workingDigits` digits, through the shortcut as
well as the aligned route; it is zero exactly when the operands are equal, and the two orders
give equal values. It fails only when an exponent of the computation leaves the 64-bit range, in
the exponent arithmetic and with an operand exponent past `2 ^ 61` in magnitude. -/
theorem absDiff_rounds_distance {a b : Decimal} (ha : a.Narrow) (hb : b.Narrow)
    (hea : Word64.Fits a.exponent) (heb : Word64.Fits b.exponent) :
    Checked.Holds (fun f => f.InExponent ∧ ¬ (a.Moderate ∧ b.Moderate))
      (fun r => r.negative = false ∧ r.val = roundSignificant workingDigits |a.val - b.val| ∧
        (r.isZero = true ↔ a.val = b.val)) (a.absDiff b) ∧
    (∀ r r', a.absDiff b = .ok r → b.absDiff a = .ok r' → r.val = r'.val) := by
  refine ⟨(absDiff_holds ha hb hea heb).mono (fun _ h => h) ?_, fun r r' hr hr' => ?_⟩
  · rintro r ⟨hneg, hval⟩
    refine ⟨hneg, hval, ?_⟩
    -- a zero rounding is the rounding of zero
    rw [isZero, beq_iff_eq, ← val_eq_zero_iff, hval, roundSignificant_eq_zero_iff (by decide),
      abs_eq_zero, sub_eq_zero]
  · rw [((absDiff_holds ha hb hea heb).1 r hr).2, ((absDiff_holds hb ha heb hea).1 r' hr').2,
      abs_sub_comm]

/-- The distance from ten to `9.75`, of the working width, meets the whole specification. -/
theorem absDiff_rounds_distance_quarter :
    Decimal.Narrow ⟨false, 1000, -2⟩ ∧ Decimal.Narrow ⟨false, 975, -2⟩ ∧
    Word64.Fits (-2) ∧ Word64.Fits (-2) ∧
    (Checked.Holds (fun f => f.InExponent ∧
        ¬ (Decimal.Moderate ⟨false, 1000, -2⟩ ∧ Decimal.Moderate ⟨false, 975, -2⟩))
      (fun r => r.negative = false ∧ r.val = roundSignificant workingDigits
          |Decimal.val ⟨false, 1000, -2⟩ - Decimal.val ⟨false, 975, -2⟩| ∧
        (r.isZero = true ↔ Decimal.val ⟨false, 1000, -2⟩ = Decimal.val ⟨false, 975, -2⟩))
      (Decimal.absDiff ⟨false, 1000, -2⟩ ⟨false, 975, -2⟩) ∧
    (∀ r r', Decimal.absDiff ⟨false, 1000, -2⟩ ⟨false, 975, -2⟩ = .ok r →
      Decimal.absDiff ⟨false, 975, -2⟩ ⟨false, 1000, -2⟩ = .ok r' → r.val = r'.val)) :=
  ⟨by decide, by decide, by decide, by decide,
    absDiff_rounds_distance (a := ⟨false, 1000, -2⟩) (b := ⟨false, 975, -2⟩) (by decide) (by decide)
      (by decide) (by decide)⟩

/-- Operands at opposite ends of the exponent range make the gap between their leading positions
overflow. -/
theorem absDiff_far_exponent_overflows :
    Decimal.absDiff ⟨false, 1, 9223372036854775747⟩ ⟨false, 1, -999999999⟩ = .error .sub := by
  decide

end Decimal

end TickGrid
