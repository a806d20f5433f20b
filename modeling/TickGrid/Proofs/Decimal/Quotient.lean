import TickGrid.Proofs.Decimal.Width
import TickGrid.Proofs.Decimal.Faithful

/-!
# Correctly rounded quotients

`Decimal.div?` shifts the dividend to `workingDigits + 1` digits more than the divisor, so that
the integer quotient has `workingDigits + 1` or `workingDigits + 2` digits, appends a sticky digit
that is one exactly when the division leaves a remainder, and rounds to `workingDigits` digits.
The rounding drops at least the last two digits. When the division is inexact, the sticky
quotient and the exact one lie strictly between the same two consecutive multiples of ten, so
neither is ever half-way between two kept values and both round alike. A quotient is therefore
the exact quotient rounded half-even, not merely within a rounding factor of it (`div_near`).

The exponent of a quotient is the difference of the exponents lowered by the shift and by the
sticky digit. When that leaves the 64-bit range the division stops with an overflow; exponents
at most `2 ^ 62` apart never do, but the reciprocal of `10 ^ e` for `e` within `70` of the top
of the range does (`recip?_far_exponent_overflows`).

Rounding the sticky quotient is rounding the exact quotient (`roundSignificant_sticky`), so a
quotient by a non-zero decimal fails only in the exponent arithmetic and is otherwise the exact
quotient rounded half-even to `workingDigits` digits (`div?_holds`). `div?_rounds_quotient` gathers
the behaviour of quotients and reciprocals.
-/

namespace TickGrid

/-! ## Sticky digits -/

/-- A value strictly between `10 * Q` and `10 * Q + 10`, scaled down by `10 ^ k` with `k ≥ 2`,
rounds half-even as `Q` alone decides: the dropped part is the last `k - 1` digits of `Q`
followed by a non-zero fraction of their last unit, so it is never exactly half-way. -/
lemma roundHalfEven_div_of_between {Q k : ℕ} (hk : 2 ≤ k) {y : ℚ} (hlo : 10 * (Q : ℚ) < y)
    (hhi : y < 10 * Q + 10) :
    roundHalfEven (y / 10 ^ k) =
      ((Q / 10 ^ (k - 1) + if Q % 10 ^ (k - 1) < 10 ^ (k - 1) / 2 then 0 else 1 : ℕ) : ℤ) := by
  set P := 10 ^ (k - 1) with hP
  have hPpos : 0 < P := Nat.pow_pos (by norm_num)
  have heven : 2 * (P / 2) = P := two_mul_ten_pow_div_two (by omega)
  have hdm : Q = P * (Q / P) + Q % P := (Nat.div_add_mod Q P).symm
  have hmod : Q % P < P := Nat.mod_lt Q hPpos
  have hten : (10 : ℚ) ^ k = 10 * P := by
    rw [hP, Nat.cast_pow, Nat.cast_ofNat, ← pow_succ']
    congr 1
    omega
  have hPq : (0 : ℚ) < P := by exact_mod_cast hPpos
  set A := Q / P
  set m := Q % P
  have hQq : (Q : ℚ) = P * A + m := by exact_mod_cast hdm
  have hmP : (m : ℚ) + 1 ≤ P := by exact_mod_cast hmod
  -- the distance to the chosen integer, measured in units of the dropped places
  have key : |y - 10 * P * ((A + if m < P / 2 then 0 else 1 : ℕ) : ℚ)| < 5 * P := by
    rw [abs_lt]
    split_ifs with hhalf
    · have h2 : 2 * (m : ℚ) + 2 ≤ P := by exact_mod_cast (show 2 * m + 2 ≤ P by omega)
      push_cast
      constructor <;> linarith
    · have h2 : (P : ℚ) ≤ 2 * m := by exact_mod_cast (show P ≤ 2 * m by omega)
      push_cast
      constructor <;> linarith
  apply roundHalfEven_eq_of_abs_sub_lt
  rw [Int.cast_natCast, hten]
  have hsplit : y / (10 * P) - ((A + if m < P / 2 then 0 else 1 : ℕ) : ℚ) =
      (y - 10 * P * ((A + if m < P / 2 then 0 else 1 : ℕ) : ℚ)) / (10 * P) := by
    field_simp
  rw [hsplit, abs_div, abs_of_pos (by positivity : (0 : ℚ) < 10 * P), div_lt_iff₀ (by positivity)]
  linarith

/-- Rounding to `D` digits a rational `z * 10 ^ e`, where `z` has its leading digit at place `j`
and at least `D` digits before the point, is rounding `z` half-even at its place `j + 1 - D`. -/
lemma roundSignificant_mul_zpow_of_lead {D j : ℕ} (hD : D ≤ j + 1) {z : ℚ}
    (hlo : (10 : ℚ) ^ j ≤ z) (hhi : z < 10 ^ (j + 1)) (e : ℤ) :
    roundSignificant D (z * 10 ^ e) =
      roundHalfEven (z / 10 ^ (j + 1 - D)) * 10 ^ ((j : ℤ) + 1 + e - D) := by
  have he : (0 : ℚ) < 10 ^ e := by positivity
  have hshift : (10 : ℚ) ^ ((j : ℤ) + 1 + e - D) = 10 ^ (j + 1 - D) * 10 ^ e := by
    rw [← zpow_natCast, ← zpow_add₀ (by norm_num)]
    congr 1
    push_cast [hD]
    ring
  have hunit : lastUnit D (z * 10 ^ e) = 10 ^ ((j : ℤ) + 1 + e - D) := by
    rw [lastUnit_of_zpow_le_of_lt (j := (j : ℤ) + e)]
    · congr 1
      ring
    · rw [zpow_add₀ (by norm_num), zpow_natCast]
      exact mul_le_mul_of_nonneg_right hlo he.le
    · rw [show (j : ℤ) + e + 1 = ((j + 1 : ℕ) : ℤ) + e by push_cast; ring,
        zpow_add₀ (by norm_num), zpow_natCast]
      exact mul_lt_mul_of_pos_right hhi he
  rw [roundSignificant_eq, hunit, hshift, mul_div_mul_right _ _ he.ne']

/-- Rounding to `D` digits at any exponent a value strictly between `10 * Q` and `10 * Q + 10`,
for `Q` of more than `D` digits, gives what rounding `10 * Q + 1` gives: the two have their
leading digit at the same place, so both drop the same `k ≥ 2` last digits, where they round
alike. -/
lemma roundSignificant_of_between {Q D : ℕ} (hQ : 10 ^ D ≤ Q) {y : ℚ} (hlo : 10 * (Q : ℚ) < y)
    (hhi : y < 10 * Q + 10) (e : ℤ) :
    roundSignificant D (y * 10 ^ e) = roundSignificant D (((10 * Q + 1 : ℕ) : ℚ) * 10 ^ e) := by
  set L := Nat.log 10 Q with hL
  have hQ0 : Q ≠ 0 := (Nat.pos_of_ne_zero (by positivity)).trans_le hQ |>.ne'
  have hDL : D ≤ L := Nat.le_log_of_pow_le (by norm_num) hQ
  have hlead : (10 : ℚ) ^ L ≤ Q := by exact_mod_cast Nat.pow_log_le_self 10 hQ0
  have hnext : (Q : ℚ) + 1 ≤ 10 ^ (L + 1) := by
    exact_mod_cast Nat.lt_pow_succ_log_self (by norm_num : 1 < 10) Q
  -- from `10 * Q` to `10 * Q + 10` the leading digit stands at `L + 1`
  have hround : ∀ z : ℚ, 10 * (Q : ℚ) ≤ z → z < 10 * Q + 10 →
      roundSignificant D (z * 10 ^ e) =
        roundHalfEven (z / 10 ^ (L + 1 + 1 - D)) * 10 ^ (((L + 1 : ℕ) : ℤ) + 1 + e - D) :=
    fun z hz₁ hz₂ => roundSignificant_mul_zpow_of_lead (by omega)
      (by rw [pow_succ]; linarith) (by rw [pow_succ]; linarith) e
  have hc : ((10 * Q + 1 : ℕ) : ℚ) = 10 * Q + 1 := by push_cast; ring
  have hlo' : 10 * (Q : ℚ) < ((10 * Q + 1 : ℕ) : ℚ) := by rw [hc]; linarith
  have hhi' : ((10 * Q + 1 : ℕ) : ℚ) < 10 * Q + 10 := by rw [hc]; linarith
  rw [hround y hlo.le hhi, hround _ hlo'.le hhi', roundHalfEven_div_of_between (by omega) hlo hhi,
    roundHalfEven_div_of_between (by omega) hlo' hhi']

namespace Decimal

/-- The sticky digit: `N / d` followed by a digit that is one exactly when the division leaves a
remainder rounds, at any exponent and to `D` digits when the quotient has more than `D`, as the
exact `10 * N / d` does. -/
lemma roundSignificant_sticky {N d D : ℕ} (hd : 0 < d) (hN : 10 ^ D * d ≤ N) (e : ℤ) :
    roundSignificant D ((stickyQuotient N d : ℚ) * 10 ^ e) =
      roundSignificant D (10 * N / d * 10 ^ e) := by
  have hQ : 10 ^ D ≤ N / d := (Nat.le_div_iff_mul_le hd).2 hN
  have hdq : (0 : ℚ) < d := by exact_mod_cast hd
  have hdiv : (N : ℚ) = (N / d : ℕ) * d + (N % d : ℕ) := by
    exact_mod_cast (Nat.div_add_mod' N d).symm
  unfold stickyQuotient
  by_cases hr : N % d = 0
  · -- an exact division: the sticky digit is zero and the quotient is exact
    rw [if_pos hr, hdiv, hr]
    congr 2
    push_cast
    field_simp
    ring
  · rw [if_neg hr, show N / d * 10 + 1 = 10 * (N / d) + 1 by ring]
    have hr₀ : (0 : ℚ) < (N % d : ℕ) := by exact_mod_cast Nat.pos_of_ne_zero hr
    have hr₁ : ((N % d : ℕ) : ℚ) < d := by exact_mod_cast Nat.mod_lt N hd
    refine (roundSignificant_of_between hQ ?_ ?_ e).symm
    · rw [lt_div_iff₀ hdq, hdiv]
      nlinarith
    · rw [div_lt_iff₀ hdq, hdiv]
      nlinarith

/-- The sticky quotient at the exponent `div?` gives it rounds as the exact quotient does. -/
lemma roundSignificant_stickyQuotient {a b : Decimal} (ha : a.Narrow) (hb : b.Narrow)
    (ha0 : a.coefficient ≠ 0) (hb0 : b.coefficient ≠ 0) :
    roundSignificant workingDigits ((if (a.negative != b.negative) = true then -1 else 1) *
        (stickyQuotient (a.coefficient * 10 ^ quotientShift a b) b.coefficient : ℕ) *
        10 ^ (a.exponent - b.exponent - quotientShift a b - 1)) =
      roundSignificant workingDigits (a.val / b.val) := by
  obtain ⟨-, hNlo⟩ : _ ∧ 10 ^ workingDigits * b.coefficient ≤
      a.coefficient * 10 ^ quotientShift a b := scaled_dividend_bounds (Nat.pos_of_ne_zero ha0) ha hb
  rw [val_div_val a b (quotientShift a b), mul_assoc, roundSignificant_sign_mul,
    roundSignificant_sign_mul, roundSignificant_sticky (Nat.pos_of_ne_zero hb0) hNlo]

/-! ## Signs -/

/-- A decimal is negative exactly when its value is. -/
lemma isNegative_iff_val_neg (x : Decimal) : x.isNegative = true ↔ x.val < 0 :=
  ⟨val_neg_of_isNegative, fun h => by
    by_contra hx
    exact (val_nonneg_of_isNegative_false (Bool.eq_false_iff.2 hx)).not_gt h⟩

/-- A rounded quotient by a non-zero decimal is negative exactly when one operand is negative and
the rounding is not zero. -/
lemma isNegative_iff_of_val_eq {a b q : Decimal} {D : ℕ} (hD : 0 < D) (hb0 : b.coefficient ≠ 0)
    (hq : q.val = roundSignificant D (a.val / b.val)) :
    q.isNegative = true ↔ a.isNegative ≠ b.isNegative ∧ q.coefficient ≠ 0 := by
  have hbv : b.val ≠ 0 := (val_eq_zero_iff b).not.2 hb0
  have hq0 : q.coefficient ≠ 0 ↔ a.val ≠ 0 := by
    rw [ne_eq, ← val_eq_zero_iff q, hq, roundSignificant_eq_zero_iff hD, div_eq_zero_iff]
    simp [hbv]
  have ha := isNegative_iff_val_neg a
  have hb := isNegative_iff_val_neg b
  rw [isNegative_iff_val_neg, hq, roundSignificant_neg_iff hD, hq0, div_neg_iff]
  grind

/-! ## Quotients -/

/-- What a quotient by a non-zero decimal returns: the exact quotient rounded half-even to
`workingDigits` digits, of the working width, the canonical zero for a zero dividend, and negative
exactly when one operand is and the quotient is not zero. -/
structure RoundsQuotient (a b q : Decimal) : Prop where
  val_eq : q.val = roundSignificant workingDigits (a.val / b.val)
  narrow : q.Narrow
  eq_zero : a.coefficient = 0 → q = zero
  isNegative_iff : q.isNegative = true ↔ a.isNegative ≠ b.isNegative ∧ q.coefficient ≠ 0

/-- A reciprocal is worth the reciprocal rounded to `workingDigits` digits. -/
lemma RoundsQuotient.val_eq_inv {b q : Decimal} (h : RoundsQuotient one b q) :
    q.val = roundSignificant workingDigits b.val⁻¹ := by
  rw [h.val_eq, one_val, one_div]

lemma one_narrow : one.Narrow := by decide

/-- A quotient by a non-zero decimal, both of the working width, fails only in the exponent
arithmetic and otherwise returns the exact quotient rounded half-even. -/
theorem div?_holds {a b : Decimal} (ha : a.Narrow) (hb : b.Narrow) (hb0 : b.coefficient ≠ 0) :
    Checked.Holds Overflow.InExponent (fun o => ∃ q, o = some q ∧ RoundsQuotient a b q)
      (a.div? b) := by
  by_cases ha0 : a.coefficient = 0
  · have hav : a.val = 0 := (val_eq_zero_iff a).2 ha0
    rw [show a.div? b = .ok (some zero) by simp [div?, isZero, ha0, hb0], Checked.holds_ok]
    refine ⟨zero, rfl, ⟨?_, by simp [zero, Narrow], fun _ => rfl, ?_⟩⟩
    · rw [hav, zero_div, roundSignificant_zero]
      simp [zero, val]
    · simp [zero, isNegative]
  have hc := (stickyQuotient_le ha hb ha0).trans_lt (by norm_num : (10 : ℕ) ^ 142 < 10 ^ 155)
  rw [div?_eq_ofParts ha hb ha0 hb0]
  refine (Word64.sub_inExponent _ _).bind fun e₁ he₁ => ?_
  refine (Word64.sub_inExponent _ _).bind fun e₂ he₂ => ?_
  refine (Word64.sub_inExponent _ _).bind fun e₃ he₃ => ?_
  refine (ofParts_holds hc).of_add.map ?_
  rintro q ⟨hval, hq⟩
  subst he₁ he₂ he₃
  have hqv : q.val = roundSignificant workingDigits (a.val / b.val) := by
    rw [hval, roundSignificant_stickyQuotient ha hb ha0 hb0]
  exact ⟨q, rfl, hqv, hq, fun h => absurd h ha0, isNegative_iff_of_val_eq (by decide) hb0 hqv⟩

/-- Quotients of decimals of the working width, and reciprocals: a quotient is `none` exactly for
a zero divisor; by a non-zero divisor it is the exact quotient rounded half-even to
`workingDigits` digits (the canonical zero for a zero dividend, negative exactly when one operand
is and the quotient is not zero), unless an exponent of the computation leaves the 64-bit range,
which never happens when the exponents are at most `2 ^ 62` apart; a reciprocal of a non-zero
decimal is `1 / b` so rounded, and returns for an exponent of magnitude at most `2 ^ 62`. -/
theorem div?_rounds_quotient {a b : Decimal} (ha : a.Narrow) (hb : b.Narrow) :
    (a.div? b = .ok none ↔ b.coefficient = 0) ∧
    (b.coefficient ≠ 0 → Checked.Holds Overflow.InExponent
      (fun o => ∃ q, o = some q ∧ RoundsQuotient a b q) (a.div? b)) ∧
    (b.coefficient ≠ 0 → |a.exponent - b.exponent| ≤ 2 ^ 62 → ∃ q, a.div? b = .ok (some q)) ∧
    (b.coefficient ≠ 0 → Checked.Holds Overflow.InExponent
      (fun o => ∃ r, o = some r ∧ RoundsQuotient one b r) b.recip?) ∧
    (b.coefficient ≠ 0 → |b.exponent| ≤ 2 ^ 62 → ∃ r, b.recip? = .ok (some r)) := by
  refine ⟨⟨fun h => ?_, fun h => by simp [div?, isZero, h]⟩, div?_holds ha hb,
    div?_ok ha hb, div?_holds one_narrow hb,
    fun hb0 he => div?_ok one_narrow hb hb0 (by simpa [one] using he)⟩
  -- a non-zero divisor never gives `none`: the quotient either fails or is some decimal
  by_contra hb0
  obtain ⟨q, hq, -⟩ := (div?_holds ha hb hb0).1 none h
  exact Option.some_ne_none q hq.symm

/-- The quotient of one by three, of the working width, meets the whole specification. -/
theorem div?_rounds_quotient_third :
    one.Narrow ∧ (⟨false, 3, 0⟩ : Decimal).Narrow ∧
    ((one.div? ⟨false, 3, 0⟩ = .ok none ↔ (3 : ℕ) = 0) ∧
    ((3 : ℕ) ≠ 0 → Checked.Holds Overflow.InExponent
      (fun o => ∃ q, o = some q ∧ RoundsQuotient one ⟨false, 3, 0⟩ q) (one.div? ⟨false, 3, 0⟩)) ∧
    ((3 : ℕ) ≠ 0 → |one.exponent - (0 : ℤ)| ≤ 2 ^ 62 →
      ∃ q, one.div? ⟨false, 3, 0⟩ = .ok (some q)) ∧
    ((3 : ℕ) ≠ 0 → Checked.Holds Overflow.InExponent
      (fun o => ∃ r, o = some r ∧ RoundsQuotient one ⟨false, 3, 0⟩ r)
      (Decimal.recip? ⟨false, 3, 0⟩)) ∧
    ((3 : ℕ) ≠ 0 → |(0 : ℤ)| ≤ 2 ^ 62 → ∃ r, Decimal.recip? ⟨false, 3, 0⟩ = .ok (some r))) :=
  ⟨by decide, by decide, div?_rounds_quotient (a := one) (b := ⟨false, 3, 0⟩) (by decide) (by decide)⟩

/-- The reciprocal of `10 ^ e` for an exponent `e` sixty below the top of the 64-bit range fails:
the quotient's exponent `-e - 71` is below the bottom of the range. -/
theorem recip?_far_exponent_overflows :
    (⟨false, 1, 9223372036854775747⟩ : Decimal).recip? = .error .sub := by
  decide +kernel

end Decimal

end TickGrid
