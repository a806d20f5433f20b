import TickGrid.Proofs.Grid.Reciprocal
import TickGrid.Proofs.Decimal.Quotient

/-!
# The reciprocal is an involution up to rounding

`reciprocal x` divides one by `x`, which rounds to `workingDigits` digits, and rounds the quotient
again to `priceDigits` digits. For every positive decimal of the working width that fails only in
the exponent arithmetic; otherwise it is the reciprocal within a relative
`5 * 10 ^ -50 + 10 ^ -69`, and applying it twice gives back `x` within a relative
`1.0001 * 10 ^ -49`: each application errs by at most the relative bound `E`, and the second one
inverts a value already off by `E`, which adds at most `E / (1 - E)`.

Only exponents decide whether the computation returns. An exponent of magnitude at most `2 ^ 61`
always does, twice over, but the reciprocal of `10 ^ e` for `e` sixty below the top of the 64-bit
range does not (`reciprocal_far_exponent_overflows`).

`reciprocal_holds` is one reciprocal, rounded twice; it returns when the exponent leaves room
(`reciprocal_ok`), and `reciprocal_involution` compares the reciprocal of the reciprocal with the
decimal itself.
-/

namespace TickGrid

/-! ## Relative errors -/

/-- Rounding a positive rational to `D ≥ 1` digits stays within a factor two of it. -/
lemma roundSignificant_within_two {D : ℕ} (hD : 0 < D) {u : ℚ} (hu : 0 < u) :
    u ≤ 2 * roundSignificant D u ∧ roundSignificant D u ≤ 2 * u := by
  have h := abs_roundSignificant_sub_le hD u
  rw [abs_of_pos hu] at h
  have hhalf : halfUnit D * u ≤ 1 / 2 * u := mul_le_mul_of_nonneg_right (halfUnit_le_half D) hu.le
  constructor <;> linarith [abs_le.1 (h.trans hhalf)]

lemma halfUnit_priceDigits : halfUnit Grid.priceDigits = 5 / 10 ^ 50 := by
  norm_num [halfUnit, Grid.priceDigits]

/-- Rounding a positive rational to `workingDigits` digits and then to `priceDigits` digits moves
it by at most a relative `5 * 10 ^ -50 + 10 ^ -69`: the second rounding's half unit, and the
first's, which is below a fifth of `10 ^ -69` even after the second scales it. -/
lemma abs_roundSignificant_twice_sub_le {u : ℚ} (hu : 0 < u) :
    |roundSignificant Grid.priceDigits (roundSignificant workingDigits u) - u| ≤
      (5 / 10 ^ 50 + 1 / 10 ^ 69) * u := by
  set v := roundSignificant workingDigits u with hv
  have hv0 : 0 < v := roundSignificant_pos (by decide) hu
  have h70 : |v - u| ≤ 5 / 10 ^ 70 * u := by
    simpa [abs_of_pos hu, halfUnit_workingDigits] using
      abs_roundSignificant_sub_le (D := workingDigits) (by decide) u
  have h50 : |roundSignificant Grid.priceDigits v - v| ≤ 5 / 10 ^ 50 * v := by
    simpa [abs_of_pos hv0, halfUnit_priceDigits] using
      abs_roundSignificant_sub_le (D := Grid.priceDigits) (by decide) v
  have hvu : v ≤ (1 + 5 / 10 ^ 70) * u := by linarith [abs_le.1 h70]
  calc |roundSignificant Grid.priceDigits v - u|
      ≤ |roundSignificant Grid.priceDigits v - v| + |v - u| := abs_sub_le _ _ _
    _ ≤ 5 / 10 ^ 50 * v + 5 / 10 ^ 70 * u := add_le_add h50 h70
    _ ≤ 5 / 10 ^ 50 * ((1 + 5 / 10 ^ 70) * u) + 5 / 10 ^ 70 * u := by gcongr
    _ ≤ (5 / 10 ^ 50 + 1 / 10 ^ 69) * u := by nlinarith

/-- Two reciprocals, each within a relative `E < 1` of the exact one, compose to within a relative
`2 * E / (1 - E)`: inverting `y` instead of `1 / x` costs `E / y`, and `1 / y` is at most
`x / (1 - E)`. -/
lemma abs_sub_le_of_inv_near {x y z E : ℚ} (hx : 0 < x) (hE : 0 ≤ E) (hE1 : E < 1)
    (hy : |y - x⁻¹| ≤ E * x⁻¹) (hz : |z - y⁻¹| ≤ E * y⁻¹) : |z - x| ≤ 2 * E / (1 - E) * x := by
  have hxi : 0 < x⁻¹ := inv_pos.2 hx
  have hylo : (1 - E) * x⁻¹ ≤ y := by linarith [abs_le.1 hy]
  have hy0 : 0 < y := (mul_pos (by linarith) hxi).trans_le hylo
  -- the first reciprocal is at least `(1 - E) / x`, so the second is at most `x / (1 - E)`
  have hyinv : y⁻¹ ≤ x / (1 - E) := by
    rw [inv_eq_one_div, div_le_div_iff₀ hy0 (by linarith)]
    have h := mul_le_mul_of_nonneg_left hylo hx.le
    rwa [mul_left_comm, mul_inv_cancel₀ hx.ne', mul_one, ← one_mul (1 - E)] at h
  have hmid : |y⁻¹ - x| ≤ E * y⁻¹ := by
    have hform : y⁻¹ - x = -(x * (y - x⁻¹) * y⁻¹) := by
      field_simp
      ring
    rw [hform, abs_neg, abs_mul, abs_mul, abs_of_pos hx, abs_of_pos (inv_pos.2 hy0)]
    calc x * |y - x⁻¹| * y⁻¹ ≤ x * (E * x⁻¹) * y⁻¹ := by gcongr
      _ = E * y⁻¹ := by field_simp
  calc |z - x| ≤ |z - y⁻¹| + |y⁻¹ - x| := abs_sub_le _ _ _
    _ ≤ E * y⁻¹ + E * y⁻¹ := add_le_add hz hmid
    _ = 2 * E * y⁻¹ := by ring
    _ ≤ 2 * E * (x / (1 - E)) := by gcongr
    _ = 2 * E / (1 - E) * x := by ring

namespace Decimal

/-- A decimal of positive value and at most `D` digits is positive with at most `D` digits. -/
lemma positive_of_val_pos {x : Decimal} {D : ℕ} (hx : 0 < x.val) (hc : x.coefficient < 10 ^ D) :
    x.Positive D := by
  have hc0 : x.coefficient ≠ 0 := fun h => hx.ne' ((val_eq_zero_iff x).2 h)
  refine ⟨?_, Nat.pos_of_ne_zero hc0, hc⟩
  by_contra hneg
  have hx' := val_neg_of_isNegative (x := x) (by simp [isNegative, hneg, hc0])
  linarith

/-- A positive decimal of at most `D` digits within a factor two of the reciprocal of a positive
decimal of the working width has its exponent near the negated exponent of that decimal. -/
lemma Positive.exponent_near_neg {x z : Decimal} {D : ℕ} (hx : x.Positive workingDigits)
    (hz : z.Positive D) (hlo : x.val⁻¹ ≤ 2 * z.val) (hhi : z.val ≤ 2 * x.val⁻¹) :
    -x.exponent - 71 - D < z.exponent ∧ z.exponent ≤ -x.exponent + 1 := by
  obtain ⟨hxlo, hxhi⟩ := hx.val_bounds
  -- the reciprocal lies in `(10 ^ (-e - 70), 10 ^ -e]` for the exponent `e` of `x`
  have hinvhi : x.val⁻¹ ≤ 10 ^ (-x.exponent) := by
    rw [zpow_neg]
    exact inv_anti₀ (by positivity) hxlo
  have hinvlo : 10 ^ (-x.exponent - 70) < x.val⁻¹ := by
    rw [show -x.exponent - 70 = -(x.exponent + workingDigits) by simp [workingDigits]; ring,
      zpow_neg]
    exact inv_strictAnti₀ hx.val_pos hxhi
  have hten : ∀ k : ℤ, (10 : ℚ) ^ (k + 1) = 10 * 10 ^ k := fun k => by
    rw [zpow_add_one₀ (by norm_num), mul_comm]
  constructor
  · have h := hz.le_exponent (B := -x.exponent - 71) (by
      have := hten (-x.exponent - 71)
      rw [show -x.exponent - 71 + 1 = -x.exponent - 70 by ring] at this
      linarith [zpow_pos (by norm_num : (0 : ℚ) < 10) (-x.exponent - 71)])
    omega
  · exact hz.exponent_le (by
      have := hten (-x.exponent)
      linarith [zpow_pos (by norm_num : (0 : ℚ) < 10) (-x.exponent)])

end Decimal

namespace Grid

open Decimal

/-! ## One reciprocal -/

/-- The reciprocal of a positive decimal, step by step: the quotient of one by it, then the
rounding to `priceDigits` digits. -/
lemma reciprocal_run {x : Decimal} (hx : x.isPositive = true) :
    (reciprocal x).run = x.recip? >>= fun o => match o with
      | some q => Except.ok <$> q.roundSig priceDigits
      | none => pure (.error .priceNotPositive) := by
  unfold reciprocal
  simp only [hx, Bool.not_true, Bool.false_eq_true, if_false]
  cases x.recip? with
  | error e => rfl
  | ok o => cases o <;> rfl

/-- The reciprocal of a positive decimal of the working width fails only in the exponent
arithmetic, and is otherwise a positive decimal of `priceDigits` digits worth the reciprocal
rounded twice: to `workingDigits` digits by the quotient, then to `priceDigits` digits. The
branch for a quotient that is not a decimal is never taken. -/
theorem reciprocal_holds {x : Decimal} (hx : x.Positive workingDigits) :
    Checked.Holds Overflow.InExponent (fun o => ∃ y, o = .ok y ∧ y.Positive priceDigits ∧
      y.val = roundSignificant priceDigits (roundSignificant workingDigits x.val⁻¹))
      (reciprocal x).run := by
  rw [reciprocal_run hx.isPositive]
  refine (div?_holds one_narrow hx.coefficient_lt hx.coefficient_pos.ne').bind ?_
  rintro _ ⟨q, rfl, hq⟩
  have hqv := hq.val_eq_inv
  refine (roundSig_holds (D := priceDigits) (by decide) hq.narrow.lt_ten_pow).of_add.map ?_
  rintro y ⟨hyv, hyc⟩
  have hy : 0 < y.val := by
    rw [hyv, hqv]
    exact roundSignificant_pos (by decide) (roundSignificant_pos (by decide) (inv_pos.2 hx.val_pos))
  exact ⟨y, rfl, positive_of_val_pos hy hyc, by rw [hyv, hqv]⟩

/-- The reciprocal of a positive decimal of the working width returns when its exponent is at
most `2 ^ 62 - 141` in magnitude: the quotient's exponent then lies within `141` of the negated
exponent, which leaves room for the rounding. -/
theorem reciprocal_ok {x : Decimal} (hx : x.Positive workingDigits)
    (he : |x.exponent| ≤ 2 ^ 62 - 141) : ∃ y, (reciprocal x).run = .ok (.ok y) := by
  have hx0 := hx.coefficient_pos.ne'
  rw [abs_le] at he
  obtain ⟨q, hq⟩ := div?_ok one_narrow hx.coefficient_lt hx0
    (by rw [show one.exponent = 0 from rfl, zero_sub, abs_neg, abs_le]; omega)
  obtain ⟨q', hq', hrq⟩ := (div?_holds one_narrow hx.coefficient_lt hx0).1 _ hq
  rw [Option.some_inj] at hq'
  subst hq'
  have hqv := hrq.val_eq_inv
  have hxi : 0 < x.val⁻¹ := inv_pos.2 hx.val_pos
  obtain ⟨hqlo, hqhi⟩ := roundSignificant_within_two (D := workingDigits) (by decide) hxi
  have hqpos : q.Positive workingDigits := positive_of_val_pos
    (by rw [hqv]; exact roundSignificant_pos (by decide) hxi) hrq.narrow
  obtain ⟨hqe₁, hqe₂⟩ := Positive.exponent_near_neg hx hqpos (by rw [hqv]; exact hqlo)
    (by rw [hqv]; exact hqhi)
  simp only [workingDigits, Nat.cast_ofNat] at hqe₁
  have hroom := fits_room (e := q.exponent) hrq.narrow.lt_ten_pow (abs_le.2 ⟨by omega, by omega⟩)
  obtain ⟨y, hy, -⟩ := roundSig_val (D := priceDigits) (by decide) hrq.narrow.lt_ten_pow
    hroom.1 hroom.2
  refine ⟨y, ?_⟩
  rw [reciprocal_run hx.isPositive, show x.recip? = _ from hq, Checked.ok_bind]
  show Except.ok <$> q.roundSig priceDigits = _
  rw [hy]
  rfl

/-! ## Two reciprocals -/

/-- A decimal worth the reciprocal of `x` rounded twice is within a relative
`5 * 10 ^ -50 + 10 ^ -69` of it. -/
lemma abs_val_sub_inv_le {x y : Decimal} (hx : 0 < x.val)
    (hy : y.val = roundSignificant priceDigits (roundSignificant workingDigits x.val⁻¹)) :
    |y.val - x.val⁻¹| ≤ (5 / 10 ^ 50 + 1 / 10 ^ 69) * x.val⁻¹ := by
  rw [hy]
  exact abs_roundSignificant_twice_sub_le (inv_pos.2 hx)

/-- The reciprocal of the reciprocal of a positive decimal of the working width: each reciprocal
fails only in the exponent arithmetic; the first is a positive decimal of `priceDigits` digits
within a relative `5 * 10 ^ -50 + 10 ^ -69` of `1 / x`, and the second gives back `x` within a
relative `1.0001 * 10 ^ -49`. Both return when the exponent of `x` is at most `2 ^ 61` in
magnitude. -/
theorem reciprocal_involution {x : Decimal} (hx : x.Positive workingDigits) :
    Checked.Holds Overflow.InExponent (fun o => ∃ y, o = .ok y ∧ y.Positive priceDigits ∧
        |y.val - x.val⁻¹| ≤ (5 / 10 ^ 50 + 1 / 10 ^ 69) * x.val⁻¹ ∧
        Checked.Holds Overflow.InExponent (fun o' => ∃ z, o' = .ok z ∧ z.Positive priceDigits ∧
          |z.val - x.val| ≤ 10001 / 10 ^ 53 * x.val) (reciprocal y).run)
      (reciprocal x).run ∧
    (|x.exponent| ≤ 2 ^ 61 →
      ∃ y z, (reciprocal x).run = .ok (.ok y) ∧ (reciprocal y).run = .ok (.ok z)) := by
  constructor
  · refine (reciprocal_holds hx).mono (fun _ h => h) ?_
    rintro _ ⟨y, rfl, hy, hyv⟩
    have hyx := abs_val_sub_inv_le hx.val_pos hyv
    refine ⟨y, rfl, hy, hyx, (reciprocal_holds (hy.mono (by decide))).mono (fun _ h => h) ?_⟩
    rintro _ ⟨z, rfl, hz, hzv⟩
    refine ⟨z, rfl, hz, ?_⟩
    -- the two relative errors compose to `2 E / (1 - E)`, just above `10 ^ -49`
    have hE : 2 * (5 / 10 ^ 50 + 1 / 10 ^ 69 : ℚ) / (1 - (5 / 10 ^ 50 + 1 / 10 ^ 69)) ≤
        10001 / 10 ^ 53 := by
      norm_num
    calc |z.val - x.val|
        ≤ 2 * (5 / 10 ^ 50 + 1 / 10 ^ 69) / (1 - (5 / 10 ^ 50 + 1 / 10 ^ 69)) * x.val :=
          abs_sub_le_of_inv_near hx.val_pos (by norm_num) (by norm_num) hyx
            (abs_val_sub_inv_le hy.val_pos hzv)
      _ ≤ 10001 / 10 ^ 53 * x.val := mul_le_mul_of_nonneg_right hE hx.val_pos.le
  · intro he
    rw [abs_le] at he
    obtain ⟨y, hy⟩ := reciprocal_ok hx (abs_le.2 ⟨by omega, by omega⟩)
    obtain ⟨y', hy', hyp, hyv⟩ := (reciprocal_holds hx).1 _ hy
    rw [Except.ok.injEq] at hy'
    subst hy'
    -- the first reciprocal is within a factor two of `1 / x`, so its exponent is near `-e`
    have hyx := abs_val_sub_inv_le hx.val_pos hyv
    have hxi : 0 < x.val⁻¹ := inv_pos.2 hx.val_pos
    obtain ⟨hye₁, hye₂⟩ := Positive.exponent_near_neg hx hyp
      (by linarith [abs_le.1 hyx]) (by linarith [abs_le.1 hyx])
    simp only [priceDigits, Nat.cast_ofNat] at hye₁
    obtain ⟨z, hz⟩ := reciprocal_ok (hyp.mono (by decide)) (abs_le.2 ⟨by omega, by omega⟩)
    exact ⟨y, z, hy, hz⟩

/-- The price four, of the working width, meets the whole specification. -/
theorem reciprocal_involution_four :
    Decimal.Positive workingDigits ⟨false, 4, 0⟩ ∧
    Checked.Holds Overflow.InExponent (fun o => ∃ y, o = .ok y ∧ y.Positive priceDigits ∧
        |y.val - (Decimal.val ⟨false, 4, 0⟩)⁻¹| ≤
          (5 / 10 ^ 50 + 1 / 10 ^ 69) * (Decimal.val ⟨false, 4, 0⟩)⁻¹ ∧
        Checked.Holds Overflow.InExponent (fun o' => ∃ z, o' = .ok z ∧ z.Positive priceDigits ∧
          |z.val - Decimal.val ⟨false, 4, 0⟩| ≤ 10001 / 10 ^ 53 * Decimal.val ⟨false, 4, 0⟩)
          (reciprocal y).run)
      (reciprocal ⟨false, 4, 0⟩).run ∧
    (|(0 : ℤ)| ≤ 2 ^ 61 → ∃ y z, (reciprocal ⟨false, 4, 0⟩).run = .ok (.ok y) ∧
      (reciprocal y).run = .ok (.ok z)) :=
  ⟨⟨rfl, by decide, by decide⟩, reciprocal_involution (x := ⟨false, 4, 0⟩) ⟨rfl, by decide, by decide⟩⟩

/-- The reciprocal of `10 ^ e` for an exponent `e` sixty below the top of the 64-bit range fails
in the quotient's exponent arithmetic. -/
theorem reciprocal_far_exponent_overflows :
    (reciprocal ⟨false, 1, 9223372036854775747⟩).run = .error .sub := by
  decide +kernel

end Grid

end TickGrid
