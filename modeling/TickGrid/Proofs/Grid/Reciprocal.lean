import TickGrid.Proofs.Grid.RoundTrip

/-!
# Reciprocal prices

`reciprocal p` is the price of the second token in the first: the working reciprocal of `p`,
rounded to `priceDigits` digits. For the price of a grid tick `t` it is within a factor
`inverseFactor` of `1.0001 ^ -t`, so within a relative `10 ^ -48` of the price of `-t`, and it lies
in the cell of `-t`.

The reciprocal of a price is not computed the way the price of `-t` is: it inverts a price already
rounded to fifty digits, where the price of `-t` inverts the seventy-digit power and rounds once.
At the ends of the grid the bounds are exactly such prices, and the reciprocal of the greatest
price ends one unit of its fiftieth digit below the least price (`reciprocal_greatest_lt_least`),
so the search rejects it as out of bounds. Every other grid tick comes back negated.

The reciprocal of a grid-sized decimal is within three rounding factors of the exact one
(`reciprocal_near`), which places the reciprocal of the price of `t` near the price of `-t` and in
the cell of `-t` (`reciprocal_priceOfTick_near_priceOfTick_neg`).
-/

namespace TickGrid

namespace Grid

open Decimal

/-! ## The reciprocal of a price -/

/-- The error of the reciprocal of a grid price against `1.0001 ^ -t`: the price's, two working
roundings of the quotient and one rounding to `priceDigits` digits. -/
def inverseFactor : ℚ := roundingFactor priceDigits * roundingFactor workingDigits ^ 2 * priceFactor

lemma one_le_inverseFactor : 1 ≤ inverseFactor :=
  one_le_mul_of_one_le_of_one_le
    (one_le_mul_of_one_le_of_one_le (one_le_roundingFactor _)
      (one_le_pow₀ (one_le_roundingFactor _)))
    one_le_priceFactor

/-- The errors of a reciprocal price and of a price, together, stay below `10 ^ -48`: about
`3 * 10 ^ -49` from the three roundings to fifty digits. -/
lemma inverseFactor_mul_priceFactor_le : inverseFactor * priceFactor ≤ 1 + 1 / 10 ^ 48 := by
  have hp : priceFactor ≤ (1 + 1 / 10 ^ 49) * (1 + 1 / 10 ^ 63) := by
    unfold priceFactor
    rw [roundingFactor_priceDigits]
    exact mul_le_mul_of_nonneg_left powerFactor_le (by positivity)
  have hp₀ : 0 ≤ priceFactor := zero_le_one.trans one_le_priceFactor
  unfold inverseFactor
  rw [roundingFactor_priceDigits, roundingFactor_workingDigits]
  calc (1 + 1 / 10 ^ 49) * (1 + 1 / 10 ^ 69) ^ 2 * priceFactor * priceFactor
      ≤ (1 + 1 / 10 ^ 49) * (1 + 1 / 10 ^ 69) ^ 2 * ((1 + 1 / 10 ^ 49) * (1 + 1 / 10 ^ 63)) *
          ((1 + 1 / 10 ^ 49) * (1 + 1 / 10 ^ 63)) := by gcongr
    _ ≤ 1 + 1 / 10 ^ 48 := by norm_num

lemma inverseFactor_le : inverseFactor ≤ 1 + 1 / 10 ^ 48 :=
  (le_mul_of_one_le_right (zero_le_one.trans one_le_inverseFactor) one_le_priceFactor).trans
    inverseFactor_mul_priceFactor_le

/-- The reciprocal of a working decimal between `2 ^ -113` and `2 ^ 113` is a positive decimal of
`priceDigits` digits within three rounding factors of the exact reciprocal. -/
theorem reciprocal_near {p : Decimal} (hp : p.Working) (hlo : 1 / 2 ^ 113 ≤ p.val)
    (hhi : p.val ≤ 2 ^ 113) :
    ∃ q, (reciprocal p).run = .ok (.ok q) ∧ q.Positive priceDigits ∧
      Near (roundingFactor priceDigits * roundingFactor workingDigits ^ 2) q.val p.val⁻¹ := by
  obtain ⟨r, hr, hrw, hrnear⟩ := recip_working hp hlo hhi
  obtain ⟨q, hq, hqpos, hqnear⟩ := hrw.roundSig_near (by decide : 0 < priceDigits)
  have hpos : p.isPositive = true := hp.positive.isPositive
  refine ⟨q, ?_, hqpos, hqnear.trans hrnear (zero_le_one.trans (one_le_roundingFactor _))
    (by positivity)⟩
  unfold reciprocal
  simp only [hpos, Bool.not_true, Bool.false_eq_true, if_false]
  rw [hr, lift_ok_bind]
  exact run_lift_eq_ok.2 hq

/-- The reciprocal of the price of a grid tick `t` is a positive decimal of `priceDigits` digits
within `inverseFactor` of `1.0001 ^ -t`. -/
theorem reciprocal_priceOfTick_near {t : ℤ} (ht : t.natAbs ≤ maxTick) :
    ∃ p q, (priceOfTick t).run = .ok (.ok p) ∧ (reciprocal p).run = .ok (.ok q) ∧
      q.Positive priceDigits ∧ Near inverseFactor q.val (base.val ^ (-t)) := by
  obtain ⟨p, hp, hppos, -, hpnear⟩ := priceOfTick_near ht
  have hpcoeff : p.coefficient < 10 ^ workingDigits :=
    hppos.coefficient_lt.trans_le (Nat.pow_le_pow_right (by norm_num) (by decide))
  obtain ⟨hpw, hplo, hphi⟩ := (inRange_of_priceOfTick ht hp).working hpcoeff
  obtain ⟨q, hq, hqpos, hqnear⟩ := reciprocal_near hpw hplo hphi
  have hinv : Near priceFactor p.val⁻¹ (base.val ^ (-t)) := by
    rw [zpow_neg]
    exact hpnear.inv hpw.positive.val_pos (zpow_pos base_val_pos t)
  refine ⟨p, q, hp, hq, hqpos, ?_⟩
  exact hqnear.trans hinv
    (mul_nonneg (zero_le_one.trans (one_le_roundingFactor _))
      (pow_nonneg (zero_le_one.trans (one_le_roundingFactor _)) 2))
    (zero_le_one.trans one_le_priceFactor)

/-! ## The bounds of the grid -/

/-- The least price, `1.0001 ^ -559680` to fifty digits. -/
lemma least_eq :
    least = .ok ⟨false, 49501879141031926803716668950556122201712697359760, -74⟩ := by
  decide +kernel

/-- The greatest price, `1.0001 ^ 559680` to fifty digits. -/
lemma greatest_eq :
    greatest = .ok ⟨false, 20201253313050567664522663583894637866306666249963, -25⟩ := by
  decide +kernel

/-- The reciprocal of the least price rounds one unit of its last digit below the greatest. -/
lemma reciprocal_least :
    (reciprocal ⟨false, 49501879141031926803716668950556122201712697359760, -74⟩).run =
      .ok (.ok ⟨false, 20201253313050567664522663583894637866306666249962, -25⟩) := by
  decide +kernel

/-- The reciprocal of the greatest price rounds one unit of its last digit below the least. -/
lemma reciprocal_greatest :
    (reciprocal ⟨false, 20201253313050567664522663583894637866306666249963, -25⟩).run =
      .ok (.ok ⟨false, 49501879141031926803716668950556122201712697359759, -74⟩) := by
  decide +kernel

/-- A positive working decimal below the least price is out of bounds for the search, whatever
the logarithm. -/
lemma tickOfPriceWith_of_lt_least {logBase : Binary64 → ℤ} {p lo : Decimal} (hp : p.Working)
    (hlo : least = .ok lo) (hlt : p.val < lo.val) :
    ∃ hi, (tickOfPriceWith logBase p).run = .ok (.error (.priceOutOfBounds p lo hi)) := by
  obtain ⟨lo', hi, hlo', hhi, hlow, -, -, -⟩ := bounds_ok
  rw [hlo] at hlo'
  cases hlo'
  have hpos : p.isPositive = true := hp.positive.isPositive
  refine ⟨hi, ?_⟩
  unfold tickOfPriceWith
  simp only [hpos, Bool.not_true, Bool.false_eq_true, if_false]
  rw [hlo, lift_ok_bind, hhi, lift_ok_bind, cmp_eq hp.bounded hlow.bounded, lift_ok_bind,
    compare_lt_iff_lt.2 hlt]
  rfl

/-! ## The reciprocal of the price of a tick -/

/-- The reciprocal of the price of a grid tick `t` is within a relative `10 ^ -48` of the price of
`-t`. Its tick is `-t` for every `t` below the top of the grid; at the top it falls below the least
price and the search rejects it as out of bounds. -/
theorem reciprocal_priceOfTick_near_priceOfTick_neg {t : ℤ} (ht : t.natAbs ≤ maxTick) :
    ∃ p q p', (priceOfTick t).run = .ok (.ok p) ∧ (reciprocal p).run = .ok (.ok q) ∧
      (priceOfTick (-t)).run = .ok (.ok p') ∧ |q.val - p'.val| ≤ p'.val / 10 ^ 48 ∧
      (t ≠ maxTick → ∀ logBase, LogBaseSound logBase →
        (tickOfPriceWith logBase q).run = .ok (.ok (-t))) ∧
      (t = maxTick → ∀ logBase, ∃ lo hi, q.val < lo.val ∧
        (tickOfPriceWith logBase q).run = .ok (.error (.priceOutOfBounds q lo hi))) := by
  obtain ⟨p, q, hp, hq, hqpos, hqnear⟩ := reciprocal_priceOfTick_near ht
  have hnt : (-t).natAbs ≤ maxTick := by rwa [Int.natAbs_neg]
  obtain ⟨p', hp', hp'pos, -, hp'near⟩ := priceOfTick_near hnt
  have hk₀ : (0 : ℚ) < inverseFactor := zero_lt_one.trans_le one_le_inverseFactor
  have hqcoeff : q.coefficient < 10 ^ workingDigits :=
    hqpos.coefficient_lt.trans_le (Nat.pow_le_pow_right (by norm_num) (by decide))
  -- the relative error against the price of `-t`, from the two errors against `1.0001 ^ -t`
  have herr : |q.val - p'.val| ≤ p'.val / 10 ^ 48 := by
    have h := hqnear.abs_sub_le hp'near hk₀.le (zero_le_one.trans one_le_priceFactor)
      (one_le_mul_of_one_le_of_one_le one_le_inverseFactor one_le_priceFactor) hp'pos.val_pos
    calc |q.val - p'.val| ≤ (inverseFactor * priceFactor - 1) * p'.val := h
      _ ≤ 1 / 10 ^ 48 * p'.val := mul_le_mul_of_nonneg_right
          (by linarith [inverseFactor_mul_priceFactor_le]) hp'pos.val_pos.le
      _ = p'.val / 10 ^ 48 := by ring
  have hqw : q.Working := by
    have hb := base_val_zpow_bounds hnt
    exact working_of_near_grid (hqpos.mono (by decide)) hqnear (inverseFactor_le.trans (by norm_num))
      hb.1 (hb.2.trans (by norm_num))
  refine ⟨p, q, p', hp, hq, hp', herr, ?_, ?_⟩
  · intro htop logBase hlog
    obtain ⟨lo, hlo, -, -, hlonear⟩ := priceOfTick_near (t := -maxTick) (by simp)
    obtain ⟨hi, hhi, -, -, hhinear⟩ := priceOfTick_near (t := maxTick) (by simp)
    -- below the top tick the reciprocal is above the least price; below the greatest price
    -- except at the bottom tick, where it is the reciprocal of the least price
    have hrange : InRange q := by
      refine ⟨lo, hi, ?_, ?_, ?_, ?_⟩
      · rwa [priceOfTick_neg_maxTick, run_lift_eq_ok] at hlo
      · rwa [priceOfTick_maxTick, run_lift_eq_ok] at hhi
      · exact (lt_of_near_zpow hlonear hqnear priceFactor_le hk₀ inverseFactor_le (by omega)).le
      · by_cases hbot : t = -maxTick
        · subst hbot
          rw [priceOfTick_neg_maxTick, run_lift_eq_ok, least_eq] at hp
          cases hp
          rw [reciprocal_least] at hq
          cases hq
          rw [priceOfTick_maxTick, run_lift_eq_ok, greatest_eq] at hhi
          cases hhi
          norm_num [val]
        · exact (lt_of_near_zpow hqnear hhinear inverseFactor_le
            (zero_lt_one.trans_le one_le_priceFactor) priceFactor_le (by omega)).le
    exact tickOfPriceWith_eq_of_inCell hlog hqcoeff hrange
      (inCell_of_near (by omega) (by omega) hqnear hk₀ inverseFactor_le)
  · rintro rfl logBase
    -- the price of the top tick is the greatest price, whose reciprocal is below the least
    rw [priceOfTick_maxTick, run_lift_eq_ok, greatest_eq] at hp
    cases hp
    rw [reciprocal_greatest] at hq
    cases hq
    obtain ⟨hi, hhi⟩ := @tickOfPriceWith_of_lt_least logBase _ _ hqw least_eq
      (by norm_num [val])
    exact ⟨_, hi, by norm_num [val], hhi⟩

/-- The reciprocal of the price of tick one against the price of tick minus one, and its tick
with a logarithm that answers zero there as the platform logarithm does. -/
theorem reciprocal_priceOfTick_one_near_priceOfTick_neg_one : (1 : ℤ).natAbs ≤ maxTick ∧
    LogBaseSound (fun _ => 0) ∧
    ∃ p q p', (priceOfTick 1).run = .ok (.ok p) ∧ (reciprocal p).run = .ok (.ok q) ∧
      (priceOfTick (-1)).run = .ok (.ok p') ∧ |q.val - p'.val| ≤ p'.val / 10 ^ 48 ∧
      (tickOfPriceWith (fun _ => 0) q).run = .ok (.ok (-1)) := by
  obtain ⟨p, q, p', hp, hq, hp', herr, htick, -⟩ :=
    reciprocal_priceOfTick_near_priceOfTick_neg (t := 1) (by decide)
  exact ⟨by decide, logBaseSound_zero, p, q, p', hp, hq, hp', herr,
    htick (by decide) _ logBaseSound_zero⟩

/-- The reciprocal of the greatest price, which is the price of `maxTick`, is below the least
price, and the search rejects it as out of bounds whatever the logarithm: its tick is not
`-maxTick`. -/
theorem reciprocal_greatest_lt_least :
    ∃ p q lo, (priceOfTick maxTick).run = .ok (.ok p) ∧ (reciprocal p).run = .ok (.ok q) ∧
      least = .ok lo ∧ q.val < lo.val ∧ ∀ logBase,
        ∃ hi, (tickOfPriceWith logBase q).run = .ok (.error (.priceOutOfBounds q lo hi)) := by
  have hqw : (⟨false, 49501879141031926803716668950556122201712697359759, -74⟩ : Decimal).Working :=
    ⟨⟨rfl, by decide, by decide⟩, by norm_num⟩
  refine ⟨_, _, _, ?_, reciprocal_greatest, least_eq, by norm_num [val], fun logBase =>
    tickOfPriceWith_of_lt_least hqw least_eq (by norm_num [val])⟩
  rw [priceOfTick_maxTick, run_lift_eq_ok, greatest_eq]

end Grid

end TickGrid
