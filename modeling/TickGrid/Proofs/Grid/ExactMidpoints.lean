import TickGrid.Proofs.Grid.Search

/-!
# Computed and exact midpoints

The tick of a price is decided by the computed midpoints `upperMidpoint t`, the working price of
`t` times the seventy-digit root `sqrtBase`, and not by the exact geometric midpoints
`1.0001 ^ (t + 1/2)`. The two agree to a relative `10 ^ -48`, so the tick found brackets the
price between the exact midpoints up to that factor (`tickOfPriceWith_near_exact_midpoints`);
a price that falls between a computed midpoint and the exact one gets the neighbouring tick
(`computed_midpoint_below_exact_midpoint`).
-/

namespace TickGrid

namespace Grid

open Decimal

/-! ## The exact midpoints -/

/-- The exact midpoint above `t` as the grid price of `t` times the root of the ratio. -/
lemma rpow_add_half (t : ℤ) :
    (1.0001 : ℝ) ^ ((t : ℝ) + 1 / 2) = ((base.val ^ t : ℚ) : ℝ) * Real.sqrt 1.0001 := by
  rw [Real.rpow_add (by norm_num), Real.rpow_intCast, ← Real.sqrt_eq_rpow, base_val]
  push_cast
  norm_num

/-- `sqrtBase` is the root of `1.0001` rounded up, by less than a relative `10 ^ -69`. -/
lemma sqrtBase_bounds :
    Real.sqrt 1.0001 ≤ (sqrtBase.val : ℝ) ∧
      (sqrtBase.val : ℝ) ≤ (1 + 1 / 10 ^ 69) * Real.sqrt 1.0001 := by
  have hS : (0 : ℝ) ≤ sqrtBase.val := by exact_mod_cast sqrtBase_working.positive.val_pos.le
  have hsq₁ : (1.0001 : ℝ) ≤ (sqrtBase.val : ℝ) ^ 2 := by
    rw [sqrtBase_val]
    push_cast
    norm_num
  have hsq₂ : (sqrtBase.val : ℝ) ^ 2 ≤ ((1 + 1 / 10 ^ 69) * Real.sqrt 1.0001) ^ 2 := by
    rw [mul_pow, Real.sq_sqrt (by norm_num), sqrtBase_val]
    push_cast
    norm_num
  constructor
  · calc Real.sqrt 1.0001 ≤ Real.sqrt ((sqrtBase.val : ℝ) ^ 2) := Real.sqrt_le_sqrt hsq₁
      _ = sqrtBase.val := Real.sqrt_sq hS
  · exact (pow_le_pow_iff_left₀ hS (by positivity) two_ne_zero).1 hsq₂

lemma midpointFactor_cast_le : (midpointFactor : ℝ) ≤ 1 + 1 / 10 ^ 48 := by
  have h : ((midpointFactor : ℚ) : ℝ) ≤ ((1 + 1 / 10 ^ 48 : ℚ) : ℝ) :=
    Rat.cast_le.2 midpointFactor_le
  push_cast at h
  exact h

/-! ## The bracket by the exact midpoints -/

/-- The exact midpoint above a grid tick is at most the computed one, up to `10 ^ -48`: the root
is under `sqrtBase`, and the computed midpoint within `midpointFactor` of the grid price times
`sqrtBase`. -/
lemma exact_midpoint_le_upperMidpoint {t : ℤ} {m : Decimal} (ht : t.natAbs ≤ maxTick)
    (hm : upperMidpoint t = .ok m) :
    (1.0001 : ℝ) ^ ((t : ℝ) + 1 / 2) ≤ (1 + 1 / 10 ^ 48) * (m.val : ℝ) := by
  obtain ⟨m', hm', hw, hnear⟩ := upperMidpoint_near ht
  rw [hm] at hm'
  cases hm'
  have hX : (0 : ℝ) ≤ ((base.val ^ t : ℚ) : ℝ) := Rat.cast_nonneg.2 (zpow_pos base_val_pos _).le
  have hm₀ : (0 : ℝ) ≤ m.val := Rat.cast_nonneg.2 hw.positive.val_pos.le
  have hq : ((base.val ^ t : ℚ) : ℝ) * sqrtBase.val ≤ midpointFactor * m.val := by
    exact_mod_cast hnear.2
  calc (1.0001 : ℝ) ^ ((t : ℝ) + 1 / 2) = ((base.val ^ t : ℚ) : ℝ) * Real.sqrt 1.0001 :=
        rpow_add_half t
    _ ≤ ((base.val ^ t : ℚ) : ℝ) * sqrtBase.val := mul_le_mul_of_nonneg_left sqrtBase_bounds.1 hX
    _ ≤ midpointFactor * m.val := hq
    _ ≤ (1 + 1 / 10 ^ 48) * m.val := mul_le_mul_of_nonneg_right midpointFactor_cast_le hm₀

/-- The computed midpoint above a grid tick is at most the exact one, up to `10 ^ -47`: the
rounding of the midpoint and the excess of `sqrtBase` over the root together stay under it. -/
lemma upperMidpoint_le_exact_midpoint {t : ℤ} {m : Decimal} (ht : t.natAbs ≤ maxTick)
    (hm : upperMidpoint t = .ok m) :
    (m.val : ℝ) ≤ (1 + 1 / 10 ^ 47) * (1.0001 : ℝ) ^ ((t : ℝ) + 1 / 2) := by
  have hS := sqrtBase_bounds
  have hX : (0 : ℝ) ≤ ((base.val ^ t : ℚ) : ℝ) := Rat.cast_nonneg.2 (zpow_pos base_val_pos _).le
  have hR : (0 : ℝ) ≤ ((base.val ^ t : ℚ) : ℝ) * Real.sqrt 1.0001 :=
    mul_nonneg hX (Real.sqrt_nonneg _)
  have hq : (m.val : ℝ) ≤ midpointFactor * (((base.val ^ t : ℚ) : ℝ) * sqrtBase.val) := by
    exact_mod_cast (near_of_upperMidpoint ht hm).1
  rw [rpow_add_half]
  calc (m.val : ℝ) ≤ midpointFactor * (((base.val ^ t : ℚ) : ℝ) * sqrtBase.val) := hq
    _ ≤ (1 + 1 / 10 ^ 48) * (((base.val ^ t : ℚ) : ℝ) * ((1 + 1 / 10 ^ 69) * Real.sqrt 1.0001)) :=
        mul_le_mul midpointFactor_cast_le (mul_le_mul_of_nonneg_left hS.2 hX)
          (mul_nonneg hX ((Real.sqrt_nonneg _).trans hS.1)) (by positivity)
    _ = (1 + 1 / 10 ^ 48) * (1 + 1 / 10 ^ 69) * (((base.val ^ t : ℚ) : ℝ) * Real.sqrt 1.0001) := by
        ring
    _ ≤ (1 + 1 / 10 ^ 47) * (((base.val ^ t : ℚ) : ℝ) * Real.sqrt 1.0001) :=
        mul_le_mul_of_nonneg_right (by norm_num) hR

/-- The tick of a price within the bounds is the cell of the computed midpoints that holds it,
`upperMidpoint (t - 1) ≤ p < upperMidpoint t`, and so lies between the exact midpoints around it
up to a relative `10 ^ -47`: the computed midpoints are within `midpointFactor` of the grid prices
times `sqrtBase`, and `sqrtBase` within `10 ^ -69` of the root. The bounds below are dropped at
`-maxTick` and the bounds above at `maxTick`. -/
theorem tickOfPriceWith_near_exact_midpoints {logBase : Binary64 → ℤ}
    (hlog : LogBaseSound logBase) {p : Decimal} (hp : p.coefficient < 10 ^ workingDigits)
    (hr : InRange p) :
    ∃ t, (tickOfPriceWith logBase p).run = .ok (.ok t) ∧ -(maxTick : ℤ) ≤ t ∧ t ≤ maxTick ∧
      InCell p t ∧
      (t = -maxTick ∨ (1.0001 : ℝ) ^ ((t : ℝ) - 1 / 2) ≤ (1 + 1 / 10 ^ 47) * (p.val : ℝ)) ∧
      (t = maxTick ∨ (p.val : ℝ) < (1 + 1 / 10 ^ 47) * (1.0001 : ℝ) ^ ((t : ℝ) + 1 / 2)) := by
  obtain ⟨c, hc⟩ := exists_inCell p
  have ⟨hc₁, hc₂, hlow, hhigh⟩ := hc
  have hp₀ : (0 : ℝ) ≤ p.val := by exact_mod_cast ((hr.working hp).1.positive.val_pos.le)
  refine ⟨c, tickOfPriceWith_eq_of_inCell hlog hp hr hc, hc₁, hc₂, hc, ?_, ?_⟩
  · -- the exact midpoint below is under the computed one, which is at most `p`
    by_cases hbot : c = -maxTick
    · exact .inl hbot
    obtain ⟨m, hm, hle⟩ := hlow.resolve_left hbot
    have hle' : (m.val : ℝ) ≤ p.val := by exact_mod_cast hle
    right
    calc (1.0001 : ℝ) ^ ((c : ℝ) - 1 / 2) = (1.0001 : ℝ) ^ (((c - 1 : ℤ) : ℝ) + 1 / 2) := by
          push_cast
          ring_nf
      _ ≤ (1 + 1 / 10 ^ 48) * m.val := exact_midpoint_le_upperMidpoint (by omega) hm
      _ ≤ (1 + 1 / 10 ^ 48) * p.val := mul_le_mul_of_nonneg_left hle' (by positivity)
      _ ≤ (1 + 1 / 10 ^ 47) * p.val := mul_le_mul_of_nonneg_right (by norm_num) hp₀
  · -- `p` is under the computed midpoint above, which is under the exact one up to the factors
    by_cases htop : c = maxTick
    · exact .inl htop
    obtain ⟨m, hm, hlt⟩ := hhigh.resolve_left htop
    have hlt' : (p.val : ℝ) < m.val := by exact_mod_cast hlt
    exact .inr (hlt'.trans_le (upperMidpoint_le_exact_midpoint (by omega) hm))

/-- The bracket at the price one, the price of tick zero, with a logarithm that answers zero
there as the platform logarithm does. -/
theorem tickOfPriceWith_near_exact_midpoints_one : LogBaseSound (fun _ => 0) ∧
    one.coefficient < 10 ^ workingDigits ∧ InRange one ∧
    ∃ t, (tickOfPriceWith (fun _ => 0) one).run = .ok (.ok t) ∧ -(maxTick : ℤ) ≤ t ∧
      t ≤ maxTick ∧ InCell one t ∧
      (t = -maxTick ∨ (1.0001 : ℝ) ^ ((t : ℝ) - 1 / 2) ≤ (1 + 1 / 10 ^ 47) * (one.val : ℝ)) ∧
      (t = maxTick ∨ (one.val : ℝ) < (1 + 1 / 10 ^ 47) * (1.0001 : ℝ) ^ ((t : ℝ) + 1 / 2)) :=
  ⟨logBaseSound_zero, by decide, inRange_of_priceOfTick (by decide) priceOfTick_zero,
    tickOfPriceWith_near_exact_midpoints logBaseSound_zero (by decide)
      (inRange_of_priceOfTick (by decide) priceOfTick_zero)⟩

/-! ## A price between a computed and an exact midpoint -/

/-- A price between two prices within the bounds is within the bounds. -/
lemma InRange.of_le_of_le {a b p : Decimal} (ha : InRange a) (hb : InRange b)
    (hap : a.val ≤ p.val) (hpb : p.val ≤ b.val) : InRange p := by
  obtain ⟨lo, hi, hlo, hhi, hla, -⟩ := ha
  obtain ⟨lo', hi', -, hhi', -, hbh⟩ := hb
  rw [hhi] at hhi'
  cases hhi'
  exact ⟨lo, hi, hlo, hhi, hla.trans hap, hpb.trans hbh⟩

/-- A computed midpoint between two grid ticks lies in the cell of the tick above it, the cells
being closed below, and within the bounds. -/
lemma inCell_upperMidpoint {t : ℤ} {m : Decimal} (h₁ : -(maxTick : ℤ) ≤ t) (h₂ : t + 1 < maxTick)
    (hm : upperMidpoint t = .ok m) : InCell m (t + 1) ∧ InRange m := by
  have hm₀ : upperMidpoint (t + 1 - 1) = .ok m := by rwa [add_sub_cancel_right]
  obtain ⟨m', hm', -⟩ := upperMidpoint_ok (show -(maxTick : ℤ) ≤ t + 1 by omega) h₂
  obtain ⟨p₁, hp₁, -⟩ := priceOfTick_near (show t.natAbs ≤ maxTick by omega)
  obtain ⟨p₂, hp₂, -⟩ := priceOfTick_near (show (t + 1).natAbs ≤ maxTick by omega)
  refine ⟨⟨by omega, by omega, .inr ⟨m, hm₀, le_rfl⟩,
    .inr ⟨m', hm', upperMidpoint_lt_upperMidpoint (by omega) (by omega) (by omega) hm hm'⟩⟩, ?_⟩
  -- the midpoint lies between the prices of the two ticks
  exact (inRange_of_priceOfTick (by omega) hp₁).of_le_of_le (inRange_of_priceOfTick (by omega) hp₂)
    (priceOfTick_lt_upperMidpoint (by omega) hp₁ hm).le
    (upperMidpoint_lt_priceOfTick (by omega) (by omega) hp₂ hm₀).le

/-- The computed midpoint above tick `100` lies below the exact midpoint `1.0001 ^ 100.5`: the
price equal to it is within the bounds and gets tick `101` whatever the logarithm, although it is
below `1.0001 ^ (101 - 1/2)`. -/
theorem computed_midpoint_below_exact_midpoint :
    let p₀ : Decimal :=
      ⟨false, 1010100163313482259226016379759079644863473763776726733652623983840647, -69⟩
    InRange p₀ ∧ ∀ logBase, LogBaseSound logBase →
      (tickOfPriceWith logBase p₀).run = .ok (.ok 101) ∧
        (p₀.val : ℝ) < (1.0001 : ℝ) ^ (((101 : ℤ) : ℝ) - 1 / 2) := by
  intro p₀
  have hm : upperMidpoint 100 = .ok p₀ := by
    have h : (upperMidpoint 100).toOption = some p₀ := by decide +kernel
    revert h
    cases upperMidpoint 100 with
    | error e => intro h; cases h
    | ok m => intro h; cases h; rfl
  obtain ⟨hcell, hrange⟩ := inCell_upperMidpoint (by decide) (by decide) hm
  have hcoeff : p₀.coefficient < 10 ^ workingDigits := by decide
  refine ⟨hrange, fun logBase hlog => ⟨tickOfPriceWith_eq_of_inCell hlog hcoeff hrange hcell, ?_⟩⟩
  -- `p₀ ^ 2 < 1.0001 ^ 201`, compared as squares
  have hsq : p₀.val ^ 2 < (base.val ^ (100 : ℤ)) ^ 2 * (10001 / 10000) := by
    rw [base_val]
    norm_num [p₀, Decimal.val]
  have hX : (0 : ℝ) ≤ ((base.val ^ (100 : ℤ) : ℚ) : ℝ) :=
    Rat.cast_nonneg.2 (zpow_pos base_val_pos _).le
  rw [show ((101 : ℤ) : ℝ) - 1 / 2 = ((100 : ℤ) : ℝ) + 1 / 2 by norm_num, rpow_add_half]
  refine lt_of_pow_lt_pow_left₀ 2 (mul_nonneg hX (Real.sqrt_nonneg _)) ?_
  rw [mul_pow, Real.sq_sqrt (by norm_num)]
  have hsqR : ((p₀.val ^ 2 : ℚ) : ℝ) < (((base.val ^ (100 : ℤ)) ^ 2 * (10001 / 10000) : ℚ) : ℝ) :=
    Rat.cast_lt.2 hsq
  push_cast at hsqR
  norm_num at hsqR ⊢
  exact hsqR

end Grid

end TickGrid
