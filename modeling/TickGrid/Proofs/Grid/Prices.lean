import TickGrid.Proofs.Decimal.Arith
import TickGrid.Proofs.Decimal.Faithful
import TickGrid.Grid.Tick

/-!
# Accuracy and order of the grid prices

`priceAt t` computes `1.0001 ^ t` by square-and-multiply with at most `|t|` rounded products,
and a rounded reciprocal for a negative `t`; `priceOfTick` rounds it once more to `priceDigits`
digits, and `upperMidpoint` multiplies it by `sqrtBase`. Over the whole grid each of them is
within a factor `1 + 10 ^ -48` of its exact value, while consecutive ticks differ by the factor
`1.0001` and a price lies a factor of about `1.00005` from each of its midpoints. The errors are
far too small to reorder anything:

* `priceAt_near`, `priceOfTick_near`, `upperMidpoint_near`: the error bounds;
* `priceOfTick_lt_priceOfTick`: prices strictly increase with the tick;
* `upperMidpoint_lt_priceOfTick`, `priceOfTick_lt_upperMidpoint`: a price lies strictly between
  the midpoints below and above it;
* `upperMidpoint_lt_upperMidpoint`: midpoints strictly increase with the tick;
* `least` and `greatest` are the prices of `-maxTick` and `maxTick`, computed the same way.
-/

namespace TickGrid

namespace Near

/-- Two values known within factors `k` and `k'` of `A` and `B` are ordered when the exact
values are apart by more than both factors. -/
lemma lt_of_mul_lt {k k' a b A B : ℚ} (ha : Near k a A) (hb : Near k' b B) (hk' : 0 < k')
    (h : k * k' * A < B) : a < b := by
  have hscaled : k' * (k * A) < k' * b :=
    calc k' * (k * A) = k * k' * A := by ring
      _ < B := h
      _ ≤ k' * b := hb.2
  exact ha.1.trans_lt (lt_of_mul_lt_mul_left hscaled hk'.le)

end Near

namespace Grid

open Decimal

/-! ## The constants -/

lemma base_val : base.val = 10001 / 10000 := by norm_num [Decimal.val, base]

lemma sqrtBase_val : sqrtBase.val =
    1000049998750062496094023416993798697215498950656864788436870065842192 / 10 ^ 69 := by
  norm_num [Decimal.val, sqrtBase]

lemma one_le_base_val : 1 ≤ base.val := by
  rw [base_val]
  norm_num

lemma roundingFactor_workingDigits : roundingFactor workingDigits = 1 + 1 / 10 ^ 69 := by
  norm_num [roundingFactor, workingDigits]

lemma roundingFactor_priceDigits : roundingFactor priceDigits = 1 + 1 / 10 ^ 49 := by
  norm_num [roundingFactor, priceDigits]

lemma base_positive : base.Positive workingDigits := ⟨rfl, by decide, by decide⟩

lemma sqrtBase_working : sqrtBase.Working :=
  ⟨⟨rfl, by decide, by decide⟩, by norm_num [sqrtBase]⟩

/-- No power of the ratio on the grid exceeds `2 ^ 112`: `1.0001 ^ 5000 ≤ 2` by Bernoulli's
inequality, and `maxTick` is below `112 * 5000`. -/
lemma base_val_pow_le {n : ℕ} (hn : n ≤ maxTick) : base.val ^ n ≤ 2 ^ 112 := by
  have h5000 : base.val ^ 5000 ≤ 2 :=
    calc base.val ^ 5000 = (1 + 1 / 10000) ^ 5000 := by rw [base_val]; norm_num
      _ ≤ 1 / (1 - ((5000 : ℕ) : ℚ) * (1 / 10000)) :=
        Near.one_add_pow_le (by norm_num) (by norm_num) (by norm_num)
      _ = 2 := by norm_num
  calc base.val ^ n ≤ base.val ^ (5000 * 112) :=
        pow_le_pow_right₀ one_le_base_val (by unfold maxTick at hn; omega)
    _ = (base.val ^ 5000) ^ 112 := pow_mul _ _ _
    _ ≤ 2 ^ 112 := pow_le_pow_left₀ (by positivity) h5000 112

lemma base_val_pos : 0 < base.val := zero_lt_one.trans_le one_le_base_val

/-- Every price of the grid lies between `2 ^ -112` and `2 ^ 112`. -/
lemma base_val_zpow_bounds {t : ℤ} (ht : t.natAbs ≤ maxTick) :
    1 / 2 ^ 112 ≤ base.val ^ t ∧ base.val ^ t ≤ 2 ^ 112 := by
  have hpow := base_val_pow_le ht
  have hpos : 0 < base.val ^ t.natAbs := pow_pos base_val_pos _
  rcases Int.natAbs_eq t with h | h
  · rw [h, zpow_natCast]
    exact ⟨(by norm_num : (1 : ℚ) / 2 ^ 112 ≤ 1).trans (one_le_pow₀ one_le_base_val), hpow⟩
  · rw [h, zpow_neg, zpow_natCast]
    refine ⟨?_, (inv_le_one_of_one_le₀ (one_le_pow₀ one_le_base_val)).trans (by norm_num)⟩
    rw [one_div]
    exact inv_anti₀ hpos hpow

/-- A positive decimal within a factor two of a value between `2 ^ -112` and `2 ^ 113` is a
working decimal. -/
lemma working_of_near_grid {x : Decimal} {k V : ℚ} (hx : x.Positive workingDigits)
    (h : Near k x.val V) (hk : k ≤ 2) (hV : 1 / 2 ^ 112 ≤ V) (hV' : V ≤ 2 ^ 113) : x.Working :=
  hx.working_of_near h hk ((by norm_num : (1 : ℚ) / 10 ^ 99 ≤ 1 / 2 ^ 112).trans hV)
    (hV'.trans (by norm_num))

/-! ## Error factors -/

/-- The error of the working-precision price of any tick of the grid: one rounding factor for
each of at most `maxTick` products of the power, and two for the reciprocal. -/
def powerFactor : ℚ := roundingFactor workingDigits ^ (maxTick + 2)

/-- The error of a price handed out: the power's, and one rounding to `priceDigits` digits. -/
def priceFactor : ℚ := roundingFactor priceDigits * powerFactor

/-- The error of a midpoint: the power's, and one rounded product with `sqrtBase`. -/
def midpointFactor : ℚ := roundingFactor workingDigits * powerFactor

lemma one_le_powerFactor : 1 ≤ powerFactor := one_le_pow₀ (one_le_roundingFactor _)

/-- By Bernoulli's inequality the `maxTick + 2` rounding factors of `1 + 10 ^ -69` stay below
`1 + 10 ^ -63`. -/
lemma powerFactor_le : powerFactor ≤ 1 + 1 / 10 ^ 63 := by
  unfold powerFactor
  rw [roundingFactor_workingDigits]
  calc (1 + 1 / 10 ^ 69 : ℚ) ^ (maxTick + 2)
      ≤ 1 / (1 - ((maxTick + 2 : ℕ) : ℚ) * (1 / 10 ^ 69)) :=
        Near.one_add_pow_le (by norm_num) (by norm_num) (by norm_num [maxTick])
    _ ≤ 1 + 1 / 10 ^ 63 := by norm_num [maxTick]

lemma roundingFactor_pow_le {n : ℕ} (hn : n ≤ maxTick + 2) :
    roundingFactor workingDigits ^ n ≤ powerFactor :=
  pow_le_pow_right₀ (one_le_roundingFactor _) hn

lemma one_le_priceFactor : 1 ≤ priceFactor :=
  one_le_mul_of_one_le_of_one_le (one_le_roundingFactor _) one_le_powerFactor

lemma one_le_midpointFactor : 1 ≤ midpointFactor :=
  one_le_mul_of_one_le_of_one_le (one_le_roundingFactor _) one_le_powerFactor

lemma priceFactor_le : priceFactor ≤ 1 + 1 / 10 ^ 48 := by
  unfold priceFactor
  rw [roundingFactor_priceDigits]
  calc (1 + 1 / 10 ^ 49) * powerFactor ≤ (1 + 1 / 10 ^ 49) * (1 + 1 / 10 ^ 63) :=
        mul_le_mul_of_nonneg_left powerFactor_le (by positivity)
    _ ≤ 1 + 1 / 10 ^ 48 := by norm_num

lemma midpointFactor_le : midpointFactor ≤ 1 + 1 / 10 ^ 48 := by
  unfold midpointFactor
  rw [roundingFactor_workingDigits]
  calc (1 + 1 / 10 ^ 69) * powerFactor ≤ (1 + 1 / 10 ^ 69) * (1 + 1 / 10 ^ 63) :=
        mul_le_mul_of_nonneg_left powerFactor_le (by positivity)
    _ ≤ 1 + 1 / 10 ^ 48 := by norm_num

/-- Any two of the error factors together stay below `(1 + 10 ^ -48) ^ 2`. -/
lemma mul_factor_le {k k' : ℚ} (hk : k ≤ 1 + 1 / 10 ^ 48) (hk' : 0 ≤ k')
    (hk'₁ : k' ≤ 1 + 1 / 10 ^ 48) : k * k' ≤ (1 + 1 / 10 ^ 48) ^ 2 := by
  rw [sq]
  exact mul_le_mul hk hk'₁ hk' (by positivity)

/-! ## Accuracy of the prices and midpoints -/

/-- The working-precision price of every grid tick is within `powerFactor` of `1.0001 ^ t`. -/
theorem priceAt_near {t : ℤ} (ht : t.natAbs ≤ maxTick) :
    ∃ z, priceAt t = .ok z ∧ z.Working ∧ Near powerFactor z.val (base.val ^ t) := by
  set n := t.natAbs with hn
  have hK1 := one_le_roundingFactor workingDigits
  have hKn : roundingFactor workingDigits ^ n ≤ 2 :=
    (roundingFactor_pow_le (by omega)).trans (powerFactor_le.trans (by norm_num))
  have hXn : base.val ^ n ≤ 10 ^ 99 := (base_val_pow_le ht).trans (by norm_num)
  have hXn₁ : 1 ≤ base.val ^ n := one_le_pow₀ one_le_base_val
  obtain ⟨m, hm, hmpos, hmnear⟩ := pow_near base_positive one_le_base_val hKn hXn
  have hmw : m.Working :=
    hmpos.working_of_near hmnear hKn ((by norm_num : (1 : ℚ) / 10 ^ 99 ≤ 1).trans hXn₁) hXn
  unfold priceAt
  rw [hm, Checked.ok_bind]
  by_cases h0 : 0 ≤ t
  · -- the power itself
    rw [if_pos h0]
    refine ⟨m, rfl, hmw, ?_⟩
    rw [show base.val ^ t = base.val ^ n by rw [← zpow_natCast, hn, Int.natAbs_of_nonneg h0]]
    exact hmnear.mono (roundingFactor_pow_le (by omega)) hmw.positive.val_pos.le (by positivity)
  · -- the reciprocal of the power, two more rounding factors
    rw [if_neg h0]
    obtain ⟨r, hr, hrpos, hrnear⟩ := recip_near hmw
    rw [hr, Checked.ok_bind]
    have hinv : Near (roundingFactor workingDigits ^ n) m.val⁻¹ (base.val ^ n)⁻¹ :=
      hmnear.inv hmw.positive.val_pos (by positivity)
    have hnear : Near (roundingFactor workingDigits ^ (n + 2)) r.val (base.val ^ n)⁻¹ := by
      have h := hrnear.trans hinv (by positivity) (by positivity)
      rwa [← pow_add, add_comm 2 n] at h
    have hK2 : roundingFactor workingDigits ^ (n + 2) ≤ 2 :=
      (roundingFactor_pow_le (by omega)).trans (powerFactor_le.trans (by norm_num))
    refine ⟨r, rfl, hrpos.working_of_near hnear hK2 ?_ ?_, ?_⟩
    · rw [one_div]
      exact inv_anti₀ (by positivity) hXn
    · exact (inv_le_one_of_one_le₀ hXn₁).trans (by norm_num)
    · rw [show base.val ^ t = (base.val ^ n)⁻¹ by
        rw [← zpow_natCast, ← zpow_neg, hn, Int.ofNat_natAbs_of_nonpos (by omega), neg_neg]]
      exact hnear.mono (roundingFactor_pow_le (by omega)) hrpos.val_pos.le (by positivity)

/-- A grid tick's price is its working price rounded to `priceDigits` digits, as a range
computation. -/
lemma priceOfTick_eq {t : ℤ} (ht : t.natAbs ≤ maxTick) :
    priceOfTick t = lift (do (← priceAt t).roundSig priceDigits) := by
  unfold priceOfTick lift
  rw [if_neg (by omega)]
  cases priceAt t <;> rfl

/-- The least price is the price of `-maxTick`. -/
lemma priceOfTick_neg_maxTick : priceOfTick (-maxTick) = lift least :=
  priceOfTick_eq (by simp)

/-- The greatest price is the price of `maxTick`. -/
lemma priceOfTick_maxTick : priceOfTick maxTick = lift greatest :=
  priceOfTick_eq (by simp)

lemma run_lift_eq_ok {α : Type} {c : Checked α} {a : α} :
    (lift c).run = .ok (.ok a) ↔ c = .ok a := by
  cases c <;> simp [lift, ExceptT.run_lift, Functor.map, Except.map]

/-- The price of every grid tick is computed without overflow and is within `priceFactor` of
`1.0001 ^ t`. -/
theorem priceOfTick_near {t : ℤ} (ht : t.natAbs ≤ maxTick) :
    ∃ p, (priceOfTick t).run = .ok (.ok p) ∧ p.Positive priceDigits ∧ p.Working ∧
      Near priceFactor p.val (base.val ^ t) := by
  obtain ⟨z, hz, hzw, hzn⟩ := priceAt_near ht
  obtain ⟨p, hp, hppos, hpn⟩ := hzw.roundSig_near (by decide : 0 < priceDigits)
  have hnear : Near priceFactor p.val (base.val ^ t) :=
    hpn.trans hzn (zero_le_one.trans (one_le_roundingFactor _))
      (zero_le_one.trans one_le_powerFactor)
  have hbounds := base_val_zpow_bounds ht
  refine ⟨p, ?_, hppos, working_of_near_grid (hppos.mono (by decide)) hnear
    (priceFactor_le.trans (by norm_num)) hbounds.1 (hbounds.2.trans (by norm_num)), hnear⟩
  rw [priceOfTick_eq ht, run_lift_eq_ok, hz, Checked.ok_bind, hp]

/-- The midpoint above every grid tick is computed without overflow and is within
`midpointFactor` of `1.0001 ^ t * sqrtBase`. -/
theorem upperMidpoint_near {t : ℤ} (ht : t.natAbs ≤ maxTick) :
    ∃ m, upperMidpoint t = .ok m ∧ m.Working ∧
      Near midpointFactor m.val (base.val ^ t * sqrtBase.val) := by
  obtain ⟨z, hz, hzw, hzn⟩ := priceAt_near ht
  obtain ⟨m, hm, hmpos, hmn⟩ := mul_near hzw sqrtBase_working
  have hnear : Near midpointFactor m.val (base.val ^ t * sqrtBase.val) :=
    hmn.trans (hzn.mul_right sqrtBase_working.positive.val_pos.le)
      (zero_le_one.trans (one_le_roundingFactor _)) (zero_le_one.trans one_le_powerFactor)
  -- `sqrtBase` lies between one and two
  have hS : 1 ≤ sqrtBase.val ∧ sqrtBase.val ≤ 2 := by
    rw [sqrtBase_val]
    constructor <;> norm_num
  have hbounds := base_val_zpow_bounds ht
  have hX := zpow_pos base_val_pos t
  refine ⟨m, ?_, working_of_near_grid hmpos hnear (midpointFactor_le.trans (by norm_num)) ?_ ?_,
    hnear⟩
  · rw [upperMidpoint, hz, Checked.ok_bind, hm]
  · calc 1 / 2 ^ 112 ≤ base.val ^ t := hbounds.1
      _ ≤ base.val ^ t * sqrtBase.val := le_mul_of_one_le_right hX.le hS.1
  · calc base.val ^ t * sqrtBase.val ≤ 2 ^ 112 * 2 :=
          mul_le_mul hbounds.2 hS.2 (by linarith) (by positivity)
      _ = 2 ^ 113 := by norm_num

/-- The price of every grid tick has at most `priceDigits` digits and rounds `1.0001 ^ t`
faithfully to `priceDigits` digits: it is one of the two `priceDigits`-digit decimals around the
exact power, less than one unit of its last digit away, for negative ticks as well. The working
price is within a relative `10 ^ -63` of the power, far inside the twentieth of a unit of the
last digit that the second rounding needs. -/
theorem priceOfTick_faithful {t : ℤ} (ht : t.natAbs ≤ maxTick) :
    ∃ p, (priceOfTick t).run = .ok (.ok p) ∧ p.coefficient < 10 ^ priceDigits ∧
      Faithful priceDigits ((10001 / 10000 : ℚ) ^ t) p.val ∧
      |p.val - (10001 / 10000 : ℚ) ^ t| < lastUnit priceDigits ((10001 / 10000 : ℚ) ^ t) := by
  obtain ⟨z, hz, hzw, hzn⟩ := priceAt_near ht
  obtain ⟨p, hp, hpval, hpc⟩ := roundSig_val (D := priceDigits) (by decide)
    (hzw.positive.coefficient_lt.trans (by decide)) hzw.bounded.fits.1
    (not_lt.1 hzw.bounded.fits.2)
  rw [base_val] at hzn
  set q := (10001 / 10000 : ℚ) ^ t with hq
  have hqpos : 0 < q := by positivity
  -- the working price is within a relative `10 ^ -63` of the power
  have herr : |z.val - q| ≤ q / 10 ^ 63 :=
    calc |z.val - q| ≤ (powerFactor * 1 - 1) * q :=
          hzn.abs_sub_le (Near.refl le_rfl hqpos.le) (zero_le_one.trans one_le_powerFactor)
            zero_le_one (by simpa using one_le_powerFactor) hqpos
      _ ≤ 1 / 10 ^ 63 * q := mul_le_mul_of_nonneg_right (by linarith [powerFactor_le]) hqpos.le
      _ = q / 10 ^ 63 := by ring
  -- and `q` is below `10 ^ 50` units of its fiftieth digit
  have hunits : q < 10 ^ 50 * lastUnit priceDigits q := lt_ten_pow_mul_lastUnit _ hqpos
  have hu := lastUnit_pos priceDigits q
  have hfaith := faithful_roundSignificant (by decide : 0 < priceDigits) hqpos
    (y := z.val) (by linarith)
  rw [← hpval] at hfaith
  refine ⟨p, ?_, hpc, hfaith, hfaith.abs_sub_lt⟩
  rw [priceOfTick_eq ht, run_lift_eq_ok, hz, Checked.ok_bind, hp]

/-- The price of tick `-1` rounds `1.0001 ^ -1` faithfully. -/
theorem priceOfTick_faithful_neg_one : (-1 : ℤ).natAbs ≤ maxTick ∧
    ∃ p, (priceOfTick (-1)).run = .ok (.ok p) ∧ p.coefficient < 10 ^ priceDigits ∧
      Faithful priceDigits ((10001 / 10000 : ℚ) ^ (-1 : ℤ)) p.val ∧
      |p.val - (10001 / 10000 : ℚ) ^ (-1 : ℤ)| <
        lastUnit priceDigits ((10001 / 10000 : ℚ) ^ (-1 : ℤ)) :=
  ⟨by decide, priceOfTick_faithful (by decide)⟩

lemma near_of_priceOfTick {t : ℤ} {p : Decimal} (ht : t.natAbs ≤ maxTick)
    (hp : (priceOfTick t).run = .ok (.ok p)) : Near priceFactor p.val (base.val ^ t) := by
  obtain ⟨p', hp', -, -, hnear⟩ := priceOfTick_near ht
  rw [hp] at hp'
  cases hp'
  exact hnear

lemma near_of_upperMidpoint {t : ℤ} {m : Decimal} (ht : t.natAbs ≤ maxTick)
    (hm : upperMidpoint t = .ok m) : Near midpointFactor m.val (base.val ^ t * sqrtBase.val) := by
  obtain ⟨m', hm', -, hnear⟩ := upperMidpoint_near ht
  rw [hm] at hm'
  cases hm'
  exact hnear

/-! ## Order -/

/-- Ticks apart by at least one are apart by at least the factor `1.0001`. -/
lemma zpow_mul_base_le {t₁ t₂ : ℤ} (h : t₁ < t₂) : base.val ^ t₁ * base.val ≤ base.val ^ t₂ := by
  rw [← zpow_add_one₀ base_val_pos.ne']
  exact zpow_le_zpow_right₀ one_le_base_val h

/-- Two of the error factors applied to `A` stay below `B` once `(1 + 10 ^ -48) ^ 2 * A` does. -/
lemma factor_mul_lt {k k' A B : ℚ} (hk : k ≤ 1 + 1 / 10 ^ 48) (hk' : 0 ≤ k')
    (hk'₁ : k' ≤ 1 + 1 / 10 ^ 48) (hA : 0 ≤ A) (h : (1 + 1 / 10 ^ 48) ^ 2 * A < B) :
    k * k' * A < B :=
  (mul_le_mul_of_nonneg_right (mul_factor_le hk hk' hk'₁) hA).trans_lt h

/-- Values within a factor `1 + 10 ^ -48` of the grid prices of two ticks are ordered as the
ticks are. -/
theorem lt_of_near_zpow {t₁ t₂ : ℤ} {k₁ k₂ x₁ x₂ : ℚ} (hx₁ : Near k₁ x₁ (base.val ^ t₁))
    (hx₂ : Near k₂ x₂ (base.val ^ t₂)) (hk₁ : k₁ ≤ 1 + 1 / 10 ^ 48) (hk₂₀ : 0 < k₂)
    (hk₂ : k₂ ≤ 1 + 1 / 10 ^ 48) (h : t₁ < t₂) : x₁ < x₂ := by
  refine hx₁.lt_of_mul_lt hx₂ hk₂₀
    (factor_mul_lt hk₁ hk₂₀.le hk₂ (zpow_pos base_val_pos t₁).le ?_)
  -- two errors are far less than one step of the grid
  calc (1 + 1 / 10 ^ 48) ^ 2 * base.val ^ t₁ < base.val * base.val ^ t₁ :=
        mul_lt_mul_of_pos_right (by rw [base_val]; norm_num) (zpow_pos base_val_pos t₁)
    _ ≤ base.val ^ t₂ := by rw [mul_comm]; exact zpow_mul_base_le h

/-- Prices strictly increase with the tick. -/
theorem priceOfTick_lt_priceOfTick {t₁ t₂ : ℤ} {p₁ p₂ : Decimal} (h₁ : t₁.natAbs ≤ maxTick)
    (h₂ : t₂.natAbs ≤ maxTick) (h : t₁ < t₂) (hp₁ : (priceOfTick t₁).run = .ok (.ok p₁))
    (hp₂ : (priceOfTick t₂).run = .ok (.ok p₂)) : p₁.val < p₂.val :=
  lt_of_near_zpow (near_of_priceOfTick h₁ hp₁) (near_of_priceOfTick h₂ hp₂) priceFactor_le
    (zero_lt_one.trans_le one_le_priceFactor) priceFactor_le h

lemma priceOfTick_le_priceOfTick {t₁ t₂ : ℤ} {p₁ p₂ : Decimal} (h₁ : t₁.natAbs ≤ maxTick)
    (h₂ : t₂.natAbs ≤ maxTick) (h : t₁ ≤ t₂) (hp₁ : (priceOfTick t₁).run = .ok (.ok p₁))
    (hp₂ : (priceOfTick t₂).run = .ok (.ok p₂)) : p₁.val ≤ p₂.val := by
  rcases h.lt_or_eq with hlt | rfl
  · exact (priceOfTick_lt_priceOfTick h₁ h₂ hlt hp₁ hp₂).le
  · rw [hp₁] at hp₂
    cases hp₂
    exact le_rfl

/-- A value within a factor `1 + 10 ^ -48` of the grid price of `t` lies strictly below the
midpoint above `t`. -/
theorem lt_upperMidpoint_of_near {t : ℤ} {k x : ℚ} {m : Decimal} (ht : t.natAbs ≤ maxTick)
    (hx : Near k x (base.val ^ t)) (hk : k ≤ 1 + 1 / 10 ^ 48) (hm : upperMidpoint t = .ok m) :
    x < m.val := by
  have hk' : (0 : ℚ) < midpointFactor := zero_lt_one.trans_le one_le_midpointFactor
  refine hx.lt_of_mul_lt (near_of_upperMidpoint ht hm) hk'
    (factor_mul_lt hk hk'.le midpointFactor_le (zpow_pos base_val_pos t).le ?_)
  -- `sqrtBase` is about `1.00005`, far above the two errors
  rw [mul_comm _ sqrtBase.val]
  exact mul_lt_mul_of_pos_right (by rw [sqrtBase_val]; norm_num) (zpow_pos base_val_pos t)

/-- A value within a factor `1 + 10 ^ -48` of the grid price of `t` lies strictly above the
midpoint below `t`. -/
theorem upperMidpoint_lt_of_near {t : ℤ} {k x : ℚ} {m : Decimal}
    (ht' : (t - 1).natAbs ≤ maxTick) (hx : Near k x (base.val ^ t)) (hk₀ : 0 < k)
    (hk : k ≤ 1 + 1 / 10 ^ 48) (hm : upperMidpoint (t - 1) = .ok m) : m.val < x := by
  have hS : 0 < sqrtBase.val := sqrtBase_working.positive.val_pos
  refine (near_of_upperMidpoint ht' hm).lt_of_mul_lt hx hk₀
    (factor_mul_lt midpointFactor_le hk₀.le hk (mul_pos (zpow_pos base_val_pos _) hS).le ?_)
  -- `1.0001 / sqrtBase` is about `1.00005`, far above the two errors
  calc (1 + 1 / 10 ^ 48) ^ 2 * (base.val ^ (t - 1) * sqrtBase.val)
      = ((1 + 1 / 10 ^ 48) ^ 2 * sqrtBase.val) * base.val ^ (t - 1) := by ring
    _ < base.val * base.val ^ (t - 1) :=
        mul_lt_mul_of_pos_right (by rw [sqrtBase_val, base_val]; norm_num)
          (zpow_pos base_val_pos _)
    _ = base.val ^ t := by rw [mul_comm, ← zpow_add_one₀ base_val_pos.ne', sub_add_cancel]

/-- A price lies strictly below the midpoint above it. -/
theorem priceOfTick_lt_upperMidpoint {t : ℤ} {p m : Decimal} (ht : t.natAbs ≤ maxTick)
    (hp : (priceOfTick t).run = .ok (.ok p)) (hm : upperMidpoint t = .ok m) : p.val < m.val :=
  lt_upperMidpoint_of_near ht (near_of_priceOfTick ht hp) priceFactor_le hm

/-- A price lies strictly above the midpoint below it. -/
theorem upperMidpoint_lt_priceOfTick {t : ℤ} {p m : Decimal} (ht : t.natAbs ≤ maxTick)
    (ht' : (t - 1).natAbs ≤ maxTick) (hp : (priceOfTick t).run = .ok (.ok p))
    (hm : upperMidpoint (t - 1) = .ok m) : m.val < p.val :=
  upperMidpoint_lt_of_near ht' (near_of_priceOfTick ht hp)
    (zero_lt_one.trans_le one_le_priceFactor) priceFactor_le hm

/-- Midpoints strictly increase with the tick. -/
theorem upperMidpoint_lt_upperMidpoint {t₁ t₂ : ℤ} {m₁ m₂ : Decimal} (h₁ : t₁.natAbs ≤ maxTick)
    (h₂ : t₂.natAbs ≤ maxTick) (h : t₁ < t₂) (hm₁ : upperMidpoint t₁ = .ok m₁)
    (hm₂ : upperMidpoint t₂ = .ok m₂) : m₁.val < m₂.val := by
  have hk : (0 : ℚ) < midpointFactor := zero_lt_one.trans_le one_le_midpointFactor
  have hS : 0 < sqrtBase.val := sqrtBase_working.positive.val_pos
  refine (near_of_upperMidpoint h₁ hm₁).lt_of_mul_lt (near_of_upperMidpoint h₂ hm₂) hk
    (factor_mul_lt midpointFactor_le hk.le midpointFactor_le
      (mul_pos (zpow_pos base_val_pos _) hS).le ?_)
  calc (1 + 1 / 10 ^ 48) ^ 2 * (base.val ^ t₁ * sqrtBase.val)
      < base.val * base.val ^ t₁ * sqrtBase.val := by
        rw [← mul_assoc]
        exact mul_lt_mul_of_pos_right (mul_lt_mul_of_pos_right (by rw [base_val]; norm_num)
          (zpow_pos base_val_pos t₁)) hS
    _ ≤ base.val ^ t₂ * sqrtBase.val := by
        rw [mul_comm base.val]
        exact mul_le_mul_of_nonneg_right (zpow_mul_base_le h) hS.le

/-- The prices of the grid are positive and strictly increasing, from `least` at `-maxTick` to
`greatest` at `maxTick`, the bounds being exactly the prices of the end ticks. -/
theorem priceOfTick_increasing_within_bounds {t₁ t₂ : ℤ} (h₁ : -(maxTick : ℤ) ≤ t₁)
    (h₁₂ : t₁ < t₂) (h₂ : t₂ ≤ maxTick) :
    ∃ lo hi p₁ p₂ : Decimal, least = .ok lo ∧ greatest = .ok hi ∧
      (priceOfTick t₁).run = .ok (.ok p₁) ∧ (priceOfTick t₂).run = .ok (.ok p₂) ∧
      (priceOfTick (-maxTick)).run = .ok (.ok lo) ∧ (priceOfTick maxTick).run = .ok (.ok hi) ∧
      0 < lo.val ∧ lo.val ≤ p₁.val ∧ p₁.val < p₂.val ∧ p₂.val ≤ hi.val := by
  have hb₁ : t₁.natAbs ≤ maxTick := by omega
  have hb₂ : t₂.natAbs ≤ maxTick := by omega
  have hblo : (-(maxTick : ℤ)).natAbs ≤ maxTick := by simp
  have hbhi : (maxTick : ℤ).natAbs ≤ maxTick := by simp
  obtain ⟨lo, hlo, hlopos, -, -⟩ := priceOfTick_near hblo
  obtain ⟨hi, hhi, -, -, -⟩ := priceOfTick_near hbhi
  obtain ⟨p₁, hp₁, -, -, -⟩ := priceOfTick_near hb₁
  obtain ⟨p₂, hp₂, -, -, -⟩ := priceOfTick_near hb₂
  refine ⟨lo, hi, p₁, p₂, ?_, ?_, hp₁, hp₂, hlo, hhi, hlopos.val_pos,
    priceOfTick_le_priceOfTick hblo hb₁ h₁ hlo hp₁,
    priceOfTick_lt_priceOfTick hb₁ hb₂ h₁₂ hp₁ hp₂,
    priceOfTick_le_priceOfTick hb₂ hbhi h₂ hp₂ hhi⟩
  · rwa [priceOfTick_neg_maxTick, run_lift_eq_ok] at hlo
  · rwa [priceOfTick_maxTick, run_lift_eq_ok] at hhi

/-- The prices of ticks `0` and `1` within the bounds of the grid. -/
theorem priceOfTick_zero_one_within_bounds : -(maxTick : ℤ) ≤ 0 ∧ (0 : ℤ) < 1 ∧ (1 : ℤ) ≤ maxTick ∧
    ∃ lo hi p₁ p₂ : Decimal, least = .ok lo ∧ greatest = .ok hi ∧
      (priceOfTick 0).run = .ok (.ok p₁) ∧ (priceOfTick 1).run = .ok (.ok p₂) ∧
      (priceOfTick (-maxTick)).run = .ok (.ok lo) ∧ (priceOfTick maxTick).run = .ok (.ok hi) ∧
      0 < lo.val ∧ lo.val ≤ p₁.val ∧ p₁.val < p₂.val ∧ p₂.val ≤ hi.val :=
  ⟨by decide, by decide, by decide,
    priceOfTick_increasing_within_bounds (by decide) (by decide) (by decide)⟩

end Grid

end TickGrid
