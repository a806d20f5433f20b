import TickGrid.Proofs.Grid.Prices
import TickGrid.Proofs.Binary64.Normal

/-!
# The walk to the tick of a price

`walk p e` moves a tick one step at a time: up while the midpoint above it is at most `p`, down
while `p` is below the midpoint under it. The computed midpoints strictly increase
(`upperMidpoint_lt_upperMidpoint`), so they cut the rationals into the cells
`[upperMidpoint (t - 1), upperMidpoint t)` of the grid ticks `t`, the two end cells unbounded.
Every price lies in exactly one cell (`InCell`), each step of the walk moves one tick towards
that cell, and the walk stops in it from every start on the grid: where the walk starts, so what
the floating-point estimate says, changes only the number of steps.

Every price has exactly one cell (`exists_inCell`, `InCell.unique`), monotone in the price
(`InCell.mono`), and the walk from every grid tick ends in it (`walk_eq_of_inCell`). So the tick of
a price within the bounds is its cell whatever the platform logarithm, as long as that never reaches
the bottom of the 32-bit range on a positive normal double (`LogBaseSound`,
`tickOfPriceWith_eq_of_inCell`).
-/

namespace TickGrid

namespace Grid

open Decimal

/-- `t` is the tick of `p` by the computed midpoints: a grid tick whose midpoint below is at most
`p` and whose midpoint above is greater than `p`, the bound missing at either end of the grid. -/
def InCell (p : Decimal) (t : ℤ) : Prop :=
  -(maxTick : ℤ) ≤ t ∧ t ≤ maxTick ∧
    (t = -maxTick ∨ ∃ m, upperMidpoint (t - 1) = .ok m ∧ m.val ≤ p.val) ∧
    (t = maxTick ∨ ∃ m, upperMidpoint t = .ok m ∧ p.val < m.val)

/-! ## Midpoints on the grid -/

/-- Every tick of the grid below the top has a working midpoint above it. -/
lemma upperMidpoint_ok {t : ℤ} (h₁ : -(maxTick : ℤ) ≤ t) (h₂ : t < maxTick) :
    ∃ m, upperMidpoint t = .ok m ∧ m.Working := by
  obtain ⟨m, hm, hmw, -⟩ := upperMidpoint_near (show t.natAbs ≤ maxTick by omega)
  exact ⟨m, hm, hmw⟩

lemma upperMidpoint_le_upperMidpoint {t₁ t₂ : ℤ} {m₁ m₂ : Decimal} (h₁ : t₁.natAbs ≤ maxTick)
    (h₂ : t₂.natAbs ≤ maxTick) (h : t₁ ≤ t₂) (hm₁ : upperMidpoint t₁ = .ok m₁)
    (hm₂ : upperMidpoint t₂ = .ok m₂) : m₁.val ≤ m₂.val := by
  rcases h.lt_or_eq with hlt | rfl
  · exact (upperMidpoint_lt_upperMidpoint h₁ h₂ hlt hm₁ hm₂).le
  · rw [hm₁] at hm₂
    cases hm₂
    exact le_rfl

/-! ## Cells -/

namespace InCell

variable {p : Decimal} {c : ℤ}

/-- Below the cell of `p`, the midpoint above a tick is at most `p`. -/
lemma midpoint_le_of_lt (hc : InCell p c) {t : ℤ} {m : Decimal} (ht : -(maxTick : ℤ) ≤ t)
    (htc : t < c) (hm : upperMidpoint t = .ok m) : m.val ≤ p.val := by
  obtain ⟨-, hc₂, hlow, -⟩ := hc
  rcases hlow with rfl | ⟨m', hm', hle⟩
  · omega
  · exact (upperMidpoint_le_upperMidpoint (by omega) (by omega) (by omega) hm hm').trans hle

/-- From the cell of `p` upwards, `p` is below the midpoint above a tick. -/
lemma lt_midpoint_of_le (hc : InCell p c) {t : ℤ} {m : Decimal} (ht : t < maxTick)
    (hct : c ≤ t) (hm : upperMidpoint t = .ok m) : p.val < m.val := by
  obtain ⟨hc₁, -, -, hhigh⟩ := hc
  rcases hhigh with rfl | ⟨m', hm', hlt⟩
  · omega
  · exact hlt.trans_le (upperMidpoint_le_upperMidpoint (by omega) (by omega) hct hm' hm)

/-- The cell of a price is monotone in the price. -/
theorem mono {q : Decimal} {d : ℤ} (hc : InCell p c) (hd : InCell q d) (hpq : p.val ≤ q.val) :
    c ≤ d := by
  by_contra hlt
  rw [not_le] at hlt
  -- the midpoint above `d` would be at most `p` and above `q`
  obtain ⟨m, hm, -⟩ := upperMidpoint_ok hd.1 (by have := hc.2.1; omega)
  have hmp : m.val ≤ p.val := hc.midpoint_le_of_lt hd.1 hlt hm
  have hqm : q.val < m.val := hd.lt_midpoint_of_le (by have := hc.2.1; omega) le_rfl hm
  linarith

/-- A price has at most one cell. -/
theorem unique {c' : ℤ} (hc : InCell p c) (hc' : InCell p c') : c = c' :=
  le_antisymm (hc.mono hc' le_rfl) (hc'.mono hc le_rfl)

end InCell

/-- Every price has a cell. Going up the grid from `-maxTick`, the first tick whose midpoint above
exceeds the price is its cell, or `maxTick` if there is none: by induction on the number of
ticks passed, some tick so far has its lower bound and is either the last one passed or has its
upper bound. -/
theorem exists_inCell (p : Decimal) : ∃ c, InCell p c := by
  have key : ∀ n : ℕ, n ≤ 2 * maxTick → ∃ t : ℤ, -(maxTick : ℤ) ≤ t ∧ t ≤ -maxTick + n ∧
      (t = -maxTick ∨ ∃ m, upperMidpoint (t - 1) = .ok m ∧ m.val ≤ p.val) ∧
      (t = -maxTick + n ∨ ∃ m, upperMidpoint t = .ok m ∧ p.val < m.val) := by
    intro n
    induction n with
    | zero => exact fun _ => ⟨-maxTick, le_rfl, by simp, .inl rfl, .inl (by simp)⟩
    | succ n ih =>
      intro hn
      obtain ⟨t, ht₁, ht₂, hlow, hhigh⟩ := ih (by omega)
      rcases hhigh with hlast | hup
      · -- the last tick passed: step past it if its midpoint above is at most the price
        obtain ⟨m, hm, -⟩ := upperMidpoint_ok ht₁ (show t < maxTick by omega)
        by_cases hpm : p.val < m.val
        · exact ⟨t, ht₁, by omega, hlow, .inr ⟨m, hm, hpm⟩⟩
        · refine ⟨t + 1, by omega, by push_cast; omega, .inr ⟨m, ?_, not_lt.1 hpm⟩,
            .inl (by push_cast; omega)⟩
          rwa [add_sub_cancel_right]
      · exact ⟨t, ht₁, by omega, hlow, .inr hup⟩
  obtain ⟨t, ht₁, ht₂, hlow, hhigh⟩ := key (2 * maxTick) le_rfl
  refine ⟨t, ht₁, by push_cast at ht₂; omega, hlow, ?_⟩
  rcases hhigh with h | h
  · exact .inl (by push_cast at h; omega)
  · exact .inr h

/-! ## The walk -/

section Walk

variable {p : Decimal} {c t : ℤ}

/-- Below the cell, the walk steps up. -/
lemma walkStep_of_lt (hp : p.Bounded) (hc : InCell p c) (ht : -(maxTick : ℤ) ≤ t)
    (htc : t < c) : walkStep p t = .ok (some (t + 1)) := by
  have hup : t < maxTick := by have := hc.2.1; omega
  obtain ⟨m, hm, hmw⟩ := upperMidpoint_ok ht hup
  have hle := hc.midpoint_le_of_lt ht htc hm
  unfold walkStep
  rw [if_pos hup, hm, Checked.ok_bind, cmp_eq hp hmw.bounded, Checked.ok_bind,
    if_pos (by simpa [compare_lt_iff_lt] using hle)]
  rfl

/-- Above the cell, the walk steps down: the step up does not apply, as `p` is below every
midpoint from the cell upwards. -/
lemma walkStep_of_gt (hp : p.Bounded) (hc : InCell p c) (ht : t ≤ maxTick) (hct : c < t) :
    walkStep p t = .ok (some (t - 1)) := by
  have hdown : -(maxTick : ℤ) < t := by have := hc.1; omega
  obtain ⟨m', hm', hm'w⟩ :=
    upperMidpoint_ok (show -(maxTick : ℤ) ≤ t - 1 by omega) (show t - 1 < maxTick by omega)
  have hlt' := hc.lt_midpoint_of_le (by omega) (by omega) hm'
  unfold walkStep
  by_cases hup : t < maxTick
  · obtain ⟨m, hm, hmw⟩ := upperMidpoint_ok (by omega) hup
    have hlt := hc.lt_midpoint_of_le hup hct.le hm
    rw [if_pos hup, hm, Checked.ok_bind, cmp_eq hp hmw.bounded, Checked.ok_bind,
      compare_lt_iff_lt.2 hlt]
    simp only [bne_self_eq_false]
    rw [if_pos hdown, hm', Checked.ok_bind, cmp_eq hp hm'w.bounded, Checked.ok_bind,
      compare_lt_iff_lt.2 hlt']
    rfl
  · rw [if_neg hup, if_pos hdown, hm', Checked.ok_bind, cmp_eq hp hm'w.bounded, Checked.ok_bind,
      compare_lt_iff_lt.2 hlt']
    rfl

/-- In the cell, no step applies: `p` is below the midpoint above its cell and at least the
midpoint below it. -/
lemma walkStep_of_inCell (hp : p.Bounded) (hc : InCell p t) : walkStep p t = .ok none := by
  have hstay : ∀ m, upperMidpoint t = .ok m → m.Working → t < maxTick →
      p.cmp m = .ok .lt := fun m hm hmw hup =>
    (cmp_eq hp hmw.bounded).trans
      (congrArg _ (compare_lt_iff_lt.2 (hc.lt_midpoint_of_le hup le_rfl hm)))
  have htop := hc.2.1
  unfold walkStep
  by_cases hdown : -(maxTick : ℤ) < t
  · obtain ⟨m', hm', hm'w⟩ :=
      upperMidpoint_ok (show -(maxTick : ℤ) ≤ t - 1 by omega) (show t - 1 < maxTick by omega)
    have hge : p.cmp m' = .ok (compare p.val m'.val) := cmp_eq hp hm'w.bounded
    have hle := hc.midpoint_le_of_lt (by omega) (by omega) hm'
    by_cases hup : t < maxTick
    · obtain ⟨m, hm, hmw⟩ := upperMidpoint_ok hc.1 hup
      rw [if_pos hup, hm, Checked.ok_bind, hstay m hm hmw hup, Checked.ok_bind]
      simp only [bne_self_eq_false]
      rw [if_pos hdown, hm', Checked.ok_bind, hge, Checked.ok_bind]
      simp [compare_lt_iff_lt, not_lt.2 hle]
    · rw [if_neg hup, if_pos hdown, hm', Checked.ok_bind, hge, Checked.ok_bind]
      simp [compare_lt_iff_lt, not_lt.2 hle]
  · -- at the bottom of the grid only the step up is tried
    have hpos : (0 : ℤ) < maxTick := by norm_num [maxTick]
    have hup : t < maxTick := by have := hc.1; omega
    obtain ⟨m, hm, hmw⟩ := upperMidpoint_ok hc.1 hup
    rw [if_pos hup, hm, Checked.ok_bind, hstay m hm hmw hup, Checked.ok_bind]
    simp only [bne_self_eq_false]
    rw [if_neg hdown]
    rfl

/-- The walk with fuel: from a grid tick at distance less than the fuel from the cell, it ends in
the cell. The induction is on the fuel; each step moves one tick towards the cell. -/
lemma walkFor_eq_of_inCell (hp : p.Bounded) (hc : InCell p c) (fuel : ℕ) :
    ∀ t : ℤ, -(maxTick : ℤ) ≤ t → t ≤ maxTick → (t - c).natAbs < fuel →
      walkFor p fuel t = .ok c := by
  induction fuel with
  | zero => intro t _ _ h; omega
  | succ fuel ih =>
    intro t ht₁ ht₂ hfuel
    rcases lt_trichotomy t c with hlt | rfl | hgt
    · rw [walkFor, walkStep_of_lt hp hc ht₁ hlt, Checked.ok_bind]
      exact ih (t + 1) (by omega) (by have := hc.2.1; omega) (by omega)
    · rw [walkFor, walkStep_of_inCell hp hc, Checked.ok_bind]
      rfl
    · rw [walkFor, walkStep_of_gt hp hc ht₂ hgt, Checked.ok_bind]
      exact ih (t - 1) (by have := hc.1; omega) (by omega) (by omega)

/-- The walk from every tick of the grid ends in the cell of the price. -/
theorem walk_eq_of_inCell (hp : p.Bounded) (hc : InCell p c) {e : ℤ} (he₁ : -(maxTick : ℤ) ≤ e)
    (he₂ : e ≤ maxTick) : walk p e = .ok c :=
  walkFor_eq_of_inCell hp hc _ e he₁ he₂ (by have := hc.1; have := hc.2.1; omega)

end Walk

/-! ## The tick of a price -/

/-- The price lies between the least and the greatest price of the grid. -/
def InRange (p : Decimal) : Prop :=
  ∃ lo hi, least = .ok lo ∧ greatest = .ok hi ∧ lo.val ≤ p.val ∧ p.val ≤ hi.val

/-- Every price of the grid lies within the bounds. -/
lemma inRange_of_priceOfTick {t : ℤ} {p : Decimal} (ht : t.natAbs ≤ maxTick)
    (hp : (priceOfTick t).run = .ok (.ok p)) : InRange p := by
  have hblo : (-(maxTick : ℤ)).natAbs ≤ maxTick := by simp
  have hbhi : (maxTick : ℤ).natAbs ≤ maxTick := by simp
  obtain ⟨lo, hlo, -⟩ := priceOfTick_near hblo
  obtain ⟨hi, hhi, -⟩ := priceOfTick_near hbhi
  refine ⟨lo, hi, ?_, ?_, priceOfTick_le_priceOfTick hblo ht (by omega) hlo hp,
    priceOfTick_le_priceOfTick ht hbhi (by omega) hp hhi⟩
  · rwa [priceOfTick_neg_maxTick, run_lift_eq_ok] at hlo
  · rwa [priceOfTick_maxTick, run_lift_eq_ok] at hhi

/-- The price of tick zero is one. -/
lemma priceOfTick_zero : (priceOfTick 0).run = .ok (.ok one) := by
  rw [priceOfTick_eq (by decide), run_lift_eq_ok, priceAt, Decimal.pow, powStep,
    if_pos Int.natAbs_zero, Checked.pure_eq, Checked.ok_bind, if_pos le_rfl, Checked.pure_eq,
    Checked.ok_bind]
  exact roundSig_of_le (by decide)

/-- What the search needs of the platform logarithm: on a positive normal double it stays above
the bottom of the 32-bit range, whose negation would overflow. The natural logarithm of a
positive normal double is above `-709`, which is about `-7.1e6` ticks. -/
def LogBaseSound (logBase : Binary64 → ℤ) : Prop :=
  ∀ x : Binary64, x.PositiveNormal → -2 ^ 31 < logBase x

/-- A logarithm that answers zero everywhere, as the platform logarithm does at one, is sound. -/
lemma logBaseSound_zero : LogBaseSound (fun _ => 0) := fun _ _ => by norm_num

@[simp] lemma lift_ok_bind {α β : Type} (a : α) (f : α → RangeM β) :
    (lift (.ok a) >>= f : RangeM β) = f a := rfl

/-- The bounds of the grid are working decimals between `2 ^ -113` and `2 ^ 113`. -/
lemma bounds_ok : ∃ lo hi, least = .ok lo ∧ greatest = .ok hi ∧ lo.Working ∧ hi.Working ∧
    1 / 2 ^ 113 ≤ lo.val ∧ hi.val ≤ 2 ^ 113 := by
  have hblo : (-(maxTick : ℤ)).natAbs ≤ maxTick := by simp
  have hbhi : (maxTick : ℤ).natAbs ≤ maxTick := by simp
  obtain ⟨lo, hlo, -, hlow, hlon⟩ := priceOfTick_near hblo
  obtain ⟨hi, hhi, -, hhiw, hhin⟩ := priceOfTick_near hbhi
  rw [priceOfTick_neg_maxTick, run_lift_eq_ok] at hlo
  rw [priceOfTick_maxTick, run_lift_eq_ok] at hhi
  have hk : priceFactor ≤ 2 := priceFactor_le.trans (by norm_num)
  have hk0 : (0 : ℚ) < priceFactor := zero_lt_one.trans_le one_le_priceFactor
  refine ⟨lo, hi, hlo, hhi, hlow, hhiw, ?_, ?_⟩
  · -- `1.0001 ^ -maxTick ≤ priceFactor * lo` and `priceFactor ≤ 2`
    have h₁ := (base_val_zpow_bounds hblo).1
    have h₂ := hlon.2
    have : 1 / 2 ^ 112 ≤ 2 * lo.val := by nlinarith [hlow.positive.val_pos]
    linarith
  · have h₁ := (base_val_zpow_bounds hbhi).2
    have h₂ := hhin.1
    have : priceFactor * base.val ^ (maxTick : ℤ) ≤ 2 * 2 ^ 112 :=
      mul_le_mul hk h₁ (zpow_pos base_val_pos _).le (by norm_num)
    linarith

/-- A price within the bounds, with at most `workingDigits` digits as every decimal has, is a
working decimal between `2 ^ -113` and `2 ^ 113`. -/
lemma InRange.working {p : Decimal} (hp : p.coefficient < 10 ^ workingDigits) (hr : InRange p) :
    p.Working ∧ 1 / 2 ^ 113 ≤ p.val ∧ p.val ≤ 2 ^ 113 := by
  obtain ⟨lo, hi, hlo, hhi, hplo, hphi⟩ := hr
  obtain ⟨lo', hi', hlo', hhi', hlow, -, hlob, hhib⟩ := bounds_ok
  rw [hlo] at hlo'
  rw [hhi] at hhi'
  cases hlo'
  cases hhi'
  have hlo₁ : 1 / 2 ^ 113 ≤ p.val := hlob.trans hplo
  have hhi₁ : p.val ≤ 2 ^ 113 := hphi.trans hhib
  have hval : 0 < p.val := lt_of_lt_of_le (by norm_num) hlo₁
  -- a positive value has a non-zero coefficient and a clear sign
  have hc0 : p.coefficient ≠ 0 := fun h => by
    rw [(val_eq_zero_iff p).2 h] at hval
    exact lt_irrefl _ hval
  have hneg : p.negative = false := by
    cases h : p.negative
    · rfl
    · have : p.isNegative = true := by simp [isNegative, h, hc0]
      exact absurd (val_neg_of_isNegative this) (not_lt.2 hval.le)
  have hpos : p.Positive workingDigits := ⟨hneg, Nat.pos_of_ne_zero hc0, hp⟩
  refine ⟨hpos.working_of_val (le_trans (by norm_num) hlo₁) (hhi₁.trans (by norm_num)),
    hlo₁, hhi₁⟩

/-- The reciprocal of a value between `2 ^ -113` and `2 ^ 113` lies between the same bounds. -/
lemma inv_bounds {x : ℚ} (hlo : 1 / 2 ^ 113 ≤ x) (hhi : x ≤ 2 ^ 113) :
    1 / 2 ^ 113 ≤ x⁻¹ ∧ x⁻¹ ≤ 2 ^ 113 := by
  have hx : 0 < x := lt_of_lt_of_le (by norm_num) hlo
  constructor
  · rw [one_div]
    exact inv_anti₀ hx hhi
  · rw [inv_le_comm₀ hx (by positivity)]
    simpa [one_div] using hlo

/-- The reciprocal of a working decimal between `2 ^ -113` and `2 ^ 113` is a working decimal
within two rounding factors of the exact reciprocal. -/
lemma recip_working {p : Decimal} (hp : p.Working) (hlo : 1 / 2 ^ 113 ≤ p.val)
    (hhi : p.val ≤ 2 ^ 113) :
    ∃ r, p.recip? = .ok (some r) ∧ r.Working ∧
      Near (roundingFactor workingDigits ^ 2) r.val p.val⁻¹ := by
  obtain ⟨r, hr, hrpos, hrnear⟩ := recip_near hp
  have hK : roundingFactor workingDigits ^ 2 ≤ 2 := by
    rw [roundingFactor_workingDigits]
    norm_num
  obtain ⟨hinv₁, hinv₂⟩ := inv_bounds hlo hhi
  exact ⟨r, hr, hrpos.working_of_near hrnear hK
    ((by norm_num : (1 : ℚ) / 10 ^ 99 ≤ 1 / 2 ^ 113).trans hinv₁) (hinv₂.trans (by norm_num)),
    hrnear⟩

/-- The reciprocal of a working decimal between `2 ^ -113` and one is a working decimal below
`2 ^ 114`, so its double is positive normal. -/
lemma recip_positiveNormal {p : Decimal} (hp : p.Working) (hlo : 1 / 2 ^ 113 ≤ p.val)
    (hone : p.val < 1) : ∃ r, p.recip? = .ok (some r) ∧ r.toBinary64.PositiveNormal := by
  obtain ⟨r, hr, hrw, hrnear⟩ := recip_working hp hlo (hone.le.trans (by norm_num))
  have hK : roundingFactor workingDigits ^ 2 ≤ 2 := by
    rw [roundingFactor_workingDigits]
    norm_num
  have hinv₁ : 1 ≤ p.val⁻¹ := one_le_inv₀ hp.positive.val_pos |>.2 hone.le
  have hinv₂ : p.val⁻¹ ≤ 2 ^ 113 := (inv_bounds hlo (hone.le.trans (by norm_num))).2
  refine ⟨r, hr, toBinary64_positiveNormal hrw ?_ ?_⟩
  · have : p.val⁻¹ ≤ 2 * r.val := hrnear.2.trans (by nlinarith [hrw.positive.val_pos])
    have : (1 : ℚ) / 2 ^ 200 ≤ 1 / 2 := by norm_num
    linarith
  · have : r.val ≤ 2 * p.val⁻¹ := hrnear.1.trans (by nlinarith)
    have : (2 : ℚ) * 2 ^ 113 ≤ 2 ^ 200 := by norm_num
    linarith

/-- The estimate of a working decimal of at least `2 ^ -113` is a grid tick: below one, the
double of the reciprocal is positive normal, so its logarithm is not negated out of range. -/
lemma estimateWith_ok {logBase : Binary64 → ℤ} (hlog : LogBaseSound logBase) {p : Decimal}
    (hp : p.Working) (hlo : 1 / 2 ^ 113 ≤ p.val) :
    ∃ e, estimateWith logBase p = .ok e ∧ -(maxTick : ℤ) ≤ e ∧ e ≤ maxTick := by
  have hclamp : ∀ u : ℤ, -(maxTick : ℤ) ≤ max (-(maxTick : ℤ)) (min u maxTick) ∧
      max (-(maxTick : ℤ)) (min u maxTick) ≤ maxTick := fun u => by omega
  unfold estimateWith
  rw [cmp_eq hp.bounded one_working.bounded, Checked.ok_bind]
  by_cases hone : p.val < one.val
  · -- below one the estimate is the negated logarithm of the reciprocal
    rw [compare_lt_iff_lt.2 hone]
    simp only [bne_self_eq_false, Bool.false_eq_true, if_false]
    obtain ⟨r, hr, hnormal⟩ :=
      recip_positiveNormal hp hlo (hone.trans_eq one_val)
    rw [hr, Checked.ok_bind]
    have hne : logBase r.toBinary64 ≠ -2147483648 := by
      have := hlog _ hnormal
      omega
    dsimp only
    rw [if_neg hne]
    exact ⟨_, rfl, hclamp _⟩
  · -- from one upwards the estimate is the logarithm of the price
    have hge : (compare p.val one.val != .lt) = true := by simpa [compare_lt_iff_lt] using hone
    rw [if_pos hge]
    exact ⟨_, rfl, hclamp _⟩

/-- The tick of a price within the bounds is its cell. The checks of sign and bounds pass, the
estimate is a grid tick, and the walk from it ends in the cell. -/
theorem tickOfPriceWith_eq_of_inCell {logBase : Binary64 → ℤ} (hlog : LogBaseSound logBase)
    {p : Decimal} {c : ℤ} (hp : p.coefficient < 10 ^ workingDigits) (hr : InRange p)
    (hc : InCell p c) : (tickOfPriceWith logBase p).run = .ok (.ok c) := by
  obtain ⟨hpw, hplo, -⟩ := hr.working hp
  obtain ⟨lo, hi, hlo, hhi, hplo', hphi'⟩ := hr
  obtain ⟨lo', hi', hlo', hhi', hlow, hhiw, -, -⟩ := bounds_ok
  rw [hlo] at hlo'
  rw [hhi] at hhi'
  cases hlo'
  cases hhi'
  obtain ⟨e, he, he₁, he₂⟩ := estimateWith_ok hlog hpw hplo
  have hpos : p.isPositive = true := hpw.positive.isPositive
  unfold tickOfPriceWith
  simp only [hpos, Bool.not_true, Bool.false_eq_true, if_false]
  rw [hlo, lift_ok_bind, hhi, lift_ok_bind, cmp_eq hpw.bounded hlow.bounded, lift_ok_bind,
    if_neg (by simpa [compare_lt_iff_lt] using hplo'), cmp_eq hpw.bounded hhiw.bounded,
    lift_ok_bind, if_neg (by simpa [compare_gt_iff_gt] using hphi'), he, lift_ok_bind,
    walk_eq_of_inCell hpw.bounded hc he₁ he₂]
  rfl

/-- Every price within the bounds has exactly one cell of computed midpoints; the walk ends in it
from every tick of the grid, so the tick found does not depend on the platform logarithm that
chooses the start, and it is monotone in the price. -/
theorem walk_ends_in_unique_cell {p : Decimal} (hp : p.coefficient < 10 ^ workingDigits)
    (hr : InRange p) :
    ∃ c, InCell p c ∧ (∀ c', InCell p c' → c' = c) ∧
      (∀ e : ℤ, -(maxTick : ℤ) ≤ e → e ≤ maxTick → walk p e = .ok c) ∧
      (∀ logBase, LogBaseSound logBase → (tickOfPriceWith logBase p).run = .ok (.ok c)) ∧
      (∀ q : Decimal, q.coefficient < 10 ^ workingDigits → InRange q → p.val ≤ q.val →
        ∀ logBase, LogBaseSound logBase →
          ∃ d, (tickOfPriceWith logBase q).run = .ok (.ok d) ∧ c ≤ d) := by
  obtain ⟨c, hc⟩ := exists_inCell p
  have hpw := (hr.working hp).1
  refine ⟨c, hc, fun c' hc' => hc'.unique hc, fun e he₁ he₂ => walk_eq_of_inCell hpw.bounded hc
    he₁ he₂, fun logBase hlog => tickOfPriceWith_eq_of_inCell hlog hp hr hc, ?_⟩
  intro q hq hqr hpq logBase hlog
  obtain ⟨d, hd⟩ := exists_inCell q
  exact ⟨d, tickOfPriceWith_eq_of_inCell hlog hq hqr hd, hc.mono hd hpq⟩

/-- The price one, which is the price of tick zero, with a logarithm that answers zero there as
the platform logarithm does. -/
theorem walk_ends_in_unique_cell_one : one.coefficient < 10 ^ workingDigits ∧ InRange one ∧
    LogBaseSound (fun _ => 0) ∧
    ∃ c, InCell one c ∧ (∀ c', InCell one c' → c' = c) ∧
      (∀ e : ℤ, -(maxTick : ℤ) ≤ e → e ≤ maxTick → walk one e = .ok c) ∧
      (tickOfPriceWith (fun _ => 0) one).run = .ok (.ok c) ∧
      (∀ q : Decimal, q.coefficient < 10 ^ workingDigits → InRange q → one.val ≤ q.val →
        ∃ d, (tickOfPriceWith (fun _ => 0) q).run = .ok (.ok d) ∧ c ≤ d) := by
  have hone : InRange one := inRange_of_priceOfTick (by decide) priceOfTick_zero
  obtain ⟨c, hc, huniq, hwalk, htick, hmono⟩ := walk_ends_in_unique_cell (by decide) hone
  exact ⟨by decide, hone, logBaseSound_zero, c, hc, huniq, hwalk, htick _ logBaseSound_zero,
    fun q hq hqr hle => hmono q hq hqr hle _ logBaseSound_zero⟩

end Grid

end TickGrid
