import TickGrid.Proofs.Decimal.Order

/-!
# Accuracy of decimal arithmetic

Products, quotients, powers and comparisons of decimals with at most `workingDigits` digits and
moderate exponents. None of them overflows, and each rounded result is within a known factor of
the exact one:

* a product within one rounding factor (`mul_near`);
* a quotient within two, one for the sticky digit and one for the rounding (`div_near`);
* a reciprocal within two, as the quotient of one (`recip_near`);
* a power `x ^ n` of a working decimal `x ≥ 1` within `n` rounding factors (`pow_near`);
* a comparison is the comparison of the values (`cmp_eq`).
-/

namespace TickGrid

namespace Decimal

/-- A decimal of at most `workingDigits` digits whose exponent is within `2 ^ 60` of zero, so that
sums of two exponents and the shift of one rounding stay in 64 bits. -/
structure Bounded (x : Decimal) : Prop where
  coefficient_lt : x.coefficient < 10 ^ workingDigits
  exponent_le : |x.exponent| ≤ 2 ^ 60

/-- A positive decimal of at most `workingDigits` digits with an exponent within `2 ^ 60` of zero:
the operands and results of the arithmetic below. -/
structure Working (x : Decimal) : Prop where
  positive : x.Positive workingDigits
  exponent_le : |x.exponent| ≤ 2 ^ 60

lemma Working.bounded {x : Decimal} (h : x.Working) : x.Bounded :=
  ⟨h.positive.coefficient_lt, h.exponent_le⟩

/-- A positive decimal of at most `workingDigits` digits whose value lies between `10 ^ -100` and
`10 ^ 100` is a working decimal. -/
lemma Positive.working_of_val {x : Decimal} (h : x.Positive workingDigits)
    (hlo : (10 : ℚ) ^ (-100 : ℤ) ≤ x.val) (hhi : x.val ≤ 10 ^ (100 : ℤ)) : x.Working := by
  have h₁ := h.exponent_le hhi
  have h₂ := h.le_exponent hlo
  refine ⟨h, abs_le.2 ⟨?_, ?_⟩⟩ <;> simp only [workingDigits] at h₂ <;> omega

@[simp] lemma one_val : one.val = 1 := by simp [val, one]

lemma one_working : one.Working := ⟨⟨rfl, by decide, by decide⟩, by norm_num [one]⟩

/-! ## Products and quotients -/

/-- The product of two working decimals is the exact product within one rounding factor. -/
theorem mul_near {a b : Decimal} (ha : a.Working) (hb : b.Working) :
    ∃ z, a.mul b = .ok z ∧ z.Positive workingDigits ∧
      Near (roundingFactor workingDigits) z.val (a.val * b.val) := by
  have hca : a.coefficient < 10 ^ 70 := ha.positive.coefficient_lt
  have hcb : b.coefficient < 10 ^ 70 := hb.positive.coefficient_lt
  have hprod : a.coefficient * b.coefficient < 10 ^ 140 := by
    calc a.coefficient * b.coefficient < 10 ^ 70 * 10 ^ 70 := Nat.mul_lt_mul'' hca hcb
      _ = 10 ^ 140 := by norm_num
  have hpos : 0 < a.coefficient * b.coefficient :=
    Nat.mul_pos ha.positive.coefficient_pos hb.positive.coefficient_pos
  have hsum : |a.exponent + b.exponent| ≤ 2 ^ 61 := by
    have := abs_add_le a.exponent b.exponent
    linarith [ha.exponent_le, hb.exponent_le]
  have hdigits : digitCount (a.coefficient * b.coefficient) ≤ 155 :=
    digitCount_le_of_lt (hprod.trans (by norm_num))
  obtain ⟨z, hz, hzpos, -, -, hnear⟩ := ofParts_near hpos (hprod.trans (by norm_num))
    (Word64.fits_of_abs_le (hsum.trans (by norm_num)))
    (by rw [abs_le] at hsum; unfold Word64.greatest; omega)
  refine ⟨z, ?_, hzpos, ?_⟩
  · rw [mul, Word512.mul_of_lt (hprod.trans (by norm_num)), Checked.ok_bind,
      Word64.add_of_fits (Word64.fits_of_abs_le (hsum.trans (by norm_num))), Checked.ok_bind,
      ha.positive.negative_eq, hb.positive.negative_eq]
    exact hz
  · have hval : a.val * b.val =
        ((a.coefficient * b.coefficient : ℕ) : ℚ) * 10 ^ (a.exponent + b.exponent) := by
      rw [ha.positive.val_eq, hb.positive.val_eq, zpow_add₀ (by norm_num)]
      push_cast
      ring
    rw [hval]
    exact hnear

/-- The sticky quotient: `10 * (N / d)` plus one exactly when the division leaves a remainder is
within a factor `1 + 2 * 10 ^ -70` of `10 * N / d` once the quotient has `71` digits. The sticky
digit moves the value by less than one unit of the extra digit, never onto a half-way point. -/
lemma sticky_near {N d : ℕ} (hd : 0 < d) (hN : 10 ^ 70 * d ≤ N) :
    Near (1 + 2 * (1 / 10 ^ 70))
      (((N / d * 10 + if N % d = 0 then 0 else 1 : ℕ)) : ℚ) (10 * N / d) := by
  have hdq : (0 : ℚ) < d := by exact_mod_cast hd
  have hdiv : (N : ℚ) = (N / d : ℕ) * d + (N % d : ℕ) := by
    exact_mod_cast (Nat.div_add_mod' N d).symm
  have hmod : ((N % d : ℕ) : ℚ) < d := by exact_mod_cast Nat.mod_lt N hd
  have hQ : (10 : ℚ) ^ 70 ≤ (N / d : ℕ) := by
    exact_mod_cast (Nat.le_div_iff_mul_le hd).2 hN
  have hexact : 10 * (N : ℚ) / d = 10 * (N / d : ℕ) + 10 * (N % d : ℕ) / d := by
    rw [hdiv]
    field_simp
  have hfrac : 0 ≤ 10 * ((N % d : ℕ) : ℚ) / d ∧ 10 * ((N % d : ℕ) : ℚ) / d < 10 := by
    refine ⟨by positivity, ?_⟩
    rw [div_lt_iff₀ hdq]
    linarith
  have hs : (if N % d = 0 then 0 else 1 : ℕ) ≤ 1 := by split_ifs <;> norm_num
  rw [hexact]
  generalize 10 * ((N % d : ℕ) : ℚ) / d = t at hfrac ⊢
  generalize (if N % d = 0 then 0 else 1 : ℕ) = s at hs ⊢
  have hsq : (s : ℚ) ≤ 1 := by exact_mod_cast hs
  have hbig : 10 ≤ 1 / 10 ^ 70 * (10 * (N / d : ℕ) + t) := by
    rw [div_mul_eq_mul_div, one_mul, le_div_iff₀ (by positivity)]
    linarith
  have habs : |((N / d * 10 + s : ℕ) : ℚ) - (10 * (N / d : ℕ) + t)| ≤
      1 / 10 ^ 70 * (10 * (N / d : ℕ) + t) := by
    rw [abs_le]
    push_cast
    constructor <;> linarith [(Nat.cast_nonneg s : (0 : ℚ) ≤ s)]
  exact Near.of_abs_sub_le habs (by positivity) (by norm_num)

/-- A dividend of at most seventy digits shifted to `71` digits more than the divisor has: it is
below `10 ^ 141`, and its quotient by the divisor is at least `10 ^ 70`. -/
lemma scaled_dividend_bounds {m n : ℕ} (hm0 : 0 < m) (hm : m < 10 ^ workingDigits)
    (hn : n < 10 ^ workingDigits) :
    m * 10 ^ (workingDigits + 1 + digitCount n - digitCount m) < 10 ^ 141 ∧
      10 ^ 70 * n ≤ m * 10 ^ (workingDigits + 1 + digitCount n - digitCount m) := by
  have h155 : (10 : ℕ) ^ workingDigits < 10 ^ 155 := by decide
  have hdm : digitCount m ≤ workingDigits := (digitCount_le_iff (hm.trans h155)).2 hm
  have hdn : digitCount n ≤ workingDigits := (digitCount_le_iff (hn.trans h155)).2 hn
  have hdm0 : 0 < digitCount m := digitCount_pos hm0.ne' (hm.trans h155)
  simp only [workingDigits] at hdm hdn ⊢
  constructor
  · calc m * 10 ^ (70 + 1 + digitCount n - digitCount m)
        < 10 ^ digitCount m * 10 ^ (70 + 1 + digitCount n - digitCount m) :=
          Nat.mul_lt_mul_of_pos_right (lt_ten_pow_digitCount (hm.trans h155))
            (Nat.pow_pos (by norm_num))
      _ = 10 ^ (71 + digitCount n) := by rw [← pow_add]; congr 1; omega
      _ ≤ 10 ^ 141 := Nat.pow_le_pow_right (by norm_num) (by omega)
  · calc 10 ^ 70 * n ≤ 10 ^ 70 * 10 ^ digitCount n :=
          Nat.mul_le_mul_left _ (lt_ten_pow_digitCount (hn.trans h155)).le
      _ = 10 ^ (digitCount m - 1) * 10 ^ (70 + 1 + digitCount n - digitCount m) := by
          rw [← pow_add, ← pow_add]; congr 1; omega
      _ ≤ m * 10 ^ (70 + 1 + digitCount n - digitCount m) :=
          Nat.mul_le_mul_right _ (ten_pow_digitCount_le hm0.ne' (hm.trans h155))

/-- The places by which a quotient shifts its dividend: to `workingDigits + 1` digits more than the
divisor has, so that the integer quotient has `workingDigits + 1` or `workingDigits + 2` digits. -/
def quotientShift (a b : Decimal) : ℕ :=
  workingDigits + 1 + digitCount b.coefficient - digitCount a.coefficient

/-- The quotient `N / d` followed by a sticky digit, which is one exactly when the division leaves a
remainder. -/
def stickyQuotient (N d : ℕ) : ℕ := N / d * 10 + if N % d = 0 then 0 else 1

/-- A quotient of non-zero decimals of at most `workingDigits` digits, step by step: the sticky
quotient of the shifted dividend, rounded at the exponent lowered by the shift and by the sticky
digit. The coefficient arithmetic cannot fail on the way; the three exponent subtractions and the
rounding are what is left. -/
lemma div?_eq_ofParts {a b : Decimal} (ha : a.coefficient < 10 ^ workingDigits)
    (hb : b.coefficient < 10 ^ workingDigits) (ha0 : a.coefficient ≠ 0)
    (hb0 : b.coefficient ≠ 0) :
    a.div? b =
      (Word64.sub a.exponent b.exponent >>= fun e₁ =>
        Word64.sub e₁ (quotientShift a b) >>= fun e₂ => Word64.sub e₂ 1 >>= fun e₃ =>
          some <$> ofParts (a.negative != b.negative)
            (stickyQuotient (a.coefficient * 10 ^ quotientShift a b) b.coefficient) e₃) := by
  have h155 : (10 : ℕ) ^ workingDigits < 10 ^ 155 := by decide
  have hda : digitCount a.coefficient ≤ workingDigits := (digitCount_le_iff (ha.trans h155)).2 ha
  have hdb : digitCount b.coefficient ≤ workingDigits := (digitCount_le_iff (hb.trans h155)).2 hb
  simp only [workingDigits] at hda hdb
  unfold quotientShift stickyQuotient
  set shift := workingDigits + 1 + digitCount b.coefficient - digitCount a.coefficient with hshift
  set N := a.coefficient * 10 ^ shift with hN
  -- the shifted dividend has fewer than `141` digits, the sticky quotient fewer than `143`
  obtain ⟨hNhi, -⟩ := scaled_dividend_bounds (Nat.pos_of_ne_zero ha0) ha hb
  have hQ : N / b.coefficient < 10 ^ 141 := (Nat.div_le_self _ _).trans_lt hNhi
  set sticky := if N % b.coefficient = 0 then 0 else 1 with hsticky
  have hs : sticky ≤ 1 := by
    rw [hsticky]
    split_ifs <;> norm_num
  have hc : N / b.coefficient * 10 + sticky ≤ 10 ^ 154 := by
    have : (10 : ℕ) ^ 141 * 10 + 1 ≤ 10 ^ 154 := by norm_num
    omega
  unfold div?
  simp only [isZero, beq_iff_eq, ha0, hb0, if_false]
  rw [← hshift, if_neg (by simp only [workingDigits]; omega),
    tenPower_of_le (by simp only [shift, workingDigits, greatestTenPower]; omega),
    Checked.ok_bind, Word512.mul_of_lt (hNhi.trans (by norm_num)), Checked.ok_bind, ← hN,
    Word512.mul_of_lt (by omega), Checked.ok_bind, ← hsticky, Word512.add_of_le hc,
    Checked.ok_bind]

/-- The value of a quotient, written at the exponent of the sticky digit of a dividend shifted by
`k` places. -/
lemma val_div_val (a b : Decimal) (k : ℕ) :
    a.val / b.val = (if (a.negative != b.negative) = true then -1 else 1) *
      (10 * ((a.coefficient * 10 ^ k : ℕ) : ℚ) / b.coefficient *
        10 ^ (a.exponent - b.exponent - k - 1)) := by
  have hpow : (10 : ℚ) ^ (a.exponent - b.exponent - k - 1) =
      10 ^ a.exponent / (10 ^ b.exponent * 10 ^ k * 10) := by
    rw [zpow_sub₀ (by norm_num), zpow_sub₀ (by norm_num), zpow_sub₀ (by norm_num), zpow_natCast,
      zpow_one, div_div, div_div, mul_assoc]
  rw [hpow]
  obtain ⟨na, ca, ea⟩ := a
  obtain ⟨nb, cb, eb⟩ := b
  cases na <;> cases nb <;> simp [val] <;> field_simp

/-- The quotient of two working decimals is the exact quotient within two rounding factors: one
for the sticky digit and one for the final rounding. -/
theorem div_near {a b : Decimal} (ha : a.Working) (hb : b.Working) :
    ∃ z, a.div? b = .ok (some z) ∧ z.Positive workingDigits ∧
      Near (roundingFactor workingDigits ^ 2) z.val (a.val / b.val) := by
  obtain ⟨⟨hnega, hca0, hca⟩, hea⟩ := ha
  obtain ⟨⟨hnegb, hcb0, hcb⟩, heb⟩ := hb
  have h155 : (10 : ℕ) ^ workingDigits < 10 ^ 155 := by decide
  have hda70 : digitCount a.coefficient ≤ workingDigits :=
    (digitCount_le_iff (hca.trans h155)).2 hca
  have hdb70 : digitCount b.coefficient ≤ workingDigits :=
    (digitCount_le_iff (hcb.trans h155)).2 hcb
  simp only [workingDigits] at hda70 hdb70
  set shift := quotientShift a b with hshift
  set N := a.coefficient * 10 ^ shift with hN
  -- the scaled dividend has `71 + db` digits, so its quotient by `b` has `71` or `72`
  obtain ⟨hNhi, hNlo⟩ : N < 10 ^ 141 ∧ 10 ^ 70 * b.coefficient ≤ N :=
    scaled_dividend_bounds hca0 hca hcb
  have hQ : N / b.coefficient < 10 ^ 141 := (Nat.div_le_self _ _).trans_lt hNhi
  have hQlo : 10 ^ 70 ≤ N / b.coefficient := (Nat.le_div_iff_mul_le hcb0).2 (by linarith)
  set c := stickyQuotient N b.coefficient with hc
  have hs : (if N % b.coefficient = 0 then 0 else 1) ≤ 1 := by split_ifs <;> norm_num
  have hcpos : 0 < c := by
    have : 0 < 10 ^ 70 := Nat.pow_pos (by norm_num)
    rw [hc, stickyQuotient]
    omega
  have hc155 : c < 10 ^ 155 := by
    have : N / b.coefficient * 10 < 10 ^ 142 := by rw [pow_succ]; omega
    have : 10 ^ 142 + 1 < 10 ^ 155 := by norm_num
    rw [hc, stickyQuotient]
    omega
  -- exponents stay far inside 64 bits
  rw [abs_le] at hea heb
  have hfits : ∀ k : ℤ, |k| ≤ 2 ^ 62 → Word64.Fits k := fun k hk => Word64.fits_of_abs_le hk
  have hshift' : (shift : ℤ) ≤ 141 := by simp only [shift, quotientShift, workingDigits]; omega
  have he₁ := hfits (a.exponent - b.exponent) (abs_le.2 ⟨by omega, by omega⟩)
  have he₂ := hfits (a.exponent - b.exponent - shift) (abs_le.2 ⟨by omega, by omega⟩)
  have he₃ := hfits (a.exponent - b.exponent - shift - 1) (abs_le.2 ⟨by omega, by omega⟩)
  have hdc : digitCount c ≤ 155 := digitCount_le_of_lt hc155
  obtain ⟨z, hz, hzpos, -, -, hnear⟩ := ofParts_near hcpos hc155 he₃
    (by unfold Word64.greatest; omega)
  refine ⟨z, ?_, hzpos, ?_⟩
  · rw [div?_eq_ofParts hca hcb hca0.ne' hcb0.ne', ← hshift, ← hN, ← hc, Word64.sub_of_fits he₁,
      Checked.ok_bind, Word64.sub_of_fits he₂, Checked.ok_bind, Word64.sub_of_fits he₃,
      Checked.ok_bind, hnega, hnegb]
    simp [hz]
  · -- the value before the final rounding is `10 * N / b` at the last exponent
    have hpre : a.val / b.val =
        10 * N / b.coefficient * 10 ^ (a.exponent - b.exponent - shift - 1) := by
      rw [val_div_val a b shift, hnega, hnegb, hN]
      simp
    have hsticky' := (sticky_near hcb0 hNlo).mul_right
      (by positivity : (0 : ℚ) ≤ 10 ^ (a.exponent - b.exponent - shift - 1))
    rw [hpre, sq]
    have hfactor : (1 + 2 * (1 / 10 ^ 70) : ℚ) ≤ roundingFactor workingDigits := by
      unfold roundingFactor workingDigits
      norm_num
    have hrf : (0 : ℚ) ≤ roundingFactor workingDigits :=
      zero_le_one.trans (one_le_roundingFactor _)
    exact (hnear.trans hsticky' hrf (by positivity)).mono
      (mul_le_mul_of_nonneg_left hfactor hrf) hzpos.val_pos.le (by positivity)

/-- The reciprocal of a working decimal is within two rounding factors of the exact reciprocal. -/
theorem recip_near {x : Decimal} (hx : x.Working) :
    ∃ r, x.recip? = .ok (some r) ∧ r.Positive workingDigits ∧
      Near (roundingFactor workingDigits ^ 2) r.val x.val⁻¹ := by
  obtain ⟨r, hr, hrpos, hrnear⟩ := div_near one_working hx
  rw [one_val, one_div] at hrnear
  exact ⟨r, hr, hrpos, hrnear⟩

/-! ## Comparison -/

/-- A bounded decimal has its exponent and its leading digit far inside the 64-bit range. -/
lemma Bounded.fits {x : Decimal} (hx : x.Bounded) :
    Word64.Fits x.exponent ∧ ¬ x.LeadOverflows := by
  have hdc : digitCount x.coefficient ≤ 155 :=
    digitCount_le_of_lt (hx.coefficient_lt.trans (by decide))
  have he := abs_le.1 hx.exponent_le
  refine ⟨Word64.fits_of_abs_le (hx.exponent_le.trans (by norm_num)), ?_⟩
  unfold LeadOverflows Word64.greatest
  omega

/-- The order of two bounded decimals is the order of their values: zeros of either sign are
equal, a negative value is below a non-negative one, and two negatives compare by reversed
magnitude. -/
theorem cmp_eq {a b : Decimal} (ha : a.Bounded) (hb : b.Bounded) :
    a.cmp b = .ok (compare a.val b.val) := by
  rw [cmp_eq_of_fits ha.coefficient_lt hb.coefficient_lt ha.fits.1 hb.fits.1,
    if_neg (fun h => h.2.2.2.elim ha.fits.2 hb.fits.2)]

/-! ## Powers -/

end Decimal

namespace Near

/-- Composing errors through one rounded product: if `z` is within `k` of `u * v`, and `u`, `v`
are within `k ^ α`, `k ^ β` of `U`, `V`, then `z` is within `k ^ (α + β + 1)` of `U * V`. -/
lemma mul_step {k z u v U V : ℚ} {α β : ℕ} (hz : Near k z (u * v)) (hu : Near (k ^ α) u U)
    (hv : Near (k ^ β) v V) (hk : 0 ≤ k) (hu0 : 0 ≤ u) (hU : 0 ≤ U) (hv0 : 0 ≤ v) (hV : 0 ≤ V) :
    Near (k ^ (α + β + 1)) z (U * V) := by
  have h := hz.trans (hu.mul hv (by positivity) hu0 hU hv0 hV) hk (by positivity)
  rwa [show k * (k ^ α * k ^ β) = k ^ (α + β + 1) by ring] at h

/-- A positive value within a factor `k ≤ 2` of a value between `10 ^ -99` and `10 ^ 99` lies
between `10 ^ -100` and `10 ^ 100`. -/
lemma ten_pow_bounds {k a V : ℚ} (h : Near k a V) (ha : 0 < a) (hk : k ≤ 2)
    (hV : 1 / 10 ^ 99 ≤ V) (hV' : V ≤ 10 ^ 99) : (10 : ℚ) ^ (-100 : ℤ) ≤ a ∧ a ≤ 10 ^ (100 : ℤ) := by
  have hk0 : 0 ≤ k := by nlinarith [h.2]
  constructor
  · have : 1 / 10 ^ 99 ≤ 2 * a := by nlinarith [h.2]
    have h10 : (10 : ℚ) ^ (-100 : ℤ) ≤ 1 / 10 ^ 99 / 2 := by norm_num
    exact h10.trans (by linarith)
  · have : a ≤ 2 * 10 ^ 99 := by nlinarith [h.1]
    have h10 : (2 : ℚ) * 10 ^ 99 ≤ 10 ^ (100 : ℤ) := by norm_num
    linarith

end Near

namespace Decimal

/-- A positive decimal within a factor `k ≤ 2` of a value between `10 ^ -99` and `10 ^ 99` is a
working decimal. -/
lemma Positive.working_of_near {x : Decimal} {k V : ℚ} (hx : x.Positive workingDigits)
    (h : Near k x.val V) (hk : k ≤ 2) (hV : 1 / 10 ^ 99 ≤ V) (hV' : V ≤ 10 ^ 99) :
    x.Working :=
  have hb := h.ten_pow_bounds hx.val_pos hk hV hV'
  hx.working_of_val hb.1 hb.2

/-- Rounding a working decimal to `D` significant digits does not overflow and stays within one
rounding factor. -/
theorem Working.roundSig_near {x : Decimal} (hx : x.Working) {D : ℕ} (hD : 0 < D) :
    ∃ r, x.roundSig D = .ok r ∧ r.Positive D ∧ Near (roundingFactor D) r.val x.val := by
  have hdigits : digitCount x.coefficient ≤ 155 :=
    digitCount_le_of_lt (hx.positive.coefficient_lt.trans (by norm_num [workingDigits]))
  have he := hx.exponent_le
  rw [abs_le] at he
  obtain ⟨r, hr, hrpos, -, -, hnear⟩ := Decimal.roundSig_near hD
    (hx.positive.mono (by norm_num [workingDigits]))
    (Word64.fits_of_abs_le (hx.exponent_le.trans (by norm_num)))
    (by unfold Word64.greatest; omega)
  exact ⟨r, hr, hrpos, hnear⟩

section Powers

variable {X : ℚ} {n : ℕ}

/-- A positive decimal within `e ≤ n` rounding factors of a power `X ^ m` with `m ≤ n` is a working
decimal, while `n` factors stay within two and `X ^ n ≤ 10 ^ 99`. -/
lemma Positive.working_of_near_pow {x : Decimal} {e m : ℕ} (hX : 1 ≤ X)
    (hK : roundingFactor workingDigits ^ n ≤ 2) (hXn : X ^ n ≤ 10 ^ 99)
    (hx : x.Positive workingDigits) (h : Near (roundingFactor workingDigits ^ e) x.val (X ^ m))
    (he : e ≤ n) (hm : m ≤ n) : x.Working :=
  hx.working_of_near h ((pow_le_pow_right₀ (one_le_roundingFactor _) he).trans hK)
    ((by norm_num : (1 : ℚ) / 10 ^ 99 ≤ 1).trans (one_le_pow₀ hX))
    ((pow_le_pow_right₀ hX hm).trans hXn)

/-- The rounded product of two operands near powers of `X` is near the product power, with one
rounding factor more. -/
lemma mul_near_pow {u v : Decimal} {α β i k : ℕ} (hX : 1 ≤ X) (hu : u.Working) (hv : v.Working)
    (hui : Near (roundingFactor workingDigits ^ α) u.val (X ^ i))
    (hvk : Near (roundingFactor workingDigits ^ β) v.val (X ^ k)) :
    ∃ z, u.mul v = .ok z ∧ z.Positive workingDigits ∧
      Near (roundingFactor workingDigits ^ (α + β + 1)) z.val (X ^ (i + k)) := by
  obtain ⟨z, hz, hzpos, hzn⟩ := mul_near hu hv
  have hX0 : 0 ≤ X := zero_le_one.trans hX
  refine ⟨z, hz, hzpos, ?_⟩
  rw [pow_add X]
  exact hzn.mul_step hui hvk (zero_le_one.trans (one_le_roundingFactor _))
    hu.positive.val_pos.le (pow_nonneg hX0 _) hv.positive.val_pos.le (pow_nonneg hX0 _)

/-- The square-and-multiply loop towards `X ^ n`. Its invariant: the result is within
`K ^ a` of `X ^ a`, the square within `K ^ (j - 1)` of `X ^ j`, and `a + j * remaining = n`,
where `K` is the rounding factor of one product. Every operand then lies within a factor two of
a power of `X` no larger than `X ^ n`, so every product is a product of working decimals. -/
lemma powStep_near (hX : 1 ≤ X) (hK : roundingFactor workingDigits ^ n ≤ 2)
    (hXn : X ^ n ≤ 10 ^ 99) (remaining : ℕ) :
    ∀ (r s : Decimal) (a j : ℕ), r.Positive workingDigits → s.Positive workingDigits →
      Near (roundingFactor workingDigits ^ a) r.val (X ^ a) →
      Near (roundingFactor workingDigits ^ (j - 1)) s.val (X ^ j) → 0 < j →
      a + j * remaining = n →
      ∃ z, powStep r s remaining = .ok z ∧ z.Positive workingDigits ∧
        Near (roundingFactor workingDigits ^ n) z.val (X ^ n) := by
  set K := roundingFactor workingDigits with hKdef
  induction remaining using Nat.strong_induction_on with
  | _ remaining ih =>
  intro r s a j hr hs hra hsj hj hsum
  rw [powStep]
  by_cases h0 : remaining = 0
  · subst h0
    rw [if_pos rfl]
    simp only [mul_zero, add_zero] at hsum
    exact ⟨r, rfl, hr, hsum ▸ hra⟩
  rw [if_neg h0]
  have hjn : j ≤ n := by
    have : j ≤ j * remaining := Nat.le_mul_of_pos_right j (Nat.pos_of_ne_zero h0)
    omega
  have hsw : s.Working := hs.working_of_near_pow hX hK hXn hsj (by omega) hjn
  have hsplit : j * remaining = 2 * j * (remaining / 2) + j * (remaining % 2) := by
    conv_lhs => rw [← Nat.div_add_mod remaining 2]
    ring
  -- once the low bit is spent, squaring doubles the power of the square
  have next : ∀ (r' : Decimal) (a' : ℕ), r'.Positive workingDigits →
      Near (K ^ a') r'.val (X ^ a') → a' + 2 * j * (remaining / 2) = n →
      ∃ z, (if remaining / 2 = 0 then pure r' else
          (s.mul s >>= fun s' => powStep r' s' (remaining / 2))) = .ok z ∧
        z.Positive workingDigits ∧ Near (K ^ n) z.val (X ^ n) := by
    intro r' a' hr' hr'a hsum'
    by_cases hq : remaining / 2 = 0
    · rw [if_pos hq]
      rw [hq, mul_zero, add_zero] at hsum'
      exact ⟨r', rfl, hr', hsum' ▸ hr'a⟩
    rw [if_neg hq]
    obtain ⟨s', hs', hs'pos, hnear⟩ := mul_near_pow hX hsw hsw hsj hsj
    rw [show j - 1 + (j - 1) + 1 = 2 * j - 1 by omega, ← two_mul] at hnear
    rw [hs', Checked.ok_bind]
    exact ih (remaining / 2) (by omega) r' s' a' (2 * j) hr' hs'pos hr'a hnear (by omega)
      (by rw [← hsum', mul_assoc])
  -- the low bit of `remaining` multiplies the square into the result
  dsimp only
  by_cases hodd : remaining % 2 = 1
  · rw [if_pos hodd]
    have hrw : r.Working := hr.working_of_near_pow hX hK hXn hra (by nlinarith) (by nlinarith)
    obtain ⟨z, hz, hzpos, hnear⟩ := mul_near_pow hX hrw hsw hra hsj
    rw [show a + (j - 1) + 1 = a + j by omega] at hnear
    rw [hz, Checked.ok_bind]
    exact next z (a + j) hzpos hnear (by rw [hodd] at hsplit; linarith)
  · rw [if_neg hodd, Checked.pure_eq, Checked.ok_bind]
    exact next r a hr hra (by rw [show remaining % 2 = 0 by omega] at hsplit; linarith)

/-- A power `x ^ n` of a positive working decimal `x ≥ 1`, while `n` rounding factors stay
within two and `x ^ n ≤ 10 ^ 99`, does not overflow and is within `n` rounding factors of the
exact power. -/
theorem pow_near {x : Decimal} (hx : x.Positive workingDigits) (hX : 1 ≤ x.val)
    (hK : roundingFactor workingDigits ^ n ≤ 2) (hXn : x.val ^ n ≤ 10 ^ 99) :
    ∃ z, x.pow n = .ok z ∧ z.Positive workingDigits ∧
      Near (roundingFactor workingDigits ^ n) z.val (x.val ^ n) := by
  have hone : one.Positive workingDigits := ⟨rfl, by decide, by decide⟩
  refine powStep_near hX hK hXn n one x 0 1 hone hx ?_ ?_ one_pos (by ring)
  · rw [one_val, pow_zero, pow_zero]
    exact Near.refl le_rfl zero_le_one
  · rw [pow_zero, pow_one]
    exact Near.refl le_rfl (by linarith)

end Powers

end Decimal

end TickGrid
