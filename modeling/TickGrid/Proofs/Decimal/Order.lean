import TickGrid.Proofs.Decimal.Rounding
import TickGrid.Decimal.Arith

/-!
# The order of decimals

`Decimal.cmp` orders decimals by their sign, then by the position of the leading digit, then by
the coefficients brought to a common exponent. For coefficients of at most `workingDigits` digits
and any two 64-bit exponents it answers the comparison of the values (`cmp_eq_of_fits`): zeros of
either sign and any exponent are equal, and trailing zeros of a coefficient do not count.

The one exception is a leading digit past the 64-bit exponent range (`LeadOverflows`): its
position `exponent + digitCount - 1` is then no 64-bit integer, and the comparison of two non-zero
decimals on the same side of zero, which needs both positions, stops with an overflow of that sum
(`CmpOverflows`). Zeros and decimals of opposite signs are compared without it.

Magnitudes compare as absolute values (`cmpMagnitude_eq_of_fits`), and with the sign cases decimals
compare as their values (`cmp_eq_of_fits`); where the comparison returns, its equality is the
equality of the values (`cmp_eq_compare_val`). The decimal `10 ^ (2 ^ 63 - 1)` does not compare with
one (`cmp_greatest_exponent_overflows`).
-/

namespace TickGrid

namespace Decimal

/-! ## Values -/

lemma abs_val (x : Decimal) : |x.val| = x.coefficient * 10 ^ x.exponent := by
  unfold val
  split_ifs <;> simp [abs_mul]

lemma val_eq_zero_iff (x : Decimal) : x.val = 0 ↔ x.coefficient = 0 := by
  rw [← abs_eq_zero, abs_val, mul_eq_zero]
  simp [zpow_ne_zero _ (by norm_num : (10 : ℚ) ≠ 0)]

lemma val_neg_of_isNegative {x : Decimal} (h : x.isNegative = true) : x.val < 0 := by
  simp only [isNegative, Bool.and_eq_true, bne_iff_ne, ne_eq] at h
  have hc : (0 : ℚ) < x.coefficient := by exact_mod_cast Nat.pos_of_ne_zero h.2
  simp only [val, h.1, if_true]
  have : (0 : ℚ) < 10 ^ x.exponent := by positivity
  nlinarith

lemma val_nonneg_of_isNegative_false {x : Decimal} (h : x.isNegative = false) : 0 ≤ x.val := by
  simp only [isNegative, Bool.and_eq_false_iff, bne_eq_false_iff_eq] at h
  rcases h with h | h
  · rw [val_of_negative_false h]
    positivity
  · simp [val, h]

/-- Two comparisons agree when their strict orders agree both ways. -/
lemma compare_congr {α β : Type*} [LinearOrder α] [LinearOrder β] {a b : α} {a' b' : β}
    (hlt : a < b ↔ a' < b') (hgt : b < a ↔ b' < a') : compare a b = compare a' b' := by
  rcases lt_trichotomy a b with h | h | h
  · rw [compare_lt_iff_lt.2 h, compare_lt_iff_lt.2 (hlt.1 h)]
  · have h₁ : ¬ a' < b' := fun h' => (hlt.2 h').ne h
    have h₂ : ¬ b' < a' := fun h' => (hgt.2 h').ne h.symm
    rw [compare_eq_iff_eq.2 h, compare_eq_iff_eq.2 (le_antisymm (not_lt.1 h₂) (not_lt.1 h₁))]
  · rw [compare_gt_iff_gt.2 h, compare_gt_iff_gt.2 (hgt.1 h)]

lemma compare_mul_zpow (m n : ℕ) (e : ℤ) :
    compare ((m : ℚ) * 10 ^ e) ((n : ℚ) * 10 ^ e) = compare m n := by
  have ht : (0 : ℚ) < 10 ^ e := by positivity
  exact compare_congr (by rw [mul_lt_mul_iff_of_pos_right ht, Nat.cast_lt])
    (by rw [mul_lt_mul_iff_of_pos_right ht, Nat.cast_lt])

/-! ## Leading digits -/

/-- The leading digit of `x` stands past the 64-bit exponent range: the sum
`exponent + digitCount coefficient` behind its position overflows. -/
def LeadOverflows (x : Decimal) : Prop := Word64.greatest < x.exponent + digitCount x.coefficient

instance (x : Decimal) : Decidable x.LeadOverflows := inferInstanceAs (Decidable (_ < _))

/-- The position of the leading digit of a non-zero decimal, when it is within the 64-bit range. -/
lemma adjusted_eq_of_not_leadOverflows {x : Decimal} (h0 : x.coefficient ≠ 0)
    (hc : x.coefficient < 10 ^ 155) (he : Word64.Fits x.exponent) (htop : ¬ x.LeadOverflows) :
    x.adjusted = .ok (x.exponent + digitCount x.coefficient - 1) := by
  have hpos := digitCount_pos h0 hc
  have hle := he.1
  unfold LeadOverflows at htop
  rw [adjusted, Word64.add_of_fits ⟨by omega, by omega⟩, Checked.ok_bind,
    Word64.sub_of_fits ⟨by omega, by omega⟩]

/-- Past the 64-bit range the position of the leading digit is an overflow of its sum. -/
lemma adjusted_eq_error {x : Decimal} (htop : x.LeadOverflows) : x.adjusted = .error .add := by
  have hfit : ¬ Word64.Fits (x.exponent + digitCount x.coefficient) := fun h => by
    unfold LeadOverflows at htop
    have := h.2
    omega
  rw [adjusted, Word64.add, if_neg hfit]
  rfl

/-- The magnitude of a non-zero decimal lies between ten to its leading-digit exponent and ten to
one more. -/
lemma abs_val_bounds {x : Decimal} (h0 : x.coefficient ≠ 0) (hc : x.coefficient < 10 ^ 155) :
    (10 : ℚ) ^ (x.exponent + digitCount x.coefficient - 1) ≤ |x.val| ∧
      |x.val| < 10 ^ (x.exponent + digitCount x.coefficient - 1 + 1) := by
  have hpos := digitCount_pos h0 hc
  have hlo : (10 : ℚ) ^ (digitCount x.coefficient - 1) ≤ x.coefficient := by
    exact_mod_cast ten_pow_digitCount_le h0 hc
  have hhi : (x.coefficient : ℚ) < 10 ^ digitCount x.coefficient := by
    exact_mod_cast lt_ten_pow_digitCount hc
  have he : (0 : ℚ) < 10 ^ x.exponent := by positivity
  have hlead : x.exponent + digitCount x.coefficient - 1 =
      ((digitCount x.coefficient - 1 : ℕ) : ℤ) + x.exponent := by omega
  have hnext : x.exponent + digitCount x.coefficient - 1 + 1 =
      (digitCount x.coefficient : ℤ) + x.exponent := by omega
  rw [abs_val, hnext, hlead, zpow_add₀ (by norm_num), zpow_add₀ (by norm_num), zpow_natCast,
    zpow_natCast]
  exact ⟨mul_le_mul_of_nonneg_right hlo he.le, mul_lt_mul_of_pos_right hhi he⟩

/-- Leading digits further left mean a larger magnitude. -/
lemma abs_val_lt_of_adjusted_lt {a b : Decimal} (ha : a.coefficient ≠ 0) (hb : b.coefficient ≠ 0)
    (hca : a.coefficient < 10 ^ 155) (hcb : b.coefficient < 10 ^ 155)
    (h : a.exponent + digitCount a.coefficient - 1 < b.exponent + digitCount b.coefficient - 1) :
    |a.val| < |b.val| :=
  calc |a.val| < 10 ^ (a.exponent + digitCount a.coefficient - 1 + 1) := (abs_val_bounds ha hca).2
    _ ≤ 10 ^ (b.exponent + digitCount b.coefficient - 1) :=
        zpow_le_zpow_right₀ (by norm_num) (by omega)
    _ ≤ |b.val| := (abs_val_bounds hb hcb).1

/-- When the leading positions differ, their order is the order of the magnitudes. -/
lemma adjusted_lt_iff {a b : Decimal} (ha : a.coefficient ≠ 0) (hb : b.coefficient ≠ 0)
    (hca : a.coefficient < 10 ^ 155) (hcb : b.coefficient < 10 ^ 155)
    (hne : a.exponent + digitCount a.coefficient - 1 ≠ b.exponent + digitCount b.coefficient - 1) :
    a.exponent + digitCount a.coefficient - 1 < b.exponent + digitCount b.coefficient - 1 ↔
      |a.val| < |b.val| :=
  ⟨abs_val_lt_of_adjusted_lt ha hb hca hcb, fun h => lt_of_not_ge fun hle =>
    (abs_val_lt_of_adjusted_lt hb ha hcb hca (lt_of_le_of_ne hle hne.symm)).not_gt h⟩

/-- A magnitude is its coefficient shifted onto any smaller exponent. -/
lemma abs_val_eq_aligned (x : Decimal) {e : ℤ} (he : e ≤ x.exponent) :
    |x.val| = ((x.coefficient * 10 ^ (x.exponent - e).toNat : ℕ) : ℚ) * 10 ^ e := by
  rw [abs_val]
  push_cast
  rw [mul_assoc, ← zpow_natCast, ← zpow_add₀ (by norm_num), Int.toNat_of_nonneg (by omega)]
  congr 2
  omega

/-- Of two decimals of at most `workingDigits` digits with the same leading position, the
exponents differ by less than `workingDigits`, so the coefficient with the larger exponent,
shifted onto the other exponent, stays within 512 bits; the magnitude is that coefficient at the
smaller exponent. -/
lemma shift_onto_ok {x y : Decimal} (hcx : x.coefficient < 10 ^ workingDigits)
    (hcy : y.coefficient < 10 ^ workingDigits)
    (hlead : x.exponent + digitCount x.coefficient - 1 = y.exponent + digitCount y.coefficient - 1)
    (hge : y.exponent ≤ x.exponent) :
    Word64.sub x.exponent y.exponent = .ok (x.exponent - y.exponent) ∧
      tenPower (x.exponent - y.exponent).toNat = .ok (10 ^ (x.exponent - y.exponent).toNat) ∧
      Word512.mul x.coefficient (10 ^ (x.exponent - y.exponent).toNat) =
        .ok (x.coefficient * 10 ^ (x.exponent - y.exponent).toNat) ∧
      |x.val| = ((x.coefficient * 10 ^ (x.exponent - y.exponent).toNat : ℕ) : ℚ) *
        10 ^ y.exponent := by
  have hcx' : x.coefficient < 10 ^ 155 := hcx.trans (by decide)
  have hcy' : y.coefficient < 10 ^ 155 := hcy.trans (by decide)
  have hdx := (digitCount_le_iff hcx').2 hcx
  have hdy := (digitCount_le_iff hcy').2 hcy
  simp only [workingDigits] at hdx hdy
  -- the shift fills the coefficient up to the digit count of the other
  have hscaled : x.coefficient * 10 ^ (x.exponent - y.exponent).toNat < 10 ^ 154 :=
    calc x.coefficient * 10 ^ (x.exponent - y.exponent).toNat
        < 10 ^ digitCount x.coefficient * 10 ^ (x.exponent - y.exponent).toNat :=
          Nat.mul_lt_mul_of_pos_right (lt_ten_pow_digitCount hcx') (Nat.pow_pos (by norm_num))
      _ = 10 ^ digitCount y.coefficient := by rw [← pow_add]; congr 1; omega
      _ ≤ 10 ^ 154 := Nat.pow_le_pow_right (by norm_num) (by omega)
  exact ⟨Word64.sub_of_fits (Word64.fits_of_abs_le (abs_le.2 ⟨by omega, by omega⟩)),
    tenPower_of_le (by unfold greatestTenPower; omega), Word512.mul_of_lt hscaled,
    abs_val_eq_aligned x hge⟩

/-! ## Comparison -/

section Comparison

variable {a b : Decimal} (ha : a.coefficient < 10 ^ workingDigits)
  (hb : b.coefficient < 10 ^ workingDigits) (hea : Word64.Fits a.exponent)
  (heb : Word64.Fits b.exponent)
include ha hb hea heb

/-- The magnitudes of two decimals of at most `workingDigits` digits compare as their absolute
values, unless both are non-zero and one has its leading digit past the 64-bit range. -/
theorem cmpMagnitude_eq_of_fits :
    a.cmpMagnitude b =
      if a.coefficient ≠ 0 ∧ b.coefficient ≠ 0 ∧ (a.LeadOverflows ∨ b.LeadOverflows) then
        .error .add
      else .ok (compare |a.val| |b.val|) := by
  have hca : a.coefficient < 10 ^ 155 := ha.trans (by decide)
  have hcb : b.coefficient < 10 ^ 155 := hb.trans (by decide)
  have hza : |a.val| = 0 ↔ a.coefficient = 0 := by rw [abs_eq_zero, val_eq_zero_iff]
  have hzb : |b.val| = 0 ↔ b.coefficient = 0 := by rw [abs_eq_zero, val_eq_zero_iff]
  unfold cmpMagnitude isZero
  by_cases ha0 : a.coefficient = 0 <;> by_cases hb0 : b.coefficient = 0
  · simp [ha0, hb0, hza.2 ha0, hzb.2 hb0]
  · have hlt : |a.val| < |b.val| := by
      rw [hza.2 ha0]
      exact (abs_nonneg _).lt_of_ne (fun h => hb0 (hzb.1 h.symm))
    have hb0' : (b.coefficient == 0) = false := by simpa using hb0
    simp [ha0, hb0', compare_lt_iff_lt.2 hlt]
  · have hgt : |b.val| < |a.val| := by
      rw [hzb.2 hb0]
      exact (abs_nonneg _).lt_of_ne (fun h => ha0 (hza.1 h.symm))
    have ha0' : (a.coefficient == 0) = false := by simpa using ha0
    simp [ha0', hb0, compare_gt_iff_gt.2 hgt]
  have ha0' : (a.coefficient == 0) = false := by simpa using ha0
  have hb0' : (b.coefficient == 0) = false := by simpa using hb0
  simp only [ha0', hb0']
  -- a leading position past the 64-bit range stops the comparison, `a`'s first
  by_cases hoa : a.LeadOverflows
  · have hcond : a.coefficient ≠ 0 ∧ b.coefficient ≠ 0 ∧ (a.LeadOverflows ∨ b.LeadOverflows) :=
      ⟨ha0, hb0, .inl hoa⟩
    rw [adjusted_eq_error hoa, if_pos hcond]
    rfl
  rw [adjusted_eq_of_not_leadOverflows ha0 hca hea hoa, Checked.ok_bind]
  by_cases hob : b.LeadOverflows
  · have hcond : a.coefficient ≠ 0 ∧ b.coefficient ≠ 0 ∧ (a.LeadOverflows ∨ b.LeadOverflows) :=
      ⟨ha0, hb0, .inr hob⟩
    rw [adjusted_eq_error hob, if_pos hcond]
    rfl
  have hcond : ¬ (a.coefficient ≠ 0 ∧ b.coefficient ≠ 0 ∧ (a.LeadOverflows ∨ b.LeadOverflows)) :=
    fun h => h.2.2.elim hoa hob
  rw [adjusted_eq_of_not_leadOverflows hb0 hcb heb hob, Checked.ok_bind, if_neg hcond]
  by_cases hne : a.exponent + digitCount a.coefficient - 1 ≠ b.exponent + digitCount b.coefficient - 1
  · -- different leading positions decide
    rw [if_pos hne]
    congr 1
    exact compare_congr (adjusted_lt_iff ha0 hb0 hca hcb hne)
      (adjusted_lt_iff hb0 ha0 hcb hca (Ne.symm hne))
  rw [if_neg hne]
  rw [not_ne_iff] at hne
  -- same leading position: shift the coefficient with the larger exponent onto the other
  split_ifs with hge
  · obtain ⟨hsub, hten, hmul, hsplit⟩ := shift_onto_ok ha hb hne hge
    rw [hsub, Checked.ok_bind, hten, Checked.ok_bind, hmul, Checked.ok_bind, hsplit, abs_val b,
      compare_mul_zpow, Checked.pure_eq]
  · obtain ⟨hsub, hten, hmul, hsplit⟩ := shift_onto_ok hb ha hne.symm (by omega)
    rw [hsub, Checked.ok_bind, hten, Checked.ok_bind, hmul, Checked.ok_bind, hsplit, abs_val a,
      compare_mul_zpow, Checked.pure_eq]

omit ha hb hea heb in
/-- The comparison of two decimals overflows: both are non-zero, on the same side of zero, and one
has its leading digit past the 64-bit exponent range. -/
def CmpOverflows (a b : Decimal) : Prop :=
  a.coefficient ≠ 0 ∧ b.coefficient ≠ 0 ∧ a.isNegative = b.isNegative ∧
    (a.LeadOverflows ∨ b.LeadOverflows)

omit ha hb hea heb in
instance (a b : Decimal) : Decidable (a.CmpOverflows b) :=
  inferInstanceAs (Decidable (_ ∧ _))

/-- Two decimals of at most `workingDigits` digits compare as their values, unless their
comparison overflows. -/
theorem cmp_eq_of_fits :
    a.cmp b = if a.CmpOverflows b then .error .add else .ok (compare a.val b.val) := by
  unfold cmp
  cases hna : a.isNegative <;> cases hnb : b.isNegative
  · -- two non-negative values compare by magnitude
    have hiff : a.CmpOverflows b ↔
        (a.coefficient ≠ 0 ∧ b.coefficient ≠ 0 ∧ (a.LeadOverflows ∨ b.LeadOverflows)) := by
      simp [CmpOverflows, hna, hnb]
    rw [cmpMagnitude_eq_of_fits ha hb hea heb]
    by_cases h : a.CmpOverflows b
    · rw [if_pos (hiff.1 h), if_pos h]
    · rw [if_neg (fun h' => h (hiff.2 h')), if_neg h,
        abs_of_nonneg (val_nonneg_of_isNegative_false hna),
        abs_of_nonneg (val_nonneg_of_isNegative_false hnb)]
  · have hgt : b.val < a.val :=
      (val_neg_of_isNegative hnb).trans_le (val_nonneg_of_isNegative_false hna)
    have hno : ¬ a.CmpOverflows b := fun h => absurd h.2.2.1 (by simp [hna, hnb])
    rw [if_neg hno, compare_gt_iff_gt.2 hgt]
    rfl
  · have hlt : a.val < b.val :=
      (val_neg_of_isNegative hna).trans_le (val_nonneg_of_isNegative_false hnb)
    have hno : ¬ a.CmpOverflows b := fun h => absurd h.2.2.1 (by simp [hna, hnb])
    rw [if_neg hno, compare_lt_iff_lt.2 hlt]
    rfl
  · -- two negative values compare by reversed magnitude
    have hiff : a.CmpOverflows b ↔
        (b.coefficient ≠ 0 ∧ a.coefficient ≠ 0 ∧ (b.LeadOverflows ∨ a.LeadOverflows)) := by
      simp only [CmpOverflows, hna, hnb, true_and]
      tauto
    rw [cmpMagnitude_eq_of_fits hb ha heb hea]
    by_cases h : a.CmpOverflows b
    · rw [if_pos (hiff.1 h), if_pos h]
    · rw [if_neg (fun h' => h (hiff.2 h')), if_neg h, abs_of_neg (val_neg_of_isNegative hnb),
        abs_of_neg (val_neg_of_isNegative hna)]
      exact congrArg _ (compare_congr neg_lt_neg_iff neg_lt_neg_iff)

/-- Two decimals of at most `workingDigits` digits, with any signs, exponents and trailing zeros,
compare as their values unless their comparison overflows; the equality of the order is then the
equality of the values. -/
theorem cmp_eq_compare_val :
    a.cmp b = (if a.CmpOverflows b then .error .add else .ok (compare a.val b.val)) ∧
      (¬ a.CmpOverflows b → (a.cmp b = .ok .eq ↔ a.val = b.val)) := by
  have h := cmp_eq_of_fits ha hb hea heb
  refine ⟨h, fun hno => ?_⟩
  rw [h, if_neg hno, Except.ok.injEq, compare_eq_iff_eq]

end Comparison

/-- The decimals `1` and `1.000`, equal in the order. -/
theorem cmp_one_eq_compare_val :
    one.coefficient < 10 ^ workingDigits ∧
      (⟨false, 1000, -3⟩ : Decimal).coefficient < 10 ^ workingDigits ∧
      Word64.Fits one.exponent ∧ Word64.Fits (⟨false, 1000, -3⟩ : Decimal).exponent ∧
      (one.cmp ⟨false, 1000, -3⟩ = (if one.CmpOverflows ⟨false, 1000, -3⟩ then .error .add
          else .ok (compare one.val (⟨false, 1000, -3⟩ : Decimal).val)) ∧
        (¬ one.CmpOverflows ⟨false, 1000, -3⟩ →
          (one.cmp ⟨false, 1000, -3⟩ = .ok .eq ↔ one.val = (⟨false, 1000, -3⟩ : Decimal).val))) :=
  ⟨by decide, by decide, by decide, by decide,
    cmp_eq_compare_val (by decide) (by decide) (by decide) (by decide)⟩

/-- The decimal `10 ^ (2 ^ 63 - 1)`, at the greatest 64-bit exponent, does not compare with one:
both are positive, and the position of its leading digit, `exponent + digitCount - 1`, overflows
on the way. -/
theorem cmp_greatest_exponent_overflows :
    (⟨false, 1, 9223372036854775807⟩ : Decimal).cmp one = .error .add := by
  rw [cmp_eq_of_fits (by decide) (by decide) (by decide) (by decide), if_pos]
  exact ⟨by decide, by decide, rfl, .inl (by decide +kernel)⟩

end Decimal

end TickGrid
