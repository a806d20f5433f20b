import TickGrid.Proofs.Decimal.Arith
import TickGrid.Binary64.Basic

/-!
# Positive normal doubles

A positive decimal of moderate size converts to a positive normal double: its sign bit is
clear, and its biased exponent is neither zero (the subnormals and zero) nor all ones (the
infinities and NaN). `floorLog2` finds the binary order of magnitude of `n / d` to within one and
corrects it, so the rounded significand of a value in the normal range has exactly
fifty-three bits.

The bounds `2 ^ floorLog2 n d ≤ n / d < 2 ^ (floorLog2 n d + 1)` are `floorLog2_bounds`. From them a
positive quotient well inside the normal range rounds to a positive normal double
(`round_positiveNormal`), and so does a positive working decimal between `2 ^ -200` and `2 ^ 200`
(`toBinary64_positiveNormal`).
-/

namespace TickGrid

namespace Binary64

/-- A positive normal double: the sign bit clear and the biased exponent strictly between the
all-zero pattern of the subnormals and the all-one pattern of the infinities and NaN. -/
structure PositiveNormal (x : Binary64) : Prop where
  negative_eq : x.negative = false
  biased_pos : 0 < x.biased
  biased_lt : x.biased < 2047

/-- The sign and exponent fields of a positive pattern read back as written. -/
lemma ofFields_fields {b f : ℕ} (hb : b < 2047) (hf : f < 2 ^ 52) :
    (ofFields false b f).negative = false ∧ (ofFields false b f).biased = b := by
  have hbits : (ofFields false b f).bits.toNat = b * 2 ^ 52 + f := by
    unfold ofFields
    simp only [Bool.false_eq_true, if_false, zero_add, Nat.pow_eq]
    rw [UInt64.toNat_ofNat']
    exact Nat.mod_eq_of_lt (by omega)
  constructor
  · simp only [negative, hbits, Nat.pow_eq, decide_eq_false_iff_not, not_le]
    omega
  · simp only [biased, hbits, Nat.pow_eq]
    rw [Nat.mul_comm, Nat.mul_add_div (by norm_num), Nat.div_eq_of_lt hf, add_zero]
    exact Nat.mod_eq_of_lt (by omega)

lemma ofFields_positiveNormal {b f : ℕ} (hb : 0 < b) (hb' : b < 2047) (hf : f < 2 ^ 52) :
    (ofFields false b f).PositiveNormal := by
  obtain ⟨hneg, hbiased⟩ := ofFields_fields hb' hf
  refine ⟨hneg, ?_, ?_⟩ <;> rw [hbiased] <;> assumption

/-- A power of two with an integer exponent as a quotient of powers with natural exponents. -/
lemma two_zpow_eq_div (t : ℤ) : (2 : ℚ) ^ t = 2 ^ t.toNat / 2 ^ (-t).toNat := by
  conv_lhs => rw [← Int.toNat_sub_toNat_neg t]
  rw [zpow_sub₀ (by norm_num), zpow_natCast, zpow_natCast]

/-- The test of `floorLog2` compares `n / d` with `2 ^ t`. -/
lemma le_div_iff_two_zpow_le {n d : ℕ} (hd : 0 < d) (t : ℤ) :
    d * 2 ^ t.toNat ≤ n * 2 ^ (-t).toNat ↔ (2 : ℚ) ^ t ≤ n / d := by
  rw [two_zpow_eq_div, div_le_div_iff₀ (by positivity) (by exact_mod_cast hd)]
  constructor
  · intro h
    have : ((d * 2 ^ t.toNat : ℕ) : ℚ) ≤ ((n * 2 ^ (-t).toNat : ℕ) : ℚ) := by exact_mod_cast h
    push_cast at this
    linarith
  · intro h
    have : ((d * 2 ^ t.toNat : ℕ) : ℚ) ≤ ((n * 2 ^ (-t).toNat : ℕ) : ℚ) := by
      push_cast
      linarith
    exact_mod_cast this

/-- `floorLog2 n d` is the floor of the binary logarithm of `n / d`. The difference `t` of the
bit lengths is the floor or one more, since `2 ^ (t - 1) < n / d < 2 ^ (t + 1)`; the test
decides which. -/
theorem floorLog2_bounds {n d : ℕ} (hn : 0 < n) (hd : 0 < d) :
    (2 : ℚ) ^ floorLog2 n d ≤ n / d ∧ (n / d : ℚ) < 2 ^ (floorLog2 n d + 1) := by
  set t : ℤ := (Nat.log2 n : ℤ) - Nat.log2 d with ht
  have hn₁ : ((2 ^ Nat.log2 n : ℕ) : ℚ) ≤ n := by exact_mod_cast Nat.log2_self_le hn.ne'
  have hn₂ : (n : ℚ) < ((2 ^ (Nat.log2 n + 1) : ℕ) : ℚ) := by exact_mod_cast Nat.lt_log2_self
  have hd₁ : ((2 ^ Nat.log2 d : ℕ) : ℚ) ≤ d := by exact_mod_cast Nat.log2_self_le hd.ne'
  have hd₂ : (d : ℚ) < ((2 ^ (Nat.log2 d + 1) : ℕ) : ℚ) := by exact_mod_cast Nat.lt_log2_self
  push_cast at hn₁ hn₂ hd₁ hd₂
  have hdq : (0 : ℚ) < d := by exact_mod_cast hd
  -- the bit lengths put `n / d` strictly between `2 ^ (t - 1)` and `2 ^ (t + 1)`
  have hlow : (2 : ℚ) ^ (t - 1) ≤ n / d := by
    rw [le_div_iff₀ hdq, ht, show (Nat.log2 n : ℤ) - Nat.log2 d - 1 =
      (Nat.log2 n : ℤ) - (Nat.log2 d + 1 : ℕ) by push_cast; ring, zpow_sub₀ (by norm_num),
      zpow_natCast, zpow_natCast, div_mul_eq_mul_div, div_le_iff₀ (by positivity)]
    nlinarith [pow_pos (two_pos : (0 : ℚ) < 2) (Nat.log2 n)]
  have hhigh : (n / d : ℚ) < 2 ^ (t + 1) := by
    rw [div_lt_iff₀ hdq, ht, show (Nat.log2 n : ℤ) - Nat.log2 d + 1 =
      (Nat.log2 n + 1 : ℕ) - (Nat.log2 d : ℕ) by push_cast; ring, zpow_sub₀ (by norm_num),
      zpow_natCast, zpow_natCast, div_mul_eq_mul_div, lt_div_iff₀ (by positivity)]
    nlinarith [pow_pos (two_pos : (0 : ℚ) < 2) (Nat.log2 n + 1)]
  unfold floorLog2
  dsimp only [Nat.pow_eq]
  rw [← ht]
  split_ifs with htest
  · exact ⟨(le_div_iff_two_zpow_le hd t).1 htest, hhigh⟩
  · refine ⟨hlow, ?_⟩
    rw [sub_add_cancel]
    exact lt_of_not_ge (fun h => htest ((le_div_iff_two_zpow_le hd t).2 h))

/-- Half-even rounding of `n / d` is the floor or one more. -/
lemma divRound_bounds (n d : ℕ) : n / d ≤ divRound n d ∧ divRound n d ≤ n / d + 1 := by
  unfold divRound
  dsimp only
  split_ifs <;> omega

/-- Scaled by `2 ^ (52 - floorLog2 n d)`, the quotient `n / d` has a floor of fifty-three bits. -/
lemma scaled_div_bounds {n d : ℕ} (hn : 0 < n) (hd : 0 < d) :
    2 ^ 52 ≤ n * 2 ^ (52 - floorLog2 n d).toNat / (d * 2 ^ (-(52 - floorLog2 n d)).toNat) ∧
      n * 2 ^ (52 - floorLog2 n d).toNat / (d * 2 ^ (-(52 - floorLog2 n d)).toNat) < 2 ^ 53 := by
  obtain ⟨hlow, hhigh⟩ := floorLog2_bounds hn hd
  set e := floorLog2 n d with he
  set N := n * 2 ^ (52 - e).toNat with hN
  set D := d * 2 ^ (-(52 - e)).toNat with hD
  have hDpos : 0 < D := Nat.mul_pos hd (by positivity)
  -- the scaled quotient `N / D = n / d * 2 ^ (52 - e)` lies in `[2 ^ 52, 2 ^ 53)`
  have hscaled : (N / D : ℚ) = n / d * 2 ^ (52 - e) := by
    rw [hN, hD, two_zpow_eq_div]
    push_cast
    field_simp
  have hq : (0 : ℚ) < 2 ^ (52 - e) := by positivity
  constructor
  · rw [Nat.le_div_iff_mul_le hDpos]
    have : (2 : ℚ) ^ 52 ≤ N / D := by
      rw [hscaled, show (2 : ℚ) ^ 52 = 2 ^ e * 2 ^ (52 - e) by
        rw [← zpow_add₀ (by norm_num), add_sub_cancel]; norm_num]
      exact mul_le_mul_of_nonneg_right hlow hq.le
    rw [le_div_iff₀ (by exact_mod_cast hDpos)] at this
    exact_mod_cast this
  · rw [Nat.div_lt_iff_lt_mul hDpos]
    have : (N / D : ℚ) < 2 ^ 53 := by
      rw [hscaled, show (2 : ℚ) ^ 53 = 2 ^ (e + 1) * 2 ^ (52 - e) by
        rw [← zpow_add₀ (by norm_num), show e + 1 + (52 - e) = 53 by ring]; norm_num]
      exact mul_lt_mul_of_pos_right hhigh hq
    rw [div_lt_iff₀ (by exact_mod_cast hDpos)] at this
    exact_mod_cast this

/-- A positive quotient `n / d * 2 ^ s` whose binary order of magnitude lies within `1022` of zero
rounds to a positive normal double: scaled by `2 ^ (52 - e)` it lies in `[2 ^ 52, 2 ^ 53)`, so
its rounded significand has fifty-three bits, or is `2 ^ 53` and carries into the exponent. -/
theorem round_positiveNormal {n d : ℕ} {s : ℤ} (hn : 0 < n) (hd : 0 < d)
    (he₁ : -1022 ≤ floorLog2 n d + s) (he₂ : floorLog2 n d + s ≤ 1022) :
    (round false n d s).PositiveNormal := by
  obtain ⟨hND₁, hND₂⟩ := scaled_div_bounds hn hd
  set e := floorLog2 n d with he
  set N := n * 2 ^ (52 - e).toNat with hN
  set D := d * 2 ^ (-(52 - e)).toNat with hD
  have hm := divRound_bounds N D
  unfold round
  rw [if_neg hn.ne']
  dsimp only [Nat.pow_eq]
  rw [max_eq_left (by omega), show s - (e + s - 52) = 52 - e by ring,
    show e + s - 52 - s = -(52 - e) by ring, ← hN, ← hD]
  generalize divRound N D = m at hm
  by_cases h53 : m = 2 ^ 53
  · -- a significand of `2 ^ 53` carries into the exponent
    rw [if_pos h53]
    dsimp only
    rw [if_neg (by norm_num), if_neg (by omega)]
    exact ofFields_positiveNormal (by omega) (by omega) (by norm_num)
  · rw [if_neg h53]
    dsimp only
    rw [if_neg (by omega), if_neg (by omega)]
    exact ofFields_positiveNormal (by omega) (by omega) (by omega)

end Binary64

namespace Decimal

open Binary64

/-- A positive working decimal between `2 ^ -200` and `2 ^ 200` converts to a positive normal
double. Its leading digit is far from both cut-offs of the conversion, and the quotient it is
rounded from, `c * 10 ^ e / 1` or `c / 10 ^ -e`, is its value. -/
theorem toBinary64_positiveNormal {x : Decimal} (hx : x.Working) (hlo : 1 / 2 ^ 200 ≤ x.val)
    (hhi : x.val ≤ 2 ^ 200) : x.toBinary64.PositiveNormal := by
  have hc0 : x.coefficient ≠ 0 := hx.positive.coefficient_pos.ne'
  have hval : |x.val| = x.val := abs_of_pos hx.positive.val_pos
  obtain ⟨hl₁, hl₂⟩ := abs_val_bounds hc0
    (hx.positive.coefficient_lt.trans (by norm_num [workingDigits]))
  rw [hval] at hl₁ hl₂
  -- the leading digit lies between `10 ^ -62` and `10 ^ 61`
  have hlead₁ : x.exponent + digitCount x.coefficient - 1 < 61 := by
    have h : (10 : ℚ) ^ (x.exponent + digitCount x.coefficient - 1) < 10 ^ (61 : ℤ) :=
      hl₁.trans_lt (hhi.trans_lt (by norm_num))
    exact (zpow_lt_zpow_iff_right₀ (by norm_num)).1 h
  have hlead₂ : -62 < x.exponent + digitCount x.coefficient - 1 := by
    have h : (10 : ℚ) ^ (-61 : ℤ) < 10 ^ (x.exponent + digitCount x.coefficient - 1 + 1) :=
      lt_of_le_of_lt (by norm_num) (hlo.trans_lt hl₂)
    have := (zpow_lt_zpow_iff_right₀ (by norm_num)).1 h
    omega
  -- a quotient equal to the value has its binary order of magnitude within `201` of zero
  have key : ∀ n d : ℕ, 0 < n → 0 < d → (n / d : ℚ) = x.val →
      (round false n d 0).PositiveNormal := by
    intro n d hn hd hnd
    obtain ⟨hfl₁, hfl₂⟩ := floorLog2_bounds hn hd
    rw [hnd] at hfl₁ hfl₂
    have h₁ : floorLog2 n d ≤ 200 :=
      (zpow_le_zpow_iff_right₀ (by norm_num : (1 : ℚ) < 2)).1
        (hfl₁.trans (hhi.trans_eq (zpow_natCast 2 200).symm))
    have h₂ : -200 < floorLog2 n d + 1 := by
      have h : (2 : ℚ) ^ (-200 : ℤ) < 2 ^ (floorLog2 n d + 1) :=
        lt_of_eq_of_lt (by norm_num) (hlo.trans_lt hfl₂)
      exact (zpow_lt_zpow_iff_right₀ (by norm_num)).1 h
    exact round_positiveNormal hn hd (by omega) (by omega)
  have hneg : x.isNegative = false := by simp [isNegative, hx.positive.negative_eq]
  have hcpos := hx.positive.coefficient_pos
  unfold toBinary64
  rw [if_neg hc0, if_neg (by omega), if_neg (by omega), hneg]
  split_ifs with he
  · refine key _ 1 (Nat.mul_pos hcpos (Nat.pow_pos (by norm_num))) one_pos ?_
    have hpow : (10 : ℚ) ^ x.exponent = 10 ^ x.exponent.toNat := by
      rw [← zpow_natCast, Int.toNat_of_nonneg he]
    rw [hx.positive.val_eq, hpow, Nat.pow_eq]
    push_cast
    ring
  · refine key _ _ hcpos (Nat.pow_pos (by norm_num)) ?_
    have hpow : (10 : ℚ) ^ x.exponent = (10 ^ (-x.exponent).toNat)⁻¹ := by
      rw [← zpow_natCast, Int.toNat_of_nonneg (by omega), zpow_neg, inv_inv]
    rw [hx.positive.val_eq, hpow, Nat.pow_eq]
    push_cast
    ring

end Decimal

end TickGrid
