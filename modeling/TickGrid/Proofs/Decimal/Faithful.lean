import TickGrid.Proofs.Decimal.HalfEven

/-!
# Faithful rounding to significant digits

The `D`-digit neighbours of a rational `q` are the multiples of its unit in the last place,
`lastUnit D q = 10 ^ (⌊log₁₀ |q|⌋ + 1 - D)`, at or below `q` and at or above it. A value is a
faithful rounding of `q` when it is one of the two (`Faithful`), and then it is within one unit in
the last place of `q`.

Rounding to nearest at `D` digits is faithful not only for `q` but for every approximation of `q`
closer than a twentieth of that unit (`faithful_roundSignificant`). Within the decade of `q` the
rounded approximation is a multiple of the unit less than one unit from `q`; when the
approximation and `q` lie on the two sides of a power of ten, the approximation rounds to that
power of ten, which is a multiple of the unit as well. So a value computed with guard digits and
rounded once more is a faithful rounding of the exact value, though not always its nearest.

A faithful rounding errs by less than one unit in the last place (`Faithful.abs_sub_lt`), and a
multiple of the unit less than one unit away is faithful (`faithful_of_abs_sub_lt`). A rational
close enough to a power of ten rounds to it (`roundSignificant_eq_zpow`), and one within a twentieth
of a unit of a decimal of at most `D` digits rounds to that decimal (`roundSignificant_eq_of_near`).
-/

namespace TickGrid

/-! ## The unit in the last place -/

/-- The unit in the last of `D` significant digits of `q`: ten to the place of its `D`-th digit. -/
def lastUnit (D : ℕ) (q : ℚ) : ℚ := 10 ^ (Int.log 10 |q| + 1 - D)

lemma lastUnit_pos (D : ℕ) (q : ℚ) : 0 < lastUnit D q := by
  unfold lastUnit
  positivity

lemma roundSignificant_eq (D : ℕ) (q : ℚ) :
    roundSignificant D q = roundHalfEven (q / lastUnit D q) * lastUnit D q := rfl

/-- A rational between two consecutive powers of ten has the lower one's exponent as logarithm. -/
lemma log_eq_of_zpow_le_of_lt {q : ℚ} {j : ℤ} (hlo : (10 : ℚ) ^ j ≤ q)
    (hhi : q < 10 ^ (j + 1)) : Int.log 10 q = j := by
  have hq : 0 < q := (zpow_pos (by norm_num) j).trans_le hlo
  have h₁ := (Int.zpow_le_iff_le_log (b := 10) (by norm_num) hq).1 (by exact_mod_cast hlo)
  have h₂ := (Int.lt_zpow_iff_log_lt (b := 10) (by norm_num) hq).1 (by exact_mod_cast hhi)
  omega

lemma lastUnit_of_zpow_le_of_lt {D : ℕ} {q : ℚ} {j : ℤ} (hlo : (10 : ℚ) ^ j ≤ q)
    (hhi : q < 10 ^ (j + 1)) : lastUnit D q = 10 ^ (j + 1 - D) := by
  rw [lastUnit, abs_of_pos ((zpow_pos (by norm_num) j).trans_le hlo),
    log_eq_of_zpow_le_of_lt hlo hhi]

/-- A power of ten is a multiple of every smaller power of ten. -/
lemma ten_pow_mul_zpow (n : ℕ) (k : ℤ) :
    (((10 ^ n : ℕ) : ℤ) : ℚ) * 10 ^ k = 10 ^ ((n : ℤ) + k) := by
  push_cast
  rw [← zpow_natCast, ← zpow_add₀ (by norm_num)]

/-- The distance of a multiple of a unit, measured in that unit. -/
lemma abs_intCast_mul_sub {u : ℚ} (hu : 0 < u) (m : ℤ) (q : ℚ) :
    |m * u - q| = |m - q / u| * u := by
  rw [← abs_of_pos hu, ← abs_mul, abs_of_pos hu, sub_mul, div_mul_cancel₀ _ hu.ne']

/-- A positive rational is below `10 ^ D` units in its last place. -/
lemma lt_ten_pow_mul_lastUnit (D : ℕ) {q : ℚ} (hq : 0 < q) : q < 10 ^ D * lastUnit D q := by
  have hhi : q < (10 : ℚ) ^ (Int.log 10 q + 1) := by
    exact_mod_cast Int.lt_zpow_succ_log_self (b := 10) (by norm_num) q
  rw [lastUnit, abs_of_pos hq, ← zpow_natCast, ← zpow_add₀ (by norm_num)]
  simpa using hhi

/-! ## Rounding to nearest -/

/-- Rounding to `D` digits moves a rational by at most half a unit in its last place. -/
lemma abs_roundSignificant_sub_le_half (D : ℕ) (q : ℚ) :
    |roundSignificant D q - q| ≤ lastUnit D q / 2 := by
  have hu := lastUnit_pos D q
  rw [roundSignificant_eq, abs_intCast_mul_sub hu]
  calc |(roundHalfEven (q / lastUnit D q) : ℚ) - q / lastUnit D q| * lastUnit D q
      ≤ 1 / 2 * lastUnit D q :=
        mul_le_mul_of_nonneg_right (abs_roundHalfEven_sub_le_half _) hu.le
    _ = lastUnit D q / 2 := by ring

/-- The integer nearest to `x` is any integer less than a half away. -/
lemma roundHalfEven_eq_of_abs_sub_lt {x : ℚ} {m : ℤ} (h : |x - m| < 1 / 2) :
    roundHalfEven x = m := by
  have hR := abs_roundHalfEven_sub_le x m
  rw [abs_sub_comm (m : ℚ) x] at hR
  have hlt : |((roundHalfEven x - m : ℤ) : ℚ)| < 1 := by
    push_cast
    calc |(roundHalfEven x : ℚ) - m| ≤ |(roundHalfEven x : ℚ) - x| + |x - m| := abs_sub_le _ _ _
      _ < 1 := by linarith
  have hint : |roundHalfEven x - m| < 1 := by exact_mod_cast hlt
  rw [abs_lt] at hint
  omega

/-- A rational less than half a unit in its own last place from a multiple of that unit rounds to
the multiple. -/
lemma roundSignificant_eq_of_abs_sub_lt {D : ℕ} {q : ℚ} {m : ℤ}
    (h : |m * lastUnit D q - q| < lastUnit D q / 2) : roundSignificant D q = m * lastUnit D q := by
  have hu := lastUnit_pos D q
  rw [abs_intCast_mul_sub hu, abs_sub_comm] at h
  rw [roundSignificant_eq, roundHalfEven_eq_of_abs_sub_lt]
  exact lt_of_mul_lt_mul_right (by linarith : |q / lastUnit D q - m| * lastUnit D q <
    1 / 2 * lastUnit D q) hu.le

/-- A rational less than half the spacing below a power of ten away from it rounds to it, from
the decade of the power as from the decade below. -/
lemma roundSignificant_eq_zpow {D : ℕ} (hD : 0 < D) {y : ℚ} {j : ℤ}
    (h : |y - 10 ^ j| < 10 ^ (j - D) / 2) : roundSignificant D y = 10 ^ j := by
  have hpow : (0 : ℚ) < 10 ^ j := by positivity
  have hnext : (10 : ℚ) ^ (j + 1) = 10 * 10 ^ j := by rw [zpow_add_one₀ (by norm_num), mul_comm]
  have hprev : (10 : ℚ) ^ (j - 1) = 10 ^ j / 10 := by
    rw [zpow_sub_one₀ (by norm_num), div_eq_mul_inv]
  -- the spacing below the power is at most a tenth of it
  have hspace : (10 : ℚ) ^ (j - D) ≤ 10 ^ j / 10 := by
    rw [← hprev]
    exact zpow_le_zpow_right₀ (by norm_num) (by omega)
  rw [abs_lt] at h
  by_cases hy : 10 ^ j ≤ y
  · -- in the decade of the power, whose unit is `10 ^ (j + 1 - D)`
    have hu : lastUnit D y = 10 ^ (j + 1 - D) := lastUnit_of_zpow_le_of_lt hy (by linarith)
    have hm : (10 : ℚ) ^ j = (((10 ^ (D - 1) : ℕ) : ℤ) : ℚ) * lastUnit D y := by
      rw [hu, ten_pow_mul_zpow]
      congr 1
      omega
    have hwide : (10 : ℚ) ^ (j - D) ≤ 10 ^ (j + 1 - D) :=
      zpow_le_zpow_right₀ (by norm_num) (by omega)
    rw [hm]
    apply roundSignificant_eq_of_abs_sub_lt
    rw [← hm, hu, abs_sub_comm, abs_lt]
    constructor <;> linarith
  · -- just below the power, in the decade whose unit is `10 ^ (j - D)`
    have hu : lastUnit D y = 10 ^ (j - D) := by
      rw [lastUnit_of_zpow_le_of_lt (j := j - 1) (by linarith) (by rw [sub_add_cancel]; linarith)]
      congr 1
      ring
    have hm : (10 : ℚ) ^ j = (((10 ^ D : ℕ) : ℤ) : ℚ) * lastUnit D y := by
      rw [hu, ten_pow_mul_zpow]
      congr 1
      ring
    rw [hm]
    apply roundSignificant_eq_of_abs_sub_lt
    rw [← hm, hu, abs_sub_comm, abs_lt]
    constructor <;> linarith

/-! ## Faithful rounding -/

/-- `r` rounds `q` faithfully to `D` significant digits: it is the multiple of the unit in the
last place of `q` at or below `q`, or the one at or above it. -/
def Faithful (D : ℕ) (q r : ℚ) : Prop :=
  r = ⌊q / lastUnit D q⌋ * lastUnit D q ∨ r = ⌈q / lastUnit D q⌉ * lastUnit D q

/-- A faithful rounding errs by less than one unit in the last place. -/
lemma Faithful.abs_sub_lt {D : ℕ} {q r : ℚ} (h : Faithful D q r) : |r - q| < lastUnit D q := by
  have hu := lastUnit_pos D q
  have hfl := Int.floor_le (q / lastUnit D q)
  have hfl' := Int.lt_floor_add_one (q / lastUnit D q)
  have hce := Int.le_ceil (q / lastUnit D q)
  have hce' := Int.ceil_lt_add_one (q / lastUnit D q)
  rcases h with rfl | rfl <;> rw [abs_intCast_mul_sub hu] <;>
    exact mul_lt_of_lt_one_left hu (abs_sub_lt_iff.2 ⟨by linarith, by linarith⟩)

/-- A multiple of the unit in the last place of `q` less than one unit from `q` rounds it
faithfully: the only integers less than one from a rational are its floor and its ceiling. -/
lemma faithful_of_abs_sub_lt {D : ℕ} {q : ℚ} {m : ℤ}
    (h : |m * lastUnit D q - q| < lastUnit D q) : Faithful D q (m * lastUnit D q) := by
  have hu := lastUnit_pos D q
  rw [abs_intCast_mul_sub hu] at h
  have hone : |(m : ℚ) - q / lastUnit D q| < 1 :=
    lt_of_mul_lt_mul_right (by rwa [one_mul]) hu.le
  rw [abs_lt] at hone
  have hfl : ⌊q / lastUnit D q⌋ ≤ m := Int.floor_le_iff.2 (by linarith)
  have hce : m ≤ ⌈q / lastUnit D q⌉ := Int.le_ceil_iff.2 (by linarith)
  have hgap := Int.ceil_le_floor_add_one (q / lastUnit D q)
  rcases (show m = ⌊q / lastUnit D q⌋ ∨ m = ⌈q / lastUnit D q⌉ by omega) with rfl | rfl
  · exact .inl rfl
  · exact .inr rfl

/-- Rounding to `D` digits an approximation `y` of a positive rational `q`, closer than a twentieth
of the unit in the last place of `q`, rounds `q` faithfully. -/
theorem faithful_roundSignificant {D : ℕ} (hD : 0 < D) {q y : ℚ} (hq : 0 < q)
    (h : |y - q| < lastUnit D q / 20) : Faithful D q (roundSignificant D y) := by
  set L := Int.log 10 q with hL
  have hlo : (10 : ℚ) ^ L ≤ q := by exact_mod_cast Int.zpow_log_le_self (b := 10) (by norm_num) hq
  have hhi : q < (10 : ℚ) ^ (L + 1) := by
    exact_mod_cast Int.lt_zpow_succ_log_self (b := 10) (by norm_num) q
  have hu : lastUnit D q = 10 ^ (L + 1 - D) := lastUnit_of_zpow_le_of_lt hlo hhi
  have hule : lastUnit D q ≤ 10 ^ L := by
    rw [hu]
    exact zpow_le_zpow_right₀ (by norm_num) (by omega)
  have hupos := lastUnit_pos D q
  have hyq := le_abs_self (y - q)
  have hqy := neg_abs_le (y - q)
  have hy : 0 < y := by linarith
  by_cases hsame : Int.log 10 y = L
  · -- within the decade of `q` both are rounded to multiples of the same unit
    have huy : lastUnit D y = lastUnit D q := by
      rw [lastUnit, lastUnit, abs_of_pos hy, abs_of_pos hq, hsame]
    have hr := abs_roundSignificant_sub_le_half D y
    rw [roundSignificant_eq, huy] at hr ⊢
    apply faithful_of_abs_sub_lt
    calc |(roundHalfEven (y / lastUnit D q) : ℚ) * lastUnit D q - q|
        ≤ |(roundHalfEven (y / lastUnit D q) : ℚ) * lastUnit D q - y| + |y - q| :=
          abs_sub_le _ _ _
      _ < lastUnit D q := by linarith
  -- otherwise a power of ten lies between `y` and `q`, as close to each as they are to each other
  obtain ⟨j, hj, hjy, hjq⟩ : ∃ j : ℤ, (j = L ∨ j = L + 1) ∧ |y - 10 ^ j| ≤ |y - q| ∧
      |(10 : ℚ) ^ j - q| ≤ |y - q| := by
    rcases lt_or_ge y q with hlt | hge
    · have hlog : Int.log 10 y < L :=
        lt_of_le_of_ne (Int.log_mono_right hy hlt.le) hsame
      have hbelow : y < (10 : ℚ) ^ L := by
        exact_mod_cast (Int.lt_zpow_iff_log_lt (b := 10) (by norm_num) hy).2 hlog
      exact ⟨L, .inl rfl, abs_le.2 ⟨by linarith, by linarith⟩, abs_le.2 ⟨by linarith, by linarith⟩⟩
    · have hlog : L + 1 ≤ Int.log 10 y :=
        lt_of_le_of_ne (Int.log_mono_right hq hge) (Ne.symm hsame)
      have habove : (10 : ℚ) ^ (L + 1) ≤ y := by
        exact_mod_cast (Int.zpow_le_iff_le_log (b := 10) (by norm_num) hy).2 hlog
      exact ⟨L + 1, .inr rfl, abs_le.2 ⟨by linarith, by linarith⟩,
        abs_le.2 ⟨by linarith, by linarith⟩⟩
  -- the unit of `q` is at most ten times the spacing below the power
  have hspace : lastUnit D q ≤ 10 * 10 ^ (j - D) := by
    rw [hu, ← zpow_one_add₀ (by norm_num)]
    exact zpow_le_zpow_right₀ (by norm_num) (by omega)
  rw [roundSignificant_eq_zpow (j := j) hD (by linarith)]
  have hm : (10 : ℚ) ^ j = (((10 ^ (j - (L + 1 - D)).toNat : ℕ) : ℤ) : ℚ) * lastUnit D q := by
    rw [hu, ten_pow_mul_zpow]
    congr 1
    omega
  rw [hm]
  apply faithful_of_abs_sub_lt
  rw [← hm]
  linarith

/-- A value of at most `D` digits is a multiple of its own unit in the last place, so its two
faithful roundings coincide with it: rounding to `D` digits any rational closer to it than a
twentieth of that unit gives it back. -/
lemma roundSignificant_eq_of_near {c D : ℕ} {e : ℤ} (hD : 0 < D) (hc0 : c ≠ 0)
    (hc : c < 10 ^ 155) (hcount : digitCount c ≤ D) {y : ℚ}
    (hy : |y - c * 10 ^ e| < 10 ^ (e + digitCount c - D) / 20) :
    roundSignificant D y = c * 10 ^ e := by
  have hpos : (0 : ℚ) < c * 10 ^ e := by positivity
  have hu : lastUnit D ((c : ℚ) * 10 ^ e) = 10 ^ (e + digitCount c - D) := by
    rw [lastUnit, abs_of_pos hpos, log_natCast_mul_zpow (ten_pow_digitCount_le hc0 hc)
      (lt_ten_pow_digitCount hc) (digitCount_pos hc0 hc)]
    congr 1
    ring
  have hf := faithful_roundSignificant hD hpos (by rwa [hu])
  set u := lastUnit D ((c : ℚ) * 10 ^ e) with hudef
  -- the value is `c * 10 ^ (D - count)` units
  have hm : (c : ℚ) * 10 ^ e = (((c * 10 ^ (D - digitCount c) : ℕ) : ℤ) : ℚ) * u := by
    rw [hu]
    push_cast
    rw [mul_assoc, ← zpow_natCast, ← zpow_add₀ (by norm_num)]
    congr 2
    push_cast [Nat.cast_sub hcount]
    ring
  have hq : (c : ℚ) * 10 ^ e / u = (((c * 10 ^ (D - digitCount c) : ℕ) : ℤ) : ℚ) := by
    rw [hm, mul_div_cancel_right₀ _ (lastUnit_pos D _).ne']
  rcases hf with h | h
  · rw [h, hq, Int.floor_intCast, ← hm]
  · rw [h, hq, Int.ceil_intCast, ← hm]

end TickGrid
