import TickGrid.Proofs.Decimal.Rounding

/-!
# Half-even rounding of rationals

`roundHalfEven x` is the integer nearest to `x`, a tie going to the even neighbour, and
`roundSignificant D q` rounds `q` half-even to `D` significant digits: to the nearest multiple of
the unit `10 ^ (Int.log 10 |q| + 1 - D)` of its `D`-th digit. They say what the rounding of
coefficients does to the numbers that decimals stand for.

`roundedQuotient c k` is `c / 10 ^ k` rounded half-even (`roundHalfEven_natCast_div`), and the
digits after the first dropped one fold into one sticky digit, one exactly when they are not all
zero, without changing the rounding (`roundedQuotient_sticky`). Rounding to `D ≥ 1` significant
digits moves a rational by at most `halfUnit D` of it (`abs_roundSignificant_sub_le`).
`Decimal.roundSig` rounds the value of a decimal half-even to `D` significant digits
(`roundSig_val`), and so does the rounding that ends every operation (`ofParts_val`).
-/

namespace TickGrid

/-- The integer nearest to `x`; of two equally near, the even one. -/
def roundHalfEven (x : ℚ) : ℤ :=
  let k := ⌊x⌋
  if x - k < 1 / 2 then k
  else if 1 / 2 < x - k then k + 1
  else k + k % 2

@[simp] lemma roundHalfEven_intCast (k : ℤ) : roundHalfEven k = k := by
  simp [roundHalfEven]

@[simp] lemma roundHalfEven_zero : roundHalfEven 0 = 0 := by
  simpa using roundHalfEven_intCast 0

/-- Half-even rounding is symmetric about zero: a tie between `k` and `k + 1` goes to the same
even integer from either side. -/
lemma roundHalfEven_neg (x : ℚ) : roundHalfEven (-x) = -roundHalfEven x := by
  by_cases hx : (⌊x⌋ : ℚ) = x
  · rw [← hx, ← Int.cast_neg, roundHalfEven_intCast, roundHalfEven_intCast]
  · have hlt : (⌊x⌋ : ℚ) < x := lt_of_le_of_ne (Int.floor_le x) hx
    have hfloor : ⌊-x⌋ = -⌊x⌋ - 1 := by
      rw [Int.floor_eq_iff]
      push_cast
      constructor <;> linarith [Int.lt_floor_add_one x]
    have hfrac : -x - ((-⌊x⌋ - 1 : ℤ) : ℚ) = 1 - (x - ⌊x⌋) := by push_cast; ring
    unfold roundHalfEven
    simp only [hfloor, hfrac]
    split_ifs <;> first | omega | (exfalso; linarith)

/-- `roundHalfEven x` is an integer nearest to `x`. -/
lemma abs_roundHalfEven_sub_le (x : ℚ) (m : ℤ) : |(roundHalfEven x : ℚ) - x| ≤ |m - x| := by
  have hfl := Int.floor_le x
  have hlt := Int.lt_floor_add_one x
  -- every integer is at most the floor or at least one more
  have hm : (m : ℚ) ≤ ⌊x⌋ ∨ (⌊x⌋ : ℚ) + 1 ≤ m := by
    rcases le_or_gt m ⌊x⌋ with h | h
    · exact .inl (by exact_mod_cast h)
    · exact .inr (by exact_mod_cast h)
  have hx₁ : x - m ≤ |m - x| := by rw [abs_sub_comm]; exact le_abs_self _
  have hx₂ : m - x ≤ |m - x| := le_abs_self _
  rw [abs_sub_le_iff]
  unfold roundHalfEven
  dsimp only
  split_ifs with h₁ h₂
  · constructor <;> rcases hm with hm | hm <;> linarith
  · push_cast
    constructor <;> rcases hm with hm | hm <;> linarith
  · -- a tie: both neighbours are half a unit away
    rcases Int.emod_two_eq_zero_or_one ⌊x⌋ with h | h <;> rw [h] <;> push_cast <;>
      constructor <;> rcases hm with hm | hm <;> linarith

lemma abs_roundHalfEven_sub_le_half (x : ℚ) : |(roundHalfEven x : ℚ) - x| ≤ 1 / 2 := by
  have hfl := Int.floor_le x
  have hlt := Int.lt_floor_add_one x
  rcases le_or_gt (x - ⌊x⌋) (1 / 2) with h | h
  · refine (abs_roundHalfEven_sub_le x ⌊x⌋).trans ?_
    rw [abs_sub_comm, abs_of_nonneg (by linarith)]
    exact h
  · refine (abs_roundHalfEven_sub_le x (⌊x⌋ + 1)).trans ?_
    push_cast
    rw [abs_of_nonneg (by linarith)]
    linarith

/-- The half-even quotient of `c` by a positive power of ten is the rounding of the fraction. -/
lemma roundHalfEven_natCast_div (c : ℕ) {k : ℕ} (hk : 0 < k) :
    roundHalfEven ((c : ℚ) / 10 ^ k) = roundedQuotient c k := by
  have heven : 2 * (10 ^ k / 2) = 10 ^ k := two_mul_ten_pow_div_two hk
  have hpos : 0 < 10 ^ k := Nat.pow_pos (by norm_num)
  unfold roundedQuotient
  rw [show (10 : ℚ) ^ k = ((10 ^ k : ℕ) : ℚ) by push_cast; rfl]
  generalize 10 ^ k = P at *
  have hP : (0 : ℚ) < P := by exact_mod_cast hpos
  have hr : ((c % P : ℕ) : ℚ) < P := by exact_mod_cast Nat.mod_lt c hpos
  have hsplit : (c : ℚ) / P = (c / P : ℕ) + ((c % P : ℕ) : ℚ) / P := by
    have hdm : (c : ℚ) = P * (c / P : ℕ) + (c % P : ℕ) := by
      exact_mod_cast (Nat.div_add_mod c P).symm
    rw [hdm, add_div, mul_div_cancel_left₀ _ hP.ne']
  have hfloor : ⌊(c : ℚ) / P⌋ = ((c / P : ℕ) : ℤ) := by
    rw [Int.floor_eq_iff, hsplit, Int.cast_natCast]
    have h₀ : (0 : ℚ) ≤ ((c % P : ℕ) : ℚ) / P := by positivity
    have h₁ : ((c % P : ℕ) : ℚ) / P < 1 := (div_lt_one hP).2 hr
    constructor <;> linarith
  have hfrac : (c : ℚ) / P - (((c / P : ℕ) : ℤ) : ℚ) = ((c % P : ℕ) : ℚ) / P := by
    rw [hsplit, Int.cast_natCast]
    ring
  -- a remainder is below, above or at half the divisor as its fraction is below, above or at 1/2
  have hhalf : ((P / 2 : ℕ) : ℚ) = P / 2 := by
    rw [eq_div_iff (by norm_num)]
    exact_mod_cast (mul_comm (P / 2) 2).trans heven
  have hbelow : ((c % P : ℕ) : ℚ) / P < 1 / 2 ↔ c % P < P / 2 :=
    calc ((c % P : ℕ) : ℚ) / P < 1 / 2 ↔ ((c % P : ℕ) : ℚ) < ((P / 2 : ℕ) : ℚ) := by
          rw [div_lt_iff₀ hP, hhalf]
          constructor <;> intro h <;> linarith
      _ ↔ c % P < P / 2 := Nat.cast_lt
  have habove : 1 / 2 < ((c % P : ℕ) : ℚ) / P ↔ P / 2 < c % P :=
    calc 1 / 2 < ((c % P : ℕ) : ℚ) / P ↔ ((P / 2 : ℕ) : ℚ) < ((c % P : ℕ) : ℚ) := by
          rw [lt_div_iff₀ hP, hhalf]
          constructor <;> intro h <;> linarith
      _ ↔ P / 2 < c % P := Nat.cast_lt
  unfold roundHalfEven
  simp only [hfloor, hfrac, hbelow, habove]
  split_ifs <;> omega

/-- Folding the digits after the first dropped one into a sticky digit keeps the half-even
rounding: `h` followed by the `k` digits of `t` rounds, with all `k + 1` last digits dropped, as
`h` followed by one digit that is zero exactly when `t` is, with two dropped. -/
lemma roundedQuotient_sticky (h : ℕ) {t k : ℕ} (ht : t < 10 ^ k) :
    roundedQuotient (h * 10 + if t = 0 then 0 else 1) 2 =
      roundedQuotient (h * 10 ^ k + t) (k + 1) := by
  set P := 10 ^ k with hPdef
  have hP : 0 < P := Nat.pow_pos (by norm_num)
  have hten : 10 ^ (k + 1) = 10 * P := by rw [pow_succ, mul_comm]
  obtain ⟨a, d, hd, rfl⟩ : ∃ a d, d < 10 ∧ h = 10 * a + d :=
    ⟨h / 10, h % 10, Nat.mod_lt _ (by norm_num), (Nat.div_add_mod h 10).symm⟩
  -- the kept digits are `a`, the dropped ones `d` followed by `t`
  have hsplit : (10 * a + d) * P + t = (d * P + t) + 10 * P * a := by ring
  have hlow : d * P + t < 10 * P := by nlinarith
  have hdiv : ((10 * a + d) * P + t) / (10 * P) = a := by
    rw [hsplit, Nat.add_mul_div_left _ _ (by omega), Nat.div_eq_of_lt hlow, zero_add]
  have hmod : ((10 * a + d) * P + t) % (10 * P) = d * P + t := by
    rw [hsplit, Nat.add_mul_mod_self_left, Nat.mod_eq_of_lt hlow]
  have hcmp : (5 * P < d * P + t ↔ 5 < d ∨ d = 5 ∧ t ≠ 0) ∧ (d * P + t = 5 * P ↔ d = 5 ∧ t = 0) := by
    rcases lt_trichotomy d 5 with hlt | rfl | hgt
    · have : d * P + P ≤ 5 * P := by nlinarith
      omega
    · omega
    · have : 6 * P ≤ d * P := Nat.mul_le_mul_right _ hgt
      omega
  unfold roundedQuotient
  rw [hten, hdiv, hmod, show 10 * P / 2 = 5 * P by omega]
  split_ifs <;> omega

/-! ## Rounding to significant digits -/

/-- The rational `q` rounded half-even to `D` significant digits. -/
def roundSignificant (D : ℕ) (q : ℚ) : ℚ :=
  roundHalfEven (q / 10 ^ (Int.log 10 |q| + 1 - D)) * 10 ^ (Int.log 10 |q| + 1 - D)

@[simp] lemma roundSignificant_zero (D : ℕ) : roundSignificant D 0 = 0 := by
  simp [roundSignificant]

lemma roundSignificant_neg (D : ℕ) (q : ℚ) : roundSignificant D (-q) = -roundSignificant D q := by
  simp only [roundSignificant, abs_neg, neg_div, roundHalfEven_neg]
  push_cast
  ring

/-- The relative error of one rounding to `D` significant digits: half a unit of the `D`-th
digit, `10 ^ (1 - D) / 2` of the value. -/
def halfUnit (D : ℕ) : ℚ := 1 / (2 * 10 ^ (D - 1))

lemma halfUnit_nonneg (D : ℕ) : 0 ≤ halfUnit D := by
  unfold halfUnit
  positivity

/-- Rounding to `D ≥ 1` significant digits moves a rational by at most `halfUnit D` of it. -/
lemma abs_roundSignificant_sub_le {D : ℕ} (hD : 0 < D) (q : ℚ) :
    |roundSignificant D q - q| ≤ halfUnit D * |q| := by
  rcases eq_or_ne q 0 with rfl | hq
  · simp
  set U : ℚ := 10 ^ (Int.log 10 |q| + 1 - D) with hU
  have hUpos : 0 < U := by positivity
  have hlead : (10 : ℚ) ^ Int.log 10 |q| ≤ |q| := by
    have := Int.zpow_log_le_self (b := 10) (by norm_num) (abs_pos.2 hq)
    exact_mod_cast this
  -- the unit of the `D`-th digit is `10 ^ (1 - D)` of the leading digit's place
  have hunit : U = 10 ^ Int.log 10 |q| * (1 / 10 ^ (D - 1)) := by
    rw [hU, show Int.log 10 |q| + 1 - D = Int.log 10 |q| - ((D - 1 : ℕ) : ℤ) by omega,
      zpow_sub₀ (by norm_num), zpow_natCast, div_eq_mul_one_div]
  calc |roundSignificant D q - q|
      = |(roundHalfEven (q / U) : ℚ) - q / U| * U := by
        rw [roundSignificant, ← hU, ← abs_of_pos hUpos, ← abs_mul, abs_of_pos hUpos, sub_mul,
          div_mul_cancel₀ _ hUpos.ne']
    _ ≤ 1 / 2 * U := mul_le_mul_of_nonneg_right (abs_roundHalfEven_sub_le_half _) hUpos.le
    _ ≤ 1 / 2 * (|q| * (1 / 10 ^ (D - 1))) := by
        rw [hunit]
        gcongr
    _ = halfUnit D * |q| := by
        unfold halfUnit
        ring

lemma halfUnit_le_half (D : ℕ) : halfUnit D ≤ 1 / 2 := by
  unfold halfUnit
  gcongr
  exact le_mul_of_one_le_right (by norm_num) (one_le_pow₀ (by norm_num))

/-! ## Signs of roundings

Rounding to at least one significant digit moves a rational by at most half its magnitude, so it
never crosses or reaches zero. -/

lemma roundSignificant_pos {D : ℕ} (hD : 0 < D) {q : ℚ} (hq : 0 < q) :
    0 < roundSignificant D q := by
  have herr := abs_roundSignificant_sub_le hD q
  rw [abs_of_pos hq] at herr
  have hlow := (abs_le.1 herr).1
  nlinarith [halfUnit_le_half D]

lemma roundSignificant_pos_iff {D : ℕ} (hD : 0 < D) {q : ℚ} :
    0 < roundSignificant D q ↔ 0 < q := by
  refine ⟨fun h => ?_, roundSignificant_pos hD⟩
  rcases lt_trichotomy q 0 with hq | rfl | hq
  · have hneg := roundSignificant_pos hD (neg_pos.2 hq)
    rw [roundSignificant_neg] at hneg
    linarith
  · simp at h
  · exact hq

lemma roundSignificant_neg_iff {D : ℕ} (hD : 0 < D) {q : ℚ} :
    roundSignificant D q < 0 ↔ q < 0 := by
  rw [← neg_pos, ← roundSignificant_neg, roundSignificant_pos_iff hD, neg_pos]

lemma roundSignificant_eq_zero_iff {D : ℕ} (hD : 0 < D) {q : ℚ} :
    roundSignificant D q = 0 ↔ q = 0 := by
  refine ⟨fun h => ?_, fun h => h ▸ roundSignificant_zero D⟩
  rcases lt_trichotomy q 0 with hq | hq | hq
  · exact absurd ((roundSignificant_neg_iff hD).2 hq) (by rw [h]; exact lt_irrefl 0)
  · exact hq
  · exact absurd ((roundSignificant_pos_iff hD).2 hq) (by rw [h]; exact lt_irrefl 0)

/-- The leading digit of `c * 10 ^ e`, for a coefficient `c` of `L` digits, stands at
`e + L - 1`. -/
lemma log_natCast_mul_zpow {c L : ℕ} (hlo : 10 ^ (L - 1) ≤ c) (hhi : c < 10 ^ L) (hL : 0 < L)
    (e : ℤ) : Int.log 10 ((c : ℚ) * 10 ^ e) = e + L - 1 := by
  have hc : (0 : ℚ) < c := by exact_mod_cast (Nat.pow_pos (by norm_num)).trans_le hlo
  have hpos : (0 : ℚ) < c * 10 ^ e := by positivity
  have hlo' : (10 : ℚ) ^ (L - 1) ≤ c := by exact_mod_cast hlo
  have hhi' : (c : ℚ) < 10 ^ L := by exact_mod_cast hhi
  have hlog₁ : ((10 : ℕ) : ℚ) ^ (e + L - 1) ≤ c * 10 ^ e := by
    calc ((10 : ℕ) : ℚ) ^ (e + L - 1)
        = (10 : ℚ) ^ (L - 1) * 10 ^ e := by
          rw [← zpow_natCast, ← zpow_add₀ (by norm_num)]
          push_cast
          congr 1
          omega
      _ ≤ c * 10 ^ e := by gcongr
  have hlog₂ : (c : ℚ) * 10 ^ e < ((10 : ℕ) : ℚ) ^ (e + L - 1 + 1) := by
    calc (c : ℚ) * 10 ^ e < (10 : ℚ) ^ L * 10 ^ e := by gcongr
      _ = ((10 : ℕ) : ℚ) ^ (e + L - 1 + 1) := by
          rw [← zpow_natCast, ← zpow_add₀ (by norm_num)]
          push_cast
          congr 1
          ring
  have h₁ := (Int.zpow_le_iff_le_log (by norm_num) hpos).1 hlog₁
  have h₂ := (Int.lt_zpow_iff_log_lt (by norm_num) hpos).1 hlog₂
  omega

/-- Rounding `c * 10 ^ e`, for a coefficient `c` of `L` digits, to `D` significant digits keeps
it when `L ≤ D`, and otherwise keeps the half-even quotient of `c` by the `L - D` dropped digits. -/
lemma roundSignificant_natCast_mul_zpow {c L : ℕ} (hlo : 10 ^ (L - 1) ≤ c) (hhi : c < 10 ^ L)
    (hL : 0 < L) (e : ℤ) (D : ℕ) :
    roundSignificant D ((c : ℚ) * 10 ^ e) =
      if L ≤ D then (c : ℚ) * 10 ^ e
      else roundedQuotient c (L - D) * 10 ^ (e + (L - D : ℕ)) := by
  have hc : (0 : ℚ) < c := by exact_mod_cast (Nat.pow_pos (by norm_num)).trans_le hlo
  have hpos : (0 : ℚ) < c * 10 ^ e := by positivity
  have hunit : Int.log 10 |(c : ℚ) * 10 ^ e| + 1 - D = e + L - D := by
    rw [abs_of_pos hpos, log_natCast_mul_zpow hlo hhi hL]
    ring
  unfold roundSignificant
  rw [hunit]
  split_ifs with hD
  · -- the quotient is the integer `c * 10 ^ (D - L)`
    have hquot : (c : ℚ) * 10 ^ e / 10 ^ (e + L - D) = (((c * 10 ^ (D - L) : ℕ) : ℤ) : ℚ) := by
      push_cast
      rw [mul_div_assoc, ← zpow_sub₀ (by norm_num), ← zpow_natCast]
      congr 2
      push_cast [Nat.cast_sub hD]
      ring
    rw [hquot, roundHalfEven_intCast]
    push_cast
    rw [mul_assoc, ← zpow_natCast, ← zpow_add₀ (by norm_num)]
    congr 2
    push_cast [Nat.cast_sub hD]
    ring
  · have hlt : D < L := by omega
    have hquot : (c : ℚ) * 10 ^ e / 10 ^ (e + L - D) = (c : ℚ) / 10 ^ (L - D) := by
      rw [mul_div_assoc, ← zpow_sub₀ (by norm_num), div_eq_mul_inv, ← zpow_natCast, ← zpow_neg]
      congr 2
      push_cast [Nat.cast_sub hlt.le]
      ring
    rw [hquot, roundHalfEven_natCast_div c (by omega)]
    push_cast [Nat.cast_sub hlt.le]
    congr 2
    ring

namespace Decimal

lemma val_eq_sign_mul (x : Decimal) :
    x.val = (if x.negative then -1 else 1) * ((x.coefficient : ℚ) * 10 ^ x.exponent) := by
  rw [val, mul_assoc]

lemma roundSignificant_sign_mul (D : ℕ) (b : Bool) (q : ℚ) :
    roundSignificant D ((if b then -1 else 1) * q) = (if b then -1 else 1) * roundSignificant D q := by
  cases b <;> simp [roundSignificant_neg]

/-- A decimal of at most `D` digits is its own rounding to `D` significant digits. -/
lemma roundSignificant_val_of_digitCount_le {x : Decimal} {D : ℕ} (hc : x.coefficient < 10 ^ 155)
    (hcount : digitCount x.coefficient ≤ D) : roundSignificant D x.val = x.val := by
  by_cases hc0 : x.coefficient = 0
  · simp [val, hc0]
  · rw [val_eq_sign_mul, roundSignificant_sign_mul,
      roundSignificant_natCast_mul_zpow (ten_pow_digitCount_le hc0 hc) (lt_ten_pow_digitCount hc)
        (digitCount_pos hc0 hc), if_pos hcount]

/-- The leading digit of a non-zero decimal stands at its exponent plus its digit count less one. -/
lemma log_abs_val {x : Decimal} (hc0 : x.coefficient ≠ 0) (hc : x.coefficient < 10 ^ 155) :
    Int.log 10 |x.val| = x.exponent + digitCount x.coefficient - 1 := by
  have hsign : |(if x.negative then -1 else 1 : ℚ)| = 1 := by split_ifs <;> simp
  have habs : |x.val| = x.coefficient * 10 ^ x.exponent := by
    rw [val_eq_sign_mul, abs_mul, hsign, one_mul, abs_of_nonneg (by positivity)]
  rw [habs]
  exact log_natCast_mul_zpow (ten_pow_digitCount_le hc0 hc) (lt_ten_pow_digitCount hc)
    (digitCount_pos hc0 hc) x.exponent

/-- A decimal of the sign of `x` whose digits, at `x`'s exponent raised by the `count - D` dropped
digits, are worth the half-even quotient of `x`'s coefficient is `x` rounded to `D` significant
digits. -/
lemma val_eq_roundSignificant_of_lt {x r : Decimal} {D : ℕ} (hc : x.coefficient < 10 ^ 155)
    (hlt : D < digitCount x.coefficient) (hneg : r.negative = x.negative)
    (hrval : (r.coefficient : ℚ) * 10 ^ r.exponent = roundedQuotient x.coefficient
      (digitCount x.coefficient - D) * 10 ^ (x.exponent + ((digitCount x.coefficient - D : ℕ) : ℤ))) :
    r.val = roundSignificant D x.val := by
  have hc0 : x.coefficient ≠ 0 := by
    rintro h
    simp [h] at hlt
  rw [val_eq_sign_mul, val_eq_sign_mul, roundSignificant_sign_mul,
    roundSignificant_natCast_mul_zpow (ten_pow_digitCount_le hc0 hc) (lt_ten_pow_digitCount hc)
      (digitCount_pos hc0 hc), if_neg (show ¬ digitCount x.coefficient ≤ D by omega), hneg, hrval]

/-- `roundSig` rounds the value of a decimal half-even to `D` significant digits, for every
coefficient below `10 ^ 155` at an exponent that leaves room for its digits. -/
theorem roundSig_val {x : Decimal} {D : ℕ} (hD : 0 < D) (hc : x.coefficient < 10 ^ 155)
    (he : Word64.Fits x.exponent) (he' : x.exponent + digitCount x.coefficient ≤ Word64.greatest) :
    ∃ r, x.roundSig D = .ok r ∧ r.val = roundSignificant D x.val ∧ r.coefficient < 10 ^ D := by
  by_cases hcount : digitCount x.coefficient ≤ D
  · exact ⟨x, roundSig_of_le hcount, (roundSignificant_val_of_digitCount_le hc hcount).symm,
      (lt_ten_pow_digitCount hc).trans_le (Nat.pow_le_pow_right (by norm_num) hcount)⟩
  · obtain ⟨r, hr, hneg, -, hrc, -, -, hrval⟩ := roundSig_of_lt hD (by omega) hc he he'
    exact ⟨r, hr, val_eq_roundSignificant_of_lt hc (by omega) hneg hrval, hrc⟩

/-- The rounding that ends every operation: the value of a sign, a coefficient below `10 ^ 155`
and an exponent, rounded half-even to `workingDigits` significant digits; a zero coefficient gives
the canonical zero. -/
theorem ofParts_val {negative : Bool} {c : ℕ} {e : ℤ} (hc : c < 10 ^ 155) (he : Word64.Fits e)
    (he' : e + digitCount c ≤ Word64.greatest) :
    ∃ r, ofParts negative c e = .ok r ∧
      r.val = roundSignificant workingDigits ((if negative then -1 else 1) * c * 10 ^ e) ∧
      r.coefficient < 10 ^ workingDigits ∧ (c = 0 → r = zero) := by
  by_cases hc0 : c = 0
  · subst hc0
    exact ⟨zero, by simp [ofParts], by simp [zero, val], by simp [zero, workingDigits],
      fun _ => rfl⟩
  · obtain ⟨r, hr, hval, hrc⟩ := @roundSig_val ⟨negative, c, e⟩ workingDigits (by decide) hc he he'
    exact ⟨r, by rw [ofParts, if_neg hc0, hr], hval, hrc, fun h => absurd h hc0⟩

end Decimal

end TickGrid
