import Mathlib
import TickGrid.Proofs.Decimal.Digits

/-!
# Rounding to significant digits

A decimal stands for the rational number `Decimal.val`. Rounding a coefficient of `count` digits
to `D` significant digits divides it by `10 ^ (count - D)` with the half-even rule
(`roundedQuotient`), and the kept digits are within half a unit of their last place: a relative
error of at most `10 ^ (1 - D) / 2`.

Errors are tracked as factors: `Near k a b` says that `a` is within a factor `k` of `b` either
way. Factors compose by multiplication through products, reciprocals and chains of roundings, so
the error of a long computation is the product of the factors of its steps.

Rounding a positive decimal to `D` digits gives a positive decimal of at most `D` digits within a
factor `1 + 10 ^ (1 - D)` of it (`roundSig_near`), and so does the rounding to `workingDigits`
digits that ends every operation (`ofParts_near`).
-/

namespace TickGrid

/-! ## Steps that cannot overflow -/

@[simp] lemma Checked.ok_bind {α β : Type} (a : α) (f : α → Checked β) :
    (Except.ok a >>= f : Checked β) = f a := rfl

@[simp] lemma Checked.pure_eq {α : Type} (a : α) : (pure a : Checked α) = .ok a := rfl

lemma Word64.add_of_fits {a b : Int} (h : Word64.Fits (a + b)) : Word64.add a b = .ok (a + b) :=
  Word64.add_eq_ok.2 ⟨h, rfl⟩

lemma Word64.sub_of_fits {a b : Int} (h : Word64.Fits (a - b)) : Word64.sub a b = .ok (a - b) :=
  Word64.sub_eq_ok.2 ⟨h, rfl⟩

/-- Every integer of magnitude at most `2 ^ 62` fits in 64 signed bits. -/
lemma Word64.fits_of_abs_le {a : Int} (h : |a| ≤ 2 ^ 62) : Word64.Fits a := by
  rw [abs_le] at h
  unfold Word64.Fits Word64.least Word64.greatest
  omega

lemma Word512.add_of_le {a b : Nat} (h : a + b ≤ 10 ^ 154) : Word512.add a b = .ok (a + b) := by
  have hb : (10 : Nat) ^ 154 < Word512.bound := by decide +kernel
  simp [Word512.add, show a + b < Word512.bound by omega]

lemma Word512.mul_of_lt {a b : Nat} (h : a * b < 10 ^ 154) : Word512.mul a b = .ok (a * b) := by
  have hb : (10 : Nat) ^ 154 < Word512.bound := by decide +kernel
  simp [Word512.mul, show a * b < Word512.bound by omega]

lemma Word512.sub_of_le {a b : Nat} (h : b ≤ a) : Word512.sub a b = .ok (a - b) := by
  simp [Word512.sub, h]

lemma tenPower_of_le {n : Nat} (h : n ≤ greatestTenPower) : tenPower n = .ok (10 ^ n) := by
  simp [tenPower, h]

/-! ## Values and error factors -/

namespace Decimal

/-- The rational number a decimal stands for, `(-1) ^ negative * coefficient * 10 ^ exponent`. -/
def val (x : Decimal) : ℚ := (if x.negative then -1 else 1) * x.coefficient * 10 ^ x.exponent

lemma val_of_negative_false {x : Decimal} (h : x.negative = false) :
    x.val = x.coefficient * 10 ^ x.exponent := by
  simp [val, h]

/-- A positive decimal whose coefficient has at most `D` digits. -/
structure Positive (D : ℕ) (x : Decimal) : Prop where
  negative_eq : x.negative = false
  coefficient_pos : 0 < x.coefficient
  coefficient_lt : x.coefficient < 10 ^ D

lemma Positive.val_eq {D : ℕ} {x : Decimal} (h : x.Positive D) :
    x.val = x.coefficient * 10 ^ x.exponent :=
  val_of_negative_false h.negative_eq

lemma Positive.val_pos {D : ℕ} {x : Decimal} (h : x.Positive D) : 0 < x.val := by
  rw [h.val_eq]
  have := h.coefficient_pos
  positivity

lemma Positive.isPositive {D : ℕ} {x : Decimal} (h : x.Positive D) : x.isPositive = true := by
  simp [Decimal.isPositive, h.negative_eq, h.coefficient_pos.ne']

lemma Positive.mono {D D' : ℕ} {x : Decimal} (h : x.Positive D) (hD : D ≤ D') : x.Positive D' :=
  ⟨h.negative_eq, h.coefficient_pos,
    h.coefficient_lt.trans_le (Nat.pow_le_pow_right (by norm_num) hD)⟩

/-- The value of a positive decimal sits between ten to its exponent and ten to its exponent plus
its digit count. -/
lemma Positive.val_bounds {D : ℕ} {x : Decimal} (h : x.Positive D) :
    (10 : ℚ) ^ x.exponent ≤ x.val ∧ x.val < 10 ^ (x.exponent + D) := by
  rw [h.val_eq, zpow_add₀ (by norm_num), zpow_natCast]
  have hc : (1 : ℚ) ≤ x.coefficient := by exact_mod_cast h.coefficient_pos
  have hlt : (x.coefficient : ℚ) < 10 ^ D := by exact_mod_cast h.coefficient_lt
  have hpos : (0 : ℚ) < 10 ^ x.exponent := by positivity
  constructor
  · nlinarith
  · nlinarith

/-- A positive decimal of at most `D` digits and value at most `10 ^ B` has exponent at most `B`. -/
lemma Positive.exponent_le {D : ℕ} {x : Decimal} {B : ℤ} (h : x.Positive D)
    (hB : x.val ≤ 10 ^ B) : x.exponent ≤ B :=
  (zpow_le_zpow_iff_right₀ (by norm_num : (1 : ℚ) < 10)).1 (h.val_bounds.1.trans hB)

/-- A positive decimal of at most `D` digits and value at least `10 ^ B` has exponent above
`B - D`. -/
lemma Positive.le_exponent {D : ℕ} {x : Decimal} {B : ℤ} (h : x.Positive D)
    (hB : 10 ^ B ≤ x.val) : B - D < x.exponent := by
  have := (zpow_lt_zpow_iff_right₀ (by norm_num : (1 : ℚ) < 10)).1 (hB.trans_lt h.val_bounds.2)
  omega

end Decimal

/-- `a` is within a factor `k` of `b`, either way. -/
def Near (k a b : ℚ) : Prop := a ≤ k * b ∧ b ≤ k * a

namespace Near

variable {k k₁ k₂ a b c d : ℚ}

lemma refl (hk : 1 ≤ k) (ha : 0 ≤ a) : Near k a a :=
  ⟨le_mul_of_one_le_left ha hk, le_mul_of_one_le_left ha hk⟩

lemma symm (h : Near k a b) : Near k b a := ⟨h.2, h.1⟩

lemma mono (h : Near k₁ a b) (hk : k₁ ≤ k₂) (ha : 0 ≤ a) (hb : 0 ≤ b) : Near k₂ a b :=
  ⟨h.1.trans (mul_le_mul_of_nonneg_right hk hb), h.2.trans (mul_le_mul_of_nonneg_right hk ha)⟩

lemma mul_right (h : Near k a b) (hc : 0 ≤ c) : Near k (a * c) (b * c) :=
  ⟨by nlinarith [h.1], by nlinarith [h.2]⟩

lemma trans (h₁ : Near k₁ a b) (h₂ : Near k₂ b c) (hk₁ : 0 ≤ k₁) (hk₂ : 0 ≤ k₂) :
    Near (k₁ * k₂) a c := by
  constructor
  · calc a ≤ k₁ * b := h₁.1
      _ ≤ k₁ * (k₂ * c) := mul_le_mul_of_nonneg_left h₂.1 hk₁
      _ = k₁ * k₂ * c := by ring
  · calc c ≤ k₂ * b := h₂.2
      _ ≤ k₂ * (k₁ * a) := mul_le_mul_of_nonneg_left h₁.2 hk₂
      _ = k₁ * k₂ * a := by ring

lemma mul (h₁ : Near k₁ a b) (h₂ : Near k₂ c d) (hk₁ : 0 ≤ k₁) (ha : 0 ≤ a) (hb : 0 ≤ b)
    (hc : 0 ≤ c) (hd : 0 ≤ d) : Near (k₁ * k₂) (a * c) (b * d) := by
  constructor
  · calc a * c ≤ (k₁ * b) * (k₂ * d) := mul_le_mul h₁.1 h₂.1 hc (by positivity)
      _ = k₁ * k₂ * (b * d) := by ring
  · calc b * d ≤ (k₁ * a) * (k₂ * c) := mul_le_mul h₁.2 h₂.2 hd (by positivity)
      _ = k₁ * k₂ * (a * c) := by ring

/-- The bound `a⁻¹ ≤ k * b⁻¹` behind `Near.inv`, from `b ≤ k * a`. -/
lemma inv_le_mul_inv (h : b ≤ k * a) (ha : 0 < a) (hb : 0 < b) : a⁻¹ ≤ k * b⁻¹ := by
  rw [inv_le_iff_one_le_mul₀ ha]
  calc (1 : ℚ) = b * b⁻¹ := (mul_inv_cancel₀ hb.ne').symm
    _ ≤ (k * a) * b⁻¹ := mul_le_mul_of_nonneg_right h (inv_nonneg.2 hb.le)
    _ = k * b⁻¹ * a := by ring

lemma inv (h : Near k a b) (ha : 0 < a) (hb : 0 < b) : Near k a⁻¹ b⁻¹ :=
  ⟨inv_le_mul_inv h.2 ha hb, inv_le_mul_inv h.1 hb ha⟩

/-- An absolute error of at most `ε * b`, for `ε ≤ 1 / 2`, is a factor `1 + 2 * ε`. -/
lemma of_abs_sub_le {ε : ℚ} (h : |a - b| ≤ ε * b) (hε : 0 ≤ ε) (hε' : ε ≤ 1 / 2) :
    Near (1 + 2 * ε) a b := by
  rw [abs_le] at h
  constructor
  · nlinarith
  · nlinarith

/-- Two values within factors `k` and `k'` of the same `X` are within `k * k' - 1` of each other,
relative to the second. -/
lemma abs_sub_le {k k' a b X : ℚ} (ha : Near k a X) (hb : Near k' b X) (hk : 0 ≤ k)
    (hk' : 0 ≤ k') (hm : 1 ≤ k * k') (hb₀ : 0 < b) : |a - b| ≤ (k * k' - 1) * b := by
  set m := k * k' with hmdef
  have hab : a ≤ m * b :=
    calc a ≤ k * X := ha.1
      _ ≤ k * (k' * b) := mul_le_mul_of_nonneg_left hb.2 hk
      _ = m * b := by ring
  have hba : b ≤ m * a :=
    calc b ≤ k' * X := hb.1
      _ ≤ k' * (k * a) := mul_le_mul_of_nonneg_left ha.2 hk'
      _ = m * a := by ring
  -- below: `b - a ≤ b - b / m ≤ (m - 1) * b`, the last since `(m - 1) ^ 2 * b ≥ 0`
  have hbelow : m * (b - a) ≤ m * ((m - 1) * b) := by nlinarith [sq_nonneg (m - 1)]
  rw [abs_le]
  constructor
  · linarith [le_of_mul_le_mul_left hbelow (by linarith)]
  · linarith

/-- The factor of `m` steps of `1 + ε` is at most `1 / (1 - m * ε)`: by Bernoulli,
`(1 + ε) ^ m * (1 - m * ε) ≤ (1 + ε) ^ m * (1 - ε) ^ m = (1 - ε ^ 2) ^ m ≤ 1`. -/
lemma one_add_pow_le {ε : ℚ} {m : ℕ} (hε : 0 ≤ ε) (hε₁ : ε ≤ 1) (hm : m * ε < 1) :
    (1 + ε) ^ m ≤ 1 / (1 - m * ε) := by
  have hbern : 1 - m * ε ≤ (1 - ε) ^ m := by
    have := one_add_mul_le_pow (show (-2 : ℚ) ≤ -ε by linarith) m
    simpa only [← sub_eq_add_neg, mul_neg] using this
  have hsq : (1 + ε) ^ m * (1 - ε) ^ m ≤ 1 := by
    rw [← mul_pow]
    apply pow_le_one₀ <;> nlinarith
  rw [le_div_iff₀ (by linarith)]
  calc (1 + ε) ^ m * (1 - m * ε) ≤ (1 + ε) ^ m * (1 - ε) ^ m :=
        mul_le_mul_of_nonneg_left hbern (by positivity)
    _ ≤ 1 := hsq

end Near

/-! ## Half-even quotients -/

/-- The quotient of `c` by `10 ^ drop`, rounded half-even: up when the remainder passes half the
divisor, or equals it and the quotient is odd. -/
def roundedQuotient (c drop : ℕ) : ℕ :=
  if c % 10 ^ drop > 10 ^ drop / 2 ∨ (c % 10 ^ drop = 10 ^ drop / 2 ∧ c / 10 ^ drop % 2 = 1) then
    c / 10 ^ drop + 1
  else c / 10 ^ drop

lemma div_le_roundedQuotient (c drop : ℕ) : c / 10 ^ drop ≤ roundedQuotient c drop := by
  unfold roundedQuotient
  split_ifs <;> omega

lemma roundedQuotient_le (c drop : ℕ) : roundedQuotient c drop ≤ c / 10 ^ drop + 1 := by
  unfold roundedQuotient
  split_ifs <;> omega

/-- Ten to a positive power is even. -/
lemma two_mul_ten_pow_div_two {drop : ℕ} (h : 0 < drop) : 2 * (10 ^ drop / 2) = 10 ^ drop :=
  Nat.mul_div_cancel' (dvd_pow (by norm_num : 2 ∣ 10) h.ne')

/-- The kept digits, put back in place, are within half the divisor of the coefficient. The
divisor must be even: for `drop = 0` an odd coefficient would be rounded up. -/
lemma roundedQuotient_bounds (c : ℕ) {drop : ℕ} (h : 0 < drop) :
    roundedQuotient c drop * 10 ^ drop ≤ c + 10 ^ drop / 2 ∧
      c ≤ roundedQuotient c drop * 10 ^ drop + 10 ^ drop / 2 := by
  have heven := two_mul_ten_pow_div_two h
  have hdiv := Nat.div_add_mod' c (10 ^ drop)
  have hmod := Nat.mod_lt c (Nat.pow_pos (by norm_num : 0 < 10) : 0 < 10 ^ drop)
  unfold roundedQuotient
  generalize c / 10 ^ drop = q at *
  generalize c % 10 ^ drop = r at *
  generalize 10 ^ drop = D at *
  split_ifs with hup
  · rw [add_mul, one_mul]
    omega
  · omega

/-- The half-unit bound on rationals: `|q * 10 ^ drop - c| ≤ 10 ^ drop / 2` for `0 < drop`, where
`10 ^ drop` is even. -/
lemma abs_roundedQuotient_sub_le (c : ℕ) {drop : ℕ} (h : 0 < drop) :
    |(roundedQuotient c drop : ℚ) * 10 ^ drop - c| ≤ 10 ^ drop / 2 := by
  have heven := two_mul_ten_pow_div_two h
  have hhalf : ((10 ^ drop / 2 : ℕ) : ℚ) = 10 ^ drop / 2 := by
    rw [eq_div_iff (by norm_num), mul_comm]
    exact_mod_cast heven
  obtain ⟨hup, hdown⟩ := roundedQuotient_bounds c h
  have hup' : (roundedQuotient c drop : ℚ) * 10 ^ drop ≤ c + 10 ^ drop / 2 := by
    rw [← hhalf]
    exact_mod_cast hup
  have hdown' : (c : ℚ) ≤ roundedQuotient c drop * 10 ^ drop + 10 ^ drop / 2 := by
    rw [← hhalf]
    exact_mod_cast hdown
  rw [abs_le]
  constructor <;> linarith

/-- Keeping `D ≥ 1` of the digits of a non-zero coefficient leaves a half-even quotient between
`10 ^ (D - 1)` and `10 ^ D`, the upper end reached only by a carry. -/
lemma roundedQuotient_digits {c D : ℕ} (hc0 : c ≠ 0) (hc : c < 10 ^ 155) (hD : 0 < D)
    (h : D ≤ digitCount c) :
    10 ^ (D - 1) ≤ roundedQuotient c (digitCount c - D) ∧
      roundedQuotient c (digitCount c - D) ≤ 10 ^ D := by
  constructor
  · refine le_trans ?_ (div_le_roundedQuotient _ _)
    rw [Nat.le_div_iff_mul_le (Nat.pow_pos (by norm_num)), ← pow_add]
    exact le_trans (Nat.pow_le_pow_right (by norm_num) (by omega)) (ten_pow_digitCount_le hc0 hc)
  · have hlt : c / 10 ^ (digitCount c - D) < 10 ^ D := by
      rw [Nat.div_lt_iff_lt_mul (Nat.pow_pos (by norm_num)), ← pow_add]
      exact (lt_ten_pow_digitCount hc).trans_le (Nat.pow_le_pow_right (by norm_num) (by omega))
    exact (roundedQuotient_le _ _).trans hlt

/-! ## Dropping digits and rounding -/

namespace Decimal

/-- Dropping `drop` digits, at least one and at most as many as the coefficient has, keeps the
half-even quotient and raises the exponent by `drop`. -/
lemma dropDigits_eq {x : Decimal} {drop : ℕ} (h0 : 0 < drop)
    (hdrop : drop ≤ digitCount x.coefficient) (hten : drop ≤ greatestTenPower)
    (hc : x.coefficient < 10 ^ 155) (he : Word64.Fits (x.exponent + drop)) :
    x.dropDigits drop = .ok ⟨x.negative && roundedQuotient x.coefficient drop != 0,
      roundedQuotient x.coefficient drop, x.exponent + drop⟩ := by
  have hq : x.coefficient / 10 ^ drop < 10 ^ 154 := by
    rw [Nat.div_lt_iff_lt_mul (Nat.pow_pos (by norm_num)), ← pow_add]
    exact hc.trans_le (Nat.pow_le_pow_right (by norm_num) (by omega))
  unfold dropDigits
  rw [if_neg h0.ne', Word64.add_of_fits he, Checked.ok_bind, if_neg (by omega),
    tenPower_of_le hten, Checked.ok_bind]
  unfold roundedQuotient
  dsimp only
  split_ifs
  · rw [Word512.add_of_le (by omega), Checked.ok_bind]
    rfl
  · rfl

/-- A coefficient with at most `D` digits is kept as it is. -/
lemma roundSig_of_le {x : Decimal} {D : ℕ} (h : digitCount x.coefficient ≤ D) :
    x.roundSig D = .ok x := by
  simp [roundSig, h]

/-- Rounding a coefficient of more than `D ≥ 1` digits keeps `D` digits: the half-even quotient
by `10 ^ (count - D)`, or, when that carries to `10 ^ D`, its first `D` digits with the exponent
raised once more. Either way the value is the rounded quotient at the raised exponent. Only the
raised exponents must fit in 64 bits: the first always, and the second only after a carry, which
otherwise overflows. -/
lemma roundSig_of_lt_of_fits {x : Decimal} {D : ℕ} (hD : 0 < D)
    (h : D < digitCount x.coefficient) (hc : x.coefficient < 10 ^ 155)
    (hf : Word64.Fits (x.exponent + ((digitCount x.coefficient - D : ℕ) : ℤ))) :
    (¬ Word64.Fits (x.exponent + ((digitCount x.coefficient - D : ℕ) : ℤ) + 1) ∧
        x.roundSig D = .error .add) ∨
      ∃ r, x.roundSig D = .ok r ∧ r.negative = x.negative ∧ 10 ^ (D - 1) ≤ r.coefficient ∧
        r.coefficient < 10 ^ D ∧ x.exponent + ((digitCount x.coefficient - D : ℕ) : ℤ) ≤ r.exponent ∧
        r.exponent ≤ x.exponent + ((digitCount x.coefficient - D : ℕ) : ℤ) + 1 ∧
        (r.coefficient : ℚ) * 10 ^ r.exponent = roundedQuotient x.coefficient
          (digitCount x.coefficient - D) *
            10 ^ (x.exponent + ((digitCount x.coefficient - D : ℕ) : ℤ)) := by
  set count := digitCount x.coefficient with hcount
  set drop := count - D with hdrop
  set q := roundedQuotient x.coefficient drop with hqdef
  have hcount155 : count ≤ 155 := digitCount_le_of_lt hc
  have hx0 : x.coefficient ≠ 0 := by
    intro h0
    simp [hcount, h0] at h
  -- the quotient lies between `10 ^ (D - 1)` and `10 ^ D`
  obtain ⟨hlow, hhigh⟩ : 10 ^ (D - 1) ≤ q ∧ q ≤ 10 ^ D := roundedQuotient_digits hx0 hc hD h.le
  have hq0 : q ≠ 0 := ((Nat.pow_pos (by norm_num : 0 < 10)).trans_le hlow).ne'
  have hdropEq := @dropDigits_eq x drop (by omega) (by omega)
    (by simp only [greatestTenPower]; omega) hc hf
  have hneg : (x.negative && q != 0) = x.negative := by simp [hq0]
  unfold roundSig
  dsimp only
  rw [← hcount, if_neg (by omega), hdropEq, Checked.ok_bind]
  dsimp only
  have hsmall : ∀ n, n ≤ D → 10 ^ n < 10 ^ 155 := fun n hn =>
    Nat.pow_lt_pow_right (by norm_num) (by omega)
  rcases hhigh.lt_or_eq with hlt | heq
  · -- no carry: the quotient has `D` digits
    have hfew : ¬ digitCount q > D := by
      rw [gt_iff_lt, not_lt, digitCount_le_iff (hlt.trans (hsmall D le_rfl))]
      exact hlt
    rw [if_neg hfew]
    refine .inr ⟨_, rfl, hneg, hlow, hlt, le_rfl, ?_, rfl⟩
    dsimp only
    omega
  · -- carry: `10 ^ D` becomes `10 ^ (D - 1)` one place higher
    have hcarry : digitCount q > D := by
      rw [gt_iff_lt, ← not_le, digitCount_le_iff (heq ▸ hsmall D le_rfl)]
      omega
    rw [if_pos hcarry]
    by_cases hfit : Word64.Fits (x.exponent + drop + 1)
    swap
    · exact .inl ⟨hfit, by rw [Word64.add, if_neg hfit]; rfl⟩
    rw [Word64.add_of_fits hfit, Checked.ok_bind]
    have hdiv : q / 10 = 10 ^ (D - 1) := by
      rw [heq, show D = D - 1 + 1 by omega, pow_succ, Nat.mul_div_cancel _ (by norm_num)]
      simp
    have hpow : (10 : ℚ) ^ D = 10 ^ (D - 1) * 10 := by
      rw [← pow_succ]
      congr 1
      omega
    refine .inr ⟨_, rfl, hneg, hdiv.ge, hdiv ▸ Nat.pow_lt_pow_right (by norm_num) (by omega), ?_,
      ?_, ?_⟩
    · dsimp only
      omega
    · dsimp only
      omega
    · dsimp only
      rw [hdiv, heq]
      push_cast
      rw [zpow_add₀ (by norm_num), zpow_one, hpow]
      ring

/-- Rounding a coefficient of more than `D ≥ 1` digits at an exponent that leaves room for its
digits does not overflow; see `roundSig_of_lt_of_fits` for the result. -/
lemma roundSig_of_lt {x : Decimal} {D : ℕ} (hD : 0 < D) (h : D < digitCount x.coefficient)
    (hc : x.coefficient < 10 ^ 155) (he : Word64.Fits x.exponent)
    (he' : x.exponent + digitCount x.coefficient ≤ Word64.greatest) :
    ∃ r, x.roundSig D = .ok r ∧ r.negative = x.negative ∧ 10 ^ (D - 1) ≤ r.coefficient ∧
      r.coefficient < 10 ^ D ∧ x.exponent + ((digitCount x.coefficient - D : ℕ) : ℤ) ≤ r.exponent ∧
      r.exponent ≤ x.exponent + ((digitCount x.coefficient - D : ℕ) : ℤ) + 1 ∧
      (r.coefficient : ℚ) * 10 ^ r.exponent = roundedQuotient x.coefficient
        (digitCount x.coefficient - D) *
          10 ^ (x.exponent + ((digitCount x.coefficient - D : ℕ) : ℤ)) := by
  -- both raised exponents lie between the exponent and the end of the digits
  have hfits : ∀ k : ℤ, 0 ≤ k → k ≤ digitCount x.coefficient → Word64.Fits (x.exponent + k) :=
    fun k hk hk' => ⟨by linarith [he.1], by linarith⟩
  refine (roundSig_of_lt_of_fits hD h hc (hfits _ (by omega) (by omega))).resolve_left ?_
  rintro ⟨hover, -⟩
  exact hover (by simpa [add_assoc] using hfits (_ + 1) (by omega) (by omega))

/-- The error factor of one rounding to `D` significant digits, `1 + 10 ^ (1 - D)`. -/
def roundingFactor (D : ℕ) : ℚ := 1 + 1 / 10 ^ (D - 1)

lemma one_le_roundingFactor (D : ℕ) : 1 ≤ roundingFactor D := by
  unfold roundingFactor
  have : (0 : ℚ) ≤ 1 / 10 ^ (D - 1) := by positivity
  linarith

/-- Rounding a positive decimal to `D ≥ 1` significant digits gives a positive decimal of at most
`D` digits, within a factor `roundingFactor D` of it, at an exponent no lower and at most the
digit count higher. -/
theorem roundSig_near {x : Decimal} {D : ℕ} (hD : 0 < D) (hx : x.Positive 155)
    (he : Word64.Fits x.exponent) (he' : x.exponent + digitCount x.coefficient ≤ Word64.greatest) :
    ∃ r, x.roundSig D = .ok r ∧ r.Positive D ∧ x.exponent ≤ r.exponent ∧
      r.exponent ≤ x.exponent + digitCount x.coefficient ∧ Near (roundingFactor D) r.val x.val := by
  by_cases hle : digitCount x.coefficient ≤ D
  · have hlt : x.coefficient < 10 ^ D := (digitCount_le_iff hx.coefficient_lt).1 hle
    exact ⟨x, roundSig_of_le hle, ⟨hx.negative_eq, hx.coefficient_pos, hlt⟩, le_rfl,
      by omega, Near.refl (one_le_roundingFactor D) hx.val_pos.le⟩
  obtain ⟨r, hr, hneg, hlow, hhigh, he₁, he₂, hval⟩ :=
    roundSig_of_lt hD (by omega) hx.coefficient_lt he he'
  refine ⟨r, hr, ⟨by rw [hneg, hx.negative_eq], (Nat.pow_pos (by norm_num)).trans_le hlow, hhigh⟩,
    by omega, by omega, ?_⟩
  set count := digitCount x.coefficient with hcount
  set drop := count - D with hdrop
  have hrv : r.val = roundedQuotient x.coefficient drop * 10 ^ (x.exponent + (drop : ℤ)) := by
    rw [val_of_negative_false (hneg ▸ hx.negative_eq)]
    exact hval
  have herr := abs_roundedQuotient_sub_le x.coefficient (show 0 < drop by omega)
  have hlead : (10 : ℚ) ^ (count - 1) ≤ x.coefficient := by
    exact_mod_cast ten_pow_digitCount_le hx.coefficient_pos.ne' hx.coefficient_lt
  have hsplit : (10 : ℚ) ^ (count - 1) = 10 ^ drop * 10 ^ (D - 1) := by
    rw [← pow_add]
    congr 1
    omega
  have he10 : (0 : ℚ) < 10 ^ x.exponent := by positivity
  -- half a unit of the kept last place is `10 ^ (1 - D) / 2` of the leading digit's place
  have key : |r.val - x.val| ≤ 1 / (2 * 10 ^ (D - 1)) * x.val := by
    calc |r.val - x.val|
        = |(roundedQuotient x.coefficient drop : ℚ) * 10 ^ drop - x.coefficient| *
            10 ^ x.exponent := by
          rw [hrv, hx.val_eq, zpow_add₀ (by norm_num), zpow_natCast, ← abs_of_pos he10,
            ← abs_mul, abs_of_pos he10]
          ring_nf
      _ ≤ 10 ^ drop / 2 * 10 ^ x.exponent := mul_le_mul_of_nonneg_right herr he10.le
      _ = 1 / (2 * 10 ^ (D - 1)) * 10 ^ (count - 1) * 10 ^ x.exponent := by
          rw [hsplit]
          field_simp
      _ ≤ 1 / (2 * 10 ^ (D - 1)) * x.coefficient * 10 ^ x.exponent := by gcongr
      _ = 1 / (2 * 10 ^ (D - 1)) * x.val := by rw [hx.val_eq, mul_assoc]
  have hfactor : roundingFactor D = 1 + 2 * (1 / (2 * 10 ^ (D - 1))) := by
    unfold roundingFactor
    field_simp
  have hhalf : 1 / (2 * (10 : ℚ) ^ (D - 1)) ≤ 1 / 2 := by
    gcongr
    exact le_mul_of_one_le_right (by norm_num) (one_le_pow₀ (by norm_num))
  rw [hfactor]
  exact Near.of_abs_sub_le key (by positivity) hhalf

/-- The rounding that ends every operation: a positive coefficient below `10 ^ 155`, at an
exponent that leaves room for its digits, gives a positive decimal of at most `workingDigits`
digits within one working rounding factor of the exact value. -/
theorem ofParts_near {c : ℕ} {e : ℤ} (hc : 0 < c) (hc' : c < 10 ^ 155) (he : Word64.Fits e)
    (he' : e + digitCount c ≤ Word64.greatest) :
    ∃ r, ofParts false c e = .ok r ∧ r.Positive workingDigits ∧ e ≤ r.exponent ∧
      r.exponent ≤ e + digitCount c ∧ Near (roundingFactor workingDigits) r.val (c * 10 ^ e) := by
  have hval : (⟨false, c, e⟩ : Decimal).val = c * 10 ^ e := val_of_negative_false rfl
  rw [ofParts, if_neg hc.ne', ← hval]
  exact roundSig_near (by decide) ⟨rfl, hc, hc'⟩ he he'

end Decimal

end TickGrid
