import TickGrid.Proofs.Decimal.Outcomes
import TickGrid.Proofs.Decimal.Arith

/-!
# Rounding errors of powers

Every rounded operation multiplies the exact value by a factor within `halfUnit workingDigits`
of one. `Perturbed u m a b` says that `a` is `b` times a product of `m` such factors, and the
count adds up through products and through chains of roundings.

`Decimal.pow` squares and multiplies from the low bit of the exponent. Its first product is by
`one` and is exact, and no square is formed after the last bit; every other product is rounded
once. The `k`-th square carries the `2 ^ k - 1` roundings of the squares before it, so the result
`x ^ n` carries `n - 1` roundings in all.

`Perturbed.mul` and `Perturbed.trans` add the counts, and `pow_within_roundings` concludes: for
every decimal of at most `workingDigits` digits, at any exponent, and every `n`, the power either
overflows an exponent or is `x ^ n` up to `n - 1` roundings.
-/

namespace TickGrid

/-- `a` is `b` up to `m` relative errors of at most `u` each: `a = b * ρ` with
`(1 - u) ^ m ≤ ρ ≤ (1 + u) ^ m`. -/
def Perturbed (u : ℚ) (m : ℕ) (a b : ℚ) : Prop :=
  ∃ ρ, a = b * ρ ∧ (1 - u) ^ m ≤ ρ ∧ ρ ≤ (1 + u) ^ m

namespace Perturbed

variable {u : ℚ} {m m' : ℕ} {a b c A B : ℚ}

lemma refl (a : ℚ) : Perturbed u 0 a a := ⟨1, (mul_one a).symm, by simp, by simp⟩

/-- The factors of `m` and of `m'` errors multiply into the factor of `m + m'` errors. -/
lemma factor_mul {ρ₁ ρ₂ : ℚ} (hu : u ≤ 1) (h₁ : (1 - u) ^ m ≤ ρ₁ ∧ ρ₁ ≤ (1 + u) ^ m)
    (h₂ : (1 - u) ^ m' ≤ ρ₂ ∧ ρ₂ ≤ (1 + u) ^ m') :
    (1 - u) ^ (m + m') ≤ ρ₁ * ρ₂ ∧ ρ₁ * ρ₂ ≤ (1 + u) ^ (m + m') := by
  have h0 : 0 ≤ (1 - u) ^ m := pow_nonneg (by linarith) m
  have h0' : 0 ≤ (1 - u) ^ m' := pow_nonneg (by linarith) m'
  rw [pow_add, pow_add]
  exact ⟨mul_le_mul h₁.1 h₂.1 h0' (h0.trans h₁.1),
    mul_le_mul h₁.2 h₂.2 (h0'.trans h₂.1) ((h0.trans h₁.1).trans h₁.2)⟩

/-- Errors of two factors add up in their product. -/
lemma mul (h₁ : Perturbed u m a A) (h₂ : Perturbed u m' b B) (hu : u ≤ 1) :
    Perturbed u (m + m') (a * b) (A * B) := by
  obtain ⟨ρ₁, rfl, hρ₁⟩ := h₁
  obtain ⟨ρ₂, rfl, hρ₂⟩ := h₂
  exact ⟨ρ₁ * ρ₂, by ring, factor_mul hu hρ₁ hρ₂⟩

/-- Errors add up along a chain of approximations. -/
lemma trans (h₁ : Perturbed u m a b) (h₂ : Perturbed u m' b c) (hu : u ≤ 1) :
    Perturbed u (m + m') a c := by
  obtain ⟨ρ₁, rfl, hρ₁⟩ := h₁
  obtain ⟨ρ₂, rfl, hρ₂⟩ := h₂
  exact ⟨ρ₂ * ρ₁, by ring, by rw [mul_comm ρ₂ ρ₁]; exact factor_mul hu hρ₁ hρ₂⟩

/-- An absolute error of at most `u` times the exact value is one relative error. -/
lemma of_abs_sub_le (hu : 0 ≤ u) (h : |a - b| ≤ u * |b|) : Perturbed u 1 a b := by
  rcases eq_or_ne b 0 with rfl | hb
  · have ha : a = 0 := by simpa using h
    exact ⟨1, by simp [ha], by simp [hu], by simp [hu]⟩
  have hb' : 0 < |b| := abs_pos.2 hb
  have hρ : |a / b - 1| ≤ u := by
    rw [show a / b - 1 = (a - b) / b by field_simp, abs_div, div_le_iff₀ hb']
    exact h
  rw [abs_le] at hρ
  exact ⟨a / b, by field_simp, by rw [pow_one]; linarith, by rw [pow_one]; linarith⟩

end Perturbed

lemma halfUnit_workingDigits : halfUnit workingDigits = 5 / 10 ^ 70 := by
  norm_num [halfUnit, workingDigits]

lemma halfUnit_le_one {D : ℕ} : halfUnit D ≤ 1 := by
  unfold halfUnit
  rw [div_le_one (by positivity)]
  nlinarith [one_le_pow₀ (by norm_num : (1 : ℚ) ≤ 10) (n := D - 1)]

/-- One rounding to `D ≥ 1` significant digits is one relative error of `halfUnit D`. -/
lemma perturbed_roundSignificant {D : ℕ} (hD : 0 < D) (q : ℚ) :
    Perturbed (halfUnit D) 1 (roundSignificant D q) q :=
  Perturbed.of_abs_sub_le (halfUnit_nonneg D) (abs_roundSignificant_sub_le hD q)

namespace Decimal

/-- A rounded product of two perturbed decimals of at most `workingDigits` digits is perturbed
by one rounding more, or an exponent sum overflows. -/
lemma mul_perturbed {a b : Decimal} {A B : ℚ} {m m' : ℕ}
    (ha : a.coefficient < 10 ^ workingDigits) (hb : b.coefficient < 10 ^ workingDigits)
    (hA : Perturbed (halfUnit workingDigits) m a.val A)
    (hB : Perturbed (halfUnit workingDigits) m' b.val B) :
    Checked.Holds (· = .add)
      (fun z => z.coefficient < 10 ^ workingDigits ∧
        Perturbed (halfUnit workingDigits) (1 + (m + m')) z.val (A * B))
      (a.mul b) := by
  refine (mul_holds ha hb).mono (fun _ h => h) ?_
  rintro z ⟨hz, hzc⟩
  rw [hz]
  exact ⟨hzc, (perturbed_roundSignificant (by decide) _).trans (hA.mul hB halfUnit_le_one)
    halfUnit_le_one⟩

/-- A product by `one` is exact: it returns a decimal of the same value, or the exponent of the
other factor is no 64-bit integer. -/
lemma one_mul_holds {s : Decimal} (hs : s.coefficient < 10 ^ workingDigits) :
    Checked.Holds (· = .add) (fun z => z.coefficient < 10 ^ workingDigits ∧ z.val = s.val)
      (one.mul s) := by
  refine (mul_holds one_working.positive.coefficient_lt hs).mono (fun _ h => h) ?_
  rintro z ⟨hz, hzc⟩
  have hcount : digitCount s.coefficient ≤ workingDigits :=
    (digitCount_le_iff (hs.trans (by decide))).2 hs
  rw [one_val, one_mul, roundSignificant_val_of_digitCount_le (hs.trans (by decide)) hcount] at hz
  exact ⟨hzc, hz⟩

/-- The invariant of the square-and-multiply loop towards `X ^ n`: the result carries `a - 1`
roundings of `X ^ a` and is `one` while `a = 0`, the square carries `j - 1` roundings of `X ^ j`,
and the bits still to come are worth `a + j * remaining = n`. Every operand keeps at most
`workingDigits` digits. -/
lemma powStep_perturbed (X : ℚ) (remaining : ℕ) :
    ∀ (r s : Decimal) (a j : ℕ), r.coefficient < 10 ^ workingDigits →
      s.coefficient < 10 ^ workingDigits → 0 < j → (a = 0 → r = one) →
      Perturbed (halfUnit workingDigits) (a - 1) r.val (X ^ a) →
      Perturbed (halfUnit workingDigits) (j - 1) s.val (X ^ j) →
      Checked.Holds (· = .add)
        (fun z => z.coefficient < 10 ^ workingDigits ∧
          Perturbed (halfUnit workingDigits) (a + j * remaining - 1) z.val
            (X ^ (a + j * remaining)))
        (powStep r s remaining) := by
  induction remaining using Nat.strong_induction_on with
  | _ remaining ih =>
  intro r s a j hr hs hj hone hra hsj
  rw [powStep]
  by_cases h0 : remaining = 0
  · subst h0
    rw [if_pos rfl]
    simpa using ⟨hr, hra⟩
  rw [if_neg h0]
  -- once the low bit is spent, the square is squared for the remaining bits, unless none remain
  have next : ∀ (r' : Decimal) (a' : ℕ), r'.coefficient < 10 ^ workingDigits →
      (a' = 0 → r' = one) → Perturbed (halfUnit workingDigits) (a' - 1) r'.val (X ^ a') →
      a' + 2 * j * (remaining / 2) = a + j * remaining →
      Checked.Holds (· = .add)
        (fun z => z.coefficient < 10 ^ workingDigits ∧
          Perturbed (halfUnit workingDigits) (a + j * remaining - 1) z.val
            (X ^ (a + j * remaining)))
        (if remaining / 2 = 0 then pure r' else
          (s.mul s >>= fun s' => powStep r' s' (remaining / 2))) := by
    intro r' a' hr' hone' hr'a hsum
    by_cases hq : remaining / 2 = 0
    · rw [if_pos hq, Checked.pure_eq, Checked.holds_ok]
      rw [hq, mul_zero, add_zero] at hsum
      rw [← hsum]
      exact ⟨hr', hr'a⟩
    rw [if_neg hq]
    refine (mul_perturbed hs hs hsj hsj).bind ?_
    rintro s' ⟨hs'c, hs'v⟩
    rw [← pow_add, show 1 + (j - 1 + (j - 1)) = 2 * j - 1 by omega, ← two_mul] at hs'v
    have h := ih (remaining / 2) (by omega) r' s' a' (2 * j) hr' hs'c (by omega) hone' hr'a hs'v
    rw [← hsum]
    exact h
  dsimp only
  by_cases hodd : remaining % 2 = 1
  · -- the low bit multiplies the square into the result
    rw [if_pos hodd]
    have hsplit : a + j + 2 * j * (remaining / 2) = a + j * remaining := by
      have := Nat.div_add_mod remaining 2
      rw [hodd] at this
      nlinarith
    rcases Nat.eq_zero_or_pos a with rfl | ha
    · -- the first product is by `one` and is exact
      rw [hone rfl]
      refine (one_mul_holds hs).bind ?_
      rintro z ⟨hzc, hzv⟩
      exact next z j hzc (by omega) (by rw [hzv]; simpa using hsj) (by simpa using hsplit)
    · refine (mul_perturbed hr hs hra hsj).bind ?_
      rintro z ⟨hzc, hzv⟩
      rw [← pow_add, show 1 + (a - 1 + (j - 1)) = a + j - 1 by omega] at hzv
      exact next z (a + j) hzc (by omega) hzv hsplit
  · rw [if_neg hodd, Checked.pure_eq, Checked.ok_bind]
    have hsplit : a + 2 * j * (remaining / 2) = a + j * remaining := by
      have := Nat.div_add_mod remaining 2
      rw [show remaining % 2 = 0 by omega] at this
      nlinarith
    exact next r a hr hone hra hsplit

/-- A power by square-and-multiply from `one` keeps the working width and is within `n - 1`
roundings of the exact power. -/
lemma pow_holds {x : Decimal} (hx : x.coefficient < 10 ^ workingDigits) (n : ℕ) :
    Checked.Holds (· = .add)
      (fun z => z.coefficient < 10 ^ workingDigits ∧
        Perturbed (halfUnit workingDigits) (n - 1) z.val (x.val ^ n)) (x.pow n) := by
  have h := powStep_perturbed x.val n one x 0 1 one_working.positive.coefficient_lt hx one_pos
    (fun _ => rfl) (by simpa using Perturbed.refl 1) (by simpa using Perturbed.refl x.val)
  rw [zero_add, one_mul] at h
  exact h

/-- Square-and-multiply keeps the width of its operands and costs at most `n - 1` roundings: for
every decimal `x` of at most `workingDigits` digits and every `n`, `x ^ 0` is `one`, and `x ^ n`
either overflows an exponent or is `x.val ^ n * ρ` with `(1 - u) ^ (n - 1) ≤ ρ ≤ (1 + u) ^ (n - 1)`,
`u = halfUnit workingDigits = 5 * 10 ^ -70`. -/
theorem pow_within_roundings (x : Decimal) (hx : x.coefficient < 10 ^ workingDigits) (n : ℕ) :
    x.pow 0 = .ok one ∧
      (x.pow n = .error .add ∨
        ∃ z, x.pow n = .ok z ∧ z.coefficient < 10 ^ workingDigits ∧
          Perturbed (halfUnit workingDigits) (n - 1) z.val (x.val ^ n)) :=
  ⟨by rw [pow, powStep, if_pos rfl]; rfl, (pow_holds hx n).eq_error_or⟩

/-- The cube of `1.0001`, the ratio of the price grid. -/
theorem pow_within_roundings_cube :
    (⟨false, 10001, -4⟩ : Decimal).coefficient < 10 ^ workingDigits ∧
      (⟨false, 10001, -4⟩ : Decimal).pow 0 = .ok one ∧
      ((⟨false, 10001, -4⟩ : Decimal).pow 3 = .error .add ∨
        ∃ z, (⟨false, 10001, -4⟩ : Decimal).pow 3 = .ok z ∧ z.coefficient < 10 ^ workingDigits ∧
          Perturbed (halfUnit workingDigits) (3 - 1) z.val
            ((⟨false, 10001, -4⟩ : Decimal).val ^ 3)) :=
  ⟨by decide, pow_within_roundings _ (by decide) 3⟩

end Decimal

end TickGrid
