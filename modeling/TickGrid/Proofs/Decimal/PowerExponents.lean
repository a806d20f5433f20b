import TickGrid.Proofs.Decimal.Scientific
import TickGrid.Proofs.Decimal.Width

/-!
# Exponents of powers

A product adds the exponents of its factors before it rounds, and the rounding raises the sum by
the digits it drops. Square-and-multiply towards `x ^ n` only multiplies powers `x ^ i` and `x ^ j`
with `i + j ≤ n`, so the sums it forms are bounded by where the leading digits of such powers can
stand. For a non-zero `x` whose leading digit is at place `A`, every computed `x ^ i` has its
leading digit between `A * i - 1` and `(A + 1) * i`, whatever the roundings did
(`PowerOf.lead_bounds`): a magnitude is fixed up to a factor below ten by `i - 1` roundings.

For `|A| ≤ 2 * 10 ^ 9`, which holds for every decimal read from a text shorter than `10 ^ 9`
characters, and a 32-bit `n`, these sums stay within `(2 ^ 32 - 1) * (2 * 10 ^ 9 + 1) + 2` of zero,
inside the 64-bit range, although the exponent of the result gets to about `8.6 * 10 ^ 18`, within
a tenth of the end of that range.

The bound is an invariant of the loop. An invariant of powers that every product of the loop keeps
holds of the power (`powStep_holds`), and the product of two computed powers of such an `x` returns
and is a computed power (`PowerOf.mul`). So the power of a decimal of the working width with `|A| ≤
2 * 10 ^ 9` by a 32-bit exponent returns, within `n - 1` roundings of `x ^ n`, with its leading
digit at a place between `n * A - 1` and `n * (A + 1)` (`pow_exponents_fit`).
-/

namespace TickGrid

/-- A computation that can fail with no overflow returns. -/
lemma Checked.Holds.exists_ok_of_never {α : Type} {p : α → Prop} {c : Checked α}
    (h : Checked.Holds (fun _ => False) p c) : ∃ a, c = .ok a ∧ p a := by
  cases c with
  | error e => exact ((Checked.holds_error e).1 h).elim
  | ok a => exact ⟨a, rfl, (Checked.holds_ok a).1 h⟩

/-- Up to `2 ^ 32` roundings of `halfUnit workingDigits` each change a magnitude by less than a
factor of ten. -/
lemma perturbation_factor_bounds {m : ℕ} (hm : m ≤ 2 ^ 32) :
    1 / 10 ≤ (1 - halfUnit workingDigits) ^ m ∧ (1 + halfUnit workingDigits) ^ m < 10 := by
  rw [halfUnit_workingDigits]
  have hmu : (m : ℚ) * (5 / 10 ^ 70) ≤ 1 / 10 := by
    have : (m : ℚ) ≤ 2 ^ 32 := by exact_mod_cast hm
    calc (m : ℚ) * (5 / 10 ^ 70) ≤ 2 ^ 32 * (5 / 10 ^ 70) := by gcongr
      _ ≤ 1 / 10 := by norm_num
  constructor
  · -- Bernoulli: `1 - m * u ≤ (1 - u) ^ m`
    have hbern := one_add_mul_le_pow (show (-2 : ℚ) ≤ -(5 / 10 ^ 70) by norm_num) m
    rw [← sub_eq_add_neg] at hbern
    linarith
  · calc (1 + 5 / 10 ^ 70 : ℚ) ^ m ≤ 1 / (1 - m * (5 / 10 ^ 70)) :=
          Near.one_add_pow_le (by norm_num) (by norm_num) (by linarith)
      _ < 10 := by
          rw [div_lt_iff₀ (by linarith)]
          linarith

namespace Decimal

/-! ## Square-and-multiply keeps an invariant of powers -/

section Invariant

variable (fail : Overflow → Prop) (Inv : ℕ → Decimal → Prop) {N : ℕ}

/-- Square-and-multiply keeps an invariant `Inv i y`, read "`y` stands for `x ^ i`", when every
product it forms does: the product of an `i`-th and a `j`-th power with `0 < j` and `i + j ≤ N` is
an `(i + j)`-th power. The loop only forms such products: the bits still to come are worth
`a + j * remaining`, and a square is formed only while a bit remains above it. -/
lemma powStep_holds
    (hmul : ∀ i j y₁ y₂, 0 < j → i + j ≤ N → Inv i y₁ → Inv j y₂ →
      Checked.Holds fail (Inv (i + j)) (y₁.mul y₂)) (remaining : ℕ) :
    ∀ r s a j, 0 < j → a + j * remaining ≤ N → Inv a r → Inv j s →
      Checked.Holds fail (Inv (a + j * remaining)) (powStep r s remaining) := by
  induction remaining using Nat.strong_induction_on with
  | _ remaining ih =>
  intro r s a j hj hN hr hs
  rw [powStep]
  by_cases h0 : remaining = 0
  · subst h0
    rw [if_pos rfl, Checked.pure_eq, Checked.holds_ok, mul_zero, add_zero]
    exact hr
  rw [if_neg h0]
  -- once the low bit is spent, the square is squared for the bits above it, unless none remain
  have next : ∀ (r' : Decimal) (a' : ℕ), a' + (j + j) * (remaining / 2) = a + j * remaining →
      Inv a' r' → Checked.Holds fail (Inv (a + j * remaining))
        (if remaining / 2 = 0 then pure r' else
          (s.mul s >>= fun s' => powStep r' s' (remaining / 2))) := by
    intro r' a' hsum hr'
    by_cases hq : remaining / 2 = 0
    · rw [if_pos hq, Checked.pure_eq, Checked.holds_ok, ← hsum, hq, mul_zero, add_zero]
      exact hr'
    rw [if_neg hq]
    have htwo : j * 2 ≤ j * remaining := Nat.mul_le_mul_left j (by omega)
    refine (hmul j j s s hj (by omega) hs hs).bind fun s' hs' => ?_
    rw [← hsum]
    exact ih (remaining / 2) (by omega) r' s' a' (j + j) (by omega) (hsum ▸ hN) hr' hs'
  dsimp only
  have hhalf := Nat.div_add_mod remaining 2
  by_cases hodd : remaining % 2 = 1
  · -- the low bit multiplies the square into the result
    rw [if_pos hodd]
    have hsplit : a + j + (j + j) * (remaining / 2) = a + j * remaining := by
      rw [hodd] at hhalf
      linear_combination j * hhalf
    have hone : j * 1 ≤ j * remaining := Nat.mul_le_mul_left j (by omega)
    exact (hmul a j r s hj (by omega) hr hs).bind fun z hz => next z (a + j) hsplit hz
  · rw [if_neg hodd, Checked.pure_eq, Checked.ok_bind]
    have hsplit : a + (j + j) * (remaining / 2) = a + j * remaining := by
      rw [show remaining % 2 = 0 by omega] at hhalf
      linear_combination j * hhalf
    exact next r a hsplit hr

/-- The power `x ^ n` keeps an invariant of powers that `one` and `x` have and every product of
powers up to `x ^ n` keeps. -/
lemma pow_holds_of_invariant {x : Decimal} {n : ℕ}
    (hmul : ∀ i j y₁ y₂, 0 < j → i + j ≤ n → Inv i y₁ → Inv j y₂ →
      Checked.Holds fail (Inv (i + j)) (y₁.mul y₂)) (hone : Inv 0 one) (hx : Inv 1 x) :
    Checked.Holds fail (Inv n) (x.pow n) := by
  have h := powStep_holds fail Inv hmul n one x 0 1 one_pos (by omega) hone hx
  rwa [zero_add, one_mul] at h

end Invariant

/-! ## Where the leading digit of a power stands -/

/-- A product whose exponent sum fits, with room above it for the digits of both coefficients,
returns the exact product rounded to `workingDigits` digits. -/
lemma mul_returns {a b : Decimal} (ha : a.Narrow) (hb : b.Narrow)
    (hlo : Word64.least ≤ a.exponent + b.exponent)
    (hhi : a.exponent + b.exponent + digitCount a.coefficient + digitCount b.coefficient ≤
      Word64.greatest) :
    ∃ z, a.mul b = .ok z ∧ z.val = roundSignificant workingDigits (a.val * b.val) ∧
      z.Narrow := by
  have hprod := coefficient_mul_lt ha hb
  have hc : a.coefficient * b.coefficient < 10 ^ 155 := hprod.trans (by norm_num)
  -- the product has at most the digits of its factors together
  have hdigits : digitCount (a.coefficient * b.coefficient) ≤
      digitCount a.coefficient + digitCount b.coefficient := by
    rw [digitCount_le_iff hc, pow_add]
    exact Nat.mul_lt_mul'' (lt_ten_pow_digitCount ha.lt_ten_pow)
      (lt_ten_pow_digitCount hb.lt_ten_pow)
  have hfit : Word64.Fits (a.exponent + b.exponent) :=
    ⟨hlo, by unfold Word64.greatest at hhi ⊢; omega⟩
  obtain ⟨z, hz, hval, hzc, -⟩ :=
    @ofParts_val (a.negative != b.negative) _ _ hc hfit (by omega)
  refine ⟨z, ?_, by rw [hval, val_mul_val], hzc⟩
  rw [mul, Word512.mul_of_lt (hprod.trans (by norm_num)), Checked.ok_bind, Word64.add_of_fits hfit,
    Checked.ok_bind, hz]

/-- The magnitude of a non-zero decimal of the working width places its leading digit: between
`10 ^ L` and `10 ^ M`, the leading digit is at a place from `L` to `M - 1`. -/
lemma lead_bounds_of_abs_val {y : Decimal} {L M : ℤ} (hy : y.Narrow) (hy0 : y.coefficient ≠ 0)
    (hL : (10 : ℚ) ^ L ≤ |y.val|) (hM : |y.val| < 10 ^ M) :
    L ≤ y.exponent + digitCount y.coefficient - 1 ∧
      y.exponent + digitCount y.coefficient - 1 < M := by
  obtain ⟨hlo, hhi⟩ := abs_val_bounds hy0 hy.lt_ten_pow
  constructor
  · by_contra h
    have : (10 : ℚ) ^ (y.exponent + digitCount y.coefficient - 1 + 1) ≤ 10 ^ L :=
      zpow_le_zpow_right₀ (by norm_num) (by omega)
    linarith
  · by_contra h
    have : (10 : ℚ) ^ M ≤ 10 ^ (y.exponent + digitCount y.coefficient - 1) :=
      zpow_le_zpow_right₀ (by norm_num) (by omega)
    linarith

/-- `y` stands for the power `x ^ i`: it has at most `workingDigits` digits and is `x.val ^ i` up
to `i - 1` roundings. -/
def PowerOf (x : Decimal) (i : ℕ) (y : Decimal) : Prop :=
  y.Narrow ∧ Perturbed (halfUnit workingDigits) (i - 1) y.val (x.val ^ i)

section PowerOf

variable {x : Decimal} {A : ℤ} (hx : x.Narrow) (hx0 : x.coefficient ≠ 0)
  (hA : x.exponent + digitCount x.coefficient - 1 = A)
include hx hx0 hA

/-- Up to `2 ^ 32` roundings keep the magnitude of `x ^ i` within a factor of ten, so between
`10 ^ (A * i - 1)` and `10 ^ ((A + 1) * i + 1)`. -/
lemma PowerOf.abs_val_bounds {i : ℕ} {y : Decimal} (hi : i ≤ 2 ^ 32) (h : PowerOf x i y) :
    (10 : ℚ) ^ (A * i - 1) ≤ |y.val| ∧ |y.val| < 10 ^ ((A + 1) * i + 1) := by
  obtain ⟨ρ, hy, hρlo, hρhi⟩ := h.2
  obtain ⟨hfac₁, hfac₂⟩ := perturbation_factor_bounds (m := i - 1) (by omega)
  have hρ : 0 < ρ := lt_of_lt_of_le (by norm_num) (hfac₁.trans hρlo)
  obtain ⟨hxlo, hxhi⟩ := Decimal.abs_val_bounds hx0 hx.lt_ten_pow
  rw [hA] at hxlo hxhi
  -- the magnitude of `x ^ i` lies between the `i`-th powers of those of `10 ^ A` and `10 ^ (A + 1)`
  have hlo : (10 : ℚ) ^ (A * i) ≤ |x.val ^ i| := by
    rw [abs_pow, zpow_mul, zpow_natCast]
    exact pow_le_pow_left₀ (by positivity) hxlo i
  have hhi : |x.val ^ i| ≤ (10 : ℚ) ^ ((A + 1) * i) := by
    rw [abs_pow, zpow_mul, zpow_natCast]
    exact pow_le_pow_left₀ (abs_nonneg _) hxhi.le i
  have habs : |y.val| = |x.val ^ i| * ρ := by rw [hy, abs_mul, abs_of_pos hρ]
  rw [habs]
  constructor
  · calc (10 : ℚ) ^ (A * i - 1) = 10 ^ (A * i) * (1 / 10) := by
          rw [zpow_sub₀ (by norm_num), zpow_one, div_eq_mul_one_div]
      _ ≤ |x.val ^ i| * ρ :=
          mul_le_mul hlo (hfac₁.trans hρlo) (by norm_num) (abs_nonneg _)
  · calc |x.val ^ i| * ρ ≤ 10 ^ ((A + 1) * i) * ρ := mul_le_mul_of_nonneg_right hhi hρ.le
      _ < 10 ^ ((A + 1) * i) * 10 := mul_lt_mul_of_pos_left (hρhi.trans_lt hfac₂) (by positivity)
      _ = 10 ^ ((A + 1) * i + 1) := by rw [zpow_add_one₀ (by norm_num)]

/-- The leading digit of a computed `x ^ i` stands between `A * i - 1` and `(A + 1) * i`. -/
lemma PowerOf.lead_bounds {i : ℕ} {y : Decimal} (hi : i ≤ 2 ^ 32) (h : PowerOf x i y) :
    y.coefficient ≠ 0 ∧ A * i - 1 ≤ y.exponent + digitCount y.coefficient - 1 ∧
      y.exponent + digitCount y.coefficient - 1 ≤ (A + 1) * i := by
  obtain ⟨hlo, hhi⟩ := PowerOf.abs_val_bounds hx hx0 hA hi h
  have hy0 : y.coefficient ≠ 0 := fun h0 => by
    rw [(val_eq_zero_iff y).2 h0, abs_zero] at hlo
    exact absurd hlo (not_le.2 (by positivity))
  obtain ⟨h₁, h₂⟩ := lead_bounds_of_abs_val h.1 hy0 hlo hhi
  exact ⟨hy0, h₁, by omega⟩

/-- The exponent of a computed `x ^ i` is at least `A * i - 70`, and with the digits of its
coefficient at most `(A + 1) * i + 1`. -/
lemma PowerOf.exponent_bounds {i : ℕ} {y : Decimal} (hi : i ≤ 2 ^ 32) (h : PowerOf x i y) :
    A * i - 70 ≤ y.exponent ∧ y.exponent + digitCount y.coefficient ≤ (A + 1) * i + 1 := by
  obtain ⟨-, h₁, h₂⟩ := PowerOf.lead_bounds hx hx0 hA hi h
  have hd := h.1.digitCount_le
  simp only [workingDigits] at hd
  omega

/-- The product of a computed `x ^ i` and a computed `x ^ j`, `0 < j`, with `i + j` a 32-bit count
and `|A| ≤ 2 * 10 ^ 9`: the exponent sum is at least `-(2 * 10 ^ 9) * (2 ^ 32 - 1) - 140` and with
the digits at most `(2 * 10 ^ 9 + 1) * (2 ^ 32 - 1) + 2`, so the product returns, and it is a
computed `x ^ (i + j)`. A factor `x ^ 0` has the value one and the product is exact. -/
lemma PowerOf.mul (hAB : |A| ≤ 2 * 10 ^ 9) {i j : ℕ} {y₁ y₂ : Decimal} (hj : 0 < j)
    (hij : i + j ≤ Word32.greatest) (h₁ : PowerOf x i y₁) (h₂ : PowerOf x j y₂) :
    ∃ z, y₁.mul y₂ = .ok z ∧ PowerOf x (i + j) z := by
  have hij' : i + j ≤ 4294967295 := hij
  obtain ⟨he₁, hd₁⟩ := PowerOf.exponent_bounds hx hx0 hA (by omega) h₁
  obtain ⟨he₂, hd₂⟩ := PowerOf.exponent_bounds hx hx0 hA (by omega) h₂
  obtain ⟨hAlo, hAhi⟩ := abs_le.1 hAB
  -- the place `A` scales with the count `i + j`, at most `2 ^ 32 - 1`
  have hsum : (i + j : ℤ) ≤ 4294967295 := by exact_mod_cast hij'
  have hlow : -(2 * 10 ^ 9) * (i + j : ℤ) ≤ A * (i + j) :=
    mul_le_mul_of_nonneg_right hAlo (by positivity)
  have hhigh : (A + 1) * (i + j : ℤ) ≤ (2 * 10 ^ 9 + 1) * (i + j) :=
    mul_le_mul_of_nonneg_right (by linarith) (by positivity)
  obtain ⟨z, hz, hval, hzc⟩ := mul_returns h₁.1 h₂.1
    (by unfold Word64.least; linarith) (by unfold Word64.greatest; linarith)
  refine ⟨z, hz, hzc, ?_⟩
  rcases Nat.eq_zero_or_pos i with rfl | hi
  · -- a product by a value of one is exact
    obtain ⟨ρ, hy₁, hρ₁, hρ₂⟩ := h₁.2
    have hone : y₁.val = 1 := by
      simp only [Nat.zero_sub, pow_zero, one_mul] at hy₁ hρ₁ hρ₂
      rw [hy₁]
      exact le_antisymm hρ₂ hρ₁
    rw [hval, hone, one_mul,
      roundSignificant_val_of_digitCount_le h₂.1.lt_ten_pow h₂.1.digitCount_le, zero_add]
    exact h₂.2
  · have hp := (perturbed_roundSignificant (by decide) (y₁.val * y₂.val)).trans
      (h₁.2.mul h₂.2 halfUnit_le_one) halfUnit_le_one
    rw [← pow_add, show 1 + (i - 1 + (j - 1)) = i + j - 1 by omega, ← hval] at hp
    exact hp

end PowerOf

/-! ## Powers of a zero -/

/-- A product by a zero coefficient whose exponent sum fits is the canonical zero. -/
lemma mul_of_coefficient_zero {a b : Decimal} (hb : b.coefficient = 0)
    (hfit : Word64.Fits (a.exponent + b.exponent)) : a.mul b = .ok zero := by
  rw [mul, hb, Word512.mul_of_lt (by simp), Checked.ok_bind, Word64.add_of_fits hfit,
    Checked.ok_bind, Nat.mul_zero, ofParts, if_pos rfl]
  rfl

/-- The powers of a zero with an exponent at most `2 ^ 61` in magnitude return: the loop forms
only `one` and zeros with exponents at most that of `x`, and their products fit. -/
lemma pow_returns_of_zero {x : Decimal} (hx0 : x.coefficient = 0) (he : |x.exponent| ≤ 2 ^ 61)
    (n : ℕ) : ∃ z, x.pow n = .ok z := by
  have h := pow_holds_of_invariant (fun _ => False)
    (fun i y => (i = 0 → y = one) ∧ (0 < i → y.coefficient = 0 ∧ |y.exponent| ≤ 2 ^ 61))
    (x := x) (n := n) ?_ ⟨fun _ => rfl, fun h => absurd h (by decide)⟩
    ⟨fun h => absurd h one_ne_zero, fun _ => ⟨hx0, he⟩⟩
  · obtain ⟨z, hz, -⟩ := h.exists_ok_of_never
    exact ⟨z, hz⟩
  · rintro i j y₁ y₂ hj - ⟨hy₁one, hy₁zero⟩ ⟨-, hy₂zero⟩
    obtain ⟨hc₂, he₂⟩ := hy₂zero hj
    -- the first factor is `one` or a zero, either way with an exponent within `2 ^ 61`
    have he₁ : |y₁.exponent| ≤ 2 ^ 61 := by
      rcases Nat.eq_zero_or_pos i with rfl | hi
      · rw [hy₁one rfl]
        simp [one]
      · exact (hy₁zero hi).2
    have hfit : Word64.Fits (y₁.exponent + y₂.exponent) := by
      apply Word64.fits_of_abs_le
      rw [abs_le] at he₁ he₂ ⊢
      constructor <;> linarith
    rw [mul_of_coefficient_zero hc₂ hfit, Checked.holds_ok]
    exact ⟨fun h => absurd h (by omega), fun _ => ⟨rfl, by simp [zero]⟩⟩

/-! ## Powers by a 32-bit exponent -/

/-- The power of a decimal `x` of the working width whose leading digit stands at a place `A` with
`|A| ≤ 2 * 10 ^ 9` by any 32-bit exponent `n` returns: no exponent sum of a product, nor the
digits a rounding drops from it, leaves the 64-bit range. The result has at most `workingDigits`
digits, is `x.val ^ n` up to `n - 1` roundings, and for a non-zero `x` has its leading digit at a
place between `n * A - 1` and `n * (A + 1)`, which for `A = 2 * 10 ^ 9` and `n = 2 ^ 32 - 1` is
about `8.6 * 10 ^ 18`. -/
theorem pow_exponents_fit (x : Decimal) (hx : x.Narrow) {A : ℤ} (hA : x.adjusted = .ok A)
    (hAB : |A| ≤ 2 * 10 ^ 9) (n : ℕ) (hn : n ≤ Word32.greatest) :
    ∃ z, x.pow n = .ok z ∧ z.Narrow ∧
      Perturbed (halfUnit workingDigits) (n - 1) z.val (x.val ^ n) ∧
      (x.coefficient ≠ 0 → n * A - 1 ≤ z.exponent + digitCount z.coefficient - 1 ∧
        z.exponent + digitCount z.coefficient - 1 ≤ n * (A + 1)) := by
  have hA' : x.exponent + digitCount x.coefficient - 1 = A := ((adjusted_holds x).1 A hA).symm
  -- a returned power is of the working width and within `n - 1` roundings
  have hspec : ∀ z, x.pow n = .ok z →
      z.Narrow ∧ Perturbed (halfUnit workingDigits) (n - 1) z.val (x.val ^ n) :=
    fun z hz => (pow_holds hx n).1 z hz
  by_cases hx0 : x.coefficient = 0
  · have he : |x.exponent| ≤ 2 ^ 61 := by
      rw [hx0, digitCount_zero, Nat.cast_zero] at hA'
      rw [abs_le] at hAB ⊢
      constructor <;> linarith
    obtain ⟨z, hz⟩ := pow_returns_of_zero hx0 he n
    exact ⟨z, hz, (hspec z hz).1, (hspec z hz).2, fun h => absurd hx0 h⟩
  · have hn' : n ≤ 2 ^ 32 := hn.trans (by decide)
    have h := pow_holds_of_invariant (fun _ => False) (PowerOf x) (x := x) (n := n)
      (fun i j y₁ y₂ hj hij h₁ h₂ => by
        obtain ⟨z, hz, hzp⟩ := PowerOf.mul hx hx0 hA' hAB hj (hij.trans hn) h₁ h₂
        rw [hz, Checked.holds_ok]
        exact hzp)
      ⟨one_narrow, by simpa using Perturbed.refl 1⟩
      ⟨hx, by simpa using Perturbed.refl x.val⟩
    obtain ⟨z, hz, hzp⟩ := h.exists_ok_of_never
    obtain ⟨-, hlo, hhi⟩ := PowerOf.lead_bounds hx hx0 hA' hn' hzp
    exact ⟨z, hz, hzp.1, hzp.2, fun _ => ⟨by linarith, by linarith⟩⟩

/-- The largest exponent from the largest place: `10 ^ (2 * 10 ^ 9)` to the power `2 ^ 32 - 1`. -/
theorem pow_exponents_fit_greatest :
    (⟨false, 1, 2000000000⟩ : Decimal).Narrow ∧
      (⟨false, 1, 2000000000⟩ : Decimal).adjusted = .ok 2000000000 ∧
      |(2000000000 : ℤ)| ≤ 2 * 10 ^ 9 ∧ 4294967295 ≤ Word32.greatest ∧
      ∃ z, (⟨false, 1, 2000000000⟩ : Decimal).pow 4294967295 = .ok z ∧ z.Narrow ∧
        Perturbed (halfUnit workingDigits) (4294967295 - 1) z.val
          ((⟨false, 1, 2000000000⟩ : Decimal).val ^ 4294967295) ∧
        ((⟨false, 1, 2000000000⟩ : Decimal).coefficient ≠ 0 →
          ((4294967295 : ℕ) : ℤ) * 2000000000 - 1 ≤
            z.exponent + digitCount z.coefficient - 1 ∧
          z.exponent + digitCount z.coefficient - 1 ≤
            ((4294967295 : ℕ) : ℤ) * (2000000000 + 1)) :=
  ⟨by decide, by rfl, by norm_num, by decide,
    pow_exponents_fit _ (by decide) (by rfl) (by norm_num) _ (by decide)⟩

end Decimal

end TickGrid
