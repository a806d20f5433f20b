import TickGrid.Proofs.Decimal.HalfEven
import TickGrid.Decimal.Arith

/-!
# Outcomes at every exponent

The accuracy lemmas of `Proofs.Decimal.Arith` keep exponents far inside the 64-bit range. Here the
exponents are arbitrary: rounding, and a product of coefficients of at most `workingDigits` digits,
either stop because an exponent sum leaves the 64-bit range (`Overflow.add`) or return the exact
value rounded half-even. The coefficient arithmetic itself never overflows.

`Checked.Holds fail p c` says that `c` returns a value satisfying `p` or fails with an overflow
satisfying `fail`. It composes through `bind`, so the outcome of an operation is assembled from
the outcomes of its steps.

Rounding to `D ≥ 1` significant digits at any exponent gives the value, the digits, the sign and the
exponent that `RoundsTo` states (`roundSig_spec`), of which `roundSig_holds` keeps the value and the
digits. `ofParts_holds` says the same of the rounding that ends every operation, and `mul_holds` of
the product of two decimals of at most `workingDigits` digits. `roundSig_rounds_half_even` states
the rounding to `n` digits as the half-even quotient at the place of the last kept digit, with the
cases in which it returns.
-/

namespace TickGrid

namespace Checked

/-- `c` returns a value that satisfies `p`, or fails with an overflow that satisfies `fail`. -/
def Holds {α : Type} (fail : Overflow → Prop) (p : α → Prop) (c : Checked α) : Prop :=
  (∀ a, c = .ok a → p a) ∧ ∀ e, c = .error e → fail e

variable {α β : Type} {fail fail' : Overflow → Prop} {p p' : α → Prop} {q : β → Prop}

@[simp] lemma holds_ok (a : α) : Holds fail p (.ok a) ↔ p a := by simp [Holds]

/-- Every computation meets the trivial postcondition when every failure is allowed. -/
lemma holds_true (x : Checked α) : Holds (fun _ => True) (fun _ => True) x :=
  ⟨fun _ _ => trivial, fun _ _ => trivial⟩

@[simp] lemma holds_error (e : Overflow) : Holds fail p (.error e : Checked α) ↔ fail e := by
  simp [Holds]

lemma Holds.bind {x : Checked α} {f : α → Checked β} (hx : Holds fail p x)
    (hf : ∀ a, p a → Holds fail q (f a)) : Holds fail q (x >>= f) := by
  cases x with
  | error e => exact (holds_error e).2 ((holds_error e).1 hx)
  | ok a => exact hf a ((holds_ok a).1 hx)

lemma Holds.mono {x : Checked α} (hx : Holds fail p x) (hfail : ∀ e, fail e → fail' e)
    (hp : ∀ a, p a → p' a) : Holds fail' p' x :=
  ⟨fun a ha => hp a (hx.1 a ha), fun e he => hfail e (hx.2 e he)⟩

lemma Holds.map {x : Checked α} {f : α → β} (hx : Holds fail p x) (hf : ∀ a, p a → q (f a)) :
    Holds fail q (f <$> x) := by
  cases x with
  | error e => exact (holds_error e).2 ((holds_error e).1 hx)
  | ok a => exact (holds_ok (f a)).2 (hf a ((holds_ok a).1 hx))

/-- A computation that fails only when `Q` does not hold returns under `Q`. -/
lemma Holds.exists_ok {x : Checked α} {Q : Prop} (hx : Holds (fun e => fail e ∧ ¬ Q) p x)
    (hQ : Q) : ∃ a, x = .ok a ∧ p a := by
  cases x with
  | error e => exact absurd hQ ((holds_error e).1 hx).2
  | ok a => exact ⟨a, rfl, (holds_ok a).1 hx⟩

/-- A computation whose one failure is `e₀` either fails with it or returns a value with the
property. -/
lemma Holds.eq_error_or {x : Checked α} {e₀ : Overflow} (hx : Holds (· = e₀) p x) :
    x = .error e₀ ∨ ∃ a, x = .ok a ∧ p a := by
  cases x with
  | error e => exact .inl (by rw [(holds_error e).1 hx])
  | ok a => exact .inr ⟨a, rfl, (holds_ok a).1 hx⟩

/-- Two postconditions of one computation hold together; the failures allowed are the first's. -/
lemma Holds.and {x : Checked α} (hx : Holds fail p x) (hx' : Holds fail' p' x) :
    Holds fail (fun a => p a ∧ p' a) x :=
  ⟨fun a ha => ⟨hx.1 a ha, hx'.1 a ha⟩, hx.2⟩

end Checked

/-- An exponent sum returns the sum or overflows. -/
lemma Word64.add_holds (a b : ℤ) : Checked.Holds (· = .add) (· = a + b) (Word64.add a b) := by
  unfold Word64.add
  split <;> simp [throw, throwThe, MonadExceptOf.throw]

/-- An exponent difference returns the difference or overflows. -/
lemma Word64.sub_holds (a b : ℤ) : Checked.Holds (· = .sub) (· = a - b) (Word64.sub a b) := by
  unfold Word64.sub
  split <;> simp [throw, throwThe, MonadExceptOf.throw]

namespace Decimal

/-- Dropping digits overflows when the raised exponent leaves the 64-bit range. -/
lemma dropDigits_of_not_fits {x : Decimal} {drop : ℕ} (h0 : 0 < drop)
    (hf : ¬ Word64.Fits (x.exponent + drop)) : x.dropDigits drop = .error .add := by
  rw [dropDigits, if_neg h0.ne', Word64.add, if_neg hf]
  rfl

/-- What rounding `x` to `D` significant digits returns: the value rounded half-even, with at most
`D` digits and the sign flag of `x`; `x` itself when it has at most `D` digits, and otherwise a
decimal whose last digit stands at the place of the `D`-th digit of `x`, or one place higher after
a carry. -/
structure RoundsTo (D : ℕ) (x r : Decimal) : Prop where
  val_eq : r.val = roundSignificant D x.val
  coefficient_lt : r.coefficient < 10 ^ D
  negative_eq : r.negative = x.negative
  eq_of_digitCount_le : digitCount x.coefficient ≤ D → r = x
  exponent_eq : D < digitCount x.coefficient →
    r.exponent = x.exponent + ((digitCount x.coefficient - D : ℕ) : ℤ) ∨
      r.exponent = x.exponent + ((digitCount x.coefficient - D : ℕ) : ℤ) + 1

/-- Rounding to `D ≥ 1` significant digits a coefficient below `10 ^ 155`, at any exponent: a
raised exponent leaves the 64-bit range, or the result is what `RoundsTo` describes. -/
theorem roundSig_spec {x : Decimal} {D : ℕ} (hD : 0 < D) (hc : x.coefficient < 10 ^ 155) :
    Checked.Holds (· = .add) (RoundsTo D x) (x.roundSig D) := by
  by_cases hcount : digitCount x.coefficient ≤ D
  · rw [roundSig_of_le hcount, Checked.holds_ok]
    exact ⟨(roundSignificant_val_of_digitCount_le hc hcount).symm,
      (lt_ten_pow_digitCount hc).trans_le (Nat.pow_le_pow_right (by norm_num) hcount), rfl,
      fun _ => rfl, fun h => absurd h (not_lt.2 hcount)⟩
  by_cases hf : Word64.Fits (x.exponent + ((digitCount x.coefficient - D : ℕ) : ℤ))
  · rcases roundSig_of_lt_of_fits hD (by omega) hc hf with
      ⟨-, hr⟩ | ⟨r, hr, hneg, -, hrc, he₁, he₂, hrval⟩
    · rw [hr, Checked.holds_error]
    · rw [hr, Checked.holds_ok]
      exact ⟨val_eq_roundSignificant_of_lt hc (by omega) hneg hrval, hrc, hneg,
        fun h => absurd h hcount, fun _ => by omega⟩
  · -- the first raised exponent already overflows
    unfold roundSig
    simp only [if_neg hcount,
      dropDigits_of_not_fits (show 0 < digitCount x.coefficient - D by omega) hf]
    exact (Checked.holds_error _).2 rfl

/-- Rounding to `D ≥ 1` significant digits a coefficient below `10 ^ 155`, at any exponent: a
raised exponent leaves the 64-bit range, or the result is the value rounded half-even, with at
most `D` digits. -/
theorem roundSig_holds {x : Decimal} {D : ℕ} (hD : 0 < D) (hc : x.coefficient < 10 ^ 155) :
    Checked.Holds (· = .add) (fun r => r.val = roundSignificant D x.val ∧ r.coefficient < 10 ^ D)
      (x.roundSig D) :=
  (roundSig_spec hD hc).mono (fun _ h => h) fun _ h => ⟨h.val_eq, h.coefficient_lt⟩

/-- The rounding that ends every operation, at any exponent: an exponent overflow, or the value of
the sign, coefficient and exponent rounded half-even to `workingDigits` digits. -/
theorem ofParts_holds {negative : Bool} {c : ℕ} {e : ℤ} (hc : c < 10 ^ 155) :
    Checked.Holds (· = .add)
      (fun r => r.val = roundSignificant workingDigits ((if negative then -1 else 1) * c * 10 ^ e) ∧
        r.coefficient < 10 ^ workingDigits) (ofParts negative c e) := by
  by_cases hc0 : c = 0
  · subst hc0
    rw [ofParts, if_pos rfl, Checked.pure_eq, Checked.holds_ok]
    exact ⟨by simp [zero, val], by simp [zero, workingDigits]⟩
  · rw [ofParts, if_neg hc0]
    exact roundSig_holds (x := ⟨negative, c, e⟩) (D := workingDigits) (by decide) hc

/-- The value of a product of decimals is the signed product of the coefficients at the sum of
the exponents. -/
lemma val_mul_val (a b : Decimal) :
    a.val * b.val = (if (a.negative != b.negative) = true then -1 else 1) *
      ((a.coefficient * b.coefficient : ℕ) : ℚ) * 10 ^ (a.exponent + b.exponent) := by
  obtain ⟨na, ca, ea⟩ := a
  obtain ⟨nb, cb, eb⟩ := b
  rw [zpow_add₀ (by norm_num)]
  cases na <;> cases nb <;> simp [val] <;> ring

/-- The product of two coefficients of at most `workingDigits` digits has at most 140. -/
lemma coefficient_mul_lt {a b : Decimal} (ha : a.coefficient < 10 ^ workingDigits)
    (hb : b.coefficient < 10 ^ workingDigits) : a.coefficient * b.coefficient < 10 ^ 140 :=
  calc a.coefficient * b.coefficient < 10 ^ 70 * 10 ^ 70 := Nat.mul_lt_mul'' ha hb
    _ = 10 ^ 140 := by norm_num

/-- The product of two decimals of at most `workingDigits` digits, at any exponents: an exponent
sum leaves the 64-bit range, or the result is the exact product rounded half-even to
`workingDigits` digits. -/
theorem mul_holds {a b : Decimal} (ha : a.coefficient < 10 ^ workingDigits)
    (hb : b.coefficient < 10 ^ workingDigits) :
    Checked.Holds (· = .add)
      (fun z => z.val = roundSignificant workingDigits (a.val * b.val) ∧
        z.coefficient < 10 ^ workingDigits) (a.mul b) := by
  have hprod := coefficient_mul_lt ha hb
  rw [mul, Word512.mul_of_lt (hprod.trans (by norm_num)), Checked.ok_bind]
  refine (Word64.add_holds _ _).bind ?_
  rintro _ rfl
  rw [val_mul_val]
  exact ofParts_holds (hprod.trans (by norm_num))

/-- Rounding to `n ≥ 1` significant digits, for every 512-bit coefficient and every exponent: the
result has at most `n` digits; it is the decimal itself when that has no more, and otherwise
`10 ^ e * roundHalfEven (x / 10 ^ e)` for the place `e = exponent + digitCount - n` of the last
kept digit, at exponent `e` or, after a carry such as `99.5` to `100`, at `e + 1`; and it is
negative only when the decimal is. The rounding fails only when an exponent sum leaves the 64-bit
range, and it returns whenever the exponent leaves room for the digits. Since a product is the
rounding of the exact product of the coefficients, a product of decimals of at most
`workingDigits` digits is the exact product rounded half-even to `workingDigits` digits. -/
theorem roundSig_rounds_half_even {x : Decimal} {n : ℕ} (hn : 0 < n)
    (hx : x.coefficient < Word512.bound) :
    Checked.Holds (· = .add)
      (fun r => r.coefficient < 10 ^ n ∧ (digitCount x.coefficient ≤ n → r = x) ∧
        (n < digitCount x.coefficient →
          r.val = roundHalfEven (x.val / 10 ^ (x.exponent + digitCount x.coefficient - n)) *
            10 ^ (x.exponent + digitCount x.coefficient - n) ∧
          (r.exponent = x.exponent + digitCount x.coefficient - n ∨
            r.exponent = x.exponent + digitCount x.coefficient - n + 1)) ∧
        (r.isNegative = true → r.coefficient ≠ 0 ∧ x.isNegative = true))
      (x.roundSig n) ∧
    (Word64.Fits x.exponent → x.exponent + digitCount x.coefficient ≤ Word64.greatest →
      ∃ r, x.roundSig n = .ok r) ∧
    ∀ a b : Decimal, a.coefficient < 10 ^ workingDigits → b.coefficient < 10 ^ workingDigits →
      Checked.Holds (· = .add)
        (fun z => z.val = roundSignificant workingDigits (a.val * b.val) ∧
          z.coefficient < 10 ^ workingDigits) (a.mul b) := by
  have hc : x.coefficient < 10 ^ 155 := hx.trans (by decide +kernel)
  refine ⟨(roundSig_spec hn hc).mono (fun _ h => h) ?_, fun he he' => ?_,
    fun a b ha hb => mul_holds ha hb⟩
  · intro r hr
    refine ⟨hr.coefficient_lt, hr.eq_of_digitCount_le, fun hlt => ⟨?_, ?_⟩, fun hneg => ?_⟩
    · -- the unit of the `n`-th digit is ten to the place of the leading digit less `n - 1`
      have hc0 : x.coefficient ≠ 0 := by
        rintro h
        simp [h] at hlt
      rw [hr.val_eq, roundSignificant, log_abs_val hc0 hc, sub_add_cancel]
    · rcases hr.exponent_eq hlt with h | h
      · left
        rw [h]
        push_cast [Nat.cast_sub hlt.le]
        ring
      · right
        rw [h]
        push_cast [Nat.cast_sub hlt.le]
        ring
    · -- a zero decimal has no digits to round and comes back unchanged
      simp only [isNegative, Bool.and_eq_true, bne_iff_ne, ne_eq] at hneg ⊢
      have hc0 : x.coefficient ≠ 0 := by
        intro h
        apply hneg.2
        rw [hr.eq_of_digitCount_le (by simp [h]), h]
      exact ⟨hneg.2, hr.negative_eq ▸ hneg.1, hc0⟩
  · obtain ⟨r, hr, -⟩ := roundSig_val hn hc he he'
    exact ⟨r, hr⟩

/-- Rounding `99.5` to two digits carries into a third, which is dropped again: `100`. -/
theorem roundSig_rounds_half_even_carry :
    0 < 2 ∧ (⟨false, 995, -1⟩ : Decimal).coefficient < Word512.bound ∧
      (Checked.Holds (· = .add)
        (fun (r : Decimal) => r.coefficient < 10 ^ 2 ∧
          (digitCount (⟨false, 995, -1⟩ : Decimal).coefficient ≤ 2 → r = ⟨false, 995, -1⟩) ∧
          (2 < digitCount (⟨false, 995, -1⟩ : Decimal).coefficient →
            r.val = roundHalfEven ((⟨false, 995, -1⟩ : Decimal).val /
                10 ^ ((⟨false, 995, -1⟩ : Decimal).exponent +
                  digitCount (⟨false, 995, -1⟩ : Decimal).coefficient - 2)) *
              10 ^ ((⟨false, 995, -1⟩ : Decimal).exponent +
                digitCount (⟨false, 995, -1⟩ : Decimal).coefficient - 2) ∧
            (r.exponent = (⟨false, 995, -1⟩ : Decimal).exponent +
                digitCount (⟨false, 995, -1⟩ : Decimal).coefficient - 2 ∨
              r.exponent = (⟨false, 995, -1⟩ : Decimal).exponent +
                digitCount (⟨false, 995, -1⟩ : Decimal).coefficient - 2 + 1)) ∧
          (r.isNegative = true → r.coefficient ≠ 0 ∧
            (⟨false, 995, -1⟩ : Decimal).isNegative = true))
        ((⟨false, 995, -1⟩ : Decimal).roundSig 2) ∧
      (Word64.Fits (⟨false, 995, -1⟩ : Decimal).exponent →
        (⟨false, 995, -1⟩ : Decimal).exponent +
            digitCount (⟨false, 995, -1⟩ : Decimal).coefficient ≤ Word64.greatest →
          ∃ r, (⟨false, 995, -1⟩ : Decimal).roundSig 2 = .ok r) ∧
      ∀ a b : Decimal, a.coefficient < 10 ^ workingDigits → b.coefficient < 10 ^ workingDigits →
        Checked.Holds (· = .add)
          (fun z => z.val = roundSignificant workingDigits (a.val * b.val) ∧
            z.coefficient < 10 ^ workingDigits) (a.mul b)) :=
  ⟨by decide, by decide +kernel, roundSig_rounds_half_even (x := ⟨false, 995, -1⟩) (n := 2) (by decide)
    (by decide +kernel)⟩

end Decimal

end TickGrid
