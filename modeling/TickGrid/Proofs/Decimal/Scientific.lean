import TickGrid.Proofs.Decimal.Writing
import TickGrid.Proofs.Decimal.Quotient

/-!
# Scientific form

`Decimal.toScientific x places` rounds `x` half-even to `places + 1` significant digits and writes
one digit, then a point and `places` more digits when `places` is positive, then a lower-case `e`,
a sign that is always written, and the place of the leading digit. Short coefficients are padded
with zeros on the right, and a zero is written with exponent `+0`. A rounding that carries moves
the leading digit one place up, so the exponent written is that of the rounded value: `9.999e-7`
with two places is `1.00e-6`.

`Numeral.ScientificOf places q n` says that the numeral `n` writes the rational `q` in this form.
The text of `toScientific` is such a numeral of the rounded value, for every coefficient below
`10 ^ 155` and every exponent, unless an exponent sum or the negation of the least exponent
overflows (`toScientific_spec`). The count `places + 1` is a 32-bit sum, which overflows at the
greatest count before anything is rounded; every other count is written at every exponent of at
most `2 ^ 62` in magnitude (`toScientific_ok`).

`toScientific_rounds_significant` puts the two together for every coefficient of 512 bits.
-/

namespace TickGrid

open Text

namespace Numeral

/-- `n` writes `q` in scientific form with `places` digits after the point: a minus exactly when
`q` is negative, one digit before the point that is a zero only for zero, a point and `places`
digits when `places` is positive, and a lower-case `e` with a sign and the place of the leading
digit of `q`, which is zero for zero. -/
structure ScientificOf (places : ℕ) (q : ℚ) (n : Numeral) : Prop where
  sign_eq : n.sign = if q < 0 then .minus else .none
  lead : ∃ d, n.integer = [d] ∧ d.isDigit = true ∧ (d = '0' ↔ q = 0)
  fraction : ∃ f, n.fraction = (if places = 0 then none else some f) ∧ f.length = places ∧
    ∀ c ∈ f, c.isDigit = true
  exponent_eq : n.exponent =
    some ⟨false, if Int.log 10 |q| < 0 then .minus else .plus, Decimal.digitsOf (Int.log 10 |q|).natAbs⟩
  value_eq : n.value = q

/-- The fraction of a scientific numeral, as digits. -/
lemma ScientificOf.fractionDigits_eq {places : ℕ} {q : ℚ} {n : Numeral} (hn : n.ScientificOf places q) :
    ∃ f, n.fractionDigits = f ∧ f.length = places ∧ ∀ c ∈ f, c.isDigit = true := by
  obtain ⟨f, hf, hlen, hdig⟩ := hn.fraction
  by_cases h : places = 0
  · refine ⟨[], by simp [fractionDigits, hf, h], by simp [h], by simp⟩
  · exact ⟨f, by simp [fractionDigits, hf, h], hlen, hdig⟩

/-- A scientific numeral has one digit before the point and `places` after it. -/
lemma ScientificOf.length_digits {places : ℕ} {q : ℚ} {n : Numeral} (hn : n.ScientificOf places q) :
    n.digits.length = places + 1 := by
  obtain ⟨d, hd, -, -⟩ := hn.lead
  obtain ⟨f, hf, hlen, -⟩ := hn.fractionDigits_eq
  rw [digits, hd, hf, List.length_append, hlen, List.length_singleton, add_comm]

/-- A scientific numeral is valid when the place of its leading digit has at most nine digits. -/
lemma ScientificOf.valid {places : ℕ} {q : ℚ} {n : Numeral} (hn : n.ScientificOf places q)
    (hq : (Int.log 10 |q|).natAbs < 10 ^ 9) : n.Valid := by
  obtain ⟨d, hd, hdig, -⟩ := hn.lead
  obtain ⟨f, hf, -, hfdig⟩ := hn.fractionDigits_eq
  refine ⟨⟨by simp [digits, hd], fun c hc => ?_⟩, fun x hx => ?_⟩
  · rw [digits, hd, hf, List.singleton_append, List.mem_cons] at hc
    rcases hc with rfl | hc
    · exact hdig
    · exact hfdig c hc
  · rw [hn.exponent_eq, Option.mem_def, Option.some.injEq] at hx
    subst hx
    refine ⟨⟨Decimal.digitsOf_ne_nil _, fun c hc => Decimal.isDigit_of_mem_digitsOf hc⟩, ?_⟩
    rw [Decimal.digitValue_digitsOf]
    exact hq

end Numeral

/-- A computation that returns whenever `Q` holds fails only when `Q` does not. -/
lemma Checked.Holds.unless {α : Type} {fail : Overflow → Prop} {p : α → Prop} {x : Checked α}
    {Q : Prop} (hx : Checked.Holds fail p x) (hQ : Q → ∃ a, x = .ok a) :
    Checked.Holds (fun e => fail e ∧ ¬ Q) p x := by
  refine ⟨hx.1, fun e he => ⟨hx.2 e he, fun hq => ?_⟩⟩
  obtain ⟨a, ha⟩ := hQ hq
  rw [ha] at he
  cases he

/-! ## The steps that can overflow -/

/-- The count of significant digits is one more than the places, unless that leaves 32 bits. -/
lemma Word32.succ_holds (n : ℕ) :
    Checked.Holds (fun e => e = .add ∧ Word32.greatest ≤ n) (· = n + 1) (Word32.succ n) := by
  unfold Word32.succ
  split <;> simp_all [throw, throwThe, MonadExceptOf.throw]

lemma Word32.succ_of_lt {n : ℕ} (h : n < Word32.greatest) : Word32.succ n = .ok (n + 1) := by
  rw [Word32.succ, if_pos (by omega)]
  rfl

/-- The magnitude of an exponent, unless it is the least one. -/
lemma Word64.natAbs_holds (a : ℤ) :
    Checked.Holds (fun e => e = .neg ∧ a = Word64.least) (· = a.natAbs) (Word64.natAbs a) := by
  unfold Word64.natAbs
  split <;> simp_all [throw, throwThe, MonadExceptOf.throw]

lemma Word64.natAbs_of_ne {a : ℤ} (h : a ≠ Word64.least) : Word64.natAbs a = .ok a.natAbs := by
  rw [Word64.natAbs, if_neg h]
  rfl

namespace Decimal

/-- The adjusted exponent is the exponent of the last digit plus the digit count less one, unless
one of the two sums leaves the 64-bit range. -/
lemma adjusted_holds (x : Decimal) :
    Checked.Holds Overflow.InExponent (· = x.exponent + digitCount x.coefficient - 1) x.adjusted := by
  unfold adjusted
  refine (Word64.add_holds _ _).of_add.bind ?_
  rintro _ rfl
  exact Word64.sub_inExponent _ _

/-- The place of the leading digit that the scientific form writes: zero for a zero, the adjusted
exponent otherwise. Either way it is the place of the leading digit of the value. -/
lemma scientificLead_holds {v : Decimal} (hv : v.coefficient < 10 ^ 155) :
    Checked.Holds Overflow.InExponent (· = Int.log 10 |v.val|)
      (if v.isZero = true then pure 0 else v.adjusted) := by
  by_cases h0 : v.coefficient = 0
  · have hzero : v.isZero = true := by simp [isZero, h0]
    rw [if_pos hzero, Checked.pure_eq, Checked.holds_ok, (val_eq_zero_iff v).2 h0, abs_zero,
      Int.log_zero_right]
  · have hzero : v.isZero = false := by simp [isZero, h0]
    rw [if_neg (by simp [hzero]), log_abs_val h0 hv]
    exact adjusted_holds v

/-- The digits written for a coefficient of at most `D` digits, padded with zeros on the right to
`D` digits, are `D` digits worth the coefficient shifted by the padding. -/
lemma digitsOf_pad {c D : ℕ} (hc : c < 10 ^ D) (hD : 0 < D) :
    (digitsOf c ++ zeros (D - (digitsOf c).length)).length = D ∧
      digitValue (digitsOf c ++ zeros (D - (digitsOf c).length)) =
        c * 10 ^ (D - (digitsOf c).length) := by
  have hlen : (digitsOf c).length ≤ D := by
    rw [digitsOf_eq]
    exact (Nat.length_toDigits_le_iff (by norm_num) hD).2 hc
  refine ⟨by simp [zeros]; omega, ?_⟩
  have hz := digitValue_zeros_append (D - (digitsOf c).length) []
  rw [List.append_nil, digitValue_nil] at hz
  rw [digitValue_append, digitValue_digitsOf, hz, add_zero, zeros, List.length_replicate]

/-- A decimal is worth its coefficient, signed as it is written, at its exponent. -/
lemma val_eq_signMark (x : Decimal) :
    x.val = ((x.signMark.apply x.coefficient : ℤ) : ℚ) * 10 ^ x.exponent := by
  by_cases h0 : x.coefficient = 0
  · simp [val, h0, SignMark.apply]
  · rw [Numeral.apply_cast, signMark_eq_minus h0, val]

/-- A sign is written before a rounded value exactly when it is negative. -/
lemma signMark_eq_ite (x : Decimal) : x.signMark = if x.val < 0 then .minus else .none := by
  unfold signMark
  by_cases h : x.val < 0
  · rw [if_pos ((isNegative_iff_val_neg x).2 h), if_pos h]
  · rw [if_neg (mt (isNegative_iff_val_neg x).1 h), if_neg h]

/-! ## The place of the leading digit of a rounding

Rounding to `D` significant digits keeps the leading digit where it was or, by a carry, one place
higher: the unit of the `D`-th digit divides the power of ten below the value, and half a unit is
less than the value. -/

lemma le_roundHalfEven {x : ℚ} {N : ℤ} (h : (N : ℚ) ≤ x) : N ≤ roundHalfEven x := by
  have hfloor : N ≤ ⌊x⌋ := Int.le_floor.2 h
  unfold roundHalfEven
  dsimp only
  split_ifs <;> omega

lemma le_abs_roundHalfEven {x : ℚ} {N : ℕ} (h : (N : ℚ) ≤ |x|) : (N : ℤ) ≤ |roundHalfEven x| := by
  rcases le_or_gt 0 x with hx | hx
  · rw [abs_of_nonneg hx] at h
    exact (le_roundHalfEven (by exact_mod_cast h)).trans (le_abs_self _)
  · rw [abs_of_neg hx] at h
    have hneg := le_roundHalfEven (N := N) (x := -x) (by exact_mod_cast h)
    rw [roundHalfEven_neg] at hneg
    exact hneg.trans (neg_le_abs _)

lemma zpow_log_le_abs_roundSignificant {D : ℕ} (hD : 0 < D) {q : ℚ} (hq : q ≠ 0) :
    (10 : ℚ) ^ Int.log 10 |q| ≤ |roundSignificant D q| := by
  set a := Int.log 10 |q|
  set U : ℚ := 10 ^ (a + 1 - D) with hU
  have hUpos : 0 < U := by positivity
  have hlead : (10 : ℚ) ^ a ≤ |q| := by
    exact_mod_cast Int.zpow_log_le_self (b := 10) (by norm_num) (abs_pos.2 hq)
  have hten : ((10 ^ (D - 1) : ℕ) : ℚ) * U = 10 ^ a := by
    rw [hU, Nat.cast_pow, Nat.cast_ofNat, ← zpow_natCast, ← zpow_add₀ (by norm_num)]
    congr 1
    omega
  -- the quotient by the unit of the `D`-th digit is at least `10 ^ (D - 1)`
  have hquot : ((10 ^ (D - 1) : ℕ) : ℚ) ≤ |q / U| := by
    rw [abs_div, abs_of_pos hUpos, le_div_iff₀ hUpos, hten]
    exact hlead
  have hm : (((10 ^ (D - 1) : ℕ) : ℤ) : ℚ) ≤ |(roundHalfEven (q / U) : ℚ)| := by
    exact_mod_cast le_abs_roundHalfEven hquot
  calc (10 : ℚ) ^ a = ((10 ^ (D - 1) : ℕ) : ℚ) * U := hten.symm
    _ ≤ |(roundHalfEven (q / U) : ℚ)| * U := by
        gcongr
        exact_mod_cast hm
    _ = |roundSignificant D q| := by rw [roundSignificant, ← hU, abs_mul, abs_of_pos hUpos]

/-- A rounding's leading digit stands at least where the value's does. -/
lemma log_le_log_roundSignificant {D : ℕ} (hD : 0 < D) {q : ℚ} (hq : q ≠ 0) :
    Int.log 10 |q| ≤ Int.log 10 |roundSignificant D q| := by
  have hr : roundSignificant D q ≠ 0 := fun h => hq ((roundSignificant_eq_zero_iff hD).1 h)
  refine (Int.zpow_le_iff_le_log (by norm_num) (abs_pos.2 hr)).1 ?_
  exact_mod_cast zpow_log_le_abs_roundSignificant hD hq

/-- A rounding's leading digit stands at most one place above the value's. -/
lemma log_roundSignificant_le {D : ℕ} (hD : 0 < D) {q : ℚ} (hq : q ≠ 0) :
    Int.log 10 |roundSignificant D q| ≤ Int.log 10 |q| + 1 := by
  have hr : roundSignificant D q ≠ 0 := fun h => hq ((roundSignificant_eq_zero_iff hD).1 h)
  have herr := abs_roundSignificant_sub_le hD q
  have hhalf := halfUnit_le_half D
  have hlt : |q| < ((10 : ℕ) : ℚ) ^ (Int.log 10 |q| + 1) := Int.lt_zpow_succ_log_self (by norm_num) _
  have habs : |roundSignificant D q| ≤ 2 * |q| := by
    have := abs_sub_abs_le_abs_sub (roundSignificant D q) q
    nlinarith [abs_nonneg q]
  have hbound : |roundSignificant D q| < ((10 : ℕ) : ℚ) ^ (Int.log 10 |q| + 1 + 1) := by
    rw [zpow_add_one₀ (by norm_num)]
    have hpos : (0 : ℚ) < ((10 : ℕ) : ℚ) ^ (Int.log 10 |q| + 1) := by positivity
    push_cast at hlt hpos ⊢
    linarith
  have := (Int.lt_zpow_iff_log_lt (by norm_num) (abs_pos.2 hr)).1 hbound
  omega

/-- The text that the scientific form writes for a value `v` of at most `places + 1` digits is a
scientific numeral of `v`: the sign, the first of the padded digits, a point and the others when
there are any, and the place of the leading digit. -/
lemma scientific_text {v : Decimal} {places : ℕ} (hv : v.coefficient < 10 ^ (places + 1))
    (hv' : v.coefficient < 10 ^ 155) :
    ∃ n : Numeral, (v.signText ++ pointAfterFirst (digitsOf v.coefficient ++
        zeros (places + 1 - (digitsOf v.coefficient).length)) ++
        (if Int.log 10 |v.val| < 0 then "e-" else "e+") ++
        toString (Int.log 10 |v.val|).natAbs).toList = n.text ∧ n.ScientificOf places v.val := by
  obtain ⟨hlen, hds⟩ := digitsOf_pad hv (Nat.succ_pos places)
  set L := (digitsOf v.coefficient).length with hL
  set ds := digitsOf v.coefficient ++ zeros (places + 1 - L) with hdsdef
  obtain ⟨d, rest, hdr⟩ : ∃ d rest, ds = d :: rest :=
    List.exists_cons_of_ne_nil (List.ne_nil_of_length_pos (by omega))
  have hrest : rest.length = places := by
    rw [hdr, List.length_cons] at hlen
    omega
  have hd : d ∈ (digitsOf v.coefficient).head? := by
    obtain ⟨d', rest', hdr'⟩ := List.exists_cons_of_ne_nil (digitsOf_ne_nil v.coefficient)
    rw [hdsdef, hdr', List.cons_append, List.cons.injEq] at hdr
    simp [hdr', hdr.1]
  set k := Int.log 10 |v.val| with hk
  have hfrac : (if rest = [] then none else some rest) = if places = 0 then none else some rest := by
    simp only [← List.length_eq_zero_iff, hrest]
  refine ⟨⟨v.signMark, [d], if places = 0 then none else some rest,
    some ⟨false, if k < 0 then .minus else .plus, digitsOf k.natAbs⟩⟩, ?_, ?_⟩
  · rw [hdr]
    simp only [String.toList_append, signText_toList, pointAfterFirst_toList, hfrac, Numeral.text,
      Numeral.mantissa, Option.map_some, Option.getD_some, ExponentPart.text, ExponentPart.mark]
    by_cases hneg : k < 0 <;> simp [hneg, SignMark.text, Nat.toString_eq_repr, digitsOf]
  refine ⟨signMark_eq_ite v, ⟨d, rfl, ?_, ?_⟩, ⟨rest, rfl, hrest, fun c hc => ?_⟩, rfl, ?_⟩
  · exact isDigit_of_mem_digitsOf (List.mem_of_mem_head? hd)
  · -- the first digit written is a zero only for the coefficient zero
    rw [val_eq_zero_iff]
    by_cases h0 : v.coefficient = 0
    · rw [h0] at hd
      simp only [h0, iff_true]
      simpa [digitsOf, eq_comm] using hd
    · exact ⟨fun h => absurd h (head_digitsOf h0 d hd), fun h => absurd h h0⟩
  · have hc : c ∈ ds := by rw [hdr]; exact List.mem_cons_of_mem d hc
    rcases List.mem_append.1 hc with hc | hc
    · exact isDigit_of_mem_digitsOf hc
    · rw [List.eq_of_mem_replicate hc]
      rfl
  · -- the padded digits, with the point before the last `places`, at the place of the leading
    -- digit less `places`
    have hget : (if places = 0 then none else some rest).getD [] = rest := by
      split_ifs with h
      · simp [List.length_eq_zero_iff.1 (hrest.trans h)]
      · rfl
    have hexp : ExponentPart.value ⟨false, if k < 0 then .minus else .plus, digitsOf k.natAbs⟩ = k := by
      rw [ExponentPart.value, digitValue_digitsOf, apply_natAbs]
    simp only [Numeral.value, Numeral.digits, Numeral.fractionDigits, Numeral.scale,
      Numeral.exponentValue, Option.map_some, Option.getD_some, hexp, hget, hrest]
    rw [List.singleton_append, ← hdr, hds, val_eq_signMark, Numeral.apply_cast, Numeral.apply_cast]
    by_cases h0 : v.coefficient = 0
    · simp [h0]
    have hlenL : L = digitCount v.coefficient := length_digitsOf h0 hv'
    have hkv : k = v.exponent + digitCount v.coefficient - 1 := log_abs_val h0 hv'
    have hLle : L ≤ places + 1 := hlenL ▸ (digitCount_le_iff hv').2 hv
    have hpow : (10 : ℚ) ^ (places + 1 - L) * 10 ^ (k - places) = 10 ^ v.exponent := by
      rw [← zpow_natCast, ← zpow_add₀ (by norm_num)]
      congr 1
      push_cast [Nat.cast_sub hLle]
      omega
    push_cast
    rw [mul_assoc, mul_assoc, ← hpow]
    ring

/-- What the scientific form writes once the value is rounded and the place `lead` of its leading
digit is known: the scientific numeral of the value, unless the place is the least exponent,
whose magnitude overflows. -/
lemma scientific_tail {v : Decimal} {places : ℕ} (hv : v.coefficient < 10 ^ (places + 1))
    (hv' : v.coefficient < 10 ^ 155) {lead : ℤ} (hlead : lead = Int.log 10 |v.val|) :
    Checked.Holds (· = .neg) (fun s => ∃ n : Numeral, s.toList = n.text ∧ n.ScientificOf places v.val)
      (do
        let size ← Word64.natAbs lead
        pure (v.signText ++ pointAfterFirst (digitsOf v.coefficient ++
          zeros (places + 1 - (digitsOf v.coefficient).length)) ++
          (if lead < 0 then "e-" else "e+") ++ toString size)) := by
  refine ((Word64.natAbs_holds lead).mono (fun _ h => h.1) fun _ h => h).bind ?_
  rintro _ rfl
  rw [Checked.pure_eq, Checked.holds_ok, hlead]
  exact scientific_text hv hv'

/-- The scientific form of a coefficient below `10 ^ 155` at any exponent: the text is the
scientific numeral of the value rounded half-even to `places + 1` significant digits, unless the
count of digits, an exponent sum or the magnitude of the least exponent overflows. -/
theorem toScientific_spec {x : Decimal} (hx : x.coefficient < 10 ^ 155) (places : ℕ) :
    Checked.Holds (fun e => e.InExponent ∨ e = .neg)
      (fun s => ∃ n : Numeral, s.toList = n.text ∧
        n.ScientificOf places (roundSignificant (places + 1) x.val))
      (x.toScientific places) := by
  unfold toScientific
  refine ((Word32.succ_holds places).mono (fun _ h => .inl (.of_eq_add h.1)) fun _ h => h).bind ?_
  rintro _ rfl
  refine ((roundSig_spec (Nat.succ_pos places) hx).mono (fun _ h => .inl (.of_eq_add h))
    fun _ h => h).bind ?_
  intro v hv
  -- the rounded coefficient has at most `places + 1` digits, and at most those of `x`
  have hv' : v.coefficient < 10 ^ 155 := by
    by_cases hle : digitCount x.coefficient ≤ places + 1
    · rw [hv.eq_of_digitCount_le hle]
      exact hx
    · have := digitCount_le_of_lt hx
      exact hv.coefficient_lt.trans_le (Nat.pow_le_pow_right (by norm_num) (by omega))
  rw [← hv.val_eq]
  have hlead := scientificLead_holds hv'
  split
  · -- a zero is written with exponent zero
    rename_i h0
    rw [if_pos h0, Checked.pure_eq, Checked.holds_ok] at hlead
    rw [Checked.pure_eq, Checked.ok_bind]
    exact (scientific_tail hv.coefficient_lt hv' hlead).mono (fun _ h => .inr h) fun _ h => h
  · rename_i h0
    rw [if_neg h0] at hlead
    refine (hlead.mono (fun _ h => .inl h) fun _ h => h).bind fun lead hl => ?_
    exact (scientific_tail hv.coefficient_lt hv' hl).mono (fun _ h => .inr h) fun _ h => h

/-- At an exponent of at most `2 ^ 62` in magnitude, and with a count of digits that fits in 32
bits, the scientific form is always written: the rounded value's exponent moves by at most the
`155` digits of the coefficient, far from both ends of the 64-bit range. -/
theorem toScientific_ok {x : Decimal} (hx : x.coefficient < 10 ^ 155) {places : ℕ}
    (hp : places < Word32.greatest) (he : |x.exponent| ≤ 2 ^ 62) :
    ∃ s, x.toScientific places = .ok s := by
  obtain ⟨hfit, hroom⟩ := fits_room hx he
  obtain ⟨v, hv, -, -⟩ := roundSig_val (Nat.succ_pos places) hx hfit hroom
  have hrounds := (roundSig_spec (Nat.succ_pos places) hx).1 v hv
  have hcount := digitCount_le_of_lt hx
  have hve : |v.exponent| ≤ 2 ^ 62 + 156 := by
    rw [abs_le] at he ⊢
    by_cases hle : digitCount x.coefficient ≤ places + 1
    · rw [hrounds.eq_of_digitCount_le hle]
      omega
    · rcases hrounds.exponent_eq (by omega) with h | h <;> rw [h] <;> omega
  have hv' : v.coefficient < 10 ^ 155 := by
    by_cases hle : digitCount x.coefficient ≤ places + 1
    · rw [hrounds.eq_of_digitCount_le hle]
      exact hx
    · exact hrounds.coefficient_lt.trans_le (Nat.pow_le_pow_right (by norm_num) (by omega))
  have hvcount := digitCount_le_of_lt hv'
  rw [abs_le] at hve
  unfold toScientific
  rw [Word32.succ_of_lt hp, Checked.ok_bind, hv, Checked.ok_bind]
  split
  · rw [Checked.pure_eq, Checked.ok_bind]
    dsimp only
    rw [Word64.natAbs_of_ne (by decide)]
    exact ⟨_, rfl⟩
  · rename_i h0
    have hv0 : v.coefficient ≠ 0 := by simpa [isZero] using h0
    rw [adjusted_eq_of_not_leadOverflows hv0 hv'
        ⟨by unfold Word64.least; omega, by unfold Word64.greatest; omega⟩
        (by unfold LeadOverflows Word64.greatest; omega), Checked.ok_bind]
    dsimp only
    rw [Word64.natAbs_of_ne (by unfold Word64.least; omega)]
    exact ⟨_, rfl⟩

/-- The count `places + 1` of significant digits overflows 32 bits at the greatest count. -/
lemma toScientific_greatest (x : Decimal) : x.toScientific Word32.greatest = .error .add := rfl

/-- The scientific form with `places` digits after the point, for every decimal with a 512-bit
coefficient: the text is a minus exactly for a negative rounded value, one digit that is a zero
only for zero, a point and `places` digits when there are any, a lower-case `e`, a sign and the
place of the leading digit of the value rounded half-even to `places + 1` significant digits, and
it denotes that rounded value. It fails only by an overflow in the exponent arithmetic or in the
magnitude of the least exponent, and is always written when the count fits in 32 bits and the
exponent is at most `2 ^ 62` in magnitude; at the greatest count the sum `places + 1` itself
overflows. -/
theorem toScientific_rounds_significant {x : Decimal} (hx : x.coefficient < Word512.bound)
    (places : ℕ) :
    Checked.Holds (fun e => (e.InExponent ∨ e = .neg) ∧
        ¬ (places < Word32.greatest ∧ |x.exponent| ≤ 2 ^ 62))
      (fun s => ∃ n : Numeral, s.toList = n.text ∧
        n.ScientificOf places (roundSignificant (places + 1) x.val))
      (x.toScientific places) ∧
    (roundSignificant (places + 1) x.val = 0 ↔ x.coefficient = 0) ∧
    x.toScientific Word32.greatest = .error .add := by
  have hx' : x.coefficient < 10 ^ 155 := hx.trans (by decide +kernel)
  refine ⟨(toScientific_spec hx' places).unless fun h => toScientific_ok hx' h.1 h.2, ?_,
    toScientific_greatest x⟩
  rw [roundSignificant_eq_zero_iff (Nat.succ_pos places), val_eq_zero_iff]

/-- `9.999e-7` with two places: the rounding carries into a new leading digit. -/
theorem toScientific_rounds_significant_carry :
    (⟨false, 9999, -10⟩ : Decimal).coefficient < Word512.bound ∧
    Checked.Holds (fun e => (e.InExponent ∨ e = .neg) ∧
        ¬ (2 < Word32.greatest ∧ |(⟨false, 9999, -10⟩ : Decimal).exponent| ≤ 2 ^ 62))
      (fun s => ∃ n : Numeral, s.toList = n.text ∧
        n.ScientificOf 2 (roundSignificant (2 + 1) (⟨false, 9999, -10⟩ : Decimal).val))
      ((⟨false, 9999, -10⟩ : Decimal).toScientific 2) ∧
    (roundSignificant (2 + 1) (⟨false, 9999, -10⟩ : Decimal).val = 0 ↔
      (⟨false, 9999, -10⟩ : Decimal).coefficient = 0) ∧
    (⟨false, 9999, -10⟩ : Decimal).toScientific Word32.greatest = .error .add :=
  ⟨by decide +kernel, toScientific_rounds_significant (by decide +kernel) 2⟩

example : (⟨false, 9999, -10⟩ : Decimal).toScientific 2 = .ok "1.00e-6" := by decide +kernel

/-- The scientific form is not always written at the top of the exponent range: rounding
`9.9E+9223372036854775806` to one digit carries its leading digit to the place `2 ^ 63 - 1`, and
the sum of that exponent and the digit count, `2 ^ 63`, overflows. -/
theorem toScientific_carry_past_greatest_exponent :
    (⟨false, 99, 9223372036854775805⟩ : Decimal).toScientific 0 = .error .add := by
  decide +kernel

end Decimal

end TickGrid
