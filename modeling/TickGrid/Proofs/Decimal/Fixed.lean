import TickGrid.Proofs.Decimal.Scientific

/-!
# Fixed form

`Decimal.toFixed x places` rounds `x` half-even at the place `10 ^ -places` (`Decimal.quantize`)
and writes the digits of the rounded value with a point before the last `places` of them. The
digits are padded with zeros on the right up to that place, and then on the left up to one digit
before the point. A minus is written only for a rounded value that is not zero.

`Numeral.FixedOf places lead q n` says that the numeral `n` writes `q` with `places` digits after
the point and `lead` zeros before the digits of its integer part. For a zero, and for a decimal
whose leading digit stands at most at `10 ^ 100`, the text of `toFixed` is such a numeral of the
value rounded half-even to `places` places with no zeros before the integer part, unless the
decimal is a zero with a positive exponent: the zeros that pad it on the right then follow the one
written for the coefficient, and `0E+2` is written `000` (`toFixed_spec`).

The text fails in exactly two cases (`toFixed_eq_error`): with no places, the least exponent is
one past the 64-bit range from the place `10 ^ 0`, and a zero past the greatest exponent less
`places` overflows the sum that counts its padding.

Quantizing keeps or rounds the value to the place (`quantize_holds`), and the padded digits of a
value whose last digit stands at or above the place, written with the point, are a fixed numeral of
it (`fixed_text`). `toFixed_rounds_to_places` puts the text and its failures together.
-/

namespace TickGrid

open Text

/-- `q` rounded half-even to `places` digits after the point. -/
def roundPlaces (places : ℕ) (q : ℚ) : ℚ := roundHalfEven (q * 10 ^ places) / 10 ^ places

namespace Numeral

/-- `n` writes `q` with `places` digits after the point: a minus exactly when `q` is negative,
`lead` zeros and then the digits of the integer part of `q` before the point, a point and `places`
digits when `places` is positive, and no exponent. With `lead = 0` the integer part is written
without leading zeros. -/
structure FixedOf (places lead : ℕ) (q : ℚ) (n : Numeral) : Prop where
  sign_eq : n.sign = if q < 0 then .minus else .none
  integer_eq : n.integer = Decimal.zeros lead ++ Decimal.digitsOf ⌊|q|⌋₊
  fraction : ∃ f, n.fraction = (if places = 0 then none else some f) ∧ f.length = places ∧
    ∀ c ∈ f, c.isDigit = true
  exponent_eq : n.exponent = none
  value_eq : n.value = q

end Numeral

namespace Decimal

/-! ## Digits of multiples of powers of ten -/

/-- Appending zeros to the digits of a number other than zero writes its multiple by a power of
ten. -/
lemma digitsOf_mul_ten_pow {c : ℕ} (hc : c ≠ 0) (k : ℕ) :
    digitsOf (c * 10 ^ k) = digitsOf c ++ zeros k := by
  induction k with
  | zero => simp [zeros]
  | succ k ih =>
    have hpos : 0 < c * 10 ^ k := Nat.mul_pos (Nat.pos_of_ne_zero hc) (Nat.pow_pos (by norm_num))
    rw [zeros, List.replicate_succ', ← zeros, ← List.append_assoc, ← ih, digitsOf_eq, digitsOf_eq,
      show ['0'] = Nat.toDigits 10 0 from (Nat.toDigits_zero 10).symm,
      Nat.toDigits_append_toDigits (by norm_num) hpos (by norm_num), pow_succ]
    -- one more zero is one more factor of ten
    congr 1
    ring

/-- The digits of a number of at least `10 ^ p` are those of its quotient by `10 ^ p`, followed by
`p` more. -/
lemma digitsOf_eq_append {N p : ℕ} (h : 10 ^ p ≤ N) :
    ∃ rest, rest.length = p ∧ digitsOf N = digitsOf (N / 10 ^ p) ++ rest := by
  induction p generalizing N with
  | zero => exact ⟨[], rfl, by simp⟩
  | succ p ih =>
    have hten : 10 ≤ N := le_trans (Nat.le_self_pow (by omega) 10) h
    have hq : 10 ^ p ≤ N / 10 := by
      rw [Nat.le_div_iff_mul_le (by norm_num), ← pow_succ]
      exact h
    obtain ⟨rest, hlen, hrest⟩ := ih hq
    refine ⟨rest ++ [Nat.digitChar (N % 10)], by simp [hlen], ?_⟩
    rw [digitsOf_eq, Nat.toDigits_of_base_le (by norm_num) hten, ← digitsOf_eq, hrest,
      Nat.div_div_eq_div_mul, ← pow_succ', List.append_assoc]

/-- Cutting the last `p` digits off the digits of a number of at least `10 ^ p` writes its
quotient by `10 ^ p`. -/
lemma take_digitsOf {N p : ℕ} (h : 10 ^ p ≤ N) :
    (digitsOf N).take ((digitsOf N).length - p) = digitsOf (N / 10 ^ p) := by
  obtain ⟨rest, hlen, hN⟩ := digitsOf_eq_append h
  rw [hN, List.length_append, hlen, Nat.add_sub_cancel]
  exact List.take_left' rfl

/-- The digits written for `N`, padded on the left to more than `p` digits, lose their last `p`
digits to the digits of the quotient of `N` by `10 ^ p`. -/
lemma take_pad_digitsOf {N p : ℕ} {ds : List Char}
    (hds : ds = if (digitsOf N).length ≤ p then zeros (p + 1 - (digitsOf N).length) ++ digitsOf N
      else digitsOf N) :
    ds.take (ds.length - p) = digitsOf (N / 10 ^ p) := by
  have hpos : 0 < (digitsOf N).length := List.length_pos_iff.2 (digitsOf_ne_nil N)
  split_ifs at hds with hlen
  · -- padded to `p + 1` digits: one zero before the point, and `N` is below `10 ^ p`
    have hN : N < 10 ^ p := by
      have hp : 0 < p := hpos.trans_le hlen
      rw [digitsOf_eq] at hlen
      exact (Nat.length_toDigits_le_iff (by norm_num) hp).1 hlen
    obtain ⟨m, hm⟩ : ∃ m, p + 1 - (digitsOf N).length = m + 1 := ⟨p - (digitsOf N).length, by omega⟩
    rw [hds, List.length_append, zeros, List.length_replicate, hm, Nat.div_eq_of_lt hN,
      show m + 1 + (digitsOf N).length - p = 1 by omega]
    simp [List.replicate_succ, digitsOf]
  · subst hds
    rcases Nat.eq_zero_or_pos p with rfl | hp
    · simp
    · refine take_digitsOf (not_lt.1 fun hN => hlen ?_)
      rw [digitsOf_eq]
      exact (Nat.length_toDigits_le_iff (by norm_num) hp).2 hN

/-- Padding with zeros on the left to more than `p` digits keeps the value and adds only zeros. -/
lemma pad_spec {ds ds' : List Char} {p : ℕ}
    (hds' : ds' = if ds.length ≤ p then zeros (p + 1 - ds.length) ++ ds else ds) :
    ds'.length = max ds.length (p + 1) ∧ digitValue ds' = digitValue ds ∧
      ∀ c ∈ ds', c ∈ ds ∨ c = '0' := by
  split_ifs at hds' with h <;> subst hds'
  · refine ⟨by simp [zeros]; omega, digitValue_zeros_append _ _, fun c hc => ?_⟩
    rcases List.mem_append.1 hc with hc | hc
    · exact Or.inr (List.eq_of_mem_replicate hc)
    · exact Or.inl hc
  · exact ⟨by omega, rfl, fun c hc => Or.inl hc⟩

/-- The digits before the point of the fixed form: the padded digits of a value with its last
digit at or above the place, less the last `places`, are those of its integer part, behind as many
zeros as a zero's positive exponent pads it with. -/
lemma fixed_integer {v : Decimal} {places : ℕ} (hv : -(places : ℤ) ≤ v.exponent) {ds ds' : List Char}
    (hds : ds = digitsOf v.coefficient ++ zeros (v.exponent + places).toNat)
    (hds' : ds' = if ds.length ≤ places then zeros (places + 1 - ds.length) ++ ds else ds)
    (hlen' : ds'.length = max ds.length (places + 1)) (hmem' : ∀ c ∈ ds', c ∈ ds ∨ c = '0') :
    ds'.take (ds'.length - places) =
      zeros (if v.coefficient = 0 then v.exponent.toNat else 0) ++ digitsOf ⌊|v.val|⌋₊ := by
  set k := (v.exponent + places).toNat with hk
  have hfloor : ⌊|v.val|⌋₊ = v.coefficient * 10 ^ k / 10 ^ places := by
    rw [abs_val_eq_aligned v (show -(places : ℤ) ≤ v.exponent from hv), sub_neg_eq_add,
      ← hk, zpow_neg, zpow_natCast, ← div_eq_mul_inv]
    exact_mod_cast Nat.floor_div_eq_div (K := ℚ) (v.coefficient * 10 ^ k) (10 ^ places)
  rw [hfloor]
  by_cases hc0 : v.coefficient = 0
  · -- a zero: all digits are zeros, and those past the place `10 ^ 0` stay before the point
    have hlen : ds.length = k + 1 := by
      rw [hds, hc0]
      simp [digitsOf, zeros]
    have hzeros : ds' = List.replicate ds'.length '0' := by
      refine List.eq_replicate_iff.2 ⟨rfl, fun c hc => ?_⟩
      rcases hmem' c hc with hc | rfl
      · rw [hds, hc0] at hc
        rcases List.mem_append.1 hc with hc | hc
        · simpa [digitsOf] using hc
        · exact List.eq_of_mem_replicate hc
      · rfl
    rw [hzeros, List.length_replicate, List.take_replicate, if_pos hc0, hc0, zero_mul, Nat.zero_div,
      show digitsOf 0 = ['0'] from rfl, zeros, ← List.replicate_succ']
    congr 1
    omega
  · rw [← digitsOf_mul_ten_pow hc0] at hds
    rw [hds] at hds'
    rw [if_neg hc0, zeros, List.replicate_zero, List.nil_append]
    exact take_pad_digitsOf hds'

/-- The fixed form of a value whose last digit stands at or above the place `10 ^ -places`: the
digits of its coefficient, padded with zeros on the right down to that place and on the left to
one digit before the point, with the point before the last `places` of them, are a fixed numeral
of the value. Its digits before the point are those of the integer part, behind the zeros that pad
a zero with a positive exponent. -/
lemma fixed_text {v : Decimal} {places : ℕ} (hv : -(places : ℤ) ≤ v.exponent) {ds ds' : List Char}
    (hds : ds = digitsOf v.coefficient ++ zeros (v.exponent + places).toNat)
    (hds' : ds' = if ds.length ≤ places then zeros (places + 1 - ds.length) ++ ds else ds)
    {fail : Overflow → Prop} :
    Checked.Holds fail (fun s => ∃ n : Numeral, s.toList = n.text ∧
        n.FixedOf places (if v.coefficient = 0 then v.exponent.toNat else 0) v.val)
      (if places = 0 then pure (v.signText ++ String.ofList ds')
        else pure (v.signText ++ String.ofList (ds'.take (ds'.length - places)) ++ "." ++
          String.ofList (ds'.drop (ds'.length - places)))) := by
  set k := (v.exponent + places).toNat with hk
  have hz : digitValue (zeros k) = 0 := by
    simpa using digitValue_zeros_append k []
  have hdsv : digitValue ds = v.coefficient * 10 ^ k := by
    rw [hds, digitValue_append, digitValue_digitsOf, hz, add_zero, zeros, List.length_replicate]
  obtain ⟨hlen', hval', hmem'⟩ := pad_spec hds'
  set cut := ds'.length - places with hcut
  set n : Numeral :=
    ⟨v.signMark, ds'.take cut, if places = 0 then none else some (ds'.drop cut), none⟩ with hn
  have hfixed : n.FixedOf places (if v.coefficient = 0 then v.exponent.toNat else 0) v.val := by
    refine ⟨signMark_eq_ite v, ?_, ⟨ds'.drop cut, rfl, by simp only [List.length_drop]; omega,
      fun c hc => ?_⟩, rfl, ?_⟩
    · exact fixed_integer hv hds hds' hlen' hmem'
    · -- the padding adds only zeros to digits
      rcases hmem' c (List.mem_of_mem_drop hc) with hc | rfl
      · rcases List.mem_append.1 (hds ▸ hc) with hc | hc
        · exact isDigit_of_mem_digitsOf hc
        · rw [List.eq_of_mem_replicate hc]
          rfl
      · rfl
    · -- all padded digits, with the last of them at the place `10 ^ -places`
      have hdigits : (ds'.take cut ++ (if places = 0 then none else some (ds'.drop cut)).getD []) =
          ds' := by
        by_cases hp0 : places = 0
        · simp [hp0, hcut]
        · simp [hp0]
      have hfrac : ((if places = 0 then none else some (ds'.drop cut)).getD []).length = places := by
        by_cases hp0 : places = 0
        · simp [hp0]
        · simp only [hp0, if_false, Option.getD_some, List.length_drop]
          omega
      simp only [n, Numeral.value, Numeral.digits, Numeral.fractionDigits, Numeral.scale,
        Numeral.exponentValue, Option.map_none, Option.getD_none, hdigits, hfrac, hval', hdsv]
      rw [val_eq_signMark, Numeral.apply_cast, Numeral.apply_cast]
      push_cast
      rw [mul_assoc, mul_assoc, ← zpow_natCast, ← zpow_add₀ (by norm_num),
        show (k : ℤ) + (0 - places) = v.exponent by omega, mul_assoc]
  by_cases hp0 : places = 0
  · rw [if_pos hp0, Checked.pure_eq, Checked.holds_ok]
    exact ⟨n, by simp [n, hp0, hcut, Numeral.text, Numeral.mantissa, Numeral.pointText,
      signText_toList], hfixed⟩
  · rw [if_neg hp0, Checked.pure_eq, Checked.holds_ok]
    exact ⟨n, by simp [n, hp0, Numeral.text, Numeral.mantissa, Numeral.pointText,
      signText_toList], hfixed⟩

/-! ## Rounding to places -/

lemma roundPlaces_eq_zpow (places : ℕ) (q : ℚ) :
    roundPlaces places q = roundHalfEven (q / 10 ^ (-(places : ℤ))) * 10 ^ (-(places : ℤ)) := by
  rw [roundPlaces, zpow_neg, zpow_natCast, div_inv_eq_mul, ← div_eq_mul_inv]

/-- A decimal whose last digit stands at or above the place `10 ^ -places` is kept by rounding to
`places` places. -/
lemma roundPlaces_val_of_le {x : Decimal} {places : ℕ} (h : -(places : ℤ) ≤ x.exponent) :
    roundPlaces places x.val = x.val := by
  -- the value is a whole number of units of `10 ^ -places`
  obtain ⟨k, hk⟩ : ∃ k : ℕ, x.exponent + places = k := ⟨_, (Int.toNat_of_nonneg (by omega)).symm⟩
  have hint : x.val * 10 ^ places =
      (((if x.negative then -1 else 1) * (x.coefficient * 10 ^ k : ℕ) : ℤ) : ℚ) := by
    rw [val, mul_assoc, ← zpow_natCast (10 : ℚ) places, ← zpow_add₀ (by norm_num), hk, zpow_natCast]
    push_cast
    ring
  rw [roundPlaces, hint, roundHalfEven_intCast, ← hint, mul_div_cancel_right₀ _ (by positivity)]

/-- Rounding to places moves a rational by at most half a unit of the last place, so at most
`1 / 2`. -/
lemma abs_roundPlaces_sub_le (places : ℕ) (q : ℚ) : |roundPlaces places q - q| ≤ 1 / 2 := by
  have hpos : (0 : ℚ) < 10 ^ places := by positivity
  have hone : (1 : ℚ) ≤ 10 ^ places := one_le_pow₀ (by norm_num)
  have hhalf := abs_roundHalfEven_sub_le_half (q * 10 ^ places)
  have hdiff : roundPlaces places q - q =
      ((roundHalfEven (q * 10 ^ places) : ℚ) - q * 10 ^ places) / 10 ^ places := by
    rw [roundPlaces]
    field_simp
  rw [hdiff, abs_div, abs_of_pos hpos, div_le_iff₀ hpos]
  nlinarith

/-! ## Quantizing -/

/-- A decimal whose last digit stands at or above the place is kept. -/
lemma quantize_of_le {x : Decimal} {place : ℤ} (h : place ≤ x.exponent) :
    x.quantize place = .ok x := by
  simp [quantize, h]

/-- A coefficient below a tenth of `10 ^ k` is below half of it: its half-even quotient by
`10 ^ k` is zero. -/
lemma roundedQuotient_eq_zero {c k : ℕ} (hk : 0 < k) (hc : c < 10 ^ (k - 1)) :
    roundedQuotient c k = 0 := by
  have hpow : 10 ^ k = 10 * 10 ^ (k - 1) := by
    rw [← pow_succ']
    congr 1
    omega
  have hlt : c < 10 ^ k := by omega
  unfold roundedQuotient
  rw [Nat.mod_eq_of_lt hlt, Nat.div_eq_of_lt hlt]
  split_ifs <;> omega

/-- Quantizing at a place above the last digit keeps the half-even quotient of the coefficient by
the digits dropped, with its last digit at the place and the sign flag of `x` unless it is zero;
past the digits of the coefficient, and past a 32-bit shift, that quotient is zero. -/
lemma quantize_of_lt {x : Decimal} (hx : x.Narrow) {place : ℤ} (hlt : x.exponent < place)
    (hplace : Word64.Fits place) (hsub : Word64.Fits (place - x.exponent)) :
    x.quantize place =
      .ok ⟨x.negative && roundedQuotient x.coefficient (place - x.exponent).toNat != 0,
        roundedQuotient x.coefficient (place - x.exponent).toNat, place⟩ := by
  have hcount := hx.digitCount_le
  have hdigits := lt_ten_pow_digitCount hx.lt_ten_pow
  unfold workingDigits at hcount
  -- dropping more digits than the coefficient has leaves a zero
  have hzero : digitCount x.coefficient < (place - x.exponent).toNat →
      roundedQuotient x.coefficient (place - x.exponent).toNat = 0 := fun h =>
    roundedQuotient_eq_zero (by omega)
      (hdigits.trans_le (Nat.pow_le_pow_right (by norm_num) (by omega)))
  unfold quantize
  rw [if_neg (by omega), Word64.sub_of_fits hsub, Checked.ok_bind]
  split_ifs with hsmall
  · by_cases hdrop : (place - x.exponent).toNat ≤ digitCount x.coefficient
    · rw [dropDigits_eq (by omega) hdrop (by unfold greatestTenPower; omega) hx.lt_ten_pow
        (by rwa [Int.toNat_of_nonneg (by omega), add_sub_cancel])]
      congr
      omega
    · rw [hzero (by omega)]
      unfold dropDigits
      rw [if_neg (by omega), Word64.add_of_fits (by rwa [Int.toNat_of_nonneg (by omega),
        add_sub_cancel]), Checked.ok_bind, if_pos (by omega)]
      simp only [Int.toNat_of_nonneg (by omega : 0 ≤ place - x.exponent), add_sub_cancel,
        bne_self_eq_false, Bool.and_false]
      rfl
  · rw [hzero (by omega), bne_self_eq_false, Bool.and_false]
    rfl

/-- The value of a quantized decimal is its value rounded half-even at the place. -/
lemma val_quantized {x : Decimal} {place : ℤ} (hlt : x.exponent < place) :
    (⟨x.negative && roundedQuotient x.coefficient (place - x.exponent).toNat != 0,
        roundedQuotient x.coefficient (place - x.exponent).toNat, place⟩ : Decimal).val =
      roundHalfEven (x.val / 10 ^ place) * 10 ^ place := by
  set k := (place - x.exponent).toNat with hk
  have hkpos : 0 < k := by omega
  have hdiv : x.val / 10 ^ place =
      (if x.negative then -1 else 1) * ((x.coefficient : ℚ) / 10 ^ k) := by
    rw [val, show place = x.exponent + (k : ℤ) by omega, zpow_add₀ (by norm_num), zpow_natCast]
    field_simp
  rw [hdiv]
  cases x.negative
  · simp [val, roundHalfEven_natCast_div _ hkpos]
  · by_cases hq : roundedQuotient x.coefficient k = 0
    · simp [val, hq, roundHalfEven_neg, roundHalfEven_natCast_div _ hkpos]
    · simp [val, hq, roundHalfEven_neg, roundHalfEven_natCast_div _ hkpos]

/-- The value rounded to places is the value of a decimal of the working width: the decimal
itself, or its half-even quotient by one or more dropped digits. -/
lemma exists_narrow_roundPlaces {x : Decimal} (hx : x.Narrow) (places : ℕ) :
    ∃ v : Decimal, v.Narrow ∧ v.val = roundPlaces places x.val := by
  by_cases hle : -(places : ℤ) ≤ x.exponent
  · exact ⟨x, hx, (roundPlaces_val_of_le hle).symm⟩
  · rw [not_le] at hle
    refine ⟨_, ?_, by rw [val_quantized hle, roundPlaces_eq_zpow]⟩
    set k := (-(places : ℤ) - x.exponent).toNat
    have hpow : 10 ≤ 10 ^ k := Nat.le_self_pow (by omega) 10
    have hdiv : x.coefficient / 10 ^ k ≤ x.coefficient / 10 := Nat.div_le_div_left hpow (by norm_num)
    have htenth : x.coefficient / 10 < 10 ^ 69 :=
      (Nat.div_lt_iff_lt_mul (by norm_num)).2 (by rw [← pow_succ]; exact hx)
    have htop : (10 : ℕ) ^ 69 < 10 ^ workingDigits := Nat.pow_lt_pow_right (by norm_num) (by decide)
    exact ((roundedQuotient_le _ _).trans (Nat.add_le_add_right hdiv 1)).trans_lt
      ((Nat.succ_le_of_lt htenth).trans_lt htop)

/-- Quantizing at the place `10 ^ -places`, for a 32-bit count of places, keeps a decimal whose last
digit stands at or above the place and rounds any other to the place; it fails only when the least
exponent is quantized with no places, a difference just past the 64-bit range. -/
lemma quantize_holds {x : Decimal} (hx : x.Narrow) (he : Word64.Fits x.exponent) {places : ℕ}
    (hp : places ≤ Word32.greatest) :
    Checked.Holds (fun e => e = .sub ∧ x.exponent = Word64.least ∧ places = 0)
      (fun v => -(places : ℤ) ≤ v.exponent ∧ v.val = roundPlaces places x.val ∧
        (v = x ∨ x.exponent < -places ∧ v.exponent = -places))
      (x.quantize (-places)) := by
  unfold Word32.greatest at hp
  by_cases hle : -(places : ℤ) ≤ x.exponent
  · rw [quantize_of_le hle, Checked.holds_ok]
    exact ⟨hle, (roundPlaces_val_of_le hle).symm, .inl rfl⟩
  · rw [not_le] at hle
    have hplace : Word64.Fits (-(places : ℤ)) := by
      unfold Word64.Fits Word64.least Word64.greatest
      omega
    by_cases hs : Word64.Fits (-(places : ℤ) - x.exponent)
    · rw [quantize_of_lt hx hle hplace hs, Checked.holds_ok]
      exact ⟨le_rfl, by rw [val_quantized hle, roundPlaces_eq_zpow], .inr ⟨hle, rfl⟩⟩
    · -- the difference leaves the range only from the least exponent, and only with no places
      have hleast : x.exponent = Word64.least ∧ places = 0 := by
        simp only [Word64.Fits, Word64.least, Word64.greatest] at hs he ⊢
        omega
      rw [quantize, if_neg (not_le.2 hle), Word64.sub, if_neg hs]
      exact (Checked.holds_error _).2 ⟨rfl, hleast⟩

/-! ## The fixed form -/

/-- The test that sends a value with its leading digit past `10 ^ 100` to the scientific form
passes a zero, and a decimal with its leading digit at most there, on to the fixed form. -/
lemma holds_lead_check {x : Decimal} (hx : x.Narrow) (he : Word64.Fits x.exponent)
    (hlead : x.coefficient = 0 ∨ x.exponent + digitCount x.coefficient - 1 ≤ 100) {places : ℕ}
    {fail : Overflow → Prop} {p : String → Prop} {body : Checked String}
    (h : Checked.Holds fail p body) :
    Checked.Holds fail p (if (!x.isZero) = true then do
      let lead ← x.adjusted
      if lead > 100 then x.toScientific places else body else body) := by
  by_cases h0 : x.coefficient = 0
  · rw [if_neg (by simp [isZero, h0])]
    exact h
  · have hle := hlead.resolve_left h0
    have htop : ¬ x.LeadOverflows := by
      unfold LeadOverflows Word64.greatest
      omega
    rw [if_pos (by simp [isZero, h0]), adjusted_eq_of_not_leadOverflows h0 hx.lt_ten_pow he htop,
      Checked.ok_bind, if_neg (not_lt.2 hle)]
    exact h

/-- The fixed form of a zero, or of a decimal with its leading digit at most at `10 ^ 100`, with a
32-bit count of places: the text is a fixed numeral of the value rounded half-even to `places`
places, unless the least exponent is written with no places or a zero is padded past the greatest
exponent. -/
theorem toFixed_spec {x : Decimal} (hx : x.Narrow) (he : Word64.Fits x.exponent)
    (hlead : x.coefficient = 0 ∨ x.exponent + digitCount x.coefficient - 1 ≤ 100) {places : ℕ}
    (hp : places ≤ Word32.greatest) :
    Checked.Holds (fun e => e = .sub ∧ x.exponent = Word64.least ∧ places = 0 ∨
        e = .add ∧ x.coefficient = 0 ∧ Word64.greatest < x.exponent + places)
      (fun s => ∃ n : Numeral, s.toList = n.text ∧ n.FixedOf places
        (if x.coefficient = 0 then x.exponent.toNat else 0) (roundPlaces places x.val))
      (x.toFixed places) := by
  unfold toFixed
  dsimp only
  refine holds_lead_check hx he hlead ?_
  refine ((quantize_holds hx he hp).mono (fun _ h => .inl h) fun _ h => h).bind ?_
  rintro v ⟨hv, hval, hvx⟩
  -- the zeros before the integer part are those that pad a zero of positive exponent
  have hzeros : (if v.coefficient = 0 then v.exponent.toNat else 0) =
      (if x.coefficient = 0 then x.exponent.toNat else 0) := by
    rcases hvx with rfl | ⟨hlt, hve⟩
    · rfl
    · split_ifs <;> omega
  have hpost : ∀ s : String, (∃ n : Numeral, s.toList = n.text ∧
      n.FixedOf places (if v.coefficient = 0 then v.exponent.toNat else 0) v.val) →
      ∃ n : Numeral, s.toList = n.text ∧ n.FixedOf places
        (if x.coefficient = 0 then x.exponent.toNat else 0) (roundPlaces places x.val) := by
    rw [hzeros, hval]
    exact fun _ h => h
  by_cases hgt : v.exponent > -places
  · -- padded on the right down to the place: only a zero can take the sum past the range
    rw [if_pos hgt]
    have hvx : v = x := hvx.resolve_right fun h => by omega
    subst hvx
    by_cases hfit : Word64.Fits (v.exponent + places)
    · rw [Word64.add_of_fits hfit, Checked.ok_bind, Checked.pure_eq, Checked.ok_bind]
      exact (fixed_text hv rfl rfl).mono (fun _ h => h) hpost
    · have h0 : v.coefficient = 0 := by
        by_contra h0
        have := digitCount_pos h0 hx.lt_ten_pow
        have := hlead.resolve_left h0
        simp only [Word64.Fits, Word64.least, Word64.greatest, Word32.greatest] at hfit hp
        omega
      rw [Word64.add, if_neg hfit]
      refine (Checked.holds_error _).2 (.inr ⟨rfl, h0, ?_⟩)
      simp only [Word64.Fits, Word64.least, Word64.greatest] at hfit ⊢
      omega
  · -- already at the place
    rw [if_neg hgt, Checked.pure_eq, Checked.ok_bind]
    refine (fixed_text hv ?_ rfl).mono (fun _ h => h) hpost
    rw [show (v.exponent + places).toNat = 0 by omega, zeros, List.replicate_zero, List.append_nil]

/-- A decimal with its leading digit past `10 ^ 100` is written in the scientific form. -/
lemma toFixed_of_lead_gt {x : Decimal} (hx : x.Narrow) (he : Word64.Fits x.exponent)
    (h0 : x.coefficient ≠ 0) (htop : ¬ x.LeadOverflows)
    (hgt : 100 < x.exponent + digitCount x.coefficient - 1) (places : ℕ) :
    x.toFixed places = x.toScientific places := by
  unfold toFixed
  dsimp only
  rw [if_pos (by simp [isZero, h0]), adjusted_eq_of_not_leadOverflows h0 hx.lt_ten_pow he htop,
    Checked.ok_bind, if_pos hgt]

/-- The two failures of the fixed form: the least exponent written with no places, one past the
64-bit range from the place `10 ^ 0`, and a zero padded past the greatest exponent. -/
theorem toFixed_eq_error {x : Decimal} (hx : x.Narrow) :
    (x.exponent = Word64.least → x.toFixed 0 = .error .sub) ∧
    (x.coefficient = 0 → ∀ places : ℕ, Word64.greatest < x.exponent + places →
      x.toFixed places = .error .add) := by
  constructor
  · intro hl
    have hcount := digitCount_le_of_lt hx.lt_ten_pow
    have he : Word64.Fits x.exponent := by
      rw [hl]
      decide
    have hlead : x.coefficient = 0 ∨ x.exponent + digitCount x.coefficient - 1 ≤ 100 := by
      right
      rw [hl, Word64.least]
      omega
    -- the lead check passes the decimal on, and its quantizing fails
    have h : Checked.Holds (· = .sub) (fun _ => False) (x.toFixed 0) := by
      unfold toFixed
      dsimp only
      refine holds_lead_check hx he hlead ?_
      rw [quantize, if_neg (by rw [hl]; decide), Word64.sub, if_neg (by rw [hl]; decide)]
      exact (Checked.holds_error _).2 rfl
    exact h.eq_error_or.resolve_right fun ⟨_, _, h⟩ => h
  · intro h0 places hgt
    unfold Word64.greatest at hgt
    unfold toFixed
    dsimp only
    rw [if_neg (by simp [isZero, h0]), quantize_of_le (by omega), Checked.ok_bind, if_pos (by omega),
      Word64.add, if_neg fun h => by unfold Word64.Fits Word64.greatest at h; omega]
    rfl

example : (⟨false, 10, -9223372036854775808⟩ : Decimal).toFixed 0 = .error .sub := by
  decide +kernel

/-- The fixed form of a zero, or of a decimal with its leading digit at most at `10 ^ 100`, with a
32-bit count of places: the text is a minus exactly for a negative rounded value, the digits of the
integer part of the value rounded half-even to `places` places, behind the zeros that pad a zero
of positive exponent, and a point and `places` digits when there are any, and it denotes that
rounded value. It fails exactly when the least exponent is written with no places, or a zero is
padded past the greatest exponent. -/
theorem toFixed_rounds_to_places {x : Decimal} (hx : x.Narrow) (he : Word64.Fits x.exponent)
    (hlead : x.coefficient = 0 ∨ x.exponent + digitCount x.coefficient - 1 ≤ 100) {places : ℕ}
    (hp : places ≤ Word32.greatest) :
    Checked.Holds (fun e => e = .sub ∧ x.exponent = Word64.least ∧ places = 0 ∨
        e = .add ∧ x.coefficient = 0 ∧ Word64.greatest < x.exponent + places)
      (fun s => ∃ n : Numeral, s.toList = n.text ∧ n.FixedOf places
        (if x.coefficient = 0 then x.exponent.toNat else 0) (roundPlaces places x.val))
      (x.toFixed places) ∧
    (x.exponent = Word64.least ∧ places = 0 → x.toFixed places = .error .sub) ∧
    (x.coefficient = 0 ∧ Word64.greatest < x.exponent + places →
      x.toFixed places = .error .add) := by
  refine ⟨toFixed_spec hx he hlead hp, ?_, fun ⟨h0, hgt⟩ => (toFixed_eq_error hx).2 h0 places hgt⟩
  rintro ⟨hl, rfl⟩
  exact (toFixed_eq_error hx).1 hl

/-- `-0.5` with no places rounds half-even to zero, written `0` without a minus. -/
theorem toFixed_rounds_to_places_half :
    (⟨true, 5, -1⟩ : Decimal).Narrow ∧ Word64.Fits (⟨true, 5, -1⟩ : Decimal).exponent ∧
    ((⟨true, 5, -1⟩ : Decimal).coefficient = 0 ∨ (⟨true, 5, -1⟩ : Decimal).exponent +
      digitCount (⟨true, 5, -1⟩ : Decimal).coefficient - 1 ≤ 100) ∧ 0 ≤ Word32.greatest ∧
    Checked.Holds (fun e => e = .sub ∧ (⟨true, 5, -1⟩ : Decimal).exponent = Word64.least ∧ 0 = 0 ∨
        e = .add ∧ (⟨true, 5, -1⟩ : Decimal).coefficient = 0 ∧
          Word64.greatest < (⟨true, 5, -1⟩ : Decimal).exponent + (0 : ℕ))
      (fun s => ∃ n : Numeral, s.toList = n.text ∧ n.FixedOf 0
        (if (⟨true, 5, -1⟩ : Decimal).coefficient = 0 then (⟨true, 5, -1⟩ : Decimal).exponent.toNat
          else 0) (roundPlaces 0 (⟨true, 5, -1⟩ : Decimal).val))
      ((⟨true, 5, -1⟩ : Decimal).toFixed 0) ∧
    ((⟨true, 5, -1⟩ : Decimal).exponent = Word64.least ∧ 0 = 0 →
      (⟨true, 5, -1⟩ : Decimal).toFixed 0 = .error .sub) ∧
    ((⟨true, 5, -1⟩ : Decimal).coefficient = 0 ∧
        Word64.greatest < (⟨true, 5, -1⟩ : Decimal).exponent + (0 : ℕ) →
      (⟨true, 5, -1⟩ : Decimal).toFixed 0 = .error .add) :=
  ⟨by decide, by decide, .inr (by decide), Nat.zero_le _,
    toFixed_rounds_to_places (by decide) (by decide) (.inr (by decide)) (Nat.zero_le _)⟩

example : (⟨true, 5, -1⟩ : Decimal).toFixed 0 = .ok "0" := by decide +kernel

/-- A zero with a positive exponent keeps the zeros that pad it on the right before the point:
`0E+1` with no places is written `00`. -/
theorem toFixed_zero_positive_exponent : (⟨false, 0, 1⟩ : Decimal).toFixed 0 = .ok "00" := by
  decide +kernel

end Decimal

end TickGrid
