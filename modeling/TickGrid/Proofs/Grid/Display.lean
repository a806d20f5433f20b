import TickGrid.Grid.Display
import TickGrid.Proofs.Decimal.Fixed
import TickGrid.Proofs.Decimal.Distance

/-!
# Prices written for a reader

`Grid.showPrice` writes zero as `0`, a magnitude below `10 ^ -6` in scientific form with two
places, a magnitude below `1000` with ten places and a larger one with six, and then removes the
trailing zeros and a trailing point (`Grid.stripZeros`). The value documented for the written
price is `Grid.presentedValue`: the price rounded half-even to three significant digits, to ten
places, to six places, or, once its leading digit stands past `10 ^ 100`, where the fixed form
falls back to the scientific one, to seven significant digits.

Removing trailing zeros keeps the value of a numeral with a point and no exponent. It does not
keep the value of the scientific fallback: its text ends with the digits of the exponent, and an
exponent that is a multiple of ten loses its trailing zeros (`1E+110` is written
`1.000000e+11`). `trimTens` is the exponent that remains.

A stripped fixed form is a numeral of the same value (`stripZeros_of_fixed`), and a stripped
scientific form is read with its exponent trimmed (`stripZeros_of_scientific`). With the branch that
`showPrice` takes for a price other than zero (`showPrice_eq`) they give what a reader takes from
the written price (`showPrice_reads_back`).
-/

namespace TickGrid

open Text Decimal

/-! ## Trailing zeros of a number -/

/-- `n` with the zeros at the end of its decimal digits removed; zero stays zero. -/
def trimTens (n : ℕ) : ℕ := if n ≠ 0 ∧ n % 10 = 0 then trimTens (n / 10) else n
termination_by n
decreasing_by omega

lemma trimTens_le (n : ℕ) : trimTens n ≤ n := by
  fun_induction trimTens n with
  | case1 n h ih => omega
  | case2 n h => exact le_rfl

/-- A number other than zero is its trimmed form followed by zeros, and the trimmed form does not
end in a zero. -/
lemma trimTens_spec {n : ℕ} (hn : n ≠ 0) :
    ∃ k, n = trimTens n * 10 ^ k ∧ trimTens n % 10 ≠ 0 := by
  fun_induction trimTens n with
  | case1 n h ih =>
    obtain ⟨k, hk, hmod⟩ := ih (by omega)
    refine ⟨k + 1, ?_, hmod⟩
    rw [pow_succ, ← mul_assoc, ← hk]
    omega
  | case2 n h => exact ⟨0, by simp, by omega⟩

lemma trimTens_lt {n : ℕ} (hn : n ≠ 0) (h10 : n % 10 = 0) : trimTens n < n := by
  rw [trimTens, if_pos ⟨hn, h10⟩]
  exact (trimTens_le _).trans_lt (by omega)

lemma trimTens_of_mod_ne {n : ℕ} (h : n % 10 ≠ 0) : trimTens n = n := by
  rw [trimTens, if_neg fun h' => h h'.2]

example : trimTens 110 = 11 := by
  rw [trimTens, if_pos (by decide), trimTens_of_mod_ne (by decide)]

/-! ## Removing trailing zeros from a text -/

namespace Grid

/-- The characters that `stripZeros` keeps of a text with a point. -/
lemma stripZeros_toList {s : String} (h : '.' ∈ s.toList) :
    (stripZeros s).toList = ((s.toList.reverse.dropWhile (· = '0')).dropWhile (· = '.')).reverse := by
  rw [stripZeros, if_pos (List.contains_iff_mem.2 h), String.toList_ofList]

lemma dropWhile_zeros_append (k : ℕ) (l : List Char) :
    (zeros k ++ l).dropWhile (· = '0') = l.dropWhile (· = '0') := by
  induction k with
  | zero => rfl
  | succ k ih => simp [zeros, List.replicate_succ]

/-- Zeros after a last character that is neither a zero nor a point are removed, and nothing
else. -/
lemma strip_append_zeros' {l : List Char} {c : Char} (hc₀ : c ≠ '0') (hc : c ≠ '.') (k : ℕ) :
    (((l ++ [c] ++ zeros k).reverse.dropWhile (· = '0')).dropWhile (· = '.')).reverse =
      l ++ [c] := by
  rw [List.reverse_append, zeros, List.reverse_replicate, ← zeros, dropWhile_zeros_append]
  simp [hc₀, hc]

/-- Zeros after a point are removed with the point. -/
lemma strip_point_zeros {l : List Char} (hl : ∀ c ∈ l.getLast?, c ≠ '.') (k : ℕ) :
    (((l ++ '.' :: zeros k).reverse.dropWhile (· = '0')).dropWhile (· = '.')).reverse = l := by
  rw [List.reverse_append, List.reverse_cons, zeros, List.reverse_replicate, ← zeros,
    List.append_assoc, dropWhile_zeros_append]
  rcases List.eq_nil_or_concat l with rfl | ⟨L, c, rfl⟩
  · simp
  · have hc : c ≠ '.' := hl c (by simp)
    simp [hc]

/-- A list of characters is its part before its trailing zeros, followed by them. -/
lemma eq_trim_append_zeros (f : List Char) :
    ∃ k, f = (f.reverse.dropWhile (· = '0')).reverse ++ zeros k := by
  refine ⟨(f.reverse.takeWhile (· = '0')).length, ?_⟩
  have hz : f.reverse.takeWhile (· = '0') = zeros (f.reverse.takeWhile (· = '0')).length :=
    List.eq_replicate_iff.2 ⟨rfl, fun c hc => by simpa using List.mem_takeWhile_imp hc⟩
  have hrev : f.reverse = zeros (f.reverse.takeWhile (· = '0')).length ++
      f.reverse.dropWhile (· = '0') := by
    rw [← hz, List.takeWhile_append_dropWhile]
  conv_lhs => rw [← List.reverse_reverse f, hrev]
  rw [List.reverse_append, zeros, List.reverse_replicate]

/-- The part before the trailing zeros ends in a character other than a zero. -/
lemma trim_eq_concat {f m : List Char} {c : Char}
    (h : (f.reverse.dropWhile (· = '0')).reverse = m ++ [c]) : c ≠ '0' := by
  have hhead := List.head?_dropWhile_not (· = '0') f.reverse
  rw [← List.reverse_reverse (f.reverse.dropWhile _), h] at hhead
  simpa using hhead

/-- Appending zeros to the digits multiplies their value by a power of ten. -/
lemma digitValue_append_zeros (l : List Char) (k : ℕ) :
    digitValue (l ++ zeros k) = digitValue l * 10 ^ k := by
  have hz := digitValue_zeros_append k []
  rw [List.append_nil, digitValue_nil] at hz
  rw [digitValue_append, hz, add_zero, zeros, List.length_replicate]

/-- The fixed form with its trailing zeros, and its point when no digit is left after it, removed:
a valid numeral of the same value, with no more digits. -/
lemma stripZeros_of_fixed {places lead : ℕ} {q : ℚ} {n : Numeral} (hn : n.FixedOf places lead q)
    (hp : 0 < places) {s : String} (hs : s.toList = n.text) :
    ∃ n' : Numeral, (stripZeros s).toList = n'.text ∧ n'.Valid ∧ n'.value = q ∧
      n'.digits.length ≤ n.digits.length := by
  obtain ⟨f, hf, hflen, hfdig⟩ := hn.fraction
  rw [if_neg hp.ne'] at hf
  have hint : IsDigits n.integer := by
    rw [hn.integer_eq]
    refine ⟨by simp [digitsOf_ne_nil], fun c hc => ?_⟩
    rcases List.mem_append.1 hc with hc | hc
    · rw [List.eq_of_mem_replicate hc]
      rfl
    · exact isDigit_of_mem_digitsOf hc
  have htext : n.text = n.sign.text ++ n.integer ++ '.' :: f := by
    simp [Numeral.text, Numeral.mantissa, Numeral.pointText, hf, hn.exponent_eq]
  obtain ⟨k, hsplit⟩ := eq_trim_append_zeros f
  set F := (f.reverse.dropWhile (· = '0')).reverse with hF
  have hFdig : ∀ c ∈ F, c.isDigit = true := fun c hc => hfdig c (by
    rw [hsplit]
    exact List.mem_append_left _ hc)
  set n' : Numeral := ⟨n.sign, n.integer, if F = [] then none else some F, none⟩ with hn'
  have hdigits : n'.digits = n.integer ++ F := by
    by_cases h : F = [] <;> simp [n', Numeral.digits, Numeral.fractionDigits, h]
  -- the zeros removed shift the digits by as many places as they stood after the point
  have hvalue : n'.value = q := by
    have hscale : n'.scale = -(F.length : ℤ) := by
      by_cases h : F = [] <;> simp [n', Numeral.scale, Numeral.exponentValue, Numeral.fractionDigits, h]
    have hpow : (10 : ℚ) ^ k * 10 ^ ((0 : ℤ) - ((F ++ zeros k).length : ℤ)) =
        10 ^ (-(F.length : ℤ)) := by
      rw [← zpow_natCast, ← zpow_add₀ (by norm_num)]
      congr 1
      simp only [List.length_append, zeros, List.length_replicate]
      push_cast
      ring
    rw [← hn.value_eq, Numeral.value, Numeral.value, hdigits, hscale]
    simp only [Numeral.digits, Numeral.fractionDigits, Numeral.scale, Numeral.exponentValue,
      hn.exponent_eq, hf, Option.getD_some, Option.map_none, Option.getD_none, n']
    rw [hsplit, ← List.append_assoc, digitValue_append_zeros, Numeral.apply_cast,
      Numeral.apply_cast]
    push_cast
    rw [← hpow]
    ring
  have hpoint : '.' ∈ s.toList := by
    rw [hs, htext]
    simp
  refine ⟨n', ?_, ⟨?_, by simp [n']⟩, hvalue, ?_⟩
  · rw [stripZeros_toList hpoint, hs, htext, hsplit]
    rcases List.eq_nil_or_concat F with hnil | ⟨m, c, hc⟩
    · -- only zeros after the point: the point goes too
      rw [hnil, List.nil_append, strip_point_zeros]
      · simp [n', hnil, Numeral.text, Numeral.mantissa, Numeral.pointText]
      · intro c hc
        obtain rfl : c = n.integer.getLast hint.1 := by
          simpa [List.getLast?_append, List.getLast?_eq_some_getLast hint.1] using hc.symm
        exact (ne_of_isDigit (hint.2 _ (List.getLast_mem _))).2.2.1
    · -- the last digit kept is not a zero
      rw [List.concat_eq_append] at hc
      have hc0 : c ≠ '0' := trim_eq_concat (f := f) (by rw [← hF, hc])
      have hcdig : c.isDigit = true := hFdig c (by rw [hc]; simp)
      have hsplit' : n.sign.text ++ n.integer ++ '.' :: (m ++ [c] ++ zeros k) =
          (n.sign.text ++ n.integer ++ ['.'] ++ m) ++ [c] ++ zeros k := by
        simp
      rw [hc, hsplit', strip_append_zeros' hc0 (ne_of_isDigit hcdig).2.2.1]
      simp [n', Numeral.text, Numeral.mantissa, Numeral.pointText, hc]
  · rw [hdigits]
    refine ⟨by simp [hint.1], fun c hc => ?_⟩
    rcases List.mem_append.1 hc with hc | hc
    · exact hint.2 c hc
    · exact hFdig c hc
  · rw [hdigits, Numeral.digits, Numeral.fractionDigits, hf, Option.getD_some, hsplit]
    simp

/-- The last digit written for `m` is that of `m % 10`. -/
lemma digitsOf_eq_concat (m : ℕ) : ∃ l, digitsOf m = l ++ [Nat.digitChar (m % 10)] := by
  rcases lt_or_ge m 10 with h | h
  · exact ⟨[], by rw [digitsOf_eq, Nat.toDigits_of_lt_base h, Nat.mod_eq_of_lt h]; rfl⟩
  · exact ⟨digitsOf (m / 10), by rw [digitsOf_eq, Nat.toDigits_of_base_le (by norm_num) h,
      ← digitsOf_eq]⟩

lemma digitChar_ne {d : ℕ} (hd : d < 10) (h0 : d ≠ 0) :
    Nat.digitChar d ≠ '0' ∧ Nat.digitChar d ≠ '.' := by
  interval_cases d
  · exact absurd rfl h0
  all_goals decide

/-- The scientific form with a positive exponent and its trailing zeros removed: the zeros that
end the digits of the exponent go, so the exponent read is the trimmed one. -/
lemma stripZeros_of_scientific {places : ℕ} {r : ℚ} {n : Numeral} (hn : n.ScientificOf places r)
    (hp : 0 < places) (hE : 0 < Int.log 10 |r|)
    (htrim : trimTens (Int.log 10 |r|).toNat < 10 ^ 9) {s : String} (hs : s.toList = n.text) :
    ∃ n' : Numeral, (stripZeros s).toList = n'.text ∧ n'.Valid ∧
      n'.value = r * 10 ^ ((trimTens (Int.log 10 |r|).toNat : ℤ) - Int.log 10 |r|) ∧
      n'.digits = n.digits := by
  set E := Int.log 10 |r| with hEdef
  obtain ⟨d, hd, hddig, -⟩ := hn.lead
  obtain ⟨f, hf, -, hfdig⟩ := hn.fraction
  rw [if_neg hp.ne'] at hf
  have hexp := hn.exponent_eq
  rw [if_neg (not_lt.2 hE.le), show E.natAbs = E.toNat by omega] at hexp
  set N := E.toNat with hN
  set t := trimTens N with ht
  obtain ⟨k, hk, hmod⟩ := trimTens_spec (show N ≠ 0 by omega)
  have ht0 : t ≠ 0 := fun h => hmod (by simp [← ht, h])
  have hdigitsE : digitsOf N = digitsOf t ++ zeros k := by
    conv_lhs => rw [hk]
    exact digitsOf_mul_ten_pow ht0 k
  obtain ⟨m, hm⟩ := digitsOf_eq_concat t
  obtain ⟨hc0, hcpt⟩ := digitChar_ne (Nat.mod_lt t (by norm_num)) hmod
  set n' : Numeral := { n with exponent := some ⟨false, .plus, digitsOf t⟩ } with hn'
  have hdigits : n'.digits = n.digits := rfl
  refine ⟨n', ?_, ⟨?_, ?_⟩, ?_, hdigits⟩
  · -- only the zeros that end the exponent's digits go
    have hpoint : '.' ∈ s.toList := by
      rw [hs]
      simp [Numeral.text, Numeral.mantissa, Numeral.pointText, hf]
    have htext : n.text = (n.sign.text ++ ([d] ++ '.' :: f) ++ ['e', '+'] ++ m) ++
        [Nat.digitChar (t % 10)] ++ zeros k := by
      simp [Numeral.text, Numeral.mantissa, Numeral.pointText, hd, hf, hexp, ExponentPart.text,
        ExponentPart.mark, SignMark.text, hdigitsE, hm]
    rw [stripZeros_toList hpoint, hs, htext, strip_append_zeros' hc0 hcpt]
    simp [n', Numeral.text, Numeral.mantissa, Numeral.pointText, hd, hf, ExponentPart.text,
      ExponentPart.mark, SignMark.text, hm]
  · rw [hdigits]
    refine ⟨by simp [Numeral.digits, hd], fun c hc => ?_⟩
    simp only [Numeral.digits, Numeral.fractionDigits, hd, hf, Option.getD_some,
      List.singleton_append, List.mem_cons] at hc
    rcases hc with rfl | hc
    · exact hddig
    · exact hfdig c hc
  · intro x hx
    simp only [n', Option.mem_def, Option.some.injEq] at hx
    subst hx
    exact ⟨⟨digitsOf_ne_nil t, fun c hc => isDigit_of_mem_digitsOf hc⟩,
      by rw [digitValue_digitsOf]; exact htrim⟩
  · -- the exponent read is the trimmed one, the mantissa is unchanged
    have hscale : n'.scale = n.scale + ((t : ℤ) - E) := by
      simp [Numeral.scale, Numeral.exponentValue, n', hexp, ExponentPart.value,
        digitValue_digitsOf, SignMark.apply, Numeral.fractionDigits]
      omega
    rw [← hn.value_eq, Numeral.value, Numeral.value, hdigits, hscale, zpow_add₀ (by norm_num),
      ← mul_assoc]

/-! ## Reading the written price -/

/-- A valid numeral whose value is that of a decimal of the working width is read as that value:
the rounding of the reader keeps it. -/
lemma read_of_narrow {n : Numeral} (hn : n.Valid) (hlen : n.digits.length < 2 ^ 62) {s : String}
    (hs : s.toList = n.text) {v : Decimal} (hv : v.Narrow) (hval : v.val = n.value) :
    ∃ y, (read s).run = .ok (.ok y) ∧ y.val = n.value := by
  obtain ⟨d, hd, hdval, -, -⟩ := Numeral.value_literal hn hlen
  refine ⟨d, by rw [Numeral.read_run_of_toList hn hs, hd]; rfl, ?_⟩
  rw [hdval, ← hval, roundSignificant_val_of_digitCount_le hv.lt_ten_pow hv.digitCount_le]

/-! ## The branches of the written form -/

/-- A price other than zero is compared with `10 ^ -6` and `1000` by value: its leading digit,
at most `999999999` places from the point, keeps the comparison in the 64-bit range. -/
lemma abs_cmp_eq {p t : Decimal} (hp : p.Narrow) (h0 : p.coefficient ≠ 0)
    (hlead : |p.exponent + digitCount p.coefficient - 1| ≤ 999999999) (ht : t.Narrow)
    (hte : Word64.Fits t.exponent) (htl : ¬ t.LeadOverflows) :
    p.abs.cmp t = .ok (compare |p.val| t.val) := by
  have hcount := digitCount_pos h0 hp.lt_ten_pow
  have hd := hp.digitCount_le
  unfold workingDigits at hd
  rw [abs_le] at hlead
  have hfit : Word64.Fits p.abs.exponent := by
    simp only [Decimal.abs, Word64.Fits, Word64.least, Word64.greatest]
    omega
  have hno : ¬ p.abs.CmpOverflows t := by
    rintro ⟨-, -, -, hover | hover⟩
    · simp only [LeadOverflows, Decimal.abs, Word64.greatest] at hover
      omega
    · exact htl hover
  rw [cmp_eq_of_fits (a := p.abs) hp ht hfit hte, if_neg hno, val_abs]

/-- The written form of a price other than zero, by the branch its magnitude selects. -/
lemma showPrice_eq {p : Decimal} (hp : p.Narrow) (h0 : p.coefficient ≠ 0)
    (hlead : |p.exponent + digitCount p.coefficient - 1| ≤ 999999999) :
    showPrice p = if |p.val| < 10 ^ (-6 : ℤ) then p.toScientific 2
      else if |p.val| < 1000 then stripZeros <$> p.toFixed 10
      else stripZeros <$> p.toFixed 6 := by
  have hmicro := abs_cmp_eq (t := ⟨false, 1, -6⟩) hp h0 hlead (by decide) (by decide) (by decide)
  have hthousand := abs_cmp_eq (t := ⟨false, 1000, 0⟩) hp h0 hlead (by decide) (by decide)
    (by decide)
  have hv₁ : (⟨false, 1, -6⟩ : Decimal).val = 10 ^ (-6 : ℤ) := by simp [val]
  have hv₂ : (⟨false, 1000, 0⟩ : Decimal).val = 1000 := by simp [val]
  rw [showPrice, if_neg (by simp [isZero, h0]), hmicro, Checked.ok_bind, hthousand]
  simp only [Checked.ok_bind, hv₁, hv₂, beq_iff_eq, compare_lt_iff_lt]
  simp only [bind_pure_comp]

/-! ## What is read in each branch -/

section Branches

variable {p : Decimal} (hp : p.Narrow) (h0 : p.coefficient ≠ 0)
  (hlead : |p.exponent + digitCount p.coefficient - 1| ≤ 999999999)
include hp h0 hlead

/-- The exponent of a price of bounded adjusted exponent fits, with room for its digits. -/
lemma exponent_bounds : Word64.Fits p.exponent ∧ |p.exponent| ≤ 2 ^ 62 ∧ ¬ p.LeadOverflows := by
  have hcount := digitCount_pos h0 hp.lt_ten_pow
  have hd := hp.digitCount_le
  unfold workingDigits at hd
  rw [abs_le] at hlead
  refine ⟨?_, abs_le.2 ⟨by omega, by omega⟩, ?_⟩
  · simp only [Word64.Fits, Word64.least, Word64.greatest]
    omega
  · simp only [LeadOverflows, Word64.greatest]
    omega

/-- Below `10 ^ -6` the price is written with two places in scientific form, and read as its
rounding to three significant digits: the place of the rounding's leading digit lies between the
price's and zero. -/
lemma read_small (hsmall : |p.val| < 10 ^ (-6 : ℤ)) :
    ∃ s y, p.toScientific 2 = .ok s ∧ (read s).run = .ok (.ok y) ∧
      y.val = roundSignificant 3 p.val := by
  obtain ⟨hfit, he, htop⟩ := exponent_bounds hp h0 hlead
  obtain ⟨s, hs⟩ := toScientific_ok hp.lt_ten_pow (by decide : 2 < Word32.greatest) he
  obtain ⟨n, htext, hn⟩ := (toScientific_spec hp.lt_ten_pow 2).1 s hs
  replace hn : n.ScientificOf 2 (roundSignificant 3 p.val) := hn
  have hq : p.val ≠ 0 := fun h => h0 ((val_eq_zero_iff p).1 h)
  have hlog := log_abs_val h0 hp.lt_ten_pow
  have hlo := log_le_log_roundSignificant (D := 3) (by norm_num) hq
  -- the rounding is below one: its leading digit stands below the point
  have hhi : Int.log 10 |roundSignificant 3 p.val| < 0 := by
    have herr := abs_roundSignificant_sub_le (D := 3) (by norm_num) p.val
    have hhalf := halfUnit_le_half 3
    have hr : roundSignificant 3 p.val ≠ 0 := fun h => hq ((roundSignificant_eq_zero_iff (by norm_num)).1 h)
    refine (Int.lt_zpow_iff_log_lt (by norm_num) (abs_pos.2 hr)).1 ?_
    have hsix : |p.val| < 1 / 2 := hsmall.trans (by norm_num)
    have := abs_sub_abs_le_abs_sub (roundSignificant 3 p.val) p.val
    have hprod : halfUnit 3 * |p.val| ≤ 1 / 2 * |p.val| :=
      mul_le_mul_of_nonneg_right hhalf (abs_nonneg _)
    push_cast
    linarith
  rw [abs_le] at hlead
  have hvalid := hn.valid (by omega)
  obtain ⟨v, hv, hvval, hvc⟩ := roundSig_val (D := 3) (by norm_num) hp.lt_ten_pow hfit
    (by simp only [LeadOverflows, not_lt] at htop; exact htop)
  have hvn : v.Narrow := hvc.trans_le (Nat.pow_le_pow_right (by norm_num) (by decide))
  obtain ⟨y, hy, hyv⟩ := read_of_narrow hvalid (by rw [hn.length_digits]; norm_num) htext hvn
    (by rw [hvval, hn.value_eq])
  exact ⟨s, y, hs, hy, by rw [hyv, hn.value_eq]⟩

omit hlead in
/-- Rounding to places keeps the integer part of a price with its leading digit at most at
`10 ^ 100` below `10 ^ 102`, so the fixed form has a modest number of digits. -/
lemma floor_abs_roundPlaces_lt (h100 : p.exponent + digitCount p.coefficient - 1 ≤ 100)
    (places : ℕ) : ⌊|roundPlaces places p.val|⌋₊ < 10 ^ 102 := by
  have hlog := log_abs_val h0 hp.lt_ten_pow
  have hlt : |p.val| < (10 : ℚ) ^ (101 : ℤ) := by
    have := Int.lt_zpow_succ_log_self (b := 10) (by norm_num) |p.val|
    rw [hlog] at this
    calc |p.val| < ((10 : ℕ) : ℚ) ^ (p.exponent + digitCount p.coefficient - 1 + 1) := this
      _ ≤ (10 : ℚ) ^ (101 : ℤ) := by
        rw [Nat.cast_ofNat]
        exact zpow_le_zpow_right₀ (by norm_num) (by omega)
  have herr := abs_roundPlaces_sub_le places p.val
  have hdist := abs_sub_abs_le_abs_sub (roundPlaces places p.val) p.val
  refine (Nat.floor_lt (abs_nonneg _)).2 ?_
  have hround : |roundPlaces places p.val| < (10 : ℚ) ^ (101 : ℤ) + 1 / 2 := by linarith
  exact hround.trans (by norm_num)

/-- Below `1000`, or with the leading digit at most at `10 ^ 100`, the price is written with
`places` places and its trailing zeros removed, and read as its rounding to `places` places. -/
lemma read_fixed {places : ℕ} (hplaces : 0 < places) (hle : places ≤ Word32.greatest)
    (h100 : p.exponent + digitCount p.coefficient - 1 ≤ 100) :
    ∃ s y, stripZeros <$> p.toFixed places = .ok s ∧ (read s).run = .ok (.ok y) ∧
      y.val = roundPlaces places p.val := by
  obtain ⟨hfit, -, -⟩ := exponent_bounds hp h0 hlead
  have hspec := toFixed_spec hp hfit (.inr h100) hle
  simp only [if_neg h0] at hspec
  -- neither failure of the fixed form can happen to a price other than zero with places
  obtain ⟨s, hs⟩ : ∃ s, p.toFixed places = .ok s := by
    cases h : p.toFixed places with
    | error e =>
      rcases hspec.2 e h with ⟨-, -, hzero⟩ | ⟨-, hc, -⟩
      · omega
      · exact absurd hc h0
    | ok s => exact ⟨s, rfl⟩
  obtain ⟨n, htext, hn⟩ := hspec.1 s hs
  obtain ⟨n', hs', hvalid, hval, hlen⟩ := stripZeros_of_fixed hn hplaces htext
  have hsize : n.digits.length < 2 ^ 62 := by
    obtain ⟨f, hf, hflen, -⟩ := hn.fraction
    have hint : (digitsOf ⌊|roundPlaces places p.val|⌋₊).length ≤ 102 := by
      rw [digitsOf_eq]
      exact (Nat.length_toDigits_le_iff (by norm_num) (by norm_num)).2
        (floor_abs_roundPlaces_lt hp h0 h100 places)
    rw [Numeral.digits, hn.integer_eq, Numeral.fractionDigits, hf, if_neg hplaces.ne',
      Option.getD_some, List.length_append, List.length_append, hflen, zeros, List.length_replicate]
    unfold Word32.greatest at hle
    omega
  obtain ⟨v, hv, hvval⟩ := exists_narrow_roundPlaces hp places
  obtain ⟨y, hy, hyv⟩ := read_of_narrow hvalid (hlen.trans_lt hsize) hs' hv (by rw [hvval, hval])
  exact ⟨stripZeros s, y, by rw [hs]; rfl, hy, by rw [hyv, hval]⟩

/-- Past `10 ^ 100` the fixed form falls back to the scientific form with six places, and removing
its trailing zeros trims the exponent: the price is read as its rounding to seven significant
digits with the exponent trimmed of its trailing zeros. -/
lemma read_fallback (hgt : 100 < p.exponent + digitCount p.coefficient - 1) :
    ∃ s y, stripZeros <$> p.toFixed 6 = .ok s ∧ (read s).run = .ok (.ok y) ∧
      y.val = roundSignificant 7 p.val *
        10 ^ ((trimTens (Int.log 10 |roundSignificant 7 p.val|).toNat : ℤ) -
          Int.log 10 |roundSignificant 7 p.val|) := by
  obtain ⟨hfit, he, htop⟩ := exponent_bounds hp h0 hlead
  rw [toFixed_of_lead_gt hp hfit h0 htop hgt]
  obtain ⟨s, hs⟩ := toScientific_ok hp.lt_ten_pow (by decide : 6 < Word32.greatest) he
  obtain ⟨n, htext, hn⟩ := (toScientific_spec hp.lt_ten_pow 6).1 s hs
  replace hn : n.ScientificOf 6 (roundSignificant 7 p.val) := hn
  set E := Int.log 10 |roundSignificant 7 p.val| with hE
  have hq : p.val ≠ 0 := fun h => h0 ((val_eq_zero_iff p).1 h)
  have hlog := log_abs_val h0 hp.lt_ten_pow
  have hlo := log_le_log_roundSignificant (D := 7) (by norm_num) hq
  have hhi := log_roundSignificant_le (D := 7) (by norm_num) hq
  rw [hlog] at hlo hhi
  rw [abs_le] at hlead
  -- the exponent written is positive and at most `10 ^ 9`, whose trimmed form is `1`
  have hpos : 0 < E := by omega
  have htrim : trimTens E.toNat < 10 ^ 9 := by
    rcases lt_or_eq_of_le (show E.toNat ≤ 10 ^ 9 by omega) with hlt | heq
    · exact (trimTens_le _).trans_lt hlt
    · rw [heq]
      exact trimTens_lt (by norm_num) (by norm_num)
  obtain ⟨n', hs', hvalid, hval, hdig⟩ := stripZeros_of_scientific hn (by norm_num) hpos htrim htext
  -- the value read is that of the rounded decimal with its exponent moved
  obtain ⟨v, -, hvval, hvc⟩ := roundSig_val (D := 7) (by norm_num) hp.lt_ten_pow hfit
    (by simp only [LeadOverflows, not_lt] at htop; exact htop)
  set w : Decimal := ⟨v.negative, v.coefficient, v.exponent + ((trimTens E.toNat : ℤ) - E)⟩
  have hw : w.Narrow := hvc.trans_le (Nat.pow_le_pow_right (by norm_num) (by decide))
  have hwval : w.val = roundSignificant 7 p.val * 10 ^ ((trimTens E.toNat : ℤ) - E) := by
    rw [← hvval]
    simp only [w, val]
    rw [zpow_add₀ (by norm_num)]
    ring
  obtain ⟨y, hy, hyv⟩ := read_of_narrow hvalid (by rw [hdig, hn.length_digits]; norm_num) hs' hw
    (by rw [hwval, hval])
  exact ⟨stripZeros s, y, by rw [hs]; rfl, hy, by rw [hyv, hval]⟩

end Branches

/-! ## What a reader takes from the written price -/

/-- The value documented for a written price: zero; below `10 ^ -6` the price rounded half-even
to three significant digits; below `1000` rounded to ten places; from `1000` on rounded to six
places while its leading digit stands at most at `10 ^ 100`, and to seven significant digits
past it. -/
def presentedValue (p : Decimal) : ℚ :=
  if p.coefficient = 0 then 0
  else if |p.val| < 10 ^ (-6 : ℤ) then roundSignificant 3 p.val
  else if |p.val| < 1000 then roundPlaces 10 p.val
  else if p.exponent + digitCount p.coefficient - 1 ≤ 100 then roundPlaces 6 p.val
  else roundSignificant 7 p.val

/-- A magnitude below a power of ten has its leading digit below that place. -/
lemma log_lt_of_abs_lt {q : ℚ} (hq : q ≠ 0) {k : ℤ} (h : |q| < 10 ^ k) : Int.log 10 |q| < k :=
  (Int.lt_zpow_iff_log_lt (by norm_num) (abs_pos.2 hq)).1 (by exact_mod_cast h)

/-- A price of at most `workingDigits` digits, zero or with its leading digit at most `999999999`
places from the point, is always written: no branch of the display overflows. -/
lemma showPrice_ok {p : Decimal} (hp : p.Narrow)
    (hlead : p.coefficient = 0 ∨ |p.exponent + digitCount p.coefficient - 1| ≤ 999999999) :
    ∃ s, showPrice p = .ok s := by
  by_cases h0 : p.coefficient = 0
  · exact ⟨"0", by rw [showPrice, if_pos (by simp [isZero, h0])]; rfl⟩
  have hl := hlead.resolve_left h0
  have hq : p.val ≠ 0 := fun h => h0 ((val_eq_zero_iff p).1 h)
  have hlog := log_abs_val h0 hp.lt_ten_pow
  rw [showPrice_eq hp h0 hl]
  by_cases hsmall : |p.val| < 10 ^ (-6 : ℤ)
  · obtain ⟨s, -, hs, -⟩ := read_small hp h0 hl hsmall
    exact ⟨s, by rw [if_pos hsmall, hs]⟩
  by_cases hmid : |p.val| < 1000
  · have hadj := log_lt_of_abs_lt hq (k := 3) (by norm_num; exact hmid)
    obtain ⟨s, -, hs, -⟩ := read_fixed hp h0 hl (by norm_num : 0 < 10) (by decide) (by omega)
    exact ⟨s, by rw [if_neg hsmall, if_pos hmid, hs]⟩
  by_cases h100 : p.exponent + digitCount p.coefficient - 1 ≤ 100
  · obtain ⟨s, -, hs, -⟩ := read_fixed hp h0 hl (by norm_num : 0 < 6) (by decide) h100
    exact ⟨s, by rw [if_neg hsmall, if_neg hmid, hs]⟩
  · obtain ⟨s, -, hs, -⟩ := read_fallback hp h0 hl (by omega)
    exact ⟨s, by rw [if_neg hsmall, if_neg hmid, hs]⟩

/-- Rounding to seven digits and trimming the zeros of the exponent keeps the value exactly when
the exponent of the rounding does not end in a zero. -/
lemma trimmed_eq_iff {r : ℚ} (hr : r ≠ 0) (hpos : 0 < Int.log 10 |r|) :
    r * 10 ^ ((trimTens (Int.log 10 |r|).toNat : ℤ) - Int.log 10 |r|) = r ↔
      ¬ (10 : ℤ) ∣ Int.log 10 |r| := by
  set E := Int.log 10 |r|
  constructor
  · -- a trimmed exponent is below the exponent, so the power of ten is below one
    intro h hdvd
    have hlt : trimTens E.toNat < E.toNat := trimTens_lt (by omega) (by omega)
    have hpow : (10 : ℚ) ^ ((trimTens E.toNat : ℤ) - E) < 1 :=
      zpow_lt_one_of_neg₀ (by norm_num) (by omega)
    have hone : (10 : ℚ) ^ ((trimTens E.toNat : ℤ) - E) = 1 := by
      rw [← mul_right_inj' hr, mul_one]
      exact h
    exact absurd hone hpow.ne
  · intro hndvd
    rw [trimTens_of_mod_ne (by omega), Int.toNat_of_nonneg hpos.le, sub_self, zpow_zero, mul_one]

/-- Written for a reader and read back, a price of at most `workingDigits` digits, zero or with its
leading digit at most `999999999` places from the point, is read as the documented presentation,
except past `10 ^ 100` when the exponent of the seven-digit rounding ends in a zero: removing the
trailing zeros then trims that exponent, and the value read is the rounding with the trimmed
exponent. -/
theorem showPrice_reads_back {p : Decimal} (hp : p.Narrow)
    (hlead : p.coefficient = 0 ∨ |p.exponent + digitCount p.coefficient - 1| ≤ 999999999) :
    ∃ s y, showPrice p = .ok s ∧ (read s).run = .ok (.ok y) ∧
      (p.coefficient ≠ 0 → 100 < p.exponent + digitCount p.coefficient - 1 →
        y.val = roundSignificant 7 p.val *
          10 ^ ((trimTens (Int.log 10 |roundSignificant 7 p.val|).toNat : ℤ) -
            Int.log 10 |roundSignificant 7 p.val|)) ∧
      (y.val = presentedValue p ↔ ¬ (p.coefficient ≠ 0 ∧
        100 < p.exponent + digitCount p.coefficient - 1 ∧
        (10 : ℤ) ∣ Int.log 10 |roundSignificant 7 p.val|)) := by
  by_cases h0 : p.coefficient = 0
  · -- zero is written `0`
    refine ⟨"0", zero, by rw [showPrice, if_pos (by simp [isZero, h0])]; rfl, by decide,
      fun h => absurd h0 h, ?_⟩
    simp [presentedValue, h0, zero, val]
  have hl := hlead.resolve_left h0
  have hq : p.val ≠ 0 := fun h => h0 ((val_eq_zero_iff p).1 h)
  have hlog := log_abs_val h0 hp.lt_ten_pow
  rw [showPrice_eq hp h0 hl]
  by_cases hsmall : |p.val| < 10 ^ (-6 : ℤ)
  · have hadj := log_lt_of_abs_lt hq hsmall
    obtain ⟨s, y, hs, hy, hyv⟩ := read_small hp h0 hl hsmall
    refine ⟨s, y, by rw [if_pos hsmall, hs], hy, fun _ h => absurd h (by omega), ?_⟩
    rw [presentedValue, if_neg h0, if_pos hsmall, hyv]
    simp only [true_iff]
    omega
  by_cases hmid : |p.val| < 1000
  · have hadj := log_lt_of_abs_lt hq (k := 3) (by norm_num; exact hmid)
    obtain ⟨s, y, hs, hy, hyv⟩ := read_fixed hp h0 hl (by norm_num : 0 < 10) (by decide)
      (by omega)
    refine ⟨s, y, by rw [if_neg hsmall, if_pos hmid, hs], hy, fun _ h => absurd h (by omega), ?_⟩
    rw [presentedValue, if_neg h0, if_neg hsmall, if_pos hmid, hyv]
    simp only [true_iff]
    omega
  by_cases h100 : p.exponent + digitCount p.coefficient - 1 ≤ 100
  · obtain ⟨s, y, hs, hy, hyv⟩ := read_fixed hp h0 hl (by norm_num : 0 < 6) (by decide) h100
    refine ⟨s, y, by rw [if_neg hsmall, if_neg hmid, hs], hy, fun _ h => absurd h (by omega), ?_⟩
    rw [presentedValue, if_neg h0, if_neg hsmall, if_neg hmid, if_pos h100, hyv]
    simp only [true_iff]
    omega
  · -- the scientific fallback, read with the trimmed exponent
    have hgt : 100 < p.exponent + digitCount p.coefficient - 1 := by omega
    obtain ⟨s, y, hs, hy, hyv⟩ := read_fallback hp h0 hl hgt
    have hr : roundSignificant 7 p.val ≠ 0 :=
      fun h => hq ((roundSignificant_eq_zero_iff (by norm_num)).1 h)
    have hpos : 0 < Int.log 10 |roundSignificant 7 p.val| := by
      have := log_le_log_roundSignificant (D := 7) (by norm_num) hq
      omega
    refine ⟨s, y, by rw [if_neg hsmall, if_neg hmid, hs], hy, fun _ _ => hyv, ?_⟩
    rw [presentedValue, if_neg h0, if_neg hsmall, if_neg hmid, if_neg h100, hyv,
      trimmed_eq_iff hr hpos]
    simp only [ne_eq, h0, not_false_eq_true, hgt, true_and]

/-- `1E+110` is read back as `1E+11`. -/
theorem showPrice_reads_back_exponent_ten :
    (⟨false, 1, 110⟩ : Decimal).Narrow ∧
    ((⟨false, 1, 110⟩ : Decimal).coefficient = 0 ∨
      |(⟨false, 1, 110⟩ : Decimal).exponent +
        digitCount (⟨false, 1, 110⟩ : Decimal).coefficient - 1| ≤ 999999999) ∧
    ∃ s y, showPrice ⟨false, 1, 110⟩ = .ok s ∧ (read s).run = .ok (.ok y) ∧
      ((⟨false, 1, 110⟩ : Decimal).coefficient ≠ 0 →
        100 < (⟨false, 1, 110⟩ : Decimal).exponent +
          digitCount (⟨false, 1, 110⟩ : Decimal).coefficient - 1 →
        y.val = roundSignificant 7 (⟨false, 1, 110⟩ : Decimal).val *
          10 ^ ((trimTens (Int.log 10 |roundSignificant 7 (⟨false, 1, 110⟩ : Decimal).val|).toNat :
            ℤ) - Int.log 10 |roundSignificant 7 (⟨false, 1, 110⟩ : Decimal).val|)) ∧
      (y.val = presentedValue ⟨false, 1, 110⟩ ↔ ¬ ((⟨false, 1, 110⟩ : Decimal).coefficient ≠ 0 ∧
        100 < (⟨false, 1, 110⟩ : Decimal).exponent +
          digitCount (⟨false, 1, 110⟩ : Decimal).coefficient - 1 ∧
        (10 : ℤ) ∣ Int.log 10 |roundSignificant 7 (⟨false, 1, 110⟩ : Decimal).val|)) :=
  ⟨by decide, .inr (by decide), showPrice_reads_back (by decide) (.inr (by decide))⟩

example : showPrice ⟨false, 1, 110⟩ = .ok "1.000000e+11" := by decide +kernel

example : showPrice ⟨false, 1250, -4⟩ = .ok "0.125" := by decide +kernel

end Grid

end TickGrid
