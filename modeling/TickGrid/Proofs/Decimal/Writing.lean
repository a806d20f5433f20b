import TickGrid.Proofs.Decimal.Reading
import TickGrid.Decimal.Printer

/-!
# Writing decimals and reading them back

`Decimal.toText` writes a decimal in one of four shapes: the digits alone, the digits with a point
among them, `0.` and zeros before the digits, or the first digit, a point and the other digits if
there are any, and an exponent. `Decimal.numeral` is that choice as a `Numeral`, and
`toText_eq_numeral` says that the text is the numeral's text.

Read back (`read_toText`), the text gives back the decimal: the same sign, digits (trailing zeros
included) and exponent for a decimal that is not zero, the canonical zero for a zero. The exponent
written in scientific form is the place of the leading written digit, `writtenLead`, and the
reader takes at most nine digits of it, so this needs that place to be below `10 ^ 9` in size. A
zero is written with one digit: its written lead is its exponent, one more than its adjusted
exponent, and the zero at exponent `10 ^ 9` is written `0E+1000000000`, which is not read
(`read_toText_zero_out_of_range`).
-/

namespace TickGrid

open Text

namespace Text

lemma isBlank_eq_false_of_isDigit {c : Char} (h : c.isDigit = true) : isBlank c = false := by
  simp only [Char.isDigit, Bool.and_eq_true, decide_eq_true_eq] at h
  obtain ⟨h₁, h₂⟩ := h
  simp only [UInt32.le_iff_toNat_le] at h₁ h₂
  simp only [isBlank, Char.toNat]
  simp at h₁ h₂ ⊢
  omega

lemma dropWhile_isBlank_of_forall {l : List Char} (h : ∀ c ∈ l, isBlank c = false) :
    l.dropWhile isBlank = l := by
  cases l with
  | nil => rfl
  | cons c r => simp [h c (by simp)]

/-- A text without blanks is its own trimming. -/
lemma trimBlank_of_forall {l : List Char} (h : ∀ c ∈ l, isBlank c = false) : trimBlank l = l := by
  unfold trimBlank
  rw [dropWhile_isBlank_of_forall h, dropWhile_isBlank_of_forall (by simpa using h),
    List.reverse_reverse]

end Text

namespace Numeral

/-- A numeral holds signs, digits, a point and exponent marks: no blank. -/
lemma isBlank_of_mem_text {n : Numeral} (hn : n.Valid) : ∀ c ∈ n.text, isBlank c = false := by
  intro c hc
  simp only [text, List.mem_append] at hc
  rcases hc with hs | hm | he
  · cases hsg : n.sign <;> simp [hsg, SignMark.text] at hs <;> subst hs <;> decide
  · rcases mem_mantissa hn hm with h | rfl
    · exact isBlank_eq_false_of_isDigit h
    · decide
  · cases hx : n.exponent with
    | none => simp [hx] at he
    | some x =>
      have hxv := hn.exponent x (by simp [hx])
      simp only [hx, Option.map_some, Option.getD_some, ExponentPart.text, List.mem_cons,
        List.mem_append] at he
      rcases he with rfl | hs | hd
      · unfold ExponentPart.mark
        split <;> decide
      · cases hsg : x.sign <;> simp [hsg, SignMark.text] at hs <;> subst hs <;> decide
      · exact isBlank_eq_false_of_isDigit (hxv.digits.2 c hd)

/-- A text that spells a valid numeral reads as the numeral's parts. -/
lemma read_run_of_toList {n : Numeral} (hn : n.Valid) {s : String} (hs : s.toList = n.text) :
    (Decimal.read s).run = Except.ok <$> n.literal.value := by
  rw [Decimal.read_run, hs, trimBlank_of_forall (isBlank_of_mem_text hn), readLiteral_text hn]

end Numeral

namespace Decimal

/-! ## The digits of a natural number -/

lemma digitsOf_eq (n : ℕ) : digitsOf n = Nat.toDigits 10 n := Nat.toList_repr

lemma isDigit_of_mem_digitsOf {n : ℕ} {c : Char} (h : c ∈ digitsOf n) : c.isDigit = true :=
  Nat.isDigit_of_mem_toDigits (by norm_num) (by norm_num) (digitsOf_eq n ▸ h)

lemma digitsOf_ne_nil (n : ℕ) : digitsOf n ≠ [] := by
  rw [digitsOf_eq]
  exact Nat.toDigits_ne_nil

lemma digitChar_sub_zero {d : ℕ} (hd : d < 10) : (Nat.digitChar d).toNat - '0'.toNat = d :=
  (by decide : ∀ d < 10, (Nat.digitChar d).toNat - '0'.toNat = d) d hd

/-- The digits written for `n` are worth `n`. -/
lemma digitValue_digitsOf (n : ℕ) : digitValue (digitsOf n) = n := by
  induction n using Nat.strong_induction_on with
  | _ n ih =>
    rw [digitsOf_eq, Nat.toDigits_eq_if (by norm_num)]
    split_ifs with hn
    · rw [digitValue_cons, digitValue_nil, digitChar_sub_zero hn]
      simp
    · rw [digitValue_append, ← digitsOf_eq, ih (n / 10) (by omega), digitValue_cons,
        digitChar_sub_zero (Nat.mod_lt _ (by norm_num))]
      simp
      omega

/-- The first digit written for a number other than zero is not a zero. -/
lemma head_digitsOf {n : ℕ} (hn : n ≠ 0) : ∀ c ∈ (digitsOf n).head?, c ≠ '0' := by
  induction n using Nat.strong_induction_on with
  | _ n ih =>
    rw [digitsOf_eq, Nat.toDigits_eq_if (by norm_num)]
    split_ifs with hlt
    · intro c hc
      simp only [List.head?_cons, Option.mem_def, Option.some.injEq] at hc
      subst hc
      exact (by decide : ∀ d < 10, d ≠ 0 → Nat.digitChar d ≠ '0') n hlt hn
    · rw [List.head?_append_of_ne_nil _ Nat.toDigits_ne_nil, ← digitsOf_eq]
      exact ih (n / 10) (by omega) (by omega)

/-- A number below `10 ^ 155` other than zero is written with `digitCount` digits. -/
lemma length_digitsOf {n : ℕ} (hn : n ≠ 0) (hlt : n < 10 ^ 155) :
    (digitsOf n).length = digitCount n := by
  obtain ⟨c, rest, hcr⟩ := List.exists_cons_of_ne_nil (digitsOf_ne_nil n)
  have hdig : ∀ d ∈ digitsOf n, d.isDigit = true := fun d hd => isDigit_of_mem_digitsOf hd
  have hhi := digitValue_lt hdig
  have hlo : 10 ^ rest.length ≤ digitValue (c :: rest) :=
    ten_pow_le_digitValue (hdig c (by simp [hcr])) (head_digitsOf hn c (by simp [hcr]))
  rw [← hcr] at hlo
  rw [digitValue_digitsOf] at hhi hlo
  have h₁ := (digitCount_le_iff hlt).2 hhi
  have h₂ : ¬ digitCount n ≤ rest.length := fun h => absurd ((digitCount_le_iff hlt).1 h) (not_lt.2 hlo)
  rw [hcr, List.length_cons] at h₁ ⊢
  omega

lemma length_digitsOf_le {n : ℕ} (hlt : n < 10 ^ workingDigits) :
    (digitsOf n).length ≤ workingDigits := by
  by_cases hn : n = 0
  · subst hn
    decide
  · have h155 : n < 10 ^ 155 := hlt.trans (by decide)
    rw [length_digitsOf hn h155]
    exact (digitCount_le_iff h155).2 hlt

/-! ## The canonical numeral -/

/-- The place of the leading digit of the canonical text: the place of the last digit plus the
number of written digits, less one. A zero is written with one digit. -/
def writtenLead (x : Decimal) : ℤ := x.exponent + (digitsOf x.coefficient).length - 1

/-- The sign written before a decimal. -/
def signMark (x : Decimal) : SignMark := if x.isNegative then .minus else .none

/-- The canonical text of a decimal as a numeral, in the four shapes of `toText`. -/
def numeral (x : Decimal) : Numeral :=
  let digits := digitsOf x.coefficient
  let point := (digits.length : ℤ) + x.exponent
  if x.exponent ≤ 0 ∧ x.writtenLead ≥ -6 then
    if x.exponent = 0 then ⟨x.signMark, digits, none, none⟩
    else if point > 0 then ⟨x.signMark, digits.take point.toNat, some (digits.drop point.toNat), none⟩
    else ⟨x.signMark, ['0'], some (zeros (-point).toNat ++ digits), none⟩
  else
    ⟨x.signMark, digits.take 1, if digits.length = 1 then none else some (digits.drop 1),
      some ⟨true, if x.writtenLead < 0 then .minus else .plus, digitsOf x.writtenLead.natAbs⟩⟩

lemma signText_toList (x : Decimal) : (signText x).toList = x.signMark.text := by
  unfold signText signMark
  split <;> rfl

lemma pointAfterFirst_toList (d : Char) (rest : List Char) :
    (pointAfterFirst (d :: rest)).toList =
      [d] ++ Numeral.pointText (if rest = [] then none else some rest) := by
  cases rest with
  | nil => simp [pointAfterFirst, Numeral.pointText, String.toList_singleton]
  | cons e rest =>
    simp [pointAfterFirst, Numeral.pointText, String.toList_append, String.toList_singleton]

/-- The canonical text is the text of the canonical numeral, when the coefficient has at most
`workingDigits` digits and the written lead is below `2 ^ 62` in size. -/
theorem toText_eq_numeral {x : Decimal} (hc : x.coefficient < 10 ^ workingDigits)
    (hlead : |x.writtenLead| < 2 ^ 62) :
    ∃ s, x.toText = .ok s ∧ s.toList = x.numeral.text := by
  have hlen := length_digitsOf_le hc
  have hpos : 0 < (digitsOf x.coefficient).length := List.length_pos_iff.2 (digitsOf_ne_nil _)
  rw [abs_lt] at hlead
  unfold writtenLead at hlead
  unfold workingDigits at hlen
  unfold toText numeral
  dsimp only
  rw [Word64.add_of_fits (by unfold Word64.Fits Word64.least Word64.greatest; omega),
    Checked.ok_bind, Word64.sub_of_fits (by unfold Word64.Fits Word64.least Word64.greatest; omega),
    Checked.ok_bind]
  have hwl : x.exponent + ((digitsOf x.coefficient).length : ℤ) - 1 = x.writtenLead := rfl
  rw [hwl]
  by_cases hplain : x.exponent ≤ 0 ∧ x.writtenLead ≥ -6
  · rw [if_pos hplain, if_pos hplain]
    by_cases hzero : x.exponent = 0
    · rw [if_pos hzero, if_pos hzero]
      exact ⟨_, rfl, by simp [String.toList_append, signText_toList, Numeral.text,
        Numeral.mantissa, Numeral.pointText]⟩
    · -- the point falls among the digits, or before them after `0.` and zeros
      rw [if_neg hzero, if_neg hzero,
        Word64.add_of_fits (by unfold Word64.Fits Word64.least Word64.greatest; omega),
        Checked.ok_bind]
      by_cases hpoint : (digitsOf x.coefficient).length + x.exponent > 0
      · rw [if_pos hpoint, if_pos hpoint]
        exact ⟨_, rfl, by simp [String.toList_append, signText_toList, Numeral.text,
          Numeral.mantissa, Numeral.pointText]⟩
      · rw [if_neg hpoint, if_neg hpoint]
        exact ⟨_, rfl, by simp [String.toList_append, signText_toList, Numeral.text,
          Numeral.mantissa, Numeral.pointText]⟩
  · -- scientific: the first digit, the others after a point, the written lead
    rw [if_neg hplain, if_neg hplain]
    have hleast : x.writtenLead ≠ Word64.least := by
      unfold writtenLead Word64.least
      omega
    obtain ⟨d, rest, hdr⟩ := List.exists_cons_of_ne_nil (digitsOf_ne_nil x.coefficient)
    rw [Word64.natAbs, if_neg hleast, Checked.pure_eq, Checked.ok_bind]
    refine ⟨_, rfl, ?_⟩
    simp only [String.toList_append, signText_toList, hdr, pointAfterFirst_toList, Numeral.text,
      Numeral.mantissa, Option.map_some, Option.getD_some, ExponentPart.text, ExponentPart.mark,
      if_true, List.take_succ_cons, List.take_zero, List.drop_succ_cons, List.drop_zero,
      List.length_cons, Nat.add_eq_right, List.length_eq_zero_iff]
    by_cases hneg : x.writtenLead < 0 <;> simp [hneg, SignMark.text, Nat.toString_eq_repr, digitsOf]

/-! ## The parts of the canonical numeral -/

lemma sign_numeral (x : Decimal) : x.numeral.sign = x.signMark := by
  unfold numeral
  dsimp only
  split_ifs <;> rfl

lemma exponent_numeral (x : Decimal) : x.numeral.exponent =
    if x.exponent ≤ 0 ∧ x.writtenLead ≥ -6 then none
    else some ⟨true, if x.writtenLead < 0 then .minus else .plus, digitsOf x.writtenLead.natAbs⟩ := by
  unfold numeral
  dsimp only
  split_ifs <;> rfl

/-- Only a negative decimal other than zero is written with a minus. -/
lemma signMark_eq_minus {x : Decimal} (h0 : x.coefficient ≠ 0) :
    decide (x.signMark = .minus) = x.negative := by
  unfold signMark isNegative
  cases x.negative <;> simp [h0]

lemma digitValue_zeros_append (k : ℕ) (ds : List Char) :
    digitValue (zeros k ++ ds) = digitValue ds := by
  have hz : digitValue (zeros k) = 0 :=
    (digitValue_eq_zero_iff fun c hc => by rw [List.eq_of_mem_replicate hc]; rfl).2
      fun c hc => List.eq_of_mem_replicate hc
  rw [digitValue_append, hz, zero_mul, zero_add]

lemma apply_natAbs (z : ℤ) : (if z < 0 then SignMark.minus else .plus).apply z.natAbs = z := by
  by_cases hz : z < 0
  · rw [if_pos hz, SignMark.apply, if_pos rfl]
    omega
  · rw [if_neg hz, SignMark.apply, if_neg (by decide)]
    omega

/-- The digits of the canonical numeral are those of the coefficient, behind the zeros that the
`0.` shape writes before them, and its scale is the exponent. -/
lemma numeral_digits_scale (x : Decimal) :
    (∃ k ≤ 7, x.numeral.digits = zeros k ++ digitsOf x.coefficient) ∧
      x.numeral.scale = x.exponent := by
  have hpos : 0 < (digitsOf x.coefficient).length := List.length_pos_iff.2 (digitsOf_ne_nil _)
  have hwl : x.writtenLead = x.exponent + (digitsOf x.coefficient).length - 1 := rfl
  unfold numeral
  dsimp only
  by_cases hplain : x.exponent ≤ 0 ∧ x.writtenLead ≥ -6
  · rw [if_pos hplain]
    by_cases hzero : x.exponent = 0
    · rw [if_pos hzero]
      exact ⟨⟨0, by omega, by simp [Numeral.digits, Numeral.fractionDigits, zeros]⟩,
        by simp [Numeral.scale, Numeral.exponentValue, Numeral.fractionDigits, hzero]⟩
    · rw [if_neg hzero]
      by_cases hpoint : (digitsOf x.coefficient).length + x.exponent > 0
      · -- the point among the digits: what follows it is as long as the exponent is negative
        rw [if_pos hpoint]
        refine ⟨⟨0, by omega, by simp [Numeral.digits, Numeral.fractionDigits, zeros]⟩, ?_⟩
        simp only [Numeral.scale, Numeral.exponentValue, Numeral.fractionDigits, Option.map_none,
          Option.getD_none, Option.getD_some, List.length_drop]
        omega
      · -- `0.`, then zeros up to the first digit: at most six of them
        rw [if_neg hpoint]
        refine ⟨⟨(-((digitsOf x.coefficient).length + x.exponent)).toNat + 1, by omega, ?_⟩, ?_⟩
        · simp [Numeral.digits, Numeral.fractionDigits, zeros, List.replicate_succ]
        · simp only [Numeral.scale, Numeral.exponentValue, Numeral.fractionDigits,
            Option.map_none, Option.getD_none, Option.getD_some, List.length_append, zeros,
            List.length_replicate]
          omega
  · -- scientific: one digit before the point, the written lead as exponent
    rw [if_neg hplain]
    obtain ⟨d, rest, hdr⟩ := List.exists_cons_of_ne_nil (digitsOf_ne_nil x.coefficient)
    have hfrac : ((if (digitsOf x.coefficient).length = 1 then none
        else some ((digitsOf x.coefficient).drop 1)).getD []) = rest := by
      rw [hdr]
      cases rest <;> simp
    refine ⟨⟨0, by omega, ?_⟩, ?_⟩
    · simp only [Numeral.digits, Numeral.fractionDigits, hfrac]
      simp [hdr, zeros]
    · simp only [Numeral.scale, Numeral.exponentValue, Numeral.fractionDigits, hfrac,
        Option.map_some, Option.getD_some, ExponentPart.value, digitValue_digitsOf, apply_natAbs]
      rw [hdr, List.length_cons] at hwl
      omega

/-- The canonical numeral is valid when a scientific exponent, the written lead, has at most nine
digits. -/
lemma numeral_valid {x : Decimal}
    (hlead : (x.exponent ≤ 0 ∧ -6 ≤ x.writtenLead) ∨ |x.writtenLead| ≤ 999999999) :
    x.numeral.Valid := by
  obtain ⟨⟨k, -, hk⟩, -⟩ := numeral_digits_scale x
  refine ⟨?_, ?_⟩
  · rw [hk]
    refine ⟨by simp [digitsOf_ne_nil], fun c hc => ?_⟩
    rcases List.mem_append.1 hc with hz | hd
    · rw [List.eq_of_mem_replicate hz]
      rfl
    · exact isDigit_of_mem_digitsOf hd
  · intro e he
    rw [exponent_numeral] at he
    by_cases hplain : x.exponent ≤ 0 ∧ x.writtenLead ≥ -6
    · rw [if_pos hplain] at he
      cases he
    · rw [if_neg hplain] at he
      obtain rfl := Option.mem_some_iff.1 he
      have hsmall := hlead.resolve_left (fun h => hplain ⟨h.1, h.2⟩)
      rw [abs_le] at hsmall
      refine ⟨⟨digitsOf_ne_nil _, fun c hc => isDigit_of_mem_digitsOf hc⟩, ?_⟩
      rw [digitValue_digitsOf]
      omega

/-- For a decimal other than zero the written lead is the adjusted exponent. -/
lemma adjusted_eq_writtenLead {x : Decimal} (h0 : x.coefficient ≠ 0)
    (hc : x.coefficient < 10 ^ 155) (hwl : |x.writtenLead| < 2 ^ 62) :
    x.adjusted = .ok x.writtenLead := by
  have hlen := length_digitsOf h0 hc
  have hcount := digitCount_le_of_lt hc
  rw [abs_lt] at hwl
  unfold writtenLead at hwl ⊢
  unfold adjusted
  rw [← hlen, Word64.add_of_fits (by unfold Word64.Fits Word64.least Word64.greatest; omega),
    Checked.ok_bind, Word64.sub_of_fits (by unfold Word64.Fits Word64.least Word64.greatest; omega)]

/-! ## Reading the text back -/

/-- Written and read back, a decimal of at most `workingDigits` digits gives itself when it is not
zero, with its sign, its digits (trailing zeros included) and its exponent, and the canonical zero
when it is a zero, provided the text is plain or the place of its leading written digit has at
most nine digits; for a decimal other than zero that place is its adjusted exponent. -/
theorem read_toText {x : Decimal} (hc : x.coefficient < 10 ^ workingDigits)
    (hlead : (x.exponent ≤ 0 ∧ -6 ≤ x.writtenLead) ∨ |x.writtenLead| ≤ 999999999) :
    ∃ s y, x.toText = .ok s ∧ (read s).run = .ok (.ok y) ∧ y.val = x.val ∧
      (x.coefficient ≠ 0 → y = x ∧ x.adjusted = .ok x.writtenLead) ∧
      (x.coefficient = 0 → y = zero) := by
  have hlen := length_digitsOf_le hc
  have hwl : |x.writtenLead| < 2 ^ 62 := by
    rcases hlead with ⟨he, hl⟩ | hl
    · rw [abs_lt]
      unfold writtenLead at hl ⊢
      unfold workingDigits at hlen
      omega
    · exact hl.trans_lt (by norm_num)
  obtain ⟨s, hs, htext⟩ := toText_eq_numeral hc hwl
  have hn := numeral_valid hlead
  obtain ⟨⟨k, hk, hdigits⟩, hscale⟩ := numeral_digits_scale x
  have hval : digitValue x.numeral.digits = x.coefficient := by
    rw [hdigits, digitValue_zeros_append, digitValue_digitsOf]
  have hnlen : x.numeral.digits.length < 2 ^ 62 := by
    rw [hdigits, List.length_append, zeros, List.length_replicate]
    unfold workingDigits at hlen
    omega
  have hread := Numeral.read_run_of_toList hn htext
  by_cases h0 : x.coefficient = 0
  · -- a zero is read as the canonical zero
    obtain ⟨d, hd, -, -, hzero⟩ := Numeral.value_literal hn hnlen
    have hd0 : d = zero := hzero (by simp [Numeral.value, hval, h0, SignMark.apply])
    refine ⟨s, zero, hs, by rw [hread, hd, hd0]; rfl, by simp [val, zero, h0],
      fun h => absurd h0 h, fun _ => rfl⟩
  · -- otherwise the digits are read exactly, with the sign and the scale
    have hexact := Numeral.value_literal_exact hn hnlen (hval ▸ h0) (hval ▸ hc)
    rw [sign_numeral, signMark_eq_minus h0, hval, hscale] at hexact
    exact ⟨s, x, hs, by rw [hread, hexact]; rfl, rfl,
      fun _ => ⟨rfl, adjusted_eq_writtenLead h0 (hc.trans (by decide)) hwl⟩, fun h => absurd h h0⟩

theorem read_toText_minus_one_point_five :
    (⟨true, 150, -2⟩ : Decimal).coefficient < 10 ^ workingDigits ∧
      (((⟨true, 150, -2⟩ : Decimal).exponent ≤ 0 ∧ -6 ≤ (⟨true, 150, -2⟩ : Decimal).writtenLead) ∨
        |(⟨true, 150, -2⟩ : Decimal).writtenLead| ≤ 999999999) ∧
      ∃ s y, (⟨true, 150, -2⟩ : Decimal).toText = .ok s ∧ (read s).run = .ok (.ok y) ∧
        y.val = (⟨true, 150, -2⟩ : Decimal).val ∧
        ((⟨true, 150, -2⟩ : Decimal).coefficient ≠ 0 →
          y = ⟨true, 150, -2⟩ ∧ (⟨true, 150, -2⟩ : Decimal).adjusted =
            .ok (⟨true, 150, -2⟩ : Decimal).writtenLead) ∧
        ((⟨true, 150, -2⟩ : Decimal).coefficient = 0 → y = zero) :=
  ⟨by decide, by decide, read_toText (by decide) (by decide)⟩

/-- A zero is written with one digit, so its written lead is its exponent, one more than its
adjusted exponent: the zero at exponent `10 ^ 9` has adjusted exponent `999999999` and is written
`0E+1000000000`, whose exponent is past what the reader takes. -/
theorem read_toText_zero_out_of_range :
    (⟨false, 0, 1000000000⟩ : Decimal).adjusted = .ok 999999999 ∧
      (⟨false, 0, 1000000000⟩ : Decimal).toText = .ok "0E+1000000000" ∧
      (read "0E+1000000000").run = .ok (.error .exponentOutOfRange) := by
  decide +kernel

end Decimal

end TickGrid
