import TickGrid.Proofs.Decimal.Powers
import TickGrid.Proofs.Decimal.Reading

/-!
# The working width

Coefficients are 512-bit integers, but every decimal handed out has at most `workingDigits`
digits: each constructor and each arithmetic operation ends in the rounding of `ofParts`, and
`abs` and the shortcut of `absDiff` return an operand unrounded. Under that invariant the
intermediate coefficients stay far below `2 ^ 512`: products have at most 140 digits, scaled
dividends 141 and the aligned operands of a distance 142, and no power of ten past `10 ^ 154` is
ever asked for. So no coefficient operation overflows (`Overflow.wide`), and the only way an
operation fails is an exponent leaving the 64-bit range, which for operands with exponents at most
`2 ^ 61` in magnitude (`Decimal.Moderate`) does not happen.

On non-zero operands of the working width the coefficient side of a quotient always succeeds, and
only the exponent arithmetic can fail (`div?_eq`); a distance keeps the working width and never
overflows a coefficient (`absDiff_width`). `operations_keep_working_width` states the invariant for
every constructor and operation.
-/

namespace TickGrid

namespace Overflow

/-- The overflows of the 64-bit exponent arithmetic, of a difference or of a sum: all but those of
a coefficient (`wide`) and of a negation (`neg`). -/
def InExponent (e : Overflow) : Prop := e = .sub ∨ e = .add

lemma InExponent.of_eq_sub {e : Overflow} (h : e = .sub) : e.InExponent := Or.inl h

lemma InExponent.of_eq_add {e : Overflow} (h : e = .add) : e.InExponent := Or.inr h

end Overflow

/-- A computation that can only overflow a sum of exponents fails in the exponent arithmetic. -/
lemma Checked.Holds.of_add {α : Type} {p : α → Prop} {x : Checked α}
    (h : Checked.Holds (· = .add) p x) : Checked.Holds Overflow.InExponent p x :=
  h.mono (fun _ => Overflow.InExponent.of_eq_add) fun _ h => h

/-- An exponent difference returns the difference or fails in the exponent arithmetic. -/
lemma Word64.sub_inExponent (a b : ℤ) :
    Checked.Holds Overflow.InExponent (· = a - b) (Word64.sub a b) :=
  (Word64.sub_holds a b).mono (fun _ => Overflow.InExponent.of_eq_sub) fun _ h => h

/-- An exponent sum that fits whenever `Q` holds fails only when `Q` does not. -/
lemma Word64.add_unless {a b : ℤ} {Q : Prop} (hQ : Q → Word64.Fits (a + b)) :
    Checked.Holds (fun f => f.InExponent ∧ ¬ Q) (· = a + b) (Word64.add a b) := by
  by_cases hq : Q
  · rw [Word64.add_of_fits (hQ hq)]
    exact (Checked.holds_ok _).2 rfl
  · exact (Word64.add_holds a b).mono (fun _ h => ⟨.of_eq_add h, hq⟩) fun _ h => h

/-- An exponent difference that fits whenever `Q` holds fails only when `Q` does not. -/
lemma Word64.sub_unless {a b : ℤ} {Q : Prop} (hQ : Q → Word64.Fits (a - b)) :
    Checked.Holds (fun f => f.InExponent ∧ ¬ Q) (· = a - b) (Word64.sub a b) := by
  by_cases hq : Q
  · rw [Word64.sub_of_fits (hQ hq)]
    exact (Checked.holds_ok _).2 rfl
  · exact (Word64.sub_holds a b).mono (fun _ h => ⟨.of_eq_sub h, hq⟩) fun _ h => h

namespace Decimal

/-- A decimal of the working width: its coefficient has at most `workingDigits` digits. -/
def Narrow (x : Decimal) : Prop := x.coefficient < 10 ^ workingDigits

instance (x : Decimal) : Decidable x.Narrow := inferInstanceAs (Decidable (_ < _))

lemma Narrow.lt_ten_pow {x : Decimal} (hx : x.Narrow) : x.coefficient < 10 ^ 155 :=
  hx.trans (by decide)

lemma Narrow.digitCount_le {x : Decimal} (hx : x.Narrow) :
    digitCount x.coefficient ≤ workingDigits :=
  (digitCount_le_iff hx.lt_ten_pow).2 hx

/-- A decimal whose exponent is at most `2 ^ 61` in magnitude, far enough inside the 64-bit range
that no operation on decimals of the working width overflows its exponent arithmetic. -/
def Moderate (x : Decimal) : Prop := |x.exponent| ≤ 2 ^ 61

/-- The leading digit of a moderate decimal of the working width is inside the 64-bit range. -/
lemma Moderate.not_leadOverflows {x : Decimal} (hm : x.Moderate) (hx : x.Narrow) :
    ¬ x.LeadOverflows := by
  have hd := hx.digitCount_le
  rw [Moderate, abs_le] at hm
  simp only [workingDigits] at hd
  unfold LeadOverflows Word64.greatest
  omega

/-- An exponent at most `2 ^ 62` in magnitude leaves room in the 64-bit range for the digits of
every coefficient below `10 ^ 155`. -/
lemma fits_room {c : ℕ} {e : ℤ} (hc : c < 10 ^ 155) (he : |e| ≤ 2 ^ 62) :
    Word64.Fits e ∧ e + digitCount c ≤ Word64.greatest := by
  have hd := digitCount_le_of_lt hc
  rw [abs_le] at he
  exact ⟨Word64.fits_of_abs_le (abs_le.2 he), by unfold Word64.greatest; omega⟩

/-- The rounding that ends every operation keeps the working width for every 512-bit
coefficient. -/
lemma ofParts_width {negative : Bool} {c : ℕ} {e : ℤ} (hc : c < 10 ^ 155) :
    Checked.Holds (· = .add) Narrow (ofParts negative c e) :=
  (ofParts_holds hc).mono (fun _ h => h) fun _ h => h.2

/-- The rounding that ends every operation fails only when `Q` does not hold, if `Q` leaves room
for the exponent and the digits in the 64-bit range. -/
lemma ofParts_unless {negative : Bool} {c : ℕ} {e : ℤ} (hc : c < 10 ^ 155) {Q : Prop}
    (hQ : Q → Word64.Fits e ∧ e + digitCount c ≤ Word64.greatest) :
    Checked.Holds (fun f => f.InExponent ∧ ¬ Q) Narrow (ofParts negative c e) := by
  by_cases hq : Q
  · obtain ⟨r, hr, -, hrc, -⟩ := @ofParts_val negative c e hc (hQ hq).1 (hQ hq).2
    rw [hr]
    exact (Checked.holds_ok r).2 hrc
  · exact (ofParts_width hc).mono (fun _ h => ⟨.of_eq_add h, hq⟩) fun _ h => h

/-- Dropping digits of a coefficient below `10 ^ 154` asks for a power of ten of at most as many
digits, and the rounded quotient exceeds the plain one by at most one. -/
lemma dropDigits_width {x : Decimal} (hc : x.coefficient < 10 ^ greatestTenPower) (drop : ℕ) :
    Checked.Holds (· = .add) (fun r => r.coefficient ≤ x.coefficient / 10 ^ drop + 1)
      (x.dropDigits drop) := by
  unfold dropDigits
  by_cases h0 : drop = 0
  · subst h0
    simp
  rw [if_neg h0]
  refine (Word64.add_holds _ _).bind ?_
  rintro _ -
  by_cases hbig : drop > digitCount x.coefficient
  · rw [if_pos hbig, Checked.pure_eq, Checked.holds_ok]
    exact Nat.zero_le _
  have hcount : digitCount x.coefficient ≤ greatestTenPower :=
    (digitCount_le_iff (hc.trans (by decide))).2 hc
  rw [if_neg hbig, tenPower_of_le (by omega), Checked.ok_bind]
  have hq : x.coefficient / 10 ^ drop ≤ x.coefficient := Nat.div_le_self _ _
  dsimp only
  split_ifs
  · rw [Word512.add_of_le (by simp only [greatestTenPower] at hc; omega), Checked.ok_bind,
      Checked.pure_eq, Checked.holds_ok]
  · simp only [Checked.ok_bind, Checked.pure_eq, Checked.holds_ok]
    omega

/-- Rounding a decimal of the working width to any number of digits keeps the working width:
without a carry the kept digits are fewer than the digits there were, and a carry is divided
away. -/
lemma roundSig_width {x : Decimal} (hx : x.Narrow) (D : ℕ) :
    Checked.Holds (· = .add) Narrow (x.roundSig D) := by
  have hcount := hx.digitCount_le
  unfold roundSig
  dsimp only
  by_cases hle : digitCount x.coefficient ≤ D
  · rw [if_pos hle]
    exact (Checked.holds_ok x).2 hx
  rw [if_neg hle]
  refine (dropDigits_width (hx.trans (by decide)) _).bind ?_
  intro r hr
  -- the kept digits exceed the plain quotient, which is below `10 ^ D`, by at most one
  have hlt : x.coefficient / 10 ^ (digitCount x.coefficient - D) < 10 ^ D := by
    rw [Nat.div_lt_iff_lt_mul (Nat.pow_pos (by norm_num)), ← pow_add]
    exact (lt_ten_pow_digitCount hx.lt_ten_pow).trans_le
      (Nat.pow_le_pow_right (by norm_num) (by omega))
  have hD : 10 ^ D ≤ 10 ^ workingDigits := Nat.pow_le_pow_right (by norm_num) (by omega)
  have hpos : 0 < 10 ^ workingDigits := Nat.pow_pos (by norm_num)
  split_ifs with hcarry
  · refine (Word64.add_holds _ _).bind ?_
    rintro _ -
    exact (Checked.holds_ok _).2 (show r.coefficient / 10 < 10 ^ workingDigits by omega)
  · have h155 : 10 ^ workingDigits < 10 ^ 155 := by decide
    have hsmall : r.coefficient < 10 ^ 155 := by omega
    have hfew : r.coefficient < 10 ^ D := (digitCount_le_iff hsmall).1 (by omega)
    exact (Checked.holds_ok r).2 (show r.coefficient < 10 ^ workingDigits by omega)

/-! ## Constructors -/

/-- A 128-bit coefficient has at most 39 digits, so its decimal keeps the working width, and only
an exponent past `2 ^ 61` in magnitude can make the rounding overflow. -/
lemma ofScaled_width {c : ℕ} (hc : c < 2 ^ 128) (e : ℤ) :
    Checked.Holds (fun f => f.InExponent ∧ ¬ |e| ≤ 2 ^ 61) Narrow (ofScaled c e) :=
  ofParts_unless (hc.trans (by norm_num)) fun he =>
    fits_room (hc.trans (by norm_num)) (he.trans (by norm_num))

/-- A constant given by two 128-bit halves has at most 74 digits before its rounding. -/
lemma ofHalves_width {hi lo : ℕ} (hhi : hi < 2 ^ 128) (hlo : lo < 2 ^ 128) (e : ℤ) :
    Checked.Holds (fun f => f.InExponent ∧ ¬ |e| ≤ 2 ^ 61) Narrow (ofHalves hi lo e) := by
  have hhigh : hi * 10 ^ 35 < 10 ^ 74 :=
    calc hi * 10 ^ 35 < 2 ^ 128 * 10 ^ 35 := Nat.mul_lt_mul_of_pos_right hhi (by positivity)
      _ ≤ 10 ^ 74 := by norm_num
  have hlo' : lo < 10 ^ 74 := hlo.trans (by norm_num)
  have h154 : (2 : ℕ) * 10 ^ 74 ≤ 10 ^ 154 := by norm_num
  rw [ofHalves, tenPower_of_le (by decide), Checked.ok_bind,
    Word512.mul_of_lt (hhigh.trans (by norm_num)), Checked.ok_bind,
    Word512.add_of_le (by omega), Checked.ok_bind]
  have hc : hi * 10 ^ 35 + lo < 10 ^ 155 := (Nat.add_lt_add hhigh hlo').trans_le (by norm_num)
  exact ofParts_unless hc fun he => fits_room hc (he.trans (by norm_num))

/-- The digits of a numeral, with more than `keptDigits` of them folded into a sticky digit, make
a coefficient of at most 72 digits, which the final rounding brings to the working width. -/
lemma ofDigits_width {negative : Bool} {ds : List Char} (h : ∀ c ∈ ds, c.isDigit = true)
    (e : ℤ) : Checked.Holds (· = .add) Narrow (ofDigits negative ds e) := by
  unfold ofDigits
  split_ifs with hlong
  · dsimp only
    refine (Word64.add_holds _ _).bind ?_
    rintro _ -
    have hhead : Text.digitValue (ds.take keptDigits) < 10 ^ 71 :=
      (Text.digitValue_lt fun c hc => h c (List.mem_of_mem_take hc)).trans_le
        (Nat.pow_le_pow_right (by norm_num) (by simp [keptDigits, workingDigits]))
    have hsticky : (if (ds.drop keptDigits).any (· ≠ '0') then 1 else 0) ≤ 1 := by
      split_ifs <;> norm_num
    rw [Word512.mul_of_lt (by omega), Checked.ok_bind,
      Word512.add_of_le (by omega), Checked.ok_bind]
    exact ofParts_width (by omega)
  · have hval : Text.digitValue ds < 10 ^ 71 :=
      (Text.digitValue_lt h).trans_le
        (Nat.pow_le_pow_right (by norm_num) (by simp [keptDigits, workingDigits] at hlong; omega))
    exact ofParts_width (hval.trans (by norm_num))

/-- The value of the parts of a numeral keeps the working width; the shift of its exponent by
the length of the fraction may overflow. -/
lemma Literal.value_width {l : Literal} (h : ∀ c ∈ l.integer ++ l.fraction, c.isDigit = true) :
    Checked.Holds Overflow.InExponent Narrow l.value := by
  unfold Literal.value
  refine (Word64.sub_inExponent _ _).bind ?_
  rintro _ -
  dsimp only
  split_ifs
  · exact (Checked.holds_ok zero).2 (by simp [zero, Narrow])
  · exact (ofDigits_width (fun c hc => h c ((List.dropWhile_sublist _).subset hc)) _).of_add

/-- Whatever a text reads as keeps the working width, and reading fails by an overflow only in
the exponent arithmetic. -/
lemma read_width (s : String) :
    Checked.Holds Overflow.InExponent (fun r => ∀ d, r = .ok d → d.Narrow)
      (read s).run := by
  rw [read_run]
  cases hl : readLiteral (Text.trimBlank s.toList) with
  | error e => simp
  | ok l =>
    obtain ⟨n, hn, -, rfl⟩ := exists_numeral_of_readLiteral hl
    refine (Literal.value_width ?_).map ?_
    · intro c hc
      exact hn.digits.2 c (by simpa [Numeral.literal, Numeral.digits] using hc)
    · rintro d hd _ ⟨⟩
      exact hd

/-! ## Quotients -/

/-- The sticky quotient of a non-zero dividend of the working width, shifted as `div?` shifts it,
is at most `10 ^ 142`: the shifted dividend is below `10 ^ 141`, and the sticky digit is one
more digit. -/
lemma stickyQuotient_le {a b : Decimal} (ha : a.Narrow) (hb : b.Narrow) (ha0 : a.coefficient ≠ 0) :
    stickyQuotient (a.coefficient * 10 ^ quotientShift a b) b.coefficient ≤ 10 ^ 142 := by
  set N := a.coefficient * 10 ^ quotientShift a b with hN
  obtain ⟨hNhi, -⟩ : N < 10 ^ 141 ∧ _ := scaled_dividend_bounds (Nat.pos_of_ne_zero ha0) ha hb
  have hQ : N / b.coefficient < 10 ^ 141 := (Nat.div_le_self _ _).trans_lt hNhi
  have hs : (if N % b.coefficient = 0 then 0 else 1) ≤ 1 := by split_ifs <;> norm_num
  have hten : (10 : ℕ) ^ 142 = 10 ^ 141 * 10 := by norm_num
  unfold stickyQuotient
  omega

/-- On non-zero operands of the working width the coefficient side of a quotient cannot fail: the
shift that gives the quotient `workingDigits + 1` digits is at most `141`, so the scaled dividend
stays below `10 ^ 141`, and what is left is the exponent arithmetic and the rounding of a
coefficient of at most 142 digits. -/
lemma div?_eq {a b : Decimal} (ha : a.Narrow) (hb : b.Narrow) (ha0 : a.coefficient ≠ 0)
    (hb0 : b.coefficient ≠ 0) :
    ∃ shift c : ℕ, shift ≤ 141 ∧ c ≤ 10 ^ 142 ∧ a.div? b =
      (Word64.sub a.exponent b.exponent >>= fun e₁ => Word64.sub e₁ shift >>= fun e₂ =>
        Word64.sub e₂ 1 >>= fun e₃ => some <$> ofParts (a.negative != b.negative) c e₃) := by
  have hda := ha.digitCount_le
  have hdb := hb.digitCount_le
  simp only [workingDigits] at hda hdb
  exact ⟨quotientShift a b, _, by simp only [quotientShift, workingDigits]; omega,
    stickyQuotient_le ha hb ha0, div?_eq_ofParts ha hb ha0 hb0⟩

/-- A quotient of decimals of the working width keeps the working width, and fails only in the
exponent arithmetic. -/
lemma div?_width {a b : Decimal} (ha : a.Narrow) (hb : b.Narrow) :
    Checked.Holds Overflow.InExponent (fun o => ∀ z ∈ o, z.Narrow) (a.div? b) := by
  by_cases hb0 : b.coefficient = 0
  · simp [div?, isZero, hb0]
  by_cases ha0 : a.coefficient = 0
  · simp [div?, isZero, ha0, hb0, zero, Narrow]
  obtain ⟨shift, c, -, hc, hdiv⟩ := div?_eq ha hb ha0 hb0
  have h155 : (10 : ℕ) ^ 142 < 10 ^ 155 := by norm_num
  rw [hdiv]
  refine (Word64.sub_inExponent _ _).bind fun _ _ => ?_
  refine (Word64.sub_inExponent _ _).bind fun _ _ => ?_
  refine (Word64.sub_inExponent _ _).bind fun _ _ => ?_
  refine (ofParts_width (by omega)).of_add.map ?_
  rintro z hz _ ⟨⟩
  exact hz

/-- A quotient by a non-zero decimal, when both are of the working width and the exponents differ
by at most `2 ^ 62`, returns: the shift of the dividend never fails. -/
lemma div?_ok {a b : Decimal} (ha : a.Narrow) (hb : b.Narrow) (hb0 : b.coefficient ≠ 0)
    (he : |a.exponent - b.exponent| ≤ 2 ^ 62) : ∃ z, a.div? b = .ok (some z) := by
  by_cases ha0 : a.coefficient = 0
  · exact ⟨zero, by simp [div?, isZero, ha0, hb0]⟩
  obtain ⟨shift, c, hshift, hc, hdiv⟩ := div?_eq ha hb ha0 hb0
  rw [abs_le] at he
  have h155 : (10 : ℕ) ^ 142 < 10 ^ 155 := by norm_num
  have hdc : digitCount c ≤ 155 := digitCount_le_of_lt (by omega)
  -- every exponent of the computation lies within `142` of the difference of the exponents
  have hfits : ∀ k : ℤ, |k - (a.exponent - b.exponent)| ≤ 142 → Word64.Fits k := fun k hk => by
    rw [abs_le] at hk
    unfold Word64.Fits Word64.least Word64.greatest
    omega
  rw [hdiv, Word64.sub_of_fits (hfits _ (abs_le.2 ⟨by omega, by omega⟩)), Checked.ok_bind,
    Word64.sub_of_fits (hfits _ (abs_le.2 ⟨by omega, by omega⟩)), Checked.ok_bind,
    Word64.sub_of_fits (hfits _ (abs_le.2 ⟨by omega, by omega⟩)), Checked.ok_bind]
  obtain ⟨r, hr, -⟩ := @ofParts_val (a.negative != b.negative) c
    (a.exponent - b.exponent - shift - 1)
    (by omega) (hfits _ (abs_le.2 ⟨by omega, by omega⟩)) (by unfold Word64.greatest; omega)
  exact ⟨r, by rw [hr]; rfl⟩

/-! ## Distances -/

/-- A coefficient shifted left by `k` places has at most its digit count plus `k` digits. -/
lemma mul_ten_pow_lt {c k n : ℕ} (hc : c < 10 ^ 155) (h : digitCount c + k ≤ n) :
    c * 10 ^ k < 10 ^ n :=
  calc c * 10 ^ k < 10 ^ digitCount c * 10 ^ k :=
        Nat.mul_lt_mul_of_pos_right (lt_ten_pow_digitCount hc) (Nat.pow_pos (by norm_num))
    _ = 10 ^ (digitCount c + k) := (pow_add _ _ _).symm
    _ ≤ 10 ^ n := Nat.pow_le_pow_right (by norm_num) h

/-- Two decimals of the working width whose leading digits are at most `workingDigits + 2` places
apart, aligned at the smaller exponent, have coefficients of at most 142 digits. -/
lemma aligned_lt {big small : Decimal} (hb : big.Narrow) (hs : small.Narrow)
    (hs0 : small.coefficient ≠ 0)
    (hle : small.exponent + digitCount small.coefficient ≤
      big.exponent + digitCount big.coefficient)
    (hgap : big.exponent + digitCount big.coefficient ≤
      small.exponent + digitCount small.coefficient + (workingDigits + 2)) :
    big.coefficient * 10 ^ (big.exponent - min big.exponent small.exponent).toNat < 10 ^ 142 ∧
      small.coefficient * 10 ^ (small.exponent - min big.exponent small.exponent).toNat <
        10 ^ 142 := by
  have hdb := hb.digitCount_le
  have hds := hs.digitCount_le
  have hpos := digitCount_pos hs0 hs.lt_ten_pow
  simp only [workingDigits] at hdb hds hgap
  exact ⟨mul_ten_pow_lt hb.lt_ten_pow (by omega), mul_ten_pow_lt hs.lt_ten_pow (by omega)⟩

/-- Aligned at a common exponent, coefficients compare as the magnitudes. -/
lemma aligned_le_of_abs_val_le {x y : Decimal} {e : ℤ} (hx : e ≤ x.exponent) (hy : e ≤ y.exponent)
    (h : |x.val| ≤ |y.val|) :
    x.coefficient * 10 ^ (x.exponent - e).toNat ≤ y.coefficient * 10 ^ (y.exponent - e).toNat := by
  rw [abs_val_eq_aligned x hx, abs_val_eq_aligned y hy] at h
  exact_mod_cast le_of_mul_le_mul_right h (by positivity)

/-- A value is its sign times its magnitude. -/
lemma val_eq_sign_mul_abs (x : Decimal) : x.val = (if x.negative then -1 else 1) * |x.val| := by
  rw [abs_val]
  unfold val
  ring

/-- Two values with the same sign flag are apart by the difference of their magnitudes. -/
lemma abs_val_sub_of_negative_eq {x y : Decimal} (h : x.negative = y.negative) :
    |x.val - y.val| = |(|x.val| - |y.val|)| := by
  have hx := val_eq_sign_mul_abs x
  have hy := val_eq_sign_mul_abs y
  set u := |x.val|
  set v := |y.val|
  rw [hx, hy, h, ← mul_sub, abs_mul]
  split_ifs <;> simp

/-- Two values with different sign flags are apart by the sum of their magnitudes. -/
lemma abs_val_sub_of_negative_ne {x y : Decimal} (h : x.negative ≠ y.negative) :
    |x.val - y.val| = |x.val| + |y.val| := by
  have hx := val_eq_sign_mul_abs x
  have hy := val_eq_sign_mul_abs y
  set u := |x.val| with hu
  set v := |y.val| with hv
  have hu0 : 0 ≤ u := abs_nonneg _
  have hv0 : 0 ≤ v := abs_nonneg _
  rw [hx, hy]
  cases hnx : x.negative <;> cases hny : y.negative <;> rw [hnx, hny] at h
  · exact absurd rfl h
  · rw [if_neg Bool.false_ne_true, if_pos rfl, one_mul, neg_one_mul, sub_neg_eq_add,
      abs_of_nonneg (by linarith)]
  · rw [if_pos rfl, if_neg Bool.false_ne_true, one_mul, neg_one_mul, abs_of_nonpos (by linarith)]
    ring
  · exact absurd rfl h

/-- Everything a distance between decimals of the working width, with 64-bit exponents, can do:
return the larger magnitude itself, when the smaller is zero or lies more than
`workingDigits + 2` places below it; round the exact distance at the smaller exponent, where the
difference or sum of the two aligned coefficients gives it with at most 142 digits, so that the
difference never wraps; or fail in the exponent arithmetic, which takes an exponent past `2 ^ 61`
in magnitude. A property of the result follows from the first two cases. -/
lemma absDiff_unless {a b : Decimal} (ha : a.Narrow) (hb : b.Narrow)
    (hea : Word64.Fits a.exponent) (heb : Word64.Fits b.exponent) {P : Decimal → Prop}
    (hshort : ∀ big small : Decimal, (big = a ∧ small = b ∨ big = b ∧ small = a) →
      |small.val| ≤ |big.val| → (small.coefficient = 0 ∨
        small.exponent + digitCount small.coefficient + (workingDigits + 2) <
          big.exponent + digitCount big.coefficient) → P big.abs)
    (halign : ∀ c : ℕ, c < 10 ^ 155 →
      (c : ℚ) * 10 ^ min a.exponent b.exponent = |a.val - b.val| →
      Checked.Holds (fun f => f.InExponent ∧ ¬ (a.Moderate ∧ b.Moderate)) P
        (ofParts false c (min a.exponent b.exponent))) :
    Checked.Holds (fun f => f.InExponent ∧ ¬ (a.Moderate ∧ b.Moderate)) P (a.absDiff b) := by
  unfold absDiff
  rw [cmpMagnitude_eq_of_fits ha hb hea heb]
  by_cases hover : a.coefficient ≠ 0 ∧ b.coefficient ≠ 0 ∧ (a.LeadOverflows ∨ b.LeadOverflows)
  · rw [if_pos hover]
    exact (Checked.holds_error _).2 ⟨.of_eq_add rfl, fun hm =>
      hover.2.2.elim (hm.1.not_leadOverflows ha) (hm.2.not_leadOverflows hb)⟩
  rw [if_neg hover, Checked.ok_bind]
  -- `big` is the operand of the larger magnitude, `small` the other
  obtain ⟨big, small, hpair, hwhich, hbig, hsmall, hebig, hesmall, hle, hlead, hmod⟩ :
      ∃ big small : Decimal,
        (if compare |a.val| |b.val| = .lt then (b, a) else (a, b)) = (big, small) ∧
        (big = a ∧ small = b ∨ big = b ∧ small = a) ∧
        big.Narrow ∧ small.Narrow ∧ Word64.Fits big.exponent ∧ Word64.Fits small.exponent ∧
        |small.val| ≤ |big.val| ∧ (big.coefficient ≠ 0 → small.coefficient ≠ 0 →
          ¬ big.LeadOverflows ∧ ¬ small.LeadOverflows) ∧
        (a.Moderate ∧ b.Moderate → big.Moderate ∧ small.Moderate) := by
    by_cases hlt : compare |a.val| |b.val| = .lt
    · exact ⟨b, a, if_pos hlt, .inr ⟨rfl, rfl⟩, hb, ha, heb, hea, (compare_lt_iff_lt.1 hlt).le,
        fun hb0 ha0 => by tauto, fun hm => ⟨hm.2, hm.1⟩⟩
    · exact ⟨a, b, if_neg hlt, .inl ⟨rfl, rfl⟩, ha, hb, hea, heb,
        not_lt.1 fun h => hlt (compare_lt_iff_lt.2 h), fun ha0 hb0 => by tauto, id⟩
  rw [hpair]
  dsimp only
  by_cases hs0 : small.coefficient = 0
  · rw [if_pos (by simp [isZero, hs0])]
    exact (Checked.holds_ok _).2 (hshort big small hwhich hle (.inl hs0))
  have hb0 : big.coefficient ≠ 0 := by
    intro h
    have hz : |small.val| ≤ 0 := by rwa [(val_eq_zero_iff big).2 h, abs_zero] at hle
    exact hs0 ((val_eq_zero_iff small).1 (abs_nonpos_iff.1 hz))
  obtain ⟨hbo, hso⟩ := hlead hb0 hs0
  rw [if_neg (by simp [isZero, hs0]),
    adjusted_eq_of_not_leadOverflows hb0 hbig.lt_ten_pow hebig hbo, Checked.ok_bind,
    adjusted_eq_of_not_leadOverflows hs0 hsmall.lt_ten_pow hesmall hso, Checked.ok_bind]
  -- the larger magnitude has its leading digit no further right
  have horder : small.exponent + digitCount small.coefficient ≤
      big.exponent + digitCount big.coefficient := by
    by_contra h
    exact (abs_val_lt_of_adjusted_lt hb0 hs0 hbig.lt_ten_pow hsmall.lt_ten_pow
      (by omega)).not_ge hle
  have hdb := hbig.digitCount_le
  have hds := hsmall.digitCount_le
  simp only [workingDigits] at hdb hds
  -- moderate exponents keep the leading positions, and the smaller exponent, far inside the range
  have hmod' : a.Moderate ∧ b.Moderate →
      |big.exponent| ≤ 2 ^ 61 ∧ |small.exponent| ≤ 2 ^ 61 := hmod
  refine (Word64.sub_unless fun hm => ?_).bind ?_
  · obtain ⟨hmb, hms⟩ := hmod' hm
    rw [abs_le] at hmb hms
    unfold Word64.Fits Word64.least Word64.greatest
    omega
  rintro gap rfl
  by_cases hgap : big.exponent + digitCount big.coefficient - 1 -
      (small.exponent + digitCount small.coefficient - 1) > workingDigits + 2
  · rw [if_pos hgap]
    exact (Checked.holds_ok _).2 (hshort big small hwhich hle (.inr (by omega)))
  rw [if_neg hgap]
  obtain ⟨hbs, hss⟩ := aligned_lt hbig hsmall hs0 horder (by omega)
  simp only [workingDigits] at hgap
  -- both shifts are at most `142` places
  rw [Word64.sub_of_fits (by unfold Word64.Fits Word64.least Word64.greatest; omega),
    Checked.ok_bind,
    Word64.sub_of_fits (by unfold Word64.Fits Word64.least Word64.greatest; omega),
    Checked.ok_bind, tenPower_of_le (by unfold greatestTenPower; omega), Checked.ok_bind,
    Word512.mul_of_lt (hbs.trans (by norm_num)), Checked.ok_bind,
    tenPower_of_le (by unfold greatestTenPower; omega), Checked.ok_bind,
    Word512.mul_of_lt (hss.trans (by norm_num)), Checked.ok_bind]
  -- aligned at the smaller exponent, the coefficients stand for the two magnitudes
  have hmin : min big.exponent small.exponent = min a.exponent b.exponent := by
    rcases hwhich with ⟨rfl, rfl⟩ | ⟨rfl, rfl⟩
    · rfl
    · exact min_comm _ _
  have hbigv := abs_val_eq_aligned big (min_le_left big.exponent small.exponent)
  have hsmallv := abs_val_eq_aligned small (min_le_right big.exponent small.exponent)
  rw [hmin] at hbigv hsmallv hbs hss ⊢
  by_cases hsame : a.negative = b.negative
  · have hsub := aligned_le_of_abs_val_le (min_le_right _ _) (min_le_left _ _) hle
    rw [hmin] at hsub
    rw [if_pos hsame, Word512.sub_of_le hsub, Checked.ok_bind]
    refine halign _ ((Nat.sub_le _ _).trans_lt (hbs.trans (by norm_num))) ?_
    -- the same sign: the distance is the difference of the magnitudes
    have hdist : |a.val - b.val| = |big.val| - |small.val| := by
      rw [abs_val_sub_of_negative_eq hsame]
      rcases hwhich with ⟨rfl, rfl⟩ | ⟨rfl, rfl⟩
      · exact abs_of_nonneg (by linarith)
      · rw [abs_sub_comm]
        exact abs_of_nonneg (by linarith)
    rw [Nat.cast_sub hsub, sub_mul, ← hbigv, ← hsmallv, hdist]
  · have hsum := Nat.add_lt_add hbs hss
    rw [if_neg hsame, Word512.add_of_le (hsum.le.trans (by norm_num)), Checked.ok_bind]
    refine halign _ (hsum.trans_le (by norm_num)) ?_
    -- opposite signs: the distance is the sum of the magnitudes
    have hdist : |a.val - b.val| = |big.val| + |small.val| := by
      rw [abs_val_sub_of_negative_ne hsame]
      rcases hwhich with ⟨rfl, rfl⟩ | ⟨rfl, rfl⟩
      · rfl
      · exact add_comm _ _
    rw [Nat.cast_add, add_mul, ← hbigv, ← hsmallv, hdist]

/-- A distance between decimals of the working width keeps the working width: it is the larger
magnitude itself, or the difference or sum of the two aligned at the smaller exponent, of at most
142 digits, rounded by `ofParts`. Only the exponent arithmetic can fail, and only at an exponent
past `2 ^ 61` in magnitude. -/
lemma absDiff_width {a b : Decimal} (ha : a.Narrow) (hb : b.Narrow)
    (hea : Word64.Fits a.exponent) (heb : Word64.Fits b.exponent) :
    Checked.Holds (fun f => f.InExponent ∧ ¬ (a.Moderate ∧ b.Moderate)) Narrow (a.absDiff b) := by
  refine absDiff_unless ha hb hea heb ?_ fun c hc _ => ofParts_unless hc fun hm => fits_room hc ?_
  · -- a magnitude has the digits of its decimal
    rintro big small (⟨rfl, -⟩ | ⟨rfl, -⟩) - -
    · exact ha
    · exact hb
  · obtain ⟨hma, hmb⟩ := hm
    rw [Moderate, abs_le] at hma hmb
    rw [abs_le]
    constructor <;> omega

/-! ## Operations -/

/-- A product of decimals of the working width keeps the working width, and fails only in the
exponent arithmetic at an exponent past `2 ^ 61` in magnitude. -/
lemma mul_width {a b : Decimal} (ha : a.Narrow) (hb : b.Narrow) :
    Checked.Holds (fun f => f.InExponent ∧ ¬ (a.Moderate ∧ b.Moderate)) Narrow (a.mul b) := by
  have hprod := coefficient_mul_lt ha hb
  have hc : a.coefficient * b.coefficient < 10 ^ 155 := hprod.trans (by norm_num)
  -- moderate exponents have a sum at most `2 ^ 62` in magnitude
  have hsum : a.Moderate ∧ b.Moderate → |a.exponent + b.exponent| ≤ 2 ^ 62 := fun hm => by
    obtain ⟨hma, hmb⟩ := hm
    rw [Moderate, abs_le] at hma hmb
    rw [abs_le]
    constructor <;> omega
  rw [mul, Word512.mul_of_lt (hprod.trans (by norm_num)), Checked.ok_bind]
  refine (Word64.add_unless fun hm => Word64.fits_of_abs_le (hsum hm)).bind ?_
  rintro _ rfl
  exact ofParts_unless hc fun hm => fits_room hc (hsum hm)

lemma pow_width {x : Decimal} (hx : x.Narrow) (n : ℕ) :
    Checked.Holds Overflow.InExponent Narrow (x.pow n) :=
  (pow_holds hx n).of_add.mono (fun _ h => h) fun _ h => h.1

/-- Rounding a decimal of the working width to `D ≥ 1` digits fails only at an exponent past
`2 ^ 61` in magnitude. -/
lemma roundSig_unless {x : Decimal} (hx : x.Narrow) (D : ℕ) :
    Checked.Holds (fun f => f.InExponent ∧ ¬ (0 < D ∧ x.Moderate)) Narrow (x.roundSig D) := by
  by_cases hq : 0 < D ∧ x.Moderate
  · obtain ⟨hfit, hroom⟩ := fits_room hx.lt_ten_pow (hq.2.trans (by norm_num))
    obtain ⟨r, hr, -, -⟩ := roundSig_val hq.1 hx.lt_ten_pow hfit hroom
    have hn := (roundSig_width hx D).1 r hr
    rw [hr]
    exact (Checked.holds_ok r).2 hn
  · exact (roundSig_width hx D).mono (fun _ h => ⟨.of_eq_add h, hq⟩) fun _ h => h

/-- Comparing magnitudes of the working width shifts a coefficient by fewer than `workingDigits`
places, and fails only when a leading position leaves the 64-bit range, which takes an exponent
past `2 ^ 61` in magnitude. -/
lemma cmpMagnitude_width {a b : Decimal} (ha : a.Narrow) (hb : b.Narrow)
    (hea : Word64.Fits a.exponent) (heb : Word64.Fits b.exponent) :
    Checked.Holds (fun f => f.InExponent ∧ ¬ (a.Moderate ∧ b.Moderate)) (fun _ => True)
      (a.cmpMagnitude b) := by
  rw [cmpMagnitude_eq_of_fits ha hb hea heb]
  split_ifs with hover
  · exact (Checked.holds_error _).2 ⟨.of_eq_add rfl, fun hm =>
      hover.2.2.elim (hm.1.not_leadOverflows ha) (hm.2.not_leadOverflows hb)⟩
  · exact (Checked.holds_ok _).2 trivial

/-- Every decimal handed out has at most `workingDigits` digits, and no coefficient operation
overflows on the way. For operands of the working width, with 64-bit exponents where magnitudes
are compared, each constructor and operation either returns decimals of the working width or fails
in the exponent arithmetic, never with `Overflow.wide`: that is how a 512-bit product, sum or
difference out of range and a power of ten past `10 ^ 154` would fail. The constructors, products,
comparisons, distances and roundings fail only at an exponent past `2 ^ 61` in magnitude. A
quotient of non-zero decimals passes its digit check, so the shift of its dividend,
`workingDigits + 1 + digitCount b - digitCount a`, never goes below zero, and what can fail is only
the exponent arithmetic around a coefficient of at most 142 digits; with exponents at most `2 ^ 62`
apart it returns. -/
theorem operations_keep_working_width :
    (∀ c e, c < 2 ^ 128 →
      Checked.Holds (fun f => f.InExponent ∧ ¬ |e| ≤ 2 ^ 61) Narrow (ofScaled c e)) ∧
    (∀ hi lo e, hi < 2 ^ 128 → lo < 2 ^ 128 →
      Checked.Holds (fun f => f.InExponent ∧ ¬ |e| ≤ 2 ^ 61) Narrow (ofHalves hi lo e)) ∧
    (∀ s, Checked.Holds Overflow.InExponent (fun r => ∀ d, r = .ok d → d.Narrow) (read s).run) ∧
    (∀ a b : Decimal, a.Narrow → b.Narrow →
      Checked.Holds (fun f => f.InExponent ∧ ¬ (a.Moderate ∧ b.Moderate)) Narrow (a.mul b) ∧
      Checked.Holds Overflow.InExponent (fun o => ∀ z ∈ o, z.Narrow) (a.div? b) ∧
      (a.coefficient ≠ 0 → b.coefficient ≠ 0 →
        digitCount a.coefficient ≤ workingDigits + 1 + digitCount b.coefficient ∧
        ∃ shift c : ℕ, shift ≤ 141 ∧ c ≤ 10 ^ 142 ∧ a.div? b =
          (Word64.sub a.exponent b.exponent >>= fun e₁ => Word64.sub e₁ shift >>= fun e₂ =>
            Word64.sub e₂ 1 >>= fun e₃ => some <$> ofParts (a.negative != b.negative) c e₃)) ∧
      (b.coefficient ≠ 0 → |a.exponent - b.exponent| ≤ 2 ^ 62 → ∃ z, a.div? b = .ok (some z)) ∧
      (Word64.Fits a.exponent → Word64.Fits b.exponent →
        Checked.Holds (fun f => f.InExponent ∧ ¬ (a.Moderate ∧ b.Moderate)) (fun _ => True)
          (a.cmpMagnitude b) ∧
        Checked.Holds (fun f => f.InExponent ∧ ¬ (a.Moderate ∧ b.Moderate)) Narrow
          (a.absDiff b))) ∧
    (∀ x : Decimal, x.Narrow →
      Checked.Holds Overflow.InExponent (fun o => ∀ z ∈ o, z.Narrow) x.recip? ∧
      (∀ n, Checked.Holds Overflow.InExponent Narrow (x.pow n)) ∧
      x.abs.Narrow ∧
      ∀ D, Checked.Holds (fun f => f.InExponent ∧ ¬ (0 < D ∧ x.Moderate)) Narrow (x.roundSig D)) := by
  refine ⟨fun c e hc => ofScaled_width hc e, fun hi lo e hhi hlo => ofHalves_width hhi hlo e,
    read_width, ?_, ?_⟩
  · intro a b ha hb
    -- the digit check of a quotient: the dividend has at most `workingDigits` digits
    have hcheck : digitCount a.coefficient ≤ workingDigits + 1 + digitCount b.coefficient := by
      have hda := ha.digitCount_le
      omega
    exact ⟨mul_width ha hb, div?_width ha hb, fun ha0 hb0 => ⟨hcheck, div?_eq ha hb ha0 hb0⟩,
      fun hb0 he => div?_ok ha hb hb0 he,
      fun hea heb => ⟨cmpMagnitude_width ha hb hea heb, absDiff_width ha hb hea heb⟩⟩
  · intro x hx
    -- a magnitude has the digits of its decimal
    exact ⟨div?_width (by decide) hx, pow_width hx, hx, roundSig_unless hx⟩

/-- The square of `1.0001`, the ratio of the price grid, keeps the working width. -/
theorem operations_keep_working_width_square :
    (⟨false, 10001, -4⟩ : Decimal).Narrow ∧
      Checked.Holds Overflow.InExponent Narrow ((⟨false, 10001, -4⟩ : Decimal).pow 2) :=
  ⟨by decide, (operations_keep_working_width.2.2.2.2 _ (by decide)).2.1 2⟩

end Decimal

end TickGrid
