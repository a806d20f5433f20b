import TickGrid.Proofs.Decimal.HalfEven
import TickGrid.Decimal.Reader

/-!
# Numerals

The written form of a decimal number as a grammar: an optional sign, a mantissa of ASCII digits
with at most one point and at least one digit, and an optional exponent made of `e` or `E`, an
optional sign and one or more digits worth less than `10 ^ 9`. A `Numeral` records one spelling,
`Numeral.text` writes it, `Numeral.Valid` is the grammar and `Numeral.value` the rational number
it denotes.

Digit strings are read by `Text.digitValue`, most significant digit first. Its lemmas here say
how concatenation, leading zeros and length bound the value; `digitValue_lt_iff_length_le` is the
exponent limit of the grammar read both ways: digits worth less than `10 ^ 9` are those with at most
nine digits after their leading zeros.
-/

namespace TickGrid

namespace Text

/-- One or more ASCII digits. -/
def IsDigits (ds : List Char) : Prop := ds ≠ [] ∧ ∀ c ∈ ds, c.isDigit = true

instance (ds : List Char) : Decidable (IsDigits ds) :=
  decidable_of_iff (ds ≠ [] ∧ ds.all Char.isDigit = true) (and_congr_right fun _ => List.all_eq_true)

/-! ## Digit characters -/

lemma digit_lt_ten {c : Char} (h : c.isDigit = true) : c.toNat - '0'.toNat < 10 := by
  simp only [Char.isDigit, Bool.and_eq_true, decide_eq_true_eq] at h
  obtain ⟨h₁, h₂⟩ := h
  simp only [Char.toNat]
  simp only [UInt32.le_iff_toNat_le] at h₁ h₂
  simp at h₁ h₂ ⊢
  omega

lemma one_le_digit {c : Char} (h : c.isDigit = true) (h0 : c ≠ '0') : 1 ≤ c.toNat - '0'.toNat := by
  have hne : c.toNat ≠ '0'.toNat := fun e => h0 (Char.ext (UInt32.toNat_inj.1 e))
  simp only [Char.isDigit, Bool.and_eq_true, decide_eq_true_eq] at h
  obtain ⟨h₁, h₂⟩ := h
  simp only [Char.toNat] at hne ⊢
  simp only [UInt32.le_iff_toNat_le] at h₁ h₂
  simp at h₁ h₂ hne ⊢
  omega

/-- A digit is neither a sign, a point nor an exponent mark. -/
lemma ne_of_isDigit {c : Char} (h : c.isDigit = true) :
    c ≠ '+' ∧ c ≠ '-' ∧ c ≠ '.' ∧ c ≠ 'e' ∧ c ≠ 'E' := by
  refine ⟨?_, ?_, ?_, ?_, ?_⟩ <;> rintro rfl <;> simp at h

/-! ## The value of a digit string -/

/-- Reading on from a value `n` shifts it left by the digits read. -/
lemma foldl_digit (n : ℕ) (ds : List Char) :
    ds.foldl (fun n c => 10 * n + (c.toNat - '0'.toNat)) n = n * 10 ^ ds.length + digitValue ds := by
  induction ds generalizing n with
  | nil => simp [digitValue]
  | cons c ds ih =>
    simp only [digitValue, List.foldl_cons] at ih ⊢
    rw [ih, ih (10 * 0 + _), List.length_cons, pow_succ]
    ring

@[simp] lemma digitValue_nil : digitValue [] = 0 := rfl

lemma digitValue_cons (c : Char) (ds : List Char) :
    digitValue (c :: ds) = (c.toNat - '0'.toNat) * 10 ^ ds.length + digitValue ds := by
  rw [digitValue, List.foldl_cons, foldl_digit]
  ring

lemma digitValue_append (a b : List Char) :
    digitValue (a ++ b) = digitValue a * 10 ^ b.length + digitValue b := by
  rw [digitValue, List.foldl_append, foldl_digit]
  rfl

/-- Leading zeros do not count. -/
lemma digitValue_dropWhile_zero (ds : List Char) :
    digitValue (ds.dropWhile (· = '0')) = digitValue ds := by
  induction ds with
  | nil => rfl
  | cons c ds ih =>
    rw [List.dropWhile_cons]
    by_cases hc : c = '0'
    · subst hc
      simp [ih, digitValue_cons]
    · simp [hc]

lemma digitValue_lt {ds : List Char} (h : ∀ c ∈ ds, c.isDigit = true) :
    digitValue ds < 10 ^ ds.length := by
  induction ds with
  | nil => simp
  | cons c ds ih =>
    have hc := digit_lt_ten (h c (by simp))
    have hds := ih (fun d hd => h d (by simp [hd]))
    rw [digitValue_cons, List.length_cons, pow_succ]
    nlinarith

/-- A digit string with a leading digit other than zero is worth at least `10 ^ (length - 1)`. -/
lemma ten_pow_le_digitValue {c : Char} {ds : List Char} (hc : c.isDigit = true) (h0 : c ≠ '0') :
    10 ^ ds.length ≤ digitValue (c :: ds) := by
  rw [digitValue_cons]
  calc 10 ^ ds.length ≤ (c.toNat - '0'.toNat) * 10 ^ ds.length :=
        Nat.le_mul_of_pos_left _ (one_le_digit hc h0)
    _ ≤ _ := Nat.le_add_right _ _

/-- The first digit left after the leading zeros is not a zero. -/
lemma head_dropWhile_zero {ds rest : List Char} {c : Char} (hd : ds.dropWhile (· = '0') = c :: rest) :
    c ≠ '0' ∧ c ∈ ds := by
  induction ds with
  | nil => simp at hd
  | cons a ds ih =>
    rw [List.dropWhile_cons] at hd
    split_ifs at hd with ha
    · exact ⟨(ih hd).1, List.mem_cons_of_mem _ (ih hd).2⟩
    · simp only [decide_eq_true_eq] at ha
      obtain ⟨rfl, rfl⟩ := List.cons.inj hd
      exact ⟨ha, List.mem_cons_self⟩

lemma digitValue_eq_zero_iff {ds : List Char} (h : ∀ c ∈ ds, c.isDigit = true) :
    digitValue ds = 0 ↔ ∀ c ∈ ds, c = '0' := by
  constructor
  · intro h0
    rw [← digitValue_dropWhile_zero] at h0
    have hnil : ds.dropWhile (· = '0') = [] := by
      cases hd : ds.dropWhile (· = '0') with
      | nil => rfl
      | cons c rest =>
        obtain ⟨hne, hmem⟩ := head_dropWhile_zero hd
        have hlo : 10 ^ rest.length ≤ digitValue (c :: rest) := ten_pow_le_digitValue (h c hmem) hne
        have hpos : 0 < 10 ^ rest.length := Nat.pow_pos (by norm_num)
        rw [hd] at h0
        omega
    simpa using List.dropWhile_eq_nil_iff.1 hnil
  · intro hz
    rw [← digitValue_dropWhile_zero, List.dropWhile_eq_nil_iff.2 (by simpa using hz)]
    rfl

/-- The exponent limit of the grammar, both ways: ASCII digits are worth less than `10 ^ 9` exactly
when at most nine of them follow their leading zeros. -/
lemma digitValue_lt_iff_length_le {ds : List Char} (h : ∀ c ∈ ds, c.isDigit = true) :
    digitValue ds < 10 ^ 9 ↔ (ds.dropWhile (· = '0')).length ≤ 9 := by
  rw [← digitValue_dropWhile_zero]
  have hdig : ∀ c ∈ ds.dropWhile (· = '0'), c.isDigit = true :=
    fun c hc => h c ((List.dropWhile_sublist _).subset hc)
  cases hd : ds.dropWhile (· = '0') with
  | nil => simp
  | cons c rest =>
    rw [hd] at hdig
    have hne := (head_dropWhile_zero hd).1
    have hlo : 10 ^ rest.length ≤ digitValue (c :: rest) :=
      ten_pow_le_digitValue (hdig c (by simp)) hne
    have hhi := digitValue_lt hdig
    rw [List.length_cons]
    constructor
    · intro hlt
      by_contra hlen
      have : 10 ^ 9 ≤ 10 ^ rest.length := Nat.pow_le_pow_right (by norm_num) (by omega)
      omega
    · intro hlen
      exact hhi.trans_le (Nat.pow_le_pow_right (by norm_num) (by simpa using hlen))

end Text

open Text

/-! ## The grammar -/

/-- The sign written before digits. -/
inductive SignMark where
  /-- No sign. -/
  | none
  /-- `+`. -/
  | plus
  /-- `-`. -/
  | minus
  deriving DecidableEq, Repr

namespace SignMark

/-- The characters of the sign. -/
def text : SignMark → List Char
  | none => []
  | plus => ['+']
  | minus => ['-']

/-- The integer `n` with this sign. -/
def apply (sg : SignMark) (n : ℕ) : ℤ := if sg = minus then -n else n

end SignMark

/-- An exponent as written: the mark `e` or `E`, an optional sign, digits. -/
structure ExponentPart where
  /-- The mark is `E` rather than `e`. -/
  upper : Bool
  /-- The sign after the mark. -/
  sign : SignMark
  /-- The digits. -/
  digits : List Char
  deriving DecidableEq, Repr

namespace ExponentPart

/-- The character that marks the exponent. -/
def mark (x : ExponentPart) : Char := if x.upper then 'E' else 'e'

/-- The characters of the exponent, mark first. -/
def text (x : ExponentPart) : List Char := x.mark :: (x.sign.text ++ x.digits)

/-- The signed value of the digits. -/
def value (x : ExponentPart) : ℤ := x.sign.apply (digitValue x.digits)

/-- The grammar of an exponent: one or more ASCII digits, worth less than `10 ^ 9`. -/
structure Valid (x : ExponentPart) : Prop where
  digits : IsDigits x.digits
  value_lt : digitValue x.digits < 10 ^ 9

instance (x : ExponentPart) : Decidable x.Valid :=
  decidable_of_iff (IsDigits x.digits ∧ digitValue x.digits < 10 ^ 9)
    ⟨fun h => ⟨h.1, h.2⟩, fun h => ⟨h.1, h.2⟩⟩

end ExponentPart

/-- A decimal numeral as written: a sign, the digits before the point, the digits after it when
there is a point, and an exponent. -/
structure Numeral where
  /-- The sign before the mantissa. -/
  sign : SignMark
  /-- The digits before the point. -/
  integer : List Char
  /-- The digits after the point, if there is one. -/
  fraction : Option (List Char)
  /-- The exponent, if there is one. -/
  exponent : Option ExponentPart
  deriving DecidableEq, Repr

namespace Numeral

/-- A point and the digits after it, or nothing. -/
def pointText : Option (List Char) → List Char
  | none => []
  | some f => '.' :: f

/-- The characters of the mantissa. -/
def mantissa (n : Numeral) : List Char := n.integer ++ pointText n.fraction

/-- The characters of the numeral. -/
def text (n : Numeral) : List Char :=
  n.sign.text ++ (n.mantissa ++ (n.exponent.map ExponentPart.text).getD [])

/-- The digits after the point; none without a point. -/
def fractionDigits (n : Numeral) : List Char := n.fraction.getD []

/-- All digits of the mantissa. -/
def digits (n : Numeral) : List Char := n.integer ++ n.fractionDigits

/-- The exponent's value, zero without one. -/
def exponentValue (n : Numeral) : ℤ := (n.exponent.map ExponentPart.value).getD 0

/-- The power of ten of the last digit. -/
def scale (n : Numeral) : ℤ := n.exponentValue - n.fractionDigits.length

/-- The rational number the numeral denotes. -/
def value (n : Numeral) : ℚ := (n.sign.apply (digitValue n.digits) : ℚ) * 10 ^ n.scale

/-- The grammar: the mantissa holds at least one digit and nothing but digits besides its point,
and the exponent, if any, is valid. -/
structure Valid (n : Numeral) : Prop where
  digits : IsDigits n.digits
  exponent : ∀ x ∈ n.exponent, x.Valid

instance (n : Numeral) : Decidable n.Valid :=
  decidable_of_iff (IsDigits n.digits ∧ ∀ x ∈ n.exponent, x.Valid)
    ⟨fun h => ⟨h.1, h.2⟩, fun h => ⟨h.1, h.2⟩⟩

/-- The parts of the text that reading takes before any arithmetic. -/
def literal (n : Numeral) : Decimal.Literal :=
  ⟨n.sign = .minus, n.integer, n.fractionDigits, n.exponentValue⟩

example : Valid ⟨.minus, ['1', '2'], some ['5'], some ⟨true, .plus, ['3']⟩⟩ ∧
    ¬ Valid ⟨.none, [], some [], none⟩ ∧ ¬ Valid ⟨.none, ['1'], none, some ⟨false, .none, []⟩⟩ := by
  decide +kernel

end Numeral

end TickGrid
