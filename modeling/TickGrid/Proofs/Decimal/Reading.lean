import TickGrid.Proofs.Decimal.Numeral

/-!
# Reading decimals

`Decimal.read` trims the text, reads its parts with `Decimal.readLiteral` and rounds them with
`Decimal.Literal.value`. This module says what each stage does in terms of the grammar of
`Numeral`:

* the text after the first `e` or `E` (`ExponentText`) is read first, and a text whose exponent
  is not a sign and digits (`SignedDigits`) or whose digits are worth `10 ^ 9` or more
  (`ExponentTooLarge`) fails with that fault, whatever the mantissa;
* otherwise the text is read exactly when it is a valid numeral (`readLiteral_text`,
  `exists_numeral_of_readLiteral`), and fails with `invalidDigit` when it is not;
* the parts of a valid numeral give its value rounded half-even to `workingDigits` significant
  digits (`value_literal`), even past the `keptDigits` digits kept before the sticky digit.

`read_spec` puts the stages together: every outcome of reading, for every text.
-/

namespace TickGrid

open Text

/-- `e` and `E` mark an exponent. -/
def IsExponentMark (c : Char) : Prop := c = 'e' ∨ c = 'E'

instance (c : Char) : Decidable (IsExponentMark c) := inferInstanceAs (Decidable (_ ∨ _))

/-- `x` is the text after the first exponent mark of `t`. -/
def ExponentText (t x : List Char) : Prop :=
  ∃ m c, t = m ++ c :: x ∧ (∀ d ∈ m, ¬ IsExponentMark d) ∧ IsExponentMark c

/-- A sign, then one or more ASCII digits. -/
def SignedDigits (x : List Char) : Prop := ∃ (sg : SignMark) (ds : List Char), x = sg.text ++ ds ∧ IsDigits ds

/-- A sign, then ASCII digits worth `10 ^ 9` or more. -/
def ExponentTooLarge (x : List Char) : Prop :=
  ∃ (sg : SignMark) (ds : List Char), x = sg.text ++ ds ∧ IsDigits ds ∧ 10 ^ 9 ≤ digitValue ds

lemma exists_of_bind_eq_ok {ε α β : Type} {x : Except ε α} {f : α → Except ε β} {b : β}
    (h : x >>= f = .ok b) : ∃ a, x = .ok a ∧ f a = .ok b := by
  cases x with
  | error e => cases h
  | ok a => exact ⟨a, rfl, h⟩

/-! ## Splitting at the first separator -/

section Span

variable {α : Type} {p : α → Bool}

lemma span_of_forall {l : List α} (h : ∀ a ∈ l, p a = true) : l.span p = (l, []) := by
  rw [List.span_eq_takeWhile_dropWhile, List.takeWhile_eq_self_iff.2 h,
    List.dropWhile_eq_nil_iff.2 h]

lemma span_append_cons {m x : List α} {c : α} (hm : ∀ a ∈ m, p a = true) (hc : p c = false) :
    (m ++ c :: x).span p = (m, c :: x) := by
  rw [List.span_eq_takeWhile_dropWhile, List.takeWhile_append_of_pos hm,
    List.dropWhile_append_of_pos hm, List.takeWhile_cons, List.dropWhile_cons]
  simp [hc]

/-- A list either passes the test throughout, or has a first element that fails it. -/
lemma forall_or_first_not (p : α → Bool) (l : List α) :
    (∀ a ∈ l, p a = true) ∨ ∃ m c x, l = m ++ c :: x ∧ (∀ a ∈ m, p a = true) ∧ p c = false := by
  induction l with
  | nil => exact .inl (by simp)
  | cons a l ih =>
    cases ha : p a with
    | false => exact .inr ⟨[], a, l, rfl, by simp, ha⟩
    | true =>
      rcases ih with hl | ⟨m, c, x, rfl, hm, hc⟩
      · exact .inl (List.forall_mem_cons.2 ⟨ha, hl⟩)
      · exact .inr ⟨a :: m, c, x, rfl, List.forall_mem_cons.2 ⟨ha, hm⟩, hc⟩

end Span

namespace Decimal

/-! ## The sign -/

lemma dropSign_signText_append (sg : SignMark) {l : List Char}
    (hl : ∀ c ∈ l.head?, c ≠ '+' ∧ c ≠ '-') : dropSign (sg.text ++ l) = l := by
  cases sg with
  | none =>
    cases l with
    | nil => rfl
    | cons c l =>
      obtain ⟨hp, hm⟩ := hl c (by simp)
      simp [SignMark.text, dropSign, hp, hm]
  | plus => simp [SignMark.text, dropSign]
  | minus => simp [SignMark.text, dropSign]

/-- Every text is its sign followed by what `dropSign` leaves, and starts with `-` exactly when
that sign is a minus. -/
lemma signText_append_dropSign (t : List Char) :
    ∃ sg : SignMark, t = sg.text ++ dropSign t ∧ (sg = .minus ↔ t.head? = some '-') := by
  match t with
  | [] => exact ⟨.none, rfl, by simp⟩
  | c :: r =>
    by_cases hp : c = '+'
    · subst hp
      exact ⟨.plus, by simp [SignMark.text, dropSign], by simp⟩
    · by_cases hm : c = '-'
      · subst hm
        exact ⟨.minus, by simp [SignMark.text, dropSign], by simp⟩
      · exact ⟨.none, by simp [SignMark.text, dropSign, hp, hm], by simp [hm]⟩

lemma head?_signText_append {sg : SignMark} {l : List Char} (hl : ∀ c ∈ l.head?, c ≠ '-') :
    (sg.text ++ l).head? = some '-' ↔ sg = .minus := by
  cases sg with
  | none =>
    cases l with
    | nil => simp [SignMark.text]
    | cons c l => simpa [SignMark.text] using hl c (by simp)
  | plus => simp [SignMark.text]
  | minus => simp [SignMark.text]

/-- A digit string does not start with a sign. -/
lemma head?_of_isDigits {ds : List Char} (hds : IsDigits ds) :
    ∀ c ∈ ds.head?, c ≠ '+' ∧ c ≠ '-' := by
  intro c hc
  have := ne_of_isDigit (hds.2 c (List.mem_of_mem_head? hc))
  exact ⟨this.1, this.2.1⟩

/-! ## The exponent -/

lemma splitExponent_of_forall {u : List Char} (hu : ∀ c ∈ u, ¬ IsExponentMark c) :
    splitExponent u = (u, none) := by
  unfold splitExponent
  rw [span_of_forall (fun c hc => by simpa [IsExponentMark, not_or] using hu c hc)]

lemma splitExponent_append {m x : List Char} {c : Char} (hm : ∀ d ∈ m, ¬ IsExponentMark d)
    (hc : IsExponentMark c) : splitExponent (m ++ c :: x) = (m, some x) := by
  unfold splitExponent
  rw [span_append_cons (fun d hd => by simpa [IsExponentMark, not_or] using hm d hd)
    (by simpa [IsExponentMark, or_iff_not_imp_left] using hc)]

/-- The text after the first mark is what `splitExponent` finds. -/
lemma exponentText_iff_splitExponent {u x : List Char} :
    ExponentText u x ↔ (splitExponent u).2 = some x := by
  constructor
  · rintro ⟨m, c, rfl, hm, hc⟩
    rw [splitExponent_append hm hc]
  · intro h
    rcases forall_or_first_not (fun c => decide (¬ IsExponentMark c)) u with hu | ⟨m, c, y, rfl, hm, hc⟩
    · rw [splitExponent_of_forall (by simpa using hu)] at h
      cases h
    · simp only [decide_eq_true_eq, decide_eq_false_iff_not, not_not] at hm hc
      rw [splitExponent_append hm hc] at h
      cases h
      exact ⟨m, c, rfl, hm, hc⟩

lemma exponentText_cons {a : Char} {l x : List Char} (ha : ¬ IsExponentMark a) :
    ExponentText (a :: l) x ↔ ExponentText l x := by
  constructor
  · rintro ⟨m, c, h, hm, hc⟩
    cases m with
    | nil =>
      obtain ⟨rfl, -⟩ := List.cons.inj h
      exact absurd hc ha
    | cons b m =>
      obtain ⟨-, rfl⟩ := List.cons.inj h
      exact ⟨m, c, rfl, fun d hd => hm d (by simp [hd]), hc⟩
  · rintro ⟨m, c, rfl, hm, hc⟩
    exact ⟨a :: m, c, rfl, by simpa [ha] using hm, hc⟩

/-- The exponent text of a text is found after its sign is dropped. -/
lemma exponentText_iff {t x : List Char} :
    ExponentText t x ↔ (splitExponent (dropSign t)).2 = some x := by
  obtain ⟨sg, ht, -⟩ := signText_append_dropSign t
  rw [← exponentText_iff_splitExponent]
  conv_lhs => rw [ht]
  cases sg with
  | none => rfl
  | plus => exact exponentText_cons (by decide)
  | minus => exact exponentText_cons (by decide)

lemma exponentText_ne_nil {t x : List Char} (h : ExponentText t x) : t ≠ [] := by
  obtain ⟨m, c, rfl, -, -⟩ := h
  simp

/-- A signed digit string, read as an exponent: its signed value, or out of range from `10 ^ 9`. -/
lemma readExponent_signText_append (sg : SignMark) {ds : List Char} (hds : IsDigits ds) :
    readExponent (sg.text ++ ds) =
      if digitValue ds < 10 ^ 9 then .ok (sg.apply (digitValue ds)) else .error .exponentOutOfRange := by
  have hdrop : dropSign (sg.text ++ ds) = ds := dropSign_signText_append sg (head?_of_isDigits hds)
  have hhead : (sg.text ++ ds).head? = some '-' ↔ sg = .minus :=
    head?_signText_append (fun c hc => (head?_of_isDigits hds c hc).2)
  have hne : ds.isEmpty = false := by simpa using hds.1
  have hall : ds.all Char.isDigit = true := List.all_eq_true.2 hds.2
  unfold readExponent
  simp only [hdrop, hne, hall, Bool.not_true, Bool.or_false, Bool.false_eq_true, if_false,
    digitValue_dropWhile_zero, SignMark.apply]
  by_cases hlt : digitValue ds < 10 ^ 9
  · have hlen := (digitValue_lt_iff_length_le hds.2).1 hlt
    rw [if_neg (by omega), if_pos hlt]
    simp only [hhead]
  · have hlen : ¬ (ds.dropWhile (· = '0')).length ≤ 9 :=
      fun h => hlt ((digitValue_lt_iff_length_le hds.2).2 h)
    rw [if_pos (by omega), if_neg hlt]

lemma readExponent_of_not_signedDigits {x : List Char} (hx : ¬ SignedDigits x) :
    readExponent x = .error .invalidExponent := by
  obtain ⟨sg, hsg, -⟩ := signText_append_dropSign x
  have hnot : ¬ IsDigits (dropSign x) := fun h => hx ⟨sg, _, hsg, h⟩
  unfold readExponent
  rw [if_pos]
  simp only [IsDigits, not_and_or, not_not, ne_eq] at hnot
  rcases hnot with h | h
  · simp [h]
  · push Not at h
    obtain ⟨c, hc, hcd⟩ := h
    simp only [Bool.or_eq_true, List.isEmpty_iff, Bool.not_eq_eq_eq_not, Bool.not_true,
      List.all_eq_false]
    exact .inr ⟨c, hc, by simpa using hcd⟩

/-! ## The mantissa -/

lemma splitPoint_of_forall {m : List Char} (hm : ∀ c ∈ m, c ≠ '.') : splitPoint m = (m, []) := by
  unfold splitPoint
  rw [span_of_forall (fun c hc => by simpa using hm c hc)]

lemma splitPoint_append {i f : List Char} (hi : ∀ c ∈ i, c ≠ '.') :
    splitPoint (i ++ '.' :: f) = (i, f) := by
  unfold splitPoint
  rw [span_append_cons (fun c hc => by simpa using hi c hc) (by simp)]

/-- Once the mantissa is split at its first point, it is read when the two sides together are
one or more digits. -/
lemma readMantissa_of_splitPoint {m i f : List Char} (h : splitPoint m = (i, f)) :
    readMantissa m = if IsDigits (i ++ f) then .ok (i, f) else .error .invalidDigit := by
  unfold readMantissa
  rw [h]
  by_cases hd : IsDigits (i ++ f)
  · have hne : (i.isEmpty && f.isEmpty) = false := by
      simpa [List.isEmpty_iff] using hd.1
    have hall : (i ++ f).all Char.isDigit = true := List.all_eq_true.2 hd.2
    simp [hne, hall, hd]
    rfl
  · rw [if_neg hd]
    by_cases hnil : i ++ f = []
    · obtain ⟨rfl, rfl⟩ := List.append_eq_nil_iff.1 hnil
      rfl
    · have hne : (i.isEmpty && f.isEmpty) = false := by simpa [List.isEmpty_iff] using hnil
      have hall : (i ++ f).all Char.isDigit = false :=
        Bool.eq_false_iff.2 fun h => hd ⟨hnil, List.all_eq_true.1 h⟩
      simp [hne, hall]
      rfl

lemma readMantissa_eq_ok_iff {m i f : List Char} :
    readMantissa m = .ok (i, f) ↔
      ∃ fr, m = i ++ Numeral.pointText fr ∧ fr.getD [] = f ∧ IsDigits (i ++ f) := by
  constructor
  · intro h
    rcases forall_or_first_not (fun c => decide (c ≠ '.')) m with hm | ⟨i', c, f', rfl, hi, hc⟩
    · rw [readMantissa_of_splitPoint (splitPoint_of_forall (by simpa using hm))] at h
      split_ifs at h with hd
      cases h
      exact ⟨none, by simp [Numeral.pointText], rfl, hd⟩
    · simp only [decide_eq_false_iff_not, not_not] at hc
      subst hc
      rw [readMantissa_of_splitPoint (splitPoint_append (by simpa using hi))] at h
      split_ifs at h with hd
      cases h
      exact ⟨some f, rfl, rfl, hd⟩
  · rintro ⟨fr, rfl, rfl, hd⟩
    have hi : ∀ c ∈ i, c ≠ '.' := fun c hc => (ne_of_isDigit (hd.2 c (by simp [hc]))).2.2.1
    cases fr with
    | none =>
      simp only [Numeral.pointText, Option.getD_none, List.append_nil] at hd hi ⊢
      rw [readMantissa_of_splitPoint (splitPoint_of_forall hi), if_pos (by simpa using hd)]
    | some f =>
      simp only [Numeral.pointText, Option.getD_some] at hd ⊢
      rw [readMantissa_of_splitPoint (splitPoint_append hi), if_pos hd]

lemma readMantissa_eq_error {m : List Char} {e : ReadError} (h : readMantissa m = .error e) :
    e = .invalidDigit := by
  rw [readMantissa_of_splitPoint rfl] at h
  split_ifs at h
  cases h
  rfl

/-! ## The parts of a text -/

/-- Reading a text that is not empty: the exponent after the first mark, then the mantissa
before it. -/
lemma readLiteral_of_ne_nil {t : List Char} (ht : t ≠ []) :
    readLiteral t = ((match (splitExponent (dropSign t)).2 with
      | some x => readExponent x
      | none => .ok 0) >>= fun v => readMantissa (splitExponent (dropSign t)).1 >>= fun p =>
        .ok ⟨t.head? = some '-', p.1, p.2, v⟩) := by
  have hne : t.isEmpty = false := by simpa using ht
  unfold readLiteral
  simp only [hne, Bool.false_eq_true, if_false]
  rcases (splitExponent (dropSign t)).2 with _ | x <;> rfl

/-- A signed digit string read as an exponent is worth less than `10 ^ 9`. -/
lemma readExponent_eq_ok {x : List Char} {v : ℤ} (h : readExponent x = .ok v) :
    ∃ (sg : SignMark) (ds : List Char), x = sg.text ++ ds ∧ IsDigits ds ∧
      digitValue ds < 10 ^ 9 ∧ sg.apply (digitValue ds) = v := by
  by_cases hs : SignedDigits x
  · obtain ⟨sg, ds, rfl, hds⟩ := hs
    rw [readExponent_signText_append sg hds] at h
    split_ifs at h with hlt
    cases h
    exact ⟨sg, ds, rfl, hds, hlt, rfl⟩
  · rw [readExponent_of_not_signedDigits hs] at h
    cases h

/-! ## Numerals -/

end Decimal

namespace Numeral

open Decimal

lemma mantissa_ne_nil {n : Numeral} (hn : n.Valid) : n.mantissa ≠ [] := by
  intro h
  have hd := hn.digits.1
  simp only [mantissa, List.append_eq_nil_iff] at h
  obtain ⟨hi, hp⟩ := h
  cases hf : n.fraction with
  | none => simp [digits, fractionDigits, hi, hf] at hd
  | some f => simp [hf, pointText] at hp

/-- A mantissa holds digits and a point. -/
lemma mem_mantissa {n : Numeral} (hn : n.Valid) {c : Char} (hc : c ∈ n.mantissa) :
    c.isDigit = true ∨ c = '.' := by
  simp only [mantissa, List.mem_append] at hc
  rcases hc with hc | hc
  · exact .inl (hn.digits.2 c (by simp [digits, hc]))
  · cases hf : n.fraction with
    | none => simp [hf, pointText] at hc
    | some f =>
      simp only [hf, pointText, List.mem_cons] at hc
      rcases hc with rfl | hc
      · exact .inr rfl
      · exact .inl (hn.digits.2 c (by simp [digits, fractionDigits, hf, hc]))

lemma head?_mantissa_append {n : Numeral} (hn : n.Valid) (rest : List Char) :
    ∀ c ∈ (n.mantissa ++ rest).head?, c ≠ '+' ∧ c ≠ '-' := by
  intro c hc
  rw [List.head?_append_of_ne_nil _ (mantissa_ne_nil hn)] at hc
  rcases mem_mantissa hn (List.mem_of_mem_head? hc) with h | rfl
  · exact ⟨(ne_of_isDigit h).1, (ne_of_isDigit h).2.1⟩
  · decide

lemma not_isExponentMark_of_mem_mantissa {n : Numeral} (hn : n.Valid) :
    ∀ c ∈ n.mantissa, ¬ IsExponentMark c := by
  intro c hc hmark
  rcases mem_mantissa hn hc with h | rfl
  · have := ne_of_isDigit h
    rcases hmark with rfl | rfl
    · exact this.2.2.2.1 rfl
    · exact this.2.2.2.2 rfl
  · rcases hmark with h | h <;> cases h

lemma isExponentMark_mark (x : ExponentPart) : IsExponentMark x.mark := by
  unfold ExponentPart.mark IsExponentMark
  split <;> simp

lemma text_ne_nil {n : Numeral} (hn : n.Valid) : n.text ≠ [] := by
  simp [text, mantissa_ne_nil hn]

/-- A valid numeral is read to its parts. -/
theorem readLiteral_text {n : Numeral} (hn : n.Valid) : readLiteral n.text = .ok n.literal := by
  have hdrop : dropSign n.text = n.mantissa ++ (n.exponent.map ExponentPart.text).getD [] :=
    dropSign_signText_append _ (head?_mantissa_append hn _)
  have hneg : decide (n.text.head? = some '-') = decide (n.sign = .minus) :=
    decide_eq_decide.2 (head?_signText_append fun c hc => (head?_mantissa_append hn _ c hc).2)
  have hman : readMantissa n.mantissa = .ok (n.integer, n.fractionDigits) :=
    readMantissa_eq_ok_iff.2 ⟨n.fraction, rfl, rfl, hn.digits⟩
  rw [readLiteral_of_ne_nil (text_ne_nil hn), hdrop, hneg]
  cases hx : n.exponent with
  | none =>
    simp only [Option.map_none, Option.getD_none, List.append_nil]
    rw [splitExponent_of_forall (not_isExponentMark_of_mem_mantissa hn)]
    simp only [hman]
    simp [literal, exponentValue, hx]
    rfl
  | some x =>
    have hxv := hn.exponent x (by simp [hx])
    simp only [Option.map_some, Option.getD_some, ExponentPart.text]
    rw [splitExponent_append (not_isExponentMark_of_mem_mantissa hn) (isExponentMark_mark x)]
    simp only [readExponent_signText_append x.sign hxv.digits, if_pos hxv.value_lt, hman]
    simp [literal, exponentValue, hx, ExponentPart.value]
    rfl

end Numeral

namespace Decimal

/-- Whatever is read is the text of a valid numeral, whose parts are what is read. -/
theorem exists_numeral_of_readLiteral {t : List Char} {l : Literal} (h : readLiteral t = .ok l) :
    ∃ n : Numeral, n.Valid ∧ n.text = t ∧ n.literal = l := by
  have ht : t ≠ [] := by
    rintro rfl
    cases h
  obtain ⟨sg, hsg, hminus⟩ := signText_append_dropSign t
  have hneg : decide (sg = .minus) = decide (t.head? = some '-') := decide_eq_decide.2 hminus
  rw [readLiteral_of_ne_nil ht] at h
  rcases forall_or_first_not (fun c => decide (¬ IsExponentMark c)) (dropSign t) with
    hu | ⟨m, c, x, hdt, hm, hc⟩
  · -- no exponent: the whole unsigned text is the mantissa
    rw [splitExponent_of_forall (by simpa using hu)] at h
    obtain ⟨v, hv, h⟩ := exists_of_bind_eq_ok h
    change Except.ok 0 = Except.ok v at hv
    cases hv
    obtain ⟨⟨i, f⟩, hman, hl⟩ := exists_of_bind_eq_ok h
    cases hl
    obtain ⟨fr, hm, rfl, hd⟩ := readMantissa_eq_ok_iff.1 hman
    refine ⟨⟨sg, i, fr, none⟩, ⟨hd, by simp⟩, ?_, ?_⟩
    · simp only [Numeral.text, Numeral.mantissa, Option.map_none, Option.getD_none,
        List.append_nil]
      rw [← hm, ← hsg]
    · simp [Numeral.literal, Numeral.exponentValue, Numeral.fractionDigits, hneg]
  · -- an exponent after the first mark `c`
    simp only [decide_eq_true_eq, decide_eq_false_iff_not, not_not] at hm hc
    rw [hdt, splitExponent_append hm hc] at h
    obtain ⟨v, hv, h⟩ := exists_of_bind_eq_ok h
    obtain ⟨⟨i, f⟩, hman, hl⟩ := exists_of_bind_eq_ok h
    cases hl
    obtain ⟨fr, rfl, rfl, hd⟩ := readMantissa_eq_ok_iff.1 hman
    obtain ⟨sgx, ds, rfl, hds, hlt, rfl⟩ := readExponent_eq_ok hv
    have hmark : (⟨decide (c = 'E'), sgx, ds⟩ : ExponentPart).mark = c := by
      rcases hc with rfl | rfl <;> rfl
    refine ⟨⟨sg, i, fr, some ⟨decide (c = 'E'), sgx, ds⟩⟩, ⟨hd, ?_⟩, ?_, ?_⟩
    · simp only [Option.mem_def, Option.some.injEq, forall_eq']
      exact ⟨hds, hlt⟩
    · simp only [Numeral.text, Numeral.mantissa, Option.map_some, Option.getD_some,
        ExponentPart.text, hmark]
      rw [hsg, hdt]
    · simp [Numeral.literal, Numeral.exponentValue, Numeral.fractionDigits, ExponentPart.value,
        hneg]

/-- A text whose exponent is not a sign and digits fails there, whatever its mantissa. -/
lemma readLiteral_of_not_signedDigits {t x : List Char} (hx : ExponentText t x)
    (hs : ¬ SignedDigits x) : readLiteral t = .error .invalidExponent := by
  rw [readLiteral_of_ne_nil (exponentText_ne_nil hx), exponentText_iff.1 hx]
  simp only [readExponent_of_not_signedDigits hs]
  rfl

/-- A text whose exponent digits are worth `10 ^ 9` or more fails there, whatever its mantissa. -/
lemma readLiteral_of_exponentTooLarge {t x : List Char} (hx : ExponentText t x)
    (hl : ExponentTooLarge x) : readLiteral t = .error .exponentOutOfRange := by
  obtain ⟨sg, ds, rfl, hds, hbig⟩ := hl
  rw [readLiteral_of_ne_nil (exponentText_ne_nil hx), exponentText_iff.1 hx]
  simp only [readExponent_signText_append sg hds, if_neg (not_lt.2 hbig)]
  rfl

/-- A text with a readable exponent that is no numeral fails in its mantissa. -/
lemma readLiteral_of_not_numeral {t : List Char} (ht : t ≠ [])
    (hexp : ∀ x, ExponentText t x → SignedDigits x ∧ ¬ ExponentTooLarge x)
    (hn : ¬ ∃ n : Numeral, n.Valid ∧ n.text = t) : readLiteral t = .error .invalidDigit := by
  -- the exponent is read
  obtain ⟨v, hv⟩ : ∃ v, (match (splitExponent (dropSign t)).2 with
      | some x => readExponent x
      | none => .ok 0) = Except.ok v := by
    rcases hx : (splitExponent (dropSign t)).2 with _ | x
    · exact ⟨0, rfl⟩
    · obtain ⟨⟨sg, ds, rfl, hds⟩, hsmall⟩ := hexp x (exponentText_iff.2 hx)
      exact ⟨sg.apply (digitValue ds), by
        show readExponent _ = _
        rw [readExponent_signText_append sg hds,
          if_pos (not_le.1 fun h => hsmall ⟨sg, ds, rfl, hds, h⟩)]⟩
  -- so the mantissa is not
  rw [readLiteral_of_ne_nil ht, hv]
  cases hm : readMantissa (splitExponent (dropSign t)).1 with
  | error e =>
    rw [readMantissa_eq_error hm]
    rfl
  | ok p =>
    refine absurd ?_ hn
    have hread : readLiteral t = .ok ⟨t.head? = some '-', p.1, p.2, v⟩ := by
      rw [readLiteral_of_ne_nil ht, hv, hm]
      rfl
    obtain ⟨n, hnv, htext, -⟩ := exists_numeral_of_readLiteral hread
    exact ⟨n, hnv, htext⟩

/-- Every text is read in exactly one of five ways: empty, a bad exponent, an exponent out of
range, a bad mantissa, or the parts of a valid numeral. -/
lemma readLiteral_cases (t : List Char) :
    (t = [] ∧ readLiteral t = .error .empty) ∨
    (∃ x, ExponentText t x ∧ ¬ SignedDigits x ∧ readLiteral t = .error .invalidExponent) ∨
    (∃ x, ExponentText t x ∧ ExponentTooLarge x ∧
      readLiteral t = .error .exponentOutOfRange) ∨
    (t ≠ [] ∧ (∀ x, ExponentText t x → SignedDigits x ∧ ¬ ExponentTooLarge x) ∧
      (¬ ∃ n : Numeral, n.Valid ∧ n.text = t) ∧ readLiteral t = .error .invalidDigit) ∨
    (∃ n : Numeral, n.Valid ∧ n.text = t ∧ readLiteral t = .ok n.literal) := by
  by_cases ht : t = []
  · subst ht
    exact .inl ⟨rfl, rfl⟩
  by_cases hbad : ∃ x, ExponentText t x ∧ ¬ SignedDigits x
  · obtain ⟨x, hx, hs⟩ := hbad
    exact .inr (.inl ⟨x, hx, hs, readLiteral_of_not_signedDigits hx hs⟩)
  by_cases hbig : ∃ x, ExponentText t x ∧ ExponentTooLarge x
  · obtain ⟨x, hx, hl⟩ := hbig
    exact .inr (.inr (.inl ⟨x, hx, hl, readLiteral_of_exponentTooLarge hx hl⟩))
  have hexp : ∀ x, ExponentText t x → SignedDigits x ∧ ¬ ExponentTooLarge x :=
    fun x hx => ⟨not_not.1 fun hs => hbad ⟨x, hx, hs⟩, fun hl => hbig ⟨x, hx, hl⟩⟩
  by_cases hn : ∃ n : Numeral, n.Valid ∧ n.text = t
  · obtain ⟨n, hnv, rfl⟩ := hn
    exact .inr (.inr (.inr (.inr ⟨n, hnv, rfl, n.readLiteral_text hnv⟩)))
  · exact .inr (.inr (.inr (.inl ⟨ht, hexp, hn, readLiteral_of_not_numeral ht hexp hn⟩)))

/-! ## The value -/

/-- The sticky digit of a tail of digits is one exactly when the tail is worth something. -/
lemma sticky_eq {tail : List Char} (h : ∀ d ∈ tail, d.isDigit = true) :
    (if tail.any (fun d => decide (d ≠ '0')) = true then 1 else 0) =
      if digitValue tail = 0 then 0 else 1 := by
  have hz := digitValue_eq_zero_iff h
  by_cases ht0 : digitValue tail = 0
  · rw [if_pos ht0, if_neg]
    simpa [List.any_eq_true] using hz.1 ht0
  · rw [if_neg ht0, if_pos]
    have hne := mt hz.2 ht0
    push Not at hne
    simpa [List.any_eq_true] using hne

/-- The first `k + 1` of more than `k` digits, led by one other than zero, are worth at least
`10 ^ k` and less than `10 ^ (k + 1)`. -/
lemma digitValue_take_bounds {c : Char} {rest : List Char} (k : ℕ) (hk : k ≤ rest.length)
    (hdig : ∀ d ∈ c :: rest, d.isDigit = true) (h0 : c ≠ '0') :
    10 ^ k ≤ digitValue ((c :: rest).take (k + 1)) ∧
      digitValue ((c :: rest).take (k + 1)) < 10 ^ (k + 1) := by
  have hlen : (rest.take k).length = k := by simp [hk]
  rw [List.take_succ_cons]
  constructor
  · calc 10 ^ k = 10 ^ (rest.take k).length := by rw [hlen]
      _ ≤ digitValue (c :: rest.take k) := ten_pow_le_digitValue (hdig c (by simp)) h0
  · calc digitValue (c :: rest.take k) < 10 ^ (c :: rest.take k).length :=
          digitValue_lt fun d hd => hdig d ((List.take_sublist _ _).cons_cons c |>.subset hd)
      _ = 10 ^ (k + 1) := by rw [List.length_cons, hlen]

/-- Past `keptDigits` significant digits the reader keeps `keptDigits` of them and one sticky
digit; `roundedQuotient_sticky` makes that the rounding of the whole. -/
theorem ofDigits_val {negative : Bool} {sig : List Char} {e : ℤ}
    (hdig : ∀ c ∈ sig, c.isDigit = true) (hhead : ∀ c ∈ sig.head?, c ≠ '0') (hne : sig ≠ [])
    (he : Word64.least ≤ e) (he' : e + sig.length ≤ Word64.greatest) :
    ∃ d, ofDigits negative sig e = .ok d ∧
      d.val = roundSignificant workingDigits
        ((if negative then -1 else 1) * digitValue sig * 10 ^ e) ∧
      d.coefficient < 10 ^ workingDigits := by
  obtain ⟨c, rest, rfl⟩ := List.exists_cons_of_ne_nil hne
  have hlo : 10 ^ rest.length ≤ digitValue (c :: rest) :=
    ten_pow_le_digitValue (hdig c (by simp)) (hhead c (by simp))
  have hhi : digitValue (c :: rest) < 10 ^ (rest.length + 1) := digitValue_lt hdig
  have hkept : keptDigits = 71 := rfl
  have he₁ : e + (rest.length + 1 : ℕ) ≤ Word64.greatest := by simpa using he'
  unfold ofDigits
  rw [hkept]
  by_cases hlong : (c :: rest).length > 71
  · -- more than `keptDigits` digits: the first 71, then a sticky digit for the rest
    rw [if_pos hlong]
    dsimp only
    simp only [List.length_cons, gt_iff_lt] at hlong
    set k := (List.drop 71 (c :: rest)).length with hkdef
    have hk : k = rest.length - 70 := by simp [hkdef]
    set h := digitValue (List.take 71 (c :: rest))
    set t := digitValue (List.drop 71 (c :: rest))
    have hsplit : digitValue (c :: rest) = h * 10 ^ k + t := by
      conv_lhs => rw [← List.take_append_drop 71 (c :: rest)]
      rw [digitValue_append]
    have ht : t < 10 ^ k := digitValue_lt fun d hd => hdig d (List.mem_of_mem_drop hd)
    have hh : 10 ^ 70 ≤ h ∧ h < 10 ^ 71 :=
      digitValue_take_bounds 70 (by omega) hdig (hhead c (by simp))
    have hsticky : (if (List.drop 71 (c :: rest)).any (fun x => decide (x ≠ '0')) = true then 1
        else 0) = if t = 0 then 0 else 1 :=
      sticky_eq fun d hd => hdig d (List.mem_of_mem_drop hd)
    have hs : (if t = 0 then 0 else 1) ≤ 1 := by split_ifs <;> omega
    rw [hsticky, Word64.add_of_fits ⟨by omega, by omega⟩, Checked.ok_bind,
      Word512.mul_of_lt (by omega), Checked.ok_bind, Word512.add_of_le (by omega), Checked.ok_bind]
    have hc' : 10 ^ 71 ≤ h * 10 + (if t = 0 then 0 else 1) ∧
        h * 10 + (if t = 0 then 0 else 1) < 10 ^ 72 := by omega
    obtain ⟨d, hd, hval, hcoef, -⟩ := @ofParts_val negative (h * 10 + if t = 0 then 0 else 1)
      (e + ((k : ℤ) - 1)) (by omega) ⟨by omega, by omega⟩
      (by have := (digitCount_le_iff (by omega)).2 hc'.2; omega)
    refine ⟨d, hd, ?_, hcoef⟩
    rw [hval, mul_assoc, mul_assoc, roundSignificant_sign_mul, roundSignificant_sign_mul]
    congr 1
    have hwd : workingDigits = 70 := rfl
    rw [roundSignificant_natCast_mul_zpow (L := 72) hc'.1 hc'.2 (by norm_num),
      roundSignificant_natCast_mul_zpow (L := rest.length + 1) (by simpa using hlo) hhi
        (by omega), hwd, if_neg (show ¬ (72 ≤ 70) by decide),
      if_neg (show ¬ (rest.length + 1 ≤ 70) by omega), hsplit, show 72 - 70 = 2 from rfl,
      show rest.length + 1 - 70 = k + 1 by omega, roundedQuotient_sticky h ht]
    congr 2
    push_cast
    omega
  · -- at most `keptDigits` digits: rounded as they are
    rw [if_neg hlong]
    simp only [List.length_cons, gt_iff_lt, not_lt] at hlong
    have hc : digitValue (c :: rest) < 10 ^ 155 :=
      hhi.trans_le (Nat.pow_le_pow_right (by norm_num) (by omega))
    have hcount : digitCount (digitValue (c :: rest)) ≤ rest.length + 1 :=
      (digitCount_le_iff hc).2 hhi
    obtain ⟨d, hd, hval, hcoef, -⟩ := @ofParts_val negative _ _ hc
      ⟨he, by simp at he'; omega⟩ (by simp at he'; omega)
    exact ⟨d, hd, hval, hcoef⟩

/-- A coefficient other than zero with at most `workingDigits` digits is kept as it is. -/
lemma ofParts_of_lt {negative : Bool} {c : ℕ} (e : ℤ) (hc0 : c ≠ 0) (hc : c < 10 ^ workingDigits) :
    ofParts negative c e = .ok ⟨negative, c, e⟩ := by
  rw [ofParts, if_neg hc0]
  exact roundSig_of_le ((digitCount_le_iff (hc.trans (by decide))).2 hc)

end Decimal

namespace Numeral

open Decimal

lemma apply_cast (sg : SignMark) (v : ℕ) :
    ((sg.apply v : ℤ) : ℚ) = (if decide (sg = .minus) then -1 else 1) * v := by
  cases sg <;> simp [SignMark.apply]

lemma abs_exponentValue_lt {n : Numeral} (hn : n.Valid) : |n.exponentValue| < 10 ^ 9 := by
  cases hx : n.exponent with
  | none => simp [exponentValue, hx]
  | some x =>
    have hlt := (hn.exponent x (by simp [hx])).value_lt
    simp only [exponentValue, hx, Option.map_some, Option.getD_some, ExponentPart.value,
      SignMark.apply]
    split_ifs <;> simp <;> omega

lemma digits_length_le_text (n : Numeral) : n.digits.length ≤ n.text.length := by
  cases hf : n.fraction <;> simp [digits, fractionDigits, text, mantissa, pointText, hf] <;> omega

/-- Reading the parts of a numeral: the scale is its exponent, and its digits behind their leading
zeros are the significant ones. -/
lemma value_literal_eq {n : Numeral} (hn : n.Valid) (hlen : n.digits.length < 2 ^ 62) :
    n.literal.value = if (n.digits.dropWhile (· = '0')).isEmpty then pure zero
      else ofDigits (n.sign = .minus) (n.digits.dropWhile (· = '0')) n.scale := by
  have hexp := abs_exponentValue_lt hn
  have hfrac : n.fractionDigits.length ≤ n.digits.length := by simp [digits]
  rw [abs_lt] at hexp
  have hscale : Word64.sub n.exponentValue n.fractionDigits.length = .ok n.scale :=
    Word64.sub_of_fits (by unfold Word64.Fits Word64.least Word64.greatest; omega)
  unfold Literal.value
  simp only [literal, hscale, Checked.ok_bind]
  rfl

/-- The parts of a valid numeral give its value rounded half-even to `workingDigits` significant
digits, a zero giving the canonical zero, when its digits are fewer than `2 ^ 62`: then the
exponent arithmetic stays within 64 bits. -/
theorem value_literal {n : Numeral} (hn : n.Valid) (hlen : n.digits.length < 2 ^ 62) :
    ∃ d, n.literal.value = .ok d ∧ d.val = roundSignificant workingDigits n.value ∧
      d.coefficient < 10 ^ workingDigits ∧ (n.value = 0 → d = zero) := by
  have hexp := abs_exponentValue_lt hn
  have hfrac : n.fractionDigits.length ≤ n.digits.length := by simp [digits]
  rw [abs_lt] at hexp
  have hsig : ∀ c ∈ n.digits.dropWhile (· = '0'), c.isDigit = true :=
    fun c hc => hn.digits.2 c ((List.dropWhile_sublist _).subset hc)
  have hval : n.value = (if decide (n.sign = .minus) then -1 else 1) *
      digitValue (n.digits.dropWhile (· = '0')) * 10 ^ n.scale := by
    rw [value, apply_cast, digitValue_dropWhile_zero]
  rw [value_literal_eq hn hlen]
  cases hd : n.digits.dropWhile (· = '0') with
  | nil =>
    refine ⟨zero, rfl, ?_, by simp [zero, workingDigits], fun _ => rfl⟩
    rw [hval, hd]
    simp [zero, val]
  | cons c rest =>
    rw [hd] at hsig hval
    have hlen' : (c :: rest).length ≤ n.digits.length := by
      rw [← hd]
      exact List.length_dropWhile_le _ _
    obtain ⟨d, hd', hdval, hcoef⟩ := @ofDigits_val (decide (n.sign = .minus)) _ n.scale hsig (by simpa using (head_dropWhile_zero hd).1) (List.cons_ne_nil c rest)
      (by unfold Word64.least scale; omega) (by unfold Word64.greatest scale; omega)
    refine ⟨d, hd', by rw [hdval, hval], hcoef, fun h0 => ?_⟩
    -- a leading digit other than zero makes the value non-zero
    have hpos := (Nat.pow_pos (by norm_num : 0 < 10)).trans_le
      (ten_pow_le_digitValue (hsig c (by simp)) (head_dropWhile_zero hd).1 : 10 ^ rest.length ≤ _)
    have hne : (if decide (n.sign = .minus) then (-1 : ℚ) else 1) * digitValue (c :: rest) *
        10 ^ n.scale ≠ 0 :=
      mul_ne_zero (mul_ne_zero (by split_ifs <;> norm_num) (by exact_mod_cast hpos.ne'))
        (zpow_ne_zero _ (by norm_num))
    exact absurd (hval ▸ h0) hne

/-- A numeral whose digits are worth less than `10 ^ workingDigits`, and not zero, is read with no
rounding: its sign, the value of its digits and its scale, trailing zeros kept. -/
theorem value_literal_exact {n : Numeral} (hn : n.Valid) (hlen : n.digits.length < 2 ^ 62)
    (h0 : digitValue n.digits ≠ 0) (hlt : digitValue n.digits < 10 ^ workingDigits) :
    n.literal.value = .ok ⟨n.sign = .minus, digitValue n.digits, n.scale⟩ := by
  rw [value_literal_eq hn hlen, ← digitValue_dropWhile_zero]
  rw [← digitValue_dropWhile_zero] at h0 hlt
  cases hd : n.digits.dropWhile (· = '0') with
  | nil => exact absurd (by rw [hd]; rfl) h0
  | cons c rest =>
    rw [hd] at h0 hlt
    -- the leading digit is not a zero, so there are at most `workingDigits` digits
    have hlo : 10 ^ rest.length ≤ digitValue (c :: rest) :=
      ten_pow_le_digitValue (hn.digits.2 c (head_dropWhile_zero hd).2) (head_dropWhile_zero hd).1
    have hshort : rest.length < workingDigits :=
      (Nat.pow_lt_pow_iff_right (by norm_num)).1 (hlo.trans_lt hlt)
    have hkept : ¬ (c :: rest).length > keptDigits := by
      simp only [keptDigits, List.length_cons]
      omega
    rw [if_neg (by simp), ofDigits, if_neg hkept]
    exact ofParts_of_lt _ h0 hlt

end Numeral

namespace Decimal

/-! ## Reading a text -/

lemma readLiteral_eq_empty_iff {t : List Char} : readLiteral t = .error .empty ↔ t = [] := by
  refine ⟨fun h => ?_, fun h => by subst h; rfl⟩
  rcases readLiteral_cases t with ⟨ht, _⟩ | ⟨_, _, _, h'⟩ | ⟨_, _, _, h'⟩ | ⟨_, _, _, h'⟩ |
    ⟨_, _, _, h'⟩
  · exact ht
  all_goals (rw [h'] at h; cases h)

lemma readLiteral_eq_invalidExponent_iff {t : List Char} :
    readLiteral t = .error .invalidExponent ↔ ∃ x, ExponentText t x ∧ ¬ SignedDigits x := by
  refine ⟨fun h => ?_, fun ⟨x, hx, hs⟩ => readLiteral_of_not_signedDigits hx hs⟩
  rcases readLiteral_cases t with ⟨_, h'⟩ | ⟨x, hx, hs, _⟩ | ⟨_, _, _, h'⟩ | ⟨_, _, _, h'⟩ |
    ⟨_, _, _, h'⟩
  · rw [h'] at h; cases h
  · exact ⟨x, hx, hs⟩
  all_goals (rw [h'] at h; cases h)

lemma readLiteral_eq_exponentOutOfRange_iff {t : List Char} :
    readLiteral t = .error .exponentOutOfRange ↔ ∃ x, ExponentText t x ∧ ExponentTooLarge x := by
  refine ⟨fun h => ?_, fun ⟨x, hx, hl⟩ => readLiteral_of_exponentTooLarge hx hl⟩
  rcases readLiteral_cases t with ⟨_, h'⟩ | ⟨_, _, _, h'⟩ | ⟨x, hx, hl, _⟩ | ⟨_, _, _, h'⟩ |
    ⟨_, _, _, h'⟩
  · rw [h'] at h; cases h
  · rw [h'] at h; cases h
  · exact ⟨x, hx, hl⟩
  all_goals (rw [h'] at h; cases h)

lemma readLiteral_eq_invalidDigit_iff {t : List Char} :
    readLiteral t = .error .invalidDigit ↔ t ≠ [] ∧
      (∀ x, ExponentText t x → SignedDigits x ∧ ¬ ExponentTooLarge x) ∧
      ¬ ∃ n : Numeral, n.Valid ∧ n.text = t := by
  refine ⟨fun h => ?_, fun ⟨ht, hexp, hn⟩ => readLiteral_of_not_numeral ht hexp hn⟩
  rcases readLiteral_cases t with ⟨_, h'⟩ | ⟨_, _, _, h'⟩ | ⟨_, _, _, h'⟩ | ⟨ht, hexp, hn, _⟩ |
    ⟨_, _, _, h'⟩
  · rw [h'] at h; cases h
  · rw [h'] at h; cases h
  · rw [h'] at h; cases h
  · exact ⟨ht, hexp, hn⟩
  · rw [h'] at h; cases h

lemma read_run (s : String) : (read s).run = match readLiteral (Text.trimBlank s.toList) with
    | .error e => .ok (.error e)
    | .ok l => Except.ok <$> l.value := by
  unfold read
  rcases readLiteral (Text.trimBlank s.toList) with e | l <;> rfl

/-- The faults of reading are the faults of `readLiteral`: the arithmetic after it overflows or
succeeds. -/
lemma read_eq_error_iff (s : String) (e : ReadError) :
    (read s).run = .ok (.error e) ↔ readLiteral (Text.trimBlank s.toList) = .error e := by
  rw [read_run]
  cases readLiteral (Text.trimBlank s.toList) with
  | error e' => simp
  | ok l =>
    refine ⟨fun h => ?_, fun h => by cases h⟩
    change Except.ok <$> l.value = _ at h
    cases hv : l.value with
    | error o => rw [hv] at h; cases h
    | ok d => rw [hv] at h; cases h

lemma length_trimBlank_le (l : List Char) : (Text.trimBlank l).length ≤ l.length := by
  unfold Text.trimBlank
  rw [List.length_reverse]
  calc _ ≤ ((l.dropWhile Text.isBlank).reverse).length := List.length_dropWhile_le _ _
    _ ≤ l.length := by simpa using List.length_dropWhile_le _ _

/-- Every outcome of reading a decimal, for every text. After blanks are trimmed from both ends,
the text is read exactly when it is a valid `Numeral` (if it has fewer than `2 ^ 62`
characters, so that exponents stay within 64 bits), and then to the value of the numeral rounded
half-even to `workingDigits` significant digits, a zero of either sign giving the canonical zero.
Otherwise the fault is `empty` for a blank text; `invalidExponent` or `exponentOutOfRange` when
the text after the first `e` or `E` is not a sign and digits, or its digits are worth `10 ^ 9` or
more, whatever comes before it; and `invalidDigit` for any other text. -/
theorem read_outcomes (s : String) :
    ((read s).run = .ok (.error .empty) ↔ Text.trimBlank s.toList = []) ∧
    ((read s).run = .ok (.error .invalidExponent) ↔
      ∃ x, ExponentText (Text.trimBlank s.toList) x ∧ ¬ SignedDigits x) ∧
    ((read s).run = .ok (.error .exponentOutOfRange) ↔
      ∃ x, ExponentText (Text.trimBlank s.toList) x ∧ ExponentTooLarge x) ∧
    ((read s).run = .ok (.error .invalidDigit) ↔ Text.trimBlank s.toList ≠ [] ∧
      (∀ x, ExponentText (Text.trimBlank s.toList) x → SignedDigits x ∧ ¬ ExponentTooLarge x) ∧
      ¬ ∃ n : Numeral, n.Valid ∧ n.text = Text.trimBlank s.toList) ∧
    ((∃ d, (read s).run = .ok (.ok d)) →
      ∃ n : Numeral, n.Valid ∧ n.text = Text.trimBlank s.toList) ∧
    (∀ n : Numeral, n.Valid → n.text = Text.trimBlank s.toList → s.length < 2 ^ 62 →
      ∃ d, (read s).run = .ok (.ok d) ∧ d.val = roundSignificant workingDigits n.value ∧
        d.coefficient < 10 ^ workingDigits ∧ (n.value = 0 → d = zero)) := by
  set t := Text.trimBlank s.toList
  refine ⟨by rw [read_eq_error_iff]; exact readLiteral_eq_empty_iff,
    by rw [read_eq_error_iff]; exact readLiteral_eq_invalidExponent_iff,
    by rw [read_eq_error_iff]; exact readLiteral_eq_exponentOutOfRange_iff,
    by rw [read_eq_error_iff]; exact readLiteral_eq_invalidDigit_iff, ?_, ?_⟩
  · rintro ⟨d, hd⟩
    rw [read_run] at hd
    cases hl : readLiteral t with
    | error e =>
      rw [hl] at hd
      cases hd
    | ok l =>
      obtain ⟨n, hn, htext, -⟩ := exists_numeral_of_readLiteral hl
      exact ⟨n, hn, htext⟩
  · intro n hn htext hs
    have hlen : n.digits.length < 2 ^ 62 :=
      calc n.digits.length ≤ n.text.length := n.digits_length_le_text
        _ = t.length := by rw [htext]
        _ ≤ s.toList.length := length_trimBlank_le _
        _ < 2 ^ 62 := by rw [String.length_toList]; exact hs
    obtain ⟨d, hd, hval, hcoef, hzero⟩ := n.value_literal hn hlen
    refine ⟨d, ?_, hval, hcoef, hzero⟩
    rw [read_run, show readLiteral t = .ok n.literal from htext ▸ n.readLiteral_text hn]
    show Except.ok <$> n.literal.value = _
    rw [hd]
    rfl

example : (read "hello").run = .ok (.error .invalidExponent) ∧
    (read "+-5").run = .ok (.error .invalidDigit) ∧
    (read " -1.50E+2 ").run = .ok (.ok ⟨true, 150, 0⟩) := by
  decide +kernel

end Decimal

end TickGrid
