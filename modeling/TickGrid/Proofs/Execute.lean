import TickGrid.Proofs.Session
import TickGrid.Proofs.Grid.Display
import TickGrid.Proofs.Grid.Reciprocal

/-!
# What a command answers

`Command.executeWith logBase` carries out a command with its tick searches started from the
estimates of `logBase`; `Command.execute` runs it with the platform logarithm. Let the logarithm
stay above the bottom of the 32-bit range on positive normal doubles (`Grid.LogBaseSound`), and let
the price of the command have at most `workingDigits` digits and a 64-bit exponent
(`Command.Narrow`), as every decimal has. Then every command is answered as `Command.Answers` says,
or overflows. It fails on a range error exactly when it is rejected (`Command.Rejects`): a tick past
`maxTick`, a price that is not positive, or a positive price outside the bounds of the grid. The
steps after the first check of a conversion never fail: the price of the tick found, the reciprocal,
the accuracy, the round-trip check, and the rows of the examples. A command that fails has written
nothing; `quit` ends the session, and every other command that is answered lets it go on. The one
overflow is the comparison of a positive price whose leading digit stands past the 64-bit exponent
range with the bounds of the grid (`Command.Overflows`): the reader never builds such a price, but
the arithmetic does.

Prices near the grid are written (`Grid.showPrice_ok_of_near`, `Grid.showPrice_ok_of_near_grid`),
and so are the reports (`Report.examples_ok`, `Report.tick_ok`, `Report.price_ok`). The conversions
of ticks and prices on the grid return (`TickConversion.ofTickWith_ok`,
`PriceConversion.ofPriceWith_ok`), `Grid.tickOfPriceWith_of_out` and
`Grid.tickOfPriceWith_of_leadOverflows` say how the search treats a price off the grid, and
`Command.executeWith_error_iff_rejects` gives the outcome of every command.
-/

namespace TickGrid

open Decimal

/-! ## Writing prices and reports -/

namespace Grid

/-- A positive decimal of at most `workingDigits` digits within a factor two of a value between
`2 ^ -113` and `2 ^ 113` is written: its leading digit stands within `170` places of the point. -/
lemma showPrice_ok_of_near {x : Decimal} {k V : ℚ} (hx : x.Positive workingDigits)
    (h : Near k x.val V) (hk : k ≤ 2) (hV : 1 / 2 ^ 113 ≤ V) (hV' : V ≤ 2 ^ 113) :
    ∃ s, showPrice x = .ok s := by
  obtain ⟨hlo, hhi⟩ := h.ten_pow_bounds hx.val_pos hk
    ((by norm_num : (1 : ℚ) / 10 ^ 99 ≤ 1 / 2 ^ 113).trans hV) (hV'.trans (by norm_num))
  have h₁ := hx.exponent_le hhi
  have h₂ := hx.le_exponent hlo
  have hd := Narrow.digitCount_le hx.coefficient_lt
  have hd₀ := digitCount_pos hx.coefficient_pos.ne' (Narrow.lt_ten_pow hx.coefficient_lt)
  unfold workingDigits at h₂ hd
  exact showPrice_ok hx.coefficient_lt (.inr (abs_le.2 ⟨by omega, by omega⟩))

/-- A positive decimal within a factor two of the power `1.0001 ^ t` of a grid tick is written. -/
lemma showPrice_ok_of_near_grid {x : Decimal} {k : ℚ} {t : ℤ} (ht : t.natAbs ≤ maxTick)
    (hx : x.Positive workingDigits) (h : Near k x.val (base.val ^ t)) (hk : k ≤ 2) :
    ∃ s, showPrice x = .ok s := by
  have hb := base_val_zpow_bounds ht
  exact showPrice_ok_of_near hx h hk
    ((by norm_num : (1 : ℚ) / 2 ^ 113 ≤ 1 / 2 ^ 112).trans hb.1) (hb.2.trans (by norm_num))

/-- The price of a grid tick is written. -/
lemma showPrice_priceOfTick {t : ℤ} {p : Decimal} (ht : t.natAbs ≤ maxTick)
    (hp : (priceOfTick t).run = .ok (.ok p)) : ∃ s, showPrice p = .ok s := by
  obtain ⟨p', hp', hpos, -, hnear⟩ := priceOfTick_near ht
  rw [hp'] at hp
  cases hp
  exact showPrice_ok_of_near_grid ht (hpos.mono (by decide)) hnear
    (priceFactor_le.trans (by norm_num))

end Grid

/-- Computations that each return make a list that returns. -/
lemma Checked.mapM_ok {α β : Type} {f : α → Checked β} {xs : List α}
    (h : ∀ x ∈ xs, ∃ y, f x = .ok y) : ∃ ys, xs.mapM f = .ok ys := by
  induction xs with
  | nil => exact ⟨[], rfl⟩
  | cons x xs ih =>
    obtain ⟨y, hy⟩ := h x List.mem_cons_self
    obtain ⟨ys, hys⟩ := ih fun x' hx' => h x' (List.mem_cons_of_mem x hx')
    exact ⟨y :: ys, by rw [List.mapM_cons, hy, Checked.ok_bind, hys, Checked.ok_bind]; rfl⟩

namespace Report

/-- The examples are written and let the session go on: every row holds the price of a grid
tick. -/
lemma examples_ok : ∃ o, Report.examples = .ok o ∧ o.result = .ok .proceed := by
  obtain ⟨rows, hrows, hgrid⟩ := exampleRows_ok
  have hlines : ∃ lines, rows.mapM exampleLine = .ok lines := Checked.mapM_ok fun row hrow => by
    obtain ⟨s, hs⟩ := Grid.showPrice_priceOfTick (hgrid row hrow).1 (hgrid row hrow).2
    exact ⟨_, by rw [exampleLine, hs, Checked.ok_bind]; rfl⟩
  obtain ⟨lines, hlines⟩ := hlines
  refine ⟨⟨examplesHeading ++ String.join lines ++ "\n", .ok .proceed⟩, ?_, rfl⟩
  rw [Report.examples, hrows, Checked.ok_bind]
  dsimp only
  rw [hlines, Checked.ok_bind]
  rfl

/-- The report of a tick whose two prices are written is written. -/
lemma tick_ok {c : TickConversion} (hp : ∃ s, Grid.showPrice c.price = .ok s)
    (hi : ∃ s, Grid.showPrice c.inverse = .ok s) : ∃ s, Report.tick c = .ok s := by
  obtain ⟨s₁, h₁⟩ := hp
  obtain ⟨s₂, h₂⟩ := hi
  exact ⟨_, by rw [Report.tick, h₁, Checked.ok_bind, h₂, Checked.ok_bind]; rfl⟩

/-- The report of a price whose three prices are written is written. -/
lemma price_ok {c : PriceConversion} (hp : ∃ s, Grid.showPrice c.price = .ok s)
    (hv : ∃ s, Grid.showPrice c.verified = .ok s) (hi : ∃ s, Grid.showPrice c.inverse = .ok s) :
    ∃ s, Report.price c = .ok s := by
  obtain ⟨s₁, h₁⟩ := hp
  obtain ⟨s₂, h₂⟩ := hv
  obtain ⟨s₃, h₃⟩ := hi
  exact ⟨_, by
    rw [Report.price, h₁, Checked.ok_bind, h₂, Checked.ok_bind, h₃, Checked.ok_bind]
    rfl⟩

end Report

/-! ## Converting a tick -/

namespace Grid

variable {logBase : Binary64 → ℤ}

/-- The round-trip check of a grid tick returns: the search from its price finds a tick. -/
lemma roundTripOkWith_ok (hlog : LogBaseSound logBase) {t : ℤ} (ht : t.natAbs ≤ maxTick) :
    ∃ b, roundTripOkWith logBase t = .ok b := by
  obtain ⟨p, hp, hppos, -, -⟩ := priceOfTick_near ht
  have hr := inRange_of_priceOfTick ht hp
  have hcoeff : p.coefficient < 10 ^ workingDigits :=
    hppos.coefficient_lt.trans_le (Nat.pow_le_pow_right (by norm_num) (by decide))
  have hback := tickOfPriceWith_eq_of_inCell hlog hcoeff hr
    (inCell_priceOfTick (by omega) (by omega) hp)
  exact ⟨_, by rw [roundTripOkWith, run_bind_of_ok _ hp, hback, Checked.ok_bind]; rfl⟩

end Grid

namespace TickConversion

open Grid

variable {logBase : Binary64 → ℤ}

/-- The conversion of a grid tick returns, and its report is written. -/
lemma ofTickWith_ok (hlog : LogBaseSound logBase) {t : ℤ} (ht : t.natAbs ≤ maxTick) :
    ∃ c, (ofTickWith logBase t).run = .ok (.ok c) ∧ ∃ s, Report.tick c = .ok s := by
  obtain ⟨p, q, hp, hq, hqpos, hqnear⟩ := reciprocal_priceOfTick_near ht
  obtain ⟨b, hb⟩ := roundTripOkWith_ok hlog ht
  refine ⟨⟨t, p, q, b⟩, ?_, Report.tick_ok (showPrice_priceOfTick ht hp) ?_⟩
  · rw [ofTickWith, run_bind_of_ok _ hp, run_bind_of_ok _ hq,
      run_bind_of_ok _ (run_lift_eq_ok.2 hb)]
    rfl
  · -- the reciprocal is near the power of `-t`, another tick of the grid
    exact showPrice_ok_of_near_grid (t := -t) (by rwa [Int.natAbs_neg]) (hqpos.mono (by decide))
      hqnear (inverseFactor_le.trans (by norm_num))

/-- A tick past `maxTick` is out of bounds before anything is computed. -/
lemma ofTickWith_of_lt {t : ℤ} (ht : maxTick < t.natAbs) :
    (ofTickWith logBase t).run = .ok (.error (.tickOutOfBounds t)) := by
  rw [ofTickWith, run_bind_of_error _ (priceOfTick_of_lt ht)]

end TickConversion

/-! ## Searching the tick of a price -/

namespace Grid

variable {logBase : Binary64 → ℤ}

/-- A price that is not positive is rejected before anything is computed. -/
lemma tickOfPriceWith_of_not_pos {p : Decimal} (hpos : p.isPositive = false) :
    (tickOfPriceWith logBase p).run = .ok (.error .priceNotPositive) := by
  unfold tickOfPriceWith
  simp only [hpos, Bool.not_false, if_true]
  rfl

section Positive

variable {p : Decimal} (hp : p.Narrow) (he : Word64.Fits p.exponent) (hpos : p.isPositive = true)
include hp he hpos

/-- A positive price against a bound of the grid: the comparison overflows exactly when the
price's leading digit stands past the 64-bit range, and is otherwise the order of the values. -/
lemma cmp_bound {b : Decimal} (hb : b.Working) :
    p.cmp b = if p.LeadOverflows then .error .add else .ok (compare p.val b.val) := by
  have hp0 : p.coefficient ≠ 0 := by
    simp only [isPositive, Bool.and_eq_true, Bool.not_eq_true', bne_iff_ne] at hpos
    exact hpos.2
  have hneg : p.isNegative = b.isNegative := by
    simp only [isPositive, Bool.and_eq_true, Bool.not_eq_true'] at hpos
    simp [isNegative, hpos.1, hb.positive.negative_eq]
  have hiff : p.CmpOverflows b ↔ p.LeadOverflows :=
    ⟨fun h => h.2.2.2.resolve_right hb.bounded.fits.2,
      fun h => ⟨hp0, hb.positive.coefficient_pos.ne', hneg, .inl h⟩⟩
  rw [cmp_eq_of_fits hp hb.positive.coefficient_lt he hb.bounded.fits.1]
  by_cases htop : p.LeadOverflows
  · rw [if_pos (hiff.2 htop), if_pos htop]
  · rw [if_neg (fun h => htop (hiff.1 h)), if_neg htop]

/-- The search overflows on a positive price whose leading digit stands past the 64-bit range:
the comparison with the least price overflows. -/
lemma tickOfPriceWith_of_leadOverflows (htop : p.LeadOverflows) :
    (tickOfPriceWith logBase p).run = .error .add := by
  obtain ⟨lo, hi, hlo, hhi, hlow, -, -, -⟩ := bounds_ok
  unfold tickOfPriceWith
  simp only [hpos, Bool.not_true, Bool.false_eq_true, if_false]
  rw [hlo, lift_ok_bind, hhi, lift_ok_bind, cmp_bound hp he hpos hlow, if_pos htop]
  rfl

/-- A positive price outside the bounds of the grid, with its leading digit inside the 64-bit
range, is out of bounds for the search. -/
lemma tickOfPriceWith_of_out (htop : ¬ p.LeadOverflows) {lo hi : Decimal} (hlo : least = .ok lo)
    (hhi : greatest = .ok hi) (hout : p.val < lo.val ∨ hi.val < p.val) :
    (tickOfPriceWith logBase p).run = .ok (.error (.priceOutOfBounds p lo hi)) := by
  obtain ⟨lo', hi', hlo', hhi', hlow, hhiw, -, -⟩ := bounds_ok
  rw [hlo] at hlo'
  rw [hhi] at hhi'
  cases hlo'
  cases hhi'
  unfold tickOfPriceWith
  simp only [hpos, Bool.not_true, Bool.false_eq_true, if_false]
  rw [hlo, lift_ok_bind, hhi, lift_ok_bind, cmp_bound hp he hpos hlow, if_neg htop, lift_ok_bind]
  rcases hout with hlt | hgt
  · rw [compare_lt_iff_lt.2 hlt]
    rfl
  · -- above the greatest price, so not below the least
    have hlohi : lo.val ≤ hi.val := by
      rw [least_eq] at hlo
      rw [greatest_eq] at hhi
      cases hlo
      cases hhi
      norm_num [val]
    rw [if_neg (by simpa [compare_lt_iff_lt] using hlohi.trans hgt.le),
      cmp_bound hp he hpos hhiw, if_neg htop, lift_ok_bind, compare_gt_iff_gt.2 hgt]
    rfl

end Positive

/-- The distance between two working decimals is a decimal of the working width with an exponent
at most `2 ^ 61` in magnitude: the larger magnitude itself, or a rounding at the smaller
exponent, which raises it by at most the digits of the aligned coefficient. -/
lemma absDiff_moderate {a b : Decimal} (ha : a.Working) (hb : b.Working) :
    ∃ r, a.absDiff b = .ok r ∧ r.Narrow ∧ |r.exponent| ≤ 2 ^ 61 := by
  have hma : a.Moderate := ha.exponent_le.trans (by norm_num)
  have hmb : b.Moderate := hb.exponent_le.trans (by norm_num)
  have hea := abs_le.1 ha.exponent_le
  have heb := abs_le.1 hb.exponent_le
  refine (absDiff_unless (P := fun r => r.Narrow ∧ |r.exponent| ≤ 2 ^ 61)
    ha.positive.coefficient_lt hb.positive.coefficient_lt ha.bounded.fits.1 hb.bounded.fits.1
    ?_ ?_).exists_ok ⟨hma, hmb⟩
  · rintro big small (⟨rfl, -⟩ | ⟨rfl, -⟩) - -
    · exact ⟨ha.positive.coefficient_lt, hma⟩
    · exact ⟨hb.positive.coefficient_lt, hmb⟩
  · intro c hc _
    by_cases hc0 : c = 0
    · subst hc0
      rw [ofParts, if_pos rfl, Checked.pure_eq, Checked.holds_ok]
      exact ⟨by decide, by simp [zero]⟩
    · have hdc := digitCount_le_of_lt hc
      obtain ⟨r, hr, hrpos, hr₁, hr₂, -⟩ := ofParts_near (e := min a.exponent b.exponent)
        (Nat.pos_of_ne_zero hc0) hc
        (by simp only [Word64.Fits, Word64.least, Word64.greatest]; omega)
        (by simp only [Word64.greatest]; omega)
      rw [hr, Checked.holds_ok]
      exact ⟨hrpos.coefficient_lt, abs_le.2 ⟨by omega, by omega⟩⟩

/-- The accuracy of a working price against a grid tick returns: the distance has an exponent
close enough to the price's for the quotient. -/
lemma accuracy_ok {p : Decimal} (hp : p.Working) {t : ℤ} (ht : t.natAbs ≤ maxTick) :
    ∃ a, (accuracy p t).run = .ok (.ok a) := by
  obtain ⟨s, hs, -, hsw, -⟩ := priceOfTick_near ht
  obtain ⟨r, hr, hrn, hre⟩ := absDiff_moderate hp hsw
  have hpe := abs_le.1 hp.exponent_le
  obtain ⟨z, hz⟩ := div?_ok hrn hp.positive.coefficient_lt hp.positive.coefficient_pos.ne'
    (by rw [abs_le] at hre ⊢; constructor <;> omega)
  refine ⟨z.toBinary64.mul hundred, ?_⟩
  unfold accuracy
  simp only [hp.positive.isPositive, Bool.not_true, Bool.false_eq_true, if_false]
  rw [run_bind_of_ok _ hs, hr, lift_ok_bind, hz, lift_ok_bind]
  rfl

end Grid

namespace PriceConversion

open Grid

variable {logBase : Binary64 → ℤ}

/-- The conversion of a price between the bounds returns, and its report is written: the tick
found is on the grid, and the price of that tick, the reciprocal and the accuracy never fail. -/
lemma ofPriceWith_ok (hlog : LogBaseSound logBase) {p : Decimal} (hp : p.Narrow)
    (hr : InRange p) : ∃ c, (ofPriceWith logBase p).run = .ok (.ok c) ∧
      ∃ s, Report.price c = .ok s := by
  obtain ⟨hpw, hplo, hphi⟩ := hr.working hp
  obtain ⟨t, ht⟩ := exists_inCell p
  have htick := tickOfPriceWith_eq_of_inCell hlog hp hr ht
  have htb : t.natAbs ≤ maxTick := by
    obtain ⟨h₁, h₂, -⟩ := ht
    omega
  obtain ⟨v, hv, -⟩ := priceOfTick_near htb
  obtain ⟨q, hq, hqpos, hqnear⟩ := reciprocal_near hpw hplo hphi
  obtain ⟨a, ha⟩ := accuracy_ok hpw htb
  -- the reciprocal is near `1 / p`, which lies between the same bounds as `p`
  obtain ⟨hinv₁, hinv₂⟩ := inv_bounds hplo hphi
  have hk : roundingFactor priceDigits * roundingFactor workingDigits ^ 2 ≤ 2 := by
    rw [roundingFactor_priceDigits, roundingFactor_workingDigits]
    norm_num
  refine ⟨⟨p, t, v, q, a⟩, ?_, Report.price_ok ?_ (showPrice_priceOfTick htb hv) ?_⟩
  · rw [ofPriceWith, run_bind_of_ok _ htick, run_bind_of_ok _ hv, run_bind_of_ok _ hq,
      run_bind_of_ok _ ha]
    rfl
  · exact showPrice_ok_of_near hpw.positive (Near.refl le_rfl hpw.positive.val_pos.le)
      (by norm_num) hplo hphi
  · exact showPrice_ok_of_near (hqpos.mono (by decide)) hqnear hk hinv₁ hinv₂

end PriceConversion

/-! ## Commands -/

namespace Command

/-- The price of a command has at most `workingDigits` digits and a 64-bit exponent, as every
decimal has. -/
def Narrow : Command → Prop
  | .priceToTick p => p.Narrow ∧ Word64.Fits p.exponent
  | _ => True

/-- The range error that a command meets: a tick past `maxTick`; a price that is not positive; or
a positive price below the least or above the greatest price of the grid, reported with both. -/
inductive Rejects : Command → RangeError → Prop
  | tickOutOfBounds {t : ℤ} : Grid.maxTick < t.natAbs →
      Rejects (.tickToPrice t) (.tickOutOfBounds t)
  | priceNotPositive {p : Decimal} : p.isPositive = false →
      Rejects (.priceToTick p) .priceNotPositive
  | priceOutOfBounds {p lo hi : Decimal} : p.isPositive = true → Grid.least = .ok lo →
      Grid.greatest = .ok hi → p.val < lo.val ∨ hi.val < p.val →
      Rejects (.priceToTick p) (.priceOutOfBounds p lo hi)

/-- A command whose answer overflows: a positive price with its leading digit past the 64-bit
exponent range, which the comparison with the bounds of the grid cannot place. -/
def Overflows : Command → Prop
  | .priceToTick p => p.isPositive = true ∧ p.LeadOverflows
  | _ => False

lemma narrow_priceToTick {p : Decimal} :
    (priceToTick p).Narrow ↔ p.Narrow ∧ Word64.Fits p.exponent := Iff.rfl

lemma overflows_priceToTick {p : Decimal} :
    (priceToTick p).Overflows ↔ p.isPositive = true ∧ p.LeadOverflows := Iff.rfl

/-- What the outcome of a command says: a range error exactly when the command is rejected, with
nothing written then, and the end of the session exactly for `quit`. -/
structure Answers (c : Command) (o : Outcome) : Prop where
  error_iff : ∀ e, o.result = .error e ↔ c.Rejects e
  text_of_error : ∀ e, o.result = .error e → o.text = ""
  quit_iff : o.result = .ok .quit ↔ c = .quit

lemma not_rejects_quit (e : RangeError) : ¬ Command.quit.Rejects e := by
  rintro ⟨⟩

/-- An outcome that goes on answers a command that is neither rejected nor `quit`. -/
lemma Answers.of_proceed {c : Command} {o : Outcome} (hr : o.result = .ok .proceed)
    (hrej : ∀ e, ¬ c.Rejects e) (hq : c ≠ .quit) : c.Answers o := by
  refine ⟨fun e => ⟨fun h => ?_, fun h => absurd h (hrej e)⟩, fun e h => ?_, ?_⟩
  · rw [hr] at h
    cases h
  · rw [hr] at h
    cases h
  · rw [hr]
    exact ⟨fun h => (by cases h), fun h => absurd h hq⟩

/-- An outcome that writes nothing and fails with the one range error of the command answers it. -/
lemma Answers.of_error {c : Command} {e : RangeError} {o : Outcome} (hr : o.result = .error e)
    (ht : o.text = "") (hrej : ∀ e', c.Rejects e' ↔ e' = e) : c.Answers o := by
  refine ⟨fun e' => ?_, fun _ _ => ht, ?_⟩
  · rw [hr, hrej, Except.error.injEq, eq_comm]
  · rw [hr]
    refine ⟨fun h => (by cases h), fun hc => ?_⟩
    subst hc
    exact absurd ((hrej e).2 rfl) (not_rejects_quit e)

variable {logBase : Binary64 → ℤ}

/-- A grid tick is converted and reported, and the session goes on. -/
lemma executeWith_tick_of_le (hlog : Grid.LogBaseSound logBase) {t : ℤ}
    (ht : t.natAbs ≤ Grid.maxTick) :
    ∃ s, (Command.tickToPrice t).executeWith logBase = .ok ⟨s, .ok .proceed⟩ := by
  obtain ⟨c, hc, s, hs⟩ := TickConversion.ofTickWith_ok hlog ht
  refine ⟨s, ?_⟩
  rw [executeWith, hc, Checked.ok_bind]
  dsimp only
  rw [hs, Checked.ok_bind]
  rfl

/-- A tick past `maxTick` is reported as out of bounds, with nothing written. -/
lemma executeWith_tick_of_lt {t : ℤ} (ht : Grid.maxTick < t.natAbs) :
    (Command.tickToPrice t).executeWith logBase = .ok ⟨"", .error (.tickOutOfBounds t)⟩ := by
  rw [executeWith, TickConversion.ofTickWith_of_lt ht]
  rfl

/-- A price between the bounds is converted and reported, and the session goes on. -/
lemma executeWith_price_of_inRange (hlog : Grid.LogBaseSound logBase) {p : Decimal}
    (hp : p.Narrow) (hr : Grid.InRange p) :
    ∃ s, (Command.priceToTick p).executeWith logBase = .ok ⟨s, .ok .proceed⟩ := by
  obtain ⟨c, hc, s, hs⟩ := PriceConversion.ofPriceWith_ok hlog hp hr
  refine ⟨s, ?_⟩
  rw [executeWith, hc, Checked.ok_bind]
  dsimp only
  rw [hs, Checked.ok_bind]
  rfl

/-- A price that the search rejects is reported as that range error, with nothing written. -/
lemma executeWith_price_of_error {p : Decimal} {e : RangeError}
    (hx : (Grid.tickOfPriceWith logBase p).run = .ok (.error e)) :
    (Command.priceToTick p).executeWith logBase = .ok ⟨"", .error e⟩ := by
  rw [executeWith, PriceConversion.ofPriceWith, Grid.run_bind_of_error _ hx]
  rfl

/-- A price on which the search overflows makes the command overflow. -/
lemma executeWith_price_of_overflow {p : Decimal} {e : Overflow}
    (hx : (Grid.tickOfPriceWith logBase p).run = .error e) :
    (Command.priceToTick p).executeWith logBase = .error e := by
  rw [executeWith, PriceConversion.ofPriceWith, Grid.run_bind_of_overflow _ hx]
  rfl

/-- A positive price is rejected only outside the bounds of the grid. -/
lemma rejects_priceToTick_of_pos {p lo hi : Decimal} (hpos : p.isPositive = true)
    (hlo : Grid.least = .ok lo) (hhi : Grid.greatest = .ok hi) {e : RangeError} :
    (Command.priceToTick p).Rejects e ↔
      (p.val < lo.val ∨ hi.val < p.val) ∧ e = .priceOutOfBounds p lo hi := by
  constructor
  · intro h
    cases h with
    | priceNotPositive h => rw [hpos] at h; cases h
    | priceOutOfBounds _ hlo' hhi' hout =>
      rw [hlo] at hlo'
      rw [hhi] at hhi'
      cases hlo'
      cases hhi'
      exact ⟨hout, rfl⟩
  · rintro ⟨hout, rfl⟩
    exact .priceOutOfBounds hpos hlo hhi hout

/-- Every command whose price has at most `workingDigits` digits and a 64-bit exponent is answered:
it fails on a range error exactly when it is rejected, writing nothing then, and ends the session
exactly when it is `quit`, whatever logarithm that stays above the bottom of the 32-bit range
starts the searches. The one exception is a positive price whose leading digit stands past the
64-bit exponent range: comparing it with the bounds of the grid overflows. -/
theorem executeWith_error_iff_rejects (hlog : Grid.LogBaseSound logBase) {c : Command}
    (hc : c.Narrow) :
    Checked.Holds (fun e => e = .add ∧ c.Overflows) c.Answers (c.executeWith logBase) ∧
      (c.Overflows → c.executeWith logBase = .error .add) := by
  cases c with
  | tickToPrice t =>
    refine ⟨?_, fun h => (h : False).elim⟩
    by_cases ht : t.natAbs ≤ Grid.maxTick
    · obtain ⟨s, hs⟩ := executeWith_tick_of_le hlog ht
      rw [hs, Checked.holds_ok]
      exact .of_proceed rfl (fun e h => by cases h; omega) (by rintro ⟨⟩)
    · rw [executeWith_tick_of_lt (not_le.1 ht), Checked.holds_ok]
      exact .of_error rfl rfl fun e => ⟨fun h => by cases h; rfl,
        fun h => h ▸ .tickOutOfBounds (not_le.1 ht)⟩
  | priceToTick p =>
    obtain ⟨hp, he⟩ := narrow_priceToTick.1 hc
    cases hpos : p.isPositive with
    | false =>
      -- a price that is not positive is rejected at once
      refine ⟨?_, fun h => absurd (overflows_priceToTick.1 h).1 (by simp [hpos])⟩
      rw [executeWith_price_of_error (Grid.tickOfPriceWith_of_not_pos hpos), Checked.holds_ok]
      refine .of_error rfl rfl fun e => ⟨fun h => ?_, fun h => h ▸ .priceNotPositive hpos⟩
      cases h with
      | priceNotPositive => rfl
      | priceOutOfBounds hpos' => rw [hpos] at hpos'; cases hpos'
    | true =>
      by_cases htop : p.LeadOverflows
      · -- past the exponent range the comparison with the bounds overflows
        have hx : (Command.priceToTick p).executeWith logBase = .error .add :=
          executeWith_price_of_overflow (Grid.tickOfPriceWith_of_leadOverflows hp he hpos htop)
        refine ⟨?_, fun _ => hx⟩
        rw [hx]
        exact (Checked.holds_error _).2 ⟨rfl, overflows_priceToTick.2 ⟨hpos, htop⟩⟩
      refine ⟨?_, fun h => absurd (overflows_priceToTick.1 h).2 htop⟩
      obtain ⟨lo, hi, hlo, hhi, -⟩ := Grid.bounds_ok
      by_cases hin : lo.val ≤ p.val ∧ p.val ≤ hi.val
      · -- between the bounds the command is answered
        obtain ⟨s, hs⟩ :=
          executeWith_price_of_inRange hlog hp ⟨lo, hi, hlo, hhi, hin.1, hin.2⟩
        rw [hs, Checked.holds_ok]
        refine .of_proceed rfl (fun e h => ?_) (by rintro ⟨⟩)
        obtain ⟨hout, -⟩ := (rejects_priceToTick_of_pos hpos hlo hhi).1 h
        rcases hout with hlt | hgt
        · exact absurd hin.1 (not_le.2 hlt)
        · exact absurd hin.2 (not_le.2 hgt)
      · -- outside them it is rejected as out of bounds
        have hout : p.val < lo.val ∨ hi.val < p.val := by
          by_contra h
          exact hin ⟨not_lt.1 fun h' => h (.inl h'), not_lt.1 fun h' => h (.inr h')⟩
        rw [executeWith_price_of_error (Grid.tickOfPriceWith_of_out hp he hpos htop hlo hhi hout),
          Checked.holds_ok]
        exact .of_error rfl rfl fun e => (rejects_priceToTick_of_pos hpos hlo hhi).trans
          ⟨fun h => h.2, fun h => ⟨hout, h⟩⟩
  | help =>
    refine ⟨?_, fun h => (h : False).elim⟩
    obtain ⟨o, ho, hr⟩ := Report.examples_ok
    rw [executeWith, ho, Checked.ok_bind, Checked.pure_eq, Checked.holds_ok]
    exact .of_proceed hr (fun e h => by cases h) (by rintro ⟨⟩)
  | examples =>
    refine ⟨?_, fun h => (h : False).elim⟩
    obtain ⟨o, ho, hr⟩ := Report.examples_ok
    rw [executeWith, ho, Checked.holds_ok]
    exact .of_proceed hr (fun e h => by cases h) (by rintro ⟨⟩)
  | quit =>
    refine ⟨?_, fun h => (h : False).elim⟩
    rw [executeWith, Checked.pure_eq, Checked.holds_ok]
    exact ⟨fun e => ⟨fun h => (by cases h), fun h => absurd h (not_rejects_quit e)⟩,
      fun e h => (by cases h), ⟨fun _ => rfl, fun _ => rfl⟩⟩

/-- The outcome of the command for the tick of `1`, searched from a logarithm that answers zero. -/
theorem executeWith_error_iff_rejects_one : Grid.LogBaseSound (fun _ => 0) ∧
    (Command.priceToTick one).Narrow ∧
    (Checked.Holds (fun e => e = .add ∧ (Command.priceToTick one).Overflows)
        (Command.priceToTick one).Answers ((Command.priceToTick one).executeWith fun _ => 0) ∧
      ((Command.priceToTick one).Overflows →
        (Command.priceToTick one).executeWith (fun _ => 0) = .error .add)) :=
  ⟨Grid.logBaseSound_zero, narrow_priceToTick.2 ⟨by decide, by decide⟩,
    executeWith_error_iff_rejects Grid.logBaseSound_zero
      (narrow_priceToTick.2 ⟨by decide, by decide⟩)⟩

/-- The tick of `1E+9223372036854775807` is neither answered nor rejected: its leading digit
stands past the 64-bit exponent range, and the comparison with the least price overflows. -/
theorem execute_far_price_overflows :
    (Command.priceToTick ⟨false, 1, 9223372036854775807⟩).execute = .error .add :=
  executeWith_price_of_overflow
    (Grid.tickOfPriceWith_of_leadOverflows (by decide) (by decide) rfl (by decide))

end Command

end TickGrid
