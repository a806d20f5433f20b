import TickGrid.Proofs.Grid.Search

/-!
# From a tick to its price and back

The price of a grid tick lies strictly between the computed midpoints around the tick
(`upperMidpoint_lt_priceOfTick`, `priceOfTick_lt_upperMidpoint`), so the tick is the cell of its
price and the search gives the tick back exactly, not only to within one tick. A tick off the
grid fails with a range error before any arithmetic, which the round-trip check reports as
`false`.
-/

namespace TickGrid

namespace Grid

open Decimal

lemma run_bind_of_ok {α β : Type} {x : RangeM α} {a : α} (f : α → RangeM β)
    (hx : x.run = .ok (.ok a)) : (x >>= f).run = (f a).run := by
  change x = .ok (.ok a) at hx
  subst hx
  rfl

lemma run_bind_of_error {α β : Type} {x : RangeM α} {e : RangeError} (f : α → RangeM β)
    (hx : x.run = .ok (.error e)) : (x >>= f).run = .ok (.error e) := by
  change x = .ok (.error e) at hx
  subst hx
  rfl

lemma run_bind_of_overflow {α β : Type} {x : RangeM α} {e : Overflow} (f : α → RangeM β)
    (hx : x.run = .error e) : (x >>= f).run = .error e := by
  change x = .error e at hx
  subst hx
  rfl

/-- A grid tick is the cell of every value within a factor `1 + 10 ^ -48` of its price: such a
value lies strictly between the midpoints around the tick. -/
lemma inCell_of_near {t : ℤ} {k : ℚ} {x : Decimal} (h₁ : -(maxTick : ℤ) ≤ t) (h₂ : t ≤ maxTick)
    (hx : Near k x.val (base.val ^ t)) (hk₀ : 0 < k) (hk : k ≤ 1 + 1 / 10 ^ 48) : InCell x t := by
  refine ⟨h₁, h₂, ?_, ?_⟩
  · by_cases hbot : t = -maxTick
    · exact .inl hbot
    · obtain ⟨m, hm, -⟩ :=
        upperMidpoint_ok (show -(maxTick : ℤ) ≤ t - 1 by omega) (show t - 1 < maxTick by omega)
      exact .inr ⟨m, hm, (upperMidpoint_lt_of_near (by omega) hx hk₀ hk hm).le⟩
  · by_cases htop : t = maxTick
    · exact .inl htop
    · obtain ⟨m, hm, -⟩ := upperMidpoint_ok h₁ (show t < maxTick by omega)
      exact .inr ⟨m, hm, lt_upperMidpoint_of_near (by omega) hx hk hm⟩

/-- A grid tick is the cell of its own price. -/
lemma inCell_priceOfTick {t : ℤ} {p : Decimal} (h₁ : -(maxTick : ℤ) ≤ t) (h₂ : t ≤ maxTick)
    (hp : (priceOfTick t).run = .ok (.ok p)) : InCell p t :=
  inCell_of_near h₁ h₂ (near_of_priceOfTick (by omega) hp)
    (zero_lt_one.trans_le one_le_priceFactor) priceFactor_le

/-- The price of a tick off the grid is a range error. -/
lemma priceOfTick_of_lt {t : ℤ} (ht : maxTick < t.natAbs) :
    (priceOfTick t).run = .ok (.error (.tickOutOfBounds t)) := by
  unfold priceOfTick
  rw [if_pos ht]
  rfl

/-- The price of every grid tick lies within the bounds, and its tick is the tick itself,
whatever the platform logarithm; the round-trip check holds exactly for the ticks of the grid,
and every other tick fails it with `false`. -/
theorem priceOfTick_round_trip {logBase : Binary64 → ℤ} (hlog : LogBaseSound logBase) (t : ℤ) :
    (t.natAbs ≤ maxTick → ∃ p, (priceOfTick t).run = .ok (.ok p) ∧ InRange p ∧
      (tickOfPriceWith logBase p).run = .ok (.ok t)) ∧
    roundTripOkWith logBase t = .ok (decide (t.natAbs ≤ maxTick)) := by
  -- the tick of the price of a grid tick is the tick itself
  have hback : t.natAbs ≤ maxTick → ∃ p, (priceOfTick t).run = .ok (.ok p) ∧ InRange p ∧
      (tickOfPriceWith logBase p).run = .ok (.ok t) := by
    intro ht
    obtain ⟨p, hp, hppos, -, -⟩ := priceOfTick_near ht
    have hr := inRange_of_priceOfTick ht hp
    have hcoeff : p.coefficient < 10 ^ workingDigits :=
      hppos.coefficient_lt.trans_le (Nat.pow_le_pow_right (by norm_num) (by decide))
    exact ⟨p, hp, hr,
      tickOfPriceWith_eq_of_inCell hlog hcoeff hr (inCell_priceOfTick (by omega) (by omega) hp)⟩
  refine ⟨hback, ?_⟩
  unfold roundTripOkWith
  by_cases ht : t.natAbs ≤ maxTick
  · obtain ⟨p, hp, -, hp'⟩ := hback ht
    rw [run_bind_of_ok _ hp, hp', Checked.ok_bind]
    simp [ht]
  · rw [run_bind_of_error _ (priceOfTick_of_lt (not_le.1 ht)), Checked.ok_bind]
    simp [ht]

/-- The round trip of tick zero, whose price is one, with a logarithm that answers zero there as
the platform logarithm does. -/
theorem priceOfTick_round_trip_zero : LogBaseSound (fun _ => 0) ∧
    (((0 : ℤ)).natAbs ≤ maxTick → ∃ p, (priceOfTick 0).run = .ok (.ok p) ∧
      InRange p ∧ (tickOfPriceWith (fun _ => 0) p).run = .ok (.ok 0)) ∧
    roundTripOkWith (fun _ => 0) 0 = .ok (decide (((0 : ℤ)).natAbs ≤ maxTick)) :=
  ⟨logBaseSound_zero, priceOfTick_round_trip logBaseSound_zero 0⟩

end Grid

end TickGrid
