import TickGrid.Proofs.Grid.Search
import TickGrid.Proofs.Decimal.Width

/-!
# The walk moves one way

At a tick `t` the walk first compares `p` with the midpoint above, `upperMidpoint t`, and steps up
when `p` reaches it; otherwise it compares `p` with the midpoint below, `upperMidpoint (t - 1)`, and
steps down when `p` is below it. After a step up from `t`, the test that would step back down at
`t + 1` is the comparison of `p` with `upperMidpoint t` once more, which said that `p` reaches it:
the walk never turns back. The argument uses nothing of the midpoints, not even that they
increase, and nothing of the price, so the walk is studied here against any midpoint function
`mid` (`walkForBy`), `walkFor` being the walk against `upperMidpoint`.

A walk that never turns back inside `[-maxTick, maxTick]` makes at most `2 * maxTick` steps before
it stops at a tick where no step applies (`Stops`) or at a comparison that fails, so the fuel of
`walk` is never what ends it; and it reads the midpoint function only at ticks from `-maxTick` to
`maxTick - 1`. For a price of the working width, the comparisons with the computed midpoints fail
exactly when the price is positive with its leading digit past the 64-bit exponent range; every
other price ends in a cell of the computed midpoints.

What one step can answer is `walkStepBy_holds`. A walk that has started up or down keeps going that
way (`exists_climb`, `exists_descent`), so from every grid tick, against every midpoint function, it
passes monotonically to a tick where it stops, and every fuel past the distance gives its answer
(`walkForBy_one_way`). `walk_moves_one_way` says the same of the walk of a price, which reads the
midpoints only on the grid and either overflows at its first comparison or ends in a cell.
-/

namespace TickGrid

namespace Grid

open Decimal

/-- One step of the walk against the midpoint function `mid`; `walkStep` is the step against
`upperMidpoint`. -/
def walkStepBy (mid : ℤ → Checked Decimal) (p : Decimal) (t : ℤ) : Checked (Option ℤ) := do
  if t < maxTick then
    if (← p.cmp (← mid t)) != .lt then return some (t + 1)
  if t > -(maxTick : Int) then
    if (← p.cmp (← mid (t - 1))) == .lt then return some (t - 1)
  return none

/-- The walk against `mid` from `t` for at most `fuel` steps. -/
def walkForBy (mid : ℤ → Checked Decimal) (p : Decimal) : ℕ → ℤ → Checked ℤ
  | 0, t => pure t
  | fuel + 1, t => do
    match ← walkStepBy mid p t with
    | some next => walkForBy mid p fuel next
    | none => pure t

lemma walkStepBy_upperMidpoint : walkStepBy upperMidpoint = walkStep := rfl

lemma walkForBy_upperMidpoint (p : Decimal) (fuel : ℕ) (t : ℤ) :
    walkForBy upperMidpoint p fuel t = walkFor p fuel t := by
  induction fuel generalizing t with
  | zero => rfl
  | succ fuel ih =>
    rw [walkForBy, walkFor]
    show walkStep p t >>= _ = walkStep p t >>= _
    rcases walkStep p t with f | _ | next
    · rfl
    · rfl
    · exact ih next

/-- Every computation returns what it returns, or fails as it fails. -/
lemma Checked.holds_eq {α : Type} (c : Checked α) :
    Checked.Holds (fun f => c = .error f) (fun a => c = .ok a) c :=
  ⟨fun _ h => h, fun _ h => h⟩

section Step

variable {mid : ℤ → Checked Decimal} {p : Decimal} {t : ℤ}

/-- `p` is below the midpoint `mid t`: the comparison returns and answers `lt`. -/
def Below (mid : ℤ → Checked Decimal) (p : Decimal) (t : ℤ) : Prop :=
  ∃ m, mid t = .ok m ∧ p.cmp m = .ok .lt

/-- `p` reaches the midpoint `mid t`: the comparison returns and answers something else. -/
def Reaches (mid : ℤ → Checked Decimal) (p : Decimal) (t : ℤ) : Prop :=
  ∃ m o, mid t = .ok m ∧ p.cmp m = .ok o ∧ o ≠ .lt

/-- Both tests at a midpoint are one comparison, so they cannot both pass. -/
lemma Reaches.not_below (h : Reaches mid p t) : ¬ Below mid p t := by
  rintro ⟨m', hm', ho'⟩
  obtain ⟨m, o, hm, ho, hne⟩ := h
  rw [hm] at hm'
  cases hm'
  rw [ho] at ho'
  cases ho'
  exact hne rfl

/-- The comparison of `p` with the midpoint `mid t` fails with `f`: the midpoint or the comparison
itself fails. -/
def FailsAt (mid : ℤ → Checked Decimal) (p : Decimal) (t : ℤ) (f : Overflow) : Prop :=
  mid t = .error f ∨ ∃ m, mid t = .ok m ∧ p.cmp m = .error f

/-- No step applies at `t`: `p` is below the midpoint above, unless `t` is the top, and reaches the
midpoint below, unless `t` is the bottom. -/
def Stops (mid : ℤ → Checked Decimal) (p : Decimal) (t : ℤ) : Prop :=
  (t < maxTick → Below mid p t) ∧ (-(maxTick : ℤ) < t → Reaches mid p (t - 1))

/-- What a step from `t` can fail with: the comparison at `t`, below the top, or at `t - 1`,
above the bottom. -/
def StepFails (mid : ℤ → Checked Decimal) (p : Decimal) (t : ℤ) (f : Overflow) : Prop :=
  (t < maxTick ∧ FailsAt mid p t f) ∨ (-(maxTick : ℤ) < t ∧ FailsAt mid p (t - 1) f)

/-- What a step from `t` can answer: a step up when `p` reaches the midpoint above; a step down
when it is below the midpoint above, or `t` is the top, and below the midpoint below; otherwise no
step, and then `t` stops the walk. -/
def StepAnswers (mid : ℤ → Checked Decimal) (p : Decimal) (t : ℤ) (o : Option ℤ) : Prop :=
  (o = some (t + 1) ∧ t < maxTick ∧ Reaches mid p t) ∨
    (o = some (t - 1) ∧ (t < maxTick → Below mid p t) ∧ -(maxTick : ℤ) < t ∧
      Below mid p (t - 1)) ∨
    (o = none ∧ Stops mid p t)

/-- One step answers as `StepAnswers` says, and fails only where a comparison it makes fails. -/
lemma walkStepBy_holds (mid : ℤ → Checked Decimal) (p : Decimal) (t : ℤ) :
    Checked.Holds (StepFails mid p t) (StepAnswers mid p t) (walkStepBy mid p t) := by
  -- the test below, reached when `p` is below the midpoint above or `t` is the top
  have down : (t < maxTick → Below mid p t) →
      Checked.Holds (StepFails mid p t) (StepAnswers mid p t)
        (if t > -(maxTick : Int) then do
            let m ← mid (t - 1)
            let o ← p.cmp m
            if (o == .lt) = true then pure (some (t - 1)) else pure none
          else pure none) := by
    intro hbelow
    split_ifs with hd
    · refine ((Checked.holds_eq (mid (t - 1))).mono (fun f hf => Or.inr ⟨hd, .inl hf⟩)
        fun _ h => h).bind fun m hm => ((Checked.holds_eq (p.cmp m)).mono
          (fun f hf => Or.inr ⟨hd, .inr ⟨m, hm, hf⟩⟩) fun _ h => h).bind fun o ho => ?_
      split_ifs with hlt
      · have ho' : o = .lt := by simpa using hlt
        exact (Checked.holds_ok _).2 (Or.inr (.inl ⟨rfl, hbelow, hd, m, hm, ho' ▸ ho⟩))
      · exact (Checked.holds_ok _).2
          (Or.inr (.inr ⟨rfl, hbelow, fun _ => ⟨m, o, hm, ho, by simpa using hlt⟩⟩))
    · exact (Checked.holds_ok _).2 (Or.inr (.inr ⟨rfl, hbelow, fun h => absurd h hd⟩))
  unfold walkStepBy
  by_cases hup : t < maxTick
  · rw [if_pos hup]
    refine ((Checked.holds_eq (mid t)).mono (fun f hf => Or.inl ⟨hup, .inl hf⟩)
      fun _ h => h).bind fun m hm => ((Checked.holds_eq (p.cmp m)).mono
        (fun f hf => Or.inl ⟨hup, .inr ⟨m, hm, hf⟩⟩) fun _ h => h).bind fun o ho => ?_
    by_cases hne : (o != .lt) = true
    · rw [if_pos hne]
      exact (Checked.holds_ok _).2 (Or.inl ⟨rfl, hup, m, o, hm, ho, by simpa using hne⟩)
    · rw [if_neg hne]
      have hlt : o = .lt := by simpa using hne
      exact down fun _ => ⟨m, hm, hlt ▸ ho⟩
  · rw [if_neg hup]
    exact down fun h => absurd h hup

/-- A step from a grid tick stays on the grid. -/
lemma walkStepBy_mem {s : ℤ} (h : walkStepBy mid p t = .ok (some s)) (ht₁ : -(maxTick : ℤ) ≤ t)
    (ht₂ : t ≤ maxTick) : -(maxTick : ℤ) ≤ s ∧ s ≤ maxTick := by
  rcases (walkStepBy_holds mid p t).1 _ h with ⟨hs, hup, -⟩ | ⟨hs, -, hdown, -⟩ | ⟨hs, -⟩
  · cases hs
    omega
  · cases hs
    omega
  · cases hs

end Step

/-! ## Runs -/

section Run

variable {mid : ℤ → Checked Decimal} {p : Decimal}

/-- Along ticks that each step up, the walk spends one unit of fuel per tick. -/
lemma walkForBy_of_climb (n k : ℕ) : ∀ t : ℤ,
    (∀ s, t ≤ s → s < t + k → walkStepBy mid p s = .ok (some (s + 1))) →
      walkForBy mid p (n + k) t = walkForBy mid p n (t + k) := by
  induction k with
  | zero => intro t _; simp
  | succ k ih =>
    intro t hpath
    rw [show n + (k + 1) = (n + k) + 1 by omega, walkForBy,
      hpath t le_rfl (by push_cast; omega), Checked.ok_bind]
    dsimp only
    rw [ih (t + 1) fun s hs hs' => hpath s (by omega) (by push_cast at hs' ⊢; omega)]
    push_cast
    ring_nf

/-- Along ticks that each step down, the walk spends one unit of fuel per tick. -/
lemma walkForBy_of_descent (n k : ℕ) : ∀ t : ℤ,
    (∀ s, t - k < s → s ≤ t → walkStepBy mid p s = .ok (some (s - 1))) →
      walkForBy mid p (n + k) t = walkForBy mid p n (t - k) := by
  induction k with
  | zero => intro t _; simp
  | succ k ih =>
    intro t hpath
    rw [show n + (k + 1) = (n + k) + 1 by omega, walkForBy,
      hpath t (by push_cast; omega) le_rfl, Checked.ok_bind]
    dsimp only
    rw [ih (t - 1) fun s hs hs' => hpath s (by push_cast at hs ⊢; omega) (by omega)]
    push_cast
    ring_nf

/-- A step up from `t` followed by a climb from `t + 1` is a climb from `t`. -/
lemma climb_cons {t u : ℤ} (hstep : walkStepBy mid p t = .ok (some (t + 1)))
    (hpath : ∀ s, t + 1 ≤ s → s < u → walkStepBy mid p s = .ok (some (s + 1))) :
    ∀ s, t ≤ s → s < u → walkStepBy mid p s = .ok (some (s + 1)) := by
  intro s hs hs'
  rcases hs.lt_or_eq with hlt | rfl
  · exact hpath s (by omega) hs'
  · exact hstep

/-- A step down from `t` followed by a descent from `t - 1` is a descent from `t`. -/
lemma descent_cons {t u : ℤ} (hstep : walkStepBy mid p t = .ok (some (t - 1)))
    (hpath : ∀ s, u < s → s ≤ t - 1 → walkStepBy mid p s = .ok (some (s - 1))) :
    ∀ s, u < s → s ≤ t → walkStepBy mid p s = .ok (some (s - 1)) := by
  intro s hs hs'
  rcases hs'.lt_or_eq with hlt | rfl
  · exact hpath s hs (by omega)
  · exact hstep

/-- At a tick where the step does not move, every fuel gives the answer of one step. -/
lemma walkForBy_of_not_moves {u : ℤ} (hu : ∀ s, walkStepBy mid p u ≠ .ok (some s)) (n : ℕ) :
    walkForBy mid p (n + 1) u = walkForBy mid p 1 u := by
  rw [walkForBy, walkForBy]
  rcases h : walkStepBy mid p u with f | _ | s
  · rfl
  · rfl
  · exact absurd h (hu s)

/-- A walk that cannot step down at `t`, since `p` reaches the midpoint below it, climbs: through
ticks that each step up, to a tick where the step does not move. The induction is on the distance
to the top; a step down is excluded at every tick reached, as `p` reached the midpoint it
passed. -/
lemma exists_climb (k : ℕ) : ∀ t : ℤ, maxTick - t = k → -(maxTick : ℤ) ≤ t →
    (-(maxTick : ℤ) < t → Reaches mid p (t - 1)) →
    ∃ u, t ≤ u ∧ u ≤ maxTick ∧ (∀ s, t ≤ s → s < u → walkStepBy mid p s = .ok (some (s + 1))) ∧
      ∀ s, walkStepBy mid p u ≠ .ok (some s) := by
  induction k with
  | zero =>
    intro t hk _ hreach
    refine ⟨t, le_rfl, by omega, fun s hs hs' => absurd hs' (not_lt.2 hs), fun s h => ?_⟩
    rcases (walkStepBy_holds mid p t).1 _ h with ⟨-, hup, -⟩ | ⟨-, -, hd, hb⟩ | ⟨hs, -⟩
    · omega
    · exact (hreach hd).not_below hb
    · cases hs
  | succ k ih =>
    intro t hk ht hreach
    by_cases hmove : ∃ s, walkStepBy mid p t = .ok (some s)
    swap
    · push Not at hmove
      exact ⟨t, le_rfl, by omega, fun s hs hs' => absurd hs' (not_lt.2 hs), hmove⟩
    obtain ⟨s, hstep⟩ := hmove
    rcases (walkStepBy_holds mid p t).1 _ hstep with ⟨hs, hup, hr⟩ | ⟨-, -, hd, hb⟩ | ⟨hs, -⟩
    · -- a step up: `p` reaches the midpoint it passes, so the next tick cannot step down
      cases hs
      obtain ⟨u, htu, hu, hpath, hstop⟩ :=
        ih (t + 1) (by omega) (by omega) fun _ => by simpa using hr
      exact ⟨u, by omega, hu, climb_cons hstep hpath, hstop⟩
    · exact absurd hb (hreach hd).not_below
    · cases hs

/-- A walk that cannot step up at `t`, since `p` is below the midpoint above it, descends: through
ticks that each step down, to a tick where the step does not move. The induction is on the
distance to the bottom; a step up is excluded at every tick reached, as `p` was below the midpoint
it passed. -/
lemma exists_descent (k : ℕ) : ∀ t : ℤ, t + maxTick = k → t ≤ maxTick →
    (t < maxTick → Below mid p t) →
    ∃ u, u ≤ t ∧ -(maxTick : ℤ) ≤ u ∧
      (∀ s, u < s → s ≤ t → walkStepBy mid p s = .ok (some (s - 1))) ∧
      ∀ s, walkStepBy mid p u ≠ .ok (some s) := by
  induction k with
  | zero =>
    intro t hk _ hbelow
    refine ⟨t, le_rfl, by omega, fun s hs hs' => absurd hs' (not_le.2 hs), fun s h => ?_⟩
    rcases (walkStepBy_holds mid p t).1 _ h with ⟨-, hup, hr⟩ | ⟨-, -, hd, -⟩ | ⟨hs, -⟩
    · exact hr.not_below (hbelow hup)
    · omega
    · cases hs
  | succ k ih =>
    intro t hk ht hbelow
    by_cases hmove : ∃ s, walkStepBy mid p t = .ok (some s)
    swap
    · push Not at hmove
      exact ⟨t, le_rfl, by omega, fun s hs hs' => absurd hs' (not_le.2 hs), hmove⟩
    obtain ⟨s, hstep⟩ := hmove
    rcases (walkStepBy_holds mid p t).1 _ hstep with ⟨-, hup, hr⟩ | ⟨hs, -, hd, hb⟩ | ⟨hs, -⟩
    · exact absurd (hbelow hup) hr.not_below
    · -- a step down: `p` is below the midpoint it passes, so the next tick cannot step up
      cases hs
      obtain ⟨u, hut, hu, hpath, hstop⟩ := ih (t - 1) (by omega) (by omega) fun _ => hb
      exact ⟨u, by omega, hu, descent_cons hstep hpath, hstop⟩
    · cases hs

/-- From every grid tick `e`, against every midpoint function, the walk never turns back: it
passes through ticks that all step up, or all step down, to a grid tick `t` where the step does
not move, and every fuel beyond the `|t - e|` steps taken gives the answer of that last step. -/
theorem walkForBy_one_way {e : ℤ} (he₁ : -(maxTick : ℤ) ≤ e) (he₂ : e ≤ maxTick) :
    ∃ t, -(maxTick : ℤ) ≤ t ∧ t ≤ maxTick ∧
      ((e ≤ t ∧ ∀ s, e ≤ s → s < t → walkStepBy mid p s = .ok (some (s + 1))) ∨
        (t ≤ e ∧ ∀ s, t < s → s ≤ e → walkStepBy mid p s = .ok (some (s - 1)))) ∧
      (∀ s, walkStepBy mid p t ≠ .ok (some s)) ∧
      ∀ n, (t - e).natAbs < n → walkForBy mid p n e = walkForBy mid p 1 t := by
  -- the first step decides the direction
  have hclimb : ∀ t, e ≤ t → t ≤ maxTick →
      (∀ s, e ≤ s → s < t → walkStepBy mid p s = .ok (some (s + 1))) →
      (∀ s, walkStepBy mid p t ≠ .ok (some s)) →
      ∀ n, (t - e).natAbs < n → walkForBy mid p n e = walkForBy mid p 1 t := by
    intro t het _ hpath hstop n hn
    obtain ⟨k, rfl⟩ : ∃ k : ℕ, t = e + k := ⟨(t - e).toNat, by omega⟩
    obtain ⟨m, rfl⟩ : ∃ m, n = m + 1 + k := ⟨n - 1 - k, by omega⟩
    rw [walkForBy_of_climb (m + 1) k e hpath, walkForBy_of_not_moves hstop]
  have hdescent : ∀ t, t ≤ e → -(maxTick : ℤ) ≤ t →
      (∀ s, t < s → s ≤ e → walkStepBy mid p s = .ok (some (s - 1))) →
      (∀ s, walkStepBy mid p t ≠ .ok (some s)) →
      ∀ n, (t - e).natAbs < n → walkForBy mid p n e = walkForBy mid p 1 t := by
    intro t hte _ hpath hstop n hn
    obtain ⟨k, rfl⟩ : ∃ k : ℕ, t = e - k := ⟨(e - t).toNat, by omega⟩
    obtain ⟨m, rfl⟩ : ∃ m, n = m + 1 + k := ⟨n - 1 - k, by omega⟩
    rw [walkForBy_of_descent (m + 1) k e hpath, walkForBy_of_not_moves hstop]
  by_cases hmove : ∃ s, walkStepBy mid p e = .ok (some s)
  swap
  · push Not at hmove
    exact ⟨e, he₁, he₂, .inl ⟨le_rfl, fun s hs hs' => absurd hs' (not_lt.2 hs)⟩, hmove,
      hclimb e le_rfl he₂ (fun s hs hs' => absurd hs' (not_lt.2 hs)) hmove⟩
  obtain ⟨s, hstep⟩ := hmove
  rcases (walkStepBy_holds mid p e).1 _ hstep with ⟨hs, hup, hr⟩ | ⟨hs, -, hd, hb⟩ | ⟨hs, -⟩
  · cases hs
    obtain ⟨u, heu, hu, hpath, hstop⟩ :=
      exists_climb (maxTick - (e + 1)).toNat (e + 1) (by omega) (by omega) fun _ => by
        simpa using hr
    have hpath' := climb_cons hstep hpath
    exact ⟨u, by omega, hu, .inl ⟨by omega, hpath'⟩, hstop,
      hclimb u (by omega) hu hpath' hstop⟩
  · cases hs
    obtain ⟨u, hue, hu, hpath, hstop⟩ :=
      exists_descent (e - 1 + maxTick).toNat (e - 1) (by omega) (by omega) fun _ => hb
    have hpath' := descent_cons hstep hpath
    exact ⟨u, hu, by omega, .inr ⟨by omega, hpath'⟩, hstop,
      hdescent u (by omega) hu hpath' hstop⟩
  · cases hs

end Run

/-! ## The midpoints read -/

/-- A step from a grid tick reads the midpoint function only at `t` below the top and at `t - 1`
above the bottom: two functions that agree from `-maxTick` to `maxTick - 1` give the same step. -/
lemma walkStepBy_congr {mid mid' : ℤ → Checked Decimal} {p : Decimal} {t : ℤ}
    (h : ∀ s, -(maxTick : ℤ) ≤ s → s < maxTick → mid s = mid' s) (ht₁ : -(maxTick : ℤ) ≤ t)
    (ht₂ : t ≤ maxTick) : walkStepBy mid p t = walkStepBy mid' p t := by
  unfold walkStepBy
  by_cases hd : -(maxTick : ℤ) < t
  · rw [h (t - 1) (by omega) (by omega)]
    by_cases hup : t < maxTick
    · rw [h t ht₁ hup]
    · rw [if_neg hup, if_neg hup]
  · have hd' : ¬ t > -(maxTick : ℤ) := hd
    rw [if_neg hd', if_neg hd']
    by_cases hup : t < maxTick
    · rw [h t ht₁ hup]
    · rw [if_neg hup, if_neg hup]

/-- Walks from a grid tick against two midpoint functions that agree on the grid below the top are
the same walk. -/
lemma walkForBy_congr {mid mid' : ℤ → Checked Decimal} {p : Decimal}
    (h : ∀ s, -(maxTick : ℤ) ≤ s → s < maxTick → mid s = mid' s) (n : ℕ) :
    ∀ t, -(maxTick : ℤ) ≤ t → t ≤ maxTick → walkForBy mid p n t = walkForBy mid' p n t := by
  induction n with
  | zero => intro t _ _; rfl
  | succ n ih =>
    intro t ht₁ ht₂
    rw [walkForBy, walkForBy, walkStepBy_congr h ht₁ ht₂]
    rcases hstep : walkStepBy mid' p t with f | _ | s
    · rfl
    · rfl
    · obtain ⟨hs₁, hs₂⟩ := walkStepBy_mem hstep ht₁ ht₂
      exact ih s hs₁ hs₂

/-! ## The walk of a price -/

section Price

variable {p : Decimal}

/-- The comparisons of a price of the working width with a positive moderate decimal overflow
exactly when the price is positive with its leading digit past the 64-bit exponent range. -/
def FarAbove (p : Decimal) : Prop :=
  p.coefficient ≠ 0 ∧ p.isNegative = false ∧ p.LeadOverflows

instance (p : Decimal) : Decidable (FarAbove p) := inferInstanceAs (Decidable (_ ∧ _ ∧ _))

/-- A price of the working width compares with a midpoint of the grid as its value, unless it is
far above. -/
lemma cmp_upperMidpoint (hp : p.Narrow) (hfit : Word64.Fits p.exponent) {t : ℤ}
    (ht₁ : -(maxTick : ℤ) ≤ t) (ht₂ : t < maxTick) :
    ∃ m, upperMidpoint t = .ok m ∧
      p.cmp m = if FarAbove p then .error .add else .ok (compare p.val m.val) := by
  obtain ⟨m, hm, hmw⟩ := upperMidpoint_ok ht₁ ht₂
  refine ⟨m, hm, ?_⟩
  have hmod : m.Moderate := hmw.exponent_le.trans (by norm_num)
  have hmn : ¬ m.LeadOverflows := hmod.not_leadOverflows hmw.positive.coefficient_lt
  -- the midpoint is positive and its leading digit is in range
  have hiff : p.CmpOverflows m ↔ FarAbove p := by
    have hm0 : m.coefficient ≠ 0 := hmw.positive.coefficient_pos.ne'
    have hmneg : m.isNegative = false := by
      simp [isNegative, hmw.positive.negative_eq]
    simp only [CmpOverflows, FarAbove, hmneg, hmn, or_false]
    tauto
  rw [cmp_eq_of_fits hp hmw.positive.coefficient_lt hfit
    (Word64.fits_of_abs_le (hmw.exponent_le.trans (by norm_num)))]
  simp only [hiff]

/-- A price far above overflows at the first comparison of its walk. -/
lemma walkFor_of_farAbove (hp : p.Narrow) (hfit : Word64.Fits p.exponent) (hfar : FarAbove p)
    {e : ℤ} (he₁ : -(maxTick : ℤ) ≤ e) (he₂ : e ≤ maxTick) (n : ℕ) :
    walkFor p (n + 1) e = .error .add := by
  rw [walkFor]
  have hstep : walkStep p e = .error .add := by
    unfold walkStep
    by_cases hup : e < maxTick
    · obtain ⟨m, hm, hcmp⟩ := cmp_upperMidpoint hp hfit he₁ hup
      rw [if_pos hfar] at hcmp
      rw [if_pos hup, hm, Checked.ok_bind, hcmp]
      rfl
    · -- at the top only the midpoint below is compared
      have hpos : (0 : ℤ) < maxTick := by norm_num [maxTick]
      obtain ⟨m, hm, hcmp⟩ := cmp_upperMidpoint hp hfit (t := e - 1) (by omega) (by omega)
      rw [if_pos hfar] at hcmp
      have hd : e > -(maxTick : ℤ) := by omega
      rw [if_neg hup, if_pos hd, hm, Checked.ok_bind, hcmp]
      rfl
  rw [hstep]
  rfl

section Near

variable (hp : p.Narrow) (hfit : Word64.Fits p.exponent) (hnear : ¬ FarAbove p)
include hp hfit hnear

/-- A price of the working width that is not far above compares with every midpoint of the grid
as its value. -/
lemma cmp_upperMidpoint_of_near {t : ℤ} (ht₁ : -(maxTick : ℤ) ≤ t) (ht₂ : t < maxTick) :
    ∃ m, upperMidpoint t = .ok m ∧ p.cmp m = .ok (compare p.val m.val) := by
  obtain ⟨m, hm, hc⟩ := cmp_upperMidpoint hp hfit ht₁ ht₂
  rw [if_neg hnear] at hc
  exact ⟨m, hm, hc⟩

/-- No comparison of a price that is not far above with a midpoint of the grid fails. -/
lemma not_failsAt_upperMidpoint {t : ℤ} (ht₁ : -(maxTick : ℤ) ≤ t) (ht₂ : t < maxTick)
    (f : Overflow) : ¬ FailsAt upperMidpoint p t f := by
  obtain ⟨m, hm, hc⟩ := cmp_upperMidpoint_of_near hp hfit hnear ht₁ ht₂
  rintro (hm' | ⟨m', hm', hc'⟩)
  · rw [hm] at hm'
    cases hm'
  · rw [hm] at hm'
    cases hm'
    rw [hc] at hc'
    cases hc'

/-- A midpoint of the grid that the price reaches is at most the price. -/
lemma Reaches.val_le {t : ℤ} (h : Reaches upperMidpoint p t) (ht₁ : -(maxTick : ℤ) ≤ t)
    (ht₂ : t < maxTick) : ∃ m, upperMidpoint t = .ok m ∧ m.val ≤ p.val := by
  obtain ⟨m, o, hm, ho, hne⟩ := h
  obtain ⟨m', hm', hc⟩ := cmp_upperMidpoint_of_near hp hfit hnear ht₁ ht₂
  rw [hm] at hm'
  cases hm'
  rw [ho, Except.ok.injEq] at hc
  subst hc
  exact ⟨m, hm, not_lt.1 fun h => hne (compare_lt_iff_lt.2 h)⟩

/-- A midpoint of the grid that the price is below exceeds the price. -/
lemma Below.lt_val {t : ℤ} (h : Below upperMidpoint p t) (ht₁ : -(maxTick : ℤ) ≤ t)
    (ht₂ : t < maxTick) : ∃ m, upperMidpoint t = .ok m ∧ p.val < m.val := by
  obtain ⟨m, hm, ho⟩ := h
  obtain ⟨m', hm', hc⟩ := cmp_upperMidpoint_of_near hp hfit hnear ht₁ ht₂
  rw [hm] at hm'
  cases hm'
  rw [ho, Except.ok.injEq] at hc
  exact ⟨m, hm, compare_lt_iff_lt.1 hc.symm⟩

/-- No step of the walk of a price that is not far above fails from a grid tick. -/
lemma walkStep_ne_error {t : ℤ} (ht₁ : -(maxTick : ℤ) ≤ t) (ht₂ : t ≤ maxTick) (f : Overflow) :
    walkStep p t ≠ .error f := by
  intro h
  rw [← walkStepBy_upperMidpoint] at h
  rcases (walkStepBy_holds upperMidpoint p t).2 f h with ⟨hup, hfail⟩ | ⟨hd, hfail⟩
  · exact not_failsAt_upperMidpoint hp hfit hnear ht₁ hup f hfail
  · exact not_failsAt_upperMidpoint hp hfit hnear (by omega) (by omega) f hfail

/-- Where the walk of a price that is not far above stops, it stops in a cell of the computed
midpoints: the code's comparisons are those of the values. -/
lemma inCell_of_stops {t : ℤ} (ht₁ : -(maxTick : ℤ) ≤ t) (ht₂ : t ≤ maxTick)
    (hstop : Stops upperMidpoint p t) : InCell p t := by
  refine ⟨ht₁, ht₂, ?_, ?_⟩
  · by_cases hd : t = -(maxTick : ℤ)
    · exact .inl hd
    exact .inr ((hstop.2 (by omega)).val_le hp hfit hnear (by omega) (by omega))
  · by_cases hup : t = maxTick
    · exact .inl hup
    exact .inr ((hstop.1 (by omega)).lt_val hp hfit hnear ht₁ (by omega))

end Near

/-- The walk of a price with at most `workingDigits` digits and a 64-bit exponent, from every tick
`e` of the grid, never turns back: it passes through ticks that all step up or all step down to a
grid tick `t`, at most `2 * maxTick` ticks away, and every fuel beyond those steps gives the walk's
answer, so its fuel is never what ends it. It reads the computed midpoints only at the ticks from
`-maxTick` to `maxTick - 1`: against any midpoint function that agrees with them there, it is the
same walk. When the price is positive with its leading digit past the 64-bit exponent range, the
first comparison overflows and the walk fails; otherwise it answers `t`, a tick whose midpoint below
is at most the price, unless `t` is the bottom, and whose midpoint above exceeds it, unless `t` is
the top. -/
theorem walk_moves_one_way (hp : p.Narrow) (hfit : Word64.Fits p.exponent) {e : ℤ}
    (he₁ : -(maxTick : ℤ) ≤ e) (he₂ : e ≤ maxTick) :
    ∃ t, -(maxTick : ℤ) ≤ t ∧ t ≤ maxTick ∧ (t - e).natAbs ≤ 2 * maxTick ∧
      ((e ≤ t ∧ ∀ s, e ≤ s → s < t → walkStep p s = .ok (some (s + 1))) ∨
        (t ≤ e ∧ ∀ s, t < s → s ≤ e → walkStep p s = .ok (some (s - 1)))) ∧
      (∀ n, (t - e).natAbs < n → walkFor p n e = walk p e) ∧
      (∀ mid : ℤ → Checked Decimal,
        (∀ s, -(maxTick : ℤ) ≤ s → s < maxTick → mid s = upperMidpoint s) →
        ∀ n, walkForBy mid p n e = walkFor p n e) ∧
      (p.coefficient ≠ 0 ∧ p.isNegative = false ∧ p.LeadOverflows → walk p e = .error .add) ∧
      (¬ (p.coefficient ≠ 0 ∧ p.isNegative = false ∧ p.LeadOverflows) →
        walk p e = .ok t ∧ InCell p t) := by
  obtain ⟨t, ht₁, ht₂, hpath, hstop, hfuel⟩ :=
    @walkForBy_one_way upperMidpoint p e he₁ he₂
  simp only [walkStepBy_upperMidpoint, walkForBy_upperMidpoint] at hpath hstop hfuel
  have hwalk : walk p e = walkFor p 1 t := hfuel _ (by omega)
  refine ⟨t, ht₁, ht₂, by omega, hpath, fun n hn => by rw [hfuel n hn, hwalk],
    fun mid hmid n => ?_, fun hfar => ?_, fun hnear => ?_⟩
  · rw [← walkForBy_upperMidpoint]
    exact walkForBy_congr hmid n e he₁ he₂
  · exact walkFor_of_farAbove hp hfit hfar he₁ he₂ _
  · -- the last step returns and does not move, so it stops
    rcases hlast : walkStep p t with f | _ | s
    · exact absurd hlast (walkStep_ne_error hp hfit hnear ht₁ ht₂ f)
    · rw [← walkStepBy_upperMidpoint] at hlast
      rcases (walkStepBy_holds upperMidpoint p t).1 _ hlast with ⟨hs, -⟩ | ⟨hs, -⟩ | ⟨-, hst⟩
      · cases hs
      · cases hs
      refine ⟨?_, inCell_of_stops hp hfit hnear ht₁ ht₂ hst⟩
      rw [hwalk, walkFor, ← walkStepBy_upperMidpoint, hlast]
      rfl
    · exact absurd hlast (hstop s)

/-- The walk of the price one from tick zero. -/
theorem walk_moves_one_way_one :
    one.Narrow ∧ Word64.Fits one.exponent ∧ -(maxTick : ℤ) ≤ 0 ∧ (0 : ℤ) ≤ maxTick ∧
    ∃ t, -(maxTick : ℤ) ≤ t ∧ t ≤ maxTick ∧ (t - 0).natAbs ≤ 2 * maxTick ∧
      ((0 ≤ t ∧ ∀ s, 0 ≤ s → s < t → walkStep one s = .ok (some (s + 1))) ∨
        (t ≤ 0 ∧ ∀ s, t < s → s ≤ 0 → walkStep one s = .ok (some (s - 1)))) ∧
      (∀ n, (t - 0).natAbs < n → walkFor one n 0 = walk one 0) ∧
      (∀ mid : ℤ → Checked Decimal,
        (∀ s, -(maxTick : ℤ) ≤ s → s < maxTick → mid s = upperMidpoint s) →
        ∀ n, walkForBy mid one n 0 = walkFor one n 0) ∧
      (one.coefficient ≠ 0 ∧ one.isNegative = false ∧ one.LeadOverflows →
        walk one 0 = .error .add) ∧
      (¬ (one.coefficient ≠ 0 ∧ one.isNegative = false ∧ one.LeadOverflows) →
        walk one 0 = .ok t ∧ InCell one t) :=
  ⟨by decide, by decide, by decide, by decide,
    walk_moves_one_way (by decide) (by decide) (by decide) (by decide)⟩

/-- The price `10 ^ (2 ^ 63 - 1)`, a positive decimal at the greatest 64-bit exponent, returns no
tick: its leading digit is past the exponent range, and the first comparison of its walk
overflows. -/
theorem walk_far_price_overflows : walk ⟨false, 1, 9223372036854775807⟩ 0 = .error .add :=
  walkFor_of_farAbove (by decide) (by decide) ⟨by decide, by decide, by decide +kernel⟩
    (by decide) (by decide) _

end Price

end Grid

end TickGrid
