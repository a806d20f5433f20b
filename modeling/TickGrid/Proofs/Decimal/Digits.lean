import Mathlib.Data.Nat.Digits.Lemmas
import Mathlib.Data.Nat.Log
import Mathlib.Tactic.Linarith
import Mathlib.Tactic.NormNum
import TickGrid.Decimal.Basic

/-!
# Digit counts

`digitCount` guesses the number of decimal digits of a coefficient from its bit length and then
raises the guess while the next power of ten still fits. The guess never overshoots, because
`0.30102 ≤ 59 / 196 ≤ log₁₀ 2`; and the raising stops at the true count
`Nat.log 10 n + 1` for every coefficient below `10 ^ 155`, which holds every 512-bit one.

For a non-zero coefficient below `10 ^ 155` the count is `Nat.log 10 n + 1` (`digitCount_eq_log`),
so a coefficient has at most `k` digits exactly when it is below `10 ^ k` (`digitCount_le_iff`).
Every 512-bit coefficient has `digitCount` decimal digits, the guess never overshoots, and the cap
of the raising loop never cuts it short (`digitCount_counts_digits`).
-/

namespace TickGrid

/-- The bit-length guess never overshoots: `10 ^ ⌊L * 0.30102⌋ ≤ 2 ^ L`, since
`0.30102 ≤ 59 / 196` and `10 ^ 59 ≤ 2 ^ 196`. -/
lemma ten_pow_guess_le_two_pow (L : ℕ) : 10 ^ (L * 30102 / 100000) ≤ 2 ^ L := by
  set k := L * 30102 / 100000 with hk
  have hscaled : 196 * k ≤ 59 * L := by
    have := Nat.div_mul_le_self (L * 30102) 100000
    rw [← hk] at this
    omega
  have hbase : 10 ^ 59 ≤ 2 ^ 196 := by norm_num
  -- compare the 196-th powers, where the guess becomes a ratio of exponents
  have hpow : (10 ^ k) ^ 196 ≤ (2 ^ L) ^ 196 := by
    calc (10 ^ k) ^ 196 = 10 ^ (196 * k) := by rw [← pow_mul, mul_comm]
      _ ≤ 10 ^ (59 * L) := Nat.pow_le_pow_right (by norm_num) hscaled
      _ = (10 ^ 59) ^ L := pow_mul 10 59 L
      _ ≤ (2 ^ 196) ^ L := Nat.pow_le_pow_left hbase L
      _ = (2 ^ L) ^ 196 := by rw [← pow_mul, ← pow_mul, mul_comm]
  exact (Nat.pow_le_pow_iff_left (by norm_num)).1 hpow

/-- From a count `d` that does not overshoot, with enough steps left to reach the true count, the
raising loop stops exactly at the true count. -/
lemma digitCountFrom_eq_log {n : ℕ} (hn : n ≠ 0) (steps : ℕ) :
    ∀ d, 0 < d → 10 ^ (d - 1) ≤ n → Nat.log 10 n + 1 ≤ d + steps →
      digitCountFrom n steps d = Nat.log 10 n + 1 := by
  induction steps with
  | zero =>
    intro d hd hle hsteps
    have hlog : d - 1 ≤ Nat.log 10 n := Nat.le_log_of_pow_le (by norm_num) hle
    rw [digitCountFrom]
    omega
  | succ steps ih =>
    intro d hd hle hsteps
    rw [digitCountFrom, Nat.pow_eq]
    split_ifs with hnext
    · exact ih (d + 1) (by omega) (by simpa using hnext) (by omega)
    · have hlo : d - 1 ≤ Nat.log 10 n := Nat.le_log_of_pow_le (by norm_num) hle
      have hhi : Nat.log 10 n < d := Nat.log_lt_of_lt_pow hn (by omega)
      omega

/-- The bit-length guess of a non-zero coefficient is at most the place of its leading digit. -/
lemma digitGuess_le_log {n : ℕ} (hn : n ≠ 0) : Nat.log2 n * 30102 / 100000 ≤ Nat.log 10 n :=
  Nat.le_log_of_pow_le (by norm_num) ((ten_pow_guess_le_two_pow _).trans (Nat.log2_self_le hn))

/-- The digit count of a non-zero coefficient below `10 ^ 155` is `Nat.log 10 n + 1`. -/
theorem digitCount_eq_log {n : ℕ} (hn : n ≠ 0) (hlt : n < 10 ^ 155) :
    digitCount n = Nat.log 10 n + 1 := by
  have hbits : Nat.log2 n < 515 := (Nat.log2_lt hn).2 (hlt.trans (by decide +kernel))
  have hlog : Nat.log 10 n < 155 := Nat.log_lt_of_lt_pow hn hlt
  have hguess : 10 ^ (Nat.log2 n * 30102 / 100000) ≤ n :=
    (ten_pow_guess_le_two_pow _).trans (Nat.log2_self_le hn)
  rw [digitCount, if_neg hn]
  apply digitCountFrom_eq_log hn
  · omega
  · simpa using hguess
  · simp only [greatestTenPower]
    omega

@[simp] lemma digitCount_zero : digitCount 0 = 0 := rfl

/-- A coefficient below `10 ^ 155` has at most `k` digits exactly when it is below `10 ^ k`. -/
theorem digitCount_le_iff {n k : ℕ} (hlt : n < 10 ^ 155) : digitCount n ≤ k ↔ n < 10 ^ k := by
  rcases Nat.eq_zero_or_pos n with rfl | hn
  · simp
  · rw [digitCount_eq_log hn.ne' hlt, Nat.add_one_le_iff,
      Nat.log_lt_iff_lt_pow (by norm_num) hn.ne']

/-- A coefficient below `10 ^ 155` is below ten to its digit count. -/
lemma lt_ten_pow_digitCount {n : ℕ} (hlt : n < 10 ^ 155) : n < 10 ^ digitCount n :=
  (digitCount_le_iff hlt).1 le_rfl

/-- A non-zero coefficient below `10 ^ 155` reaches ten to its digit count less one. -/
lemma ten_pow_digitCount_le {n : ℕ} (hn : n ≠ 0) (hlt : n < 10 ^ 155) :
    10 ^ (digitCount n - 1) ≤ n := by
  rw [digitCount_eq_log hn hlt, Nat.add_sub_cancel]
  exact Nat.pow_log_le_self 10 hn

/-- Every 512-bit coefficient has at most `155` digits. -/
lemma digitCount_le_of_lt {n : ℕ} (hlt : n < 10 ^ 155) : digitCount n ≤ 155 :=
  (digitCount_le_iff hlt).2 hlt

/-- A non-zero coefficient has at least one digit. -/
lemma digitCount_pos {n : ℕ} (hn : n ≠ 0) (hlt : n < 10 ^ 155) : 0 < digitCount n := by
  rw [digitCount_eq_log hn hlt]
  omega

/-- A 512-bit coefficient is below `10 ^ 155`. -/
lemma lt_ten_pow_of_lt_bound {n : ℕ} (hn : n < Word512.bound) : n < 10 ^ 155 :=
  hn.trans (by decide +kernel)

/-- Every 512-bit coefficient `v` has `digitCount v` decimal digits, none when it is zero. For a
non-zero one, `10 ^ (digitCount v - 1) ≤ v < 10 ^ digitCount v`; the guess
`⌊log₂ v * 30102 / 100000⌋ + 1` from the bit length is at most the count; the count is at most
`greatestTenPower + 1`; and the raising loop started at the guess gives the count under every cap
from its own on, so the cap at `greatestTenPower`, the last power it compares with, never stops it
short of the count. -/
theorem digitCount_counts_digits {v : ℕ} (hv : v < Word512.bound) :
    digitCount v = (Nat.digits 10 v).length ∧
      (v ≠ 0 → 10 ^ (digitCount v - 1) ≤ v ∧ v < 10 ^ digitCount v ∧
        Nat.log2 v * 30102 / 100000 + 1 ≤ digitCount v ∧
        digitCount v ≤ greatestTenPower + 1 ∧
        ∀ steps, greatestTenPower + 1 - (Nat.log2 v * 30102 / 100000 + 1) ≤ steps →
          digitCountFrom v steps (Nat.log2 v * 30102 / 100000 + 1) = digitCount v) := by
  have hlt := lt_ten_pow_of_lt_bound hv
  rcases eq_or_ne v 0 with rfl | hv0
  · exact ⟨by simp, fun h => absurd rfl h⟩
  have hcount := digitCount_eq_log hv0 hlt
  have hguess := digitGuess_le_log hv0
  have hlog : Nat.log 10 v < 155 := Nat.log_lt_of_lt_pow hv0 hlt
  refine ⟨by rw [hcount, Nat.length_digits 10 v (by norm_num) hv0],
    fun _ => ⟨ten_pow_digitCount_le hv0 hlt, lt_ten_pow_digitCount hlt, by omega,
      by simp only [greatestTenPower]; omega, ?_⟩⟩
  -- from the guess, any cap that reaches `greatestTenPower + 1` leaves room for the count
  intro steps hsteps
  rw [hcount]
  refine digitCountFrom_eq_log hv0 steps _ (by omega) ?_ ?_
  · simpa using (ten_pow_guess_le_two_pow _).trans (Nat.log2_self_le hv0)
  · simp only [greatestTenPower] at hsteps
    omega

/-- The greatest 512-bit coefficient. -/
theorem digitCount_counts_digits_greatest :
    Word512.bound - 1 < Word512.bound ∧
      (digitCount (Word512.bound - 1) = (Nat.digits 10 (Word512.bound - 1)).length ∧
      (Word512.bound - 1 ≠ 0 →
        10 ^ (digitCount (Word512.bound - 1) - 1) ≤ Word512.bound - 1 ∧
        Word512.bound - 1 < 10 ^ digitCount (Word512.bound - 1) ∧
        Nat.log2 (Word512.bound - 1) * 30102 / 100000 + 1 ≤ digitCount (Word512.bound - 1) ∧
        digitCount (Word512.bound - 1) ≤ greatestTenPower + 1 ∧
        ∀ steps,
          greatestTenPower + 1 - (Nat.log2 (Word512.bound - 1) * 30102 / 100000 + 1) ≤ steps →
          digitCountFrom (Word512.bound - 1) steps
            (Nat.log2 (Word512.bound - 1) * 30102 / 100000 + 1) =
              digitCount (Word512.bound - 1))) :=
  ⟨by decide +kernel, digitCount_counts_digits (by decide +kernel)⟩

end TickGrid
