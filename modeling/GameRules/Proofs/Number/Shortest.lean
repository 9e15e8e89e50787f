import GameRules.Number.Shortest
import GameRules.Proofs.Number.Binary64
import Mathlib.Algebra.Order.Field.Power

/-!
# The shortest decimal reads back

The test that picks a decimal is that the rank is nearest to it, and zeros that are dropped do not
change its value. So the decimal that a rank is written with is one that rounds to it.
-/

namespace GameRules.Shortest

/-- What a decimal stands for. -/
def Decimal.value (decimal : Decimal) : ℚ := decimal.digits * 10 ^ decimal.exponent

/-- A decimal is not negative. -/
theorem Decimal.value_nonneg (decimal : Decimal) : 0 ≤ decimal.value := by
  rw [value]
  positivity

/-- A power of ten is the quotient of its parts. -/
theorem tenPower_eq (exponent : Int) :
    0 < (tenPower exponent).2 ∧
      ((tenPower exponent).1 / (tenPower exponent).2 : ℚ) = 10 ^ exponent := by
  rw [tenPower]
  split
  · rename_i negative
    refine ⟨Nat.pow_pos (by decide), ?_⟩
    have same : exponent = -(exponent.natAbs : Int) := by omega
    rw [Nat.cast_one, Nat.cast_pow, Nat.cast_ofNat, one_div, ← zpow_natCast, ← zpow_neg, ← same]
  · rename_i natural
    refine ⟨Nat.one_pos, ?_⟩
    have same : (exponent.natAbs : Int) = exponent := by omega
    rw [Nat.cast_one, div_one, Nat.cast_pow, Nat.cast_ofNat, ← zpow_natCast, same]

/-- A decimal reads back as a rank if the rank is nearest to it. -/
theorem readsBack_iff {rank digits : Nat} {exponent : Int} :
    readsBack rank digits exponent = true ↔
      Binary64.Nearest rank (digits * 10 ^ exponent * Binary64.unitsPerOne) := by
  obtain ⟨positive, value⟩ := tenPower_eq exponent
  have point : (digits * 10 ^ exponent * Binary64.unitsPerOne : ℚ) =
      (digits * (tenPower exponent).1 * Binary64.unitsPerOne : Nat) / (tenPower exponent).2 := by
    rw [← value, Nat.cast_mul, Nat.cast_mul]
    ring
  have double : 2 * (digits * (tenPower exponent).1 * Binary64.unitsPerOne) =
      2 * digits * (tenPower exponent).1 * Binary64.unitsPerOne := by ring
  rw [point, Binary64.nearest_div_iff positive, double]
  unfold readsBack
  dsimp only
  generalize 2 * digits * (tenPower exponent).1 * Binary64.unitsPerOne = point
  split
  · rename_i even
    simp [even]
  · rename_i odd
    have odd : rank % 2 = 1 := by omega
    simp only [odd, Bool.and_eq_true, decide_eq_true_eq, true_implies]
    exact ⟨fun ⟨low, high⟩ => ⟨low.le, high.le, low, high⟩, fun near => near.2.2⟩

/-- A point that is taken from a grid reads back. -/
theorem readsBack_of_onGrid? {rank : Nat} {exponent : Int} {decimal : Decimal}
    (found : onGrid? rank exponent = some decimal) :
    readsBack rank decimal.digits decimal.exponent = true := by
  unfold onGrid? at found
  dsimp only at found
  -- The candidates are large quotients, which are not to be evaluated.
  generalize roundHalfEven _ _ = nearest at found
  generalize Binary64.unitsOfRank rank * _ / _ = below at found
  split at found
  · rename_i reads
    cases found
    exact reads
  · split at found
    · rename_i reads
      cases found
      exact reads
    · split at found
      · rename_i reads
        cases found
        exact reads
      · cases found

/-- Dropped zeros do not change what a decimal stands for. -/
theorem value_trim (bound : Nat) (decimal : Decimal) :
    (trim bound decimal).value = decimal.value := by
  induction bound generalizing decimal with
  | zero => rfl
  | succ bound ih =>
    rw [trim]
    split
    · rename_i zeros
      have digits : (decimal.digits / 10 : Nat) * 10 = decimal.digits :=
        Nat.div_mul_cancel (Nat.dvd_of_mod_eq_zero zeros.2)
      have scaled : ((decimal.digits / 10 : Nat) : ℚ) * 10 = decimal.digits := by
        exact_mod_cast digits
      rw [ih, Decimal.value, Decimal.value, zpow_add_one₀ (by norm_num), ← scaled]
      ring
    · rfl

/-- Binary places are as many decimal places once the digits are scaled by powers of five. -/
theorem units_eq_decimal (count places : Nat) :
    ((count * 5 ^ places : Nat) : ℚ) * 10 ^ (-(places : Int)) * (2 ^ places : Nat) = count := by
  have ten : (5 : ℚ) ^ places * 2 ^ places = 10 ^ places := by
    rw [← mul_pow]
    norm_num
  rw [zpow_neg, zpow_natCast, Nat.cast_mul, Nat.cast_pow, Nat.cast_pow, Nat.cast_ofNat,
    Nat.cast_ofNat, mul_right_comm, mul_assoc (count : ℚ), ten, mul_assoc,
    mul_inv_cancel₀ (by positivity), mul_one]

/-- The magnitude of a rank that is written out in full is that magnitude. -/
theorem value_inFull (rank : Nat) :
    (inFull rank).value * Binary64.unitsPerOne = Binary64.unitsOfRank rank := by
  have exponent : (inFull rank).exponent = -((1074 : Nat) : Int) := rfl
  rw [Decimal.value, exponent]
  exact units_eq_decimal (Binary64.unitsOfRank rank) 1074

/-- The decimal that a rank is written with rounds to it. -/
theorem nearest_ofRank (rank : Nat) :
    Binary64.Nearest rank ((ofRank rank).value * Binary64.unitsPerOne) := by
  rw [ofRank, value_trim]
  cases hit : (List.range 660).findSome? fun (step : Nat) => onGrid? rank (309 - (step : Int)) with
  | none =>
    rw [Option.getD_none, value_inFull]
    exact Binary64.nearest_unitsOfRank rank
  | some decimal =>
    obtain ⟨step, -, found⟩ := List.exists_of_findSome?_eq_some hit
    exact readsBack_iff.mp (readsBack_of_onGrid? found)

/-- The decimals that ranks are written with ascend with the ranks. -/
theorem strictMono_value_ofRank : StrictMono fun rank => (ofRank rank).value := by
  intro rank greater lt
  have units := (nearest_ofRank rank).lt_of_lt (nearest_ofRank greater) lt
  exact lt_of_mul_lt_mul_right units Binary64.unitsPerOne_pos.le

/-- Only zero is written with no digits but zero. -/
theorem digits_ofRank_pos {rank : Nat} (positive : 0 < rank) : 0 < (ofRank rank).digits := by
  refine Nat.pos_of_ne_zero fun zero => ?_
  have less : (ofRank 0).value < (ofRank rank).value := strictMono_value_ofRank positive
  rw [Decimal.value, Decimal.value, zero, Nat.cast_zero, zero_mul] at less
  exact less.not_ge (ofRank 0).value_nonneg

end GameRules.Shortest
