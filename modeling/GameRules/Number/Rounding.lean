import GameRules.Number.Power

/-!
# Rounding a quotient to the nearest integer

Every inexact step of the library, whether it reads a decimal, scales a duration or measures a
nanosecond, is one exact quotient of natural numbers rounded once. This module owns that rounding.
-/

namespace GameRules

/-- The integer nearest to `numerator / denominator`; of two equally near ones, the even one. -/
def roundHalfEven (numerator denominator : Nat) : Nat :=
  let quotient := numerator / denominator
  let remainder := numerator % denominator
  if 2 * remainder < denominator then quotient
  else if denominator < 2 * remainder then quotient + 1
  else quotient + quotient % 2

/-- The rounded quotient is at most half a unit away from the quotient, on either side. -/
theorem roundHalfEven_near (numerator denominator : Nat) (positive : 0 < denominator) :
    2 * (roundHalfEven numerator denominator * denominator) ≤ 2 * numerator + denominator ∧
      2 * numerator ≤ 2 * (roundHalfEven numerator denominator * denominator) + denominator := by
  have parts := Nat.div_add_mod numerator denominator
  have bound := Nat.mod_lt numerator positive
  rw [Nat.mul_comm] at parts
  simp only [roundHalfEven]
  split
  · omega
  · split
    · rw [Nat.add_mul]; omega
    · rcases Nat.mod_two_eq_zero_or_one (numerator / denominator) with even | odd
      · rw [even, Nat.add_zero]; omega
      · rw [odd, Nat.add_mul]; omega

end GameRules
