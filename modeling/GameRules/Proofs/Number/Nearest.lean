import GameRules.Number.Binary64
import Mathlib.Algebra.Order.Field.Rat
import Mathlib.Order.Monotone.Basic
import Mathlib.Tactic.FieldSimp
import Mathlib.Tactic.Linarith
import Mathlib.Tactic.NormNum
import Mathlib.Tactic.Positivity
import Mathlib.Tactic.Ring

/-!
# Rounding to the nearest rank

From one rank to the next, the magnitude grows by the power of two that its significand is counted
in. So magnitudes ascend with their ranks, and a rank is nearest to a value exactly when the value
lies between the midpoints to both neighbours; on a midpoint, the even one of its two ranks is
nearest. Every value has just one nearest rank, and rounding a quotient finds it.
-/

namespace GameRules

/-- An odd rounded quotient is less than half a unit away from the quotient. -/
theorem roundHalfEven_near_of_odd {numerator denominator : Nat} (positive : 0 < denominator)
    (odd : roundHalfEven numerator denominator % 2 = 1) :
    2 * (roundHalfEven numerator denominator * denominator) < 2 * numerator + denominator ∧
      2 * numerator < 2 * (roundHalfEven numerator denominator * denominator) + denominator := by
  have parts := Nat.div_add_mod numerator denominator
  have bound := Nat.mod_lt numerator positive
  rw [Nat.mul_comm] at parts
  simp only [roundHalfEven] at odd ⊢
  split
  · omega
  · split
    · rw [Nat.add_mul]
      omega
    · -- A tie goes to the even quotient.
      rename_i notBelow notAbove
      rw [if_neg notBelow, if_neg notAbove] at odd
      omega

namespace Binary64

/-- A binade is not empty. -/
theorem binade_pos : 0 < binade := Nat.two_pow_pos 52

/-- A rank below the first binade is its own magnitude. -/
theorem unitsOfRank_of_lt {rank : Nat} (small : rank < binade) : unitsOfRank rank = rank := by
  rw [unitsOfRank, significandOfRank, if_pos small, scaleOfRank, Nat.div_eq_of_lt small,
    Nat.zero_sub, Nat.pow_zero, Nat.mul_one]

/-- The magnitude at a place in a binade above the first one. -/
theorem unitsOfRank_of_place {place scale : Nat} (inside : place < binade) :
    unitsOfRank (place + (scale + 1) * binade) = (place + binade) * 2 ^ scale := by
  have quotient : (place + (scale + 1) * binade) / binade = scale + 1 := by
    rw [Nat.add_mul_div_right place (scale + 1) binade_pos, Nat.div_eq_of_lt inside, Nat.zero_add]
  have remainder : (place + (scale + 1) * binade) % binade = place := by
    rw [Nat.add_mul_mod_self_right, Nat.mod_eq_of_lt inside]
  have large : ¬place + (scale + 1) * binade < binade := by
    rw [Nat.add_mul]
    omega
  rw [unitsOfRank, significandOfRank, if_neg large, remainder, scaleOfRank, quotient,
    Nat.add_sub_cancel]

/-- The power of two at a place in a binade above the first one. -/
theorem scaleOfRank_of_place {place scale : Nat} (inside : place < binade) :
    scaleOfRank (place + (scale + 1) * binade) = scale := by
  rw [scaleOfRank, Nat.add_mul_div_right place (scale + 1) binade_pos, Nat.div_eq_of_lt inside,
    Nat.zero_add, Nat.add_sub_cancel]

/-- A rank lies in the first binade, or at a place in one above it. -/
theorem lt_binade_or_exists_place (rank : Nat) :
    rank < binade ∨ ∃ place scale, place < binade ∧ rank = place + (scale + 1) * binade := by
  by_cases small : rank < binade
  · exact .inl small
  · have parts := Nat.mod_add_div rank binade
    have one : 1 ≤ rank / binade := (Nat.one_le_div_iff binade_pos).mpr (Nat.le_of_not_lt small)
    refine .inr ⟨rank % binade, rank / binade - 1, Nat.mod_lt rank binade_pos, ?_⟩
    rw [Nat.sub_add_cancel one, Nat.mul_comm, parts]

/-- From one rank to the next, the magnitude grows by the power of two of its significand. -/
theorem unitsOfRank_succ (rank : Nat) :
    unitsOfRank (rank + 1) = unitsOfRank rank + 2 ^ scaleOfRank rank := by
  rcases lt_binade_or_exists_place rank with small | ⟨place, scale, inside, rfl⟩
  · have scaleless : scaleOfRank rank = 0 := by
      rw [scaleOfRank, Nat.div_eq_of_lt small]
    rw [unitsOfRank_of_lt small, scaleless, Nat.pow_zero]
    by_cases last : rank + 1 < binade
    · exact unitsOfRank_of_lt last
    · -- The first rank of the second binade still counts single units.
      have first : rank + 1 = 0 + (0 + 1) * binade := by omega
      rw [first, unitsOfRank_of_place binade_pos]
      omega
  · rw [unitsOfRank_of_place inside, scaleOfRank_of_place inside, ← Nat.succ_mul]
    by_cases last : place + 1 < binade
    · rw [Nat.add_right_comm, unitsOfRank_of_place last, Nat.succ_eq_add_one, Nat.add_right_comm]
    · -- The significand of the last rank in a binade carries into the next power of two.
      have carried : place + 1 = binade := by omega
      have first : place + (scale + 1) * binade + 1 = 0 + (scale + 1 + 1) * binade := by
        rw [Nat.add_right_comm, carried, Nat.zero_add, Nat.succ_mul (scale + 1), Nat.add_comm]
      have double : (place + binade).succ = 2 * binade := by omega
      rw [first, unitsOfRank_of_place binade_pos, double, Nat.pow_succ, Nat.zero_add]
      ring

/-- Magnitudes ascend with their ranks. -/
theorem unitsOfRank_strictMono : StrictMono unitsOfRank := by
  refine strictMono_nat_of_lt_succ fun rank => ?_
  have positive : 0 < 2 ^ scaleOfRank rank := Nat.pow_pos (by decide)
  rw [unitsOfRank_succ]
  omega

/-- A significand of 53 binary digits, counted in a power of two, is the magnitude of its rank. -/
theorem unitsOfRank_add {significand scale : Nat} (most : significand ≤ 2 * binade)
    (least : binade ≤ significand ∨ scale = 0) :
    unitsOfRank (significand + scale * binade) = significand * 2 ^ scale := by
  by_cases small : significand < binade
  · have scaleless : scale = 0 := by omega
    rw [scaleless, Nat.zero_mul, Nat.add_zero, unitsOfRank_of_lt small, Nat.pow_zero, Nat.mul_one]
  · obtain ⟨place, rfl⟩ := Nat.exists_eq_add_of_le' (Nat.le_of_not_lt small)
    have shifted : place + binade + scale * binade = place + (scale + 1) * binade := by ring
    by_cases last : place < binade
    · rw [shifted, unitsOfRank_of_place last]
    · have carried : place = binade := by omega
      have first : place + (scale + 1) * binade = 0 + (scale + 1 + 1) * binade := by
        rw [carried]
        ring
      rw [shifted, first, unitsOfRank_of_place binade_pos, carried, Nat.pow_succ]
      ring

/-- A rank that is nearest to a magnitude in units of 2⁻¹⁰⁷⁴: the magnitude lies between the
midpoints to the neighbours, and on a midpoint only if the rank is even. -/
structure Nearest (rank : Nat) (magnitude : ℚ) : Prop where
  /-- The magnitude is not below the midpoint to the rank before. -/
  low : (unitsOfRank (rank - 1) + unitsOfRank rank : ℚ) ≤ 2 * magnitude
  /-- The magnitude is not above the midpoint to the rank after. -/
  high : 2 * magnitude ≤ (unitsOfRank rank + unitsOfRank (rank + 1) : ℚ)
  /-- The midpoints go to even ranks. -/
  inside : rank % 2 = 1 → (unitsOfRank (rank - 1) + unitsOfRank rank : ℚ) < 2 * magnitude ∧
    2 * magnitude < (unitsOfRank rank + unitsOfRank (rank + 1) : ℚ)

/-- What a lower rank is nearest to is less than what a higher rank is nearest to. -/
theorem Nearest.lt_of_lt {left right : Nat} {small great : ℚ} (first : Nearest left small)
    (second : Nearest right great) (before : left < right) : small < great := by
  have ascends : (unitsOfRank left : ℚ) ≤ unitsOfRank (right - 1) := by
    exact_mod_cast unitsOfRank_strictMono.monotone (by omega : left ≤ right - 1)
  have ascends' : (unitsOfRank (left + 1) : ℚ) ≤ unitsOfRank right := by
    exact_mod_cast unitsOfRank_strictMono.monotone (by omega : left + 1 ≤ right)
  have high := first.high
  have low := second.low
  by_cases neighbours : left + 1 = right
  · -- Of two neighbours one is odd, so their common midpoint goes to the other one.
    rcases Nat.mod_two_eq_zero_or_one left with even | odd
    · have strict := (second.inside (by omega)).1
      linarith
    · have strict := (first.inside odd).2
      linarith
  · have apart : (unitsOfRank (left + 1) : ℚ) < unitsOfRank right := by
      exact_mod_cast unitsOfRank_strictMono (by omega : left + 1 < right)
    linarith

/-- The rank nearest to a magnitude is no higher than the one nearest to a greater magnitude. -/
theorem Nearest.mono {left right : Nat} {small great : ℚ} (first : Nearest left small)
    (second : Nearest right great) (le : small ≤ great) : left ≤ right :=
  Nat.le_of_not_lt fun before => (second.lt_of_lt first before).not_ge le

/-- Just one rank is nearest to a magnitude. -/
theorem Nearest.unique {left right : Nat} {magnitude : ℚ} (first : Nearest left magnitude)
    (second : Nearest right magnitude) : left = right :=
  Nat.le_antisymm (first.mono second le_rfl) (second.mono first le_rfl)

/-- A rank is nearest to its own magnitude. -/
theorem nearest_unitsOfRank (rank : Nat) : Nearest rank (unitsOfRank rank) := by
  have after : (unitsOfRank rank : ℚ) < unitsOfRank (rank + 1) := by
    exact_mod_cast unitsOfRank_strictMono (Nat.lt_succ_self rank)
  have before : (unitsOfRank (rank - 1) : ℚ) ≤ unitsOfRank rank := by
    exact_mod_cast unitsOfRank_strictMono.monotone (Nat.sub_le rank 1)
  refine ⟨by linarith, by linarith, fun odd => ⟨?_, by linarith⟩⟩
  have strictly : (unitsOfRank (rank - 1) : ℚ) < unitsOfRank rank := by
    exact_mod_cast unitsOfRank_strictMono (by omega : rank - 1 < rank)
  linarith

/-- Whether a rank is nearest to a quotient is decided by products of natural numbers. -/
theorem nearest_div_iff {rank numerator denominator : Nat} (positive : 0 < denominator) :
    Nearest rank (numerator / denominator : ℚ) ↔
      (unitsOfRank (rank - 1) + unitsOfRank rank) * denominator ≤ 2 * numerator ∧
        2 * numerator ≤ (unitsOfRank rank + unitsOfRank (rank + 1)) * denominator ∧
        (rank % 2 = 1 →
          (unitsOfRank (rank - 1) + unitsOfRank rank) * denominator < 2 * numerator ∧
            2 * numerator < (unitsOfRank rank + unitsOfRank (rank + 1)) * denominator) := by
  have divisor : (0 : ℚ) < denominator := by exact_mod_cast positive
  have leLow (bound : Nat) : (bound : ℚ) ≤ 2 * (numerator / denominator) ↔
      bound * denominator ≤ 2 * numerator := by
    rw [← mul_div_assoc, le_div_iff₀ divisor]
    exact_mod_cast Iff.rfl
  have ltLow (bound : Nat) : (bound : ℚ) < 2 * (numerator / denominator) ↔
      bound * denominator < 2 * numerator := by
    rw [← mul_div_assoc, lt_div_iff₀ divisor]
    exact_mod_cast Iff.rfl
  have leHigh (bound : Nat) : 2 * (numerator / denominator) ≤ (bound : ℚ) ↔
      2 * numerator ≤ bound * denominator := by
    rw [← mul_div_assoc, div_le_iff₀ divisor]
    exact_mod_cast Iff.rfl
  have ltHigh (bound : Nat) : 2 * (numerator / denominator) < (bound : ℚ) ↔
      2 * numerator < bound * denominator := by
    rw [← mul_div_assoc, div_lt_iff₀ divisor]
    exact_mod_cast Iff.rfl
  rw [← leLow, ← leHigh, ← ltLow, ← ltHigh, Nat.cast_add, Nat.cast_add]
  exact ⟨fun near => ⟨near.low, near.high, near.inside⟩, fun ⟨low, high, inside⟩ =>
    ⟨low, high, inside⟩⟩

/-- The power of two that a rounded quotient counts its significand in, above 2⁻¹⁰⁷⁴. -/
def scaleOfRatio (numerator denominator : Nat) : Nat :=
  (numerator * unitsPerOne / denominator).log2 - 52

/-- A quotient has at most 53 binary digits before the point in its power of two. -/
theorem lt_of_scaleOfRatio (numerator : Nat) {denominator : Nat}
    (positive : 0 < denominator) :
    numerator * unitsPerOne <
      2 * binade * (denominator * 2 ^ scaleOfRatio numerator denominator) := by
  have quotient : numerator * unitsPerOne / denominator <
      2 ^ (53 + scaleOfRatio numerator denominator) := by
    refine Nat.lt_of_lt_of_le Nat.lt_log2_self (Nat.pow_le_pow_right (by decide) ?_)
    rw [scaleOfRatio]
    omega
  calc numerator * unitsPerOne
      < 2 ^ (53 + scaleOfRatio numerator denominator) * denominator :=
        (Nat.div_lt_iff_lt_mul positive).mp quotient
    _ = 2 * binade * (denominator * 2 ^ scaleOfRatio numerator denominator) := by
        rw [Nat.pow_add, binade]
        ring

/-- A quotient that is scaled has 53 binary digits before the point in its power of two. -/
theorem le_of_scaleOfRatio (numerator : Nat) {denominator : Nat}
    (positive : 0 < denominator)
    (scaled : scaleOfRatio numerator denominator ≠ 0) :
    binade * (denominator * 2 ^ scaleOfRatio numerator denominator) ≤ numerator * unitsPerOne := by
  have filled : numerator * unitsPerOne / denominator ≠ 0 := by
    intro zero
    rw [scaleOfRatio, zero] at scaled
    exact scaled rfl
  have exponent : (numerator * unitsPerOne / denominator).log2 =
      52 + scaleOfRatio numerator denominator := by
    rw [scaleOfRatio] at scaled ⊢
    omega
  have quotient := Nat.log2_self_le filled
  rw [exponent] at quotient
  calc binade * (denominator * 2 ^ scaleOfRatio numerator denominator)
      = 2 ^ (52 + scaleOfRatio numerator denominator) * denominator := by
        rw [Nat.pow_add, binade]
        ring
    _ ≤ numerator * unitsPerOne := (Nat.le_div_iff_mul_le positive).mp quotient

/-- The power of two of a quotient, times its denominator, is positive. -/
theorem spacing_pos (numerator : Nat) {denominator : Nat} (positive : 0 < denominator) :
    0 < denominator * 2 ^ scaleOfRatio numerator denominator :=
  Nat.mul_pos positive (Nat.pow_pos (by decide))

/-- The significand of a rounded quotient. -/
def significandOfRatio (numerator denominator : Nat) : Nat :=
  roundHalfEven (numerator * unitsPerOne) (denominator * 2 ^ scaleOfRatio numerator denominator)

/-- A rounded quotient has 53 binary digits, or it is counted in units of 2⁻¹⁰⁷⁴. -/
theorem significandOfRatio_bounds (numerator : Nat) {denominator : Nat}
    (positive : 0 < denominator) :
    significandOfRatio numerator denominator ≤ 2 * binade ∧
      (binade ≤ significandOfRatio numerator denominator ∨
        scaleOfRatio numerator denominator = 0) := by
  have unit := spacing_pos numerator positive
  obtain ⟨low, high⟩ := roundHalfEven_near (numerator * unitsPerOne) _ unit
  rw [← significandOfRatio] at low high
  constructor
  · have below := lt_of_scaleOfRatio numerator positive
    refine Nat.le_of_lt_succ (Nat.lt_of_mul_lt_mul_right (a :=
      denominator * 2 ^ scaleOfRatio numerator denominator) ?_)
    rw [Nat.succ_mul]
    omega
  · by_cases scaled : scaleOfRatio numerator denominator = 0
    · exact .inr scaled
    · have above := le_of_scaleOfRatio numerator positive scaled
      refine .inl (Nat.le_of_lt_succ (Nat.lt_of_mul_lt_mul_right (a :=
        denominator * 2 ^ scaleOfRatio numerator denominator) ?_))
      rw [Nat.succ_mul]
      omega

/-- The magnitude of a rounded quotient. -/
theorem unitsOfRank_rankOfRatio (numerator : Nat) {denominator : Nat}
    (positive : 0 < denominator) :
    unitsOfRank (rankOfRatio numerator denominator) =
      significandOfRatio numerator denominator * 2 ^ scaleOfRatio numerator denominator := by
  obtain ⟨most, least⟩ := significandOfRatio_bounds numerator positive
  exact unitsOfRank_add most least

/-- A full significand is counted in no less than its power of two. -/
theorem le_scaleOfRank_add {significand scale : Nat} (least : binade ≤ significand ∨ scale = 0) :
    scale ≤ scaleOfRank (significand + scale * binade) := by
  rw [scaleOfRank, Nat.add_mul_div_right significand scale binade_pos]
  rcases least with full | zero
  · have one : 1 ≤ significand / binade := (Nat.one_le_div_iff binade_pos).mpr full
    omega
  · omega

/-- A rounded quotient is at most half of its power of two away from the quotient. -/
theorem near_rankOfRatio (numerator : Nat) {denominator : Nat}
    (positive : 0 < denominator) :
    2 * (unitsOfRank (rankOfRatio numerator denominator) * denominator) ≤
        2 * (numerator * unitsPerOne) +
          2 ^ scaleOfRatio numerator denominator * denominator ∧
      2 * (numerator * unitsPerOne) ≤
        2 * (unitsOfRank (rankOfRatio numerator denominator) * denominator) +
          2 ^ scaleOfRatio numerator denominator * denominator := by
  have unit := spacing_pos numerator positive
  have near := roundHalfEven_near (numerator * unitsPerOne) _ unit
  rw [← significandOfRatio, Nat.mul_comm denominator] at near
  rwa [unitsOfRank_rankOfRatio numerator positive, Nat.mul_assoc (significandOfRatio _ _)]

/-- A quotient with an odd rank is less than half of its power of two away from that rank. -/
theorem near_rankOfRatio_of_odd (numerator : Nat) {denominator : Nat}
    (positive : 0 < denominator)
    (odd : rankOfRatio numerator denominator % 2 = 1) :
    2 * (unitsOfRank (rankOfRatio numerator denominator) * denominator) <
        2 * (numerator * unitsPerOne) +
          2 ^ scaleOfRatio numerator denominator * denominator ∧
      2 * (numerator * unitsPerOne) <
        2 * (unitsOfRank (rankOfRatio numerator denominator) * denominator) +
          2 ^ scaleOfRatio numerator denominator * denominator := by
  have unit := spacing_pos numerator positive
  have oddSignificand : significandOfRatio numerator denominator % 2 = 1 := by
    change (significandOfRatio numerator denominator +
      scaleOfRatio numerator denominator * binade) % 2 = 1 at odd
    rw [binade] at odd
    omega
  have near := roundHalfEven_near_of_odd unit oddSignificand
  rw [← significandOfRatio, Nat.mul_comm denominator] at near
  rwa [unitsOfRank_rankOfRatio numerator positive, Nat.mul_assoc (significandOfRatio _ _)]

/-- A quotient that was rounded up is its power of two above the rank before. -/
theorem before_rankOfRatio (numerator : Nat) {denominator : Nat}
    (positive : 0 < denominator) :
    unitsOfRank (rankOfRatio numerator denominator - 1) +
        2 ^ scaleOfRatio numerator denominator ≤
          unitsOfRank (rankOfRatio numerator denominator) ∨
      unitsOfRank (rankOfRatio numerator denominator) * denominator ≤
        numerator * unitsPerOne := by
  have magnitude := unitsOfRank_rankOfRatio numerator positive
  have bounds := significandOfRatio_bounds numerator positive
  have unfolded : rankOfRatio numerator denominator =
      significandOfRatio numerator denominator + scaleOfRatio numerator denominator * binade := rfl
  have succ (rank : Nat) (scaled : scaleOfRatio numerator denominator ≤ scaleOfRank rank) :
      unitsOfRank rank + 2 ^ scaleOfRatio numerator denominator ≤ unitsOfRank (rank + 1) := by
    rw [unitsOfRank_succ]
    exact Nat.add_le_add_left (Nat.pow_le_pow_right (by decide) scaled) _
  by_cases scaled : scaleOfRatio numerator denominator = 0
  · by_cases zero : rankOfRatio numerator denominator = 0
    · right
      rw [zero, unitsOfRank_of_lt binade_pos, Nat.zero_mul]
      exact Nat.zero_le _
    · left
      have before := succ (rankOfRatio numerator denominator - 1) (scaled ▸ Nat.zero_le _)
      rwa [Nat.sub_add_cancel (Nat.pos_of_ne_zero zero)] at before
  · have full : binade ≤ significandOfRatio numerator denominator := bounds.2.resolve_right scaled
    by_cases least : significandOfRatio numerator denominator = binade
    · -- Below a power of two the ranks are closer together, but none of them is rounded up to it.
      right
      rw [magnitude, least, Nat.mul_assoc, Nat.mul_comm (2 ^ _)]
      exact le_of_scaleOfRatio numerator positive scaled
    · left
      obtain ⟨place, same⟩ : ∃ place, significandOfRatio numerator denominator = place + 1 :=
        ⟨significandOfRatio numerator denominator - 1, by omega⟩
      have previous : rankOfRatio numerator denominator =
          place + scaleOfRatio numerator denominator * binade + 1 := by
        rw [unfolded, same, Nat.add_right_comm]
      rw [previous, Nat.add_sub_cancel]
      exact succ _ (le_scaleOfRank_add (.inl (by omega)))

/-- A quotient is rounded to its nearest rank. -/
theorem nearest_rankOfRatio (numerator : Nat) {denominator : Nat}
    (positive : 0 < denominator) :
    Nearest (rankOfRatio numerator denominator) (numerator * unitsPerOne / denominator) := by
  obtain ⟨low, high⟩ := near_rankOfRatio numerator positive
  have strict := near_rankOfRatio_of_odd numerator positive
  have after : 2 ^ scaleOfRatio numerator denominator * denominator ≤
      2 ^ scaleOfRank (rankOfRatio numerator denominator) * denominator :=
    Nat.mul_le_mul_right _ (Nat.pow_le_pow_right (by decide)
      (le_scaleOfRank_add (significandOfRatio_bounds numerator positive).2))
  rw [← Nat.cast_mul, nearest_div_iff positive, unitsOfRank_succ]
  simp only [Nat.add_mul]
  rcases before_rankOfRatio numerator positive with apart | down
  · have apart := Nat.mul_le_mul_right denominator apart
    rw [Nat.add_mul] at apart
    refine ⟨by omega, by omega, fun odd => ?_⟩
    have strict := strict odd
    exact ⟨by omega, by omega⟩
  · have before := Nat.mul_le_mul_right denominator
      (unitsOfRank_strictMono.monotone (Nat.sub_le (rankOfRatio numerator denominator) 1))
    refine ⟨by omega, by omega, fun odd => ?_⟩
    have strictly : rankOfRatio numerator denominator - 1 < rankOfRatio numerator denominator := by
      omega
    have before := Nat.mul_lt_mul_of_pos_right (unitsOfRank_strictMono strictly) positive
    have strict := strict odd
    exact ⟨by omega, by omega⟩

end Binary64

end GameRules
