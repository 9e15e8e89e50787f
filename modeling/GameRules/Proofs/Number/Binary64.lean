import GameRules.Proofs.Number.Nearest
import Mathlib.Algebra.Order.AbsoluteValue.Basic
import Mathlib.Algebra.Order.Archimedean.Basic
import Mathlib.Data.Rat.Lemmas

/-!
# Arithmetic is exact, rounded once

Every operation on finite numbers gives what its exact result is rounded to. A value of a number is
rounded to that number; any other value is off by no more than half of the distance between numbers
of its size.
-/

namespace GameRules.Binary64

/-- The magnitude of a number. -/
def magnitude (number : Binary64) : ℚ := number.units / unitsPerOne

/-- The number nearest to a magnitude, with a sign, unless it rounds beyond the finite values. -/
def rounded? (negative : Bool) (value : ℚ) : Option Binary64 :=
  ofRatio? negative value.num.toNat value.den

/-- One is a positive number of units. -/
theorem unitsPerOne_pos : (0 : ℚ) < unitsPerOne := by
  rw [unitsPerOne, Nat.cast_pow]
  positivity

/-- A magnitude is not negative. -/
theorem magnitude_nonneg (number : Binary64) : 0 ≤ number.magnitude :=
  div_nonneg (Nat.cast_nonneg _) unitsPerOne_pos.le

/-- A quotient is rounded to the rank that is nearest to it. -/
theorem ofRatio?_of_nearest {rank numerator denominator : Nat} (negative : Bool)
    (finite : rank < 2047 * 2 ^ 52) (positive : 0 < denominator)
    (near : Nearest rank (numerator / denominator * unitsPerOne)) :
    ofRatio? negative numerator denominator = some ⟨negative, rank, finite⟩ := by
  have same : rankOfRatio numerator denominator = rank := by
    refine (nearest_rankOfRatio numerator positive).unique ?_
    rwa [mul_div_right_comm]
  subst same
  exact dif_pos finite

/-- How a quotient is rounded depends only on its value. -/
theorem ofRatio?_eq (negative : Bool) (numerator : Nat) {denominator : Nat}
    (positive : 0 < denominator) :
    ofRatio? negative numerator denominator = rounded? negative (numerator / denominator) := by
  have value : ((numerator / denominator : ℚ).num.toNat / (numerator / denominator : ℚ).den : ℚ) =
      numerator / denominator := by
    have nonneg : 0 ≤ (numerator / denominator : ℚ).num :=
      Rat.num_nonneg.mpr (div_nonneg (Nat.cast_nonneg _) (Nat.cast_nonneg _))
    have whole : ((numerator / denominator : ℚ).num.toNat : ℚ) =
        ((numerator / denominator : ℚ).num : ℚ) := by
      exact_mod_cast Int.toNat_of_nonneg nonneg
    rw [whole, Rat.num_div_den]
  have same : rankOfRatio numerator denominator =
      rankOfRatio (numerator / denominator : ℚ).num.toNat (numerator / denominator : ℚ).den := by
    have near := nearest_rankOfRatio (numerator / denominator : ℚ).num.toNat
      (numerator / denominator : ℚ).den_pos
    rw [mul_div_right_comm, value, ← mul_div_right_comm] at near
    exact (nearest_rankOfRatio numerator positive).unique near
  rw [rounded?, ofRatio?, ofRatio?, same]

/-- Rounding gives the sign that it is asked for. -/
theorem negative_of_rounded? {negative : Bool} {value : ℚ} {number : Binary64}
    (rounded : rounded? negative value = some number) : number.negative = negative := by
  simp only [rounded?, ofRatio?] at rounded
  split at rounded
  · cases rounded
    rfl
  · cases rounded

/-- An integer is rounded from its own value. -/
theorem ofInt?_natCast (value : Nat) : ofInt? value = rounded? false value := by
  have natural : ¬(value : Int) < 0 := Int.not_lt.mpr (Int.natCast_nonneg value)
  rw [ofInt?, ofRatio?_eq _ _ Nat.one_pos, decide_eq_false natural, Int.natAbs_natCast,
    Nat.cast_one, div_one]

/-- A decimal is rounded from its own value. -/
theorem ofDecimal?_eq (digits places : Nat) :
    ofDecimal? digits places = rounded? false (digits / 10 ^ places) := by
  rw [ofDecimal?, ofRatio?_eq _ _ (Nat.pow_pos (by decide)), Nat.cast_pow, Nat.cast_ofNat]

/-- A product is rounded from the exact product. -/
theorem mul?_eq (left right : Binary64) :
    left.mul? right =
      rounded? (left.negative != right.negative) (left.magnitude * right.magnitude) := by
  have unit : 0 < unitsPerOne := Nat.cast_pos.mp unitsPerOne_pos
  rw [mul?, ofRatio?_eq _ _ (Nat.mul_pos unit unit), Nat.cast_mul, Nat.cast_mul, magnitude,
    magnitude, div_mul_div_comm]

/-- A quotient is rounded from the exact quotient. -/
theorem div?_eq (left : Binary64) {right : Binary64} (nonzero : right.magnitude ≠ 0) :
    left.div? right =
      rounded? (left.negative != right.negative) (left.magnitude / right.magnitude) := by
  have positive : 0 < right.units := by
    refine Nat.pos_of_ne_zero fun zero => nonzero ?_
    rw [magnitude, zero, Nat.cast_zero, zero_div]
  rw [div?, ofRatio?_eq _ _ positive, magnitude, magnitude,
    div_div_div_cancel_right₀ unitsPerOne_pos.ne']

/-- A sum of magnitudes is rounded from the exact sum. -/
theorem addMagnitudes?_eq (left right : Binary64) :
    left.addMagnitudes? right = rounded? false (left.magnitude + right.magnitude) := by
  rw [addMagnitudes?, ofRatio?_eq _ _ (Nat.cast_pos.mp unitsPerOne_pos), Nat.cast_add, magnitude,
    magnitude, add_div]

/-- The rank that a value is rounded to is nearest to it. -/
theorem nearest_rankOfRatio_of_nonneg {value : ℚ} (nonneg : 0 ≤ value) :
    Nearest (rankOfRatio value.num.toNat value.den) (value * unitsPerOne) := by
  have near := nearest_rankOfRatio value.num.toNat value.den_pos
  have whole : (value.num.toNat : ℚ) = (value.num : ℚ) := by
    exact_mod_cast Int.toNat_of_nonneg (Rat.num_nonneg.mpr nonneg)
  rwa [mul_div_right_comm, whole, Rat.num_div_den] at near

/-- Rounding succeeds on every value up to one on which it does, and it does not reverse them. -/
theorem exists_rounded?_of_le_of_rounded {value greater : ℚ} {bound : Binary64} {sign : Bool}
    (negative : Bool) (nonneg : 0 ≤ value) (le : value ≤ greater)
    (rounded : rounded? sign greater = some bound) :
    ∃ number, rounded? negative value = some number ∧ number.magnitude ≤ bound.magnitude := by
  have near := nearest_rankOfRatio_of_nonneg nonneg
  have nearBound := nearest_rankOfRatio_of_nonneg (nonneg.trans le)
  have units := mul_le_mul_of_nonneg_right le unitsPerOne_pos.le
  have ranks := near.mono nearBound units
  unfold rounded? ofRatio? at rounded ⊢
  dsimp only at rounded ⊢
  split at rounded
  · rename_i finite
    cases rounded
    refine ⟨_, dif_pos (Nat.lt_of_le_of_lt ranks finite), ?_⟩
    refine div_le_div_of_nonneg_right ?_ unitsPerOne_pos.le
    exact_mod_cast unitsOfRank_strictMono.monotone ranks
  · cases rounded

/-- A value that a rank is nearest to is rounded to that rank. -/
theorem rounded?_of_nearest {rank : Nat} {value : ℚ} (negative : Bool)
    (finite : rank < 2047 * 2 ^ 52) (nonneg : 0 ≤ value)
    (near : Nearest rank (value * unitsPerOne)) :
    rounded? negative value = some ⟨negative, rank, finite⟩ := by
  have whole : (value.num.toNat : ℚ) = (value.num : ℚ) := by
    exact_mod_cast Int.toNat_of_nonneg (Rat.num_nonneg.mpr nonneg)
  refine ofRatio?_of_nearest negative finite value.den_pos ?_
  rwa [whole, Rat.num_div_den]

/-- The magnitude of a number is rounded to that number. -/
theorem rounded?_magnitude (negative : Bool) (number : Binary64) :
    rounded? negative number.magnitude = some { number with negative := negative } := by
  refine rounded?_of_nearest negative number.finite number.magnitude_nonneg ?_
  rw [magnitude, div_mul_cancel₀ _ unitsPerOne_pos.ne']
  exact nearest_unitsOfRank number.rank

/-- The magnitude of a number without a sign is kept by rounding. -/
theorem rounded?_self {number : Binary64} (natural : number.negative = false) :
    rounded? false number.magnitude = some number := by
  rw [rounded?_magnitude, ← natural]

/-- The rank of a power of two. -/
def rankOfPower (exponent : Nat) : Nat := (exponent + 1023) * binade

/-- The magnitude of a power of two is that power. -/
theorem unitsOfRank_rankOfPower (exponent : Nat) :
    unitsOfRank (rankOfPower exponent) = 2 ^ exponent * unitsPerOne := by
  have place : rankOfPower exponent = binade + (exponent + 1022) * binade := by
    rw [rankOfPower]
    ring
  have exponents : 52 + (exponent + 1022) = exponent + 1074 := by omega
  rw [place, unitsOfRank_add (Nat.le_mul_of_pos_left _ Nat.two_pos) (.inl (Nat.le_refl _)),
    binade, unitsPerOne, ← Nat.pow_add, ← Nat.pow_add, exponents]

/-- The ranks below a power of two are at most 2⁻⁵³ of that power apart. -/
theorem scaleOfRank_le {rank exponent : Nat} (below : rank < rankOfPower exponent) :
    scaleOfRank rank ≤ exponent + 1021 := by
  have quotient : rank / binade < exponent + 1023 := Nat.div_lt_of_lt_mul (by
    rwa [rankOfPower, Nat.mul_comm] at below)
  rw [scaleOfRank]
  omega

/-- The rank nearest to a magnitude does not lie beyond a rank whose magnitude is not smaller. -/
theorem Nearest.le_of_le {rank bound : Nat} {magnitude : ℚ} (near : Nearest rank magnitude)
    (bounded : magnitude ≤ unitsOfRank bound) : rank ≤ bound :=
  near.mono (nearest_unitsOfRank bound) bounded

/-- Up to a power of two, neighbouring magnitudes are at most 2⁻⁵³ of that power apart. -/
theorem unitsOfRank_succ_le {rank exponent : Nat} (below : rank < rankOfPower exponent) :
    (unitsOfRank (rank + 1) : ℚ) ≤ unitsOfRank rank + 2 ^ exponent * unitsPerOne / 2 ^ 53 := by
  have exponents : 2 ^ scaleOfRank rank * 2 ^ 53 ≤ 2 ^ exponent * unitsPerOne := by
    rw [unitsPerOne, ← Nat.pow_add, ← Nat.pow_add]
    exact Nat.pow_le_pow_right Nat.two_pos (Nat.add_le_add_right (scaleOfRank_le below) 53)
  have step : (2 ^ scaleOfRank rank : ℚ) ≤ 2 ^ exponent * unitsPerOne / 2 ^ 53 := by
    rw [le_div_iff₀ (by positivity)]
    exact_mod_cast exponents
  rw [unitsOfRank_succ, Nat.cast_add, Nat.cast_pow, Nat.cast_ofNat]
  linarith

/-- The rank nearest to a magnitude up to a power of two is off by at most 2⁻⁵⁴ of that power. -/
theorem Nearest.abs_sub_le {rank exponent : Nat} {magnitude : ℚ} (near : Nearest rank magnitude)
    (bounded : magnitude ≤ unitsOfRank (rankOfPower exponent)) :
    |(unitsOfRank rank : ℚ) - magnitude| ≤ 2 ^ exponent * unitsPerOne / 2 ^ 53 / 2 := by
  have inside := near.le_of_le bounded
  have low := near.low
  have high := near.high
  have positive : 0 ≤ 2 ^ exponent * (unitsPerOne : ℚ) / 2 ^ 53 :=
    div_nonneg (mul_nonneg (by positivity) unitsPerOne_pos.le) (by positivity)
  rw [abs_sub_le_iff]
  constructor
  · -- A magnitude below its rank is no further away than half of the way to the rank before.
    by_cases first : rank = 0
    · subst first
      linarith
    · have before := unitsOfRank_succ_le (by omega : rank - 1 < rankOfPower exponent)
      rw [Nat.sub_add_cancel (Nat.pos_of_ne_zero first)] at before
      linarith
  · by_cases last : rank = rankOfPower exponent
    · subst last
      linarith
    · have after := unitsOfRank_succ_le (by omega : rank < rankOfPower exponent)
      linarith

/-- Rounding a value up to a power of two changes it by at most 2⁻⁵⁴ of that power. -/
theorem exists_rounded? (exponent : Nat) {value : ℚ} (negative : Bool) (nonneg : 0 ≤ value)
    (bounded : value ≤ 2 ^ exponent) (small : exponent ≤ 1023) :
    ∃ number, rounded? negative value = some number ∧
      |number.magnitude - value| ≤ 2 ^ exponent / 2 ^ 54 := by
  have near := nearest_rankOfRatio_of_nonneg nonneg
  have units : value * unitsPerOne ≤ unitsOfRank (rankOfPower exponent) := by
    rw [unitsOfRank_rankOfPower, Nat.cast_mul, Nat.cast_pow, Nat.cast_ofNat]
    exact mul_le_mul_of_nonneg_right bounded unitsPerOne_pos.le
  have finite : rankOfRatio value.num.toNat value.den < 2047 * 2 ^ 52 := by
    have inside := near.le_of_le units
    have bound : rankOfPower exponent ≤ 2046 * binade :=
      Nat.mul_le_mul_right binade (by omega)
    rw [binade] at bound
    omega
  refine ⟨_, rounded?_of_nearest negative finite nonneg near, ?_⟩
  have error := near.abs_sub_le units
  calc |(unitsOfRank (rankOfRatio value.num.toNat value.den) : ℚ) / unitsPerOne - value|
      = |(unitsOfRank (rankOfRatio value.num.toNat value.den) : ℚ) - value * unitsPerOne| /
          unitsPerOne := by
        rw [← abs_of_pos unitsPerOne_pos, ← abs_div, sub_div, abs_of_pos unitsPerOne_pos,
          mul_div_cancel_right₀ _ unitsPerOne_pos.ne']
    _ ≤ 2 ^ exponent * unitsPerOne / 2 ^ 53 / 2 / unitsPerOne :=
        div_le_div_of_nonneg_right error unitsPerOne_pos.le
    _ = 2 ^ exponent / 2 ^ 54 := by
        have units := unitsPerOne_pos.ne'
        field_simp

/-- Rounding a value changes it by at most 2⁻⁵³ of itself, or of one if the value is smaller. -/
theorem exists_rounded?_of_le {value : ℚ} (negative : Bool) (nonneg : 0 ≤ value)
    (bounded : value ≤ 2 ^ 128) :
    ∃ number, rounded? negative value = some number ∧
      |number.magnitude - value| ≤ (value + 1) / 2 ^ 53 := by
  by_cases small : value ≤ 1
  · obtain ⟨number, rounded, error⟩ := exists_rounded? 0 negative nonneg (by simpa) (by decide)
    refine ⟨number, rounded, error.trans ?_⟩
    linarith
  · obtain ⟨exponent, low, high⟩ := exists_nat_pow_near (not_le.mp small).le one_lt_two
    have limit : exponent ≤ 128 :=
      (pow_le_pow_iff_right₀ (one_lt_two : (1 : ℚ) < 2)).mp (low.trans bounded)
    obtain ⟨number, rounded, error⟩ :=
      exists_rounded? (exponent + 1) negative nonneg high.le (by omega)
    refine ⟨number, rounded, error.trans ?_⟩
    rw [pow_succ]
    linarith

/-- A positive integer of up to 53 binary digits is filled up to 53 by a power of two. -/
theorem exists_full {significand : Nat} (positive : 0 < significand)
    (most : significand ≤ 2 * binade) :
    ∃ shift ≤ 52, binade ≤ significand * 2 ^ shift ∧ significand * 2 ^ shift ≤ 2 * binade := by
  by_cases full : binade ≤ significand
  · exact ⟨0, by omega, by rwa [Nat.pow_zero, Nat.mul_one], by rwa [Nat.pow_zero, Nat.mul_one]⟩
  · have digits : significand.log2 < 52 :=
      (Nat.log2_lt positive.ne').mpr (Nat.lt_of_not_le full)
    have low := Nat.log2_self_le positive.ne'
    have high := Nat.lt_log2_self (n := significand)
    have exponents : significand.log2 + (52 - significand.log2) = 52 := by omega
    have exponents' : significand.log2 + 1 + (52 - significand.log2) = 1 + 52 := by omega
    refine ⟨52 - significand.log2, by omega, ?_, ?_⟩
    · calc binade = 2 ^ significand.log2 * 2 ^ (52 - significand.log2) := by
            rw [← Nat.pow_add, exponents, binade]
        _ ≤ significand * 2 ^ (52 - significand.log2) := Nat.mul_le_mul_right _ low
    · calc significand * 2 ^ (52 - significand.log2)
          ≤ 2 ^ (significand.log2 + 1) * 2 ^ (52 - significand.log2) :=
            Nat.mul_le_mul_right _ high.le
        _ = 2 * binade := by rw [← Nat.pow_add, exponents', Nat.pow_add, binade, Nat.pow_one]

/-- An integer of up to 53 binary digits, times a power of two, is the magnitude of a number. -/
theorem exists_magnitude_eq {significand scale : Nat} (most : significand ≤ 2 * binade)
    (small : scale ≤ 960) :
    ∃ number : Binary64, number.magnitude = significand * 2 ^ scale := by
  rcases Nat.eq_zero_or_pos significand with rfl | positive
  · refine ⟨zero, ?_⟩
    rw [magnitude, units, zero, unitsOfRank_of_lt binade_pos, Nat.cast_zero,
      zero_div, zero_mul]
  · obtain ⟨shift, few, least, full⟩ := exists_full positive most
    have finite : significand * 2 ^ shift + (scale + 1074 - shift) * binade < 2047 * 2 ^ 52 := by
      have scaled : (scale + 1074 - shift) * binade ≤ 2034 * binade :=
        Nat.mul_le_mul_right binade (by omega)
      rw [binade] at scaled full ⊢
      omega
    have exponents : shift + (scale + 1074 - shift) = scale + 1074 := by omega
    have units : unitsOfRank (significand * 2 ^ shift + (scale + 1074 - shift) * binade) =
        significand * 2 ^ scale * unitsPerOne := by
      rw [unitsOfRank_add full (.inl least), unitsPerOne, Nat.mul_assoc, Nat.mul_assoc,
        ← Nat.pow_add, ← Nat.pow_add, exponents]
    refine ⟨⟨false, _, finite⟩, ?_⟩
    rw [magnitude, Binary64.units, units, Nat.cast_mul, mul_div_cancel_right₀ _ unitsPerOne_pos.ne',
      Nat.cast_mul, Nat.cast_pow, Nat.cast_ofNat]

/-- An integer of up to 53 binary digits, times a power of two, is kept by rounding. -/
theorem exists_rounded?_eq {significand scale : Nat} (negative : Bool)
    (most : significand ≤ 2 * binade) (small : scale ≤ 960) :
    ∃ number, rounded? negative (significand * 2 ^ scale) = some number ∧
      number.magnitude = significand * 2 ^ scale := by
  obtain ⟨number, exact⟩ := exists_magnitude_eq most small
  rw [← exact]
  exact ⟨_, rounded?_magnitude negative number, rfl⟩

/-- An integer of up to 53 binary digits is kept by rounding. -/
theorem exists_rounded?_natCast {value : Nat} (negative : Bool) (most : value ≤ 2 * binade) :
    ∃ number, rounded? negative value = some number ∧ number.magnitude = value := by
  have exact := exists_rounded?_eq negative most (Nat.zero_le 960)
  rwa [pow_zero, mul_one] at exact

/-- An integer of up to 53 binary digits is kept as a number. -/
theorem exists_ofInt? {value : Nat} (most : value ≤ 2 * binade) :
    ∃ number, ofInt? value = some number ∧ number.negative = false ∧ number.magnitude = value := by
  obtain ⟨number, rounded, exact⟩ := exists_rounded?_natCast false most
  exact ⟨number, (ofInt?_natCast value).trans rounded, negative_of_rounded? rounded, exact⟩

/-- One thousand is kept as a number. -/
theorem exists_thousand :
    ∃ number, ofInt? 1000 = some number ∧ number.negative = false ∧ number.magnitude = 1000 := by
  obtain ⟨number, read, natural, exact⟩ := exists_ofInt? (by decide : 1000 ≤ 2 * binade)
  exact ⟨number, read, natural, by rw [exact, Nat.cast_ofNat]⟩

end GameRules.Binary64
