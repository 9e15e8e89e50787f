import GameRules.Proofs.Json.Number
import GameRules.Proofs.Json.Proper
import GameRules.Proofs.Number.Binary64

/-!
# Numerals that are within the finite numbers

A numeral is refused only if a rounding on the way to its number leaves the finite numbers. Rounding
does not reverse the order of magnitudes, so it is enough that the greatest significands are scaled to
finite numbers, one for each power of ten.
-/

namespace GameRules

namespace Binary64

/-- A product is finite if a product of factors that are no smaller is. -/
theorem exists_mul?_of_le {left right left' right' product : Binary64}
    (leftLe : left.magnitude ≤ left'.magnitude) (rightLe : right.magnitude ≤ right'.magnitude)
    (finite : left'.mul? right' = some product) : ∃ number, left.mul? right = some number := by
  rw [mul?_eq] at finite ⊢
  have nonneg := mul_nonneg left.magnitude_nonneg right.magnitude_nonneg
  have le := mul_le_mul leftLe rightLe right.magnitude_nonneg left'.magnitude_nonneg
  obtain ⟨number, rounded, -⟩ := exists_rounded?_of_le_of_rounded _ nonneg le finite
  exact ⟨number, rounded⟩

/-- A quotient by a number that is at least one is finite. -/
theorem exists_div?_of_one_le (left : Binary64) {right : Binary64} (least : 1 ≤ right.magnitude) :
    ∃ number, left.div? right = some number := by
  have positive : 0 < right.magnitude := one_pos.trans_le least
  rw [div?_eq left positive.ne']
  obtain ⟨number, rounded, -⟩ := exists_rounded?_of_le_of_rounded _
    (div_nonneg left.magnitude_nonneg positive.le) (div_le_self left.magnitude_nonneg least)
    (rounded?_magnitude false left)
  exact ⟨number, rounded⟩

end Binary64

namespace Numeral

/-- What the digits of a numeral stand for, times its power of ten and without its sign. -/
def magnitude (numeral : Numeral) : ℚ :=
  Nat.ofDigitChars 10 (numeral.whole ++ numeral.fraction.getD []) 0 *
    10 ^ (numeral.exponent.getD 0 - ((numeral.fraction.getD []).length : Int))

/-- A magnitude up to which every numeral is read as a number: that of the greatest number but one, as it
is written. -/
def scalableMax : Nat := 17976931348623155 * 10 ^ 292

/-- Digits that are left out do not make a significand greater. -/
theorem absorb_mul_le (digits : List Char) (start : Nat) :
    (absorb start digits).1 * 10 ^ (absorb start digits).2.length ≤
      Nat.ofDigitChars 10 digits start := by
  induction digits generalizing start with
  | nil => exact (Nat.mul_one start).le
  | cons digit digits ih =>
    have next : start * 10 + digitValue digit = 10 * start + (digit.toNat - '0'.toNat) := by
      rw [Nat.mul_comm, digitValue]
    rw [absorb, Nat.ofDigitChars_cons, ← next]
    split
    · exact ih _
    · rw [Nat.ofDigitChars_eq_ofDigitChars_zero, List.length_cons]
      calc start * 10 ^ (digits.length + 1) = 10 ^ digits.length * (start * 10) := by ring
        _ ≤ 10 ^ digits.length * (start * 10 + digitValue digit) :=
          Nat.mul_le_mul_left _ (Nat.le_add_right _ _)
        _ ≤ 10 ^ digits.length * (start * 10 + digitValue digit) + Nat.ofDigitChars 10 digits 0 :=
          Nat.le_add_right _ _

/-- The greatest finite power of ten is finite. -/
theorem isSome_ofInt?_maxTenPower : (Binary64.ofInt? (10 ^ maxTenPower : Nat)).isSome = true := by
  decide +kernel

/-- Powers of ten up to the greatest finite one are rounded to numbers. -/
theorem rounded?_tenTo {exponent : Nat} (small : exponent ≤ maxTenPower) :
    Binary64.rounded? false ((10 ^ exponent : Nat) : ℚ) = some (tenTo exponent) := by
  obtain ⟨greatest, read⟩ := Option.isSome_iff_exists.mp isSome_ofInt?_maxTenPower
  rw [Binary64.ofInt?_natCast] at read
  have le : ((10 ^ exponent : Nat) : ℚ) ≤ (10 ^ maxTenPower : Nat) := by
    exact_mod_cast Nat.pow_le_pow_right (by decide) small
  obtain ⟨number, rounded, -⟩ :=
    Binary64.exists_rounded?_of_le_of_rounded false (Nat.cast_nonneg _) le read
  have power : ((10 : Int) ^ exponent) = ((10 ^ exponent : Nat) : Int) := by push_cast; rfl
  rw [tenTo, power, Binary64.ofInt?_natCast, rounded, Option.getD_some]

/-- Powers of ten ascend. -/
theorem magnitude_tenTo_le {exponent greater : Nat} (le : exponent ≤ greater)
    (small : greater ≤ maxTenPower) : (tenTo exponent).magnitude ≤ (tenTo greater).magnitude := by
  have powers : ((10 ^ exponent : Nat) : ℚ) ≤ (10 ^ greater : Nat) := by
    exact_mod_cast Nat.pow_le_pow_right (by decide) le
  obtain ⟨number, rounded, le'⟩ := Binary64.exists_rounded?_of_le_of_rounded false
    (Nat.cast_nonneg _) powers (rounded?_tenTo small)
  rw [rounded?_tenTo (le.trans small)] at rounded
  cases rounded
  exact le'

/-- Powers of ten are at least one. -/
theorem one_le_magnitude_tenTo {exponent : Nat} (small : exponent ≤ maxTenPower) :
    1 ≤ (tenTo exponent).magnitude := by
  obtain ⟨one, rounded, exact⟩ :=
    Binary64.exists_rounded?_natCast false (by decide : 1 ≤ 2 * Binary64.binade)
  have first := rounded?_tenTo (Nat.zero_le maxTenPower)
  rw [Nat.pow_zero, rounded, Option.some.injEq] at first
  have least := magnitude_tenTo_le (Nat.zero_le exponent) small
  rwa [← first, exact, Nat.cast_one] at least

/-- A negative power of ten scales every number to a finite one. -/
theorem exists_scaleByTen_of_neg (number : Binary64) {exponent : Int} (negative : exponent < 0) :
    ∃ scaled, scaleByTen number exponent = some scaled := by
  fun_induction scaleByTen number exponent with
  | case1 => omega
  | case2 number exponent small => exact number.exists_div?_of_one_le (one_le_magnitude_tenTo small)
  | case3 number => exact ⟨number, rfl⟩
  | case4 => omega
  | case5 number exponent large nonzero _ ih =>
    obtain ⟨smaller, divided⟩ := number.exists_div?_of_one_le (one_le_magnitude_tenTo le_rfl)
    rw [divided, Option.bind_some]
    refine ih smaller ?_
    rw [maxTenPower] at large ⊢
    omega

/-- The greatest significand is scaled to a finite number by 10²⁸⁸. -/
theorem isSome_greatest :
    ((Binary64.ofInt? significandMax).bind (·.mul? (tenTo 288))).isSome = true := by
  decide +kernel

/-- Beyond 10²⁸⁸, the greatest significand that stays below the bound is scaled to a finite number. -/
theorem isSome_greatest_quotient :
    ∀ more < 20, ((Binary64.ofInt? (scalableMax / 10 ^ (289 + more) : Nat)).bind
      (·.mul? (tenTo (289 + more)))).isSome = true := by
  decide +kernel

/-- A significand is scaled to a finite number if a greater one is, by a greater power of ten. -/
theorem exists_mul?_tenTo {significand greatest exponent power : Nat} {number : Binary64}
    (read : Binary64.ofInt? significand = some number) (le : significand ≤ greatest)
    (below : exponent ≤ power) (small : power ≤ maxTenPower)
    (finite : ((Binary64.ofInt? greatest).bind (·.mul? (tenTo power))).isSome = true) :
    ∃ scaled, number.mul? (tenTo exponent) = some scaled := by
  obtain ⟨product, scaled⟩ := Option.isSome_iff_exists.mp finite
  obtain ⟨bound, readBound, multiplied⟩ := Option.bind_eq_some_iff.mp scaled
  rw [Binary64.ofInt?_natCast] at read readBound
  obtain ⟨number', rounded, factors⟩ := Binary64.exists_rounded?_of_le_of_rounded false
    (Nat.cast_nonneg significand) (Nat.cast_le.mpr le) readBound
  rw [read, Option.some.injEq] at rounded
  rw [← rounded] at factors
  exact Binary64.exists_mul?_of_le factors (magnitude_tenTo_le below small) multiplied

/-- A significand is scaled to a finite number as long as the exact product is within the bound. -/
theorem exists_scaleByTen {significand : Nat} {number : Binary64} {exponent : Int}
    (fits : significand ≤ significandMax) (read : Binary64.ofInt? significand = some number)
    (bounded : (significand : ℚ) * 10 ^ exponent ≤ scalableMax) :
    ∃ scaled, scaleByTen number exponent = some scaled := by
  by_cases negative : exponent < 0
  · exact exists_scaleByTen_of_neg number negative
  obtain ⟨power, rfl⟩ := Int.eq_ofNat_of_zero_le (Int.not_lt.mp negative)
  have product : significand * 10 ^ power ≤ scalableMax := by exact_mod_cast bounded
  rw [scaleByTen, Int.natAbs_natCast, if_pos (Int.natCast_nonneg power)]
  split
  · rename_i small
    by_cases low : power ≤ 288
    · exact exists_mul?_tenTo read fits low (by decide) isSome_greatest
    · obtain ⟨more, rfl⟩ := Nat.exists_eq_add_of_lt (Nat.lt_of_not_le low)
      rw [maxTenPower] at small
      have quotient := (Nat.le_div_iff_mul_le (Nat.pow_pos (by decide))).mpr product
      have finite := isSome_greatest_quotient more (by omega)
      rw [Nat.add_right_comm] at quotient small ⊢
      exact exists_mul?_tenTo read quotient le_rfl small finite
  · rename_i large
    -- Only zero stays below the bound beyond the greatest power of ten.
    have zero : significand = 0 := by
      by_contra positive
      have powers : 10 ^ (maxTenPower + 1) ≤ 10 ^ power :=
        Nat.pow_le_pow_right (by decide) (Nat.lt_of_not_le large)
      have least := Nat.le_mul_of_pos_left (10 ^ power) (Nat.pos_of_ne_zero positive)
      have beyond : scalableMax < 10 ^ (maxTenPower + 1) := by decide +kernel
      omega
    have rounded : Binary64.ofInt? (0 : Nat) = some Binary64.zero := by decide +kernel
    rw [zero, rounded, Option.some.injEq] at read
    rw [← read]
    exact ⟨_, if_pos rfl⟩

/-- The significand that is taken from the digits, times the power of ten that makes up for the point
and for the digits left out, is no more than the numeral stands for. -/
theorem significand_mul_le (numeral : Numeral) {significand : Nat} {dropped : List Char}
    (absorbed : absorb (Nat.ofDigitChars 10 numeral.whole 0) (numeral.fraction.getD []) =
      (significand, dropped)) :
    (significand : ℚ) * 10 ^ (-((numeral.fraction.getD []).length - dropped.length : Int) +
      numeral.exponent.getD 0) ≤ numeral.magnitude := by
  have less := absorb_mul_le (numeral.fraction.getD []) (Nat.ofDigitChars 10 numeral.whole 0)
  rw [absorbed] at less
  have digits : (significand : ℚ) * 10 ^ dropped.length ≤ Nat.ofDigitChars 10
      (numeral.fraction.getD []) (Nat.ofDigitChars 10 numeral.whole 0) := by exact_mod_cast less
  have exponents : -((numeral.fraction.getD []).length - dropped.length : Int) +
      numeral.exponent.getD 0 =
        dropped.length + (numeral.exponent.getD 0 - (numeral.fraction.getD []).length) := by
    omega
  rw [magnitude, Nat.ofDigitChars_append, exponents, zpow_add₀ (by norm_num), zpow_natCast,
    ← mul_assoc]
  exact mul_le_mul_of_nonneg_right digits (zpow_nonneg (by norm_num) _)

/-- A numeral whose whole digits fit 64 bits is read as a number as long as it is within the bound. -/
theorem exists_toBinary64? {numeral : Numeral}
    (fits : Nat.ofDigitChars 10 numeral.whole 0 ≤ significandMax)
    (bounded : numeral.magnitude ≤ scalableMax) :
    ∃ number, numeral.toBinary64? = some number := by
  have taken := Json.absorb_le fits (numeral.fraction.getD [])
  rw [toBinary64?, Json.absorb_eq _ _ fits]
  cases absorbed : absorb (Nat.ofDigitChars 10 numeral.whole 0) (numeral.fraction.getD []) with
  | mk significand dropped =>
    rw [absorbed] at taken
    have width : (significand : ℚ) ≤ 2 ^ 64 := by exact_mod_cast taken.trans (Nat.sub_le _ 1)
    obtain ⟨number, rounded, -⟩ :=
      Binary64.exists_rounded? 64 false (Nat.cast_nonneg significand) width (by decide)
    rw [← Binary64.ofInt?_natCast] at rounded
    have within := (significand_mul_le numeral absorbed).trans bounded
    obtain ⟨scaled, finite⟩ := exists_scaleByTen taken rounded within
    simp only [absorbed, List.length_nil, Nat.cast_zero, zero_sub, rounded, finite,
      Option.bind_eq_bind, Option.bind_some]
    exact ⟨_, rfl⟩

end Numeral

end GameRules
