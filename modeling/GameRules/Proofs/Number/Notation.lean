import GameRules.Number.Notation
import Mathlib.Algebra.Order.Field.Power
import Mathlib.Data.Rat.Cast.Order
import Mathlib.Tactic.Ring

/-!
# Digits with a point

Setting a point among digits, or filling them up with zeros to the point, does not change what they
spell. No zero is put in front of them except a single one before the point.
-/

namespace GameRules

/-- Digits that are added one by one to ten times what stands before them are read in base ten. -/
theorem foldl_eq_ofDigitChars (digits : List Char) :
    digits.foldl (fun value digit => value * 10 + (digit.toNat - '0'.toNat)) 0 =
      Nat.ofDigitChars 10 digits 0 := by
  rw [Nat.ofDigitChars]
  congr 1
  funext value digit
  rw [Nat.mul_comm]

namespace Binary64

/-- The digits after a point and the point in front of them, if there are some. -/
def pointed (fraction : List Char) : List Char := if fraction = [] then [] else '.' :: fraction

/-- The parts before and after a point spell the same as digits with the point set this many places
after the first one. -/
structure Spells (digits : List Char) (exponent : Int) (whole fraction : List Char) : Prop where
  /-- There are digits before the point. -/
  filled : whole ≠ []
  /-- Both parts are digits. -/
  isDigit : ∀ char ∈ whole ++ fraction, char.isDigit = true
  /-- Each digit after the point counts a tenth of the one before. -/
  value : (Nat.ofDigitChars 10 (whole ++ fraction) 0 : ℚ) * 10 ^ (-(fraction.length : Int)) =
    Nat.ofDigitChars 10 digits 0 * 10 ^ (exponent + 1 - digits.length)
  /-- What stands before the point is a single zero or begins with the first digit. -/
  front : whole = ['0'] ∨ whole.head? = digits.head?
  /-- As many digits stand before the point as the exponent says, and at least one. -/
  places : (whole.length : Int) = max 1 (exponent + 1)

/-- Repeated zeros are digits. -/
theorem isDigit_of_mem_zeros (count : Nat) :
    ∀ char ∈ List.replicate count '0', char.isDigit = true := by
  intro char member
  rw [List.eq_of_mem_replicate member]
  rfl

section Spells

variable {digits : List Char} (isDigit : ∀ char ∈ digits, char.isDigit = true)

include isDigit

/-- A point among the digits, or after the last one, splits them. -/
theorem spells_split {place : Nat} (positive : 0 < place) (within : place ≤ digits.length) :
    Spells digits (place - 1) (digits.take place) (digits.drop place) := by
  have joined : digits.take place ++ digits.drop place = digits := List.take_append_drop place digits
  refine ⟨?_, joined.symm ▸ isDigit, ?_, .inr ?_, ?_⟩
  · rw [← List.length_pos_iff, List.length_take]
    omega
  · have exponents : -((digits.length - place : Nat) : Int) = place - 1 + 1 - digits.length := by
      omega
    rw [joined, List.length_drop, exponents]
  · rw [List.head?_take, if_neg positive.ne']
  · rw [List.length_take]
    omega

/-- Zeros fill up the digits to the point, and may stand after it too. -/
theorem spells_zeros (filled : digits ≠ []) (count zeros : Nat) :
    Spells digits (digits.length + count - 1) (digits ++ List.replicate count '0')
      (List.replicate zeros '0') := by
  have positive := List.length_pos_iff.mpr filled
  refine ⟨by simp [filled], ?_, ?_, .inr ?_, ?_⟩
  · exact List.forall_mem_append.mpr ⟨List.forall_mem_append.mpr
      ⟨isDigit, isDigit_of_mem_zeros count⟩, isDigit_of_mem_zeros zeros⟩
  · have exponents : (digits.length + count - 1 + 1 - digits.length : Int) = count := by omega
    have ten : (10 : ℚ) ≠ 0 := by norm_num
    rw [Nat.ofDigitChars_append, Nat.ofDigitChars_replicate_zero, Nat.ofDigitChars_append,
      Nat.ofDigitChars_replicate_zero, List.length_replicate, exponents, zpow_neg, zpow_natCast,
      zpow_natCast]
    push_cast
    rw [mul_right_comm, mul_inv_cancel₀ (pow_ne_zero zeros ten), one_mul, mul_comm]
  · obtain ⟨first, others, rfl⟩ := List.exists_cons_of_ne_nil filled
    rfl
  · rw [List.length_append, List.length_replicate]
    omega

/-- Zeros stand between the point and the digits. -/
theorem spells_below (count : Nat) :
    Spells digits (-1 - count) ['0'] (List.replicate count '0' ++ digits) := by
  refine ⟨List.cons_ne_nil _ _, ?_, ?_, .inl rfl, ?_⟩
  · exact List.forall_mem_append.mpr ⟨isDigit_of_mem_zeros 1,
      List.forall_mem_append.mpr ⟨isDigit_of_mem_zeros count, isDigit⟩⟩
  · have spelled : Nat.ofDigitChars 10 ['0'] 0 = 0 := rfl
    have exponents : -((List.replicate count '0' ++ digits).length : Int) =
        -1 - count + 1 - digits.length := by
      rw [List.length_append, List.length_replicate]
      omega
    rw [Nat.ofDigitChars_append, Nat.ofDigitChars_append, spelled, Nat.ofDigitChars_replicate_zero,
      Nat.mul_zero, exponents]
  · rw [List.length_singleton]
    omega

end Spells

/-- Digits without an exponent part are written as the parts before and after a point. Only a layout
that has no zeros after an integral value leaves out the part after the point. -/
theorem exists_positional {layout : Layout} {zeros : Nat}
    (tail : layout.integralTail.toList = pointed (List.replicate zeros '0')) {digits : String}
    (filled : digits.toList ≠ []) (isDigit : ∀ char ∈ digits.toList, char.isDigit = true)
    (exponent : Int) :
    ∃ whole fraction, Spells digits.toList exponent whole fraction ∧
      (positional layout digits exponent).toList = whole ++ pointed fraction ∧
      (fraction = [] → zeros = 0) := by
  have length : digits.length = digits.toList.length := String.length_toList.symm
  have positive : 0 < digits.toList.length := List.length_pos_iff.mpr filled
  unfold positional
  dsimp only
  rw [length]
  split
  · rename_i integral
    obtain ⟨count, same⟩ := Int.eq_ofNat_of_zero_le
      (by omega : 0 ≤ exponent + 1 - digits.toList.length)
    obtain rfl : exponent = digits.toList.length + count - 1 := by omega
    refine ⟨_, _, spells_zeros isDigit filled count zeros, ?_, fun none => ?_⟩
    · rw [String.toList_append, String.toList_append, String.toList_ofList, tail, same,
        Int.toNat_natCast]
    · exact (List.replicate_eq_nil_iff _).mp none
  · split
    · rename_i inside
      obtain ⟨place, same⟩ := Int.eq_ofNat_of_zero_le (by omega : 0 ≤ exponent + 1)
      obtain rfl : exponent = place - 1 := by omega
      have rest : digits.toList.drop place ≠ [] := by
        simp only [ne_eq, List.drop_eq_nil_iff]
        omega
      refine ⟨_, _, spells_split isDigit (by omega) (by omega : place ≤ _), ?_,
        fun none => absurd none rest⟩
      rw [pointed, if_neg rest, same, Int.toNat_natCast]
      simp
    · rename_i below
      obtain ⟨count, same⟩ := Int.eq_ofNat_of_zero_le (by omega : 0 ≤ -exponent - 1)
      obtain rfl : exponent = -1 - count := by omega
      have after : List.replicate count '0' ++ digits.toList ≠ [] := by simp [filled]
      refine ⟨_, _, spells_below isDigit count, ?_, fun none => absurd none after⟩
      rw [pointed, if_neg after, same, Int.toNat_natCast]
      simp

/-- Digits with an exponent part have the point after the first one. -/
theorem toList_scientific (digits : String) (exponent : Int) :
    (scientific digits exponent).toList = digits.toList.take 1 ++ pointed (digits.toList.drop 1) ++
      'e' :: (if exponent < 0 then '-' else '+') :: Nat.toDigits 10 exponent.natAbs := by
  unfold scientific pointed
  dsimp only
  simp only [String.toList_append, String.toList_ofList, Nat.toList_repr, List.isEmpty_iff]
  split <;> split <;> simp

end Binary64

end GameRules
