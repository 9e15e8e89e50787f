import GameRules.Json.Equality
import GameRules.Json.Reader
import GameRules.Proofs.Json.Numeral
import GameRules.Proofs.Number.Notation
import GameRules.Proofs.Number.Shortest

/-!
# Fractional numbers are read as fractional numbers

A fractional number is written as a numeral with a point or an exponent, which stands for the shortest
decimal that is rounded to the number. The reader rounds twice, so it need not give the same number, but
it gives one: the decimals ascend with the numbers, so all but the greatest number are written within
what is read, and the greatest is read as well.
-/

namespace GameRules.Json

/-- Digits followed by none are all that is taken before the point. -/
theorem wholeDigits?_of_isDigit {whole rest : List Char} (filled : whole ≠ [])
    (isDigit : ∀ char ∈ whole, char.isDigit = true)
    (front : whole.head? = some '0' → whole = ['0']) (ends : DigitsEnd rest) :
    wholeDigits? (whole ++ rest) = some (whole, rest) := by
  rw [wholeDigits?_eq_some_iff, digits_append whole ends, digits_eq_self isDigit]
  exact ⟨rfl, filled, front⟩

/-- The part after the point is read back. -/
theorem fraction?_pointed {fraction rest : List Char}
    (isDigit : ∀ char ∈ fraction, char.isDigit = true) (ends : DigitsEnd rest)
    (noPoint : ∀ after, rest ≠ '.' :: after) :
    fraction? (Binary64.pointed fraction ++ rest) =
      some (if fraction = [] then none else some fraction, rest) := by
  rw [Binary64.pointed]
  split
  · exact fraction?_of_noPoint noPoint
  · rename_i filled
    have taken := (digits_append fraction ends).trans (by rw [digits_eq_self isDigit])
    rw [List.cons_append, fraction?, taken, if_neg (by simpa using filled)]
    rfl

/-- Digits are read as one number, each counting ten times the one after it. -/
theorem digitsValue_eq (text : List Char) : digitsValue text = Nat.ofDigitChars 10 text 0 :=
  foldl_eq_ofDigitChars text

/-- The digits of an exponent are read back. -/
theorem exponentDigits?_toDigits (negative : Bool) (magnitude : Nat) :
    exponentDigits? negative (Nat.toDigits 10 magnitude) =
      some (some (if negative then -(magnitude : Int) else magnitude), []) := by
  have filled : (Nat.toDigits 10 magnitude).isEmpty = false :=
    List.isEmpty_eq_false_iff.mpr Nat.toDigits_ne_nil
  rw [exponentDigits?, digits_eq_self (isDigit_of_mem_toDigits magnitude), filled, digitsValue_eq,
    Nat.ofDigitChars_ten_toDigits]
  rfl

/-- A signed exponent is read back. -/
theorem exponent?_signed (exponent : Int) :
    exponent? ('e' :: (if exponent < 0 then '-' else '+') :: Nat.toDigits 10 exponent.natAbs) =
      some (some exponent, []) := by
  split
  · rename_i negative
    refine (exponentDigits?_toDigits true exponent.natAbs).trans ?_
    rw [if_pos rfl, Int.ofNat_natAbs_of_nonpos negative.le, neg_neg]
  · rename_i natural
    refine (exponentDigits?_toDigits false exponent.natAbs).trans ?_
    rw [if_neg Bool.false_ne_true, Int.natAbs_of_nonneg (Int.not_lt.mp natural)]

/-- The numeral with these parts before and after the point. -/
def spelled (negative : Bool) (whole fraction : List Char) (exponent : Option Int) : Numeral :=
  ⟨negative, whole, if fraction = [] then none else some fraction, exponent⟩

/-- Digits stand for less than the power of ten of their count. -/
theorem ofDigitChars_lt {digits : List Char} (isDigit : ∀ char ∈ digits, char.isDigit = true) :
    Nat.ofDigitChars 10 digits 0 < 10 ^ digits.length := by
  induction digits with
  | nil => exact Nat.one_pos
  | cons digit digits ih =>
    obtain ⟨first, others⟩ := List.forall_mem_cons.mp isDigit
    have small : digit.toNat - '0'.toNat ≤ 9 :=
      Nat.sub_le_sub_right (Char.isDigit_iff_toNat.mp first).2 '0'.toNat
    have rest := ih others
    rw [Nat.ofDigitChars_cons, Nat.ofDigitChars_eq_ofDigitChars_zero, List.length_cons, Nat.pow_succ,
      Nat.mul_zero, Nat.zero_add]
    have scaled := Nat.mul_le_mul_left (10 ^ digits.length) small
    omega

section Spelled

variable {whole fraction rest : List Char} {exponent : Option Int}

/-- What the parts of a numeral stand for. -/
theorem magnitude_spelled (negative : Bool) (whole fraction : List Char) (exponent : Option Int) :
    (spelled negative whole fraction exponent).magnitude =
      Nat.ofDigitChars 10 (whole ++ fraction) 0 *
        10 ^ (exponent.getD 0 - (fraction.length : Int)) := by
  rw [Numeral.magnitude, spelled]
  split
  · rename_i none
    rw [none]
    rfl
  · rfl

/-- A numeral is read back from its sign, its digits on both sides of the point and its exponent. -/
theorem numeral?_spelled (negative : Bool) (filled : whole ≠ [])
    (isDigit : ∀ char ∈ whole ++ fraction, char.isDigit = true)
    (front : whole.head? = some '0' → whole = ['0']) (ends : ∀ char ∈ rest.head?, char = 'e')
    (read : exponent? rest = some (exponent, [])) :
    numeral? ((if negative then "-" else "").toList ++
      (whole ++ Binary64.pointed fraction ++ rest)) =
        some (spelled negative whole fraction exponent, []) := by
  obtain ⟨wholeDigits, fractionDigits⟩ := List.forall_mem_append.mp isDigit
  have digitsEnd : DigitsEnd rest := fun char first => by rw [ends char first]; rfl
  have noPoint (after : List Char) : rest ≠ '.' :: after := by
    rintro rfl
    exact absurd (ends '.' rfl) (by decide)
  have wholeEnds : DigitsEnd (Binary64.pointed fraction ++ rest) := by
    rw [Binary64.pointed]
    split
    · exact digitsEnd
    · rintro _ ⟨⟩
      rfl
  have signed : sign ((if negative then "-" else "").toList ++
      (whole ++ Binary64.pointed fraction ++ rest)) =
        (negative, whole ++ (Binary64.pointed fraction ++ rest)) := by
    rw [List.append_assoc]
    cases negative
    · exact sign_of_isDigit filled wholeDigits _
    · rfl
  simp only [numeral?, signed, wholeDigits?_of_isDigit filled wholeDigits front wholeEnds,
    fraction?_pointed fractionDigits digitsEnd noPoint, read, Option.bind_eq_bind, Option.bind_some,
    Option.pure_def]
  rfl

/-- The digits of a positive number with a point and an exponent are read as a numeral that stands for
the number, times a power of ten. If few digits stand before the point, these fit 64 bits. -/
theorem numeral?_of_spells {number : Nat} (positive : 0 < number) {place : Int}
    (spells : Binary64.Spells (Nat.toDigits 10 number) place whole fraction) (small : place ≤ 15)
    (negative : Bool) (ends : ∀ char ∈ rest.head?, char = 'e')
    (read : exponent? rest = some (exponent, [])) :
    numeral? ((if negative then "-" else "").toList ++
      (whole ++ Binary64.pointed fraction ++ rest)) =
        some (spelled negative whole fraction exponent, []) ∧
      Nat.ofDigitChars 10 whole 0 ≤ Numeral.significandMax ∧
      (spelled negative whole fraction exponent).magnitude =
        number * 10 ^ (place + 1 - (Nat.toDigits 10 number).length + exponent.getD 0) := by
  have ten : (10 : ℚ) ≠ 0 := by norm_num
  have front : whole.head? = some '0' → whole = ['0'] := by
    intro zero
    rcases spells.front with single | same
    · exact single
    · exact absurd (same ▸ zero) (head?_toDigits_ne_zero positive)
  refine ⟨numeral?_spelled negative spells.filled spells.isDigit front ends read, ?_, ?_⟩
  · have wholeDigits := (List.forall_mem_append.mp spells.isDigit).1
    have places := spells.places
    have count : 10 ^ whole.length ≤ 10 ^ 16 := Nat.pow_le_pow_right (by decide) (by omega)
    exact (ofDigitChars_lt wholeDigits).le.trans (count.trans (by decide))
  · rw [magnitude_spelled, sub_eq_neg_add, zpow_add₀ ten, ← mul_assoc, spells.value,
      Nat.ofDigitChars_ten_toDigits, zpow_add₀ ten, mul_assoc]

end Spelled

/-- A text that is read as a numeral with a point or an exponent, which stands for this value and whose
digits before the point fit 64 bits. -/
def IsFraction (text : List Char) (value : ℚ) : Prop :=
  ∃ numeral, numeral? text = some (numeral, []) ∧ numeral.toInt? = none ∧
    Nat.ofDigitChars 10 numeral.whole 0 ≤ Numeral.significandMax ∧ numeral.magnitude = value

section Decimal

variable {decimal : Shortest.Decimal} (positive : 0 < decimal.digits) (negative : Bool) {place : Int}
  (shown : place = decimal.exponent + (Nat.toDigits 10 decimal.digits).length - 1)

include positive shown

/-- A decimal without an exponent part is a fraction if few of its digits stand before the point. -/
theorem isFraction_positional (small : place ≤ 15) :
    IsFraction ((if negative then "-" else "").toList ++
      (Binary64.positional Binary64.documentLayout (Nat.repr decimal.digits) place).toList)
        decimal.value := by
  -- One zero follows an integral value, so there are digits after the point in any case.
  have tail : Binary64.documentLayout.integralTail.toList =
      Binary64.pointed (List.replicate 1 '0') := by decide
  have isDigit := isDigit_of_mem_toDigits decimal.digits
  have filled : Nat.toDigits 10 decimal.digits ≠ [] := Nat.toDigits_ne_nil
  rw [← Nat.toList_repr] at filled isDigit
  obtain ⟨whole, fraction, spells, written, zeros⟩ :=
    Binary64.exists_positional tail filled isDigit place
  have pointed : fraction ≠ [] := fun none => absurd (zeros none) (by decide)
  have ended : ∀ char ∈ ([] : List Char).head?, char = 'e' := nofun
  rw [Nat.toList_repr] at spells
  obtain ⟨read, fits, magnitude⟩ := numeral?_of_spells positive spells small negative ended rfl
  rw [List.append_nil, ← written] at read
  refine ⟨spelled negative whole fraction none, read, ?_, fits, ?_⟩
  · rw [spelled, if_neg pointed]
    rfl
  · rw [magnitude, Shortest.Decimal.value, Option.getD_none, shown]
    congr 2
    omega

/-- A decimal with an exponent part is a fraction. -/
theorem isFraction_scientific :
    IsFraction ((if negative then "-" else "").toList ++
      (Binary64.scientific (Nat.repr decimal.digits) place).toList) decimal.value := by
  have filled : 0 < (Nat.toDigits 10 decimal.digits).length :=
    List.length_pos_iff.mpr Nat.toDigits_ne_nil
  have spells :=
    Binary64.spells_split (isDigit_of_mem_toDigits decimal.digits) Nat.one_pos filled
  have marked : ∀ char ∈ ('e' :: (if place < 0 then '-' else '+') ::
      Nat.toDigits 10 place.natAbs).head?, char = 'e' := by
    rintro _ ⟨⟩
    rfl
  obtain ⟨read, fits, magnitude⟩ :=
    numeral?_of_spells positive spells (by decide) negative marked (exponent?_signed place)
  rw [Binary64.toList_scientific, Nat.toList_repr]
  refine ⟨_, read, ?_, fits, ?_⟩
  · rw [spelled]
    split
    · rfl
    · rfl
  · rw [magnitude, Shortest.Decimal.value, Option.getD_some, shown]
    congr 2
    omega

end Decimal

/-- What is written without an exponent part is below 10¹⁶. -/
theorem le_of_isPositional {exponent : Int}
    (plain : Binary64.documentLayout.isPositional exponent = true) : exponent ≤ 15 :=
  of_decide_eq_true (Bool.and_eq_true_iff.mp plain).2

/-- A number other than zero is written as a fraction that stands for its shortest decimal. -/
theorem isFraction_float {number : Binary64} (nonzero : number.isZero = false) :
    IsFraction (float number).render.toList (Shortest.ofRank number.rank).value := by
  have positive : 0 < (Shortest.ofRank number.rank).digits := by
    refine Shortest.digits_ofRank_pos (Nat.pos_of_ne_zero fun zero => ?_)
    rw [Binary64.isZero, zero] at nonzero
    cases nonzero
  have length (count : Nat) : (Nat.repr count).length = (Nat.toDigits 10 count).length := by
    rw [← String.length_toList, Nat.toList_repr]
  rw [render, Binary64.render, nonzero]
  dsimp only
  rw [if_neg Bool.false_ne_true, String.toList_append, length]
  by_cases plain : Binary64.documentLayout.isPositional ((Shortest.ofRank number.rank).exponent +
      (Nat.toDigits 10 (Shortest.ofRank number.rank).digits).length - 1) = true
  · rw [if_pos plain]
    exact isFraction_positional positive number.negative rfl (le_of_isPositional plain)
  · rw [if_neg plain]
    exact isFraction_scientific positive number.negative rfl

/-- The greatest number but one is written as the decimal up to which every numeral is read. -/
theorem value_ofRank_penultimate :
    (Shortest.ofRank (2047 * 2 ^ 52 - 2)).value = Numeral.scalableMax := by
  have decimal : Shortest.ofRank (2047 * 2 ^ 52 - 2) = ⟨17976931348623155, 292⟩ := by decide +kernel
  have power : (10 : ℚ) ^ (292 : Int) = 10 ^ 292 := zpow_natCast 10 292
  rw [decimal, Shortest.Decimal.value, Numeral.scalableMax, power, Nat.cast_mul, Nat.cast_pow,
    Nat.cast_ofNat, Nat.cast_ofNat]

/-- Zero and the greatest number are read back, with either sign. -/
theorem number?_extreme :
    ∀ negative, number? (float ⟨negative, 0, by decide⟩).render.toList =
        some (float ⟨negative, 0, by decide⟩, []) ∧
      number? (float ⟨negative, 2047 * 2 ^ 52 - 1, by decide⟩).render.toList =
        some (float ⟨negative, 2047 * 2 ^ 52 - 1, by decide⟩, []) := by
  decide +kernel

/-- The text of a fractional number is read as a fractional number, and nothing is left of it. -/
theorem exists_number?_float (value : Binary64) :
    ∃ again : Binary64, number? (float value).render.toList = some (float again, []) := by
  obtain ⟨negative, rank, finite⟩ := value
  rcases Nat.eq_zero_or_pos rank with rfl | positive
  · exact ⟨_, (number?_extreme negative).1⟩
  by_cases last : rank = 2047 * 2 ^ 52 - 1
  · subst last
    exact ⟨_, (number?_extreme negative).2⟩
  · have nonzero : (⟨negative, rank, finite⟩ : Binary64).isZero = false :=
      beq_false_of_ne positive.ne'
    obtain ⟨numeral, read, fractional, fits, magnitude⟩ := isFraction_float nonzero
    have bounded : numeral.magnitude ≤ Numeral.scalableMax := by
      rw [magnitude, ← value_ofRank_penultimate]
      exact Shortest.strictMono_value_ofRank.monotone (by omega : rank ≤ 2047 * 2 ^ 52 - 2)
    obtain ⟨again, rounded⟩ := Numeral.exists_toBinary64? fits bounded
    refine ⟨again, ?_⟩
    simp only [number?, read, Option.bind_eq_bind, Option.bind_some, Numeral.toJson?, fractional,
      rounded, Option.map_some, Option.pure_def]

end GameRules.Json
