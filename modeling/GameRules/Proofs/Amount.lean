import GameRules.Proofs.Number.Notation
import GameRules.Proofs.Number.Shortest
import GameRules.Time.DurationLiteral
import Mathlib.Data.List.TakeWhile

/-!
# Amounts are read back

An amount is the decimal that its digits spell. A number in plain digits is such an amount, and the
amount is rounded to that number. A literal of one amount and a unit stands for the duration that
the amount has in that unit.
-/

namespace GameRules

/-- A unit begins with a letter. -/
theorem TimeUnit.exists_letter {text rest : List Char} {unit : TimeUnit}
    (read : TimeUnit.read? text = some (unit, rest)) :
    ∃ letter others, text = letter :: others ∧ letter.isDigit = false ∧ letter ≠ '.' := by
  unfold TimeUnit.read? at read
  split at read
  · exact ⟨_, _, rfl, by decide⟩
  · exact ⟨_, _, rfl, by decide⟩
  · exact ⟨_, _, rfl, by decide⟩
  · exact ⟨_, _, rfl, by decide⟩
  · exact ⟨_, _, rfl, by decide⟩
  · cases read

namespace Amount

/-- The text of an amount. -/
def text (amount : Amount) : List Char :=
  amount.whole ++ if amount.fraction = [] then [] else '.' :: amount.fraction

/-- What an amount is that was read: digits only, and at least one before the point. -/
structure WellFormed (amount : Amount) : Prop where
  /-- There are digits before the point. -/
  filled : amount.whole ≠ []
  /-- What stands before the point are digits. -/
  whole : ∀ char ∈ amount.whole, char.isDigit = true
  /-- What stands after the point are digits. -/
  fraction : ∀ char ∈ amount.fraction, char.isDigit = true

/-- Digits in front of something else are taken as a whole. -/
theorem digits_append {digits : List Char} (isDigit : ∀ char ∈ digits, char.isDigit = true)
    {first : Char} (noDigit : first.isDigit = false) (others : List Char) :
    (digits ++ first :: others).takeWhile Char.isDigit = digits ∧
      (digits ++ first :: others).dropWhile Char.isDigit = first :: others := by
  rw [List.takeWhile_append_of_pos isDigit, List.dropWhile_append_of_pos isDigit,
    List.takeWhile_cons_of_neg (by simp [noDigit]), List.dropWhile_cons_of_neg (by simp [noDigit]),
    List.append_nil]
  exact ⟨rfl, rfl⟩

/-- An amount in front of a unit is read back from its text. -/
theorem read?_text {amount : Amount} (wellFormed : amount.WellFormed) {first : Char}
    (noDigit : first.isDigit = false) (noPoint : first ≠ '.') (others : List Char) :
    read? (amount.text ++ first :: others) = some (amount, first :: others) := by
  obtain ⟨whole, fraction⟩ := amount
  have filled : whole.isEmpty = false := List.isEmpty_eq_false_iff.mpr wellFormed.filled
  have wholeDigits : ∀ char ∈ whole, char.isDigit = true := wellFormed.whole
  have fractionDigits : ∀ char ∈ fraction, char.isDigit = true := wellFormed.fraction
  by_cases integral : fraction = []
  · obtain ⟨taken, left⟩ := digits_append wholeDigits noDigit others
    have written : text ⟨whole, fraction⟩ ++ first :: others = whole ++ first :: others := by
      rw [text, if_pos integral, List.append_nil]
    rw [written, read?, taken, left, filled, integral, if_neg Bool.false_ne_true]
    split
    · rename_i point
      exact absurd (List.cons.inj point).1 noPoint
    · rfl
  · obtain ⟨taken, left⟩ :=
      digits_append wholeDigits (by decide : '.'.isDigit = false) (fraction ++ first :: others)
    obtain ⟨takenFraction, leftFraction⟩ := digits_append fractionDigits noDigit others
    have filledFraction : fraction.isEmpty = false := List.isEmpty_eq_false_iff.mpr integral
    have written : text ⟨whole, fraction⟩ ++ first :: others =
        whole ++ '.' :: (fraction ++ first :: others) := by
      rw [text, if_neg integral, List.append_assoc, List.cons_append]
    rw [written, read?, taken, left, filled, if_neg Bool.false_ne_true]
    change (if ((fraction ++ first :: others).takeWhile Char.isDigit).isEmpty = true then _
      else _) = _
    rw [takenFraction, leftFraction, filledFraction, if_neg Bool.false_ne_true]

/-- What an amount stands for. -/
def value (amount : Amount) : ℚ := amount.digits / 10 ^ amount.fraction.length

/-- The digits of an amount are read as one number. -/
theorem digits_eq (amount : Amount) :
    amount.digits = Nat.ofDigitChars 10 (amount.whole ++ amount.fraction) 0 :=
  foldl_eq_ofDigitChars (amount.whole ++ amount.fraction)

/-- An integer is an amount without a point. -/
def ofNat (number : Nat) : Amount := ⟨Nat.toDigits 10 number, []⟩

/-- The digits of an integer are an amount that stands for the integer. -/
theorem ofNat_spec (number : Nat) :
    (ofNat number).WellFormed ∧ (ofNat number).text = (Nat.repr number).toList ∧
      (ofNat number).value = number := by
  refine ⟨⟨Nat.toDigits_ne_nil, fun char member => ?_, nofun⟩, ?_, ?_⟩
  · exact Nat.isDigit_of_mem_toDigits (by decide) (by decide) member
  · rw [Nat.toList_repr]
    exact List.append_nil _
  · rw [value, digits_eq, ofNat, List.append_nil, Nat.ofDigitChars_toDigits (by decide) (by decide),
      List.length_nil, pow_zero, div_one]

/-- The parts before and after a point are an amount that stands for the digits that they spell. -/
theorem wellFormed_and_value {digits whole fraction : List Char} {exponent : Int}
    (spells : Binary64.Spells digits exponent whole fraction) :
    (⟨whole, fraction⟩ : Amount).WellFormed ∧
      (⟨whole, fraction⟩ : Amount).value =
        Nat.ofDigitChars 10 digits 0 * 10 ^ (exponent + 1 - digits.length) := by
  have parts := List.forall_mem_append.mp spells.isDigit
  refine ⟨⟨spells.filled, parts.1, parts.2⟩, ?_⟩
  rw [value, digits_eq, ← spells.value, zpow_neg, zpow_natCast, div_eq_mul_inv]

/-- Digits in plain layout are an amount that stands for them, times a power of ten. -/
theorem exists_positional {digits : String} (filled : digits.toList ≠ [])
    (isDigit : ∀ char ∈ digits.toList, char.isDigit = true) (exponent : Int) :
    ∃ amount : Amount, amount.WellFormed ∧
      amount.text = (Binary64.positional Binary64.plainLayout digits exponent).toList ∧
      amount.value =
        Nat.ofDigitChars 10 digits.toList 0 * 10 ^ (exponent + 1 - digits.toList.length) := by
  have noTail : Binary64.plainLayout.integralTail.toList =
      Binary64.pointed (List.replicate 0 '0') := rfl
  obtain ⟨whole, fraction, spells, written, -⟩ :=
    Binary64.exists_positional noTail filled isDigit exponent
  obtain ⟨wellFormed, value⟩ := wellFormed_and_value spells
  exact ⟨⟨whole, fraction⟩, wellFormed, written.symm, value⟩

/-- The plain text of a number is an amount that is rounded to that number. -/
theorem exists_render {number : Binary64} (natural : number.negative = false) :
    ∃ amount : Amount, amount.WellFormed ∧
      amount.text = (number.render Binary64.plainLayout).toList ∧
      Binary64.rounded? false amount.value = some number := by
  unfold Binary64.render
  dsimp only
  rw [natural, if_neg Bool.false_ne_true]
  split
  · rename_i isZero
    obtain ⟨wellFormed, text, value⟩ := ofNat_spec 0
    have rank : number.rank = 0 := by simpa [Binary64.isZero] using isZero
    have magnitude : number.magnitude = 0 := by
      rw [Binary64.magnitude, Binary64.units, rank, Binary64.unitsOfRank_of_lt Binary64.binade_pos,
        Nat.cast_zero, zero_div]
    refine ⟨ofNat 0, wellFormed, text, ?_⟩
    rw [value, Nat.cast_zero, ← magnitude, Binary64.rounded?_self natural]
  · obtain ⟨amount, wellFormed, text, value⟩ := exists_positional
      (by rw [Nat.toList_repr]; exact Nat.toDigits_ne_nil :
        (Nat.repr (Shortest.ofRank number.rank).digits).toList ≠ [])
      (by
        intro char member
        rw [Nat.toList_repr] at member
        exact Nat.isDigit_of_mem_toDigits (by decide) (by decide) member)
      ((Shortest.ofRank number.rank).exponent +
        (Nat.repr (Shortest.ofRank number.rank).digits).length - 1)
    have decimal : amount.value = (Shortest.ofRank number.rank).value := by
      have length : ((Nat.repr (Shortest.ofRank number.rank).digits).length : Int) =
          (Nat.repr (Shortest.ofRank number.rank).digits).toList.length := by
        rw [String.length_toList]
      rw [value, length, sub_add_cancel, add_sub_cancel_right, Nat.toList_repr,
        Nat.ofDigitChars_toDigits (by decide) (by decide), Shortest.Decimal.value]
    have near := Shortest.nearest_ofRank number.rank
    have nonneg := (Shortest.ofRank number.rank).value_nonneg
    rw [← decimal] at near nonneg
    have positional (exponent : Int) : Binary64.plainLayout.isPositional exponent = true := rfl
    refine ⟨amount, wellFormed, ?_, ?_⟩
    · rw [if_pos (positional _), String.empty_append, text]
    · rw [Binary64.rounded?_of_nearest false number.finite nonneg near, ← natural]

/-- An amount of a unit is rounded as it is read, as it is scaled to milliseconds and as these are
divided into seconds. -/
theorem toSeconds?_eq_some {amount : Amount} {unit : TimeUnit} {number product seconds : Binary64}
    (numberRounded : Binary64.rounded? false amount.value = some number)
    (productRounded : Binary64.rounded? false (number.magnitude * unit.milliCount) = some product)
    (secondsRounded : Binary64.rounded? false (product.magnitude / 1000) = some seconds) :
    amount.toSeconds? unit = some seconds := by
  obtain ⟨scale, scaleRead, scaleNatural, scaleValue⟩ :=
    Binary64.exists_ofInt? (by cases unit <;> decide : unit.milliCount ≤ 2 * Binary64.binade)
  obtain ⟨thousand, thousandRead, thousandNatural, thousandValue⟩ := Binary64.exists_thousand
  have nonzero : thousand.magnitude ≠ 0 := by
    rw [thousandValue]
    norm_num
  simp only [toSeconds?, Option.bind_eq_bind, Option.bind_eq_some_iff]
  refine ⟨number, ?_, scale, scaleRead, thousand, thousandRead, product, ?_, ?_⟩
  · rw [Binary64.ofDecimal?_eq, ← value, numberRounded]
  · rw [Binary64.mul?_eq, Binary64.negative_of_rounded? numberRounded, scaleNatural, scaleValue,
      bne_self_eq_false, productRounded]
  · rw [Binary64.div?_eq product nonzero, Binary64.negative_of_rounded? productRounded,
      thousandNatural, thousandValue, bne_self_eq_false, secondsRounded]

end Amount

namespace Duration

/-- Nothing is no part of a literal. -/
theorem readParts_nil (partValue : PartValue) : readParts partValue [] = .ok ([], []) := by
  rw [readParts]
  rfl

/-- The length of a duration is in range. -/
theorem ofNanoseconds?_nanoseconds (duration : Duration) :
    ofNanoseconds? duration.nanoseconds = some duration :=
  dif_pos duration.inRange

/-- The sum of one duration is that duration. -/
theorem sum?_singleton (duration : Duration) : sum? [duration] = some duration := by
  have total : ([duration].foldl (fun total part => total + part.nanoseconds) 0) =
      duration.nanoseconds := Nat.zero_add _
  rw [sum?, total, ofNanoseconds?_nanoseconds]

/-- A literal of one amount and a unit stands for the value of that part. -/
theorem readLiteral_amount {partValue : PartValue} {amount : Amount} {unit : TimeUnit}
    {letters : List Char} {duration : Duration} (wellFormed : amount.WellFormed)
    (unitRead : TimeUnit.read? letters = some (unit, []))
    (value : partValue amount unit = some duration) :
    readLiteral partValue (amount.text ++ letters) = .ok duration := by
  obtain ⟨first, others, rfl, noDigit, noPoint⟩ := TimeUnit.exists_letter unitRead
  have read := Amount.read?_text wellFormed noDigit noPoint others
  have part : readPart partValue (amount.text ++ first :: others) = .part duration [] := by
    simp only [readPart, read, unitRead, value]
  simp only [readLiteral, part, readParts_nil, sum?_singleton, List.isEmpty_nil, if_true]

/-- A literal of one amount and a unit stands for the duration that the amount has in that unit. -/
theorem parse_amount {input : String} {amount : Amount} {unit : TimeUnit} {letters : List Char}
    {duration : Duration} (wellFormed : amount.WellFormed)
    (written : input.toList = amount.text ++ letters)
    (unitRead : TimeUnit.read? letters = some (unit, []))
    (value : amount.toDuration? unit = some duration) : parse input = .ok duration := by
  rw [parse, written, readLiteral_amount wellFormed unitRead value, Except.mapError]

end Duration

end GameRules
