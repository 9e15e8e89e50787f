import GameRules.Json.Reader.Number
import GameRules.Json.Writer
import Mathlib.Data.List.TakeWhile
import Mathlib.Tactic.ByContra

/-!
# Numbers are read back

A number ends where the digits of its last part end, so what it is read as does not depend on the text
after it, as long as that begins with a mark that separates or closes. Every whole number of 64 bits
is read back from its digits.
-/

namespace GameRules.Json

/-- A text that has ended, or goes on with a mark that separates items or closes a list of them. -/
def Delimited : List Char → Prop
  | [] => True
  | char :: _ => char = ',' ∨ char = ']' ∨ char = '\x7d'

/-- A text that does not go on with a digit. -/
def DigitsEnd (text : List Char) : Prop := ∀ char ∈ text.head?, char.isDigit = false

/-- A mark is no digit. -/
theorem Delimited.digitsEnd {rest : List Char} (delimited : Delimited rest) : DigitsEnd rest := by
  cases rest with
  | nil => exact nofun
  | cons char rest =>
    rintro _ ⟨⟩
    rcases delimited with rfl | rfl | rfl <;> rfl

/-- Digits are taken up to where they end. -/
theorem digits_append (text : List Char) {rest : List Char} (ends : DigitsEnd rest) :
    digits (text ++ rest) = ((digits text).1, (digits text).2 ++ rest) := by
  induction text with
  | nil =>
    cases rest with
    | nil => rfl
    | cons char rest =>
      have noDigit := ends char rfl
      simp [digits, noDigit]
  | cons char text ih =>
    simp only [digits, Prod.mk.injEq] at ih
    by_cases isDigit : char.isDigit = true
    · simp [digits, isDigit, ih]
    · simp [digits, isDigit]

/-- Nothing is left of a text of digits. -/
theorem digits_eq_self {text : List Char} (isDigit : ∀ char ∈ text, char.isDigit = true) :
    digits text = (text, []) := by
  rw [digits, List.takeWhile_eq_self_iff.mpr isDigit, List.dropWhile_eq_nil_iff.mpr isDigit]

/-- The digits before the point are all digits that stand there; there are some, and a zero in front
stands alone. -/
theorem wholeDigits?_eq_some_iff {text whole left : List Char} :
    wholeDigits? text = some (whole, left) ↔
      digits text = (whole, left) ∧ whole ≠ [] ∧ (whole.head? = some '0' → whole = ['0']) := by
  unfold wholeDigits?
  split
  · rename_i after
    cases after with
    | nil => simp [digits]; grind
    | cons next after => by_cases isDigit : next.isDigit = true <;> simp [digits, isDigit] <;> grind
  · rename_i notZero
    cases text with
    | nil => simp [digits]; grind
    | cons first text =>
      have different : first ≠ '0' := fun same => notZero text (congrArg (· :: text) same)
      by_cases isDigit : first.isDigit = true <;> simp [digits, isDigit] <;> grind

/-- The digits before the point are read alike whatever comes after them. -/
theorem wholeDigits?_append {text whole left rest : List Char}
    (read : wholeDigits? text = some (whole, left)) (ends : DigitsEnd rest) :
    wholeDigits? (text ++ rest) = some (whole, left ++ rest) := by
  rw [wholeDigits?_eq_some_iff] at read ⊢
  rw [digits_append text ends, read.1]
  exact ⟨rfl, read.2⟩

/-- Without a point there is no fraction. -/
theorem fraction?_of_noPoint {text : List Char} (noPoint : ∀ rest, text ≠ '.' :: rest) :
    fraction? text = some (none, text) := by
  unfold fraction?
  split
  · rename_i after
    exact absurd rfl (noPoint after)
  · rfl

/-- A delimited text does not go on with a certain character that is no mark. -/
theorem Delimited.append_ne_cons {text rest : List Char} {char : Char} (delimited : Delimited rest)
    (noMark : ¬(char = ',' ∨ char = ']' ∨ char = '\x7d')) (absent : ∀ after, text ≠ char :: after)
    (after : List Char) : text ++ rest ≠ char :: after := by
  cases text with
  | cons first text =>
    rintro ⟨⟩
    exact absent text rfl
  | nil =>
    rintro rfl
    exact noMark delimited

/-- A fraction is read alike whatever delimited text comes after it. -/
theorem fraction?_append {text left rest : List Char} {fraction : Option (List Char)}
    (read : fraction? text = some (fraction, left)) (delimited : Delimited rest) :
    fraction? (text ++ rest) = some (fraction, left ++ rest) := by
  unfold fraction? at read
  split at read
  · rename_i after
    rw [List.cons_append, fraction?, digits_append after delimited.digitsEnd]
    split at read
    · cases read
    · rename_i filled
      cases read
      exact if_neg filled
  · rename_i noPoint
    cases read
    exact fraction?_of_noPoint (delimited.append_ne_cons (by decide) noPoint)

/-- The digits of an exponent are read alike whatever comes after them. -/
theorem exponentDigits?_append {text left rest : List Char} {negative : Bool}
    {exponent : Option Int} (read : exponentDigits? negative text = some (exponent, left))
    (ends : DigitsEnd rest) :
    exponentDigits? negative (text ++ rest) = some (exponent, left ++ rest) := by
  unfold exponentDigits? at read ⊢
  rw [digits_append text ends]
  split at read
  · cases read
  · rename_i filled
    cases read
    exact if_neg filled

/-- The digits of an exponent and its sign are read alike whatever comes after them. -/
theorem exponent?_append_of_mark {mark : Char} {text left rest : List Char} {exponent : Option Int}
    (marked : (mark == 'e' || mark == 'E') = true)
    (read : exponent? (mark :: text) = some (exponent, left)) (ends : DigitsEnd rest) :
    exponent? (mark :: (text ++ rest)) = some (exponent, left ++ rest) := by
  rw [exponent?.eq_def] at read ⊢
  simp only [marked, if_true] at read ⊢
  split at read
  · exact exponentDigits?_append read ends
  · exact exponentDigits?_append read ends
  · rename_i noPlus noMinus
    cases text with
    | nil => simp [exponentDigits?, digits] at read
    | cons first text =>
      rw [List.cons_append]
      split
      · rename_i same
        cases same
        exact absurd rfl (noPlus text)
      · rename_i same
        cases same
        exact absurd rfl (noMinus text)
      · exact exponentDigits?_append read ends

/-- An exponent is read alike whatever delimited text comes after it. -/
theorem exponent?_append {text left rest : List Char} {exponent : Option Int}
    (read : exponent? text = some (exponent, left)) (delimited : Delimited rest) :
    exponent? (text ++ rest) = some (exponent, left ++ rest) := by
  cases text with
  | nil =>
    cases read
    cases rest with
    | nil => rfl
    | cons mark rest => rcases delimited with rfl | rfl | rfl <;> rfl
  | cons mark text =>
    by_cases marked : (mark == 'e' || mark == 'E') = true
    · exact exponent?_append_of_mark marked read delimited.digitsEnd
    · rw [exponent?.eq_def] at read
      simp only [marked] at read
      cases read
      exact if_neg marked

/-- A sign is read alike whatever comes after a text. -/
theorem sign_append {text rest : List Char} (filled : text ≠ []) :
    sign (text ++ rest) = ((sign text).1, (sign text).2 ++ rest) := by
  cases text with
  | nil => exact absurd rfl filled
  | cons first text =>
    rw [List.cons_append]
    unfold sign
    split
    · rename_i same
      cases same
      rfl
    · rename_i noMinus
      split
      · rename_i same
        cases same
        exact absurd rfl (noMinus (text ++ rest))
      · rfl

/-- Only a minus sign is taken as a sign. -/
theorem sign_of_ne {first : Char} (noMinus : first ≠ '-') (others : List Char) :
    sign (first :: others) = (false, first :: others) := by
  unfold sign
  split
  · rename_i same
    cases same
    exact absurd rfl noMinus
  · rfl

/-- Digits have no sign. -/
theorem sign_of_isDigit {text : List Char} (filled : text ≠ [])
    (isDigit : ∀ char ∈ text, char.isDigit = true) (rest : List Char) :
    sign (text ++ rest) = (false, text ++ rest) := by
  obtain ⟨first, others, rfl⟩ := List.exists_cons_of_ne_nil filled
  refine sign_of_ne ?_ (others ++ rest)
  rintro rfl
  exact absurd (isDigit '-' List.mem_cons_self) (by decide)

/-- The parts of a numeral are read alike whatever delimited text comes after it. -/
theorem numeral?_append {text left rest : List Char} {numeral : Numeral}
    (read : numeral? text = some (numeral, left)) (delimited : Delimited rest) :
    numeral? (text ++ rest) = some (numeral, left ++ rest) := by
  simp only [numeral?, Option.bind_eq_bind, Option.bind_eq_some_iff, Prod.exists, Option.pure_def,
    Option.some.injEq, Prod.mk.injEq] at read ⊢
  obtain ⟨whole, afterWhole, readWhole, fraction, afterFraction, readFraction, exponent, _,
    readExponent, rfl, rfl⟩ := read
  have filled : text ≠ [] := by
    rintro rfl
    cases readWhole
  rw [sign_append filled]
  exact ⟨whole, _, wholeDigits?_append readWhole delimited.digitsEnd, fraction, _,
    fraction?_append readFraction delimited, exponent, _, exponent?_append readExponent delimited,
    rfl, rfl⟩

/-- A number is read alike whatever delimited text comes after it. -/
theorem number?_append {text left rest : List Char} {number : Json}
    (read : number? text = some (number, left)) (delimited : Delimited rest) :
    number? (text ++ rest) = some (number, left ++ rest) := by
  simp only [number?, Option.bind_eq_bind, Option.bind_eq_some_iff, Prod.exists, Option.pure_def,
    Option.some.injEq, Prod.mk.injEq] at read ⊢
  obtain ⟨numeral, _, readNumeral, _, value, rfl, rfl⟩ := read
  exact ⟨numeral, _, numeral?_append readNumeral delimited, _, value, rfl, rfl⟩

/-- A number begins with a minus sign or a digit. -/
theorem head_of_number? {text left : List Char} {number : Json}
    (read : number? text = some (number, left)) :
    ∃ first others, text = first :: others ∧ (first = '-' ∨ first.isDigit = true) := by
  simp only [number?, numeral?, Option.bind_eq_bind, Option.bind_eq_some_iff, Prod.exists] at read
  obtain ⟨_, _, ⟨whole, _, readWhole, -⟩, -⟩ := read
  cases text with
  | nil => cases readWhole
  | cons first others =>
    refine ⟨first, others, rfl, ?_⟩
    by_contra neither
    rw [not_or, Bool.not_eq_true] at neither
    rw [sign_of_ne neither.1, wholeDigits?_eq_some_iff] at readWhole
    simp [digits, neither.2] at readWhole
    exact readWhole.2.1 readWhole.1.1

/-- Reading further digits does not make a number smaller. -/
theorem le_ofDigitChars (digits : List Char) (start : Nat) :
    start ≤ Nat.ofDigitChars 10 digits start := by
  rw [Nat.ofDigitChars_eq_ofDigitChars_zero]
  have positive : 0 < 10 ^ digits.length := Nat.pow_pos (by decide)
  have scaled := Nat.le_mul_of_pos_left start positive
  omega

/-- All digits of a number that fits 64 bits are taken into the significand. -/
theorem absorb_eq (digits : List Char) (start : Nat)
    (fits : Nat.ofDigitChars 10 digits start ≤ Numeral.significandMax) :
    Numeral.absorb start digits = (Nat.ofDigitChars 10 digits start, []) := by
  induction digits generalizing start with
  | nil => rfl
  | cons digit digits ih =>
    have next : start * 10 + Numeral.digitValue digit = 10 * start + (digit.toNat - '0'.toNat) := by
      rw [Nat.mul_comm, Numeral.digitValue]
    rw [Nat.ofDigitChars_cons] at fits ⊢
    have smaller := le_ofDigitChars digits (10 * start + (digit.toNat - '0'.toNat))
    rw [Numeral.absorb, next, if_pos (by omega), ih _ fits]

/-- The digits of a number that is not zero do not begin with a zero. -/
theorem head?_toDigits_ne_zero {number : Nat} (positive : 0 < number) :
    (Nat.toDigits 10 number).head? ≠ some '0' := by
  induction number using Nat.strongRecOn with
  | ind number ih =>
    by_cases small : number < 10
    · rw [Nat.toDigits_of_lt_base small]
      intro zero
      have isZero := Nat.digitChar_eq_zero.mp (Option.some.inj zero)
      omega
    · have front := ih (number / 10) (by omega) (by omega)
      rw [Nat.toDigits_of_base_le (by decide) (by omega), List.head?_append]
      cases digits : Nat.toDigits 10 (number / 10) with
      | nil => exact absurd digits Nat.toDigits_ne_nil
      | cons first others => simpa [digits] using front

/-- The decimal digits of a number are digits. -/
theorem isDigit_of_mem_toDigits (number : Nat) :
    ∀ digit ∈ Nat.toDigits 10 number, digit.isDigit = true :=
  fun _ member => Nat.isDigit_of_mem_toDigits (by decide) (by decide) member

/-- The decimal digits of a number are whole digits. -/
theorem wholeDigits?_toDigits (number : Nat) :
    wholeDigits? (Nat.toDigits 10 number) = some (Nat.toDigits 10 number, []) := by
  rw [wholeDigits?_eq_some_iff]
  refine ⟨digits_eq_self (isDigit_of_mem_toDigits number), Nat.toDigits_ne_nil, fun zero => ?_⟩
  by_cases positive : 0 < number
  · exact absurd zero (head?_toDigits_ne_zero positive)
  · rw [Nat.eq_zero_of_not_pos positive]
    rfl

/-- The numeral of a natural number with a sign is read from its digits. -/
theorem numeral?_of_sign {text : List Char} {negative : Bool} {number : Nat}
    (signed : sign text = (negative, Nat.toDigits 10 number)) :
    numeral? text = some (⟨negative, Nat.toDigits 10 number, none, none⟩, []) := by
  rw [numeral?, signed, wholeDigits?_toDigits]
  rfl

/-- The whole number of a numeral without fraction and exponent is that of its digits. -/
theorem toInt?_toDigits {negative : Bool} {number : Nat} (fits : number < 2 ^ 64) :
    (Numeral.mk negative (Nat.toDigits 10 number) none none).toInt? =
      if !negative then some (number : Int)
      else if number ≠ 0 ∧ number ≤ 2 ^ 63 then some (-(number : Int)) else none := by
  have value := Nat.ofDigitChars_ten_toDigits (n := number)
  have absorbed := absorb_eq (Nat.toDigits 10 number) 0
  rw [value] at absorbed
  have bounded : number ≤ Numeral.significandMax := Nat.le_pred_of_lt fits
  rw [Numeral.toInt?, absorbed bounded]

/-- A natural number of 64 bits is read back from its digits. -/
theorem number?_repr {number : Nat} (fits : number < 2 ^ 64) :
    number? (Nat.repr number).toList = some (.int number, []) := by
  have signed := sign_of_isDigit Nat.toDigits_ne_nil (isDigit_of_mem_toDigits number) []
  rw [List.append_nil] at signed
  rw [Nat.toList_repr, number?, numeral?_of_sign signed]
  simp only [Option.bind_eq_bind, Option.bind_some, Numeral.toJson?, toInt?_toDigits fits]
  rfl

/-- A negative number of 64 bits is read back from its sign and digits. -/
theorem number?_neg_repr (number : Nat) (positive : 0 < number) (fits : number ≤ 2 ^ 63) :
    number? ('-' :: (Nat.repr number).toList) = some (.int (-number), []) := by
  have signed : sign ('-' :: Nat.toDigits 10 number) = (true, Nat.toDigits 10 number) := rfl
  have inRange : number ≠ 0 ∧ number ≤ 2 ^ 63 := ⟨Nat.ne_of_gt positive, fits⟩
  have wide : number < 2 ^ 64 := by omega
  rw [Nat.toList_repr, number?, numeral?_of_sign signed]
  simp only [Option.bind_eq_bind, Option.bind_some, Numeral.toJson?, toInt?_toDigits wide,
    if_pos inRange]
  rfl

/-- A whole number of 64 bits, signed or unsigned, is read back from its text. -/
theorem number?_int {number : Int} (fits : -(2 ^ 63) ≤ number ∧ number < 2 ^ 64) :
    number? (Json.int number).render.toList = some (.int number, []) := by
  obtain ⟨least, greatest⟩ := fits
  rw [render, Int.toString_eq_repr, Int.repr_eq_if]
  split
  · rename_i natural
    rw [number?_repr (by omega), Int.toNat_of_nonneg natural]
  · rename_i negative
    have read := number?_neg_repr (-number).toNat (by omega) (by omega)
    rw [String.toList_append]
    refine read.trans ?_
    rw [Int.toNat_of_nonneg (by omega), Int.neg_neg]

end GameRules.Json
