import GameRules.Json.Reader.Basic
import GameRules.Json.Numeral

/-!
# Reading numbers

A number has digits, at least one, and perhaps a sign, a fraction and an exponent. Digits before the
point do not start with a zero, except for zero itself.
-/

namespace GameRules.Json

/-- The leading decimal digits of a text, and the rest. -/
def digits (text : List Char) : List Char × List Char :=
  (text.takeWhile Char.isDigit, text.dropWhile Char.isDigit)

/-- What follows the digits is no longer than the text. -/
theorem length_digits_le (text : List Char) : (digits text).2.length ≤ text.length :=
  (List.dropWhile_suffix Char.isDigit).length_le

/-- The digits before the point: a single zero, or digits that do not start with one. -/
def wholeDigits? : Reader (List Char)
  | '0' :: rest =>
    match rest with
    | next :: _ => if next.isDigit then none else some (['0'], rest)
    | [] => some (['0'], rest)
  | text => if (digits text).1.isEmpty then none else some (digits text)

/-- The point and the digits after it, if the text goes on with a point. -/
def fraction? : List Char → Option (Option (List Char) × List Char)
  | '.' :: rest => if (digits rest).1.isEmpty then none else some (some (digits rest).1, (digits rest).2)
  | text => some (none, text)

/-- The integer that a list of decimal digits writes. -/
def digitsValue (text : List Char) : Nat :=
  text.foldl (fun value digit => value * 10 + Numeral.digitValue digit) 0

/-- The digits of an exponent. -/
def exponentDigits? (negative : Bool) (text : List Char) : Option (Option Int × List Char) :=
  if (digits text).1.isEmpty then none
  else
    let magnitude : Int := digitsValue (digits text).1
    some (some (if negative then -magnitude else magnitude), (digits text).2)

/-- The exponent, if the text goes on with one. -/
def exponent? : List Char → Option (Option Int × List Char)
  | mark :: rest =>
    if mark == 'e' || mark == 'E' then
      match rest with
      | '+' :: rest => exponentDigits? false rest
      | '-' :: rest => exponentDigits? true rest
      | rest => exponentDigits? false rest
    else some (none, mark :: rest)
  | [] => some (none, [])

/-- Whether a minus sign stands in front, and the text after it. -/
def sign : List Char → Bool × List Char
  | '-' :: rest => (true, rest)
  | text => (false, text)

/-- A sign leaves no more than it was given. -/
theorem length_sign_le (text : List Char) : (sign text).2.length ≤ text.length := by
  unfold sign
  split
  · exact Nat.le_succ _
  · exact Nat.le_refl _

/-- Reads the parts of a numeral. -/
def numeral? (text : List Char) : Option (Numeral × List Char) := do
  let (whole, afterWhole) ← wholeDigits? (sign text).2
  let (fraction, afterFraction) ← fraction? afterWhole
  let (exponent, rest) ← exponent? afterFraction
  return (⟨(sign text).1, whole, fraction, exponent⟩, rest)

/-- Reads a number. -/
def number? (text : List Char) : Option (Json × List Char) := do
  let (numeral, rest) ← numeral? text
  let value ← numeral.toJson?
  return (value, rest)

/-- Whole digits are never empty. -/
theorem wholeDigits?_consumes : Reader.Consumes wholeDigits? := by
  intro text value rest read
  unfold wholeDigits? at read
  split at read
  · split at read
    · split at read
      · cases read
      · cases read
        simp only [List.length_cons]
        omega
    · cases read
      simp
  · split at read
    · cases read
    · rename_i filled
      cases read
      cases text with
      | nil => simp [digits] at filled
      | cons first others =>
        by_cases isDigit : first.isDigit = true
        · have shorter := length_digits_le others
          simp only [digits, List.dropWhile_cons, isDigit, if_true, List.length_cons] at shorter ⊢
          omega
        · simp [digits, isDigit] at filled

/-- A fraction leaves no more than it was given. -/
theorem fraction?_length_le {text : List Char} {value : Option (List Char)} {rest : List Char}
    (read : fraction? text = some (value, rest)) : rest.length ≤ text.length := by
  unfold fraction? at read
  split at read
  · split at read
    · cases read
    · cases read
      exact Nat.le_trans (length_digits_le _) (Nat.le_succ _)
  · cases read
    exact Nat.le_refl _

/-- The digits of an exponent leave no more than they were given. -/
theorem exponentDigits?_length_le {negative : Bool} {text : List Char} {value : Option Int}
    {rest : List Char} (read : exponentDigits? negative text = some (value, rest)) :
    rest.length ≤ text.length := by
  unfold exponentDigits? at read
  split at read
  · cases read
  · cases read
    exact length_digits_le text

/-- An exponent leaves no more than it was given. -/
theorem exponent?_length_le {text : List Char} {value : Option Int} {rest : List Char}
    (read : exponent? text = some (value, rest)) : rest.length ≤ text.length := by
  unfold exponent? at read
  split at read
  · split at read
    · split at read
      · have shorter := exponentDigits?_length_le read
        simp only [List.length_cons]
        omega
      · have shorter := exponentDigits?_length_le read
        simp only [List.length_cons]
        omega
      · have shorter := exponentDigits?_length_le read
        simp only [List.length_cons]
        omega
    · cases read
      exact Nat.le_refl _
  · cases read
    exact Nat.le_refl _

/-- A numeral has at least one digit. -/
theorem numeral?_consumes : Reader.Consumes numeral? := by
  intro text value rest read
  simp only [numeral?, Option.bind_eq_bind, Option.bind_eq_some_iff, Prod.exists, Option.pure_def,
    Option.some.injEq, Prod.mk.injEq] at read
  obtain ⟨whole, afterWhole, readWhole, fraction, afterFraction, readFraction, exponent, afterExponent,
    readExponent, _, rfl⟩ := read
  have first := wholeDigits?_consumes _ _ _ readWhole
  have second := fraction?_length_le readFraction
  have third := exponent?_length_le readExponent
  have before := length_sign_le text
  omega

/-- A number has at least one digit. -/
theorem number?_consumes : Reader.Consumes number? := by
  intro text value rest read
  simp only [number?, Option.bind_eq_bind, Option.bind_eq_some_iff, Prod.exists, Option.pure_def,
    Option.some.injEq, Prod.mk.injEq] at read
  obtain ⟨numeral, left, readNumeral, _, _, _, rfl⟩ := read
  exact numeral?_consumes _ _ _ readNumeral

end GameRules.Json
