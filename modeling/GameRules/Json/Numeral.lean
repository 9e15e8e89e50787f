import GameRules.Json.Basic

/-!
# Numerals of document text

A numeral without fraction and exponent is a whole number if it fits 64 bits, signed or unsigned.
Every other numeral, negative zero among them, is fractional. Its significand takes digits from the
left as long as they fit 64 bits; whole digits that no longer fit only move the decimal point, and
from the first fraction digit that does not fit on all are dropped. The significand is then scaled
by one power of ten, with one rounding for the significand and one for the scaling. A numeral beyond
the finite numbers is refused.
-/

namespace GameRules

/-- The parts of a numeral. -/
structure Numeral where
  /-- Whether a minus sign stands in front. -/
  negative : Bool
  /-- The digits before the point. -/
  whole : List Char
  /-- The digits after the point, if there is one. -/
  fraction : Option (List Char)
  /-- The power of ten, if one is written. -/
  exponent : Option Int

namespace Numeral

/-- The value of a decimal digit. -/
def digitValue (digit : Char) : Nat := digit.toNat - '0'.toNat

/-- The greatest significand. -/
def significandMax : Nat := 2 ^ 64 - 1

/-- Appends digits to a significand as long as it fits 64 bits; also the digits that did not fit. -/
def absorb : Nat → List Char → Nat × List Char
  | significand, [] => (significand, [])
  | significand, digit :: digits =>
    let next := significand * 10 + digitValue digit
    if next ≤ significandMax then absorb next digits else (significand, digit :: digits)

/-- The binary64 number nearest to a power of ten that is finite. -/
def tenTo (exponent : Nat) : Binary64 := (Binary64.ofInt? (10 ^ exponent)).getD Binary64.zero

/-- The greatest finite power of ten. -/
def maxTenPower : Nat := 308

/-- Multiplies or divides by a power of ten, in steps of at most 10³⁰⁸. -/
def scaleByTen (number : Binary64) (exponent : Int) : Option Binary64 :=
  if exponent.natAbs ≤ maxTenPower then
    if 0 ≤ exponent then number.mul? (tenTo exponent.natAbs)
    else number.div? (tenTo exponent.natAbs)
  else if number.isZero then some number
  else if 0 ≤ exponent then none
  else (number.div? (tenTo maxTenPower)).bind fun smaller =>
    scaleByTen smaller (exponent + maxTenPower)
termination_by exponent.natAbs
decreasing_by simp only [maxTenPower] at *; omega

/-- The fractional number of a numeral, unless it is beyond the finite numbers. -/
def toBinary64? (numeral : Numeral) : Option Binary64 := do
  let (start, beyond) := absorb 0 numeral.whole
  let fraction := numeral.fraction.getD []
  let (significand, dropped) := absorb start fraction
  let shift : Int := beyond.length - (fraction.length - dropped.length)
  let magnitude ← Binary64.ofInt? significand
  let scaled ← scaleByTen magnitude (shift + numeral.exponent.getD 0)
  return if numeral.negative then scaled.negate else scaled

/-- The whole number of a numeral, if it is one of 64 bits. -/
def toInt? (numeral : Numeral) : Option Int :=
  match numeral.fraction, numeral.exponent, absorb 0 numeral.whole with
  | none, none, (significand, []) =>
    if !numeral.negative then some significand
    else if significand ≠ 0 ∧ significand ≤ 2 ^ 63 then some (-(significand : Int))
    else none
  | _, _, _ => none

/-- The document a numeral stands for. -/
def toJson? (numeral : Numeral) : Option Json :=
  match numeral.toInt? with
  | some value => some (.int value)
  | none => numeral.toBinary64?.map .float

end Numeral

end GameRules
