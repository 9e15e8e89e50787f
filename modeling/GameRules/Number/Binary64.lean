import GameRules.Number.Rounding

/-!
# Finite binary64 numbers

Fractional numbers of documents and the arithmetic behind duration literals live in the finite part
of binary64. A number is a sign and a rank: its place among the non-negative finite values in
ascending order. Adjacent values have adjacent ranks, two numbers are equal exactly when sign and
rank are, and every magnitude is a natural number of units of 2⁻¹⁰⁷⁴. Operations compute the exact
result as a quotient of such naturals and round it once, to nearest with ties to even; a result
beyond the largest finite value is `none`.
-/

namespace GameRules

/-- A finite binary64 number; zero keeps its sign. -/
structure Binary64 where
  /-- Whether the number carries a minus sign. -/
  negative : Bool
  /-- How many non-negative finite values lie below the magnitude. -/
  rank : Nat
  /-- The rank is that of a finite value. -/
  finite : rank < 2047 * 2 ^ 52
deriving DecidableEq, Repr

namespace Binary64

/-- The number of values between two neighbouring powers of two. -/
def binade : Nat := 2 ^ 52

/-- The power of two that the significand of this rank is counted in, above 2⁻¹⁰⁷⁴. -/
def scaleOfRank (rank : Nat) : Nat := rank / binade - 1

/-- The integer significand of this rank. -/
def significandOfRank (rank : Nat) : Nat :=
  if rank < binade then rank else rank % binade + binade

/-- The magnitude at this rank, counted in units of 2⁻¹⁰⁷⁴. -/
def unitsOfRank (rank : Nat) : Nat := significandOfRank rank * 2 ^ scaleOfRank rank

/-- How many units of 2⁻¹⁰⁷⁴ make one. -/
def unitsPerOne : Nat := 2 ^ 1074

/-- The magnitude, counted in units of 2⁻¹⁰⁷⁴. -/
def units (number : Binary64) : Nat := unitsOfRank number.rank

/-- The value with its sign, counted in units of 2⁻¹⁰⁷⁴. -/
def signedUnits (number : Binary64) : Int :=
  if number.negative then -(number.units : Int) else number.units

/-- The rank nearest to `numerator / denominator`; it may lie beyond the finite values. -/
def rankOfRatio (numerator denominator : Nat) : Nat :=
  let scale := (numerator * unitsPerOne / denominator).log2 - 52
  roundHalfEven (numerator * unitsPerOne) (denominator * 2 ^ scale) + scale * binade

/-- The signed quotient rounded to nearest, unless it rounds beyond the finite values. -/
def ofRatio? (negative : Bool) (numerator denominator : Nat) : Option Binary64 :=
  let rank := rankOfRatio numerator denominator
  if finite : rank < 2047 * 2 ^ 52 then some ⟨negative, rank, finite⟩ else none

/-- The number nearest to an integer. -/
def ofInt? (value : Int) : Option Binary64 := ofRatio? (value < 0) value.natAbs 1

/-- The number nearest to `digits / 10 ^ places`. -/
def ofDecimal? (digits places : Nat) : Option Binary64 := ofRatio? false digits (10 ^ places)

/-- Zero without a minus sign. -/
def zero : Binary64 := ⟨false, 0, by decide⟩

/-- Whether the value is zero, of either sign. -/
def isZero (number : Binary64) : Bool := number.rank == 0

/-- The number with the other sign. -/
def negate (number : Binary64) : Binary64 := { number with negative := !number.negative }

/-- Numeric order, in which the two zeros are equal. -/
def lt (left right : Binary64) : Bool := left.signedUnits < right.signedUnits

/-- The product, rounded once. -/
def mul? (left right : Binary64) : Option Binary64 :=
  ofRatio? (left.negative != right.negative) (left.units * right.units) (unitsPerOne * unitsPerOne)

/-- The quotient by a number other than zero, rounded once. -/
def div? (left right : Binary64) : Option Binary64 :=
  ofRatio? (left.negative != right.negative) left.units right.units

/-- The sum of two magnitudes, rounded once. -/
def addMagnitudes? (left right : Binary64) : Option Binary64 :=
  ofRatio? false (left.units + right.units) unitsPerOne

end Binary64

end GameRules
