import GameRules.Number.Binary64

/-!
# The shortest decimal that reads back

A number is written with the fewest digits that still round to it. The decimals that round to a
rank fill the interval between the midpoints to its two neighbours, ends included when the rank is
even. Among the decimal grids, from coarse to fine, the first one with a point in that interval
fixes the number of digits; of its points the one nearest to the number is taken, a tie going to
the even digit.
-/

namespace GameRules.Shortest

/-- A decimal: an integer of digits times a power of ten. -/
structure Decimal where
  /-- The digits, read as one integer. -/
  digits : Nat
  /-- The power of ten that counts the last digit. -/
  exponent : Int
deriving DecidableEq, Repr

/-- Numerator and denominator of a power of ten. -/
def tenPower (exponent : Int) : Nat × Nat :=
  if exponent < 0 then (1, 10 ^ exponent.natAbs) else (10 ^ exponent.natAbs, 1)

/-- Whether `digits * 10 ^ exponent` rounds to this rank. -/
def readsBack (rank digits : Nat) (exponent : Int) : Bool :=
  let (up, down) := tenPower exponent
  let point := 2 * digits * up * Binary64.unitsPerOne
  let low := (Binary64.unitsOfRank (rank - 1) + Binary64.unitsOfRank rank) * down
  let high := (Binary64.unitsOfRank rank + Binary64.unitsOfRank (rank + 1)) * down
  if rank % 2 = 0 then low ≤ point && point ≤ high else low < point && point < high

/-- The point of the grid of this power of ten that is nearest to the rank, if one reads back. -/
def onGrid? (rank : Nat) (exponent : Int) : Option Decimal :=
  let (up, down) := tenPower exponent
  let spacing := up * Binary64.unitsPerOne
  let magnitude := Binary64.unitsOfRank rank * down
  let nearest := roundHalfEven magnitude spacing
  let below := magnitude / spacing
  if readsBack rank nearest exponent then some ⟨nearest, exponent⟩
  else if readsBack rank below exponent then some ⟨below, exponent⟩
  else if readsBack rank (below + 1) exponent then some ⟨below + 1, exponent⟩
  else none

/-- The magnitude written out in full, which always reads back. -/
def inFull (rank : Nat) : Decimal := ⟨Binary64.unitsOfRank rank * 5 ^ 1074, -1074⟩

/-- Drops trailing zero digits; the bound is the number of digits that may be dropped. -/
def trim : Nat → Decimal → Decimal
  | 0, decimal => decimal
  | bound + 1, decimal =>
    if decimal.digits ≠ 0 ∧ decimal.digits % 10 = 0 then
      trim bound ⟨decimal.digits / 10, decimal.exponent + 1⟩
    else decimal

/-- The decimal with the fewest digits that reads back as this rank. -/
def ofRank (rank : Nat) : Decimal :=
  let hit := (List.range 660).findSome? fun (step : Nat) => onGrid? rank (309 - (step : Int))
  trim 20 (hit.getD (inFull rank))

end GameRules.Shortest
