import GameRules.Number.Shortest

/-!
# How numbers are written

Two layouts of one shortest decimal. Document text always shows that a number is fractional and
turns to an exponent for very large and very small values; running text shows plain digits only.
-/

namespace GameRules.Binary64

/-- The choices that turn a shortest decimal into text. -/
structure Layout where
  /-- The least decimal exponent written without an exponent part, if there is a least. -/
  lowest : Option Int
  /-- The greatest decimal exponent written without an exponent part, if there is a greatest. -/
  highest : Option Int
  /-- What follows the digits of an integral value. -/
  integralTail : String

/-- Document text: positional from 10⁻⁵ up to below 10¹⁶, and always with a fraction. -/
def documentLayout : Layout := ⟨some (-5), some 15, ".0"⟩

/-- Running text: positional throughout, integral values without a fraction. -/
def plainLayout : Layout := ⟨none, none, ""⟩

/-- Whether a value with this decimal exponent is written without an exponent part. -/
def Layout.isPositional (layout : Layout) (exponent : Int) : Bool :=
  layout.lowest.all (· ≤ exponent) && layout.highest.all (exponent ≤ ·)

/-- The digits with the point set `whole` places after the first one. -/
def positional (layout : Layout) (digits : String) (exponent : Int) : String :=
  let count : Int := digits.length
  if count - 1 ≤ exponent then
    digits ++ String.ofList (List.replicate (exponent + 1 - count).toNat '0') ++ layout.integralTail
  else if 0 ≤ exponent then
    let whole := (exponent + 1).toNat
    String.ofList (digits.toList.take whole) ++ "." ++ String.ofList (digits.toList.drop whole)
  else
    "0." ++ String.ofList (List.replicate (-exponent - 1).toNat '0') ++ digits

/-- One digit, the others after a point, and a signed power of ten. -/
def scientific (digits : String) (exponent : Int) : String :=
  let fraction := digits.toList.drop 1
  let tail := if fraction.isEmpty then "" else "." ++ String.ofList fraction
  let sign := if exponent < 0 then "-" else "+"
  String.ofList (digits.toList.take 1) ++ tail ++ "e" ++ sign ++ Nat.repr exponent.natAbs

/-- The text of a number in a layout. -/
def render (layout : Layout) (number : Binary64) : String :=
  let sign := if number.negative then "-" else ""
  if number.isZero then sign ++ "0" ++ layout.integralTail
  else
    let decimal := Shortest.ofRank number.rank
    let digits := Nat.repr decimal.digits
    let exponent := decimal.exponent + digits.length - 1
    sign ++
      if layout.isPositional exponent then positional layout digits exponent
      else scientific digits exponent

end GameRules.Binary64
