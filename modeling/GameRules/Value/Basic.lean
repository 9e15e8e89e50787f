import GameRules.Value.Vocabulary
import GameRules.Path.Basic
import GameRules.Json.Basic

/-!
# Values and conditions

A value slot of a rule holds a constant, a reference or a computation; computations take values and
conditions, and conditions compare values.
-/

namespace GameRules

mutual

/-- What stands where a value is needed. -/
inductive Operand where
  /-- A constant. -/
  | literal (value : Json)
  /-- A reference. -/
  | path (path : Path)
  /-- A computation. -/
  | transform (transform : Transform)

/-- A computation of a value. -/
inductive Transform where
  /-- An operation on two values. -/
  | binary (op : BinaryOp) (left right : Operand)
  /-- An operation on one value. -/
  | unary (op : UnaryOp) (value : Operand)
  /-- An operation on a list of values. -/
  | variadic (op : VariadicOp) (values : List Operand)
  /-- A value kept between bounds. -/
  | clamp (value lower upper : Operand)
  /-- The point between two values at a fraction of the way. -/
  | lerp (start finish fraction : Operand)
  /-- A step of some length towards a position. -/
  | moveTowards (current target speed : Operand)
  /-- A random number, between bounds if they are given. -/
  | random (lower upper : Option Operand)
  /-- The distance of two places on earth. -/
  | gpsDistance (start finish : Operand) (unit : Option DistanceUnit)
  /-- The direction from one place on earth to another. -/
  | gpsBearing (start finish : Operand)
  /-- A step of some length towards a place on earth. -/
  | gpsMoveTowards (current target speed : Operand) (unit : Option DistanceUnit)
  /-- Whether a point lies in a polygon. -/
  | pointInPolygon (point polygon : Operand)
  /-- A text with values put in at numbered places. -/
  | format (format : Operand) (values : List Operand)
  /-- One value if a condition holds, and perhaps another if not. -/
  | choose (condition : Expression) (consequent : Operand) (alternative : Option Operand)
  /-- The current time. -/
  | now
  /-- A time that is later by a duration. -/
  | addDuration (value duration : Operand)
  /-- A fresh identifier. -/
  | uuid

/-- A condition. -/
inductive Expression where
  /-- A comparison; with the left side alone, whether its value counts as true. -/
  | compare (left : Operand) (op : Option CompareOp) (right : Option Operand)
  /-- All of the conditions hold. -/
  | all (items : List Expression)
  /-- Some of the conditions holds. -/
  | any (items : List Expression)
  /-- The condition does not hold. -/
  | not (item : Expression)

end

instance : Inhabited Operand := ⟨.literal .null⟩

instance : Inhabited Expression := ⟨.all []⟩

namespace Operand

/-- The reference of an operand that is one. -/
def asPath? : Operand → Option Path
  | path value => some value
  | _ => none

/-- The constant of an operand that is one. -/
def asLiteral? : Operand → Option Json
  | literal value => some value
  | _ => none

end Operand

namespace Transform

/-- Which kind of computation this is. -/
def kind : Transform → TransformKind
  | binary op _ _ => .binary op
  | unary op _ => .unary op
  | variadic op _ => .variadic op
  | clamp .. => .clamp
  | lerp .. => .lerp
  | moveTowards .. => .moveTowards
  | random .. => .random
  | gpsDistance .. => .gpsDistance
  | gpsBearing .. => .gpsBearing
  | gpsMoveTowards .. => .gpsMoveTowards
  | pointInPolygon .. => .pointInPolygon
  | format .. => .format
  | choose .. => .choose
  | now => .now
  | addDuration .. => .addDuration
  | uuid => .uuid

/-- Whether equal inputs may give different results. -/
def isNondeterministic : Transform → Bool
  | random .. | now | uuid => true
  | unary op _ => op = .timeSince
  | _ => false

end Transform

namespace Expression

/-- Whether the value of an operand counts as true. -/
def truthy (operand : Operand) : Expression := compare operand none none

/-- Both conditions hold; a conjunction takes the second one in. -/
def and : Expression → Expression → Expression
  | all items, other => all (items ++ [other])
  | first, other => all [first, other]

/-- One of the conditions holds; a disjunction takes the second one in. -/
def or : Expression → Expression → Expression
  | any items, other => any (items ++ [other])
  | first, other => any [first, other]

end Expression

end GameRules
