import GameRules.Keyword
import GameRules.Number.Binary64

/-!
# Vocabulary of values and conditions

The operators that combine values and compare them, and the units distances are measured in.
-/

namespace GameRules

/-- A unit of length. -/
inductive DistanceUnit where
  /-- Metres. -/
  | meters
  /-- Kilometres. -/
  | kilometers
  /-- Statute miles. -/
  | miles
  /-- Feet. -/
  | feet
  /-- Nautical miles. -/
  | nauticalMiles
deriving DecidableEq, Repr

instance : Keyword DistanceUnit where
  all := [.meters, .kilometers, .miles, .feet, .nauticalMiles]
  word
    | .meters => "m"
    | .kilometers => "km"
    | .miles => "mi"
    | .feet => "ft"
    | .nauticalMiles => "nmi"

namespace DistanceUnit

/-- The unit of a distance that names none. -/
def default : DistanceUnit := meters

/-- The length of one unit in tenths of a millimetre. -/
def tenthMillimeters : DistanceUnit → Nat
  | meters => 10000
  | kilometers => 10000000
  | miles => 16093440
  | feet => 3048
  | nauticalMiles => 18520000

/-- The length of one unit in metres. -/
def inMeters (unit : DistanceUnit) : Binary64 :=
  (Binary64.ofDecimal? unit.tenthMillimeters 4).getD Binary64.zero

end DistanceUnit

/-- A comparison. -/
inductive CompareOp where
  /-- Equal. -/
  | equal
  /-- Not equal. -/
  | notEqual
  /-- Greater. -/
  | greater
  /-- Greater or equal. -/
  | greaterOrEqual
  /-- Less. -/
  | less
  /-- Less or equal. -/
  | lessOrEqual
  /-- An element of. -/
  | isIn
  /-- Not an element of. -/
  | notIn
  /-- Has as an element. -/
  | contains
  /-- There is a value at all; nothing stands on the right. -/
  | isPresent
deriving DecidableEq, Repr

instance : Keyword CompareOp where
  all := [.equal, .notEqual, .greater, .greaterOrEqual, .less, .lessOrEqual, .isIn, .notIn,
    .contains, .isPresent]
  word
    | .equal => "=="
    | .notEqual => "!="
    | .greater => ">"
    | .greaterOrEqual => ">="
    | .less => "<"
    | .lessOrEqual => "<="
    | .isIn => "in"
    | .notIn => "not_in"
    | .contains => "contains"
    | .isPresent => "exists"
  aliases := [("=", .equal), ("eq", .equal), ("ne", .notEqual), ("neq", .notEqual),
    ("gt", .greater), ("gte", .greaterOrEqual), ("lt", .less), ("lte", .lessOrEqual),
    ("nin", .notIn)]

/-- An operation on a left and a right value. -/
inductive BinaryOp where
  /-- Sum. -/
  | add
  /-- Difference. -/
  | subtract
  /-- Product. -/
  | multiply
  /-- Quotient. -/
  | divide
  /-- Remainder. -/
  | modulo
  /-- Power. -/
  | power
deriving DecidableEq, Repr

instance : Keyword BinaryOp where
  all := [.add, .subtract, .multiply, .divide, .modulo, .power]
  word
    | .add => "Add"
    | .subtract => "Subtract"
    | .multiply => "Multiply"
    | .divide => "Divide"
    | .modulo => "Modulo"
    | .power => "Power"

/-- An operation on one value. -/
inductive UnaryOp where
  /-- Magnitude. -/
  | abs
  /-- Nearest integer. -/
  | round
  /-- Greatest integer below. -/
  | floor
  /-- Least integer above. -/
  | ceil
  /-- Square root. -/
  | sqrt
  /-- Opposite. -/
  | negate
  /-- Text in upper case. -/
  | uppercase
  /-- Text in lower case. -/
  | lowercase
  /-- Number of elements. -/
  | length
  /-- Seconds since a point in time. -/
  | timeSince
deriving DecidableEq, Repr

instance : Keyword UnaryOp where
  all := [.abs, .round, .floor, .ceil, .sqrt, .negate, .uppercase, .lowercase, .length, .timeSince]
  word
    | .abs => "Abs"
    | .round => "Round"
    | .floor => "Floor"
    | .ceil => "Ceil"
    | .sqrt => "Sqrt"
    | .negate => "Negate"
    | .uppercase => "Uppercase"
    | .lowercase => "Lowercase"
    | .length => "Length"
    | .timeSince => "TimeSince"

/-- An operation on a list of values. -/
inductive VariadicOp where
  /-- Least value. -/
  | min
  /-- Greatest value. -/
  | max
  /-- First value that is not null. -/
  | coalesce
  /-- Texts one after the other. -/
  | concat
deriving DecidableEq, Repr

instance : Keyword VariadicOp where
  all := [.min, .max, .coalesce, .concat]
  word
    | .min => "Min"
    | .max => "Max"
    | .coalesce => "Coalesce"
    | .concat => "Concat"

/-- The key of the list of values. -/
def VariadicOp.listKey : VariadicOp → String
  | concat => "strings"
  | min | max | coalesce => "values"

/-- The kinds of computation. -/
inductive TransformKind where
  /-- An operation on two values. -/
  | binary (op : BinaryOp)
  /-- An operation on one value. -/
  | unary (op : UnaryOp)
  /-- An operation on a list of values. -/
  | variadic (op : VariadicOp)
  /-- A value kept between bounds. -/
  | clamp
  /-- A point between two values. -/
  | lerp
  /-- A step towards a position. -/
  | moveTowards
  /-- A random number. -/
  | random
  /-- The distance of two places on earth. -/
  | gpsDistance
  /-- The direction from one place on earth to another. -/
  | gpsBearing
  /-- A step towards a place on earth. -/
  | gpsMoveTowards
  /-- Whether a point lies in a polygon. -/
  | pointInPolygon
  /-- A text with values put in. -/
  | format
  /-- A choice. -/
  | choose
  /-- The current time. -/
  | now
  /-- A later time. -/
  | addDuration
  /-- A fresh identifier. -/
  | uuid
deriving DecidableEq, Repr

instance : Keyword TransformKind where
  all :=
    [.binary .add, .binary .subtract, .binary .multiply, .binary .divide, .binary .modulo,
      .binary .power, .variadic .min, .variadic .max, .variadic .coalesce, .variadic .concat,
      .unary .abs, .unary .round, .unary .floor, .unary .ceil, .unary .sqrt, .unary .negate,
      .unary .uppercase, .unary .lowercase, .unary .length, .unary .timeSince, .clamp, .lerp,
      .moveTowards, .random, .gpsDistance, .gpsBearing, .gpsMoveTowards, .pointInPolygon, .format,
      .choose, .now, .addDuration, .uuid]
  word
    | .binary op => Keyword.word op
    | .unary op => Keyword.word op
    | .variadic op => Keyword.word op
    | .clamp => "Clamp"
    | .lerp => "Lerp"
    | .moveTowards => "MoveTowards"
    | .random => "Random"
    | .gpsDistance => "GpsDistance"
    | .gpsBearing => "GpsBearing"
    | .gpsMoveTowards => "GpsMoveTowards"
    | .pointInPolygon => "PointInPolygon"
    | .format => "Format"
    | .choose => "If"
    | .now => "Now"
    | .addDuration => "AddDuration"
    | .uuid => "Uuid"

end GameRules
