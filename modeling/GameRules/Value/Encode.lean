import GameRules.Value.Basic
import GameRules.Document.Record
import GameRules.Json.Writer

/-!
# Documents of values and conditions

The canonical document of a value, and the text of a condition, in which operands appear as compact
documents.
-/

namespace GameRules

mutual

/-- The document of an operand. -/
def Operand.encode : Operand → Json
  | .literal value => value
  | .path path => .string path.raw
  | .transform transform => transform.encode

/-- The document of a computation. -/
def Transform.encode : Transform → Json
  | .binary op left right =>
    (Record.typed (TransformKind.binary op)).field "left" left.encode
      |>.field "right" right.encode |>.build
  | .unary op value =>
    (Record.typed (TransformKind.unary op)).field "value" value.encode |>.build
  | .variadic op values =>
    (Record.typed (TransformKind.variadic op)).list op.listKey (Operand.encodeAll values) |>.build
  | .clamp value lower upper =>
    (Record.typed TransformKind.clamp).field "value" value.encode
      |>.field "min" lower.encode |>.field "max" upper.encode |>.build
  | .lerp start finish fraction =>
    (Record.typed TransformKind.lerp).field "from" start.encode
      |>.field "to" finish.encode |>.field "t" fraction.encode |>.build
  | .moveTowards current target speed =>
    (Record.typed TransformKind.moveTowards).field "current" current.encode
      |>.field "target" target.encode |>.field "speed" speed.encode |>.build
  | .random lower upper =>
    (Record.typed TransformKind.random).optional "min" (Operand.encodeOptional lower)
      |>.optional "max" (Operand.encodeOptional upper) |>.build
  | .gpsDistance start finish unit =>
    (Record.typed TransformKind.gpsDistance).field "from" start.encode
      |>.field "to" finish.encode |>.optionalKeyword "unit" unit |>.build
  | .gpsBearing start finish =>
    (Record.typed TransformKind.gpsBearing).field "from" start.encode
      |>.field "to" finish.encode |>.build
  | .gpsMoveTowards current target speed unit =>
    (Record.typed TransformKind.gpsMoveTowards).field "current" current.encode
      |>.field "target" target.encode |>.field "speed" speed.encode
      |>.optionalKeyword "unit" unit |>.build
  | .pointInPolygon point polygon =>
    (Record.typed TransformKind.pointInPolygon).field "point" point.encode
      |>.field "polygon" polygon.encode |>.build
  | .format format values =>
    (Record.typed TransformKind.format).field "format" format.encode
      |>.nonemptyList "values" (Operand.encodeAll values) |>.build
  | .choose condition consequent alternative =>
    (Record.typed TransformKind.choose).field "condition" condition.encode
      |>.field "then" consequent.encode
      |>.optional "else" (Operand.encodeOptional alternative) |>.build
  | .now => (Record.typed TransformKind.now).build
  | .addDuration value duration =>
    (Record.typed TransformKind.addDuration).field "value" value.encode
      |>.field "duration" duration.encode |>.build
  | .uuid => (Record.typed TransformKind.uuid).build

/-- The document of a condition. -/
def Expression.encode : Expression → Json
  | .compare left op right =>
    Record.empty.field "left" left.encode |>.optionalKeyword "op" op
      |>.optional "right" (Operand.encodeOptional right) |>.build
  | .all items => Record.empty.list "and" (Expression.encodeAll items) |>.build
  | .any items => Record.empty.list "or" (Expression.encodeAll items) |>.build
  | .not item => Record.empty.field "not" item.encode |>.build

/-- The documents of a list of operands. -/
def Operand.encodeAll : List Operand → List Json
  | [] => []
  | value :: values => value.encode :: Operand.encodeAll values

/-- The document of an operand, if there is one. -/
def Operand.encodeOptional : Option Operand → Option Json
  | none => none
  | some value => some value.encode

/-- The documents of a list of conditions. -/
def Expression.encodeAll : List Expression → List Json
  | [] => []
  | item :: items => item.encode :: Expression.encodeAll items

end

mutual

/-- The text of a condition. -/
def Expression.display : Expression → String
  | .compare left op right =>
    left.encode.render ++ (op.map fun op => " " ++ Keyword.word op).getD "" ++
      (right.map fun right => " " ++ right.encode.render).getD ""
  | .all items => "(" ++ " AND ".intercalate (Expression.displayAll items) ++ ")"
  | .any items => "(" ++ " OR ".intercalate (Expression.displayAll items) ++ ")"
  | .not item => "(NOT " ++ item.display ++ ")"

/-- The texts of a list of conditions. -/
def Expression.displayAll : List Expression → List String
  | [] => []
  | item :: items => item.display :: Expression.displayAll items

end

end GameRules
