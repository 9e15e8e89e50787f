import GameRules.Value.Basic
import GameRules.Reads.Collector

/-!
# What values and conditions read

Only references to the state count; constants, parameters, views and fields of the entity at hand do
not.
-/

namespace GameRules

mutual

/-- Collects what an operand reads. -/
def Operand.collect : Operand → Walk
  | .literal _, collector => collector
  | .path path, collector => collector.read path
  | .transform transform, collector => transform.collect collector

/-- Collects what a computation reads. -/
def Transform.collect : Transform → Walk
  | .binary _ left right, collector => right.collect (left.collect collector)
  | .unary _ value, collector => value.collect collector
  | .variadic _ values, collector => Operand.collectAll values collector
  | .clamp value lower upper, collector => upper.collect (lower.collect (value.collect collector))
  | .lerp start finish fraction, collector =>
    fraction.collect (finish.collect (start.collect collector))
  | .moveTowards current target speed, collector =>
    speed.collect (target.collect (current.collect collector))
  | .random lower upper, collector =>
    Operand.collectOptional upper (Operand.collectOptional lower collector)
  | .gpsDistance start finish _, collector => finish.collect (start.collect collector)
  | .gpsBearing start finish, collector => finish.collect (start.collect collector)
  | .gpsMoveTowards current target speed _, collector =>
    speed.collect (target.collect (current.collect collector))
  | .pointInPolygon point polygon, collector => polygon.collect (point.collect collector)
  | .format format values, collector => Operand.collectAll values (format.collect collector)
  | .choose condition consequent alternative, collector =>
    Operand.collectOptional alternative (consequent.collect (condition.collect collector))
  | .now, collector => collector
  | .addDuration value duration, collector => duration.collect (value.collect collector)
  | .uuid, collector => collector

/-- Collects what a condition reads. -/
def Expression.collect : Expression → Walk
  | .compare left _ right, collector => Operand.collectOptional right (left.collect collector)
  | .all items, collector => Expression.collectAll items collector
  | .any items, collector => Expression.collectAll items collector
  | .not item, collector => item.collect collector

/-- Collects what the operands of a list read. -/
def Operand.collectAll : List Operand → Walk
  | [], collector => collector
  | value :: values, collector => Operand.collectAll values (value.collect collector)

/-- Collects what an operand reads, if there is one. -/
def Operand.collectOptional : Option Operand → Walk
  | none, collector => collector
  | some value, collector => value.collect collector

/-- Collects what the conditions of a list read. -/
def Expression.collectAll : List Expression → Walk
  | [], collector => collector
  | item :: items, collector => Expression.collectAll items (item.collect collector)

end

end GameRules
