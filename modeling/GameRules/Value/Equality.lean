import GameRules.Value.Basic
import GameRules.Json.Equality

/-!
# Equality of values and conditions

Equality is decided by comparing the parts.
-/

namespace GameRules

mutual

/-- Compares two operands part by part. -/
def Operand.same : Operand → Operand → Bool
  | .literal left, .literal right => left == right
  | .path left, .path right => left == right
  | .transform left, .transform right => left.same right
  | _, _ => false

/-- Compares two computations part by part. -/
def Transform.same : Transform → Transform → Bool
  | .binary op left right, .binary op' left' right' =>
    op == op' && left.same left' && right.same right'
  | .unary op value, .unary op' value' => op == op' && value.same value'
  | .variadic op values, .variadic op' values' => op == op' && Operand.sameAll values values'
  | .clamp value lower upper, .clamp value' lower' upper' =>
    value.same value' && lower.same lower' && upper.same upper'
  | .lerp start finish fraction, .lerp start' finish' fraction' =>
    start.same start' && finish.same finish' && fraction.same fraction'
  | .moveTowards current target speed, .moveTowards current' target' speed' =>
    current.same current' && target.same target' && speed.same speed'
  | .random lower upper, .random lower' upper' =>
    Operand.sameOptional lower lower' && Operand.sameOptional upper upper'
  | .gpsDistance start finish unit, .gpsDistance start' finish' unit' =>
    start.same start' && finish.same finish' && unit == unit'
  | .gpsBearing start finish, .gpsBearing start' finish' =>
    start.same start' && finish.same finish'
  | .gpsMoveTowards current target speed unit, .gpsMoveTowards current' target' speed' unit' =>
    current.same current' && target.same target' && speed.same speed' && unit == unit'
  | .pointInPolygon point polygon, .pointInPolygon point' polygon' =>
    point.same point' && polygon.same polygon'
  | .format format values, .format format' values' =>
    format.same format' && Operand.sameAll values values'
  | .choose condition consequent alternative, .choose condition' consequent' alternative' =>
    condition.same condition' && consequent.same consequent' &&
      Operand.sameOptional alternative alternative'
  | .now, .now => true
  | .addDuration value duration, .addDuration value' duration' =>
    value.same value' && duration.same duration'
  | .uuid, .uuid => true
  | _, _ => false

/-- Compares two conditions part by part. -/
def Expression.same : Expression → Expression → Bool
  | .compare left op right, .compare left' op' right' =>
    left.same left' && op == op' && Operand.sameOptional right right'
  | .all items, .all items' => Expression.sameAll items items'
  | .any items, .any items' => Expression.sameAll items items'
  | .not item, .not item' => item.same item'
  | _, _ => false

/-- Compares two lists of operands. -/
def Operand.sameAll : List Operand → List Operand → Bool
  | [], [] => true
  | left :: lefts, right :: rights => left.same right && Operand.sameAll lefts rights
  | _, _ => false

/-- Compares two operands that may be absent. -/
def Operand.sameOptional : Option Operand → Option Operand → Bool
  | none, none => true
  | some left, some right => left.same right
  | _, _ => false

/-- Compares two lists of conditions. -/
def Expression.sameAll : List Expression → List Expression → Bool
  | [], [] => true
  | left :: lefts, right :: rights => left.same right && Expression.sameAll lefts rights
  | _, _ => false

end

mutual

/-- The comparison of operands decides equality. -/
theorem Operand.same_iff : ∀ left right : Operand, left.same right = true ↔ left = right
  | .literal _, right => by cases right <;> simp [Operand.same]
  | .path _, right => by cases right <;> simp [Operand.same]
  | .transform transform, right => by
    cases right <;> simp [Operand.same, Transform.same_iff transform]

/-- The comparison of computations decides equality. -/
theorem Transform.same_iff : ∀ left right : Transform, left.same right = true ↔ left = right
  | .binary _ first second, right => by
    cases right <;> simp [Transform.same, Operand.same_iff first, Operand.same_iff second, and_assoc]
  | .unary _ value, right => by cases right <;> simp [Transform.same, Operand.same_iff value]
  | .variadic _ values, right => by
    cases right <;> simp [Transform.same, Operand.sameAll_iff values]
  | .clamp value lower upper, right => by
    cases right <;> simp [Transform.same, Operand.same_iff value, Operand.same_iff lower,
      Operand.same_iff upper, and_assoc]
  | .lerp start finish fraction, right => by
    cases right <;> simp [Transform.same, Operand.same_iff start, Operand.same_iff finish,
      Operand.same_iff fraction, and_assoc]
  | .moveTowards current target speed, right => by
    cases right <;> simp [Transform.same, Operand.same_iff current, Operand.same_iff target,
      Operand.same_iff speed, and_assoc]
  | .random lower upper, right => by
    cases right <;> simp [Transform.same, Operand.sameOptional_iff lower,
      Operand.sameOptional_iff upper]
  | .gpsDistance start finish _, right => by
    cases right <;> simp [Transform.same, Operand.same_iff start, Operand.same_iff finish, and_assoc]
  | .gpsBearing start finish, right => by
    cases right <;> simp [Transform.same, Operand.same_iff start, Operand.same_iff finish]
  | .gpsMoveTowards current target speed _, right => by
    cases right <;> simp [Transform.same, Operand.same_iff current, Operand.same_iff target,
      Operand.same_iff speed, and_assoc]
  | .pointInPolygon point polygon, right => by
    cases right <;> simp [Transform.same, Operand.same_iff point, Operand.same_iff polygon]
  | .format format values, right => by
    cases right <;> simp [Transform.same, Operand.same_iff format, Operand.sameAll_iff values]
  | .choose condition consequent alternative, right => by
    cases right <;> simp [Transform.same, Expression.same_iff condition,
      Operand.same_iff consequent, Operand.sameOptional_iff alternative, and_assoc]
  | .now, right => by cases right <;> simp [Transform.same]
  | .addDuration value duration, right => by
    cases right <;> simp [Transform.same, Operand.same_iff value, Operand.same_iff duration]
  | .uuid, right => by cases right <;> simp [Transform.same]

/-- The comparison of conditions decides equality. -/
theorem Expression.same_iff : ∀ left right : Expression, left.same right = true ↔ left = right
  | .compare first _ second, right => by
    cases right <;> simp [Expression.same, Operand.same_iff first, Operand.sameOptional_iff second,
      and_assoc]
  | .all items, right => by cases right <;> simp [Expression.same, Expression.sameAll_iff items]
  | .any items, right => by cases right <;> simp [Expression.same, Expression.sameAll_iff items]
  | .not item, right => by cases right <;> simp [Expression.same, Expression.same_iff item]

/-- The comparison of lists of operands decides equality. -/
theorem Operand.sameAll_iff : ∀ lefts rights : List Operand,
    Operand.sameAll lefts rights = true ↔ lefts = rights
  | [], rights => by cases rights <;> simp [Operand.sameAll]
  | left :: lefts, rights => by
    cases rights <;> simp [Operand.sameAll, Operand.same_iff left, Operand.sameAll_iff lefts]

/-- The comparison of operands that may be absent decides equality. -/
theorem Operand.sameOptional_iff : ∀ left right : Option Operand,
    Operand.sameOptional left right = true ↔ left = right
  | none, right => by cases right <;> simp [Operand.sameOptional]
  | some left, right => by cases right <;> simp [Operand.sameOptional, Operand.same_iff left]

/-- The comparison of lists of conditions decides equality. -/
theorem Expression.sameAll_iff : ∀ lefts rights : List Expression,
    Expression.sameAll lefts rights = true ↔ lefts = rights
  | [], rights => by cases rights <;> simp [Expression.sameAll]
  | left :: lefts, rights => by
    cases rights <;> simp [Expression.sameAll, Expression.same_iff left,
      Expression.sameAll_iff lefts]

end

instance : DecidableEq Operand := fun left right =>
  decidable_of_iff (left.same right = true) (Operand.same_iff left right)

instance : DecidableEq Transform := fun left right =>
  decidable_of_iff (left.same right = true) (Transform.same_iff left right)

instance : DecidableEq Expression := fun left right =>
  decidable_of_iff (left.same right = true) (Expression.same_iff left right)

end GameRules
