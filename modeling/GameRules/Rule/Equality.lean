import GameRules.Rule.Set
import GameRules.Where.Equality

/-!
# Equality of rules

Equality of rule sets and of the nodes they are made of is decided by comparing the parts.
-/

namespace GameRules

deriving instance DecidableEq for ProximityOperation

deriving instance DecidableEq for ViewOperation

deriving instance DecidableEq for ViewParam

deriving instance DecidableEq for View

deriving instance DecidableEq for ViewRef

deriving instance DecidableEq for ValueExpression

deriving instance DecidableEq for ProximitySelector

deriving instance DecidableEq for Choice

deriving instance DecidableEq for Selector

deriving instance DecidableEq for Activation

deriving instance DecidableEq for Trigger

deriving instance DecidableEq for Masking

deriving instance DecidableEq for FilterOperation

deriving instance DecidableEq for Filter

deriving instance DecidableEq for Change

mutual

/-- Compares two effects part by part. -/
def Effect.same : Effect → Effect → Bool
  | .mutate targets path change, .mutate targets' path' change' =>
    targets == targets' && path == path' && change == change'
  | .spawn entity fields, .spawn entity' fields' => entity == entity' && fields == fields'
  | .destroy targets, .destroy targets' => targets == targets'
  | .emit event payload, .emit event' payload' => event == event' && payload == payload'
  | .branch condition consequent alternative, .branch condition' consequent' alternative' =>
    condition == condition' && Effect.sameAll consequent consequent' &&
      Effect.sameAll alternative alternative'
  | .sequence effects, .sequence effects' => Effect.sameAll effects effects'
  | .control op target, .control op' target' => op == op' && target == target'
  | .log message level, .log message' level' => message == message' && level == level'
  | _, _ => false

/-- Compares two lists of effects. -/
def Effect.sameAll : List Effect → List Effect → Bool
  | [], [] => true
  | left :: lefts, right :: rights => left.same right && Effect.sameAll lefts rights
  | _, _ => false

end

mutual

/-- The comparison of effects decides equality. -/
theorem Effect.same_iff : ∀ left right : Effect, left.same right = true ↔ left = right
  | .mutate .., right => by cases right <;> simp [Effect.same, and_assoc]
  | .spawn .., right => by cases right <;> simp [Effect.same]
  | .destroy _, right => by cases right <;> simp [Effect.same]
  | .emit .., right => by cases right <;> simp [Effect.same]
  | .branch _ consequent alternative, right => by
    cases right <;> simp [Effect.same, Effect.sameAll_iff consequent,
      Effect.sameAll_iff alternative, and_assoc]
  | .sequence effects, right => by cases right <;> simp [Effect.same, Effect.sameAll_iff effects]
  | .control .., right => by cases right <;> simp [Effect.same]
  | .log .., right => by cases right <;> simp [Effect.same]

/-- The comparison of lists of effects decides equality. -/
theorem Effect.sameAll_iff : ∀ lefts rights : List Effect,
    Effect.sameAll lefts rights = true ↔ lefts = rights
  | [], rights => by cases rights <;> simp [Effect.sameAll]
  | left :: lefts, rights => by
    cases rights <;> simp [Effect.sameAll, Effect.same_iff left, Effect.sameAll_iff lefts]

end

instance : DecidableEq Effect := fun left right =>
  decidable_of_iff (left.same right = true) (Effect.same_iff left right)

deriving instance DecidableEq for Rule

deriving instance DecidableEq for RuleSet

end GameRules
