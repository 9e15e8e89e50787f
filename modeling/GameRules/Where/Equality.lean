import GameRules.Where.Basic
import GameRules.Value.Equality

/-!
# Equality of conditions on entities

Equality is decided by comparing the parts.
-/

namespace GameRules

mutual

/-- Compares two conditions on entities part by part. -/
def WhereClause.same : WhereClause → WhereClause → Bool
  | .compare field op value, .compare field' op' value' =>
    field == field' && op == op' && value == value'
  | .all items, .all items' => WhereClause.sameAll items items'
  | .any items, .any items' => WhereClause.sameAll items items'
  | .not item, .not item' => item.same item'
  | _, _ => false

/-- Compares two lists of conditions on entities. -/
def WhereClause.sameAll : List WhereClause → List WhereClause → Bool
  | [], [] => true
  | left :: lefts, right :: rights => left.same right && WhereClause.sameAll lefts rights
  | _, _ => false

end

mutual

/-- The comparison of conditions on entities decides equality. -/
theorem WhereClause.same_iff : ∀ left right : WhereClause, left.same right = true ↔ left = right
  | .compare .., right => by cases right <;> simp [WhereClause.same, and_assoc]
  | .all items, right => by cases right <;> simp [WhereClause.same, WhereClause.sameAll_iff items]
  | .any items, right => by cases right <;> simp [WhereClause.same, WhereClause.sameAll_iff items]
  | .not item, right => by cases right <;> simp [WhereClause.same, WhereClause.same_iff item]

/-- The comparison of lists decides equality. -/
theorem WhereClause.sameAll_iff : ∀ lefts rights : List WhereClause,
    WhereClause.sameAll lefts rights = true ↔ lefts = rights
  | [], rights => by cases rights <;> simp [WhereClause.sameAll]
  | left :: lefts, rights => by
    cases rights <;> simp [WhereClause.sameAll, WhereClause.same_iff left,
      WhereClause.sameAll_iff lefts]

end

instance : DecidableEq WhereClause := fun left right =>
  decidable_of_iff (left.same right = true) (WhereClause.same_iff left right)

end GameRules
