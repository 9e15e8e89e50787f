import GameRules.Json.Basic

/-!
# Equality of documents

Two documents are equal when they are written alike: numbers with their kind and the sign of zero,
objects with the same entries in the same order. Equality is decided by comparing the parts.
-/

namespace GameRules

mutual

/-- Compares two documents part by part. -/
def Json.same : Json → Json → Bool
  | .null, .null => true
  | .bool left, .bool right => left == right
  | .int left, .int right => left == right
  | .float left, .float right => left == right
  | .string left, .string right => left == right
  | .array left, .array right => Json.sameItems left right
  | .object left, .object right => Json.sameEntries left right
  | _, _ => false

/-- Compares two lists of documents. -/
def Json.sameItems : List Json → List Json → Bool
  | [], [] => true
  | left :: lefts, right :: rights => left.same right && Json.sameItems lefts rights
  | _, _ => false

/-- Compares two lists of entries. -/
def Json.sameEntries : List (String × Json) → List (String × Json) → Bool
  | [], [] => true
  | (key, left) :: lefts, (other, right) :: rights =>
    key == other && left.same right && Json.sameEntries lefts rights
  | _, _ => false

end

mutual

/-- The comparison of documents decides equality. -/
theorem Json.same_iff : ∀ left right : Json, left.same right = true ↔ left = right
  | .null, right => by cases right <;> simp [Json.same]
  | .bool _, right => by cases right <;> simp [Json.same]
  | .int _, right => by cases right <;> simp [Json.same]
  | .float _, right => by cases right <;> simp [Json.same]
  | .string _, right => by cases right <;> simp [Json.same]
  | .array items, right => by cases right <;> simp [Json.same, Json.sameItems_iff items]
  | .object entries, right => by cases right <;> simp [Json.same, Json.sameEntries_iff entries]

/-- The comparison of lists decides equality. -/
theorem Json.sameItems_iff : ∀ lefts rights : List Json,
    Json.sameItems lefts rights = true ↔ lefts = rights
  | [], rights => by cases rights <;> simp [Json.sameItems]
  | left :: lefts, rights => by
    cases rights <;> simp [Json.sameItems, Json.same_iff left, Json.sameItems_iff lefts]

/-- The comparison of entries decides equality. -/
theorem Json.sameEntries_iff : ∀ lefts rights : List (String × Json),
    Json.sameEntries lefts rights = true ↔ lefts = rights
  | [], rights => by cases rights <;> simp [Json.sameEntries]
  | (key, left) :: lefts, rights => by
    cases rights with
    | nil => simp [Json.sameEntries]
    | cons entry rights =>
      obtain ⟨other, right⟩ := entry
      simp [Json.sameEntries, Json.same_iff left, Json.sameEntries_iff lefts]

end

instance : DecidableEq Json := fun left right =>
  decidable_of_iff (left.same right = true) (Json.same_iff left right)

end GameRules
