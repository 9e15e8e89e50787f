import GameRules.Proofs.Path.Canonical

/-!
# Overlaps and the qualifier

Steps are read, and texts compared, without the qualifier. So a reference overlaps the same
references whether it is qualified or not.
-/

namespace GameRules.Path

/-- The steps of a text are read off the text without its qualifier. -/
theorem readPath_congr {left right : List Char} (same : unqualified left = unqualified right) :
    Segment.readPath left = Segment.readPath right := by
  have stripped : (Text.stripFront? "state:".toList left).getD left =
      (Text.stripFront? "state:".toList right).getD right := same
  rw [Segment.readPath, Segment.readPath, stripped]

/-- Two references are compared by their steps if both have steps, and by their texts otherwise. -/
theorem overlaps_eq (left right : Path) :
    left.overlaps right =
      match Segment.readPath left.raw.toList, Segment.readPath right.raw.toList with
      | .ok leftSteps, .ok rightSteps => stepsOverlap leftSteps rightSteps
      | _, _ => textsOverlap (unqualified left.raw.toList) (unqualified right.raw.toList) := by
  unfold overlaps segments Segment.parsePath
  cases Segment.readPath left.raw.toList with
  | error mismatch => rfl
  | ok leftSteps =>
    cases Segment.readPath right.raw.toList with
    | error mismatch => rfl
    | ok rightSteps => rfl

/-- A reference overlaps what any other does that has the same text without the qualifier. -/
theorem overlaps_congr (path : Path) {left right : Path}
    (same : unqualified left.raw.toList = unqualified right.raw.toList) :
    path.overlaps left = path.overlaps right := by
  rw [overlaps_eq, overlaps_eq, readPath_congr same, same]

/-- The canonical form of a location has the text of the location without its qualifier. -/
theorem unqualified_canonicalState? {path canonical : Path}
    (found : path.canonicalState? = some canonical) :
    unqualified canonical.raw.toList = unqualified path.raw.toList := by
  obtain ⟨location, rfl | qualified⟩ := canonicalState?_eq_some_iff.mp found
  · rfl
  · have text : path.raw.toList = qualifier ++ canonical.raw.toList := by
      rw [qualified, String.toList_append]
      rfl
    rw [unqualified, unqualified, stripFront?_qualifier location, text,
      Text.stripFront?_eq_some_iff.mpr rfl]
    rfl

/-- Making a location canonical changes none of its overlaps. -/
theorem overlaps_canonical (path changed : Path) :
    path.overlaps (changed.canonicalState?.getD changed) = path.overlaps changed := by
  cases found : changed.canonicalState? with
  | none => rfl
  | some canonical => exact overlaps_congr path (unqualified_canonicalState? found)

/-- Texts overlap either way round. -/
theorem textsOverlap_comm (left right : List Char) :
    textsOverlap left right = textsOverlap right left := by
  have same : (left == right) = (right == left) := Bool.beq_comm
  rw [textsOverlap, textsOverlap, same, Bool.or_right_comm]

/-- Overlap is symmetric, by steps and by texts. -/
theorem overlaps_comm (left right : Path) : left.overlaps right = right.overlaps left := by
  rw [overlaps_eq, overlaps_eq]
  have byTexts := textsOverlap_comm (unqualified left.raw.toList) (unqualified right.raw.toList)
  cases Segment.readPath left.raw.toList with
  | error mismatch => cases Segment.readPath right.raw.toList <;> exact byTexts
  | ok leftSteps =>
    cases Segment.readPath right.raw.toList with
    | error mismatch => exact byTexts
    | ok rightSteps => exact Bool.or_comm _ _

end GameRules.Path
