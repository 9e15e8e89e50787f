import GameRules.Time.DurationLiteral

/-!
# Leaves that a document may not bring back

Three kinds of text are written in a form that need not be read as it was meant: the name of a view
that looks qualified, a comparison with a field of no name, and a duration whose literal is rounded.
-/

namespace GameRules

/-- A text in a node whose canonical form may stand for something else. -/
inductive Leaf where
  /-- A view that is used by name. -/
  | view (name : String)
  /-- A field that is compared in a condition on entities. -/
  | comparison (field : String)
  /-- A span of time. -/
  | duration (span : Duration)

/-- The canonical form of a leaf stands for the leaf. -/
def Leaf.Stable : Leaf → Prop
  | view name => ¬"view:".toList <+: name.toList
  | comparison field => field ≠ ""
  | duration span => Duration.parse span.literal = .ok span

/-- Every leaf of a list is stable. -/
abbrev Leaf.AllStable (leaves : List Leaf) : Prop := ∀ leaf ∈ leaves, leaf.Stable

end GameRules
