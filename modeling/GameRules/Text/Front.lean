/-!
# The front of a text

References and literals are told apart by what a text begins with. This module takes a fixed piece
off the front of a text.
-/

namespace GameRules.Text

/-- What is left of a text once a fixed front is taken off, if the text begins with it. -/
def stripFront? : List Char → List Char → Option (List Char)
  | [], text => some text
  | _ :: _, [] => none
  | char :: front, next :: text => if char = next then stripFront? front text else none

/-- Whether a text begins with a fixed front. -/
def hasFront (front text : List Char) : Bool := (stripFront? front text).isSome

/-- Taking off a front undoes putting it there, and nothing else. -/
theorem stripFront?_eq_some_iff {front text rest : List Char} :
    stripFront? front text = some rest ↔ text = front ++ rest := by
  induction front generalizing text with
  | nil => simp [stripFront?]
  | cons char front ih =>
    cases text with
    | nil => simp [stripFront?]
    | cons next text =>
      by_cases same : char = next
      · subst same
        simp [stripFront?, ih]
      · have other : ¬next = char := fun equal => same equal.symm
        simp [stripFront?, same, other]

/-- A text begins with a front exactly when it is that front and something after it. -/
theorem hasFront_iff {front text : List Char} :
    hasFront front text = true ↔ ∃ rest, text = front ++ rest := by
  simp only [hasFront, Option.isSome_iff_exists, stripFront?_eq_some_iff]

/-- How many bytes a text takes in UTF-8. -/
def byteLength (text : List Char) : Nat := text.foldl (fun length char => length + char.utf8Size) 0

end GameRules.Text
