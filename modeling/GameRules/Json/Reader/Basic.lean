/-!
# Readers

A reader takes something off the front of a text and returns it with what is left. Readers of
document text leave less than they were given, which is why loops over readers end.
-/

namespace GameRules.Json

/-- Reads something off the front of a text and leaves the rest. -/
abbrev Reader (α : Type) := List Char → Option (α × List Char)

/-- A reader that leaves less than it was given. -/
def Reader.Consumes {α : Type} (reader : Reader α) : Prop :=
  ∀ text value rest, reader text = some (value, rest) → rest.length < text.length

/-- Whether a character may stand between tokens. -/
def isSpace (char : Char) : Bool :=
  char == ' ' || char == '\n' || char == '\r' || char == '\t'

/-- The text from its first character that is not a space on. -/
def skipSpace (text : List Char) : List Char := text.dropWhile isSpace

/-- Skipping spaces never lengthens a text. -/
theorem length_skipSpace_le (text : List Char) : (skipSpace text).length ≤ text.length :=
  (List.dropWhile_suffix isSpace).length_le

end GameRules.Json
