/-!
# Keywords

Kinds, operators and units are closed vocabularies: each value has one word that documents are
written with, and some have further spellings that are read as well.
-/

namespace GameRules

/-- A closed vocabulary. -/
class Keyword (α : Type) where
  /-- Every value, in the order of declaration. -/
  all : List α
  /-- The word of a value. -/
  word : α → String
  /-- Other spellings that are read. -/
  aliases : List (String × α) := []

namespace Keyword

variable {α : Type} [Keyword α]

/-- The value that a word stands for. -/
def parse? (text : String) : Option α :=
  match (all : List α).find? fun value => word value == text with
  | some value => some value
  | none => (aliases : List (String × α)).lookup text

/-- Whether a text is a word of the vocabulary. -/
def isWord (α : Type) [Keyword α] (text : String) : Bool := (parse? text : Option α).isSome

/-- The words in the order of declaration. -/
def words (α : Type) [Keyword α] : List String := (all : List α).map word

/-- Every value is listed, no two share a word, and every word can be seen. -/
class Lawful (α : Type) [Keyword α] : Prop where
  /-- The list is complete. -/
  mem_all : ∀ value : α, value ∈ (all : List α)
  /-- Words tell values apart. -/
  word_injective : ∀ left right : α, word left = word right → left = right
  /-- No word is empty. -/
  word_ne_empty : ∀ value : α, word value ≠ ""

/-- The word of a value is read back as that value. -/
theorem parse?_word [Lawful α] (value : α) : parse? (word value) = some value := by
  unfold parse?
  cases found : (all : List α).find? fun other => word other == word value with
  | none =>
    rw [List.find?_eq_none] at found
    exact absurd (beq_self_eq_true (word value)) (found value (Lawful.mem_all value))
  | some other =>
    have same : word other = word value := by simpa using List.find?_some found
    rw [Lawful.word_injective other value same]

end Keyword

end GameRules
