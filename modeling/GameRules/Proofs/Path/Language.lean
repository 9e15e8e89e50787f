import GameRules.Proofs.Number.Notation
import GameRules.Proofs.Path.Spelling

/-!
# The language of state paths

A text is read as a state path exactly if it is a dollar sign, which the qualifier may stand in front
of, and then steps, of which the first is a field. The texts of the steps that were read, after a
dollar sign, are a state path with the same steps: it has no qualifier and no padding.
-/

namespace GameRules

namespace Segment

variable {step : Segment} {steps : List Segment} {text piece : List Char}

/-- Digits are read as the number that they write in base ten. -/
theorem decimalValue_eq_ofDigitChars (digits : List Char) :
    decimalValue digits = Nat.ofDigitChars 10 digits 0 :=
  foldl_eq_ofDigitChars digits

/-- The digits of a number write that number. -/
theorem decimalValue_toDigits (number : Nat) : decimalValue (Nat.toDigits 10 number) = number := by
  rw [decimalValue_eq_ofDigitChars, Nat.ofDigitChars_toDigits (by decide) (by decide)]

/-- A step that can be written can be written as its text. -/
theorem Spelling.toText (spelling : Spelling step piece) : Spelling step step.text.toList := by
  cases spelling with
  | field name filled named =>
    have written : (Segment.field (String.ofList name)).text.toList = '.' :: name := by
      rw [Segment.text, String.toList_append]
      exact congrArg ('.' :: ·) String.toList_ofList
    rw [written]
    exact .field name filled named
  | index digits filled isDigit fits =>
    have value := decimalValue_toDigits (decimalValue digits)
    have canonical : Spelling (.index (decimalValue (Nat.toDigits 10 (decimalValue digits))))
        ('[' :: (Nat.toDigits 10 (decimalValue digits) ++ [']'])) := by
      refine .index _ Nat.toDigits_ne_nil (fun char member => ?_) (value.symm ▸ fits)
      exact Nat.isDigit_of_mem_toDigits (by decide) (by decide) member
    rw [value] at canonical
    rw [Segment.text, String.toList_append, String.toList_append, Nat.toList_repr]
    exact canonical

/-- Steps that can be written can be written as their texts. -/
theorem Spelled.toTexts (spelled : Spelled steps text) :
    Spelled steps (steps.flatMap fun step => step.text.toList) := by
  induction spelled with
  | nil => exact .nil
  | cons first _ ih =>
    rw [List.flatMap_cons]
    exact .cons first.toText ih

/-- Written steps begin with a dot if the first of them is a field. -/
theorem Spelled.head?_eq_dot_iff (spelled : Spelled steps text) :
    text.head? = some '.' ↔ ∃ name others, steps = .field name :: others := by
  cases spelled with
  | nil => simp
  | cons first _ => cases first <;> simp

end Segment

/-- Without its qualifier a text begins with a dollar sign if it does so itself, or after one
qualifier. -/
theorem Path.unqualified_eq_root_iff {text body : List Char} :
    unqualified text = '$' :: body ↔
      ∃ front, (front = [] ∨ front = "state:".toList) ∧ text = front ++ '$' :: body := by
  unfold unqualified
  constructor
  · intro root
    cases stripped : Text.stripFront? qualifier text with
    | none =>
      rw [stripped] at root
      exact ⟨[], .inl rfl, root⟩
    | some inner =>
      rw [stripped] at root
      cases root
      exact ⟨qualifier, .inr rfl, Text.stripFront?_eq_some_iff.mp stripped⟩
  · rintro ⟨front, rfl | rfl, rfl⟩
    · rfl
    · have stripped : Text.stripFront? qualifier ("state:".toList ++ '$' :: body) =
          some ('$' :: body) := Text.stripFront?_eq_some_iff.mpr rfl
      rw [stripped]
      rfl

namespace Segment

/-- A text is read as a state path exactly if it is an optional qualifier, a dollar sign and written
steps that begin with a field, and what is read are these steps. The same steps are read once more
from a dollar sign and their texts. -/
theorem parsePath_eq_ok_iff (input : String) (steps : List Segment) :
    (parsePath input = .ok steps ↔
      ∃ front body, (front = [] ∨ front = "state:".toList) ∧ input.toList = front ++ '$' :: body ∧
        Spelled steps body ∧ ∃ name others, steps = .field name :: others) ∧
      (parsePath input = .ok steps →
        parsePath ("$" ++ String.join (steps.map Segment.text)) = .ok steps) := by
  have language (raw : String) : parsePath raw = .ok steps ↔
      ∃ front body, (front = [] ∨ front = "state:".toList) ∧ raw.toList = front ++ '$' :: body ∧
        Spelled steps body ∧ ∃ name others, steps = .field name :: others := by
    change (Path.mk raw).segments = .ok steps ↔ _
    rw [Path.segments_eq_ok_iff, Path.readPath_eq_ok_iff]
    constructor
    · rintro ⟨body, root, opens, spelled⟩
      obtain ⟨front, optional, written⟩ := Path.unqualified_eq_root_iff.mp root
      exact ⟨front, body, optional, written, spelled, spelled.head?_eq_dot_iff.mp opens⟩
    · rintro ⟨front, body, optional, written, spelled, field⟩
      exact ⟨body, Path.unqualified_eq_root_iff.mpr ⟨front, optional, written⟩,
        spelled.head?_eq_dot_iff.mpr field, spelled⟩
  refine ⟨language input, fun read => ?_⟩
  obtain ⟨_, _, -, -, spelled, field⟩ := (language input).mp read
  refine (language _).mpr ⟨[], _, .inl rfl, ?_, spelled.toTexts, field⟩
  rw [String.toList_append, String.toList_join, List.flatMap_map]
  rfl

/-- A path with the qualifier and with a padded index is read, and read again from its steps without
either of them. -/
theorem parsePath_padded :
    parsePath "state:$.Players[007].Score" = .ok [.field "Players", .index 7, .field "Score"] ∧
      parsePath "$.Players[7].Score" = .ok [.field "Players", .index 7, .field "Score"] := by
  have read : parsePath "state:$.Players[007].Score" =
      .ok [.field "Players", .index 7, .field "Score"] := by
    decide +kernel
  exact ⟨read, (parsePath_eq_ok_iff _ _).2 read⟩

end Segment

end GameRules
