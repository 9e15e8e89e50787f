import GameRules.Proofs.Path.Overlap
import Mathlib.Data.List.TakeWhile

/-!
# How the steps of a path are written

A step is written as a dot and a name, or as digits in brackets; a state path is a dollar sign and its
steps in turn. No name goes on with a dot or a bracket, so a step that is followed by nothing, or by
another step, is read as it was written, and what follows a path adds steps to those of the path.
-/

namespace GameRules.Segment

variable {step : Segment} {steps : List Segment} {text rest : List Char}

/-- A text that has ended, or goes on with a dot or a bracket. -/
def Delimited (text : List Char) : Prop := ∀ char ∈ text.head?, char = '.' ∨ char = '['

/-- The ways to write a step. An index may have zeros in front. -/
inductive Spelling : Segment → List Char → Prop where
  /-- A dot and a name. -/
  | field (name : List Char) (filled : name ≠ [])
      (named : ∀ char ∈ name, isNameChar char = true) :
      Spelling (.field (String.ofList name)) ('.' :: name)
  /-- Digits in brackets. -/
  | index (digits : List Char) (filled : digits ≠ [])
      (isDigit : ∀ char ∈ digits, char.isDigit = true) (fits : decimalValue digits ≤ indexMax) :
      Spelling (.index (decimalValue digits)) ('[' :: (digits ++ [']']))

/-- The ways to write steps, one after the other. -/
inductive Spelled : List Segment → List Char → Prop where
  /-- No step is written as nothing. -/
  | nil : Spelled [] []
  /-- A step is written in front of the others. -/
  | cons {step : Segment} {steps : List Segment} {piece rest : List Char}
      (first : Spelling step piece) (others : Spelled steps rest) :
      Spelled (step :: steps) (piece ++ rest)

/-- A text that begins with a dot or a bracket is delimited. -/
theorem Delimited.of_head? (opens : text.head? = some '.' ∨ text.head? = some '[') :
    Delimited text := by
  intro char head
  rcases opens with dot | bracket
  · exact .inl (Option.some.inj (head.symm.trans dot))
  · exact .inr (Option.some.inj (head.symm.trans bracket))

/-- The front of a delimited text is delimited. -/
theorem Delimited.of_append (delimited : Delimited (text ++ rest)) : Delimited text := by
  cases text with
  | nil => exact nofun
  | cons char text => exact delimited

/-- Two delimited texts, one after the other, are delimited. -/
theorem Delimited.append (first : Delimited text) (second : Delimited rest) :
    Delimited (text ++ rest) := by
  cases text with
  | nil => exact second
  | cons char text => exact first

/-- Steps begin with a dot or a bracket. -/
theorem Spelling.delimited {piece : List Char} (spelling : Spelling step piece) (rest : List Char) :
    Delimited (piece ++ rest) := by
  cases spelling with
  | field => rintro _ ⟨⟩; exact .inl rfl
  | index => rintro _ ⟨⟩; exact .inr rfl

/-- Written steps begin with a dot or a bracket, if there are any. -/
theorem Spelled.delimited (spelled : Spelled steps text) : Delimited text := by
  cases spelled with
  | nil => exact nofun
  | cons first others => exact first.delimited _

/-- No name goes on with a dot or a bracket. -/
theorem Delimited.isNameChar_eq_false (delimited : Delimited text) :
    ∀ char ∈ text.head?, isNameChar char = false := by
  intro char head
  rcases delimited char head with rfl | rfl <;> decide

/-- A name in front of a delimited text is read as a whole. -/
theorem readField_append {name : List Char} (filled : name ≠ [])
    (named : ∀ char ∈ name, isNameChar char = true) (delimited : Delimited rest) :
    readField (name ++ rest) = .ok (.field (String.ofList name), rest) := by
  have stops : rest.takeWhile isNameChar = [] ∧ rest.dropWhile isNameChar = rest := by
    cases rest with
    | nil => exact ⟨rfl, rfl⟩
    | cons char rest =>
      have noName := delimited.isNameChar_eq_false char rfl
      exact ⟨List.takeWhile_cons_of_neg (by simp [noName]),
        List.dropWhile_cons_of_neg (by simp [noName])⟩
  have filled : name.isEmpty = false := List.isEmpty_eq_false_iff.mpr filled
  unfold readField
  rw [List.takeWhile_append_of_pos named, List.dropWhile_append_of_pos named, stops.1, stops.2,
    List.append_nil]
  simp only [filled, Bool.false_eq_true, if_false]

/-- Digits and the bracket that closes them are read as a whole. -/
theorem readIndex_append {digits : List Char} (filled : digits ≠ [])
    (isDigit : ∀ char ∈ digits, char.isDigit = true) (fits : decimalValue digits ≤ indexMax) :
    readIndex (digits ++ ']' :: rest) = .ok (.index (decimalValue digits), rest) := by
  have taken : (digits ++ ']' :: rest).takeWhile Char.isDigit = digits := by
    rw [List.takeWhile_append_of_pos isDigit, List.takeWhile_cons_of_neg (by decide), List.append_nil]
  have left : (digits ++ ']' :: rest).dropWhile Char.isDigit = ']' :: rest := by
    rw [List.dropWhile_append_of_pos isDigit, List.dropWhile_cons_of_neg (by decide)]
  have filled : digits.isEmpty = false := List.isEmpty_eq_false_iff.mpr filled
  unfold readIndex
  simp only [taken, left, filled, Bool.false_eq_true, if_false, if_neg (Nat.not_lt_of_le fits)]

/-- What is read after a dot is a name in front of what is left. -/
theorem spelling_of_readField (read : readField text = .ok (step, rest)) :
    ∃ name, Spelling step ('.' :: name) ∧ text = name ++ rest := by
  unfold readField at read
  dsimp only at read
  split at read
  · cases read
  · rename_i filled
    cases read
    refine ⟨text.takeWhile isNameChar, .field _ ?_ fun char member => ?_, ?_⟩
    · simpa using filled
    · exact List.mem_takeWhile_imp member
    · exact List.takeWhile_append_dropWhile.symm

/-- What is read after a bracket is digits and a closing bracket in front of what is left. -/
theorem spelling_of_readIndex (read : readIndex text = .ok (step, rest)) :
    ∃ digits, Spelling step ('[' :: digits) ∧ text = digits ++ rest := by
  unfold readIndex at read
  dsimp only at read
  split at read
  · cases read
  · rename_i filled
    split at read
    · cases read
    · rename_i fits
      split at read
      · rename_i left closed
        cases read
        refine ⟨text.takeWhile Char.isDigit ++ [']'],
          .index _ ?_ (fun char member => ?_) (Nat.le_of_not_lt fits), ?_⟩
        · simpa using filled
        · exact List.mem_takeWhile_imp member
        · rw [List.append_assoc, List.singleton_append, ← closed, List.takeWhile_append_dropWhile]
      · cases read

/-- After a dot, a name is read and then the other steps. -/
theorem readAll_dot (text : List Char) :
    readAll ('.' :: text) =
      (readField text).bind fun (step, left) => (readAll left).map (step :: ·) := by
  rw [readAll]
  split
  · rename_i read
    rw [read]
    rfl
  · rename_i read
    simp only [read, Except.bind]

/-- After a bracket, digits are read and then the other steps. -/
theorem readAll_bracket (text : List Char) :
    readAll ('[' :: text) =
      (readIndex text).bind fun (step, left) => (readAll left).map (step :: ·) := by
  rw [readAll]
  split
  · rename_i read
    rw [read]
    rfl
  · rename_i read
    simp only [read, Except.bind]

/-- A written step in front of a delimited text is read, and then the steps after it. -/
theorem readAll_of_spelling {piece : List Char} (spelling : Spelling step piece)
    (delimited : Delimited rest) : readAll (piece ++ rest) = (readAll rest).map (step :: ·) := by
  cases spelling with
  | field name filled named =>
    rw [List.cons_append, readAll_dot, readField_append filled named delimited]
    rfl
  | index digits filled isDigit fits =>
    rw [List.cons_append, List.append_assoc, List.singleton_append, readAll_bracket,
      readIndex_append filled isDigit fits]
    rfl

/-- Written steps in front of a delimited text are read, and then the steps after them. -/
theorem Spelled.readAll_append (spelled : Spelled steps text) (delimited : Delimited rest) :
    readAll (text ++ rest) = (readAll rest).map (steps ++ ·) := by
  induction spelled with
  | nil =>
    rw [List.nil_append]
    cases readAll rest <;> rfl
  | @cons step steps piece text first others ih =>
    rw [List.append_assoc, readAll_of_spelling first (others.delimited.append delimited), ih]
    cases readAll rest <;> rfl

/-- Steps that were read are written in the text. -/
theorem spelled_of_readAll (read : readAll text = .ok steps) : Spelled steps text := by
  induction length : text.length using Nat.strongRecOn generalizing text steps with
  | ind length ih =>
    subst length
    -- Either kind of step is a piece in front of a shorter text, which is read in the same way.
    have goOn : ∀ {opening : Char} {piece left : List Char} {step : Segment},
        Spelling step (opening :: piece) → text = opening :: (piece ++ left) →
          (readAll left).map (step :: ·) = .ok steps → Spelled steps text := by
      intro opening piece left step spelling written readLeft
      cases others : readAll left with
      | error mismatch =>
        rw [others] at readLeft
        cases readLeft
      | ok steps =>
        rw [others] at readLeft
        cases readLeft
        have shorter : left.length < text.length := by
          rw [written, List.length_cons, List.length_append]
          omega
        rw [written]
        exact .cons spelling (ih left.length shorter others rfl)
    unfold readAll at read
    split at read
    · cases read
      exact .nil
    · split at read
      · cases read
      · rename_i found
        obtain ⟨name, spelling, rfl⟩ := spelling_of_readField found
        exact goOn spelling rfl read
    · split at read
      · cases read
      · rename_i found
        obtain ⟨digits, spelling, rfl⟩ := spelling_of_readIndex found
        exact goOn spelling rfl read
    · cases read

/-- The steps of a text are those that are written in it. -/
theorem readAll_eq_ok_iff : readAll text = .ok steps ↔ Spelled steps text := by
  refine ⟨spelled_of_readAll, fun spelled => ?_⟩
  have read : readAll (text ++ []) = (readAll []).map (steps ++ ·) := spelled.readAll_append nofun
  rw [List.append_nil, readAll] at read
  rw [read]
  exact congrArg Except.ok (List.append_nil steps)

end GameRules.Segment
