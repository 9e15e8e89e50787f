import GameRules.Grammar.Failure
import GameRules.Number.Power
import GameRules.Text.Alphanumeric

/-!
# Segments of a state path

A state path names a location by the steps that lead to it from the root: `$.Players[0].Score`. The
grammar is an optional `state:`, a dollar sign, a field, and then any number of fields and indices.
A field is a dot and a name, an index is digits in brackets.
-/

namespace GameRules

/-- One step of a state path. -/
inductive Segment where
  /-- A field of a record. -/
  | field (name : String)
  /-- An element of a list. -/
  | index (position : Nat)
deriving DecidableEq, Repr

namespace Segment

/-- The text of a step. -/
def text : Segment → String
  | field name => "." ++ name
  | index position => "[" ++ Nat.repr position ++ "]"

/-- Whether a character may stand in a field name. -/
def isNameChar (char : Char) : Bool := Text.isAlphanumeric char || char == '_' || char == '-'

/-- The greatest index. -/
def indexMax : Nat := 2 ^ 64 - 1

/-- The number that a run of decimal digits writes. -/
def decimalValue (digits : List Char) : Nat :=
  digits.foldl (fun value digit => value * 10 + (digit.toNat - '0'.toNat)) 0

/-- Reads the name after a dot. -/
def readField (text : List Char) : Except Mismatch (Segment × List Char) :=
  let name := text.takeWhile isNameChar
  if name.isEmpty then .error ⟨text, [.fieldName], none⟩
  else .ok (field (String.ofList name), text.dropWhile isNameChar)

/-- Reads the digits after an opening bracket, and the closing one. -/
def readIndex (text : List Char) : Except Mismatch (Segment × List Char) :=
  let digits := text.takeWhile Char.isDigit
  let rest := text.dropWhile Char.isDigit
  if digits.isEmpty then .error ⟨text, [.arrayIndex], none⟩
  else if indexMax < decimalValue digits then .error ⟨text, [.arrayIndex], some .indexTooLarge⟩
  else
    match rest with
    | ']' :: rest => .ok (index (decimalValue digits), rest)
    | _ => .error ⟨rest, [.arrayIndex], none⟩

/-- A field leaves no more than it was given. -/
theorem readField_length_le {text : List Char} {segment : Segment} {rest : List Char}
    (read : readField text = .ok (segment, rest)) : rest.length ≤ text.length := by
  simp only [readField] at read
  split at read
  · cases read
  · cases read
    exact (List.dropWhile_suffix isNameChar).length_le

/-- An index leaves no more than it was given. -/
theorem readIndex_length_le {text : List Char} {segment : Segment} {rest : List Char}
    (read : readIndex text = .ok (segment, rest)) : rest.length ≤ text.length := by
  simp only [readIndex] at read
  split at read
  · cases read
  · split at read
    · cases read
    · split at read
      · rename_i left closing
        cases read
        have shorter := (List.dropWhile_suffix (l := text) Char.isDigit).length_le
        rw [closing] at shorter
        exact Nat.le_of_succ_le shorter
      · cases read

/-- Reads fields and indices up to the end of the text. -/
def readAll (text : List Char) : Except Mismatch (List Segment) :=
  match text with
  | [] => .ok []
  | '.' :: rest =>
    match read : readField rest with
    | .error mismatch => .error mismatch
    | .ok (segment, left) =>
      have : left.length < rest.length + 1 := Nat.lt_succ_of_le (readField_length_le read)
      (readAll left).map (segment :: ·)
  | '[' :: rest =>
    match read : readIndex rest with
    | .error mismatch => .error mismatch
    | .ok (segment, left) =>
      have : left.length < rest.length + 1 := Nat.lt_succ_of_le (readIndex_length_le read)
      (readAll left).map (segment :: ·)
  | rest => .error (.plain rest)
termination_by text.length

/-- Reads what comes after the dollar sign: a field, and then fields and indices. -/
def readAfterRoot (text : List Char) : Except Mismatch (List Segment) :=
  match text with
  | '.' :: _ => readAll text
  | _ => .error ⟨text, [.fieldName], none⟩

/-- Reads a state path, qualified or not. -/
def readPath (text : List Char) : Except Mismatch (List Segment) :=
  match (Text.stripFront? "state:".toList text).getD text with
  | '$' :: rest => readAfterRoot rest
  | rest => .error (.plain rest)

/-- The segments of a state path. -/
def parsePath (input : String) : Except GrammarError (List Segment) :=
  (readPath input.toList).mapError fun mismatch => ⟨input, .mismatch mismatch⟩

end Segment

end GameRules
