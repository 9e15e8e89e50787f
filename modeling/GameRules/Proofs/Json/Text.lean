import GameRules.Json.Reader.Text
import GameRules.Json.Writer

/-!
# Strings are read back

Every character is written in one way, by itself or as an escape, and both are read as that
character. So the closing quote is found exactly where it was written.
-/

namespace GameRules.Json

/-- A hexadecimal digit is read back. -/
theorem hexValue?_hexDigit {value : Nat} (small : value < 16) :
    hexValue? (hexDigit value) = some value := by
  have checked : ∀ value : Fin 16, hexValue? (hexDigit value) = some value.val := by decide
  exact checked ⟨value, small⟩

/-- A control character is read back from its code unit. -/
theorem unicodeChar_of_control {char : Char} (control : char < ' ') (rest : List Char) :
    unicodeChar ('0' :: '0' :: hexDigit (char.toNat / 16) :: hexDigit (char.toNat % 16) :: rest) =
      some (char, rest) := by
  have small : char.toNat < 32 := control
  have upper := hexValue?_hexDigit (by omega : char.toNat / 16 < 16)
  have lower := hexValue?_hexDigit (by omega : char.toNat % 16 < 16)
  have zero : hexValue? '0' = some 0 := rfl
  have unit : ((0 * 16 + 0) * 16 + char.toNat / 16) * 16 + char.toNat % 16 = char.toNat := by omega
  have notLow : isLowSurrogate char.toNat = false := by simp [isLowSurrogate]; omega
  have notHigh : isHighSurrogate char.toNat = false := by simp [isHighSurrogate]; omega
  have read : codeUnit ('0' :: '0' :: hexDigit (char.toNat / 16) :: hexDigit (char.toNat % 16) ::
      rest) = some (char.toNat, rest) := by
    simp only [codeUnit, codeUnit?, zero, upper, lower, Option.bind_eq_bind, Option.bind_some, unit,
      Option.pure_def, Option.map_some]
  simp only [unicodeChar, read, Option.bind_eq_bind, Option.bind_some, notLow, notHigh,
    Char.ofNat_toNat, Bool.false_eq_true, if_false]

/-- A character that is written by itself is read by itself. -/
theorem stringPiece_of_printable {char : Char} (noQuote : char ≠ '"') (noBackslash : char ≠ '\\')
    (printable : ¬char < ' ') (rest : List Char) :
    stringPiece (char :: rest) = some (some char, rest) := by
  unfold stringPiece
  split
  · rename_i same
    cases same
    exact absurd rfl noQuote
  · rename_i same
    cases same
    exact absurd rfl noBackslash
  · rename_i same
    cases same
    exact if_neg printable
  · rename_i same
    cases same

/-- A character is read back from what it is written as. -/
theorem stringPiece_escape (char : Char) (rest : List Char) :
    stringPiece (escape char ++ rest) = some (some char, rest) := by
  unfold escape
  split
  case h_8 noQuote noBackslash _ _ _ _ _ =>
    split
    · rename_i control
      exact congrArg (Option.map _) (unicodeChar_of_control control rest)
    · rename_i printable
      exact stringPiece_of_printable noQuote noBackslash printable rest
  all_goals rfl

/-- The characters of a string go on after one that is read. -/
theorem stringTail_of_piece {text rest : List Char} {char : Char}
    (read : stringPiece text = some (some char, rest)) :
    stringTail text = (stringTail rest).map fun (chars, left) => (char :: chars, left) := by
  rw [stringTail]
  split <;> rename_i step <;> rw [read] at step <;> cases step
  rfl

/-- The characters of a string end at a quote. -/
theorem stringTail_of_quote (rest : List Char) : stringTail ('"' :: rest) = some ([], rest) := by
  rw [stringTail]
  rfl

/-- The characters of a string are read back up to its closing quote. -/
theorem stringTail_escape (text rest : List Char) :
    stringTail (text.flatMap escape ++ '"' :: rest) = some (text, rest) := by
  induction text with
  | nil => exact stringTail_of_quote rest
  | cons char text ih =>
    have piece := stringPiece_escape char (text.flatMap escape ++ '"' :: rest)
    rw [List.flatMap_cons, List.append_assoc, stringTail_of_piece piece, ih]
    rfl

/-- A string in quotes is its escaped characters between two quotes. -/
theorem quote_toList (text : String) :
    (quote text).toList = '"' :: (text.toList.flatMap escape ++ ['"']) := by
  simp [quote]

/-- A string is read back from its text in quotes, whatever comes after it. -/
theorem string?_quote (text : String) (rest : List Char) :
    string? ((quote text).toList ++ rest) = some (text, rest) := by
  rw [quote_toList, List.cons_append, List.append_assoc, string?, List.cons_append, List.nil_append,
    stringTail_escape]
  exact congrArg (fun same => some (same, rest)) String.ofList_toList

end GameRules.Json
