import GameRules.Text.Front

/-!
# Failures of the small grammars

State paths, durations and clock times are texts with a grammar of their own. A text that does not
match is reported with the place where matching stopped, shown under the text, and with what was
expected there. A clock time can also match and still name no time of day.
-/

namespace GameRules

/-- What a grammar expects at the place where it stops. -/
inductive Expectation where
  /-- A name after a dot. -/
  | fieldName
  /-- Digits between brackets. -/
  | arrayIndex
  /-- A unit after an amount. -/
  | durationUnit
  /-- A duration that can be represented. -/
  | durationInRange
deriving DecidableEq, Repr

/-- The words of an expectation. -/
def Expectation.words : Expectation → String
  | fieldName => "field name"
  | arrayIndex => "array index"
  | durationUnit => "duration unit (ms, s, m, h, d)"
  | durationInRange => "duration within range"

/-- Why a piece that matches is refused. -/
inductive Refusal where
  /-- An index does not fit a machine word. -/
  | indexTooLarge
  /-- An amount of time does not fit a duration. -/
  | durationTooLarge
deriving DecidableEq, Repr

/-- The words of a refusal. -/
def Refusal.words : Refusal → String
  | indexTooLarge => "number too large to fit in target type"
  | durationTooLarge =>
    "cannot convert float seconds to Duration: value is either too big or NaN"

/-- Where a grammar stops, and why. -/
structure Mismatch where
  /-- The text from the place of failure on. -/
  rest : List Char
  /-- What would have been accepted, the innermost expectation first. -/
  expected : List Expectation
  /-- Why the piece at this place is refused, if it has the right form. -/
  refusal : Option Refusal
deriving DecidableEq, Repr

/-- A place where nothing in particular is expected. -/
def Mismatch.plain (rest : List Char) : Mismatch := ⟨rest, [], none⟩

/-- The lines that say what was expected. -/
def Mismatch.details (mismatch : Mismatch) : String :=
  let expectations :=
    if mismatch.expected.isEmpty then []
    else ["expected " ++ ", ".intercalate (mismatch.expected.map Expectation.words)]
  "\n".intercalate (expectations ++ (mismatch.refusal.map Refusal.words).toList)

/-- Why a text is not accepted. -/
inductive GrammarFault where
  /-- The text does not match the grammar. -/
  | mismatch (mismatch : Mismatch)
  /-- The text is written like a clock time, and no day has that time. -/
  | clockOutOfRange
deriving DecidableEq, Repr

/-- A text together with why it is not accepted. -/
structure GrammarError where
  /-- The text. -/
  input : String
  /-- Why it is not accepted. -/
  fault : GrammarFault
deriving DecidableEq, Repr

namespace GrammarError

/-- A number of spaces. -/
def spaces (count : Nat) : String := String.ofList (List.replicate count ' ')

/-- The line that holds a byte of a text, counted from zero; also how many bytes and characters of
that line come before the byte, and whether the byte ends its character. A line break belongs to the
line it ends. -/
def locate : (byte : Nat) → (line bytes chars : Nat) → List Char → Nat × Nat × Nat × Bool
  | _, line, bytes, chars, [] => (line, bytes, chars, true)
  | byte, line, bytes, chars, char :: rest =>
    if byte < char.utf8Size then (line, bytes + byte, chars, byte + 1 == char.utf8Size)
    else if char == '\n' then locate (byte - char.utf8Size) (line + 1) 0 0 rest
    else locate (byte - char.utf8Size) line (bytes + char.utf8Size) (chars + 1) rest

/-- The text with a mark under the place of failure. -/
def pointAt (input : String) (offset : Nat) : String :=
  let text := input.toList
  if text.contains '\n' then
    let byte := min offset (Text.byteLength text - 1)
    let (line, bytes, chars, whole) := locate byte 0 0 0 text
    let column := (if whole then chars else bytes) + (offset - byte)
    let number := Nat.repr (line + 1)
    let margin := spaces number.length
    let content := ((text.splitOn '\n')[line]?).getD []
    "parse error at line " ++ number ++ ", column " ++ Nat.repr (column + 1) ++ "\n" ++
      margin ++ " |\n" ++ number ++ " | " ++ String.ofList content ++ "\n" ++
      margin ++ " | " ++ spaces column ++ "^\n"
  else input ++ "\n" ++ spaces offset ++ "^\n"

/-- The part of the message after the text itself. -/
def details (error : GrammarError) : String :=
  match error.fault with
  | .clockOutOfRange => "clock time out of range"
  | .mismatch mismatch =>
    let offset := Text.byteLength error.input.toList - Text.byteLength mismatch.rest
    pointAt error.input offset ++ mismatch.details

/-- The message of the error. -/
def message (error : GrammarError) : String :=
  "parse error in '" ++ error.input ++ "': " ++ error.details

end GrammarError

end GameRules
