import GameRules.Time.Duration

/-!
# Duration literals

A literal is one or more parts, each an amount and a unit: `250ms`, `1.5s`, `1h30m`. An amount is
decimal digits with an optional fraction. A part stands for its own duration, and the literal for
the sum of its parts.

Reading stops in front of a part that does not begin with an amount or that is out of range; only
the first part has to be there. An amount that no unit follows is always a failure.
-/

namespace GameRules

/-- A unit of an amount of time. -/
inductive TimeUnit where
  /-- Thousandths of a second. -/
  | milliseconds
  /-- Seconds. -/
  | seconds
  /-- Sixty seconds. -/
  | minutes
  /-- Sixty minutes. -/
  | hours
  /-- Twenty-four hours. -/
  | days
deriving DecidableEq, Repr

/-- How many milliseconds the unit lasts. -/
def TimeUnit.milliCount : TimeUnit → Nat
  | milliseconds => 1
  | seconds => 1000
  | minutes => 60 * 1000
  | hours => 60 * 60 * 1000
  | days => 24 * 60 * 60 * 1000

/-- Reads a unit; two letters are tried before one. -/
def TimeUnit.read? : List Char → Option (TimeUnit × List Char)
  | 'm' :: 's' :: rest => some (milliseconds, rest)
  | 's' :: rest => some (seconds, rest)
  | 'm' :: rest => some (minutes, rest)
  | 'h' :: rest => some (hours, rest)
  | 'd' :: rest => some (days, rest)
  | _ => none

/-- A unit leaves less than it was given. -/
theorem TimeUnit.read?_length_lt {text rest : List Char} {unit : TimeUnit}
    (read : TimeUnit.read? text = some (unit, rest)) : rest.length < text.length := by
  unfold TimeUnit.read? at read
  split at read
  · cases read
    simp only [List.length_cons]
    omega
  · cases read
    simp
  · cases read
    simp
  · cases read
    simp
  · cases read
    simp
  · cases read

/-- The decimal digits of an amount. -/
structure Amount where
  /-- The digits before the point. -/
  whole : List Char
  /-- The digits after the point, if there is one. -/
  fraction : List Char
deriving DecidableEq, Repr

namespace Amount

/-- Reads an amount. A point that no digit follows does not belong to it. -/
def read? (text : List Char) : Option (Amount × List Char) :=
  let whole := text.takeWhile Char.isDigit
  let rest := text.dropWhile Char.isDigit
  if whole.isEmpty then none
  else
    match rest with
    | '.' :: after =>
      if (after.takeWhile Char.isDigit).isEmpty then some (⟨whole, []⟩, rest)
      else some (⟨whole, after.takeWhile Char.isDigit⟩, after.dropWhile Char.isDigit)
    | _ => some (⟨whole, []⟩, rest)

/-- An amount leaves no more than it was given. -/
theorem read?_length_le {text rest : List Char} {amount : Amount}
    (read : read? text = some (amount, rest)) : rest.length ≤ text.length := by
  have shorter := (List.dropWhile_suffix (l := text) Char.isDigit).length_le
  simp only [read?] at read
  split at read
  · cases read
  · split at read
    · rename_i after point
      have further := (List.dropWhile_suffix (l := after) Char.isDigit).length_le
      rw [point, List.length_cons] at shorter
      split at read
      · cases read
        rw [point, List.length_cons]
        exact shorter
      · cases read
        omega
    · cases read
      exact shorter

/-- The digits of the amount as one integer. -/
def digits (amount : Amount) : Nat :=
  (amount.whole ++ amount.fraction).foldl
    (fun value digit => value * 10 + (digit.toNat - '0'.toNat)) 0

/-- The amount times milliseconds of its unit, as seconds; none beyond the finite numbers. -/
def toSeconds? (amount : Amount) (unit : TimeUnit) : Option Binary64 := do
  let number ← Binary64.ofDecimal? amount.digits amount.fraction.length
  let scale ← Binary64.ofInt? unit.milliCount
  let thousand ← Binary64.ofInt? 1000
  (← number.mul? scale).div? thousand

/-- The duration of an amount of a unit. -/
def toDuration? (amount : Amount) (unit : TimeUnit) : Option Duration :=
  (amount.toSeconds? unit).bind fun seconds => (Duration.ofSeconds seconds).toOption

end Amount

namespace Duration

/-- What stands at the front of a text where a part of a literal may stand. -/
inductive PartReading where
  /-- No amount. -/
  | absent
  /-- An amount, and then no unit: the text after the amount. -/
  | unitMissing (rest : List Char)
  /-- An amount and a unit that are out of range together. -/
  | outOfRange
  /-- A part, and the text after it. -/
  | part (value : Duration) (rest : List Char)

/-- The duration of an amount of a unit, if there is one. -/
abbrev PartValue := Amount → TimeUnit → Option Duration

/-- Reads one part of a literal. -/
def readPart (partValue : PartValue) (text : List Char) : PartReading :=
  match Amount.read? text with
  | none => .absent
  | some (amount, afterAmount) =>
    match TimeUnit.read? afterAmount with
    | none => .unitMissing afterAmount
    | some (unit, rest) =>
      match partValue amount unit with
      | none => .outOfRange
      | some value => .part value rest

/-- A part leaves less than it was given. -/
theorem readPart_length_lt {partValue : PartValue} {text rest : List Char} {value : Duration}
    (read : readPart partValue text = .part value rest) : rest.length < text.length := by
  unfold readPart at read
  split at read
  · cases read
  · rename_i amount afterAmount readAmount
    have first := Amount.read?_length_le readAmount
    split at read
    · cases read
    · rename_i unit left readUnit
      have second := TimeUnit.read?_length_lt readUnit
      split at read
      · cases read
      · cases read
        exact Nat.lt_of_lt_of_le second first

/-- The failure of an amount that no unit follows. -/
def missingUnit (rest : List Char) : Mismatch := ⟨rest, [.durationUnit, .durationInRange], none⟩

/-- Reads parts as long as there are any. -/
def readParts (partValue : PartValue) (text : List Char) :
    Except Mismatch (List Duration × List Char) :=
  match read : readPart partValue text with
  | .absent | .outOfRange => .ok ([], text)
  | .unitMissing rest => .error (missingUnit rest)
  | .part value rest =>
    have : rest.length < text.length := readPart_length_lt read
    (readParts partValue rest).map fun (values, left) => (value :: values, left)
termination_by text.length

/-- Reads a literal: a first part, further parts, and nothing after them. -/
def readLiteral (partValue : PartValue) (text : List Char) : Except Mismatch Duration :=
  match readPart partValue text with
  | .absent => .error ⟨text, [.durationInRange], none⟩
  | .outOfRange => .error ⟨text, [.durationInRange], some .durationTooLarge⟩
  | .unitMissing rest => .error (missingUnit rest)
  | .part value rest =>
    match readParts partValue rest with
    | .error mismatch => .error mismatch
    | .ok (values, left) =>
      match sum? (value :: values) with
      | none => .error ⟨text, [.durationInRange], none⟩
      | some total => if left.isEmpty then .ok total else .error (.plain left)

/-- The duration that a literal stands for. -/
def parse (input : String) : Except GrammarError Duration :=
  (readLiteral Amount.toDuration? input.toList).mapError fun mismatch => ⟨input, .mismatch mismatch⟩

/-- The literal of a duration: whole seconds, else whole milliseconds, else the nearest number of
milliseconds in plain digits. -/
def literal (duration : Duration) : String :=
  if duration.subsecond = 0 then Nat.repr duration.seconds ++ "s"
  else if duration.subsecond % nanosPerMilli = 0 then
    Nat.repr (duration.nanoseconds / nanosPerMilli) ++ "ms"
  else
    (duration.toMilliseconds?.getD Binary64.zero).render Binary64.plainLayout ++ "ms"

end Duration

end GameRules
