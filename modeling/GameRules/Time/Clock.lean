import GameRules.Grammar.Failure

/-!
# Times of day

A time of day has hour, minute and second on a 24-hour clock. It is written `HH:MM`, followed by
`:SS` if the second is not zero; each field is read with one digit or two.
-/

namespace GameRules

/-- A time of day. -/
structure ClockTime where
  /-- The hour, from midnight. -/
  hour : Nat
  /-- The minute of the hour. -/
  minute : Nat
  /-- The second of the minute. -/
  second : Nat
  /-- A day has 24 hours. -/
  hour_lt : hour < 24
  /-- An hour has 60 minutes. -/
  minute_lt : minute < 60
  /-- A minute has 60 seconds. -/
  second_lt : second < 60
deriving DecidableEq, Repr

namespace ClockTime

/-- The time of day with these fields, if there is one. -/
def of? (hour minute second : Nat) : Option ClockTime :=
  if inRange : hour < 24 ∧ minute < 60 ∧ second < 60 then
    some ⟨hour, minute, second, inRange.1, inRange.2.1, inRange.2.2⟩
  else none

/-- The earlier of two times comes first. -/
def compare (left right : ClockTime) : Ordering :=
  (Ord.compare left.hour right.hour).then
    ((Ord.compare left.minute right.minute).then (Ord.compare left.second right.second))

/-- A number below one hundred in two digits. -/
def twoDigits (value : Nat) : String :=
  if value < 10 then "0" ++ Nat.repr value else Nat.repr value

/-- The text of a time of day. -/
def text (time : ClockTime) : String :=
  twoDigits time.hour ++ ":" ++ twoDigits time.minute ++
    if time.second = 0 then "" else ":" ++ twoDigits time.second

/-- Reads a field: one digit, or two. -/
def readField (text : List Char) : Except Mismatch (Nat × List Char) :=
  match text with
  | first :: rest =>
    if first.isDigit then
      let tens := first.toNat - '0'.toNat
      match rest with
      | second :: left =>
        if second.isDigit then .ok (tens * 10 + (second.toNat - '0'.toNat), left)
        else .ok (tens, rest)
      | [] => .ok (tens, rest)
    else .error (.plain text)
  | [] => .error (.plain text)

/-- Reads a colon and a field. -/
def readNext (text : List Char) : Except Mismatch (Nat × List Char) :=
  match text with
  | ':' :: rest => readField rest
  | _ => .error (.plain text)

/-- Reads the fields of a clock time; the second may be left out. -/
def readFields (text : List Char) : Except Mismatch (Nat × Nat × Nat) := do
  let (hour, afterHour) ← readField text
  let (minute, afterMinute) ← readNext afterHour
  let (second, rest) ←
    match afterMinute with
    | ':' :: _ => readNext afterMinute
    | _ => .ok (0, afterMinute)
  if rest.isEmpty then return (hour, minute, second) else .error (.plain rest)

/-- The time of day that a text stands for. -/
def parse (input : String) : Except GrammarError ClockTime :=
  match readFields input.toList with
  | .error mismatch => .error ⟨input, .mismatch mismatch⟩
  | .ok (hour, minute, second) =>
    match of? hour minute second with
    | none => .error ⟨input, .clockOutOfRange⟩
    | some time => .ok time

end ClockTime

end GameRules
