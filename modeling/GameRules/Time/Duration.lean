import GameRules.Grammar.Failure
import GameRules.Number.Notation

/-!
# Durations

A duration is a whole number of nanoseconds, with its seconds in 64 bits. Fractional amounts are
computed in binary64 and rounded once to the nanosecond.
-/

namespace GameRules

/-- Nanoseconds in a second. -/
def nanosPerSecond : Nat := 10 ^ 9

/-- Nanoseconds in a millisecond. -/
def nanosPerMilli : Nat := 10 ^ 6

/-- A span of time. -/
structure Duration where
  /-- Its length. -/
  nanoseconds : Nat
  /-- The whole seconds fit 64 bits. -/
  inRange : nanoseconds < 2 ^ 64 * 10 ^ 9
deriving DecidableEq, Repr

namespace Duration

/-- Why a number of seconds is no duration. -/
inductive Fault where
  /-- It is below zero. -/
  | negative
  /-- Its whole seconds do not fit 64 bits. -/
  | tooLarge
deriving DecidableEq, Repr

/-- The words of a fault. -/
def Fault.words : Fault → String
  | negative => "cannot convert float seconds to Duration: value is negative"
  | tooLarge => Refusal.durationTooLarge.words

/-- The duration of no time. -/
def zero : Duration := ⟨0, by decide⟩

instance : Inhabited Duration := ⟨zero⟩

/-- The whole seconds. -/
def seconds (duration : Duration) : Nat := duration.nanoseconds / nanosPerSecond

/-- The nanoseconds beyond the whole seconds. -/
def subsecond (duration : Duration) : Nat := duration.nanoseconds % nanosPerSecond

/-- A number of nanoseconds, if its seconds fit 64 bits. -/
def ofNanoseconds? (nanoseconds : Nat) : Option Duration :=
  if inRange : nanoseconds < 2 ^ 64 * 10 ^ 9 then some ⟨nanoseconds, inRange⟩ else none

/-- The sum of all durations of a list, if it is one. -/
def sum? (parts : List Duration) : Option Duration :=
  ofNanoseconds? (parts.foldl (fun total part => total + part.nanoseconds) 0)

/-- A number of seconds to the nearest nanosecond, of two equally near ones the even one. -/
def ofSeconds (seconds : Binary64) : Except Fault Duration :=
  if seconds.negative && !seconds.isZero then .error .negative
  else
    match ofNanoseconds? (roundHalfEven (seconds.units * nanosPerSecond) Binary64.unitsPerOne) with
    | some duration => .ok duration
    | none => .error .tooLarge

/-- The seconds as a binary64 number: the fraction is rounded first, then the sum. -/
def toSeconds? (duration : Duration) : Option Binary64 := do
  let whole ← Binary64.ofInt? duration.seconds
  let part ← Binary64.ofInt? duration.subsecond
  let one ← Binary64.ofInt? nanosPerSecond
  let fraction ← part.div? one
  whole.addMagnitudes? fraction

/-- The milliseconds as a binary64 number. -/
def toMilliseconds? (duration : Duration) : Option Binary64 := do
  let seconds ← duration.toSeconds?
  let thousand ← Binary64.ofInt? 1000
  seconds.mul? thousand

end Duration

end GameRules
