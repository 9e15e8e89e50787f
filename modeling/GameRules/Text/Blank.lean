/-!
# Blank characters

Fields of a cron expression are separated by the characters with the Unicode property White_Space.
-/

namespace GameRules.Text

/-- Whether a character has the property White_Space. -/
def isBlank (char : Char) : Bool :=
  let point := char.toNat
  (0x9 ≤ point && point ≤ 0xD) || point == 0x20 || point == 0x85 || point == 0xA0 ||
    point == 0x1680 || (0x2000 ≤ point && point ≤ 0x200A) || point == 0x2028 || point == 0x2029 ||
    point == 0x202F || point == 0x205F || point == 0x3000

/-- How many maximal runs of characters that are not blank a text has. -/
def countWords : List Char → Nat
  | [] => 0
  | char :: rest =>
    if isBlank char then countWords rest
    else
      match rest with
      | [] => 1
      | next :: _ => if isBlank next then 1 + countWords rest else countWords rest

end GameRules.Text
