import GameRules.Time.Clock

/-!
# Times of day are read back

The text of a time of day has two digits for each field, so reading a field cannot stop short of its
second digit.
-/

namespace GameRules.ClockTime

/-- The character of a decimal digit. -/
def digitChar (digit : Nat) : Char := Char.ofNat ('0'.toNat + digit)

/-- The character of a digit is one, and stands for the digit. -/
theorem digitChar_isDigit {digit : Nat} (small : digit < 10) :
    (digitChar digit).isDigit = true ∧ (digitChar digit).toNat - '0'.toNat = digit := by
  have checked : ∀ digit : Fin 10, (digitChar digit).isDigit = true ∧
      (digitChar digit).toNat - '0'.toNat = digit := by
    decide
  exact checked ⟨digit, small⟩

/-- A number below one hundred is written with its two digits. -/
theorem twoDigits_toList {value : Nat} (small : value < 100) :
    (twoDigits value).toList = [digitChar (value / 10), digitChar (value % 10)] := by
  have checked : ∀ value : Fin 100,
      (twoDigits value).toList = [digitChar (value / 10), digitChar (value % 10)] := by
    decide +kernel
  exact checked ⟨value, small⟩

/-- A field that was written is read with both its digits, whatever comes after it. -/
theorem readField_twoDigits {value : Nat} (small : value < 100) (rest : List Char) :
    readField ((twoDigits value).toList ++ rest) = .ok (value, rest) := by
  obtain ⟨tensDigit, tens⟩ := digitChar_isDigit (by omega : value / 10 < 10)
  obtain ⟨onesDigit, ones⟩ := digitChar_isDigit (by omega : value % 10 < 10)
  rw [twoDigits_toList small]
  simp only [List.cons_append, List.nil_append, readField, tensDigit, onesDigit, if_true, tens,
    ones]
  rw [Nat.mul_comm, Nat.div_add_mod]

/-- The fields of a time of day are read back from its text. -/
theorem readFields_text (time : ClockTime) :
    readFields time.text.toList = .ok (time.hour, time.minute, time.second) := by
  obtain ⟨hour, minute, second, hour_lt, minute_lt, second_lt⟩ := time
  have readHour := readField_twoDigits (by omega : hour < 100)
  have readMinute := readField_twoDigits (by omega : minute < 100)
  have readSecond := readField_twoDigits (by omega : second < 100) []
  rw [List.append_nil] at readSecond
  by_cases whole : second = 0
  · subst whole
    have written : (text ⟨hour, minute, 0, hour_lt, minute_lt, second_lt⟩).toList =
        (twoDigits hour).toList ++ ':' :: ((twoDigits minute).toList ++ []) := by
      simp [text]
    rw [written, readFields, readHour]
    change (readNext (':' :: _) >>= _) = _
    rw [readNext, readMinute]
    rfl
  · have written : (text ⟨hour, minute, second, hour_lt, minute_lt, second_lt⟩).toList =
        (twoDigits hour).toList ++ ':' ::
          ((twoDigits minute).toList ++ ':' :: (twoDigits second).toList) := by
      simp [text, whole]
    rw [written, readFields, readHour]
    change (readNext (':' :: _) >>= _) = _
    rw [readNext, readMinute]
    change (readNext (':' :: _) >>= _) = _
    rw [readNext, readSecond]
    rfl

/-- A time of day is read back from its text. -/
theorem parse_text (time : ClockTime) : parse time.text = .ok time := by
  have inRange := And.intro time.hour_lt (And.intro time.minute_lt time.second_lt)
  have found : of? time.hour time.minute time.second = some time := dif_pos inRange
  simp only [parse, readFields_text, found]

end GameRules.ClockTime
