import GameRules.Cache.Format
import Mathlib.Algebra.Order.BigOperators.Group.List

/-!
# Stored values are read back

Each format reads back what it wrote, whatever bytes come after it: a number of at most 64 bits, a
text whose length is such a number, and what is combined of values that are read back.
-/

namespace GameRules.Format

variable {α β : Type}

/-- A number that fits its bytes is the one they stand for. -/
theorem ofLittleEndian_littleEndian {width value : Nat} (fits : value < 256 ^ width) :
    ofLittleEndian (littleEndian width value) = value := by
  induction width generalizing value with
  | zero =>
    have zero : value = 0 := Nat.lt_one_iff.mp fits
    rw [zero]
    rfl
  | succ width ih =>
    have above : value / 256 < 256 ^ width := by
      rw [Nat.pow_succ] at fits
      exact Nat.div_lt_of_lt_mul (by omega)
    rw [littleEndian, ofLittleEndian, ih above, UInt8.toNat_ofNat']
    exact Nat.mod_add_div value 256

/-- Equally many bytes that stand for the same number are the same bytes. -/
theorem eq_of_ofLittleEndian_eq {first second : List UInt8} (size : first.length = second.length)
    (same : ofLittleEndian first = ofLittleEndian second) : first = second := by
  induction first generalizing second with
  | nil => exact (List.length_eq_zero_iff.mp size.symm).symm
  | cons byte bytes ih =>
    cases second with
    | nil => cases size
    | cons other others =>
      rw [ofLittleEndian, ofLittleEndian] at same
      have low := byte.toNat_lt
      have otherLow := other.toNat_lt
      have front : byte = other := UInt8.toNat_inj.mp (by omega)
      have back : bytes = others := ih (Nat.succ.inj size) (by omega)
      rw [front, back]

/-- As many bytes are taken as there are before the others. -/
theorem takeBytes_append {count : Nat} {bytes : List UInt8} (size : bytes.length = count)
    (rest : List UInt8) : takeBytes count (bytes ++ rest) = some (bytes, rest) := by
  subst size
  have enough : bytes.length ≤ (bytes ++ rest).length := by
    rw [List.length_append]
    omega
  rw [takeBytes, if_pos enough, List.take_left, List.drop_left]

/-- A number that fits its bytes is read back from them. -/
theorem takeNumber_littleEndian (width : Nat) {value : Nat} (fits : value < 256 ^ width)
    (rest : List UInt8) :
    takeNumber width (littleEndian width value ++ rest) = some (value, rest) := by
  have taken := takeBytes_append (length_littleEndian width value) rest
  simp only [takeNumber, taken, Option.map_some, ofLittleEndian_littleEndian fits]

/-- A number of at most 64 bits is read back, in whichever width it was written. -/
theorem natural_lawfulAt {value : Nat} (fits : value < 2 ^ 64) : natural.LawfulAt value := by
  intro suffix
  show decodeNatural (encodeNatural value ++ suffix) = some (value, suffix)
  unfold encodeNatural
  split
  · rename_i single
    have byte : (UInt8.ofNat value).toNat = value := by
      rw [singleMax] at single
      rw [UInt8.toNat_ofNat']
      omega
    rw [List.singleton_append, decodeNatural, byte, if_pos single]
  · split
    · rename_i short
      exact takeNumber_littleEndian 2 short suffix
    · split
      · rename_i middle
        exact takeNumber_littleEndian 4 middle suffix
      · exact takeNumber_littleEndian 8 fits suffix

/-- A fixed number of bytes is read back. -/
theorem fixed_lawfulAt {count : Nat} (value : { bytes : List UInt8 // bytes.length = count }) :
    (fixed count).LawfulAt value := by
  obtain ⟨bytes, rfl⟩ := value
  intro suffix
  simp [fixed]

/-- The bytes of a text are those of that text. -/
theorem ofTextBytes?_textBytes (text : String) : ofTextBytes? (textBytes text) = some text := by
  show String.fromUTF8? text.toByteArray = some text
  unfold String.fromUTF8?
  split
  · exact rfl
  · rename_i h
    exact absurd text.isValidUTF8 h

/-- A text is read back. -/
theorem text_lawfulAt {value : String} (fits : (textBytes value).length < 2 ^ 64) :
    text.LawfulAt value := by
  intro suffix
  have length := natural_lawfulAt fits (textBytes value ++ suffix)
  simp only [text, List.append_assoc, length, Option.bind_eq_bind, Option.bind_some,
    takeBytes_append rfl, ofTextBytes?_textBytes, Option.pure_def]

/-- A value that may be absent is read back if it is when it is there. -/
theorem option_lawfulAt {format : Format α} {value : Option α}
    (lawful : ∀ given ∈ value, format.LawfulAt given) : format.option.LawfulAt value := by
  intro suffix
  cases value with
  | none => rfl
  | some given => simp [option, lawful given rfl suffix]

/-- Two values that are read back are read back in order. -/
theorem pair_lawfulAt {left : Format α} {right : Format β} {first : α} {second : β}
    (head : left.LawfulAt first) (tail : right.LawfulAt second) :
    (left.pair right).LawfulAt (first, second) := by
  intro suffix
  simp only [pair, List.append_assoc, head _, tail _, Option.bind_eq_bind, Option.bind_some,
    Option.pure_def]

/-- A value is read back in another type if nothing of it is lost in the stored one. -/
theorem equiv_lawfulAt {format : Format α} {pack : α → β} {unpack : β → α} {value : β}
    (lawful : format.LawfulAt (unpack value)) (inverse : pack (unpack value) = value) :
    (format.equiv pack unpack).LawfulAt value := by
  intro suffix
  simp only [equiv, lawful suffix, Option.map_some, inverse]

/-- The bytes of a text are those of its characters. -/
theorem textBytes_eq_flatMap (text : String) :
    textBytes text = text.toList.flatMap String.utf8EncodeChar := by
  rw [textBytes, ← String.utf8Encode_toList, List.utf8Encode]
  simp

/-- A text has no more characters than bytes. -/
theorem length_toList_le_length_textBytes (text : String) :
    text.toList.length ≤ (textBytes text).length := by
  have counts : ∀ count ∈ text.toList.map fun char => (String.utf8EncodeChar char).length,
      1 ≤ count := by
    rintro _ counted
    obtain ⟨char, -, rfl⟩ := List.mem_map.mp counted
    rw [String.length_utf8EncodeChar]
    exact char.utf8Size_pos
  rw [textBytes_eq_flatMap, List.length_flatMap]
  simpa only [List.length_map] using List.length_le_sum_of_one_le _ counts

/-- A number is stored in at most nine bytes. -/
theorem length_natural_le (value : Nat) : (natural.encode value).length ≤ 9 := by
  show (encodeNatural value).length ≤ 9
  unfold encodeNatural
  split
  · exact (by decide : 1 ≤ 9)
  · split
    · exact (by decide : 3 ≤ 9)
    · split
      · exact (by decide : 5 ≤ 9)
      · exact Nat.le_refl 9

/-- A text has at most four bytes for each character. -/
theorem length_textBytes_le (text : String) : (textBytes text).length ≤ 4 * text.toList.length := by
  rw [textBytes_eq_flatMap]
  induction text.toList with
  | nil => exact Nat.le_refl 0
  | cons char chars ih =>
    have size := char.utf8Size_le_four
    rw [List.flatMap_cons, List.length_append, List.length_cons, String.length_utf8EncodeChar]
    omega

end GameRules.Format
