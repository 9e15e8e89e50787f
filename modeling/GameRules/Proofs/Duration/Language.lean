import GameRules.Proofs.Amount

/-!
# The language of duration literals

A literal is parts, one after the other, each an amount and a unit. A text splits into parts in one way
at most, since an amount ends at the first letter and a unit ends at the next digit. Reading stops
silently in front of what is no part or is out of range, but then the text has not ended, so a literal
is accepted exactly if all of its parts are in range, and so is their sum. Two literals, one after the
other, stand for the sum of what they stand for.
-/

namespace GameRules

/-- The letters of a unit. -/
def TimeUnit.letters : TimeUnit → List Char
  | milliseconds => ['m', 's']
  | seconds => ['s']
  | minutes => ['m']
  | hours => ['h']
  | days => ['d']

/-- The letters of a unit are read as that unit, unless an `s` follows them. -/
theorem TimeUnit.read?_letters (unit : TimeUnit) {rest : List Char} (ends : rest.head? ≠ some 's') :
    read? (unit.letters ++ rest) = some (unit, rest) := by
  cases unit with
  | minutes =>
    -- With an `s` these would be milliseconds.
    cases rest with
    | nil => rfl
    | cons char rest =>
      have different : char ≠ 's' := fun same => ends (congrArg some same)
      simp [letters, read?, different]
  | milliseconds | seconds | hours | days => rfl

/-- The letters of a unit that was read stand in front of what is left. -/
theorem TimeUnit.eq_letters_of_read? {text rest : List Char} {unit : TimeUnit}
    (read : read? text = some (unit, rest)) : text = unit.letters ++ rest := by
  unfold read? at read
  split at read <;> cases read <;> rfl

/-- The letters of a unit begin with one that is no part of an amount. -/
theorem TimeUnit.exists_letters (unit : TimeUnit) :
    ∃ letter others, unit.letters = letter :: others ∧ letter.isDigit = false ∧ letter ≠ '.' := by
  cases unit <;> exact ⟨_, _, rfl, by decide⟩

/-- An amount that was read stands in front of what is left. -/
theorem Amount.eq_text_of_read? {text rest : List Char} {amount : Amount}
    (read : read? text = some (amount, rest)) : amount.WellFormed ∧ text = amount.text ++ rest := by
  have split (text : List Char) : text = text.takeWhile Char.isDigit ++ text.dropWhile Char.isDigit :=
    List.takeWhile_append_dropWhile.symm
  have isDigit (text : List Char) : ∀ char ∈ text.takeWhile Char.isDigit, char.isDigit = true :=
    fun _ member => List.mem_takeWhile_imp member
  simp only [read?] at read
  split at read
  · cases read
  · rename_i filled
    have filled : text.takeWhile Char.isDigit ≠ [] := by simpa using filled
    split at read
    · rename_i after point
      split at read
      · cases read
        refine ⟨⟨filled, isDigit text, List.forall_mem_nil _⟩, ?_⟩
        rw [Amount.text, if_pos rfl, List.append_nil, ← split]
      · rename_i broken
        have broken : after.takeWhile Char.isDigit ≠ [] := by simpa using broken
        cases read
        refine ⟨⟨filled, isDigit text, isDigit after⟩, ?_⟩
        rw [Amount.text, if_neg broken, List.append_assoc, List.cons_append, ← split after, ← point,
          ← split]
    · cases read
      refine ⟨⟨filled, isDigit text, List.forall_mem_nil _⟩, ?_⟩
      rw [Amount.text, if_pos rfl, List.append_nil, ← split]

namespace Duration

/-- A part of a literal. -/
structure Part where
  /-- How much of the unit. -/
  amount : Amount
  /-- The unit. -/
  unit : TimeUnit

namespace Part

/-- The text of a part. -/
def text (part : Part) : List Char := part.amount.text ++ part.unit.letters

/-- The duration that a part stands for, if it is in range. -/
def value? (partValue : PartValue) (part : Part) : Option Duration := partValue part.amount part.unit

/-- An amount and a unit are read back from the text of a part, unless an `s` follows it. -/
theorem read?_text {part : Part} (wellFormed : part.amount.WellFormed) {rest : List Char}
    (ends : rest.head? ≠ some 's') :
    Amount.read? (part.text ++ rest) = some (part.amount, part.unit.letters ++ rest) ∧
      TimeUnit.read? (part.unit.letters ++ rest) = some (part.unit, rest) := by
  obtain ⟨letter, others, letters, noDigit, noPoint⟩ := part.unit.exists_letters
  refine ⟨?_, part.unit.read?_letters ends⟩
  rw [text, List.append_assoc, letters, List.cons_append]
  exact Amount.read?_text wellFormed noDigit noPoint _

/-- Two parts, each with something after it, are written alike only if they are the same. -/
theorem eq_of_text_append {left right : Part} (leftFormed : left.amount.WellFormed)
    (rightFormed : right.amount.WellFormed) {rest others : List Char}
    (ends : rest.head? ≠ some 's') (othersEnd : others.head? ≠ some 's')
    (same : left.text ++ rest = right.text ++ others) : left = right ∧ rest = others := by
  obtain ⟨leftAmount, leftUnit⟩ := read?_text leftFormed ends
  obtain ⟨rightAmount, rightUnit⟩ := read?_text rightFormed othersEnd
  obtain ⟨amount, letters⟩ := Prod.mk.inj
    (Option.some.inj (leftAmount.symm.trans (same ▸ rightAmount)))
  obtain ⟨unit, after⟩ := Prod.mk.inj (Option.some.inj (leftUnit.symm.trans (letters ▸ rightUnit)))
  refine ⟨?_, after⟩
  cases left
  cases right
  cases amount
  cases unit
  rfl

/-- The text of a part begins with a digit. -/
theorem exists_digit {part : Part} (wellFormed : part.amount.WellFormed) :
    ∃ digit others, part.text = digit :: others ∧ digit.isDigit = true := by
  obtain ⟨digit, others, whole⟩ := List.exists_cons_of_ne_nil wellFormed.filled
  have written : part.text = digit :: (others ++
      (if part.amount.fraction = [] then [] else '.' :: part.amount.fraction) ++
        part.unit.letters) := by
    rw [text, Amount.text, whole, List.cons_append, List.cons_append]
  exact ⟨digit, _, written, wellFormed.whole digit (whole ▸ List.mem_cons_self)⟩

end Part

/-- The parts that a text splits into: at least one, each with an amount that is digits and perhaps a
point and further digits, and the text is theirs. -/
structure Splits (parts : List Part) (text : List Char) : Prop where
  /-- There is a part. -/
  filled : parts ≠ []
  /-- Amounts are written in digits. -/
  wellFormed : ∀ part ∈ parts, part.amount.WellFormed
  /-- The parts stand one after the other, and nothing else does. -/
  written : text = parts.flatMap Part.text

variable {partValue : PartValue} {parts : List Part} {values : List Duration} {text left : List Char}

/-- The durations that parts stand for, all of them in range. -/
abbrev Stand (partValue : PartValue) (parts : List Part) (values : List Duration) : Prop :=
  List.Forall₂ (fun part value => part.value? partValue = some value) parts values

/-- What parts are written as begins with no `s`. -/
theorem head?_texts_ne (wellFormed : ∀ part ∈ parts, part.amount.WellFormed) :
    (parts.flatMap Part.text).head? ≠ some 's' := by
  cases parts with
  | nil => exact nofun
  | cons part parts =>
    obtain ⟨digit, others, written, isDigit⟩ :=
      Part.exists_digit (wellFormed part List.mem_cons_self)
    rw [List.flatMap_cons, written]
    rintro ⟨⟩
    cases isDigit

/-- A text splits into parts in one way at most. -/
theorem Splits.unique {others : List Part} (first : Splits parts text) (second : Splits others text) :
    parts = others := by
  have same : parts.flatMap Part.text = others.flatMap Part.text := first.written ▸ second.written
  have formed := first.wellFormed
  have othersFormed := second.wellFormed
  clear first second
  induction parts generalizing others with
  | nil =>
    cases others with
    | nil => rfl
    | cons other others =>
      obtain ⟨digit, rest, written, -⟩ := Part.exists_digit (othersFormed other List.mem_cons_self)
      rw [List.flatMap_cons, written] at same
      cases same
  | cons part parts ih =>
    cases others with
    | nil =>
      obtain ⟨digit, rest, written, -⟩ := Part.exists_digit (formed part List.mem_cons_self)
      rw [List.flatMap_cons, written] at same
      cases same
    | cons other others =>
      obtain ⟨partFormed, formed⟩ := List.forall_mem_cons.mp formed
      obtain ⟨otherFormed, othersRest⟩ := List.forall_mem_cons.mp othersFormed
      obtain ⟨here, rest⟩ := Part.eq_of_text_append partFormed otherFormed (head?_texts_ne formed)
        (head?_texts_ne othersRest) same
      rw [here, ih rest formed othersRest]

/-- A part in range is read from its text, unless an `s` follows it. -/
theorem readPart_text {part : Part} {value : Duration} (wellFormed : part.amount.WellFormed)
    (stands : part.value? partValue = some value) (ends : left.head? ≠ some 's') :
    readPart partValue (part.text ++ left) = .part value left := by
  obtain ⟨amount, unit⟩ := Part.read?_text wellFormed ends
  rw [Part.value?] at stands
  simp only [readPart, amount, unit, stands]

/-- A part that was read stands in front of what is left. -/
theorem exists_part_of_readPart {value : Duration} (read : readPart partValue text = .part value left) :
    ∃ part : Part, part.amount.WellFormed ∧ part.value? partValue = some value ∧
      text = part.text ++ left := by
  unfold readPart at read
  split at read
  · cases read
  · rename_i amount afterAmount readAmount
    split at read
    · cases read
    · rename_i unit rest readUnit
      split at read
      · cases read
      · rename_i stands
        cases read
        obtain ⟨wellFormed, written⟩ := Amount.eq_text_of_read? readAmount
        refine ⟨⟨amount, unit⟩, wellFormed, stands, ?_⟩
        rw [written, TimeUnit.eq_letters_of_read? readUnit, Part.text, List.append_assoc]

/-- Once a part is read, further parts are read from what it leaves. -/
theorem readParts_of_part {value : Duration} (found : readPart partValue text = .part value left) :
    readParts partValue text =
      (readParts partValue left).map fun (values, rest) => (value :: values, rest) := by
  rw [readParts]
  split
  · rename_i absent
    cases found.symm.trans absent
  · rename_i outOfRange
    cases found.symm.trans outOfRange
  · rename_i unitMissing
    cases found.symm.trans unitMissing
  · rename_i part
    cases found.symm.trans part
    rfl

/-- Parts in range are read from their texts, and nothing is left. -/
theorem readParts_texts (wellFormed : ∀ part ∈ parts, part.amount.WellFormed)
    (stand : Stand partValue parts values) :
    readParts partValue (parts.flatMap Part.text) = .ok (values, []) := by
  induction stand with
  | nil => exact readParts_nil partValue
  | @cons part value parts values stands _ ih =>
    obtain ⟨partFormed, formed⟩ := List.forall_mem_cons.mp wellFormed
    have read := readPart_text partFormed stands (head?_texts_ne formed)
    rw [List.flatMap_cons, readParts_of_part read, ih formed]
    rfl

/-- The parts that were read stand in front of what is left. -/
theorem exists_parts_of_readParts (read : readParts partValue text = .ok (values, left)) :
    ∃ parts : List Part, (∀ part ∈ parts, part.amount.WellFormed) ∧ Stand partValue parts values ∧
      text = parts.flatMap Part.text ++ left := by
  induction length : text.length using Nat.strongRecOn generalizing text values with
  | _ length ih =>
    rw [readParts] at read
    split at read
    · cases read
      exact ⟨[], nofun, .nil, rfl⟩
    · cases read
      exact ⟨[], nofun, .nil, rfl⟩
    · cases read
    · rename_i value rest found
      cases others : readParts partValue rest with
      | error mismatch =>
        rw [others] at read
        cases read
      | ok result =>
        rw [others] at read
        cases read
        obtain ⟨part, partFormed, stands, written⟩ := exists_part_of_readPart found
        obtain ⟨parts, formed, stand, rfl⟩ :=
          ih rest.length (length ▸ readPart_length_lt found) others rfl
        refine ⟨part :: parts, List.forall_mem_cons.mpr ⟨partFormed, formed⟩, .cons stands stand, ?_⟩
        rw [written, List.flatMap_cons, List.append_assoc]

/-- The sum of durations is the duration of their exact sum, if there is one. -/
theorem sum?_eq_some_iff {total : Duration} :
    sum? values = some total ↔ total.nanoseconds = (values.map nanoseconds).sum := by
  have folded : values.foldl (fun total part => total + part.nanoseconds) 0 =
      (values.map nanoseconds).sum := by
    rw [List.sum_eq_foldl, List.foldl_map]
  rw [sum?, folded, ofNanoseconds?]
  constructor
  · intro found
    split at found
    · cases found
      rfl
    · cases found
  · intro same
    rw [dif_pos (same ▸ total.inRange)]
    cases total
    cases same
    rfl

/-- A text that splits into parts in range is read as their sum, if there is one. -/
theorem readLiteral_of_splits (splits : Splits parts text) (stand : Stand partValue parts values) :
    readLiteral partValue text =
      match sum? values with
      | none => .error ⟨text, [.durationInRange], none⟩
      | some total => .ok total := by
  obtain ⟨filled, wellFormed, rfl⟩ := splits
  cases stand with
  | nil => exact absurd rfl filled
  | @cons part value parts values stands stand =>
    obtain ⟨partFormed, formed⟩ := List.forall_mem_cons.mp wellFormed
    have read := readPart_text partFormed stands (head?_texts_ne formed)
    rw [List.flatMap_cons, readLiteral, read]
    dsimp only
    rw [readParts_texts formed stand]
    rfl

/-- A text that is read splits into parts in range, of which it is the sum. -/
theorem exists_splits_of_readLiteral {total : Duration}
    (read : readLiteral partValue text = .ok total) :
    ∃ parts values, Splits parts text ∧ Stand partValue parts values ∧ sum? values = some total := by
  unfold readLiteral at read
  split at read
  · cases read
  · cases read
  · cases read
  · rename_i value rest found
    split at read
    · cases read
    · rename_i values left others
      split at read
      · cases read
      · rename_i sum
        split at read
        · rename_i ended
          cases read
          obtain ⟨part, partFormed, stands, written⟩ := exists_part_of_readPart found
          obtain ⟨parts, formed, stand, rfl⟩ := exists_parts_of_readParts others
          rw [List.isEmpty_iff.mp ended, List.append_nil] at written
          exact ⟨part :: parts, value :: values,
            ⟨List.cons_ne_nil _ _, List.forall_mem_cons.mpr ⟨partFormed, formed⟩, written⟩,
            .cons stands stand, sum⟩
        · cases read

/-- A literal splits into parts in range, and stands for their exact sum. -/
theorem parse_eq_ok_iff {input : String} {total : Duration} :
    parse input = .ok total ↔
      ∃ parts values, Splits parts input.toList ∧ Stand Amount.toDuration? parts values ∧
        total.nanoseconds = (values.map nanoseconds).sum := by
  have matched : parse input = .ok total ↔
      readLiteral Amount.toDuration? input.toList = .ok total := by
    unfold parse
    cases readLiteral Amount.toDuration? input.toList <;> simp [Except.mapError]
  rw [matched]
  constructor
  · intro read
    obtain ⟨parts, values, splits, stand, sum⟩ := exists_splits_of_readLiteral read
    exact ⟨parts, values, splits, stand, sum?_eq_some_iff.mp sum⟩
  · rintro ⟨parts, values, splits, stand, sum⟩
    rw [readLiteral_of_splits splits stand, sum?_eq_some_iff.mpr sum]

/-- Two texts, one after the other, split into the parts of both. -/
theorem Splits.append {first second : List Char} {others : List Part} (left : Splits parts first)
    (right : Splits others second) : Splits (parts ++ others) (first ++ second) where
  filled := fun none => left.filled (List.append_eq_nil_iff.mp none).1
  wellFormed := List.forall_mem_append.mpr ⟨left.wellFormed, right.wellFormed⟩
  written := by rw [List.flatMap_append, ← left.written, ← right.written]

/-- Two literals, one after the other, have the parts of both, and what these stand for has the sum of
what both stand for. -/
theorem exists_splits_append {first second : String} {left right : Duration}
    (readFirst : parse first = .ok left) (readSecond : parse second = .ok right) :
    ∃ parts values, Splits parts (first ++ second).toList ∧ Stand Amount.toDuration? parts values ∧
      (values.map nanoseconds).sum = left.nanoseconds + right.nanoseconds := by
  obtain ⟨parts, values, splits, stand, sum⟩ := parse_eq_ok_iff.mp readFirst
  obtain ⟨others, otherValues, otherSplits, otherStand, otherSum⟩ := parse_eq_ok_iff.mp readSecond
  refine ⟨parts ++ others, values ++ otherValues, ?_, List.rel_append stand otherStand, ?_⟩
  · rw [String.toList_append]
    exact splits.append otherSplits
  · rw [List.map_append, List.sum_append, sum, otherSum]

/-- A text is accepted as a literal exactly if it splits into parts that are in range and have a sum in
range, and it stands for this sum; the parts are determined by the text. So two literals, one after the
other, stand for the sum of what they stand for, and are refused as out of range if there is none. -/
theorem parse_eq_sum_of_parts :
    (∀ (input : String) (total : Duration), parse input = .ok total ↔
      ∃ parts values, Splits parts input.toList ∧ Stand Amount.toDuration? parts values ∧
        total.nanoseconds = (values.map nanoseconds).sum) ∧
      (∀ (text : List Char) (parts others : List Part),
        Splits parts text → Splits others text → parts = others) ∧
      ∀ (first second : String) (left right : Duration),
        parse first = .ok left → parse second = .ok right →
          (∀ total : Duration, total.nanoseconds = left.nanoseconds + right.nanoseconds →
            parse (first ++ second) = .ok total) ∧
          (2 ^ 64 * 10 ^ 9 ≤ left.nanoseconds + right.nanoseconds →
            parse (first ++ second) = .error ⟨first ++ second,
              .mismatch ⟨(first ++ second).toList, [.durationInRange], none⟩⟩) := by
  refine ⟨fun _ _ => parse_eq_ok_iff, fun _ _ _ => Splits.unique, ?_⟩
  intro first second left right readFirst readSecond
  obtain ⟨parts, values, splits, stand, sum⟩ := exists_splits_append readFirst readSecond
  constructor
  · intro total inRange
    exact parse_eq_ok_iff.mpr ⟨parts, values, splits, stand, inRange.trans sum.symm⟩
  · intro tooLong
    have none : sum? values = none := by
      refine Option.eq_none_iff_forall_ne_some.mpr fun total found => ?_
      have bounded := total.inRange
      rw [sum?_eq_some_iff.mp found, sum] at bounded
      exact Nat.not_lt_of_le tooLong bounded
    rw [parse, readLiteral_of_splits splits stand, none]
    rfl

/-- Hours and minutes, and then milliseconds, are added up; twice ten to the nineteenth seconds are
out of range. -/
theorem parse_eq_sum_of_parts_compound :
    parse "1h30m" = .ok ⟨5400000000000, by decide⟩ ∧ parse "250ms" = .ok ⟨250000000, by decide⟩ ∧
      parse ("1h30m" ++ "250ms") = .ok ⟨5400250000000, by decide⟩ ∧
      parse "10000000000000000000s" = .ok ⟨10000000000000000000000000000, by decide⟩ ∧
      ∃ error, parse ("10000000000000000000s" ++ "10000000000000000000s") = .error error := by
  have hours : parse "1h30m" = .ok ⟨5400000000000, by decide⟩ := by decide +kernel
  have milliseconds : parse "250ms" = .ok ⟨250000000, by decide⟩ := by decide +kernel
  have long : parse "10000000000000000000s" = .ok ⟨10000000000000000000000000000, by decide⟩ := by
    decide +kernel
  have additive := parse_eq_sum_of_parts.2.2
  exact ⟨hours, milliseconds, (additive _ _ _ _ hours milliseconds).1 _ rfl, long, _,
    (additive _ _ _ _ long long).2 (by decide)⟩

end Duration

end GameRules
