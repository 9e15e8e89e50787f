import GameRules.Proofs.Path.Extension
import Mathlib.Data.List.Induction

/-!
# Spellings of a location

The same steps are written with or without the qualifier, and with or without zeros in front of an
index. Without such zeros the text of a location is that of its steps, and to compare locations by their
texts is to compare their steps. A reference that has no steps is compared by its text alone: it tells
two spellings of a location apart, unless these differ in the qualifier only.
-/

namespace GameRules

/-- A digit has one of ten values. -/
theorem digitValue_lt {char : Char} (isDigit : char.isDigit = true) :
    48 ≤ char.toNat ∧ char.toNat - '0'.toNat < 10 := by
  have bounds : 48 ≤ char.toNat ∧ char.toNat ≤ 57 := by
    simp only [Char.isDigit, Bool.and_eq_true, decide_eq_true_eq] at isDigit
    exact isDigit
  have zero : '0'.toNat = 48 := rfl
  omega

/-- A digit is the one that writes its value. -/
theorem digitChar_digitValue {char : Char} (isDigit : char.isDigit = true) :
    Nat.digitChar (char.toNat - '0'.toNat) = char := by
  obtain ⟨least, small⟩ := digitValue_lt isDigit
  apply Char.toNat_inj.mp
  rw [Nat.toNat_digitChar_of_lt_ten small]
  exact Nat.add_sub_of_le least

namespace Segment

variable {step : Segment} {steps : List Segment} {text piece : List Char}

/-- No index of a text is written with a zero in front of other digits. -/
def Unpadded (text : List Char) : Prop :=
  ∀ digit : Char, digit.isDigit = true → ¬['[', '0', digit] <:+: text

/-- A part of a text has no padded index if the text has none. -/
theorem Unpadded.of_infix (unpadded : Unpadded text) (part : piece <:+: text) : Unpadded piece :=
  fun digit isDigit padded => unpadded digit isDigit (padded.trans part)

/-- Digits without a zero in front are those of the number that they write. -/
theorem toDigits_decimalValue {digits : List Char} (filled : digits ≠ [])
    (isDigit : ∀ char ∈ digits, char.isDigit = true)
    (unpadded : ∀ digit others, digits ≠ '0' :: digit :: others) :
    Nat.toDigits 10 (decimalValue digits) = digits := by
  induction digits using List.reverseRecOn with
  | nil => exact absurd rfl filled
  | append_singleton front last ih =>
    have lastDigit := isDigit last (by simp)
    have written := digitChar_digitValue lastDigit
    have small := (digitValue_lt lastDigit).2
    have value : decimalValue (front ++ [last]) =
        10 * decimalValue front + (last.toNat - '0'.toNat) := by
      rw [decimalValue, List.foldl_append, List.foldl_cons, List.foldl_nil, Nat.mul_comm]
      rfl
    by_cases alone : front = []
    · subst alone
      rw [value, decimalValue, List.foldl_nil, Nat.mul_zero, Nat.zero_add,
        Nat.toDigits_of_lt_base small, written]
      rfl
    · have frontWritten : Nat.toDigits 10 (decimalValue front) = front := by
        refine ih alone (fun char member => isDigit char (List.mem_append_left _ member)) ?_
        rintro digit others rfl
        exact unpadded digit (others ++ [last]) rfl
      have positive : 0 < decimalValue front := by
        by_contra zero
        rw [Nat.eq_zero_of_not_pos zero, Nat.toDigits_zero] at frontWritten
        exact unpadded last [] (by rw [← frontWritten]; rfl)
      rw [value, ← Nat.toDigits_append_toDigits (by decide) positive small, frontWritten,
        Nat.toDigits_of_lt_base small, written]

/-- The text of a step begins with a dot or a bracket. -/
theorem delimited_text (step : Segment) : Delimited step.text.toList := by
  cases step with
  | field name =>
    rw [Segment.text, String.toList_append]
    rintro _ ⟨⟩
    exact .inl rfl
  | index position =>
    rw [Segment.text, String.toList_append, String.toList_append]
    rintro _ ⟨⟩
    exact .inr rfl

/-- The texts of steps begin with a dot or a bracket. -/
theorem delimited_texts (steps : List Segment) :
    Delimited (steps.flatMap fun step => step.text.toList) := by
  induction steps with
  | nil => exact nofun
  | cons step steps ih => exact step.delimited_text.append ih

/-- A step that is written without padding is written as its text. -/
theorem Spelling.eq_text (spelling : Spelling step piece) (unpadded : Unpadded piece) :
    piece = step.text.toList := by
  cases spelling with
  | field name filled named =>
    rw [Segment.text, String.toList_append]
    exact congrArg ('.' :: ·) String.toList_ofList.symm
  | index digits filled isDigit fits =>
    have written := toDigits_decimalValue filled isDigit fun digit others padded => by
      subst padded
      refine unpadded digit (isDigit digit (by simp)) (List.IsPrefix.isInfix ⟨others ++ [']'], ?_⟩)
      simp
    rw [text, String.toList_append, String.toList_append, Nat.toList_repr, written]
    rfl

/-- Steps that are written without padding are written as their texts. -/
theorem Spelled.eq_texts (spelled : Spelled steps text) (unpadded : Unpadded text) :
    text = steps.flatMap fun step => step.text.toList := by
  induction spelled with
  | nil => rfl
  | @cons step steps piece rest first others ih =>
    have front := first.eq_text (unpadded.of_infix (List.prefix_append piece rest).isInfix)
    have back := ih (unpadded.of_infix (List.suffix_append piece rest).isInfix)
    rw [List.flatMap_cons, ← front, ← back]

end Segment

namespace Path

variable {steps above below : List Segment} {text shorter longer : List Char}

/-- Taking the qualifier off a text leaves the end of the text. -/
theorem unqualified_suffix (text : List Char) : unqualified text <:+ text := by
  unfold unqualified
  cases stripped : Text.stripFront? qualifier text with
  | none => exact List.suffix_refl text
  | some inner =>
    rw [Text.stripFront?_eq_some_iff.mp stripped]
    exact List.suffix_append _ _

/-- Without padding, the text of a location is a dollar sign and the texts of its steps. -/
theorem unqualified_eq_texts (read : Segment.readPath text = .ok steps)
    (unpadded : Segment.Unpadded text) :
    unqualified text = '$' :: steps.flatMap fun step => step.text.toList := by
  obtain ⟨body, root, -, spelled⟩ := readPath_eq_ok_iff.mp read
  have inside : body <:+: text := by
    have whole := (unqualified_suffix text).isInfix
    rw [root] at whole
    exact (List.suffix_cons '$' body).isInfix.trans whole
  rw [root, ← spelled.eq_texts (unpadded.of_infix inside)]

/-- Without padding, one location extends another one exactly if its steps begin with those of the
other. -/
theorem extends_iff_prefix (readAbove : Segment.readPath shorter = .ok above)
    (readBelow : Segment.readPath longer = .ok below) (unpaddedAbove : Segment.Unpadded shorter)
    (unpaddedBelow : Segment.Unpadded longer) :
    Extends (unqualified longer) (unqualified shorter) ↔ above <+: below := by
  refine ⟨prefix_of_extends readAbove readBelow, ?_⟩
  rintro ⟨more, rfl⟩
  have texts := unqualified_eq_texts readBelow unpaddedBelow
  rw [List.flatMap_append, ← List.cons_append, ← unqualified_eq_texts readAbove unpaddedAbove] at texts
  exact ⟨_, Segment.delimited_texts more, texts⟩

/-- Without padding, locations are written alike, up to the qualifier, if they have the same steps. -/
theorem unqualified_eq_of_unpadded {other : List Char} (read : Segment.readPath text = .ok steps)
    (readOther : Segment.readPath other = .ok steps) (unpadded : Segment.Unpadded text)
    (unpaddedOther : Segment.Unpadded other) : unqualified text = unqualified other := by
  rw [unqualified_eq_texts read unpadded, unqualified_eq_texts readOther unpaddedOther]

/-- Of two ways to write a location, references with steps overlap both or neither. All references do
so exactly if the two differ in the qualifier only, as they do if neither has a padded index. -/
theorem overlaps_eq_iff_of_segments {left right : Path} (readLeft : left.segments = .ok steps)
    (readRight : right.segments = .ok steps) :
    (∀ other : Path, other.Grammatical → left.overlaps other = right.overlaps other) ∧
      ((∀ other : Path, left.overlaps other = right.overlaps other) ↔
        unqualified left.raw.toList = unqualified right.raw.toList) ∧
      (Segment.Unpadded left.raw.toList → Segment.Unpadded right.raw.toList →
        ∀ other : Path, left.overlaps other = right.overlaps other) := by
  have alike (same : unqualified left.raw.toList = unqualified right.raw.toList) (other : Path) :
      left.overlaps other = right.overlaps other := by
    rw [overlaps_comm left, overlaps_comm right, overlaps_congr other same]
  have readLeftText := segments_eq_ok_iff.mp readLeft
  have readRightText := segments_eq_ok_iff.mp readRight
  refine ⟨?_, ⟨fun same => ?_, alike⟩, fun unpaddedLeft unpaddedRight => alike ?_⟩
  · rintro other ⟨otherSteps, read⟩
    rw [overlaps_of_segments readLeft read, overlaps_of_segments readRight read]
  · -- What goes on after the left location with no number extends it, and so does the right one.
    obtain ⟨body, root, -, -⟩ := readPath_eq_ok_iff.mp readLeftText
    let other : Path := ⟨left.raw ++ "[x]"⟩
    have goesOn : unqualified other.raw.toList = unqualified left.raw.toList ++ "[x]".toList := by
      rw [String.toList_append, unqualified_append root]
    have inside : Extends (unqualified other.raw.toList) (unqualified left.raw.toList) :=
      ⟨_, .of_head? (.inr rfl), goesOn⟩
    have unread : ¬other.Grammatical := not_grammatical_append ⟨steps, readLeft⟩ goesOn
    have overlapLeft : other.overlaps left = true := by
      rw [overlaps_of_not_grammatical unread]
      exact textsOverlap_iff.mpr (.inl inside)
    have overlapRight : other.overlaps right = true := by
      rw [overlaps_comm, ← same other, overlaps_comm, overlapLeft]
    rw [overlaps_of_not_grammatical unread, textsOverlap_iff] at overlapRight
    have comparable : Extends (unqualified left.raw.toList) (unqualified right.raw.toList) ∨
        Extends (unqualified right.raw.toList) (unqualified left.raw.toList) := by
      rcases overlapRight with below | above
      · exact inside.total below
      · exact .inr (above.trans inside)
    rcases comparable with leftInside | rightInside
    · exact eq_of_extends readRightText readLeftText leftInside
    · exact (eq_of_extends readLeftText readRightText rightInside).symm
  · exact unqualified_eq_of_unpadded readLeftText readRightText unpaddedLeft unpaddedRight

/-- Zeros in brackets are the index of the first element, however many there are. -/
theorem spelled_first {zeros : List Char} (filled : zeros ≠ []) (isZero : ∀ char ∈ zeros, char = '0') :
    Segment.Spelled [.field "a", .index 0] ('.' :: 'a' :: '[' :: (zeros ++ [']'])) := by
  have value : Segment.decimalValue zeros = 0 := by
    rw [List.eq_replicate_of_mem isZero, Segment.decimalValue]
    generalize zeros.length = count
    induction count with
    | zero => rfl
    | succ count ih => exact ih
  have isDigit : ∀ char ∈ zeros, char.isDigit = true := by
    intro char member
    rw [isZero char member]
    rfl
  have index := Segment.Spelling.index zeros filled isDigit (by rw [value]; exact Nat.zero_le _)
  rw [value] at index
  have field : Segment.Spelling (.field "a") ['.', 'a'] :=
    .field ['a'] (by decide) (List.all_eq_true.mp rfl)
  have steps := Segment.Spelled.cons field (.cons index .nil)
  simpa using steps

/-- The first element, written with the qualifier and with a padded index, is the same to references
with steps, and not to all references. -/
theorem overlaps_eq_iff_of_segments_first :
    (Path.mk "state:$.a[0]").segments = .ok [.field "a", .index 0] ∧
      (Path.mk "$.a[00]").segments = .ok [.field "a", .index 0] ∧
        (∀ other : Path, other.Grammatical →
          (Path.mk "state:$.a[0]").overlaps other = (Path.mk "$.a[00]").overlaps other) ∧
          ¬∀ other, (Path.mk "state:$.a[0]").overlaps other = (Path.mk "$.a[00]").overlaps other := by
  have readLeft : (Path.mk "state:$.a[0]").segments = .ok [.field "a", .index 0] :=
    segments_of_spelled rfl rfl (spelled_first (List.cons_ne_nil '0' []) (by simp))
  have readRight : (Path.mk "$.a[00]").segments = .ok [.field "a", .index 0] :=
    segments_of_spelled rfl rfl (spelled_first (List.cons_ne_nil '0' ['0']) (by simp))
  obtain ⟨grammatical, alike, -⟩ := overlaps_eq_iff_of_segments readLeft readRight
  refine ⟨readLeft, readRight, grammatical, fun same => ?_⟩
  exact absurd (alike.mp same) (by decide)

/-- A reference without steps overlaps the first element as it is written with one zero, and does not
overlap it as it is written with two. -/
theorem overlaps_padded :
    (Path.mk "$.a[0]").segments = .ok [.field "a", .index 0] ∧
      (Path.mk "$.a[00]").segments = .ok [.field "a", .index 0] ∧
        (Path.mk "$.a[0]").overlaps ⟨"$.a[0][x]"⟩ = true ∧
          (Path.mk "$.a[00]").overlaps ⟨"$.a[0][x]"⟩ = false := by
  have read : (Path.mk "$.a[0]").segments = .ok [.field "a", .index 0] :=
    segments_of_spelled rfl rfl (spelled_first (List.cons_ne_nil '0' []) (by simp))
  have readPadded : (Path.mk "$.a[00]").segments = .ok [.field "a", .index 0] :=
    segments_of_spelled rfl rfl (spelled_first (List.cons_ne_nil '0' ['0']) (by simp))
  have unread : ¬(Path.mk "$.a[0][x]").Grammatical := not_grammatical_append ⟨_, read⟩ rfl
  refine ⟨read, readPadded, ?_, ?_⟩
  · rw [overlaps_comm, overlaps_of_not_grammatical unread]
    rfl
  · rw [overlaps_comm, overlaps_of_not_grammatical unread]
    rfl

/-- Locations without padded indices are compared alike by their steps and by their texts: one list of
steps begins with the other exactly if one text, without the qualifier, is the other or goes on after it
with a dot or a bracket. -/
theorem stepsOverlap_eq_textsOverlap {left right : Path} {leftSteps rightSteps : List Segment}
    (readLeft : left.segments = .ok leftSteps) (readRight : right.segments = .ok rightSteps)
    (unpaddedLeft : Segment.Unpadded left.raw.toList)
    (unpaddedRight : Segment.Unpadded right.raw.toList) :
    (leftSteps <+: rightSteps ∨ rightSteps <+: leftSteps ↔
        unqualified left.raw.toList = unqualified right.raw.toList ∨
          (∃ rest, (rest.head? = some '.' ∨ rest.head? = some '[') ∧
            unqualified right.raw.toList = unqualified left.raw.toList ++ rest) ∨
          ∃ rest, (rest.head? = some '.' ∨ rest.head? = some '[') ∧
            unqualified left.raw.toList = unqualified right.raw.toList ++ rest) ∧
      stepsOverlap leftSteps rightSteps =
        textsOverlap (unqualified left.raw.toList) (unqualified right.raw.toList) := by
  have readLeftText := segments_eq_ok_iff.mp readLeft
  have readRightText := segments_eq_ok_iff.mp readRight
  have below := extends_iff_prefix readLeftText readRightText unpaddedLeft unpaddedRight
  have above := extends_iff_prefix readRightText readLeftText unpaddedRight unpaddedLeft
  have agree : stepsOverlap leftSteps rightSteps = true ↔
      textsOverlap (unqualified left.raw.toList) (unqualified right.raw.toList) = true := by
    rw [stepsOverlap_iff, textsOverlap_iff, below, above, or_comm]
  refine ⟨?_, Bool.eq_iff_iff.mpr agree⟩
  rw [← stepsOverlap_iff, agree, ← continues_iff, ← continues_iff, textsOverlap, Bool.or_eq_true,
    Bool.or_eq_true, beq_iff_eq, or_assoc]

/-- The players and the score of one of them, one with the qualifier and one without, are compared
alike. -/
theorem stepsOverlap_eq_textsOverlap_score :
    (Path.mk "state:$.Players").segments = .ok [.field "Players"] ∧
      (Path.mk "$.Players[10].Score").segments = .ok [.field "Players", .index 10, .field "Score"] ∧
        Segment.Unpadded "state:$.Players".toList ∧ Segment.Unpadded "$.Players[10].Score".toList ∧
          stepsOverlap [.field "Players"] [.field "Players", .index 10, .field "Score"] =
            textsOverlap "$.Players".toList "$.Players[10].Score".toList := by
  have players : Segment.Spelling (.field "Players") ".Players".toList :=
    .field "Players".toList (by decide) (List.all_eq_true.mp rfl)
  have index : Segment.Spelling (.index 10) "[10]".toList :=
    .index ['1', '0'] (by decide) (List.all_eq_true.mp rfl) (by decide)
  have score : Segment.Spelling (.field "Score") ".Score".toList :=
    .field "Score".toList (by decide) (List.all_eq_true.mp rfl)
  have readLeft : (Path.mk "state:$.Players").segments = .ok [.field "Players"] :=
    segments_of_spelled rfl rfl (.cons players .nil)
  have readRight : (Path.mk "$.Players[10].Score").segments =
      .ok [.field "Players", .index 10, .field "Score"] :=
    segments_of_spelled rfl rfl (.cons players (.cons index (.cons score .nil)))
  have unpaddedLeft : Segment.Unpadded "state:$.Players".toList := by
    intro digit isDigit padded
    simp [List.infix_cons_iff, List.cons_prefix_cons] at padded
  have unpaddedRight : Segment.Unpadded "$.Players[10].Score".toList := by
    intro digit isDigit padded
    simp [List.infix_cons_iff, List.cons_prefix_cons] at padded
  have compared := stepsOverlap_eq_textsOverlap readLeft readRight unpaddedLeft unpaddedRight
  exact ⟨readLeft, readRight, unpaddedLeft, unpaddedRight, compared.2⟩

end Path

end GameRules
