import GameRules.Proofs.Path.Grammar

/-!
# Locations inside of other locations

A text extends another one if it is that text, or goes on after it with a dot or a bracket. References
that are compared by their texts overlap if one extends the other. If a location extends another one,
its steps begin with the steps of the other, so by steps and by texts alike whatever overlaps a location
overlaps every location that this one is inside of.
-/

namespace GameRules.Path

variable {left right shorter longer text rest : List Char}

/-- A reference that has steps. -/
def Grammatical (path : Path) : Prop := ∃ steps, path.segments = .ok steps

/-- A text is another one, or goes on after it with a dot or a bracket. -/
def Extends (longer shorter : List Char) : Prop :=
  ∃ rest, Segment.Delimited rest ∧ longer = shorter ++ rest

/-- A text goes on after another one with what begins with a dot or a bracket. -/
theorem continues_iff :
    continues shorter longer = true ↔
      ∃ rest, (rest.head? = some '.' ∨ rest.head? = some '[') ∧ longer = shorter ++ rest := by
  unfold continues
  constructor
  · intro goesOn
    split at goesOn
    · rename_i next rest stripped
      have opens : next = '.' ∨ next = '[' := by simpa using goesOn
      exact ⟨next :: rest, by simpa using opens, Text.stripFront?_eq_some_iff.mp stripped⟩
    · cases goesOn
  · rintro ⟨_ | ⟨next, rest⟩, opens, rfl⟩
    · simp at opens
    · rw [Text.stripFront?_eq_some_iff.mpr rfl]
      simpa using opens

/-- A text extends another one if it is that text or goes on after it. -/
theorem extends_iff : Extends longer shorter ↔ longer = shorter ∨ continues shorter longer = true := by
  rw [continues_iff]
  constructor
  · rintro ⟨_ | ⟨next, rest⟩, delimited, rfl⟩
    · exact .inl (List.append_nil shorter)
    · exact .inr ⟨next :: rest, by simpa using delimited next rfl, rfl⟩
  · rintro (rfl | ⟨rest, opens, rfl⟩)
    · exact ⟨[], nofun, (List.append_nil _).symm⟩
    · exact ⟨rest, .of_head? opens, rfl⟩

/-- Texts overlap if one of them extends the other. -/
theorem textsOverlap_iff : textsOverlap left right = true ↔ Extends left right ∨ Extends right left := by
  rw [textsOverlap, extends_iff, extends_iff, Bool.or_eq_true, Bool.or_eq_true, beq_iff_eq]
  grind

/-- Lists of steps overlap if one of them begins with the other. -/
theorem stepsOverlap_iff {leftSteps rightSteps : List Segment} :
    stepsOverlap leftSteps rightSteps = true ↔
      leftSteps <+: rightSteps ∨ rightSteps <+: leftSteps := by
  rw [stepsOverlap, Bool.or_eq_true, List.isPrefixOf_iff_prefix, List.isPrefixOf_iff_prefix]

/-- What extends an extension of a text extends the text. -/
theorem Extends.trans {middle : List Char} (outer : Extends longer middle)
    (inner : Extends middle shorter) : Extends longer shorter := by
  obtain ⟨more, delimitedMore, rfl⟩ := outer
  obtain ⟨rest, delimited, rfl⟩ := inner
  exact ⟨rest ++ more, delimited.append delimitedMore, List.append_assoc _ _ _⟩

/-- Of two texts that are extended by the same text, one extends the other. -/
theorem Extends.total (byLeft : Extends text left) (byRight : Extends text right) :
    Extends left right ∨ Extends right left := by
  obtain ⟨afterLeft, delimitedLeft, rfl⟩ := byLeft
  obtain ⟨afterRight, delimitedRight, same⟩ := byRight
  rcases List.append_eq_append_iff.mp same with ⟨between, rfl, rfl⟩ | ⟨between, rfl, rfl⟩
  · exact .inr ⟨between, delimitedLeft.of_append, rfl⟩
  · exact .inl ⟨between, delimitedRight.of_append, rfl⟩

/-- What overlaps a text overlaps every text that this one extends. -/
theorem textsOverlap_of_extends {other : List Char} (inside : Extends longer shorter)
    (overlap : textsOverlap other longer = true) : textsOverlap other shorter = true := by
  rw [textsOverlap_iff] at overlap ⊢
  rcases overlap with deeper | higher
  · exact .inl (deeper.trans inside)
  · exact higher.total inside

/-- What overlaps a list of steps overlaps every list that this one begins with. -/
theorem stepsOverlap_of_prefix {above below other : List Segment} (inside : above <+: below)
    (overlap : stepsOverlap other below = true) : stepsOverlap other above = true := by
  rw [stepsOverlap_iff] at overlap ⊢
  rcases overlap with higher | deeper
  · exact List.prefix_or_prefix_of_prefix higher inside
  · exact .inr (inside.trans deeper)

/-- Steps are read after a dollar sign, once the qualifier is taken off. -/
theorem readPath_eq (text : List Char) :
    Segment.readPath text =
      match unqualified text with
      | '$' :: rest => Segment.readAfterRoot rest
      | rest => .error (.plain rest) :=
  rfl

/-- After the dollar sign and a dot, the steps of a reference are read. -/
theorem readPath_of_root {body : List Char} (root : unqualified text = '$' :: body)
    (opens : body.head? = some '.') : Segment.readPath text = Segment.readAll body := by
  obtain ⟨rest, rfl⟩ := List.head?_eq_some_iff.mp opens
  rw [readPath_eq, root]
  rfl

/-- A reference has steps if its text, without the qualifier, is a dollar sign and a field, and then
the other steps. -/
theorem readPath_eq_ok_iff {steps : List Segment} :
    Segment.readPath text = .ok steps ↔
      ∃ body, unqualified text = '$' :: body ∧ body.head? = some '.' ∧ Segment.Spelled steps body := by
  constructor
  · intro read
    rw [readPath_eq] at read
    split at read
    · rename_i body root
      unfold Segment.readAfterRoot at read
      split at read
      · exact ⟨_, root, rfl, Segment.readAll_eq_ok_iff.mp read⟩
      · cases read
    · cases read
  · rintro ⟨body, root, opens, spelled⟩
    rw [readPath_of_root root opens]
    exact Segment.readAll_eq_ok_iff.mpr spelled

/-- The steps of a reference are read off its text. -/
theorem segments_eq_ok_iff {path : Path} {steps : List Segment} :
    path.segments = .ok steps ↔ Segment.readPath path.raw.toList = .ok steps := by
  unfold segments Segment.parsePath
  cases Segment.readPath path.raw.toList <;> simp [Except.mapError]

/-- A reference has the steps that are written in it after the dollar sign. -/
theorem segments_of_spelled {path : Path} {steps : List Segment} {body : List Char}
    (root : unqualified path.raw.toList = '$' :: body) (opens : body.head? = some '.')
    (spelled : Segment.Spelled steps body) : path.segments = .ok steps :=
  segments_eq_ok_iff.mpr (readPath_eq_ok_iff.mpr ⟨body, root, opens, spelled⟩)

/-- What follows a text that begins with a dollar sign, qualified or not, follows the dollar sign. -/
theorem unqualified_append {body : List Char} (root : unqualified text = '$' :: body)
    (rest : List Char) : unqualified (text ++ rest) = unqualified text ++ rest := by
  unfold unqualified at root ⊢
  cases stripped : Text.stripFront? qualifier text with
  | none =>
    rw [stripped] at root
    cases root
    rfl
  | some inner =>
    have text := Text.stripFront?_eq_some_iff.mp stripped
    rw [text, List.append_assoc, Text.stripFront?_eq_some_iff.mpr rfl]
    rfl

/-- A location that goes on with a dot or a bracket extends the location. -/
theorem extends_append {path : Path} {suffix : String} (grammatical : path.Grammatical)
    (delimited : Segment.Delimited suffix.toList) :
    Extends (unqualified (path.raw ++ suffix).toList) (unqualified path.raw.toList) := by
  obtain ⟨steps, read⟩ := grammatical
  obtain ⟨body, root, -, -⟩ := readPath_eq_ok_iff.mp (segments_eq_ok_iff.mp read)
  refine ⟨suffix.toList, delimited, ?_⟩
  rw [String.toList_append, unqualified_append root]

/-- What goes on after a location is read as further steps. -/
theorem readPath_append {steps : List Segment} (read : Segment.readPath shorter = .ok steps)
    (delimited : Segment.Delimited rest) (goesOn : unqualified longer = unqualified shorter ++ rest) :
    Segment.readPath longer = (Segment.readAll rest).map (steps ++ ·) := by
  obtain ⟨body, root, opens, spelled⟩ := readPath_eq_ok_iff.mp read
  have rootLonger : unqualified longer = '$' :: (body ++ rest) := by rw [goesOn, root, List.cons_append]
  have opensLonger : (body ++ rest).head? = some '.' := by rw [List.head?_append, opens, Option.some_or]
  rw [readPath_of_root rootLonger opensLonger, spelled.readAll_append delimited]

/-- A location that goes on with an index that is no number has no steps. -/
theorem not_grammatical_append {path other : Path} (grammatical : path.Grammatical)
    (goesOn : unqualified other.raw.toList = unqualified path.raw.toList ++ "[x]".toList) :
    ¬other.Grammatical := by
  rintro ⟨steps, read⟩
  obtain ⟨begun, readBegun⟩ := grammatical
  have delimited : Segment.Delimited "[x]".toList := .of_head? (.inr rfl)
  have noNumber : Segment.readAll "[x]".toList = .error ⟨"x]".toList, [.arrayIndex], none⟩ :=
    Segment.readAll_bracket "x]".toList
  rw [segments_eq_ok_iff, readPath_append (segments_eq_ok_iff.mp readBegun) delimited goesOn,
    noNumber] at read
  cases read

/-- If a location extends another one, its steps are those of the other and those of what follows. -/
theorem exists_more_of_extends {above below : List Segment}
    (readAbove : Segment.readPath shorter = .ok above) (readBelow : Segment.readPath longer = .ok below)
    (inside : Extends (unqualified longer) (unqualified shorter)) :
    ∃ rest more, Segment.Spelled more rest ∧ unqualified longer = unqualified shorter ++ rest ∧
      below = above ++ more := by
  obtain ⟨rest, delimited, goesOn⟩ := inside
  rw [readPath_append readAbove delimited goesOn] at readBelow
  cases read : Segment.readAll rest with
  | error mismatch =>
    rw [read] at readBelow
    cases readBelow
  | ok more =>
    rw [read] at readBelow
    exact ⟨rest, more, Segment.readAll_eq_ok_iff.mp read, goesOn, (Except.ok.inj readBelow).symm⟩

/-- If a location extends another one, its steps begin with the steps of the other. -/
theorem prefix_of_extends {above below : List Segment} (readAbove : Segment.readPath shorter = .ok above)
    (readBelow : Segment.readPath longer = .ok below)
    (inside : Extends (unqualified longer) (unqualified shorter)) : above <+: below := by
  obtain ⟨_, more, -, -, rfl⟩ := exists_more_of_extends readAbove readBelow inside
  exact List.prefix_append above more

/-- A location that extends another one and has no further steps is written like the other. -/
theorem eq_of_extends {steps : List Segment} (readShorter : Segment.readPath shorter = .ok steps)
    (readLonger : Segment.readPath longer = .ok steps)
    (inside : Extends (unqualified longer) (unqualified shorter)) :
    unqualified longer = unqualified shorter := by
  obtain ⟨rest, more, spelled, goesOn, same⟩ :=
    exists_more_of_extends readShorter readLonger inside
  have nothing : more = [] := List.self_eq_append_right.mp same
  subst nothing
  cases spelled
  rw [goesOn, List.append_nil]

/-- References with steps are compared by their steps. -/
theorem overlaps_of_segments {left right : Path} {leftSteps rightSteps : List Segment}
    (readLeft : left.segments = .ok leftSteps) (readRight : right.segments = .ok rightSteps) :
    left.overlaps right = stepsOverlap leftSteps rightSteps := by
  rw [overlaps, readLeft, readRight]

/-- A reference without steps is compared by its text. -/
theorem overlaps_of_not_grammatical {left right : Path} (unread : ¬left.Grammatical) :
    left.overlaps right =
      textsOverlap (unqualified left.raw.toList) (unqualified right.raw.toList) := by
  rw [overlaps]
  split
  · rename_i readLeft _
    exact absurd ⟨_, readLeft⟩ unread
  · rfl

/-- Whatever overlaps a location overlaps every location that this one extends. -/
theorem overlaps_of_extends {above below other : Path} (grammaticalAbove : above.Grammatical)
    (grammaticalBelow : below.Grammatical)
    (inside : Extends (unqualified below.raw.toList) (unqualified above.raw.toList))
    (overlap : other.overlaps below = true) : other.overlaps above = true := by
  by_cases grammatical : other.Grammatical
  · obtain ⟨steps, read⟩ := grammatical
    obtain ⟨aboveSteps, readAbove⟩ := grammaticalAbove
    obtain ⟨belowSteps, readBelow⟩ := grammaticalBelow
    have begins : aboveSteps <+: belowSteps :=
      prefix_of_extends (segments_eq_ok_iff.mp readAbove) (segments_eq_ok_iff.mp readBelow) inside
    rw [overlaps_of_segments read readBelow] at overlap
    rw [overlaps_of_segments read readAbove]
    exact stepsOverlap_of_prefix begins overlap
  · rw [overlaps_of_not_grammatical grammatical] at overlap ⊢
    exact textsOverlap_of_extends inside overlap

end GameRules.Path
