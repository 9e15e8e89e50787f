import GameRules.Proofs.Entries
import GameRules.Proofs.Json.Reread
import GameRules.Proofs.Json.Text
import GameRules.Proofs.Json.Writer

/-!
# Documents are read back

The compact text of a document is read back, if the document is nested no deeper than the reader goes,
its entries are in order and its whole numbers have 64 bits. It is read back as that document but for
the fractional numbers, each of which becomes what its own text is read as. That need not be the same
number, since the reader rounds twice; so it is stated of each number in a document.
-/

namespace GameRules.Json

/-- What a document begins with: a character that is no space and closes nothing. -/
def Opens (first : Char) : Prop := isSpace first = false ∧ first ≠ ']' ∧ first ≠ '\x7d'

instance (first : Char) : Decidable (Opens first) := inferInstanceAs (Decidable (_ ∧ _))

/-- A sign or digit is none of the other characters. -/
theorem ne_of_number {first : Char} (number : first = '-' ∨ first.isDigit = true) (other : Char)
    (noNumber : other ≠ '-' ∧ other.isDigit = false) : first ≠ other := by
  rintro rfl
  rcases number with minus | isDigit
  · exact noNumber.1 minus
  · exact Bool.false_ne_true (noNumber.2.symm.trans isDigit)

/-- A digit is no space. -/
theorem isSpace_of_isDigit {char : Char} (digit : char.isDigit = true) : isSpace char = false := by
  have other (space : Char) (noDigit : space.isDigit = false) : char ≠ space := by
    rintro rfl
    exact Bool.false_ne_true (noDigit.symm.trans digit)
  simp [isSpace, other ' ' rfl, other '\n' rfl, other '\r' rfl, other '\t' rfl]

/-- A number begins with a character that is no space and closes nothing. -/
theorem opens_of_number {first : Char} (number : first = '-' ∨ first.isDigit = true) :
    Opens first := by
  refine ⟨?_, ne_of_number number ']' (by decide), ne_of_number number '\x7d' (by decide)⟩
  rcases number with rfl | digit
  · rfl
  · exact isSpace_of_isDigit digit

/-- The text of a number begins like one. -/
theorem opens_of_number? {text : List Char} {number : Json}
    (read : number? text = some (number, [])) :
    ∃ first others, text = first :: others ∧ Opens first := by
  obtain ⟨first, others, written, begins⟩ := head_of_number? read
  exact ⟨first, others, written, opens_of_number begins⟩

/-- A document begins with a character that is no space and closes nothing. -/
theorem render_opens {document : Json} (proper : document.Proper) :
    ∃ first others, document.render.toList = first :: others ∧ Opens first := by
  cases document with
  | null => exact ⟨'n', _, rfl, by decide⟩
  | bool value =>
    cases value
    · exact ⟨'f', _, rfl, by decide⟩
    · exact ⟨'t', _, rfl, by decide⟩
  | int value => exact opens_of_number? (number?_int proper)
  | float value => exact opens_of_number? (number?_float value)
  | string value => exact ⟨'"', _, quote_toList value, by decide⟩
  | array items => exact ⟨'[', _, render_array items, by decide⟩
  | object entries => exact ⟨'\x7b', _, render_object entries, by decide⟩

/-- Nothing is skipped before a document. -/
theorem skipSpace_of_opens {first : Char} {others : List Char} (opens : Opens first) :
    skipSpace (first :: others) = first :: others := by
  rw [skipSpace, List.dropWhile_cons, opens.1]
  rfl

/-- Nothing is skipped before a rendered document. -/
theorem skipSpace_render {document : Json} (proper : document.Proper) (rest : List Char) :
    skipSpace (document.render.toList ++ rest) = document.render.toList ++ rest := by
  obtain ⟨first, others, written, opens⟩ := render_opens proper
  rw [written, List.cons_append, skipSpace_of_opens opens]

/-- What begins neither like an array nor like an object is read as a scalar at every depth. -/
theorem nested_of_scalar {first : Char} {others : List Char} (depth : Nat) (noArray : first ≠ '[')
    (noObject : first ≠ '\x7b') :
    (nested depth).1 (first :: others) = scalar? (first :: others) := by
  cases depth with
  | zero => rfl
  | succ depth =>
    show compound _ _ (first :: others) = _
    unfold compound
    split
    · rename_i same
      cases same
      exact absurd rfl noArray
    · rename_i same
      cases same
      exact absurd rfl noObject
    · rfl

/-- A number is read as a scalar. -/
theorem nested_of_number? {text left : List Char} {number : Json} (depth : Nat)
    (read : number? text = some (number, left)) : (nested depth).1 text = some (number, left) := by
  obtain ⟨first, others, rfl, begins⟩ := head_of_number? read
  rw [nested_of_scalar depth (ne_of_number begins '[' (by decide))
    (ne_of_number begins '\x7b' (by decide))]
  have elsewhere (letter : Char) := ne_of_number begins letter
  unfold scalar?
  split
  · rename_i same
    cases same
    exact absurd rfl (elsewhere 'n' (by decide))
  · rename_i same
    cases same
    exact absurd rfl (elsewhere 't' (by decide))
  · rename_i same
    cases same
    exact absurd rfl (elsewhere 'f' (by decide))
  · rename_i same
    cases same
    exact absurd rfl (elsewhere '"' (by decide))
  · exact read

/-- A string is read as a scalar. -/
theorem nested_quote (text : String) (depth : Nat) (rest : List Char) :
    (nested depth).1 ((quote text).toList ++ rest) = some (.string text, rest) := by
  have read := string?_quote text rest
  rw [quote_toList, List.cons_append] at read ⊢
  rw [nested_of_scalar depth (by decide) (by decide)]
  exact congrArg (Option.map _) read

section Lists

variable {inner : Reader Json} {consumes : inner.Consumes} {text left : List Char}

/-- An item with a comma after it is read, and then the others. -/
theorem items_of_comma {item : Json}
    (read : inner (skipSpace text) = some (item, ',' :: left)) :
    items inner consumes text =
      (items inner consumes left).map fun (others, rest) => (item :: others, rest) := by
  rw [items]
  split <;> rename_i step <;> rw [read] at step <;> cases step
  rfl

/-- An item with a bracket after it is the last one. -/
theorem items_of_bracket {item : Json}
    (read : inner (skipSpace text) = some (item, ']' :: left)) :
    items inner consumes text = some ([item], left) := by
  rw [items]
  split <;> rename_i step <;> rw [read] at step <;> cases step
  rfl

/-- An entry with a comma after it is inserted, and then the others. -/
theorem entries_of_comma {sofar : Entries Json} {key : String} {value : Json}
    (read : entry inner text = some ((key, value), ',' :: left)) :
    entries inner consumes sofar text = entries inner consumes (sofar.insert key value) left := by
  rw [entries]
  split <;> rename_i step <;> rw [read] at step <;> cases step
  rfl

/-- An entry with a brace after it is the last one. -/
theorem entries_of_brace {sofar : Entries Json} {key : String} {value : Json}
    (read : entry inner text = some ((key, value), '\x7d' :: left)) :
    entries inner consumes sofar text = some (sofar.insert key value, left) := by
  rw [entries]
  split <;> rename_i step <;> rw [read] at step <;> cases step
  rfl

/-- A rendered entry is read back if its value is. -/
theorem entry_render (key : String) {value again : Json} (proper : value.Proper)
    (read : inner (value.render.toList ++ left) = some (again, left)) :
    entry inner (renderEntry key value ++ left) = some ((key, again), left) := by
  have begins : skipSpace (renderEntry key value ++ left) =
      (quote key).toList ++ ':' :: (value.render.toList ++ left) := by
    rw [renderEntry, List.append_assoc, List.cons_append, quote_toList, List.cons_append]
    exact skipSpace_of_opens (by decide)
  have colon : skipSpace (':' :: (value.render.toList ++ left)) =
      ':' :: (value.render.toList ++ left) := rfl
  simp only [entry, begins, string?_quote, Option.bind_eq_bind, Option.bind_some, colon,
    skipSpace_render proper, read, Option.pure_def]

/-- An array that is not closed at once is read item by item. -/
theorem compound_of_items {values : List Json}
    (opens : ∃ first others, text = first :: others ∧ Opens first)
    (read : items inner consumes text = some (values, left)) :
    compound inner consumes ('[' :: text) = some (.array values, left) := by
  obtain ⟨first, others, rfl, opens⟩ := opens
  rw [compound, skipSpace_of_opens opens]
  split
  · rename_i closed
    cases closed
    exact absurd rfl opens.2.1
  · rw [read]
    rfl

/-- An object that is not closed at once is read entry by entry. -/
theorem compound_of_entries {values : Entries Json}
    (opens : ∃ first others, text = first :: others ∧ Opens first)
    (read : entries inner consumes [] text = some (values, left)) :
    compound inner consumes ('\x7b' :: text) = some (.object values, left) := by
  obtain ⟨first, others, rfl, opens⟩ := opens
  rw [compound, skipSpace_of_opens opens]
  split
  · rename_i closed
    cases closed
    exact absurd rfl opens.2.2
  · rw [read]
    rfl

end Lists

/-- A comma is a mark. -/
theorem Delimited.comma (rest : List Char) : Delimited (',' :: rest) := .inl rfl

/-- A bracket is a mark. -/
theorem Delimited.bracket (rest : List Char) : Delimited (']' :: rest) := .inr (.inl rfl)

/-- A brace is a mark. -/
theorem Delimited.brace (rest : List Char) : Delimited ('\x7d' :: rest) := .inr (.inr rfl)

/-- The items of an array, if there are some, do not begin with its closing bracket. -/
theorem renderItems_opens {values : List Json} (filled : values ≠ [])
    (proper : ∀ part ∈ subdocumentsOfItems values, part.Proper) (rest : List Char) :
    ∃ first others, (",".intercalate (renderItems values)).toList ++ rest = first :: others ∧
      Opens first := by
  cases values with
  | nil => exact absurd rfl filled
  | cons item items =>
    have properItem := (List.forall_mem_append.mp proper).1 item item.self_mem_subdocuments
    obtain ⟨first, others, written, opens⟩ := render_opens properItem
    cases items with
    | nil =>
      rw [renderItems, renderItems, String.intercalate_singleton, written]
      exact ⟨first, _, rfl, opens⟩
    | cons next items =>
      rw [renderItems_cons_cons, written]
      exact ⟨first, _, rfl, opens⟩

/-- The entries of an object, if there are some, begin with a quote. -/
theorem renderEntries_opens {values : List (String × Json)} (filled : values ≠ [])
    (rest : List Char) :
    ∃ first others, (",".intercalate (renderEntries values)).toList ++ rest = first :: others ∧
      Opens first := by
  cases values with
  | nil => exact absurd rfl filled
  | cons entry entries =>
    obtain ⟨key, value⟩ := entry
    cases entries with
    | nil =>
      rw [renderEntries_singleton, renderEntry, quote_toList]
      exact ⟨'"', _, rfl, by decide⟩
    | cons next entries =>
      rw [renderEntries_cons_cons, renderEntry, quote_toList]
      exact ⟨'"', _, rfl, by decide⟩

mutual

/-- A rendered document is read back, whatever delimited text comes after it. -/
theorem nested_render : ∀ (document : Json) (depth : Nat) (rest : List Char),
    document.nesting ≤ depth → (∀ part ∈ document.subdocuments, part.Proper) → Delimited rest →
      (nested depth).1 (document.render.toList ++ rest) = some (document.reread, rest)
  | .null, depth, rest, _, _, _ => nested_of_scalar depth (by decide) (by decide)
  | .bool value, depth, rest, _, _, _ => by
    cases value
    · exact nested_of_scalar depth (by decide) (by decide)
    · exact nested_of_scalar depth (by decide) (by decide)
  | .int value, depth, rest, _, proper, delimited => by
    have read := number?_int (proper _ (List.mem_singleton_self _))
    exact nested_of_number? depth (number?_append read delimited)
  | .float value, depth, rest, _, _, delimited =>
    nested_of_number? depth (number?_append (number?_float value) delimited)
  | .string value, depth, rest, _, _, _ => nested_quote value depth rest
  | .array items, depth, rest, shallow, proper, _ => by
    obtain ⟨-, inside⟩ := List.forall_mem_cons.mp proper
    rw [nesting] at shallow
    obtain ⟨depth, rfl⟩ := Nat.exists_eq_add_one_of_ne_zero (by omega : depth ≠ 0)
    rw [render_array, List.cons_append, List.append_assoc]
    by_cases filled : items = []
    · rw [filled]
      rfl
    · exact compound_of_items (renderItems_opens filled inside _)
        (items_render items depth rest filled (by omega) inside)
  | .object entries, depth, rest, shallow, proper, _ => by
    obtain ⟨ordered, inside⟩ := List.forall_mem_cons.mp proper
    rw [nesting] at shallow
    obtain ⟨depth, rfl⟩ := Nat.exists_eq_add_one_of_ne_zero (by omega : depth ≠ 0)
    rw [render_object, List.cons_append, List.append_assoc]
    by_cases filled : entries = []
    · rw [filled]
      rfl
    · exact compound_of_entries (renderEntries_opens filled _)
        (entries_render entries [] depth rest filled (by omega) inside
          (ordered_rereadEntries ordered))

/-- The rendered items of an array are read back up to the closing bracket. -/
theorem items_render : ∀ (values : List Json) (depth : Nat) (rest : List Char), values ≠ [] →
    nestingOfItems values ≤ depth → (∀ part ∈ subdocumentsOfItems values, part.Proper) →
      items (nested depth).1 (nested depth).2
        ((",".intercalate (renderItems values)).toList ++ ']' :: rest) =
          some (rereadItems values, rest)
  | [], _, _, filled, _, _ => absurd rfl filled
  | [item], depth, rest, _, shallow, proper => by
    obtain ⟨proper, -⟩ := List.forall_mem_append.mp proper
    rw [nestingOfItems, nestingOfItems, Nat.max_zero] at shallow
    have read := nested_render item depth (']' :: rest) shallow proper (.bracket rest)
    rw [renderItems, renderItems, String.intercalate_singleton]
    refine items_of_bracket ?_
    rw [skipSpace_render (proper item item.self_mem_subdocuments), read]
  | item :: next :: others, depth, rest, _, shallow, proper => by
    obtain ⟨proper, properOthers⟩ := List.forall_mem_append.mp proper
    rw [nestingOfItems] at shallow
    have readOthers := items_render (next :: others) depth rest nofun (by omega) properOthers
    rw [renderItems_cons_cons, List.append_assoc, List.cons_append, items_of_comma, readOthers]
    · rfl
    · rw [skipSpace_render (proper item item.self_mem_subdocuments)]
      exact nested_render item depth _ (by omega) proper (.comma _)

/-- The rendered entries of an object are read back up to the closing brace, after those that were
read before. -/
theorem entries_render : ∀ (values : List (String × Json)) (sofar : Entries Json) (depth : Nat)
    (rest : List Char), values ≠ [] → nestingOfEntries values ≤ depth →
      (∀ part ∈ subdocumentsOfEntries values, part.Proper) →
        Entries.Ordered (sofar ++ rereadEntries values) →
          entries (nested depth).1 (nested depth).2 sofar
            ((",".intercalate (renderEntries values)).toList ++ '\x7d' :: rest) =
              some (sofar ++ rereadEntries values, rest)
  | [], _, _, _, filled, _, _, _ => absurd rfl filled
  | [(key, value)], sofar, depth, rest, _, shallow, proper, ordered => by
    obtain ⟨proper, -⟩ := List.forall_mem_append.mp proper
    rw [nestingOfEntries, nestingOfEntries, Nat.max_zero] at shallow
    have read := nested_render value depth ('\x7d' :: rest) shallow proper (.brace rest)
    have readEntry := entry_render key (proper value value.self_mem_subdocuments) read
    rw [renderEntries_singleton, entries_of_brace readEntry, Entries.insert_of_ordered ordered]
    rfl
  | (key, value) :: next :: others, sofar, depth, rest, _, shallow, proper, ordered => by
    obtain ⟨proper, properOthers⟩ := List.forall_mem_append.mp proper
    rw [nestingOfEntries] at shallow
    have inserted := Entries.insert_of_ordered ordered
    rw [rereadEntries] at ordered ⊢
    have split := List.append_cons sofar (key, value.reread) (rereadEntries (next :: others))
    rw [split] at ordered ⊢
    have readOthers := entries_render (next :: others) (sofar ++ [(key, value.reread)]) depth rest
      nofun (by omega) properOthers ordered
    have read := nested_render value depth
      (',' :: ((",".intercalate (renderEntries (next :: others))).toList ++ '\x7d' :: rest))
      (by omega) proper (.comma _)
    have readEntry := entry_render key (proper value value.self_mem_subdocuments) read
    rw [renderEntries_cons_cons, List.append_assoc, List.cons_append, entries_of_comma readEntry,
      inserted, readOthers]

end

/-- The text of a sound document is read back. -/
theorem readNested?_render_of_sound {document : Json} {depth : Nat} (sound : document.Sound depth) :
    readNested? depth document.render = some document.reread := by
  have start := skipSpace_render (sound.proper document document.self_mem_subdocuments) []
  have read := nested_render document depth [] sound.shallow sound.proper trivial
  rw [List.append_nil] at start read
  have front : readFront? depth document.render.toList = some (document.reread, []) := by
    rw [readFront?, start, read]
  rw [readNested?, front]
  rfl

/-- A document is read back as itself if every fractional number inside it is. -/
theorem reread_of_fractions {document : Json}
    (readBack : ∀ number ∈ document.fractions, read? (float number).render = some (float number)) :
    document.reread = document := by
  refine reread_eq_self document fun number inside => ?_
  have listed : number ∈ document.fractions := List.mem_filterMap.mpr ⟨_, inside, rfl⟩
  have alone := readNested?_render_of_sound (sound_float number nestingLimit)
  exact Json.float.inj (Option.some.inj (alone.symm.trans (readBack number listed)))

/-- The text of a sound document is read back as that document if every fractional number inside it is
read back. -/
theorem read?_render {document : Json} (sound : document.Sound nestingLimit)
    (readBack : ∀ number ∈ document.fractions, read? (float number).render = some (float number)) :
    read? document.render = some document := by
  rw [read?, readNested?_render_of_sound sound, reread_of_fractions readBack]

end GameRules.Json
