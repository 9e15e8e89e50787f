import GameRules.Proofs.Json.Fraction

/-!
# What a document is read back as

Writing a document and reading it again keeps everything but its fractional numbers, which become the
numbers that their texts are read as. So the nesting and the keys are kept, and the whole document is if
every fractional number inside it is read back as itself.
-/

namespace GameRules.Json

/-- The fractional number that the text of one is read as. -/
def rereadFraction (value : Binary64) : Binary64 :=
  match number? (float value).render.toList with
  | some (float again, _) => again
  | _ => value

mutual

/-- The document with each fractional number replaced by what its text is read as. -/
def reread : Json → Json
  | null => null
  | bool value => bool value
  | int value => int value
  | float value => float (rereadFraction value)
  | string value => string value
  | array items => array (rereadItems items)
  | object entries => object (rereadEntries entries)

/-- The items with each fractional number inside them replaced. -/
def rereadItems : List Json → List Json
  | [] => []
  | item :: items => item.reread :: rereadItems items

/-- The entries with each fractional number inside their values replaced. -/
def rereadEntries : List (String × Json) → List (String × Json)
  | [] => []
  | (key, value) :: entries => (key, value.reread) :: rereadEntries entries

end

/-- Reading the text of a fractional number takes all of it. -/
theorem number?_float (value : Binary64) :
    number? (float value).render.toList = some (float (rereadFraction value), []) := by
  obtain ⟨again, read⟩ := exists_number?_float value
  rw [rereadFraction, read]

/-- The values of entries are read back one by one. -/
theorem rereadEntries_eq_mapValues (entries : Entries Json) :
    rereadEntries entries = entries.mapValues reread := by
  induction entries with
  | nil => rfl
  | cons entry entries ih =>
    rw [rereadEntries, ih]
    rfl

/-- Entries stay in the order of their keys. -/
theorem ordered_rereadEntries {entries : Entries Json} (ordered : entries.Ordered) :
    Entries.Ordered (rereadEntries entries) := by
  rw [rereadEntries_eq_mapValues]
  exact List.pairwise_map.mpr ordered

mutual

/-- A document is nested as deep as what it is read back as. -/
theorem nesting_reread : ∀ document : Json, document.reread.nesting = document.nesting
  | null | bool _ | int _ | float _ | string _ => rfl
  | array items => by rw [reread, nesting, nesting, nestingOfItems_reread items]
  | object entries => by rw [reread, nesting, nesting, nestingOfEntries_reread entries]

/-- Items are nested as deep as what they are read back as. -/
theorem nestingOfItems_reread : ∀ items : List Json,
    nestingOfItems (rereadItems items) = nestingOfItems items
  | [] => rfl
  | item :: items => by
    rw [rereadItems, nestingOfItems, nestingOfItems, nesting_reread item,
      nestingOfItems_reread items]

/-- Entries are nested as deep as what they are read back as. -/
theorem nestingOfEntries_reread : ∀ entries : List (String × Json),
    nestingOfEntries (rereadEntries entries) = nestingOfEntries entries
  | [] => rfl
  | (_, value) :: entries => by
    rw [rereadEntries, nestingOfEntries, nestingOfEntries, nesting_reread value,
      nestingOfEntries_reread entries]

end

mutual

/-- A document whose fractional numbers are read back as themselves is read back as itself. -/
theorem reread_eq_self : ∀ document : Json,
    (∀ number, float number ∈ document.subdocuments → rereadFraction number = number) →
      document.reread = document
  | null, _ | bool _, _ | int _, _ | string _, _ => rfl
  | float value, kept => by rw [reread, kept value (List.mem_singleton_self _)]
  | array items, kept => by
    rw [reread, rereadItems_eq_self items fun number inside => kept number (.tail _ inside)]
  | object entries, kept => by
    rw [reread, rereadEntries_eq_self entries fun number inside => kept number (.tail _ inside)]

/-- Items whose fractional numbers are read back as themselves are read back as themselves. -/
theorem rereadItems_eq_self : ∀ items : List Json,
    (∀ number, float number ∈ subdocumentsOfItems items → rereadFraction number = number) →
      rereadItems items = items
  | [], _ => rfl
  | item :: items, kept => by
    rw [rereadItems,
      reread_eq_self item fun number inside => kept number (List.mem_append_left _ inside),
      rereadItems_eq_self items fun number inside => kept number (List.mem_append_right _ inside)]

/-- Entries whose fractional numbers are read back as themselves are read back as themselves. -/
theorem rereadEntries_eq_self : ∀ entries : List (String × Json),
    (∀ number, float number ∈ subdocumentsOfEntries entries → rereadFraction number = number) →
      rereadEntries entries = entries
  | [], _ => rfl
  | (key, value) :: entries, kept => by
    rw [rereadEntries,
      reread_eq_self value fun number inside => kept number (List.mem_append_left _ inside),
      rereadEntries_eq_self entries fun number inside => kept number (List.mem_append_right _ inside)]

end

end GameRules.Json
