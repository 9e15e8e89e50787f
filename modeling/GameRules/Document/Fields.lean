import GameRules.Document.Error
import GameRules.Keyword

/-!
# Reading object documents

The fields of an object, as decoders look at them. A field whose value is null counts as absent. What
a decoder does with a part of the document is a function of the part and of the fact that it is
smaller than the whole, so decoders that call one another on parts come to an end.
-/

namespace GameRules

/-- An entry of an object is smaller than the object. -/
theorem Json.sizeOf_lt_object {entries : List (String × Json)} {key : String} {value : Json}
    (member : (key, value) ∈ entries) : sizeOf value < sizeOf (Json.object entries) := by
  have inList := List.sizeOf_lt_of_mem member
  simp only [Prod.mk.sizeOf_spec, Json.object.sizeOf_spec] at inList ⊢
  omega

/-- An item of an array is smaller than the array. -/
theorem Json.sizeOf_lt_array {items : List Json} {item : Json} (member : item ∈ items) :
    sizeOf item < sizeOf (Json.array items) := by
  have inList := List.sizeOf_lt_of_mem member
  simp only [Json.array.sizeOf_spec]
  omega

/-- A value that is looked up is the value of an entry. -/
theorem Entries.mem_of_lookup {α : Type} {entries : Entries α} {key : String} {value : α}
    (found : entries.lookup key = some value) : (key, value) ∈ entries := by
  obtain ⟨before, after, split, _⟩ := List.lookup_eq_some_iff.mp found
  rw [split]
  exact List.mem_append_right before List.mem_cons_self

/-- Decodes what is smaller than a document. -/
abbrev PartDecoder (whole : Json) (α : Type) :=
  (part : Json) → sizeOf part < sizeOf whole → Decoded α

/-- Decodes the items of a list, which are counted from `start`. -/
def decodeItems {α : Type} (label : String) (start : Nat) :
    (items : List Json) → ((item : Json) → item ∈ items → Decoded α) → Decoded (List α)
  | [], _ => .ok []
  | item :: items, decode => do
    let first ← Decoded.inside (.item label start) (decode item List.mem_cons_self)
    let others ← decodeItems label (start + 1) items fun item member =>
      decode item (List.mem_cons_of_mem _ member)
    return first :: others

/-- Decodes the entries of a mapping in their order. -/
def decodeEntries {α : Type} (position : String → Position) :
    (entries : List (String × Json)) →
      ((name : String) → (value : Json) → (name, value) ∈ entries → Decoded α) →
      Decoded (Entries α)
  | [], _ => .ok []
  | (name, value) :: entries, decode => do
    let first ← Decoded.inside (position name) (decode name value List.mem_cons_self)
    let others ← decodeEntries position entries fun name value member =>
      decode name value (List.mem_cons_of_mem _ member)
    return (name, first) :: others

/-- The fields of an object document. -/
structure Fields (whole : Json) where
  /-- What the object describes. -/
  node : NodeKind
  /-- Which kind of it, if that is known; it is named when a field is missing. -/
  kind : String
  /-- The entries of the object. -/
  entries : Entries Json
  /-- The entries are those of the document. -/
  smaller : ∀ key value, (key, value) ∈ entries → sizeOf value < sizeOf whole

namespace Fields

variable {whole : Json} {α : Type}

/-- The fields of a document, which has to be an object. -/
def of (node : NodeKind) (document : Json) : Decoded (Fields document) :=
  match document with
  | .object entries => .ok ⟨node, "", entries, fun _ _ member => Json.sizeOf_lt_object member⟩
  | other => Decoded.fail (.malformed node (.notAnObject other.kindName))

/-- The same fields, now that the kind is known. -/
def forKind (fields : Fields whole) (kind : String) : Fields whole := { fields with kind := kind }

/-- The value of a field that is given. -/
def value? (fields : Fields whole) (key : String) : Option Json :=
  (fields.entries.lookup key).filter fun value => !value.isNull

/-- Whether a field is given. -/
def has (fields : Fields whole) (key : String) : Bool := (fields.value? key).isSome

/-- Whether a key is written, be it with null. -/
def mentions (fields : Fields whole) (key : String) : Bool := (fields.entries.lookup key).isSome

/-- A value that is given is smaller than the document. -/
theorem sizeOf_value? {fields : Fields whole} {key : String} {value : Json}
    (given : fields.value? key = some value) : sizeOf value < sizeOf whole := by
  obtain ⟨found, _⟩ := Option.filter_eq_some_iff.mp given
  exact fields.smaller key value (Entries.mem_of_lookup found)

/-- An item of a list that is given is smaller than the document. -/
theorem sizeOf_item {fields : Fields whole} {key : String} {items : List Json} {item : Json}
    (given : fields.value? key = some (.array items)) (member : item ∈ items) :
    sizeOf item < sizeOf whole :=
  Nat.lt_trans (Json.sizeOf_lt_array member) (sizeOf_value? given)

/-- The error of a field that is not given. -/
def missing (fields : Fields whole) (key : String) : DecodeFault :=
  .missingField fields.node fields.kind key

/-- The error of a field whose value has the wrong type. -/
def wrongType (fields : Fields whole) (key expected : String) (found : Json) : DecodeFault :=
  .malformed fields.node (.wrongType key expected found.kindName)

/-- The value of a field that has to be given. -/
def required (fields : Fields whole) (key : String) : Decoded Json :=
  match fields.value? key with
  | some value => .ok value
  | none => Decoded.fail (fields.missing key)

/-- A text, if the field is given. -/
def string? (fields : Fields whole) (key : String) : Decoded (Option String) :=
  match fields.value? key with
  | none => .ok none
  | some (.string text) => .ok (some text)
  | some other => Decoded.fail (fields.wrongType key "a string" other)

/-- A text that is not empty; an empty one counts as absent. -/
def nonemptyString? (fields : Fields whole) (key : String) : Decoded (Option String) :=
  (fields.string? key).map fun text => text.filter fun text => !text.isEmpty

/-- A text that has to be given and not empty. -/
def requiredString (fields : Fields whole) (key : String) : Decoded String := do
  match ← fields.nonemptyString? key with
  | some text => return text
  | none => Decoded.fail (fields.missing key)

/-- The word that names the kind, if one is given. -/
def kindWord? (fields : Fields whole) : Decoded (Option String) := fields.nonemptyString? "type"

/-- The word that names the kind, and has to be given. -/
def kindWord (fields : Fields whole) : Decoded String := do
  match ← fields.kindWord? with
  | some word => return word
  | none => Decoded.fail (.missingType fields.node)

/-- The kind that a word names. -/
def kindOf [Keyword α] (fields : Fields whole) (word : String) : Decoded α :=
  match Keyword.parse? word with
  | some kind => .ok kind
  | none => Decoded.fail (.unknownKind fields.node word)

/-- A truth value, if the field is given. -/
def bool? (fields : Fields whole) (key : String) : Decoded (Option Bool) :=
  match fields.value? key with
  | none => .ok none
  | some (.bool value) => .ok (some value)
  | some other => Decoded.fail (fields.wrongType key "a boolean" other)

/-- A whole number of 64 bits with sign, if the field is given. -/
def int64? (fields : Fields whole) (key : String) : Decoded (Option Int) :=
  match fields.value? key with
  | none => .ok none
  | some (.int value) =>
    if -(2 ^ 63) ≤ value ∧ value < 2 ^ 63 then .ok (some value)
    else Decoded.fail (fields.wrongType key "an integer" (.int value))
  | some other => Decoded.fail (fields.wrongType key "an integer" other)

/-- A whole number of 32 bits with sign, if the field is given. -/
def int32? (fields : Fields whole) (key : String) : Decoded (Option Int) := do
  match ← fields.int64? key with
  | none => return none
  | some value =>
    if -(2 ^ 31) ≤ value ∧ value < 2 ^ 31 then return some value
    else Decoded.fail (.invalidValue key (.outOfRange value))

/-- A whole number of 32 bits without sign, if the field is given. -/
def nat32? (fields : Fields whole) (key : String) : Decoded (Option Nat) :=
  match fields.value? key with
  | none => .ok none
  | some (.int value) =>
    if value < 0 ∨ 2 ^ 64 ≤ value then
      Decoded.fail (fields.wrongType key "a non-negative integer" (.int value))
    else if value < 2 ^ 32 then .ok (some value.toNat)
    else Decoded.fail (.invalidValue key (.outOfRange value))
  | some other => Decoded.fail (fields.wrongType key "a non-negative integer" other)

/-- A number of either kind as a fractional one, if the field is given. -/
def number? (fields : Fields whole) (key : String) : Decoded (Option Binary64) :=
  match fields.value? key with
  | none => .ok none
  | some (.float value) => .ok (some value)
  | some (.int value) =>
    match Binary64.ofInt? value with
    | some value => .ok (some value)
    | none => Decoded.fail (fields.wrongType key "a number" (.int value))
  | some other => Decoded.fail (fields.wrongType key "a number" other)

/-- The texts of a list, each of which has to be a string. -/
def stringItems (fields : Fields whole) (key : String) : List Json → Decoded (List String)
  | [] => .ok []
  | .string text :: items => (text :: ·) <$> stringItems fields key items
  | other :: _ => Decoded.fail (fields.wrongType key "a list of strings" other)

/-- A list of texts; a single text is a list of one, and an absent field the empty list. -/
def strings (fields : Fields whole) (key : String) : Decoded (List String) :=
  match fields.value? key with
  | none => .ok []
  | some (.string text) => .ok [text]
  | some (.array items) => fields.stringItems key items
  | some other => Decoded.fail (fields.wrongType key "a list of strings" other)

/-- The value that a word of a vocabulary stands for. -/
def keywordOf [Keyword α] (key word : String) : Decoded α :=
  match Keyword.parse? word with
  | some value => .ok value
  | none => Decoded.fail (.invalidValue key (.unknownKeyword word))

/-- A word of a vocabulary, if the field is given. -/
def keyword? [Keyword α] (fields : Fields whole) (key : String) : Decoded (Option α) := do
  match ← fields.string? key with
  | none => return none
  | some word => some <$> keywordOf key word

/-- A reference, if the field is given and not empty. -/
def path? (fields : Fields whole) (key : String) : Decoded (Option Path) :=
  (fields.nonemptyString? key).map fun text => text.map Path.mk

/-- A reference that has to be given and not empty. -/
def requiredPath (fields : Fields whole) (key : String) : Decoded Path :=
  (fields.requiredString key).map Path.mk

/-- A node, if the field is given. -/
def node? (fields : Fields whole) (key : String) (decode : PartDecoder whole α) :
    Decoded (Option α) :=
  match given : fields.value? key with
  | none => .ok none
  | some value =>
    some <$> Decoded.inside (.field key) (decode value (sizeOf_value? given))

/-- A node that has to be given. -/
def requiredNode (fields : Fields whole) (key : String) (decode : PartDecoder whole α) :
    Decoded α :=
  match given : fields.value? key with
  | none => Decoded.fail (fields.missing key)
  | some value => Decoded.inside (.field key) (decode value (sizeOf_value? given))

/-- A list of nodes; an absent field is the empty list. -/
def list (fields : Fields whole) (key label : String) (decode : PartDecoder whole α) :
    Decoded (List α) :=
  match given : fields.value? key with
  | none => .ok []
  | some (.array items) =>
    decodeItems label 0 items fun item member =>
      decode item (sizeOf_item given member)
  | some other => Decoded.fail (fields.wrongType key "a list" other)

/-- A mapping to nodes; an absent field is the empty mapping. -/
def mapping (fields : Fields whole) (key : String) (decode : PartDecoder whole α) :
    Decoded (Entries α) :=
  match given : fields.value? key with
  | none => .ok []
  | some (.object entries) =>
    decodeEntries (.entry key) entries fun _ value member =>
      decode value (Nat.lt_trans (Json.sizeOf_lt_object member) (sizeOf_value? given))
  | some other => Decoded.fail (fields.wrongType key "a mapping" other)

end Fields

end GameRules
