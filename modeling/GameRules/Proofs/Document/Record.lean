import GameRules.Document.Record
import GameRules.Proofs.Document.Fields
import GameRules.Proofs.Entries

/-!
# Looking up what was written

An object that was built field by field holds under each key the value that was written there last.
Each way of adding a field has one law that says what is found afterwards, so no proof about a
document looks at the order of its entries.
-/

namespace GameRules

namespace Record

variable (record : Record) (key other : String)

/-- Nothing is found in an object without fields. -/
@[simp] theorem lookup_empty : empty.lookup other = none := rfl

/-- A field that was added is found under its key. -/
@[simp] theorem lookup_field (value : Json) :
    (record.field key value).lookup other =
      if other = key then some value else record.lookup other :=
  Entries.lookup_insert key other value record

/-- A text that was added is found as a string. -/
@[simp] theorem lookup_text (value : String) :
    (record.text key value).lookup other =
      if other = key then some (.string value) else record.lookup other :=
  lookup_field record key other (.string value)

/-- A keyword that was added is found as its word. -/
@[simp] theorem lookup_keyword {α : Type} [Keyword α] (value : α) :
    (record.keyword key value).lookup other =
      if other = key then some (.string (Keyword.word value)) else record.lookup other :=
  lookup_text record key other (Keyword.word value)

/-- A field is found if there was a value for it. -/
@[simp] theorem lookup_optional (value : Option Json) :
    (record.optional key value).lookup other =
      if other = key then value.or (record.lookup other) else record.lookup other := by
  cases value with
  | none => simp [optional]
  | some value => simp [optional]

/-- A keyword is found if there was one. -/
@[simp] theorem lookup_optionalKeyword {α : Type} [Keyword α] (value : Option α) :
    (record.optionalKeyword key value).lookup other =
      if other = key then
        (value.map fun value => Json.string (Keyword.word value)).or (record.lookup other)
      else record.lookup other :=
  lookup_optional record key other _

/-- A list that was added is found as an array. -/
@[simp] theorem lookup_list (items : List Json) :
    (record.list key items).lookup other =
      if other = key then some (.array items) else record.lookup other :=
  lookup_field record key other (.array items)

/-- A list is found unless it was empty. -/
@[simp] theorem lookup_nonemptyList (items : List Json) :
    (record.nonemptyList key items).lookup other =
      if other = key ∧ items ≠ [] then some (.array items) else record.lookup other := by
  cases items with
  | nil => simp [nonemptyList]
  | cons item items => simp [nonemptyList]

/-- A mapping is found unless it was empty. -/
@[simp] theorem lookup_nonemptyMapping (entries : Entries Json) :
    (record.nonemptyMapping key entries).lookup other =
      if other = key ∧ entries ≠ [] then some (.object entries) else record.lookup other := by
  cases entries with
  | nil => simp [nonemptyMapping]
  | cons entry entries => simp [nonemptyMapping]

/-- An object of a kind starts with the word of the kind. -/
@[simp] theorem lookup_typed {α : Type} [Keyword α] (kind : α) :
    (typed kind).lookup other =
      if other = "type" then some (.string (Keyword.word kind)) else none := by
  simp [typed]

/-- The fields of the finished object, as decoders look at them. -/
def fields (node : NodeKind) : Fields record.build :=
  ⟨node, "", record, fun _ _ member => Json.sizeOf_lt_object member⟩

/-- A finished object is an object. -/
@[simp] theorem of_build (node : NodeKind) : Fields.of node record.build = .ok (record.fields node) :=
  rfl

/-- The entries of a finished object are those that were written. -/
@[simp] theorem entries_fields (node : NodeKind) : (record.fields node).entries = record := rfl

end Record

namespace Fields

variable {whole : Json} {fields : Fields whole} {key : String}

/-- Naming the kind does not change the entries. -/
@[simp] theorem entries_forKind (kind : String) : (fields.forKind kind).entries = fields.entries :=
  rfl

/-- What was written under a key is found there, unless it is null. -/
theorem value?_of_lookup {value : Json} (written : fields.entries.lookup key = some value)
    (notNull : value.isNull = false) : fields.value? key = some value := by
  rw [value?, written]
  simp [notNull]

/-- Nothing is found under a key that nothing was written under. -/
theorem value?_of_unwritten (unwritten : fields.entries.lookup key = none) :
    fields.value? key = none := by
  rw [value?, unwritten]
  rfl

/-- What was written under a key, if anything, is found there if it cannot be null. -/
theorem value?_of_map {α : Type} {write : α → Json} {value : Option α}
    (written : fields.entries.lookup key = value.map write)
    (notNull : ∀ value, (write value).isNull = false) : fields.value? key = value.map write := by
  cases value with
  | none => exact value?_of_unwritten written
  | some value => exact value?_of_lookup written (notNull value)

/-- A text that was written is read back. -/
theorem string?_of_lookup {text : Option String}
    (written : fields.entries.lookup key = text.map .string) : fields.string? key = .ok text :=
  string?_eq_ok_iff.mpr (value?_of_map written fun _ => rfl)

/-- A text that was written and is not empty is read back. -/
theorem requiredString_of_lookup {text : String}
    (written : fields.entries.lookup key = some (.string text)) (nonempty : text ≠ "") :
    fields.requiredString key = .ok text :=
  requiredString_eq_ok_iff.mpr ⟨value?_of_lookup written rfl, nonempty⟩

/-- An optional text that was written is read back, but an empty one as none. -/
theorem nonemptyString?_of_written {text : Option String}
    (written : fields.entries.lookup key = text.map .string) :
    fields.nonemptyString? key = .ok (text.filter fun text => !text.isEmpty) := by
  rw [nonemptyString?, string?_of_lookup written]
  rfl

/-- An optional text that was written is read back unless it is empty. -/
theorem nonemptyString?_of_lookup {text : Option String}
    (written : fields.entries.lookup key = text.map .string) (nonempty : text ≠ some "") :
    fields.nonemptyString? key = .ok text :=
  nonemptyString?_eq_ok_iff.mpr (.inl ⟨value?_of_map written fun _ => rfl, nonempty⟩)

/-- A keyword that was written is read back. -/
theorem keyword?_of_lookup {α : Type} [Keyword α] [Keyword.Lawful α] {value : Option α}
    (written : fields.entries.lookup key =
      value.map fun value => Json.string (Keyword.word value)) :
    fields.keyword? key = .ok value := by
  have given := value?_of_map written fun _ => rfl
  rw [keyword?_eq_ok_iff]
  cases value with
  | none => exact .inl ⟨given, rfl⟩
  | some value => exact .inr ⟨_, value, given, Keyword.parse?_word value, rfl⟩

/-- A keyword that was written into an object is read back from its word. -/
theorem keywordOf_word {α : Type} [Keyword α] [Keyword.Lawful α] {value : α} :
    keywordOf key (Keyword.word value) = .ok value :=
  keywordOf_eq_ok_iff.mpr (Keyword.parse?_word value)

/-- A truth value that was written is read back. -/
theorem bool?_of_lookup {value : Option Bool}
    (written : fields.entries.lookup key = value.map .bool) : fields.bool? key = .ok value :=
  bool?_eq_ok_iff.mpr (value?_of_map written fun _ => rfl)

/-- A whole number without sign that was written and fits 32 bits is read back. -/
theorem nat32?_of_lookup {value : Option Nat}
    (written : fields.entries.lookup key = value.map fun number => Json.int number)
    (narrow : ∀ number, value = some number → number < 2 ^ 32) :
    fields.nat32? key = .ok value := by
  have given := value?_of_map written fun _ => rfl
  refine nat32?_eq_ok_iff.mpr ⟨?_, narrow⟩
  cases value <;> exact given

/-- A fractional number that was written is read back. -/
theorem number?_of_lookup {value : Option Binary64}
    (written : fields.entries.lookup key = value.map .float) : fields.number? key = .ok value :=
  number?_eq_ok_iff.mpr (.inl (value?_of_map written fun _ => rfl))

/-- A list of texts that is left out when it is empty is read back. -/
theorem strings_of_lookup {texts : List String}
    (written : fields.entries.lookup key =
      if texts ≠ [] then some (.strings texts) else none) : fields.strings key = .ok texts := by
  rw [strings_eq_ok_iff]
  by_cases empty : texts = []
  · rw [if_neg (not_not_intro empty)] at written
    exact .inl ⟨value?_of_unwritten written, empty⟩
  · rw [if_pos empty] at written
    exact .inr (.inr (value?_of_lookup written rfl))

/-- An optional reference that was written is read back unless it is empty. -/
theorem path?_of_lookup {path : Option Path}
    (written : fields.entries.lookup key = path.map fun path => Json.string path.raw)
    (nonempty : path ≠ some ⟨""⟩) : fields.path? key = .ok path :=
  path?_eq_ok_iff.mpr (.inl ⟨value?_of_map written fun _ => rfl, nonempty⟩)

/-- A reference that was written is read back unless it is empty. -/
theorem requiredPath_of_lookup {path : Path}
    (written : fields.entries.lookup key = some (.string path.raw)) (nonempty : path.raw ≠ "") :
    fields.requiredPath key = .ok path :=
  requiredPath_eq_ok_iff.mpr ⟨value?_of_lookup written rfl, nonempty⟩

end Fields

/-- A document fills a field with a node: it does not count as absent, and it is decoded to the
node. -/
structure Fills {α : Type} (decode : Json → Decoded α) (document : Json) (node : α) : Prop where
  /-- The document is not null. -/
  notNull : document.isNull = false
  /-- The document is decoded to the node. -/
  decoded : decode document = .ok node

namespace Fills

variable {α : Type} {decode : Json → Decoded α} {whole : Json} {fields : Fields whole}
  {key label : String}

/-- A field with a node is given. -/
theorem has {document : Json} {node : α} (fills : Fills decode document node)
    (written : fields.entries.lookup key = some document) : fields.has key = true := by
  rw [Fields.has, Fields.value?_of_lookup written fills.notNull]
  rfl

/-- A node that was written into a field is read back where the field is required. -/
theorem required {document : Json} {node : α} (fills : Fills decode document node)
    (written : fields.entries.lookup key = some document) :
    fields.requiredNode key (fun part _ => decode part) = .ok node := by
  have given := Fields.value?_of_lookup written fills.notNull
  exact Fields.requiredNode_eq_ok_iff.mpr ⟨document, given, fills.decoded⟩

/-- A node that was written into a field is read back where the field is optional. -/
theorem present {document : Json} {node : α} (fills : Fills decode document node)
    (written : fields.entries.lookup key = some document) :
    fields.node? key (fun part _ => decode part) = .ok (some node) := by
  have given := Fields.value?_of_lookup written fills.notNull
  exact Fields.node?_eq_ok_iff.mpr (.inr ⟨document, node, given, fills.decoded, rfl⟩)

/-- No node is read from a field that was not written. -/
theorem absent (unwritten : fields.entries.lookup key = none) :
    fields.node? key (fun part _ => decode part) = .ok none :=
  Fields.node?_eq_ok_iff.mpr (.inl ⟨Fields.value?_of_unwritten unwritten, rfl⟩)

/-- A node that was written into a field if there is one is read back where the field is optional. -/
theorem optional {encode : α → Json} {node : Option α}
    (fills : ∀ value, node = some value → Fills decode (encode value) value)
    (written : fields.entries.lookup key = node.map encode) :
    fields.node? key (fun part _ => decode part) = .ok node := by
  cases node with
  | none => exact absent written
  | some node => exact (fills node rfl).present written

/-- A list of nodes that was written is read back. -/
theorem list {documents : List Json} {nodes : List α}
    (decoded : List.Forall₂ (fun document node => decode document = .ok node) documents nodes)
    (written : fields.entries.lookup key = some (.array documents)) :
    fields.list key label (fun part _ => decode part) = .ok nodes := by
  have given := Fields.value?_of_lookup written rfl
  exact Fields.list_eq_ok_iff.mpr (.inr ⟨documents, given, decoded⟩)

/-- What is left out when it is empty is found if there is some of it. -/
theorem value?_of_nonempty {β : Type} {relation : β → α → Prop} {documents : List β}
    {nodes : List α} {whole : Json} (related : List.Forall₂ relation documents nodes)
    (written : fields.entries.lookup key = if documents ≠ [] then some whole else none)
    (notNull : whole.isNull = false) :
    fields.value? key = none ∧ nodes = [] ∨ fields.value? key = some whole := by
  cases related with
  | nil => exact .inl ⟨Fields.value?_of_unwritten written, rfl⟩
  | cons => exact .inr (Fields.value?_of_lookup written notNull)

/-- A list of nodes that is left out when it is empty is read back. -/
theorem nonemptyList {documents : List Json} {nodes : List α}
    (decoded : List.Forall₂ (fun document node => decode document = .ok node) documents nodes)
    (written : fields.entries.lookup key =
      if documents ≠ [] then some (.array documents) else none) :
    fields.list key label (fun part _ => decode part) = .ok nodes := by
  have given := value?_of_nonempty decoded written rfl
  exact Fields.list_eq_ok_iff.mpr (given.imp_right fun given => ⟨documents, given, decoded⟩)

/-- A mapping to nodes that is left out when it is empty is read back. -/
theorem nonemptyMapping {entries : Entries Json} {nodes : Entries α}
    (decoded : List.Forall₂ (fun entry node => entry.1 = node.1 ∧ decode entry.2 = .ok node.2)
      entries nodes)
    (written : fields.entries.lookup key =
      if entries ≠ [] then some (.object entries) else none) :
    fields.mapping key (fun part _ => decode part) = .ok nodes := by
  have given := value?_of_nonempty decoded written rfl
  exact Fields.mapping_eq_ok_iff.mpr (given.imp_right fun given => ⟨entries, given, decoded⟩)

/-- The documents of nodes that are read back are decoded one by one. -/
theorem forall₂_map {encode : α → Json} {nodes : List α}
    (decoded : ∀ node ∈ nodes, decode (encode node) = .ok node) :
    List.Forall₂ (fun document node => decode document = .ok node) (nodes.map encode) nodes := by
  rw [List.forall₂_map_left_iff, List.forall₂_same]
  exact decoded

/-- The documents of named nodes that are read back are decoded one by one. -/
theorem forall₂_mapValues {encode : α → Json} {nodes : Entries α}
    (decoded : ∀ entry ∈ nodes, decode (encode entry.2) = .ok entry.2) :
    List.Forall₂ (fun entry node => entry.1 = node.1 ∧ decode entry.2 = .ok node.2)
      (nodes.mapValues encode) nodes := by
  rw [Entries.mapValues, List.forall₂_map_left_iff, List.forall₂_same]
  exact fun entry member => ⟨rfl, decoded entry member⟩

end Fills

namespace Fields

variable {α : Type} {whole : Json} {fields : Fields whole} {key : String}

/-- A node is read from the document that was written where the field is required. -/
theorem requiredNode_iff_of_lookup {decode : Json → Decoded α} {document : Json} {node : α}
    (written : fields.entries.lookup key = some document) (notNull : document.isNull = false) :
    fields.requiredNode key (fun part _ => decode part) = .ok node ↔ decode document = .ok node := by
  rw [requiredNode_eq_ok_iff, value?_of_lookup written notNull]
  simp

/-- A node is read from the document that was written, if there is one, where the field is optional. -/
theorem node?_iff_of_lookup {decode : Json → Decoded α} {encode : α → Json} {node found : Option α}
    (written : fields.entries.lookup key = node.map encode)
    (notNull : ∀ value, (encode value).isNull = false) :
    fields.node? key (fun part _ => decode part) = .ok found ↔
      node.mapM (fun value => (decode (encode value)).toOption) = some found := by
  rw [node?_eq_ok_iff, value?_of_map written notNull]
  cases node with
  | none => simp [eq_comm]
  | some value => simp [Decoded.toOption_eq_some_iff, eq_comm]

/-- What is left out when it is empty is found under its key, or there is none of it. -/
theorem value?_of_nonemptyList {documents : List Json}
    (written : fields.entries.lookup key =
      if documents ≠ [] then some (.array documents) else none) :
    fields.value? key = some (.array documents) ∨ fields.value? key = none ∧ documents = [] := by
  by_cases none : documents = []
  · rw [if_neg (not_not_intro none)] at written
    exact .inr ⟨value?_of_unwritten written, none⟩
  · rw [if_pos none] at written
    exact .inl (value?_of_lookup written rfl)

/-- The items of a list are read from the documents that were written, which may be left out if there
are none. -/
theorem items_iff {relation : Json → α → Prop} {documents : List Json} {nodes : List α}
    (written : fields.value? key = some (.array documents) ∨
      fields.value? key = none ∧ documents = []) :
    (fields.value? key = none ∧ nodes = [] ∨
      ∃ items, fields.value? key = some (.array items) ∧ List.Forall₂ relation items nodes) ↔
      List.Forall₂ relation documents nodes := by
  rcases written with given | ⟨absent, rfl⟩
  · simp [given]
  · simp [absent]

/-- The nodes of a list are read from the documents that were written. -/
theorem list_iff_of_lookup {label : String} {decode : Json → Decoded α} {documents : List Json}
    {nodes : List α} (written : fields.entries.lookup key = some (.array documents)) :
    fields.list key label (fun part _ => decode part) = .ok nodes ↔
      List.Forall₂ (fun document node => decode document = .ok node) documents nodes :=
  list_eq_ok_iff.trans (items_iff (.inl (value?_of_lookup written rfl)))

/-- The nodes of a list that is left out when it is empty are read from the documents that were
written. -/
theorem list_iff_of_nonemptyList {label : String} {decode : Json → Decoded α}
    {documents : List Json} {nodes : List α}
    (written : fields.entries.lookup key =
      if documents ≠ [] then some (.array documents) else none) :
    fields.list key label (fun part _ => decode part) = .ok nodes ↔
      List.Forall₂ (fun document node => decode document = .ok node) documents nodes :=
  list_eq_ok_iff.trans (items_iff (value?_of_nonemptyList written))

end Fields

namespace Record

variable {α κ : Type} [Keyword κ] [Keyword.Lawful κ] {record : Record} {node : NodeKind}

/-- A decoder that looks at the type first finds the kind that was written. -/
theorem bind_kind (kind : κ) {next : Fields record.build → String → κ → Decoded α}
    (typed : record.lookup "type" = some (.string (Keyword.word kind))) :
    (do
      let untyped ← Fields.of node record.build
      let word ← untyped.kindWord
      let kind ← untyped.kindOf word
      next untyped word kind) = next (record.fields node) (Keyword.word kind) kind := by
  have word : (record.fields node).kindWord = .ok (Keyword.word kind) :=
    Fields.kindWord_eq_ok_iff.mpr
      ⟨Fields.value?_of_lookup typed rfl, Keyword.Lawful.word_ne_empty kind⟩
  have named : (record.fields node).kindOf (Keyword.word kind) = .ok kind :=
    Fields.kindOf_eq_ok_iff.mpr (Keyword.parse?_word kind)
  rw [of_build]
  change (record.fields node).kindWord >>= _ = _
  rw [word]
  change (record.fields node).kindOf (Keyword.word kind) >>= _ = _
  rw [named]
  rfl

end Record

end GameRules
