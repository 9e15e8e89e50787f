import GameRules.Document.Fields
import Mathlib.Data.List.Forall2

/-!
# What it takes to read a field

Decoders read an object through a handful of accessors. For each of them one law says, in terms of
the value found under the key, when it succeeds and what it then yields. A law is read from left to
right to learn what a document that was decoded looks like, and from right to left to decode one.
-/

namespace GameRules

variable {α β : Type}

namespace Decoded

/-- A decoder that goes on after another one succeeds when both do. -/
theorem bind_eq_ok_iff {first : Decoded α} {next : α → Decoded β} {result : β} :
    first >>= next = .ok result ↔ ∃ value, first = .ok value ∧ next value = .ok result := by
  cases first with
  | error error => simp [bind, Except.bind]
  | ok value => simp [bind, Except.bind]

/-- Changing the result of a decoder does not change whether it succeeds. -/
theorem map_eq_ok_iff {part : Decoded α} {change : α → β} {result : β} :
    change <$> part = .ok result ↔ ∃ value, part = .ok value ∧ change value = result := by
  cases part with
  | error error => simp [Functor.map, Except.map]
  | ok value => simp [Functor.map, Except.map]

/-- A value that is returned is the result. -/
theorem pure_eq_ok_iff {value result : α} : (pure value : Decoded α) = .ok result ↔ value = result := by
  simp [pure, Except.pure]

/-- Where a part stands does not change whether it is decoded. -/
theorem inside_eq_ok_iff {position : Position} {part : Decoded α} {result : α} :
    Decoded.inside position part = .ok result ↔ part = .ok result := by
  cases part with
  | error error => simp [inside, Except.mapError]
  | ok value => simp [inside, Except.mapError]

/-- A list is decoded item by item where positions do not matter. -/
theorem mapM_eq_ok_iff {decode : α → Decoded β} {items : List α} {results : List β} :
    items.mapM decode = .ok results ↔
      List.Forall₂ (fun item result => decode item = .ok result) items results := by
  induction items generalizing results with
  | nil => rw [List.mapM_nil, pure_eq_ok_iff, List.forall₂_nil_left_iff, eq_comm]
  | cons item items ih =>
    simp only [List.mapM_cons, bind_eq_ok_iff, pure_eq_ok_iff, ih, List.forall₂_cons_left_iff]
    constructor
    · rintro ⟨first, decoded, others, related, rfl⟩
      exact ⟨first, others, decoded, related, rfl⟩
    · rintro ⟨first, others, decoded, related, rfl⟩
      exact ⟨first, decoded, others, related, rfl⟩

/-- What is decoded is what was found. -/
theorem toOption_eq_some_iff {part : Decoded α} {value : α} :
    part.toOption = some value ↔ part = .ok value := by
  cases part <;> simp [Except.toOption]

/-- A fault is no result. -/
theorem fail_ne_ok {fault : DecodeFault} {result : α} : Decoded.fail fault ≠ .ok result := by
  simp [fail]

end Decoded

/-- Every result of a relation between two lists comes from an item. -/
theorem exists_mem_of_forall₂ {relation : α → β → Prop} {items : List α} {results : List β}
    (related : List.Forall₂ relation items results) {result : β} (member : result ∈ results) :
    ∃ item ∈ items, relation item result := by
  induction related with
  | nil => cases member
  | cons head _ ih =>
    rcases List.mem_cons.mp member with rfl | later
    · exact ⟨_, List.mem_cons_self, head⟩
    · obtain ⟨item, inItems, here⟩ := ih later
      exact ⟨item, List.mem_cons_of_mem _ inItems, here⟩

/-- Entries that are decoded one by one are in the order of their documents. -/
theorem Entries.Ordered.decoded {entries : Entries Json} {nodes : Entries α}
    {relation : String × Json → String × α → Prop} (ordered : entries.Ordered)
    (related : List.Forall₂ (fun entry node => entry.1 = node.1 ∧ relation entry node) entries nodes) :
    nodes.Ordered := by
  have sameKeys : entries.keys = nodes.keys := by
    rw [← List.forall₂_eq_eq_eq, Entries.keys, Entries.keys, List.forall₂_map_left_iff,
      List.forall₂_map_right_iff]
    exact related.imp fun _ _ same => same.1
  have keys : entries.keys.Pairwise (· < ·) := List.pairwise_map.mpr ordered
  rw [sameKeys] at keys
  exact List.pairwise_map.mp keys

/-- A list is decoded item by item. -/
theorem decodeItems_eq_ok_iff {label : String} {start : Nat} {items : List Json}
    {decode : Json → Decoded α} {nodes : List α} :
    decodeItems label start items (fun item _ => decode item) = .ok nodes ↔
      List.Forall₂ (fun item node => decode item = .ok node) items nodes := by
  induction items generalizing start nodes with
  | nil =>
    rw [List.forall₂_nil_left_iff, decodeItems, Except.ok.injEq, eq_comm]
  | cons item items ih =>
    simp only [decodeItems, Decoded.bind_eq_ok_iff, Decoded.inside_eq_ok_iff, ih,
      Decoded.pure_eq_ok_iff, List.forall₂_cons_left_iff]
    constructor
    · rintro ⟨first, decoded, others, related, rfl⟩
      exact ⟨first, others, decoded, related, rfl⟩
    · rintro ⟨first, others, decoded, related, rfl⟩
      exact ⟨first, decoded, others, related, rfl⟩

/-- A mapping is decoded entry by entry, and its keys are kept. -/
theorem decodeEntries_eq_ok_iff {position : String → Position} {entries : List (String × Json)}
    {decode : String → Json → Decoded α} {nodes : Entries α} :
    decodeEntries position entries (fun name value _ => decode name value) = .ok nodes ↔
      List.Forall₂ (fun entry node => entry.1 = node.1 ∧ decode entry.1 entry.2 = .ok node.2)
        entries nodes := by
  induction entries generalizing nodes with
  | nil =>
    rw [List.forall₂_nil_left_iff, decodeEntries, Except.ok.injEq, eq_comm]
  | cons entry entries ih =>
    obtain ⟨name, value⟩ := entry
    simp only [decodeEntries, Decoded.bind_eq_ok_iff, Decoded.inside_eq_ok_iff, ih,
      Decoded.pure_eq_ok_iff, List.forall₂_cons_left_iff]
    constructor
    · rintro ⟨first, decoded, others, related, rfl⟩
      exact ⟨(name, first), others, ⟨rfl, decoded⟩, related, rfl⟩
    · rintro ⟨⟨_, first⟩, others, ⟨rfl, decoded⟩, related, rfl⟩
      exact ⟨first, decoded, others, related, rfl⟩

namespace Fields

variable {whole : Json} {fields : Fields whole} {key : String}

/-- A value that is found is not null. -/
theorem isNull_eq_false {value : Json} (given : fields.value? key = some value) :
    value.isNull = false := by
  simpa using (Option.filter_eq_some_iff.mp given).2

/-- A value that is found was written under its key. -/
theorem lookup_of_value? {value : Json} (given : fields.value? key = some value) :
    fields.entries.lookup key = some value :=
  (Option.filter_eq_some_iff.mp given).1

/-- Naming the kind does not change what is found. -/
@[simp] theorem value?_forKind (kind : String) : (fields.forKind kind).value? key = fields.value? key :=
  rfl

/-- A field that is required has to be there. -/
theorem required_eq_ok_iff {value : Json} :
    fields.required key = .ok value ↔ fields.value? key = some value := by
  unfold required
  cases fields.value? key with
  | none => simp [Decoded.fail_ne_ok]
  | some found => simp

/-- A text is read from a string or from nothing. -/
theorem string?_eq_ok_iff {text : Option String} :
    fields.string? key = .ok text ↔ fields.value? key = text.map .string := by
  unfold string?
  cases fields.value? key with
  | none => cases text <;> simp
  | some found => cases text <;> cases found <;> simp [Decoded.fail_ne_ok]

/-- An empty text counts as no text. -/
theorem nonemptyString?_eq_ok_iff {text : Option String} :
    fields.nonemptyString? key = .ok text ↔
      fields.value? key = text.map .string ∧ text ≠ some "" ∨
        fields.value? key = some (.string "") ∧ text = none := by
  have filtered : ∀ found : String, (some found).filter (fun text => !text.isEmpty) =
      if found = "" then none else some found := by
    intro found
    by_cases empty : found = "" <;> simp [Option.filter, empty]
  unfold nonemptyString? string?
  cases fields.value? key with
  | none => cases text <;> simp [Except.map]
  | some found =>
    cases found with
    | string found =>
      by_cases empty : found = ""
      · cases text with
        | none => simp [Except.map, filtered, empty]
        | some text => simp [Except.map, filtered, empty, eq_comm]
      · cases text with
        | none => simp [Except.map, filtered, empty]
        | some text =>
          simp only [Except.map, filtered, empty, if_false]
          grind
    | _ => cases text <;> simp [Except.map, Decoded.fail]

/-- A required text is a string that is not empty. -/
theorem requiredString_eq_ok_iff {text : String} :
    fields.requiredString key = .ok text ↔
      fields.value? key = some (.string text) ∧ text ≠ "" := by
  simp only [requiredString, Decoded.bind_eq_ok_iff, nonemptyString?_eq_ok_iff]
  constructor
  · rintro ⟨_ | found, read, result⟩
    · exact absurd result Decoded.fail_ne_ok
    · rcases read with ⟨given, nonempty⟩ | ⟨-, none⟩
      · cases Decoded.pure_eq_ok_iff.mp result
        exact ⟨given, fun empty => nonempty (congrArg some empty)⟩
      · cases none
  · rintro ⟨given, nonempty⟩
    exact ⟨some text, .inl ⟨given, fun empty => nonempty (Option.some.inj empty)⟩, rfl⟩

/-- The word that names the kind is a string that is not empty. -/
theorem kindWord_eq_ok_iff {word : String} :
    fields.kindWord = .ok word ↔ fields.value? "type" = some (.string word) ∧ word ≠ "" := by
  simp only [kindWord, kindWord?, Decoded.bind_eq_ok_iff, nonemptyString?_eq_ok_iff]
  constructor
  · rintro ⟨_ | found, read, result⟩
    · exact absurd result Decoded.fail_ne_ok
    · rcases read with ⟨given, nonempty⟩ | ⟨-, none⟩
      · cases Decoded.pure_eq_ok_iff.mp result
        exact ⟨given, fun empty => nonempty (congrArg some empty)⟩
      · cases none
  · rintro ⟨given, nonempty⟩
    exact ⟨some word, .inl ⟨given, fun empty => nonempty (Option.some.inj empty)⟩, rfl⟩

/-- The kind is the one that its word names. -/
theorem kindOf_eq_ok_iff [Keyword α] {word : String} {kind : α} :
    fields.kindOf word = .ok kind ↔ Keyword.parse? word = some kind := by
  unfold kindOf
  cases (Keyword.parse? word : Option α) with
  | none => simp [Decoded.fail_ne_ok]
  | some found => simp

/-- A value of a vocabulary is the one that its word names. -/
theorem keywordOf_eq_ok_iff [Keyword α] {word : String} {value : α} :
    keywordOf key word = .ok value ↔ Keyword.parse? word = some value := by
  unfold keywordOf
  cases (Keyword.parse? word : Option α) with
  | none => simp [Decoded.fail_ne_ok]
  | some found => simp

/-- A value of a vocabulary is read from its word or from nothing. -/
theorem keyword?_eq_ok_iff [Keyword α] {value : Option α} :
    fields.keyword? key = .ok value ↔
      fields.value? key = none ∧ value = none ∨
        ∃ word found, fields.value? key = some (.string word) ∧
          Keyword.parse? word = some found ∧ value = some found := by
  simp only [keyword?, Decoded.bind_eq_ok_iff, string?_eq_ok_iff]
  constructor
  · rintro ⟨_ | word, given, result⟩
    · exact .inl ⟨given, (Decoded.pure_eq_ok_iff.mp result).symm⟩
    · obtain ⟨found, parsed, rfl⟩ := Decoded.map_eq_ok_iff.mp result
      exact .inr ⟨word, found, given, keywordOf_eq_ok_iff.mp parsed, rfl⟩
  · rintro (⟨absent, rfl⟩ | ⟨word, found, given, parsed, rfl⟩)
    · exact ⟨none, absent, rfl⟩
    · refine ⟨some word, given, ?_⟩
      exact Decoded.map_eq_ok_iff.mpr ⟨found, keywordOf_eq_ok_iff.mpr parsed, rfl⟩

/-- A truth value is read from itself or from nothing. -/
theorem bool?_eq_ok_iff {value : Option Bool} :
    fields.bool? key = .ok value ↔ fields.value? key = value.map .bool := by
  unfold bool?
  cases fields.value? key with
  | none => cases value <;> simp
  | some found => cases value <;> cases found <;> simp [Decoded.fail_ne_ok]

/-- A whole number of 64 bits with sign is read from itself or from nothing. -/
theorem int64?_eq_ok_iff {value : Option Int} :
    fields.int64? key = .ok value ↔
      fields.value? key = value.map .int ∧
        ∀ number, value = some number → -(2 ^ 63) ≤ number ∧ number < 2 ^ 63 := by
  unfold int64?
  cases fields.value? key with
  | none => cases value <;> simp
  | some found =>
    cases found with
    | int number =>
      dsimp only
      by_cases inRange : -(2 ^ 63) ≤ number ∧ number < 2 ^ 63
      · rw [if_pos inRange]
        cases value <;> grind
      · rw [if_neg inRange]
        cases value <;> grind [Decoded.fail]
    | _ => cases value <;> simp [Decoded.fail]

/-- A whole number of 32 bits with sign is read from itself or from nothing. -/
theorem int32?_eq_ok_iff {value : Option Int} :
    fields.int32? key = .ok value ↔
      fields.value? key = value.map .int ∧
        ∀ number, value = some number → -(2 ^ 31) ≤ number ∧ number < 2 ^ 31 := by
  simp only [int32?, Decoded.bind_eq_ok_iff, int64?_eq_ok_iff]
  constructor
  · rintro ⟨_ | number, ⟨given, -⟩, result⟩
    · cases result
      exact ⟨given, fun _ none => nomatch none⟩
    · dsimp only at result
      by_cases inRange : -(2 ^ 31) ≤ number ∧ number < 2 ^ 31
      · rw [if_pos inRange] at result
        cases result
        exact ⟨given, fun _ same => Option.some.inj same ▸ inRange⟩
      · rw [if_neg inRange] at result
        cases result
  · rintro ⟨given, inRange⟩
    cases value with
    | none => exact ⟨none, ⟨given, fun _ none => nomatch none⟩, rfl⟩
    | some number =>
      have narrow := inRange number rfl
      refine ⟨some number, ⟨given, fun _ same => ?_⟩, ?_⟩
      · cases same
        omega
      · exact (if_pos narrow).trans rfl

/-- A whole number of 32 bits with sign stays in range if an absent one is zero. -/
theorem getD_inRange_of_int32? {value : Option Int} (read : fields.int32? key = .ok value) :
    -(2 ^ 31) ≤ value.getD 0 ∧ value.getD 0 < 2 ^ 31 := by
  cases value with
  | none => exact (by decide : -(2 ^ 31) ≤ (0 : Int) ∧ (0 : Int) < 2 ^ 31)
  | some number => exact (int32?_eq_ok_iff.mp read).2 number rfl

/-- A whole number of 32 bits without sign is read from itself or from nothing. -/
theorem nat32?_eq_ok_iff {value : Option Nat} :
    fields.nat32? key = .ok value ↔
      fields.value? key = value.map (fun number => .int number) ∧
        ∀ number, value = some number → number < 2 ^ 32 := by
  unfold nat32?
  cases fields.value? key with
  | none => cases value <;> simp
  | some found =>
    cases found with
    | int number =>
      dsimp only
      by_cases outside : number < 0 ∨ 2 ^ 64 ≤ number
      · rw [if_pos outside]
        cases value <;> grind [Decoded.fail]
      · rw [if_neg outside]
        by_cases narrow : number < 2 ^ 32
        · rw [if_pos narrow]
          cases value <;> grind
        · rw [if_neg narrow]
          cases value <;> grind [Decoded.fail]
    | _ => cases value <;> simp [Decoded.fail]

/-- A whole number of 32 bits without sign stays in range if what stands for an absent one is. -/
theorem getD_lt_of_nat32? {value : Option Nat} {default : Nat} (small : default < 2 ^ 32)
    (read : fields.nat32? key = .ok value) : value.getD default < 2 ^ 32 := by
  cases value with
  | none => exact small
  | some number => exact (nat32?_eq_ok_iff.mp read).2 number rfl

/-- How a fractional number is read does not depend on how whole numbers are rounded to one. -/
theorem number_eq_ok_iff (rounded : Int → Option Binary64) {fault : Json → DecodeFault}
    {given : Option Json} {value : Option Binary64} :
    (match given with
      | none => .ok none
      | some (.float value) => .ok (some value)
      | some (.int value) =>
        match rounded value with
        | some value => .ok (some value)
        | none => Decoded.fail (fault (.int value))
      | some other => Decoded.fail (fault other) : Decoded (Option Binary64)) = .ok value ↔
      given = value.map .float ∨
        ∃ whole number, given = some (.int whole) ∧ rounded whole = some number ∧
          value = some number := by
  cases given with
  | none => cases value <;> simp
  | some found =>
    cases found with
    | int whole =>
      cases nearest : rounded whole with
      | none => cases value <;> simp [nearest, Decoded.fail]
      | some number => cases value <;> simp [nearest, eq_comm]
    | _ => cases value <;> simp [Decoded.fail]

/-- A fractional number is read from a number of either kind or from nothing. -/
theorem number?_eq_ok_iff {value : Option Binary64} :
    fields.number? key = .ok value ↔
      fields.value? key = value.map .float ∨
        ∃ whole number, fields.value? key = some (.int whole) ∧
          Binary64.ofInt? whole = some number ∧ value = some number :=
  number_eq_ok_iff Binary64.ofInt?

/-- The texts of a list are those of its items. -/
theorem stringItems_eq_ok_iff {items : List Json} {texts : List String} :
    fields.stringItems key items = .ok texts ↔ items = texts.map .string := by
  induction items generalizing texts with
  | nil => cases texts <;> simp [stringItems]
  | cons item items ih =>
    cases item with
    | string text =>
      simp only [stringItems, Decoded.map_eq_ok_iff, ih]
      constructor
      · rintro ⟨others, rfl, rfl⟩
        rfl
      · intro same
        cases texts with
        | nil => cases same
        | cons first others =>
          simp only [List.map_cons, List.cons.injEq, Json.string.injEq] at same
          exact ⟨others, same.2, by rw [same.1]⟩
    | _ => cases texts <;> simp [stringItems, Decoded.fail]

/-- A list of texts is read from a list, from one text, or from nothing. -/
theorem strings_eq_ok_iff {texts : List String} :
    fields.strings key = .ok texts ↔
      fields.value? key = none ∧ texts = [] ∨
        (∃ text, fields.value? key = some (.string text) ∧ texts = [text]) ∨
          fields.value? key = some (.strings texts) := by
  unfold strings Json.strings
  cases fields.value? key with
  | none => simp [eq_comm]
  | some found =>
    cases found with
    | array items => simp [stringItems_eq_ok_iff]
    | string text => simp [eq_comm]
    | _ => simp [Decoded.fail]

/-- A reference is read from a text that is not empty. -/
theorem requiredPath_eq_ok_iff {path : Path} :
    fields.requiredPath key = .ok path ↔
      fields.value? key = some (.string path.raw) ∧ path.raw ≠ "" := by
  rw [← requiredString_eq_ok_iff, requiredPath]
  cases fields.requiredString key with
  | error error => simp [Except.map]
  | ok text => simp [Except.map, ← Path.mk.injEq]

/-- An optional reference is read from a text that is not empty; an empty one counts as absent. -/
theorem path?_eq_ok_iff {path : Option Path} :
    fields.path? key = .ok path ↔
      fields.value? key = path.map (fun path => .string path.raw) ∧ path ≠ some ⟨""⟩ ∨
        fields.value? key = some (.string "") ∧ path = none := by
  have read : fields.path? key = .ok path ↔
      fields.nonemptyString? key = .ok (path.map Path.raw) := by
    unfold path?
    cases fields.nonemptyString? key with
    | error error => simp [Except.map]
    | ok text => cases text <;> cases path <;> simp [Except.map, ← Path.mk.injEq]
  rw [read, nonemptyString?_eq_ok_iff]
  cases path <;> simp [← Path.mk.injEq]

/-- An optional reference that was read is not empty. -/
theorem path?_ne_empty {path : Option Path} (read : fields.path? key = .ok path) :
    path ≠ some ⟨""⟩ := by
  rcases path?_eq_ok_iff.mp read with ⟨-, nonempty⟩ | ⟨-, rfl⟩
  · exact nonempty
  · exact nofun

/-- A node is read from the value of its field, or is absent with it. -/
theorem node?_eq_ok_iff {decode : Json → Decoded α} {node : Option α} :
    fields.node? key (fun part _ => decode part) = .ok node ↔
      fields.value? key = none ∧ node = none ∨
        ∃ part value, fields.value? key = some part ∧ decode part = .ok value ∧
          node = some value := by
  unfold node?
  split
  · rename_i absent
    simp [absent, eq_comm]
  · rename_i part given
    simp only [Decoded.map_eq_ok_iff, Decoded.inside_eq_ok_iff, given]
    constructor
    · rintro ⟨value, decoded, rfl⟩
      exact .inr ⟨part, value, rfl, decoded, rfl⟩
    · rintro (⟨none, -⟩ | ⟨_, value, same, decoded, rfl⟩)
      · cases none
      · cases same
        exact ⟨value, decoded, rfl⟩

/-- A required node is read from the value of its field. -/
theorem requiredNode_eq_ok_iff {decode : Json → Decoded α} {node : α} :
    fields.requiredNode key (fun part _ => decode part) = .ok node ↔
      ∃ part, fields.value? key = some part ∧ decode part = .ok node := by
  unfold requiredNode
  split
  · rename_i absent
    simp [absent, Decoded.fail_ne_ok]
  · rename_i part given
    simp [given, Decoded.inside_eq_ok_iff]

/-- A list of nodes is read from a list of their documents, or is empty. -/
theorem list_eq_ok_iff {label : String} {decode : Json → Decoded α} {nodes : List α} :
    fields.list key label (fun part _ => decode part) = .ok nodes ↔
      fields.value? key = none ∧ nodes = [] ∨
        ∃ items, fields.value? key = some (.array items) ∧
          List.Forall₂ (fun item node => decode item = .ok node) items nodes := by
  unfold list
  split
  · rename_i absent
    simp [absent, eq_comm]
  · rename_i items given
    simp [given, decodeItems_eq_ok_iff]
  · rename_i other notArray given
    simp only [given, Decoded.fail_ne_ok, reduceCtorEq, false_and, false_or, false_iff]
    rintro ⟨items, same, -⟩
    exact notArray items (Option.some.inj same)

/-- A mapping to nodes is read from a mapping to their documents, or is empty. -/
theorem mapping_eq_ok_iff {decode : Json → Decoded α} {nodes : Entries α} :
    fields.mapping key (fun part _ => decode part) = .ok nodes ↔
      fields.value? key = none ∧ nodes = [] ∨
        ∃ entries, fields.value? key = some (.object entries) ∧
          List.Forall₂ (fun entry node => entry.1 = node.1 ∧ decode entry.2 = .ok node.2)
            entries nodes := by
  unfold mapping
  split
  · rename_i absent
    simp [absent, eq_comm]
  · rename_i entries given
    have entrywise := @decodeEntries_eq_ok_iff α (.entry key) entries (fun _ => decode) nodes
    simp [given, entrywise]
  · rename_i other notObject given
    simp only [given, Decoded.fail_ne_ok, reduceCtorEq, false_and, false_or, false_iff]
    rintro ⟨entries, same, -⟩
    exact notObject entries (Option.some.inj same)

end Fields

/-- Whatever a decoder makes of the parts of a document has a property. This is what an induction
over documents provides for the parts, and what the fields of an object pass on. -/
def PartsSatisfy (whole : Json) (decode : Json → Decoded α) (property : α → Prop) : Prop :=
  ∀ part, sizeOf part < sizeOf whole → ∀ node, decode part = .ok node → property node

namespace PartsSatisfy

variable {whole : Json} {fields : Fields whole} {key label : String} {decode : Json → Decoded α}
  {property : α → Prop}

/-- What holds of a decoded document whenever it holds of what its parts are decoded to holds of every
decoded document. -/
theorem decoded (step : ∀ document node, PartsSatisfy document decode property →
      decode document = .ok node → property node)
    (document : Json) (node : α) (read : decode document = .ok node) : property node := by
  induction bound : sizeOf document using Nat.strongRecOn generalizing document node with
  | _ size ih =>
    refine step document node (fun part smaller found decoded => ?_) read
    exact ih (sizeOf part) (bound ▸ smaller) part found decoded rfl

/-- A required node has the property of the parts. -/
theorem requiredNode (parts : PartsSatisfy whole decode property) {node : α}
    (decoded : fields.requiredNode key (fun part _ => decode part) = .ok node) : property node := by
  obtain ⟨part, given, decoded⟩ := Fields.requiredNode_eq_ok_iff.mp decoded
  exact parts part (Fields.sizeOf_value? given) node decoded

/-- An optional node has the property of the parts. -/
theorem node? (parts : PartsSatisfy whole decode property) {node : Option α}
    (decoded : fields.node? key (fun part _ => decode part) = .ok node) :
    ∀ value, node = some value → property value := by
  rintro value rfl
  rcases Fields.node?_eq_ok_iff.mp decoded with ⟨-, none⟩ | ⟨part, _, given, decoded, same⟩
  · cases none
  · cases same
    exact parts part (Fields.sizeOf_value? given) value decoded

/-- Every result of a list has the property of the parts. -/
theorem items (parts : PartsSatisfy whole decode property) {documents : List Json} {nodes : List α}
    (given : fields.value? key = some (.array documents))
    (decoded : List.Forall₂ (fun item node => decode item = .ok node) documents nodes) :
    ∀ node ∈ nodes, property node := by
  intro node member
  obtain ⟨item, inItems, decoded⟩ := exists_mem_of_forall₂ decoded member
  have smaller := Nat.lt_trans (Json.sizeOf_lt_array inItems) (Fields.sizeOf_value? given)
  exact parts item smaller node decoded

/-- Every node of a list has the property of the parts. -/
theorem list (parts : PartsSatisfy whole decode property) {nodes : List α}
    (decoded : fields.list key label (fun part _ => decode part) = .ok nodes) :
    ∀ node ∈ nodes, property node := by
  rcases Fields.list_eq_ok_iff.mp decoded with ⟨-, rfl⟩ | ⟨documents, given, decoded⟩
  · intro node member
    cases member
  · exact parts.items given decoded

/-- Every node of a mapping has the property of the parts. -/
theorem mapping (parts : PartsSatisfy whole decode property) {nodes : Entries α}
    (decoded : fields.mapping key (fun part _ => decode part) = .ok nodes) :
    ∀ entry ∈ nodes, property entry.2 := by
  rcases Fields.mapping_eq_ok_iff.mp decoded with ⟨-, rfl⟩ | ⟨entries, given, decoded⟩
  · intro entry member
    cases member
  · intro entry member
    obtain ⟨source, inEntries, -, decoded⟩ := exists_mem_of_forall₂ decoded member
    have smaller := Nat.lt_trans (Json.sizeOf_lt_object inEntries) (Fields.sizeOf_value? given)
    exact parts source.2 smaller entry.2 decoded

end PartsSatisfy

end GameRules
