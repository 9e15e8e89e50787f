import GameRules.Proofs.Document.Fields

/-!
# Objects that agree on a field

What an accessor makes of an object depends on what the object describes, on its kind and on the value
under one key. So two objects that agree on a key are read alike there, whatever else they hold and
whatever documents they are the fields of.
-/

namespace GameRules

variable {α : Type} {whole other : Json}

/-- Items may be changed if they are decoded as before. -/
theorem decodeItems_map {label : String} {start : Nat} {items : List Json}
    {decode : Json → Decoded α} {change : Json → Json}
    (same : ∀ item ∈ items, decode (change item) = decode item) :
    decodeItems label start (items.map change) (fun item _ => decode item) =
      decodeItems label start items fun item _ => decode item := by
  induction items generalizing start with
  | nil => rfl
  | cons item items ih =>
    obtain ⟨first, others⟩ := List.forall_mem_cons.mp same
    rw [List.map_cons, decodeItems, decodeItems, first, ih others]

/-- What is decoded next may be changed where it is reached. -/
theorem Decoded.bind_congr_of_ok {β : Type} {first : Decoded α} {next after : α → Decoded β}
    (same : ∀ value, first = .ok value → next value = after value) :
    first >>= next = first >>= after := by
  cases first with
  | error error => rfl
  | ok value => exact same value rfl

namespace Fields

variable (fields : Fields whole) (key label : String) (decode : Json → Decoded α)

/-- A node is decoded from the value of its field alone. -/
theorem node?_eq : fields.node? key (fun part _ => decode part) =
    match fields.value? key with
    | none => .ok none
    | some value => some <$> Decoded.inside (.field key) (decode value) := by
  unfold node?
  split
  · rename_i absent
    rw [absent]
  · rename_i given
    simp only [given]

/-- A required node is decoded from the value of its field alone. -/
theorem requiredNode_eq : fields.requiredNode key (fun part _ => decode part) =
    match fields.value? key with
    | none => Decoded.fail (fields.missing key)
    | some value => Decoded.inside (.field key) (decode value) := by
  unfold requiredNode
  split
  · rename_i absent
    rw [absent]
  · rename_i given
    simp only [given]

/-- A list of nodes is decoded from the value of its field alone. -/
theorem list_eq : fields.list key label (fun part _ => decode part) =
    match fields.value? key with
    | none => .ok []
    | some (.array items) => decodeItems label 0 items fun item _ => decode item
    | some value => Decoded.fail (fields.wrongType key "a list" value) := by
  unfold list
  split
  · rename_i absent
    rw [absent]
  · rename_i given
    simp only [given]
  · rename_i given
    simp only [given]

/-- A mapping to nodes is decoded from the value of its field alone. -/
theorem mapping_eq : fields.mapping key (fun part _ => decode part) =
    match fields.value? key with
    | none => .ok []
    | some (.object entries) => decodeEntries (.entry key) entries fun _ value _ => decode value
    | some value => Decoded.fail (fields.wrongType key "a mapping" value) := by
  unfold mapping
  split
  · rename_i absent
    rw [absent]
  · rename_i given
    simp only [given]
  · rename_i given
    simp only [given]

variable {fields key}

/-- Two objects describe the same, are of the same kind and hold the same under a key. -/
structure Agree (left : Fields whole) (right : Fields other) (key : String) : Prop where
  /-- They describe the same. -/
  node : left.node = right.node
  /-- They are of the same kind. -/
  kind : left.kind = right.kind
  /-- They hold the same under the key, where null counts as nothing. -/
  value : left.value? key = right.value? key

namespace Agree

variable {left : Fields whole} {right : Fields other} (agree : Agree left right key)

include agree

/-- The same error is reported if the key is missing. -/
theorem missing : left.missing key = right.missing key := by
  rw [Fields.missing, Fields.missing, agree.node, agree.kind]

/-- The same error is reported for a value of the wrong type. -/
theorem wrongType (expected : String) (found : Json) :
    left.wrongType key expected found = right.wrongType key expected found := by
  rw [Fields.wrongType, Fields.wrongType, agree.node]

/-- A value is given in both or in neither. -/
theorem has : left.has key = right.has key := by
  rw [Fields.has, Fields.has, agree.value]

/-- The same text is read. -/
theorem string? : left.string? key = right.string? key := by
  simp only [Fields.string?, agree.value, agree.wrongType]

/-- The same text is read where an empty one counts as none. -/
theorem nonemptyString? : left.nonemptyString? key = right.nonemptyString? key := by
  rw [Fields.nonemptyString?, Fields.nonemptyString?, agree.string?]

/-- The same text is read where one is required. -/
theorem requiredString : left.requiredString key = right.requiredString key := by
  rw [Fields.requiredString, Fields.requiredString, agree.nonemptyString?, agree.missing]

/-- The same reference is read where one is required. -/
theorem requiredPath : left.requiredPath key = right.requiredPath key := by
  rw [Fields.requiredPath, Fields.requiredPath, agree.requiredString]

/-- The same reference is read. -/
theorem path? : left.path? key = right.path? key := by
  rw [Fields.path?, Fields.path?, agree.nonemptyString?]

/-- The same truth value is read. -/
theorem bool? : left.bool? key = right.bool? key := by
  simp only [Fields.bool?, agree.value, agree.wrongType]

/-- The same whole number is read, of 64 bits with sign. -/
theorem int64? : left.int64? key = right.int64? key := by
  simp only [Fields.int64?, agree.value, agree.wrongType]

/-- The same whole number is read, of 32 bits with sign. -/
theorem int32? : left.int32? key = right.int32? key := by
  rw [Fields.int32?, Fields.int32?, agree.int64?]

/-- The same whole number is read, of 32 bits without sign. -/
theorem nat32? : left.nat32? key = right.nat32? key := by
  simp only [Fields.nat32?, agree.value, agree.wrongType]

/-- The same number is read. -/
theorem number? : left.number? key = right.number? key := by
  simp only [Fields.number?, agree.value, agree.wrongType]

/-- The same texts are read from the items of a list. -/
theorem stringItems (items : List Json) : left.stringItems key items = right.stringItems key items := by
  induction items with
  | nil => rfl
  | cons item items ih => cases item <;> simp only [Fields.stringItems, agree.wrongType, ih]

/-- The same texts are read. -/
theorem strings : left.strings key = right.strings key := by
  simp only [Fields.strings, agree.value, agree.wrongType, agree.stringItems]

/-- The same value of a vocabulary is read. -/
theorem keyword? [Keyword α] : (left.keyword? key : Decoded (Option α)) = right.keyword? key := by
  rw [Fields.keyword?, Fields.keyword?, agree.string?]

/-- The same value is found where one is required. -/
theorem required : left.required key = right.required key := by
  rw [Fields.required, Fields.required, agree.value, agree.missing]

variable (decode : Json → Decoded α)

/-- The same node is decoded. -/
theorem node? :
    left.node? key (fun part _ => decode part) = right.node? key fun part _ => decode part := by
  rw [node?_eq, node?_eq, agree.value]

/-- The same node is decoded where one is required. -/
theorem requiredNode : left.requiredNode key (fun part _ => decode part) =
    right.requiredNode key fun part _ => decode part := by
  rw [requiredNode_eq, requiredNode_eq, agree.value, agree.missing]

/-- The same list is decoded. -/
theorem list (label : String) : left.list key label (fun part _ => decode part) =
    right.list key label fun part _ => decode part := by
  simp only [list_eq, agree.value, agree.wrongType]

/-- The same mapping is decoded. -/
theorem mapping :
    left.mapping key (fun part _ => decode part) = right.mapping key fun part _ => decode part := by
  simp only [mapping_eq, agree.value, agree.wrongType]

end Agree

/-- Objects that agree on their types are read to be of the same kind. -/
theorem Agree.kindWord {left : Fields whole} {right : Fields other}
    (typed : Agree left right "type") : left.kindWord = right.kindWord := by
  rw [Fields.kindWord, Fields.kindWord, kindWord?, kindWord?, typed.nonemptyString?, typed.node]

end Fields

end GameRules
