import GameRules.Filter
import GameRules.Proofs.Where

/-!
# Filters are read back

The former word for keeping what matches is read but never written. A field may be replaced by null,
which is then left to its default when the filter is read back.
-/

namespace GameRules

/-- What happens to what matches, as it was decoded. -/
def Masking.WellFormed : Masking → Prop
  | .keep => True
  | .remove => True
  | .hideFields _ => True
  | .replaceField field value => field ≠ "" ∧ value.WellFormed

/-- What a stage of a filter is that was decoded. -/
structure FilterOperation.WellFormed (operation : FilterOperation) : Prop where
  /-- The location is not an empty text. -/
  target : operation.target.raw ≠ ""
  /-- The condition is well-formed. -/
  condition : ∀ clause, operation.condition = some clause → clause.WellFormed
  /-- What happens to what matches is well-formed. -/
  masking : operation.masking.WellFormed

/-- What a filter is that was decoded. -/
structure Filter.WellFormed (filter : Filter) : Prop where
  /-- The filter has a name. -/
  name : filter.name ≠ ""
  /-- The stages are well-formed. -/
  operations : ∀ operation ∈ filter.operations, operation.WellFormed

/-- The fields that a stage compares. -/
def FilterOperation.leaves (operation : FilterOperation) : List Leaf :=
  operation.condition.toList.flatMap WhereClause.leaves

/-- The fields that the stages of a filter compare. -/
def Filter.leaves (filter : Filter) : List Leaf := filter.operations.flatMap FilterOperation.leaves

namespace FilterOperation

variable {whole : Json} {fields : Fields whole}

/-- The kind that was written is read back from its word, which is not the former one. -/
theorem decodeKind_word (kind : FilterOperationKind) :
    decodeKind fields (Keyword.word kind) = .ok kind := by
  have current : Keyword.word kind ≠ formerKeepWord := by cases kind <;> decide
  rw [decodeKind, if_neg current]
  exact Fields.kindOf_eq_ok_iff.mpr (Keyword.parse?_word kind)

/-- What happens to what matches is well-formed. -/
theorem wellFormed_of_decodeMasking {kind : FilterOperationKind} {masking : Masking}
    (decoded : decodeMasking kind fields = .ok masking) : masking.WellFormed := by
  cases kind with
  | keepWhere =>
    cases decoded
    trivial
  | removeWhere =>
    cases decoded
    trivial
  | hideFieldsWhere =>
    simp only [decodeMasking, Decoded.bind_eq_ok_iff, Decoded.pure_eq_ok_iff] at decoded
    obtain ⟨_, -, hidden, -, rfl⟩ := decoded
    trivial
  | replaceFieldWhere =>
    simp only [decodeMasking, Decoded.bind_eq_ok_iff, Decoded.pure_eq_ok_iff] at decoded
    obtain ⟨field, readField, value, readValue, rfl⟩ := decoded
    refine ⟨(Fields.requiredString_eq_ok_iff.mp readField).2, ?_⟩
    cases value with
    | none =>
      refine ⟨rfl, fun text same => ?_⟩
      cases same
    | some value => exact (Operand.partsSatisfy whole).node? readValue value rfl

/-- A decoded stage is well-formed. -/
theorem wellFormed_of_decode {document : Json} {operation : FilterOperation}
    (decoded : decode document = .ok operation) : operation.WellFormed := by
  simp only [decode, Decoded.bind_eq_ok_iff, Decoded.pure_eq_ok_iff] at decoded
  obtain ⟨untyped, -, word, -, kind, -, masking, readMasking, target, readTarget, condition,
    readCondition, rfl⟩ := decoded
  exact ⟨(Fields.requiredPath_eq_ok_iff.mp readTarget).2,
    (WhereClause.partsSatisfy document).node? readCondition,
    wellFormed_of_decodeMasking readMasking⟩

/-- A value that replaces a field is read back, null as the default. -/
theorem replacement_of_lookup (field : String) {value : Operand} (wellFormed : value.WellFormed)
    (written : fields.entries.lookup "value" = some value.encode) :
    ∃ read, fields.node? "value" (fun part _ => Operand.decode part) = .ok read ∧
      Masking.replaceField field (read.getD (.literal .null)) = .replaceField field value := by
  by_cases null : value = .literal .null
  · subst null
    have absent : fields.value? "value" = none := by
      rw [Fields.value?, written]
      rfl
    exact ⟨none, Fields.node?_eq_ok_iff.mpr (.inl ⟨absent, rfl⟩), rfl⟩
  · have fills := Operand.fills null (Operand.decode_encode value wellFormed)
    exact ⟨some value, fills.present written, rfl⟩

/-- A stage is read back if what happens to what matches is. -/
theorem decode_build {record : Record} {operation : FilterOperation}
    (wellFormed : operation.WellFormed) (stable : Leaf.AllStable operation.leaves)
    (typed : record.lookup "type" = some (.string (Keyword.word operation.kind)))
    (target : record.lookup "target" = some (.string operation.target.raw))
    (condition : record.lookup "where" = operation.condition.map WhereClause.encode)
    (masking : decodeMasking operation.kind
      ((record.fields .filterOperation).forKind (Keyword.word operation.kind)) =
        .ok operation.masking) :
    decode record.build = .ok operation := by
  have fills : ∀ clause, operation.condition = some clause →
      Fills WhereClause.decode clause.encode clause := by
    intro clause there
    refine WhereClause.fills (WhereClause.decode_encode clause (wellFormed.condition clause there) ?_)
    simpa [leaves, there] using stable
  have word : (record.fields .filterOperation).kindWord = .ok (Keyword.word operation.kind) :=
    Fields.kindWord_eq_ok_iff.mpr
      ⟨Fields.value?_of_lookup typed rfl, Keyword.Lawful.word_ne_empty operation.kind⟩
  simp only [decode, Decoded.bind_eq_ok_iff, Decoded.pure_eq_ok_iff]
  exact ⟨_, Record.of_build _ _, _, word, operation.kind, decodeKind_word operation.kind,
    operation.masking, masking,
    operation.target, Fields.requiredPath_of_lookup target wellFormed.target,
    operation.condition, Fills.optional fills condition, rfl⟩

/-- A well-formed stage is read back if the fields that it compares have names. -/
theorem decode_encode {operation : FilterOperation} (wellFormed : operation.WellFormed)
    (stable : Leaf.AllStable operation.leaves) : decode operation.encode = .ok operation := by
  have maskingFormed := wellFormed.masking
  obtain ⟨target, condition, masking⟩ := operation
  cases masking with
  | keep =>
    rw [encode]
    exact decode_build wellFormed stable (by simp) (by simp) (by simp) rfl
  | remove =>
    rw [encode]
    exact decode_build wellFormed stable (by simp) (by simp) (by simp) rfl
  | hideFields hidden =>
    rw [encode]
    refine decode_build wellFormed stable (by simp) (by simp) (by simp) ?_
    simp only [kind, Masking.kind, decodeMasking, Decoded.bind_eq_ok_iff, Decoded.pure_eq_ok_iff]
    exact ⟨.strings hidden, Fields.required_eq_ok_iff.mpr (Fields.value?_of_lookup (by simp) rfl),
      hidden,
      Fields.strings_eq_ok_iff.mpr (.inr (.inr (Fields.value?_of_lookup (by simp) rfl))), rfl⟩
  | replaceField field value =>
    obtain ⟨named, valueFormed⟩ := maskingFormed
    rw [encode]
    refine decode_build wellFormed stable (by simp) (by simp) (by simp) ?_
    simp only [kind, Masking.kind, decodeMasking, Decoded.bind_eq_ok_iff, Decoded.pure_eq_ok_iff]
    exact ⟨field, Fields.requiredString_of_lookup (by simp) named,
      replacement_of_lookup field valueFormed (by simp)⟩

end FilterOperation

namespace Filter

/-- A decoded filter is well-formed. -/
theorem wellFormed_of_decode {document : Json} {filter : Filter}
    (decoded : decode document = .ok filter) : filter.WellFormed := by
  simp only [decode, Decoded.bind_eq_ok_iff, Decoded.pure_eq_ok_iff,
    Decoded.inside_eq_ok_iff] at decoded
  obtain ⟨fields, -, name, readName, _, -, _, -, operations, readOperations, rfl⟩ := decoded
  have parts : PartsSatisfy document FilterOperation.decode FilterOperation.WellFormed :=
    fun _ _ _ => FilterOperation.wellFormed_of_decode
  exact ⟨(Fields.requiredString_eq_ok_iff.mp readName).2, parts.list readOperations⟩

/-- A well-formed filter is read back if the fields that it compares have names. -/
theorem decode_encode {filter : Filter} (wellFormed : filter.WellFormed)
    (stable : Leaf.AllStable filter.leaves) : decode filter.encode = .ok filter := by
  obtain ⟨name, description, enabled, operations⟩ := filter
  have read := Fills.forall₂_map fun operation member =>
    FilterOperation.decode_encode (wellFormed.operations operation member) fun leaf inside =>
      stable leaf (List.mem_flatMap.mpr ⟨operation, member, inside⟩)
  rw [encode, decode]
  simp only [Decoded.bind_eq_ok_iff, Decoded.pure_eq_ok_iff, Decoded.inside_eq_ok_iff]
  exact ⟨_, Record.of_build _ _, name, Fields.requiredString_of_lookup (by simp) wellFormed.name,
    description, Fields.string?_of_lookup (by simp), enabled, Fields.bool?_of_lookup (by simp),
    operations, Fills.nonemptyList read (by simp), rfl⟩

end Filter

end GameRules
