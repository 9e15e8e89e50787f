import GameRules.Proofs.Where
import GameRules.View.Operation

/-!
# Stages of a view are read back

Numbers of rows fit 32 bits, references are not empty, and a distance is measured to some place. With
these invariants of decoding, a stage is read back from its document.
-/

namespace GameRules

/-- What a choice by distance is that was decoded. -/
structure ProximityOperation.WellFormed (operation : ProximityOperation) : Prop where
  /-- The place was given. -/
  origin : operation.origin.Given
  /-- The field is not an empty text. -/
  field : operation.field ≠ some ⟨""⟩
  /-- The number of rows fits 32 bits. -/
  count : ∀ number, operation.count = some number → number < 2 ^ 32

/-- What a stage is that was decoded. -/
def ViewOperation.WellFormed : ViewOperation → Prop
  | .filter condition => condition.WellFormed
  | .map _ => True
  | .sort by_ _ => by_.raw ≠ ""
  | .window _ count => count < 2 ^ 32
  | .groupBy groupField _ path => groupField.raw ≠ "" ∧ path ≠ some ⟨""⟩
  | .field _ path => path.raw ≠ ""
  | .distance start finish origin _ =>
    Operand.GivenOptional start ∧ Operand.GivenOptional finish ∧ Operand.GivenOptional origin ∧
      (finish.isNone && origin.isNone) = false
  | .proximity _ operation => operation.WellFormed
  | .rows _ => True

/-- The fields that a stage compares. -/
def ViewOperation.leaves : ViewOperation → List Leaf
  | .filter condition => condition.leaves
  | _ => []

namespace ProximityOperation

variable {whole : Json} {fields : Fields whole} {operation : ProximityOperation}

/-- A decoded choice by distance is well-formed. -/
theorem wellFormed_of_decode (decoded : decode fields = .ok operation) : operation.WellFormed := by
  simp only [decode, Decoded.bind_eq_ok_iff, Decoded.pure_eq_ok_iff] at decoded
  obtain ⟨origin, readOrigin, field, readField, count, readCount, _, -, _, -, _, -, rfl⟩ := decoded
  have given := (Operand.partsSatisfy whole).requiredOperand readOrigin
  exact ⟨given, Fields.path?_ne_empty readField, (Fields.nat32?_eq_ok_iff.mp readCount).2⟩

/-- A choice by distance is read back from the fields that it was written into. -/
theorem decode_of_encodeInto {kind : ViewOperationKind} (wellFormed : operation.WellFormed)
    (written : fields.entries = operation.encodeInto (Record.typed kind)) :
    decode fields = .ok operation := by
  simp only [decode, Decoded.bind_eq_ok_iff, Decoded.pure_eq_ok_iff]
  have fills := Operand.fills_of_given _ wellFormed.origin
  exact ⟨operation.origin, fills.required (by simp [written, encodeInto]),
    operation.field, Fields.path?_of_lookup (by simp [written, encodeInto]) wellFormed.field,
    operation.count, Fields.nat32?_of_lookup (by simp [written, encodeInto]) wellFormed.count,
    operation.maxDistance, Fields.number?_of_lookup (by simp [written, encodeInto]),
    operation.minDistance, Fields.number?_of_lookup (by simp [written, encodeInto]),
    operation.unit, Fields.keyword?_of_lookup (by simp [written, encodeInto]), rfl⟩

end ProximityOperation

namespace ViewOperation

/-- A decoded stage is well-formed. -/
theorem wellFormed_of_decode {document : Json} {operation : ViewOperation}
    (decoded : decode document = .ok operation) : operation.WellFormed := by
  simp only [decode, Decoded.bind_eq_ok_iff] at decoded
  obtain ⟨untyped, -, word, -, kind, -, decoded⟩ := decoded
  have operands := Operand.partsSatisfy document
  cases kind with
  | filter =>
    obtain ⟨condition, read, rfl⟩ := Decoded.map_eq_ok_iff.mp decoded
    exact (WhereClause.partsSatisfy document).requiredNode read
  | map =>
    simp only [Decoded.bind_eq_ok_iff] at decoded
    obtain ⟨value, -, decoded⟩ := decoded
    split at decoded
    · cases Decoded.pure_eq_ok_iff.mp decoded
      trivial
    · exact absurd decoded Decoded.fail_ne_ok
  | sort =>
    simp only [Decoded.bind_eq_ok_iff, Decoded.pure_eq_ok_iff] at decoded
    obtain ⟨path, read, order, -, rfl⟩ := decoded
    exact (Fields.requiredPath_eq_ok_iff.mp read).2
  | window kept =>
    simp only [Decoded.bind_eq_ok_iff, Decoded.pure_eq_ok_iff] at decoded
    obtain ⟨_, -, count, read, rfl⟩ := decoded
    exact Fields.getD_lt_of_nat32? (Nat.two_pow_pos 32) read
  | groupBy =>
    simp only [Decoded.bind_eq_ok_iff, Decoded.pure_eq_ok_iff] at decoded
    obtain ⟨groupField, readGroup, aggregate, -, path, readPath, rfl⟩ := decoded
    exact ⟨(Fields.requiredPath_eq_ok_iff.mp readGroup).2, Fields.path?_ne_empty readPath⟩
  | field stage =>
    obtain ⟨path, read, rfl⟩ := Decoded.map_eq_ok_iff.mp decoded
    exact (Fields.requiredPath_eq_ok_iff.mp read).2
  | distance =>
    simp only [Decoded.bind_eq_ok_iff] at decoded
    obtain ⟨start, readStart, finish, readFinish, origin, readOrigin, unit, -, decoded⟩ := decoded
    split at decoded
    · exact absurd decoded Decoded.fail_ne_ok
    · rename_i somewhere
      cases Decoded.pure_eq_ok_iff.mp decoded
      exact ⟨operands.optionalOperand readStart, operands.optionalOperand readFinish,
        operands.optionalOperand readOrigin, Bool.eq_false_iff.mpr somewhere⟩
  | proximity which =>
    obtain ⟨operation, read, rfl⟩ := Decoded.map_eq_ok_iff.mp decoded
    exact ProximityOperation.wellFormed_of_decode read
  | rows stage =>
    cases Decoded.pure_eq_ok_iff.mp decoded
    trivial

/-- A well-formed stage is read back if the fields that it compares have names. -/
theorem decode_encode {operation : ViewOperation} (wellFormed : operation.WellFormed)
    (stable : Leaf.AllStable operation.leaves) : decode operation.encode = .ok operation := by
  cases operation with
  | filter condition =>
    have fills := WhereClause.fills (WhereClause.decode_encode condition wellFormed stable)
    rw [encode, decode, Record.bind_kind ViewOperationKind.filter (by simp [kind])]
    exact Decoded.map_eq_ok_iff.mpr ⟨condition, fills.required (by simp), rfl⟩
  | map entries =>
    rw [encode, decode, Record.bind_kind ViewOperationKind.map (by simp [kind])]
    simp only [Decoded.bind_eq_ok_iff]
    exact ⟨.object entries, Fields.required_eq_ok_iff.mpr (Fields.value?_of_lookup (by simp) rfl),
      rfl⟩
  | sort path order =>
    rw [encode, decode, Record.bind_kind ViewOperationKind.sort (by simp [kind])]
    simp only [Decoded.bind_eq_ok_iff, Decoded.pure_eq_ok_iff]
    exact ⟨path, Fields.requiredPath_of_lookup (by simp) wellFormed,
      some order, Fields.keyword?_of_lookup (by simp), rfl⟩
  | window kept count =>
    rw [encode, decode, Record.bind_kind (ViewOperationKind.window kept) (by simp [kind])]
    simp only [Decoded.bind_eq_ok_iff, Decoded.pure_eq_ok_iff]
    have narrow : ∀ number, some count = some number → number < 2 ^ 32 := by
      rintro _ ⟨⟩
      exact wellFormed
    exact ⟨.int count, Fields.required_eq_ok_iff.mpr (Fields.value?_of_lookup (by simp) rfl),
      some count, Fields.nat32?_of_lookup (by simp) narrow, rfl⟩
  | groupBy groupField aggregate path =>
    rw [encode, decode, Record.bind_kind ViewOperationKind.groupBy (by simp [kind])]
    simp only [Decoded.bind_eq_ok_iff, Decoded.pure_eq_ok_iff]
    exact ⟨groupField, Fields.requiredPath_of_lookup (by simp) wellFormed.1,
      aggregate, Fields.keyword?_of_lookup (by simp),
      path, Fields.path?_of_lookup (by simp) wellFormed.2, rfl⟩
  | field stage path =>
    rw [encode, decode, Record.bind_kind (ViewOperationKind.field stage) (by simp [kind])]
    exact Decoded.map_eq_ok_iff.mpr
      ⟨path, Fields.requiredPath_of_lookup (by simp) wellFormed, rfl⟩
  | distance start finish origin unit =>
    obtain ⟨givenStart, givenFinish, givenOrigin, somewhere⟩ := wellFormed
    rw [encode, decode, Record.bind_kind ViewOperationKind.distance (by simp [kind])]
    simp only [Decoded.bind_eq_ok_iff]
    refine ⟨start, Fills.optional (Operand.fills_of_givenOptional start givenStart) (by simp [kind]),
      finish, Fills.optional (Operand.fills_of_givenOptional finish givenFinish) (by simp [kind]),
      origin, Fills.optional (Operand.fills_of_givenOptional origin givenOrigin) (by simp [kind]),
      unit, Fields.keyword?_of_lookup (by simp [kind]), ?_⟩
    rw [if_neg (by simp [somewhere])]
    rfl
  | proximity which operation =>
    rw [encode, decode, Record.bind_kind (ViewOperationKind.proximity which)
      (by simp [kind, ProximityOperation.encodeInto])]
    exact Decoded.map_eq_ok_iff.mpr
      ⟨operation, ProximityOperation.decode_of_encodeInto wellFormed rfl, rfl⟩
  | rows stage =>
    rw [encode, decode, Record.bind_kind (ViewOperationKind.rows stage) (by simp [kind])]
    rfl

end ViewOperation

end GameRules
