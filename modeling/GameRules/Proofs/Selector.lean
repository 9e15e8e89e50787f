import GameRules.Proofs.Where
import GameRules.Selector

/-!
# Selectors are read back

A selector names its collection, and the distances that it chooses by do not exclude each other.
-/

namespace GameRules

/-- What a choice by distance is that was decoded. -/
structure ProximitySelector.WellFormed (selector : ProximitySelector) : Prop where
  /-- The position was given. -/
  position : selector.position.Given
  /-- The place was given. -/
  origin : selector.origin.Given
  /-- The number of entities fits 32 bits. -/
  limit : ∀ number, selector.limit = some number → number < 2 ^ 32
  /-- The least distance is at most the greatest. -/
  bounds : ProximitySelector.boundsFault? selector.minDistance selector.maxDistance = none

/-- What a choice of entities is that was decoded. -/
def Choice.WellFormed : Choice → Prop
  | .all => True
  | .filter condition => condition.WellFormed
  | .single id => id.Given
  | .related relation source => relation ≠ "" ∧ source.Given
  | .proximity _ selector => selector.WellFormed

/-- What a selector is that was decoded. -/
structure Selector.WellFormed (selector : Selector) : Prop where
  /-- The collection has a name. -/
  entity : selector.entity ≠ ""
  /-- The choice is well-formed. -/
  choice : selector.choice.WellFormed

/-- The fields that a selector compares. -/
def Selector.leaves (selector : Selector) : List Leaf :=
  match selector.choice with
  | .filter condition => condition.leaves
  | _ => []

namespace ProximitySelector

variable {whole : Json} {fields : Fields whole} {selector : ProximitySelector}

/-- A decoded choice by distance is well-formed. -/
theorem wellFormed_of_decode (decoded : decode fields = .ok selector) : selector.WellFormed := by
  simp only [decode, Decoded.bind_eq_ok_iff] at decoded
  obtain ⟨position, readPosition, origin, readOrigin, limit, readLimit, greatest, -, least, -,
    unit, -, decoded⟩ := decoded
  have operands := Operand.partsSatisfy whole
  split at decoded
  · exact absurd decoded Decoded.fail_ne_ok
  · rename_i bounds
    cases Decoded.pure_eq_ok_iff.mp decoded
    exact ⟨operands.requiredOperand readPosition, operands.requiredOperand readOrigin,
      (Fields.nat32?_eq_ok_iff.mp readLimit).2, bounds⟩

/-- A choice by distance is read back from the fields that it was written into. -/
theorem decode_of_encodeInto {kind : SelectorKind} {entity : String}
    (wellFormed : selector.WellFormed)
    (written : fields.entries =
      selector.encodeInto ((Record.typed kind).text "entity" entity)) :
    decode fields = .ok selector := by
  simp only [decode, Decoded.bind_eq_ok_iff]
  have fillsPosition := Operand.fills_of_given _ wellFormed.position
  have fillsOrigin := Operand.fills_of_given _ wellFormed.origin
  refine ⟨selector.position, fillsPosition.required (by simp [written, encodeInto]),
    selector.origin, fillsOrigin.required (by simp [written, encodeInto]),
    selector.limit, Fields.nat32?_of_lookup (by simp [written, encodeInto]) wellFormed.limit,
    selector.maxDistance, Fields.number?_of_lookup (by simp [written, encodeInto]),
    selector.minDistance, Fields.number?_of_lookup (by simp [written, encodeInto]),
    selector.unit, Fields.keyword?_of_lookup (by simp [written, encodeInto]), ?_⟩
  rw [wellFormed.bounds]
  rfl

end ProximitySelector

namespace Selector

variable {whole : Json} {fields : Fields whole}

/-- A decoded choice of entities is well-formed. -/
theorem wellFormed_of_decodeChoice {kind : SelectorKind} {choice : Choice}
    (decoded : decodeChoice kind fields = .ok choice) : choice.WellFormed := by
  have operands := Operand.partsSatisfy whole
  cases kind with
  | all =>
    cases decoded
    trivial
  | filter =>
    obtain ⟨condition, read, rfl⟩ := Decoded.map_eq_ok_iff.mp decoded
    exact (WhereClause.partsSatisfy whole).requiredNode read
  | single =>
    obtain ⟨id, read, rfl⟩ := Decoded.map_eq_ok_iff.mp decoded
    exact operands.requiredOperand read
  | related =>
    simp only [decodeChoice, Decoded.bind_eq_ok_iff, Decoded.pure_eq_ok_iff] at decoded
    obtain ⟨relation, readRelation, source, readSource, rfl⟩ := decoded
    exact ⟨(Fields.requiredString_eq_ok_iff.mp readRelation).2, operands.requiredOperand readSource⟩
  | proximity which =>
    obtain ⟨selector, read, rfl⟩ := Decoded.map_eq_ok_iff.mp decoded
    exact ProximitySelector.wellFormed_of_decode read

/-- A decoded selector is well-formed. -/
theorem wellFormed_of_decode {document : Json} {selector : Selector}
    (decoded : decode document = .ok selector) : selector.WellFormed := by
  simp only [decode, Decoded.bind_eq_ok_iff, Decoded.pure_eq_ok_iff] at decoded
  obtain ⟨untyped, -, word, -, kind, -, entity, readEntity, choice, readChoice, rfl⟩ := decoded
  exact ⟨(Fields.requiredString_eq_ok_iff.mp readEntity).2, wellFormed_of_decodeChoice readChoice⟩

/-- A selector is read back if its choice of entities is. -/
theorem decode_of_choice {record : Record} {entity : String} {choice : Choice} (named : entity ≠ "")
    (typed : record.lookup "type" = some (.string (Keyword.word choice.kind)))
    (written : record.lookup "entity" = some (.string entity))
    (read : decodeChoice choice.kind
      ((record.fields .selector).forKind (Keyword.word choice.kind)) = .ok choice) :
    decode record.build = .ok ⟨entity, choice⟩ := by
  rw [decode, Record.bind_kind choice.kind typed]
  simp only [Decoded.bind_eq_ok_iff, Decoded.pure_eq_ok_iff]
  exact ⟨entity, Fields.requiredString_of_lookup written named, choice, read, rfl⟩

/-- A well-formed selector is read back if the fields that it compares have names. -/
theorem decode_encode {selector : Selector} (wellFormed : selector.WellFormed)
    (stable : Leaf.AllStable selector.leaves) : decode selector.encode = .ok selector := by
  obtain ⟨entity, choice⟩ := selector
  obtain ⟨named, wellFormed⟩ := wellFormed
  cases choice with
  | all =>
    rw [encode]
    exact decode_of_choice named (by simp [kind]) (by simp) rfl
  | filter condition =>
    have fills := WhereClause.fills (WhereClause.decode_encode condition wellFormed stable)
    rw [encode]
    refine decode_of_choice named (by simp [kind]) (by simp) ?_
    exact Decoded.map_eq_ok_iff.mpr ⟨condition, fills.required (by simp), rfl⟩
  | single id =>
    have fills := Operand.fills_of_given id wellFormed
    rw [encode]
    refine decode_of_choice named (by simp [kind]) (by simp) ?_
    exact Decoded.map_eq_ok_iff.mpr ⟨id, fills.required (by simp), rfl⟩
  | related relation source =>
    have fills := Operand.fills_of_given source wellFormed.2
    rw [encode]
    refine decode_of_choice named (by simp [kind]) (by simp) ?_
    simp only [Choice.kind, decodeChoice, Decoded.bind_eq_ok_iff, Decoded.pure_eq_ok_iff]
    exact ⟨relation, Fields.requiredString_of_lookup (by simp) wellFormed.1,
      source, fills.required (by simp), rfl⟩
  | proximity which selector =>
    rw [encode]
    refine decode_of_choice named (by simp [kind, ProximitySelector.encodeInto])
      (by simp [ProximitySelector.encodeInto]) ?_
    exact Decoded.map_eq_ok_iff.mpr
      ⟨selector, ProximitySelector.decode_of_encodeInto wellFormed rfl, rfl⟩

end Selector

end GameRules
