import GameRules.Proofs.Nesting.View
import GameRules.Proofs.RoundTrip

/-!
# How deep rules are written

Whatever a document is decoded to is written at most two levels deeper than it was read. The two
levels are those of a condition on entities in the short form; they are not gained again by what
holds such a condition.
-/

namespace GameRules

open Record

/-- Triggers are written at most two levels deeper than they were read. -/
theorem Trigger.deepens (bound : Nat) : Deepens 2 bound decode encode := by
  intro depth _ document sound trigger decoded
  simp only [decode, Decoded.bind_eq_ok_iff, Decoded.pure_eq_ok_iff] at decoded
  obtain ⟨untyped, readFields, word, -, kind, -, activation, decoded, enabled, -, rfl⟩ := decoded
  obtain ⟨less, rfl, within⟩ := Fields.within_forKind_of readFields sound word
  have operands := Operand.deepens less Nat.two_pos
  have begun {kind : TriggerKind} : Entries.Within (less + 2)
      ((typed kind).optional "enabled" (enabled.map Json.bool)) :=
    within_optionalBool within_typed
  unfold encode
  refine sound_build ?_
  unfold decodeActivation at decoded
  cases kind with
  | tick =>
    simp only [Decoded.bind_eq_ok_iff] at decoded
    obtain ⟨interval, readInterval, decoded⟩ := decoded
    split at decoded
    · exact absurd decoded Decoded.fail_ne_ok
    · cases Decoded.pure_eq_ok_iff.mp decoded
      have small : interval.getD 1 < 2 ^ 32 := Fields.getD_lt_of_nat32? (by decide) readInterval
      exact within_field begun (Json.sound_int (by omega) _)
  | event =>
    simp only [Decoded.bind_eq_ok_iff, Decoded.pure_eq_ok_iff] at decoded
    obtain ⟨event, -, params, -, condition, readCondition, rfl⟩ := decoded
    exact within_optional (within_nonemptyList (within_text begun) Json.sound_texts)
      ((WhereClause.deepens less).node? within readCondition)
  | change =>
    simp only [Decoded.bind_eq_ok_iff] at decoded
    obtain ⟨texts, -, watch, -, decoded⟩ := decoded
    split at decoded
    · simp only [Decoded.bind_eq_ok_iff] at decoded
      obtain ⟨_, -, decoded⟩ := decoded
      exact absurd decoded Decoded.fail_ne_ok
    · cases Decoded.pure_eq_ok_iff.mp decoded
      exact within_field begun Json.sound_texts
  | distance =>
    simp only [Decoded.bind_eq_ok_iff, Decoded.pure_eq_ok_iff] at decoded
    obtain ⟨start, readStart, finish, readFinish, op, -, value, readValue, unit, -, rfl⟩ := decoded
    exact within_optionalKeyword <| within_field (within_keyword (within_field
      (within_field begun (operands.requiredNode within readStart))
        (operands.requiredNode within readFinish))) (operands.requiredNode within readValue)
  | timer =>
    simp only [Decoded.bind_eq_ok_iff, Decoded.pure_eq_ok_iff] at decoded
    obtain ⟨_, -, _, -, _, -, _, -, rfl⟩ := decoded
    exact within_optionalText (within_field (within_text begun) (Json.sound_bool _ _))
  | cron =>
    simp only [Decoded.bind_eq_ok_iff] at decoded
    obtain ⟨expression, -, decoded⟩ := decoded
    split at decoded
    · cases Decoded.pure_eq_ok_iff.mp decoded
      exact within_text begun
    · exact absurd decoded Decoded.fail_ne_ok
  | schedule =>
    simp only [Decoded.bind_eq_ok_iff] at decoded
    obtain ⟨time, -, interval, -, decoded⟩ := decoded
    split at decoded
    · exact absurd decoded Decoded.fail_ne_ok
    · simp only [Decoded.bind_eq_ok_iff, Decoded.pure_eq_ok_iff] at decoded
      obtain ⟨_, -, weekdays, -, rfl⟩ := decoded
      exact within_nonemptyList
        (within_optionalText (within_optionalText begun)) Json.sound_texts
  | condition =>
    obtain ⟨condition, read, rfl⟩ := Decoded.map_eq_ok_iff.mp decoded
    have conditions := Expression.deepens less Nat.two_pos
    exact within_field begun (conditions.requiredNode within read)
  | start =>
    cases Decoded.pure_eq_ok_iff.mp decoded
    exact begun

namespace Effect

/-- The documents of a list of effects are those of its members. -/
theorem encodeAll_eq_map (effects : List Effect) : encodeAll effects = effects.map encode := by
  induction effects with
  | nil => rfl
  | cons effect effects ih => rw [encodeAll, ih, List.map_cons]

section Fields

variable {whole : Json} {fields : Fields whole} {depth : Nat}
  (within : fields.entries.Within depth)
include within

/-- The value that a location is set to is written at most two levels deeper than the fields. -/
theorem sound_decodeSetValue {value : Operand} (decoded : decodeSetValue fields = .ok value) :
    value.encode.Sound (depth + 2) := by
  unfold decodeSetValue at decoded
  split at decoded
  · cases decoded
    exact Json.sound_null _
  · exact (Operand.deepens depth Nat.two_pos).requiredNode within decoded

/-- The step of a location is written at most two levels deeper than the fields. -/
theorem sound_decodeStep {step : Operand} (decoded : decodeStep fields = .ok step) :
    step.encode.Sound (depth + 2) := by
  simp only [decodeStep, Decoded.bind_eq_ok_iff, Decoded.pure_eq_ok_iff] at decoded
  obtain ⟨written, read, rfl⟩ := decoded
  cases written with
  | none =>
    have one : -(2 ^ 63) ≤ (1 : Int) ∧ (1 : Int) < 2 ^ 64 := by decide
    exact Json.sound_int one _
  | some step =>
    exact (Operand.deepens depth Nat.two_pos).node? within read _ rfl

/-- What happens to a location is written at most two levels deeper than the fields. -/
theorem within_encodeInto {record : Record} {kind : ChangeKind} {change : Change}
    (begun : Entries.Within (depth + 2) record) (decoded : decodeChange kind fields = .ok change) :
    Entries.Within (depth + 2) (change.encodeInto record) := by
  cases kind with
  | set =>
    obtain ⟨value, read, rfl⟩ := Decoded.map_eq_ok_iff.mp decoded
    exact within_field begun (sound_decodeSetValue within read)
  | increment =>
    obtain ⟨step, read, rfl⟩ := Decoded.map_eq_ok_iff.mp decoded
    exact within_field begun (sound_decodeStep within read)
  | decrement =>
    obtain ⟨step, read, rfl⟩ := Decoded.map_eq_ok_iff.mp decoded
    exact within_field begun (sound_decodeStep within read)
  | transform =>
    obtain ⟨computation, read, rfl⟩ := Decoded.map_eq_ok_iff.mp decoded
    have computations := Transform.deepens depth Nat.two_pos
    exact within_field begun (computations.requiredNode within read)
  | setFromView =>
    obtain ⟨value, read, rfl⟩ := Decoded.map_eq_ok_iff.mp decoded
    exact within_field begun ((ValueExpression.deepens depth).requiredNode within read)

end Fields

/-- An effect is written at most two levels deeper if what it is made of is. -/
theorem sound_encode_of_parts {document : Json} {effect : Effect} {depth : Nat}
    (sound : document.Sound depth)
    (parts : ∀ less, depth = less + 1 → Deepens 2 less decode encode)
    (decoded : decode document = .ok effect) : effect.encode.Sound (depth + 2) := by
  rw [decode] at decoded
  simp only [Decoded.bind_eq_ok_iff] at decoded
  obtain ⟨untyped, readFields, ⟨word, kind⟩, -, decoded⟩ := decoded
  obtain ⟨less, rfl, within⟩ := Fields.within_forKind_of readFields sound word
  replace parts := parts less rfl
  have operands := Operand.deepens less Nat.two_pos
  have views := ViewRef.deepens less
  cases kind with
  | mutate kind =>
    simp only [Decoded.bind_eq_ok_iff, Decoded.pure_eq_ok_iff] at decoded
    obtain ⟨targets, readTargets, path, -, change, readChange, rfl⟩ := decoded
    rw [encode]
    refine sound_build (within_encodeInto within ?_ readChange)
    exact within_text (within_optional within_typed (views.node? within readTargets))
  | spawn =>
    simp only [Decoded.bind_eq_ok_iff, Decoded.pure_eq_ok_iff] at decoded
    obtain ⟨entity, -, values, readValues, rfl⟩ := decoded
    rw [encode]
    exact sound_build <| within_nonemptyMapping (within_text within_typed)
      (operands.mapping within Nat.two_pos readValues)
  | destroy =>
    obtain ⟨targets, read, rfl⟩ := Decoded.map_eq_ok_iff.mp decoded
    rw [encode]
    exact sound_build (within_optional within_typed (views.node? within read))
  | emit =>
    simp only [Decoded.bind_eq_ok_iff, Decoded.pure_eq_ok_iff] at decoded
    obtain ⟨event, -, payload, readPayload, rfl⟩ := decoded
    rw [encode]
    exact sound_build <| within_nonemptyMapping (within_text within_typed)
      (operands.mapping within Nat.two_pos readPayload)
  | branch =>
    simp only [Decoded.bind_eq_ok_iff, Decoded.pure_eq_ok_iff] at decoded
    obtain ⟨_, -, condition, readCondition, consequent, readThen, alternative, readElse, rfl⟩ :=
      decoded
    have conditions := Expression.deepens less Nat.two_pos
    have decided : condition.encode.Sound (less + 2) :=
      conditions.requiredNode within readCondition
    rw [encode, encodeAll_eq_map, encodeAll_eq_map]
    exact sound_build <| within_nonemptyList
      (within_list (within_field within_typed decided) (parts.list within Nat.two_pos readThen))
      (parts.list within Nat.two_pos readElse)
  | sequence =>
    simp only [Decoded.bind_eq_ok_iff, Decoded.pure_eq_ok_iff] at decoded
    obtain ⟨_, -, effects, read, rfl⟩ := decoded
    rw [encode, encodeAll_eq_map]
    exact sound_build (within_list within_typed (parts.list within Nat.two_pos read))
  | control op =>
    obtain ⟨target, -, rfl⟩ := Decoded.map_eq_ok_iff.mp decoded
    rw [encode]
    exact sound_build (within_text within_typed)
  | log =>
    simp only [Decoded.bind_eq_ok_iff, Decoded.pure_eq_ok_iff] at decoded
    obtain ⟨message, read, level, -, rfl⟩ := decoded
    rw [encode]
    exact sound_build <|
      within_keyword (within_field within_typed (operands.requiredNode within read))

/-- Effects are written at most two levels deeper than they were read. -/
theorem deepens (bound : Nat) : Deepens 2 bound decode encode := by
  induction bound using Nat.strongRecOn with
  | _ bound ih =>
    intro depth inBound document sound effect decoded
    have parts (less : Nat) (deep : depth = less + 1) : Deepens 2 less decode encode :=
      ih less (by omega)
    exact sound_encode_of_parts sound parts decoded

end Effect

/-- Stages of a filter are written at most two levels deeper than they were read. -/
theorem FilterOperation.deepens (bound : Nat) : Deepens 2 bound decode encode := by
  intro depth _ document sound operation decoded
  simp only [decode, Decoded.bind_eq_ok_iff, Decoded.pure_eq_ok_iff] at decoded
  obtain ⟨untyped, readFields, word, -, kind, -, masking, readMasking, target, -, condition,
    readCondition, rfl⟩ := decoded
  obtain ⟨less, rfl, within⟩ := Fields.within_forKind_of readFields sound word
  have begun {kind : FilterOperationKind} : Entries.Within (less + 2)
      ((typed kind).text "target" target.raw |>.optional "where"
        (condition.map WhereClause.encode)) :=
    within_optional (within_text within_typed)
      ((WhereClause.deepens less).node? within readCondition)
  unfold encode
  refine sound_build ?_
  cases kind with
  | keepWhere =>
    cases readMasking
    exact begun
  | removeWhere =>
    cases readMasking
    exact begun
  | hideFieldsWhere =>
    simp only [decodeMasking, Decoded.bind_eq_ok_iff, Decoded.pure_eq_ok_iff] at readMasking
    obtain ⟨_, -, hidden, -, rfl⟩ := readMasking
    exact within_field begun Json.sound_texts
  | replaceFieldWhere =>
    simp only [decodeMasking, Decoded.bind_eq_ok_iff, Decoded.pure_eq_ok_iff] at readMasking
    obtain ⟨field, -, value, readValue, rfl⟩ := readMasking
    refine within_field (within_text begun) ?_
    cases value with
    | none => exact Json.sound_null _
    | some value =>
      exact (Operand.deepens less Nat.two_pos).node? within readValue _ rfl

/-- Filters are written at most two levels deeper than they were read. -/
theorem Filter.deepens (bound : Nat) : Deepens 2 bound decode encode := by
  intro depth _ document sound filter decoded
  simp only [decode, Decoded.bind_eq_ok_iff, Decoded.pure_eq_ok_iff, Decoded.inside_eq_ok_iff]
    at decoded
  obtain ⟨fields, readFields, name, -, description, -, enabled, -, operations, readOperations,
    rfl⟩ := decoded
  obtain ⟨less, rfl, within⟩ := Fields.within_of readFields sound
  rw [encode]
  exact sound_build <| within_nonemptyList
    (within_optionalBool (within_optionalText (within_text within_empty)))
    ((FilterOperation.deepens less).list within Nat.two_pos readOperations)

namespace Rule

variable {whole : Json} {fields : Fields whole} {depth : Nat}
  (within : fields.entries.Within depth)
include within

/-- The views of a rule are written at most two levels deeper than the fields. -/
theorem sound_decodeViews {views : Entries View} (decoded : decodeViews fields = .ok views) :
    (Json.object (views.mapValues View.encode)).Sound (depth + 2) := by
  have named (name : String) : Deepens 2 depth (decodeView name) View.encode := by
    intro depth _ document sound view decoded
    simp only [decodeView, Decoded.bind_eq_ok_iff, Decoded.pure_eq_ok_iff] at decoded
    obtain ⟨view, read, rfl⟩ := decoded
    exact View.sound_encode (some name) sound read
  rcases decodeViews_eq_ok_iff.mp decoded with ⟨-, rfl⟩ | ⟨entries, given, related⟩
  · exact Json.sound_object List.Pairwise.nil (List.forall_mem_nil _)
  · exact Deepens.entries within named given related

omit within in
/-- Rules are written at most two levels deeper than they were read. -/
theorem deepens (bound : Nat) : Deepens 2 bound decode encode := by
  intro depth _ document sound rule decoded
  simp only [decode, decodeBody, decodeEffects, Decoded.bind_eq_ok_iff, Decoded.pure_eq_ok_iff,
    Decoded.inside_eq_ok_iff] at decoded
  obtain ⟨fields, readFields, name, -, priority, readPriority, views, readViews, effects,
    ⟨_, -, found, readEffects, nonempty⟩, description, -, enabled, -, trigger, readTrigger, selector,
    readSelector, rfl⟩ := decoded
  obtain ⟨less, rfl, within⟩ := Fields.within_of readFields sound
  have same : found = effects := by
    split at nonempty
    · exact absurd nonempty Decoded.fail_ne_ok
    · exact Decoded.pure_eq_ok_iff.mp nonempty
  subst same
  rw [encode, Effect.encodeAll_eq_map]
  refine sound_build ?_
  refine within_nonemptyMapping ?_ (sound_decodeViews within readViews)
  refine within_optional ?_ fun value given => ?_
  · refine within_nonemptyList ?_ ((Effect.deepens less).list within Nat.two_pos readEffects)
    refine within_optional ?_ ((Selector.deepens less).node? within readSelector)
    refine within_field ?_ ((Trigger.deepens less).requiredNode within readTrigger)
    exact within_optionalBool (within_optionalText (within_text within_empty))
  · split at given
    · cases given
    · cases given
      have inRange := Fields.getD_inRange_of_int32? readPriority
      have fits : -(2 ^ 63) ≤ priority.getD 0 ∧ priority.getD 0 < 2 ^ 64 := by omega
      exact Json.sound_int fits _

end Rule

/-- Rule sets are written at most two levels deeper than they were read. -/
theorem RuleSet.deepens (bound : Nat) : Deepens 2 bound decode encode := by
  intro depth _ document sound set decoded
  simp only [decode, Decoded.bind_eq_ok_iff, Decoded.pure_eq_ok_iff] at decoded
  obtain ⟨fields, readFields, version, -, package, -, imports, -, rules, readRules, filters,
    readFilters, rfl⟩ := decoded
  obtain ⟨less, rfl, within⟩ := Fields.within_of readFields sound
  rw [encode]
  refine sound_build ?_
  refine within_nonemptyList ?_ ((Filter.deepens less).list within Nat.two_pos readFilters)
  refine within_list ?_ ((Rule.deepens less).list within Nat.two_pos readRules)
  refine within_nonemptyList ?_ Json.sound_texts
  exact within_optionalText (within_optionalText within_empty)

/-- What a sound document is decoded to is written as a sound document, at most two levels deeper. -/
theorem NodeType.sound_encode (type : NodeType) {document : Json} {node : type.Node} {depth : Nat}
    (sound : document.Sound depth) (decoded : type.decode document = .ok node) :
    (type.encode node).Sound (depth + 2) := by
  have deepens : Deepens 2 depth type.decode type.encode := by
    cases type with
    | operand => exact Operand.deepens _ Nat.two_pos
    | transform => exact Transform.deepens _ Nat.two_pos
    | expression => exact Expression.deepens _ Nat.two_pos
    | whereClause => exact WhereClause.deepens _
    | selector => exact Selector.deepens _
    | viewOperation => exact ViewOperation.deepens _
    | view => exact View.deepens _
    | viewRef => exact ViewRef.deepens _
    | valueExpression => exact ValueExpression.deepens _
    | trigger => exact Trigger.deepens _
    | effect => exact Effect.deepens _
    | filterOperation => exact FilterOperation.deepens _
    | filter => exact Filter.deepens _
    | rule => exact Rule.deepens _
    | ruleSet => exact RuleSet.deepens _
  exact deepens depth (Nat.le_refl depth) document sound node decoded

end GameRules
