import GameRules.Effect.Decode
import GameRules.Proofs.View.Basic

/-!
# Effects are read back

The kind of an effect may be guessed from its fields, but it is always written. A location may be set
to null, which is written out; every other field that is null counts as absent.
-/

namespace GameRules

/-- What a change of a location is that was decoded. -/
def Change.WellFormed : Change → Prop
  | .set value => value.WellFormed
  | .increment step => step.Given
  | .decrement step => step.Given
  | .transform computation => computation.WellFormed
  | .setFromView value => value.WellFormed

/-- The view that a location is set from, or what it compares. -/
def Change.leaves : Change → List Leaf
  | .setFromView value => value.leaves
  | _ => []

mutual

/-- What an effect is that was decoded. -/
def Effect.WellFormed : Effect → Prop
  | .mutate targets path change =>
    (∀ view, targets = some view → view.WellFormed) ∧ path.raw ≠ "" ∧ change.WellFormed
  | .spawn entity fields => entity ≠ "" ∧ ∀ entry ∈ fields, entry.2.WellFormed
  | .destroy targets => ∀ view, targets = some view → view.WellFormed
  | .emit event payload => event ≠ "" ∧ ∀ entry ∈ payload, entry.2.WellFormed
  | .branch condition consequent alternative =>
    condition.WellFormed ∧ Effect.WellFormedAll consequent ∧ Effect.WellFormedAll alternative
  | .sequence effects => Effect.WellFormedAll effects
  | .control _ target => target ≠ ""
  | .log message _ => message.Given

/-- Every effect of a list is well-formed. -/
def Effect.WellFormedAll : List Effect → Prop
  | [] => True
  | effect :: effects => effect.WellFormed ∧ Effect.WellFormedAll effects

end

mutual

/-- The views that an effect names, and the fields that its views compare. -/
def Effect.leaves : Effect → List Leaf
  | .mutate targets _ change => targets.toList.flatMap ViewRef.leaves ++ change.leaves
  | .destroy targets => targets.toList.flatMap ViewRef.leaves
  | .branch _ consequent alternative =>
    Effect.leavesAll consequent ++ Effect.leavesAll alternative
  | .sequence effects => Effect.leavesAll effects
  | .spawn .. => []
  | .emit .. => []
  | .control .. => []
  | .log .. => []

/-- The leaves of the effects of a list. -/
def Effect.leavesAll : List Effect → List Leaf
  | [] => []
  | effect :: effects => effect.leaves ++ Effect.leavesAll effects

end

/-- What is switched is not written in place of the kind. -/
theorem ControlOp.targetKey_ne_type (op : ControlOp) : "type" ≠ op.targetKey := by
  cases op <;> decide

/-- A list of effects is well-formed when its members are. -/
theorem Effect.wellFormedAll_iff {effects : List Effect} :
    Effect.WellFormedAll effects ↔ ∀ effect ∈ effects, effect.WellFormed := by
  induction effects with
  | nil => simp [Effect.WellFormedAll]
  | cons effect effects ih => simp [Effect.WellFormedAll, ih]

namespace Effect

variable {whole : Json} {fields : Fields whole}

/-- The decoded value of a location is well-formed. -/
theorem wellFormed_of_decodeSetValue {value : Operand}
    (decoded : decodeSetValue fields = .ok value) : value.WellFormed := by
  unfold decodeSetValue at decoded
  split at decoded
  · cases decoded
    exact ⟨rfl, nofun⟩
  · exact (Operand.partsSatisfy whole).requiredNode decoded

/-- The decoded step of a location is given, or one. -/
theorem given_of_decodeStep {step : Operand} (decoded : decodeStep fields = .ok step) :
    step.Given := by
  simp only [decodeStep, Decoded.bind_eq_ok_iff, Decoded.pure_eq_ok_iff] at decoded
  obtain ⟨written, read, rfl⟩ := decoded
  have given := (Operand.partsSatisfy whole).optionalOperand read
  cases written with
  | none =>
    refine ⟨⟨rfl, fun text same => ?_⟩, fun same => ?_⟩
    · cases same
    · cases same
  | some step => exact given

/-- A decoded change is well-formed. -/
theorem wellFormed_of_decodeChange {kind : ChangeKind} {change : Change}
    (decoded : decodeChange kind fields = .ok change) : change.WellFormed := by
  cases kind with
  | set =>
    obtain ⟨value, read, rfl⟩ := Decoded.map_eq_ok_iff.mp decoded
    exact wellFormed_of_decodeSetValue read
  | increment =>
    obtain ⟨step, read, rfl⟩ := Decoded.map_eq_ok_iff.mp decoded
    exact given_of_decodeStep read
  | decrement =>
    obtain ⟨step, read, rfl⟩ := Decoded.map_eq_ok_iff.mp decoded
    exact given_of_decodeStep read
  | transform =>
    obtain ⟨computation, read, rfl⟩ := Decoded.map_eq_ok_iff.mp decoded
    obtain ⟨part, -, read⟩ := Fields.requiredNode_eq_ok_iff.mp read
    exact Transform.wellFormed_of_decode read
  | setFromView =>
    obtain ⟨value, read, rfl⟩ := Decoded.map_eq_ok_iff.mp decoded
    obtain ⟨part, -, read⟩ := Fields.requiredNode_eq_ok_iff.mp read
    exact ValueExpression.wellFormed_of_decode read

/-- Decoded targets are well-formed. -/
theorem wellFormed_of_decodeTargets {targets : Option ViewRef}
    (decoded : decodeTargets fields = .ok targets) :
    ∀ view, targets = some view → view.WellFormed := by
  have views : PartsSatisfy whole ViewRef.decode ViewRef.WellFormed :=
    fun _ _ _ => ViewRef.wellFormed_of_decode
  exact views.node? decoded

/-- An effect is well-formed if what it is made of is. -/
theorem wellFormed_of_parts {document : Json} {effect : Effect}
    (parts : PartsSatisfy document Effect.decode WellFormed)
    (decoded : decode document = .ok effect) : effect.WellFormed := by
  rw [decode] at decoded
  simp only [Decoded.bind_eq_ok_iff] at decoded
  obtain ⟨untyped, -, ⟨word, kind⟩, -, decoded⟩ := decoded
  have operands := Operand.partsSatisfy document
  cases kind with
  | mutate kind =>
    simp only [Decoded.bind_eq_ok_iff, Decoded.pure_eq_ok_iff] at decoded
    obtain ⟨targets, readTargets, path, readPath, change, readChange, rfl⟩ := decoded
    exact ⟨wellFormed_of_decodeTargets readTargets, (Fields.requiredPath_eq_ok_iff.mp readPath).2,
      wellFormed_of_decodeChange readChange⟩
  | spawn =>
    simp only [Decoded.bind_eq_ok_iff, Decoded.pure_eq_ok_iff] at decoded
    obtain ⟨entity, readEntity, values, readValues, rfl⟩ := decoded
    exact ⟨(Fields.requiredString_eq_ok_iff.mp readEntity).2, operands.mapping readValues⟩
  | destroy =>
    obtain ⟨targets, read, rfl⟩ := Decoded.map_eq_ok_iff.mp decoded
    exact wellFormed_of_decodeTargets read
  | emit =>
    simp only [Decoded.bind_eq_ok_iff, Decoded.pure_eq_ok_iff] at decoded
    obtain ⟨event, readEvent, payload, readPayload, rfl⟩ := decoded
    exact ⟨(Fields.requiredString_eq_ok_iff.mp readEvent).2, operands.mapping readPayload⟩
  | branch =>
    simp only [Decoded.bind_eq_ok_iff, Decoded.pure_eq_ok_iff] at decoded
    obtain ⟨_, -, condition, readCondition, consequent, readThen, alternative, readElse, rfl⟩ :=
      decoded
    obtain ⟨part, -, readCondition⟩ := Fields.requiredNode_eq_ok_iff.mp readCondition
    exact ⟨Expression.wellFormed_of_decode readCondition,
      wellFormedAll_iff.mpr (parts.list readThen), wellFormedAll_iff.mpr (parts.list readElse)⟩
  | sequence =>
    simp only [Decoded.bind_eq_ok_iff, Decoded.pure_eq_ok_iff] at decoded
    obtain ⟨_, -, effects, read, rfl⟩ := decoded
    exact wellFormedAll_iff.mpr (parts.list read)
  | control op =>
    obtain ⟨target, read, rfl⟩ := Decoded.map_eq_ok_iff.mp decoded
    exact (Fields.requiredString_eq_ok_iff.mp read).2
  | log =>
    simp only [Decoded.bind_eq_ok_iff, Decoded.pure_eq_ok_iff] at decoded
    obtain ⟨message, read, level, -, rfl⟩ := decoded
    exact operands.requiredOperand read

/-- Decoded effects are well-formed. -/
theorem wellFormed_of_decode {document : Json} {effect : Effect}
    (decoded : decode document = .ok effect) : effect.WellFormed :=
  PartsSatisfy.decoded (fun _ _ => wellFormed_of_parts) document effect decoded

/-- The kind that was written is found. -/
theorem decodeKind_of_typed (kind : EffectKind)
    (typed : fields.entries.lookup "type" = some (.string (Keyword.word kind))) :
    decodeKind fields = .ok (Keyword.word kind, kind) := by
  have word : fields.kindWord? = .ok (some (Keyword.word kind)) :=
    Fields.nonemptyString?_of_lookup typed
      (by simpa using Keyword.Lawful.word_ne_empty kind)
  have named : fields.kindOf (Keyword.word kind) = .ok kind :=
    Fields.kindOf_eq_ok_iff.mpr (Keyword.parse?_word kind)
  rw [decodeKind, word]
  change (fields.kindOf (Keyword.word kind) >>= _) = _
  rw [named]
  rfl

/-- The decoder of effects finds the kind that was written. -/
theorem bind_kind {record : Record} (kind : EffectKind)
    {next : Fields record.build → String × EffectKind → Decoded Effect}
    (typed : record.lookup "type" = some (.string (Keyword.word kind))) :
    (do
      let untyped ← Fields.of .effect record.build
      let kind ← decodeKind untyped
      next untyped kind) = next (record.fields .effect) (Keyword.word kind, kind) := by
  have read : decodeKind (record.fields .effect) = .ok (Keyword.word kind, kind) :=
    decodeKind_of_typed kind typed
  rw [Record.of_build]
  change decodeKind (record.fields .effect) >>= _ = _
  rw [read]
  rfl

/-- The value of a location is read back, null too. -/
theorem decodeSetValue_of_lookup {value : Operand} (wellFormed : value.WellFormed)
    (written : fields.entries.lookup "value" = some value.encode) :
    decodeSetValue fields = .ok value := by
  unfold decodeSetValue
  rw [written]
  by_cases null : value = .literal .null
  · subst null
    rfl
  · have fills := Operand.fills null (Operand.decode_encode value wellFormed)
    split
    · rename_i isNull
      have notNull := fills.notNull
      rw [Option.some.inj isNull] at notNull
      cases notNull
    · exact fills.required written

/-- The step of a location is read back. -/
theorem decodeStep_of_lookup {step : Operand} (given : step.Given)
    (written : fields.entries.lookup "value" = some step.encode) :
    decodeStep fields = .ok step := by
  rw [decodeStep, (Operand.fills_of_given step given).present written]
  rfl

/-- A well-formed change is read back if its leaves are stable. -/
theorem decodeChange_of_encodeInto {record : Record} {change : Change}
    (wellFormed : change.WellFormed) (stable : Leaf.AllStable change.leaves)
    (written : fields.entries = change.encodeInto record) :
    decodeChange change.kind fields = .ok change := by
  cases change with
  | set value =>
    exact Decoded.map_eq_ok_iff.mpr
      ⟨value, decodeSetValue_of_lookup wellFormed (by simp [written, Change.encodeInto]), rfl⟩
  | increment step =>
    exact Decoded.map_eq_ok_iff.mpr
      ⟨step, decodeStep_of_lookup wellFormed (by simp [written, Change.encodeInto]), rfl⟩
  | decrement step =>
    exact Decoded.map_eq_ok_iff.mpr
      ⟨step, decodeStep_of_lookup wellFormed (by simp [written, Change.encodeInto]), rfl⟩
  | transform computation =>
    have fills := Transform.fills (Transform.decode_encode computation wellFormed)
    exact Decoded.map_eq_ok_iff.mpr
      ⟨computation, fills.required (by simp [written, Change.encodeInto]), rfl⟩
  | setFromView value =>
    have fills := ValueExpression.fills (ValueExpression.decode_encode wellFormed stable)
    exact Decoded.map_eq_ok_iff.mpr
      ⟨value, fills.required (by simp [written, Change.encodeInto]), rfl⟩

/-- A change is written into fields of its own. -/
theorem lookup_encodeInto {change : Change} {record : Record} {key : String}
    (notValue : key ≠ "value") (notTransform : key ≠ "transform")
    (notExpression : key ≠ "valueExpression") :
    (change.encodeInto record).lookup key = record.lookup key := by
  cases change <;> simp [Change.encodeInto, notValue, notTransform, notExpression]

/-- Well-formed targets are read back if their leaves are stable. -/
theorem decodeTargets_of_lookup {targets : Option ViewRef}
    (wellFormed : ∀ view, targets = some view → view.WellFormed)
    (stable : Leaf.AllStable (targets.toList.flatMap ViewRef.leaves))
    (written : fields.entries.lookup "targets" = targets.map ViewRef.encode) :
    decodeTargets fields = .ok targets := by
  refine Fills.optional ?_ written
  rintro view rfl
  exact ViewRef.fills (ViewRef.decode_encode (wellFormed view rfl) (by simpa using stable))

end Effect

mutual

/-- A well-formed effect is read back if its leaves are stable. -/
theorem Effect.decode_encode : ∀ effect : Effect, effect.WellFormed →
    Leaf.AllStable effect.leaves → Effect.decode effect.encode = .ok effect
  | .mutate targets path change, ⟨targetsFormed, named, changeFormed⟩, stable => by
    obtain ⟨stableTargets, stableChange⟩ := List.forall_mem_append.mp stable
    rw [Effect.encode, Effect.decode,
      Effect.bind_kind (.mutate change.kind) (by simp [Effect.lookup_encodeInto])]
    simp only [Decoded.bind_eq_ok_iff, Decoded.pure_eq_ok_iff]
    exact ⟨targets, Effect.decodeTargets_of_lookup targetsFormed stableTargets
        (by simp [Effect.lookup_encodeInto]),
      path, Fields.requiredPath_of_lookup (by simp [Effect.lookup_encodeInto]) named,
      change, Effect.decodeChange_of_encodeInto changeFormed stableChange rfl, rfl⟩
  | .spawn entity fields, ⟨named, wellFormed⟩, _ => by
    have read := Fills.forall₂_mapValues fun entry member =>
      Operand.decode_encode entry.2 (wellFormed entry member)
    rw [Effect.encode, Effect.decode, Effect.bind_kind .spawn (by simp)]
    simp only [Decoded.bind_eq_ok_iff, Decoded.pure_eq_ok_iff]
    exact ⟨entity, Fields.requiredString_of_lookup (by simp) named,
      fields, Fills.nonemptyMapping read (by simp), rfl⟩
  | .destroy targets, wellFormed, stable => by
    rw [Effect.encode, Effect.decode, Effect.bind_kind .destroy (by simp)]
    exact Decoded.map_eq_ok_iff.mpr
      ⟨targets, Effect.decodeTargets_of_lookup wellFormed stable (by simp), rfl⟩
  | .emit event payload, ⟨named, wellFormed⟩, _ => by
    have read := Fills.forall₂_mapValues fun entry member =>
      Operand.decode_encode entry.2 (wellFormed entry member)
    rw [Effect.encode, Effect.decode, Effect.bind_kind .emit (by simp)]
    simp only [Decoded.bind_eq_ok_iff, Decoded.pure_eq_ok_iff]
    exact ⟨event, Fields.requiredString_of_lookup (by simp) named,
      payload, Fills.nonemptyMapping read (by simp), rfl⟩
  | .branch condition consequent alternative, ⟨testFormed, thenFormed, elseFormed⟩, stable => by
    obtain ⟨stableThen, stableElse⟩ := List.forall_mem_append.mp stable
    have fills := Expression.fills (Expression.decode_encode condition testFormed)
    have readThen := Effect.decodeAll_encodeAll consequent thenFormed stableThen
    have readElse := Effect.decodeAll_encodeAll alternative elseFormed stableElse
    rw [Effect.encode, Effect.decode, Effect.bind_kind .branch (by simp)]
    simp only [Decoded.bind_eq_ok_iff, Decoded.pure_eq_ok_iff]
    exact ⟨.array (Effect.encodeAll consequent),
      Fields.required_eq_ok_iff.mpr (Fields.value?_of_lookup (by simp) rfl),
      condition, fills.required (by simp), consequent, Fills.list readThen (by simp),
      alternative, Fills.nonemptyList readElse (by simp), rfl⟩
  | .sequence effects, wellFormed, stable => by
    have read := Effect.decodeAll_encodeAll effects wellFormed stable
    rw [Effect.encode, Effect.decode, Effect.bind_kind .sequence (by simp)]
    simp only [Decoded.bind_eq_ok_iff, Decoded.pure_eq_ok_iff]
    exact ⟨.array (Effect.encodeAll effects),
      Fields.required_eq_ok_iff.mpr (Fields.value?_of_lookup (by simp) rfl),
      effects, Fills.list read (by simp), rfl⟩
  | .control op target, named, _ => by
    rw [Effect.encode, Effect.decode,
      Effect.bind_kind (.control op) (by simp [op.targetKey_ne_type])]
    exact Decoded.map_eq_ok_iff.mpr
      ⟨target, Fields.requiredString_of_lookup (by simp) named, rfl⟩
  | .log message level, given, _ => by
    rw [Effect.encode, Effect.decode, Effect.bind_kind .log (by simp)]
    simp only [Decoded.bind_eq_ok_iff, Decoded.pure_eq_ok_iff]
    exact ⟨message, (Operand.fills_of_given message given).required (by simp),
      some level, Fields.keyword?_of_lookup (by simp), rfl⟩

/-- A list of well-formed effects is read back if their leaves are stable. -/
theorem Effect.decodeAll_encodeAll : ∀ effects : List Effect,
    Effect.WellFormedAll effects → Leaf.AllStable (Effect.leavesAll effects) →
      List.Forall₂ (fun document effect => Effect.decode document = .ok effect)
        (Effect.encodeAll effects) effects
  | [], _, _ => .nil
  | effect :: effects, ⟨wellFormed, others⟩, stable => by
    obtain ⟨stableEffect, stableOthers⟩ := List.forall_mem_append.mp stable
    exact .cons (Effect.decode_encode effect wellFormed stableEffect)
      (Effect.decodeAll_encodeAll effects others stableOthers)

end

end GameRules
