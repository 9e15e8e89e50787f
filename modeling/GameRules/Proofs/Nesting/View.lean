import GameRules.Proofs.Nesting.Value
import GameRules.Proofs.Selector
import GameRules.Proofs.View.Basic

/-!
# How deep views and selectors are written

Of the parts of a view, and of what is taken from it, the conditions on entities gain most. What
holds them gains no more: a declared parameter that was given as a text becomes an object of its own,
and the other fields are written as they were read.
-/

namespace GameRules

open Record

namespace ViewOperation

/-- Stages of a view are written at most two levels deeper than they were read. -/
theorem deepens (bound : Nat) : Deepens 2 bound decode encode := by
  intro depth _ document sound operation decoded
  simp only [decode, Decoded.bind_eq_ok_iff] at decoded
  obtain ⟨untyped, readFields, word, -, kind, -, decoded⟩ := decoded
  obtain ⟨less, rfl, within⟩ := Fields.within_forKind_of readFields sound word
  have operands := Operand.deepens less Nat.two_pos
  unfold encode
  refine sound_build ?_
  cases kind with
  | filter =>
    obtain ⟨condition, read, rfl⟩ := Decoded.map_eq_ok_iff.mp decoded
    exact within_field within_typed ((WhereClause.deepens less).requiredNode within read)
  | map =>
    simp only [Decoded.bind_eq_ok_iff] at decoded
    obtain ⟨value, read, decoded⟩ := decoded
    split at decoded
    · cases Decoded.pure_eq_ok_iff.mp decoded
      have given := Fields.sound_of_value? within (Fields.required_eq_ok_iff.mp read)
      exact within_field within_typed (given.mono (Nat.le_add_right less 2))
    · exact absurd decoded Decoded.fail_ne_ok
  | sort =>
    simp only [Decoded.bind_eq_ok_iff, Decoded.pure_eq_ok_iff] at decoded
    obtain ⟨path, -, order, -, rfl⟩ := decoded
    exact within_keyword (within_text within_typed)
  | window kept =>
    simp only [Decoded.bind_eq_ok_iff, Decoded.pure_eq_ok_iff] at decoded
    obtain ⟨_, -, count, readCount, rfl⟩ := decoded
    have small : count.getD 0 < 2 ^ 32 := Fields.getD_lt_of_nat32? (Nat.two_pow_pos 32) readCount
    exact within_field within_typed (Json.sound_int (by omega) _)
  | groupBy =>
    simp only [Decoded.bind_eq_ok_iff, Decoded.pure_eq_ok_iff] at decoded
    obtain ⟨groupField, -, aggregate, -, path, -, rfl⟩ := decoded
    exact within_optionalText (within_optionalKeyword (within_text within_typed))
  | field stage =>
    obtain ⟨path, -, rfl⟩ := Decoded.map_eq_ok_iff.mp decoded
    exact within_text within_typed
  | distance =>
    simp only [Decoded.bind_eq_ok_iff] at decoded
    obtain ⟨start, readStart, finish, readFinish, origin, readOrigin, unit, -, decoded⟩ := decoded
    split at decoded
    · exact absurd decoded Decoded.fail_ne_ok
    · cases Decoded.pure_eq_ok_iff.mp decoded
      exact within_optionalKeyword <| within_optional (within_optional
        (within_optional within_typed (operands.node? within readStart))
          (operands.node? within readFinish)) (operands.node? within readOrigin)
  | proximity which =>
    obtain ⟨operation, read, rfl⟩ := Decoded.map_eq_ok_iff.mp decoded
    simp only [ProximityOperation.decode, Decoded.bind_eq_ok_iff, Decoded.pure_eq_ok_iff] at read
    obtain ⟨origin, readOrigin, field, -, count, readCount, _, -, _, -, _, -, rfl⟩ := read
    have placed := operands.requiredNode within readOrigin
    have fits := (Fields.nat32?_eq_ok_iff.mp readCount).2
    exact within_optionalKeyword <| within_optionalFloat <| within_optionalFloat <|
      within_optionalNat (within_optionalText (within_field within_typed placed)) fits
  | rows stage =>
    cases Decoded.pure_eq_ok_iff.mp decoded
    exact within_typed

end ViewOperation

/-- Declarations of parameters are written at most one level deeper than they were read. -/
theorem ViewParam.deepens (bound : Nat) {extra : Nat} (positive : 0 < extra) :
    Deepens extra bound decode encode := by
  refine Deepens.weaken ?_ positive
  intro depth _ document sound param decoded
  unfold decode at decoded
  unfold encode
  split at decoded
  · simp only [Decoded.bind_eq_ok_iff, Decoded.pure_eq_ok_iff] at decoded
    obtain ⟨type, -, rfl⟩ := decoded
    exact sound_build (within_keyword within_empty)
  · simp only [Decoded.bind_eq_ok_iff, Decoded.pure_eq_ok_iff] at decoded
    obtain ⟨fields, readFields, type, -, rfl⟩ := decoded
    obtain ⟨less, rfl, within⟩ := Fields.within_of readFields sound
    refine sound_build (within_optional (within_keyword within_empty) fun value given => ?_)
    exact (Fields.sound_of_value? within given).mono (Nat.le_succ less)

namespace View

/-- A view is written at most two levels deeper than it was read, whatever name it is given. -/
theorem sound_encode {document : Json} {view : View} {depth : Nat} (name : Option String)
    (sound : document.Sound depth) (decoded : decode document = .ok view) :
    { view with name := name }.encode.Sound (depth + 2) := by
  simp only [decode, Decoded.bind_eq_ok_iff, Decoded.pure_eq_ok_iff] at decoded
  obtain ⟨fields, readFields, pipeline, readPipeline, params, readParams, _, -, source, -,
    rfl⟩ := decoded
  obtain ⟨less, rfl, within⟩ := Fields.within_of readFields sound
  have stages : (Json.array (pipeline.map ViewOperation.encode)).Sound (less + 2) := by
    rcases decodePipeline_eq_ok_iff.mp readPipeline with ⟨-, rfl⟩ | ⟨items, given, related⟩
    · exact Json.sound_array (List.forall_mem_nil _)
    · exact (ViewOperation.deepens less).items within given related
  have declared : (Json.object (params.mapValues ViewParam.encode)).Sound (less + 2) := by
    rcases decodeParams_eq_ok_iff.mp readParams with ⟨-, rfl⟩ | ⟨entries, given, related⟩
    · exact Json.sound_object List.Pairwise.nil (List.forall_mem_nil _)
    · have params := ViewParam.deepens less Nat.two_pos
      exact Deepens.entries within (fun _ => params) given related
  rw [encode]
  exact sound_build <| within_nonemptyMapping (within_nonemptyList
    (within_text (within_optionalText within_empty)) stages) declared

/-- Views are written at most two levels deeper than they were read. -/
theorem deepens (bound : Nat) : Deepens 2 bound decode encode :=
  fun _ _ _ sound view => sound_encode view.name sound

end View

/-- Uses of views are written at most two levels deeper than they were read. -/
theorem ViewRef.deepens (bound : Nat) : Deepens 2 bound decode encode := by
  intro depth inBound document sound view decoded
  unfold decode at decoded
  split at decoded
  · dsimp only at decoded
    split at decoded
    · exact absurd decoded Decoded.fail_ne_ok
    · cases decoded
      exact Json.sound_string _ _
  · obtain ⟨view, read, rfl⟩ := Decoded.map_eq_ok_iff.mp decoded
    exact View.deepens bound depth inBound _ sound view read
  · exact absurd decoded Decoded.fail_ne_ok

/-- Sources of values are written at most two levels deeper than they were read. -/
theorem ValueExpression.deepens (bound : Nat) : Deepens 2 bound decode encode := by
  intro depth _ document sound expression decoded
  simp only [decode, Decoded.bind_eq_ok_iff] at decoded
  obtain ⟨untyped, readFields, word, -, kind, -, decoded⟩ := decoded
  obtain ⟨less, rfl, within⟩ := Fields.within_forKind_of readFields sound word
  have operands := Operand.deepens less Nat.two_pos
  unfold encode
  refine sound_build ?_
  cases kind with
  | viewResult =>
    simp only [Decoded.bind_eq_ok_iff, Decoded.pure_eq_ok_iff] at decoded
    obtain ⟨view, readView, params, readParams, rfl⟩ := decoded
    exact within_nonemptyMapping
      (within_field within_typed ((ViewRef.deepens less).requiredNode within readView))
        (operands.mapping within Nat.two_pos readParams)
  | distance =>
    simp only [Decoded.bind_eq_ok_iff, Decoded.pure_eq_ok_iff] at decoded
    obtain ⟨start, readStart, finish, readFinish, unit, -, rfl⟩ := decoded
    exact within_optionalKeyword <| within_field
      (within_field within_typed (operands.requiredNode within readStart))
        (operands.requiredNode within readFinish)
  | field =>
    obtain ⟨path, -, rfl⟩ := Decoded.map_eq_ok_iff.mp decoded
    exact within_text within_typed
  | literal =>
    dsimp only at decoded
    split at decoded
    · rename_i given
      cases Decoded.pure_eq_ok_iff.mp decoded
      have given := Fields.sound_of_lookup within given
      exact within_field within_typed (given.mono (Nat.le_add_right less 2))
    · exact absurd decoded Decoded.fail_ne_ok
  | transform =>
    obtain ⟨transform, read, rfl⟩ := Decoded.map_eq_ok_iff.mp decoded
    have computations := Transform.deepens less Nat.two_pos
    exact within_field within_typed (computations.requiredNode within read)

/-- Selectors are written at most two levels deeper than they were read. -/
theorem Selector.deepens (bound : Nat) : Deepens 2 bound decode encode := by
  intro depth _ document sound selector decoded
  simp only [decode, Decoded.bind_eq_ok_iff, Decoded.pure_eq_ok_iff] at decoded
  obtain ⟨untyped, readFields, word, -, kind, -, entity, -, choice, readChoice, rfl⟩ := decoded
  obtain ⟨less, rfl, within⟩ := Fields.within_forKind_of readFields sound word
  have operands := Operand.deepens less Nat.two_pos
  unfold encode
  refine sound_build ?_
  cases kind with
  | all =>
    cases readChoice
    exact within_text within_typed
  | filter =>
    obtain ⟨condition, read, rfl⟩ := Decoded.map_eq_ok_iff.mp readChoice
    exact within_field (within_text within_typed)
      ((WhereClause.deepens less).requiredNode within read)
  | single =>
    obtain ⟨id, read, rfl⟩ := Decoded.map_eq_ok_iff.mp readChoice
    exact within_field (within_text within_typed) (operands.requiredNode within read)
  | related =>
    simp only [decodeChoice, Decoded.bind_eq_ok_iff, Decoded.pure_eq_ok_iff] at readChoice
    obtain ⟨relation, -, source, readSource, rfl⟩ := readChoice
    exact within_field (within_text (within_text within_typed))
      (operands.requiredNode within readSource)
  | proximity which =>
    obtain ⟨selector, read, rfl⟩ := Decoded.map_eq_ok_iff.mp readChoice
    simp only [ProximitySelector.decode, Decoded.bind_eq_ok_iff] at read
    obtain ⟨position, readPosition, origin, readOrigin, limit, readLimit, _, -, _, -, _, -, read⟩ :=
      read
    split at read
    · exact absurd read Decoded.fail_ne_ok
    · cases Decoded.pure_eq_ok_iff.mp read
      have placed := operands.requiredNode within readPosition
      have centred := operands.requiredNode within readOrigin
      have fits := (Fields.nat32?_eq_ok_iff.mp readLimit).2
      exact within_optionalKeyword <| within_optionalFloat <| within_optionalFloat <|
        within_optionalNat (within_field (within_field (within_text within_typed) placed) centred) fits

end GameRules
