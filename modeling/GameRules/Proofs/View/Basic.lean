import GameRules.Proofs.View.Operation
import GameRules.View.Value

/-!
# Views and what is taken from them are read back

A view in place has no empty name, since an empty name counts as none. The views of a rule are named
by their keys instead, which may be empty; reading such a view back loses its name.
-/

namespace GameRules

/-- What a declared parameter is that was decoded: its default is not null, which counts as absent. -/
def ViewParam.WellFormed (param : ViewParam) : Prop := param.default ≠ some .null

/-- What a view is that was decoded, but for its name. -/
structure View.WellFormed (view : View) : Prop where
  /-- There is a source. -/
  source : view.source ≠ ""
  /-- The stages are well-formed. -/
  pipeline : ∀ operation ∈ view.pipeline, operation.WellFormed
  /-- The parameters are well-formed. -/
  params : ∀ entry ∈ view.params, entry.2.WellFormed

/-- The fields that the stages of a view compare. -/
def View.leaves (view : View) : List Leaf := view.pipeline.flatMap ViewOperation.leaves

/-- What a use of a view is that was decoded. -/
def ViewRef.WellFormed : ViewRef → Prop
  | .named name => name ≠ ""
  | .inPlace view => view.name ≠ some "" ∧ view.WellFormed

/-- The name of a view, or the fields that the view compares. -/
def ViewRef.leaves : ViewRef → List Leaf
  | .named name => [.view name]
  | .inPlace view => view.leaves

/-- What the source of a value is that was decoded. -/
def ValueExpression.WellFormed : ValueExpression → Prop
  | .viewResult view params => view.WellFormed ∧ ∀ entry ∈ params, entry.2.WellFormed
  | .distance start finish _ => start.Given ∧ finish.Given
  | .field path => path.raw ≠ ""
  | .literal _ => True
  | .transform computation => computation.WellFormed

/-- The view that a value is taken from, or what it compares. -/
def ValueExpression.leaves : ValueExpression → List Leaf
  | .viewResult view _ => view.leaves
  | _ => []

namespace ViewParam

/-- A decoded declaration is well-formed. -/
theorem wellFormed_of_decode {document : Json} {param : ViewParam}
    (decoded : decode document = .ok param) : param.WellFormed := by
  unfold decode at decoded
  split at decoded
  · simp only [Decoded.bind_eq_ok_iff, Decoded.pure_eq_ok_iff] at decoded
    obtain ⟨type, -, rfl⟩ := decoded
    intro isNull
    cases isNull
  · simp only [Decoded.bind_eq_ok_iff, Decoded.pure_eq_ok_iff] at decoded
    obtain ⟨fields, -, type, -, rfl⟩ := decoded
    intro isNull
    have notNull := Fields.isNull_eq_false isNull
    cases notNull

/-- A well-formed declaration is read back. -/
theorem decode_encode {param : ViewParam} (wellFormed : param.WellFormed) :
    decode param.encode = .ok param := by
  obtain ⟨type, default⟩ := param
  rw [encode, Record.build, decode]
  simp only [Decoded.bind_eq_ok_iff, Decoded.pure_eq_ok_iff]
  refine ⟨_, Record.of_build _ _, some type, Fields.keyword?_of_lookup (by simp), ?_⟩
  have given : ((Record.empty.keyword "type" type |>.optional "default" default).fields
      .viewParameter).value? "default" = default := by
    cases default with
    | none => exact Fields.value?_of_unwritten (by simp)
    | some value =>
      refine Fields.value?_of_lookup (by simp) ?_
      cases value <;> simp_all [WellFormed, Json.isNull]
  · exact congrArg (ViewParam.mk type) given
  · intro word same
    cases same

end ViewParam

namespace View

variable {whole : Json} {fields : Fields whole}

/-- The stages of a view are read from a list, or there are none. -/
theorem decodePipeline_eq_ok_iff {operations : List ViewOperation} :
    decodePipeline fields = .ok operations ↔
      fields.value? "pipeline" = none ∧ operations = [] ∨
        ∃ items, fields.value? "pipeline" = some (.array items) ∧
          List.Forall₂ (fun item operation => ViewOperation.decode item = .ok operation)
            items operations := by
  unfold decodePipeline
  split
  · rename_i absent
    simp [absent, eq_comm]
  · rename_i items given
    simp [given, decodeItems_eq_ok_iff]
  · rename_i other notArray given
    simp only [given, Decoded.fail_ne_ok, reduceCtorEq, false_and, false_or, false_iff]
    rintro ⟨items, same, -⟩
    exact notArray items (Option.some.inj same)

/-- The parameters of a view are read from a mapping, or there are none. -/
theorem decodeParams_eq_ok_iff {params : Entries ViewParam} :
    decodeParams fields = .ok params ↔
      fields.value? "params" = none ∧ params = [] ∨
        ∃ entries, fields.value? "params" = some (.object entries) ∧
          List.Forall₂ (fun entry param =>
            entry.1 = param.1 ∧ ViewParam.decode entry.2 = .ok param.2) entries params := by
  unfold decodeParams
  split
  · rename_i absent
    simp [absent, eq_comm]
  · rename_i entries given
    have entrywise := @decodeEntries_eq_ok_iff ViewParam (.named "param") entries
      (fun _ => ViewParam.decode) params
    simp [given, entrywise]
  · rename_i other notObject given
    simp only [given, Decoded.fail_ne_ok, reduceCtorEq, false_and, false_or, false_iff]
    rintro ⟨entries, same, -⟩
    exact notObject entries (Option.some.inj same)

/-- A decoded view is well-formed and has no empty name. -/
theorem wellFormed_of_decode {document : Json} {view : View}
    (decoded : decode document = .ok view) : view.WellFormed ∧ view.name ≠ some "" := by
  simp only [decode, Decoded.bind_eq_ok_iff, Decoded.pure_eq_ok_iff] at decoded
  obtain ⟨fields, -, pipeline, readPipeline, params, readParams, name, readName, source, readSource,
    rfl⟩ := decoded
  refine ⟨⟨(Fields.requiredString_eq_ok_iff.mp readSource).2, ?_, ?_⟩, ?_⟩
  · rcases decodePipeline_eq_ok_iff.mp readPipeline with ⟨-, rfl⟩ | ⟨items, -, related⟩
    · exact List.forall_mem_nil _
    · intro operation member
      obtain ⟨item, -, read⟩ := exists_mem_of_forall₂ related member
      exact ViewOperation.wellFormed_of_decode read
  · rcases decodeParams_eq_ok_iff.mp readParams with ⟨-, rfl⟩ | ⟨entries, -, related⟩
    · exact List.forall_mem_nil _
    · intro param member
      obtain ⟨entry, -, -, read⟩ := exists_mem_of_forall₂ related member
      exact ViewParam.wellFormed_of_decode read
  · rcases Fields.nonemptyString?_eq_ok_iff.mp readName with ⟨-, nonempty⟩ | ⟨-, rfl⟩
    · exact nonempty
    · intro given
      cases given

/-- A well-formed view is read back, but an empty name counts as none. -/
theorem decode_encode {view : View} (wellFormed : view.WellFormed)
    (stable : Leaf.AllStable view.leaves) :
    decode view.encode = .ok { view with name := view.name.filter fun name => !name.isEmpty } := by
  obtain ⟨name, source, pipeline, params⟩ := view
  have pipelineRead : List.Forall₂
      (fun document operation => ViewOperation.decode document = .ok operation)
      (pipeline.map ViewOperation.encode) pipeline := by
    refine Fills.forall₂_map fun operation member => ?_
    refine ViewOperation.decode_encode (wellFormed.pipeline operation member) fun leaf inside => ?_
    exact stable leaf (List.mem_flatMap.mpr ⟨operation, member, inside⟩)
  have paramsRead := Fills.forall₂_mapValues fun entry member =>
    ViewParam.decode_encode (wellFormed.params entry member)
  rw [encode, decode]
  simp only [Decoded.bind_eq_ok_iff, Decoded.pure_eq_ok_iff]
  refine ⟨_, Record.of_build _ _, pipeline, ?_, params, ?_, _, ?_,
    source, Fields.requiredString_of_lookup (by simp) wellFormed.source, rfl⟩
  · exact decodePipeline_eq_ok_iff.mpr ((Fills.value?_of_nonempty pipelineRead (by simp) rfl).imp_right
      fun given => ⟨_, given, pipelineRead⟩)
  · exact decodeParams_eq_ok_iff.mpr ((Fills.value?_of_nonempty paramsRead (by simp) rfl).imp_right
      fun given => ⟨_, given, paramsRead⟩)
  · exact Fields.nonemptyString?_of_written (by simp)

/-- A well-formed view that has no empty name is read back. -/
theorem decode_encode_of_name {view : View} (wellFormed : view.WellFormed)
    (named : view.name ≠ some "") (stable : Leaf.AllStable view.leaves) :
    decode view.encode = .ok view := by
  have kept : view.name.filter (fun name => !name.isEmpty) = view.name := by
    cases name : view.name with
    | none => rfl
    | some text => simpa [Option.filter, name] using named
  rw [decode_encode wellFormed stable, kept]

end View

namespace ViewRef

/-- A decoded use of a view is well-formed. -/
theorem wellFormed_of_decode {document : Json} {view : ViewRef}
    (decoded : decode document = .ok view) : view.WellFormed := by
  unfold decode at decoded
  split at decoded
  · dsimp only at decoded
    split at decoded
    · exact absurd decoded Decoded.fail_ne_ok
    · rename_i nonempty
      cases decoded
      simpa [WellFormed] using nonempty
  · obtain ⟨view, read, rfl⟩ := Decoded.map_eq_ok_iff.mp decoded
    exact (View.wellFormed_of_decode read).symm
  · exact absurd decoded Decoded.fail_ne_ok

/-- A well-formed use of a view is read back unless it names a view that looks qualified. -/
theorem decode_encode {view : ViewRef} (wellFormed : view.WellFormed)
    (stable : Leaf.AllStable view.leaves) : decode view.encode = .ok view := by
  cases view with
  | named name =>
    have plain : Text.stripFront? "view:".toList name.toList = none := by
      cases stripped : Text.stripFront? "view:".toList name.toList with
      | none => rfl
      | some rest =>
        have qualified := Text.stripFront?_eq_some_iff.mp stripped
        exact absurd ⟨rest, qualified.symm⟩ (stable (.view name) List.mem_cons_self)
    have nonempty : name.toList.isEmpty = false := by
      simpa [WellFormed] using wellFormed
    rw [encode, decode, plain]
    simp [nonempty]
  | inPlace view =>
    have read := View.decode_encode_of_name wellFormed.2 wellFormed.1 stable
    rw [encode, View.encode, Record.build, decode]
    exact Decoded.map_eq_ok_iff.mpr ⟨view, read, rfl⟩

/-- A use of a view that is read back fills a field. -/
theorem fills {view : ViewRef} (decoded : decode view.encode = .ok view) :
    Fills decode view.encode view :=
  ⟨by cases view <;> rfl, decoded⟩

end ViewRef

namespace ValueExpression

/-- The decoded source of a value is well-formed. -/
theorem wellFormed_of_decode {document : Json} {expression : ValueExpression}
    (decoded : decode document = .ok expression) : expression.WellFormed := by
  simp only [decode, Decoded.bind_eq_ok_iff] at decoded
  obtain ⟨untyped, -, word, -, kind, -, decoded⟩ := decoded
  have operands := Operand.partsSatisfy document
  cases kind with
  | viewResult =>
    simp only [Decoded.bind_eq_ok_iff, Decoded.pure_eq_ok_iff] at decoded
    obtain ⟨view, readView, params, readParams, rfl⟩ := decoded
    obtain ⟨part, -, readView⟩ := Fields.requiredNode_eq_ok_iff.mp readView
    exact ⟨ViewRef.wellFormed_of_decode readView, operands.mapping readParams⟩
  | distance =>
    simp only [Decoded.bind_eq_ok_iff, Decoded.pure_eq_ok_iff] at decoded
    obtain ⟨start, readStart, finish, readFinish, unit, -, rfl⟩ := decoded
    exact ⟨operands.requiredOperand readStart, operands.requiredOperand readFinish⟩
  | field =>
    obtain ⟨path, read, rfl⟩ := Decoded.map_eq_ok_iff.mp decoded
    exact (Fields.requiredPath_eq_ok_iff.mp read).2
  | literal =>
    dsimp only at decoded
    split at decoded
    · cases Decoded.pure_eq_ok_iff.mp decoded
      trivial
    · exact absurd decoded Decoded.fail_ne_ok
  | transform =>
    obtain ⟨transform, read, rfl⟩ := Decoded.map_eq_ok_iff.mp decoded
    obtain ⟨part, -, read⟩ := Fields.requiredNode_eq_ok_iff.mp read
    exact Transform.wellFormed_of_decode read

/-- The well-formed source of a value is read back if its leaves are stable. -/
theorem decode_encode {expression : ValueExpression} (wellFormed : expression.WellFormed)
    (stable : Leaf.AllStable expression.leaves) : decode expression.encode = .ok expression := by
  cases expression with
  | viewResult view params =>
    have fills := ViewRef.fills (ViewRef.decode_encode wellFormed.1 stable)
    have paramsRead := Fills.forall₂_mapValues fun entry member =>
      Operand.decode_encode entry.2 (wellFormed.2 entry member)
    rw [encode, decode, Record.bind_kind ValueExpressionKind.viewResult (by simp [kind])]
    simp only [Decoded.bind_eq_ok_iff, Decoded.pure_eq_ok_iff]
    exact ⟨view, fills.required (by simp), params, Fills.nonemptyMapping paramsRead (by simp), rfl⟩
  | distance start finish unit =>
    rw [encode, decode, Record.bind_kind ValueExpressionKind.distance (by simp [kind])]
    simp only [Decoded.bind_eq_ok_iff, Decoded.pure_eq_ok_iff]
    exact ⟨start, (Operand.fills_of_given start wellFormed.1).required (by simp),
      finish, (Operand.fills_of_given finish wellFormed.2).required (by simp),
      unit, Fields.keyword?_of_lookup (by simp), rfl⟩
  | field path =>
    rw [encode, decode, Record.bind_kind ValueExpressionKind.field (by simp [kind])]
    exact Decoded.map_eq_ok_iff.mpr
      ⟨path, Fields.requiredPath_of_lookup (by simp) wellFormed, rfl⟩
  | literal value =>
    rw [encode, decode, Record.bind_kind ValueExpressionKind.literal (by simp [kind])]
    have written : ((Record.typed (kind (literal value))).field "value" value).lookup "value" =
        some value := by simp
    simp only [Record.entries_fields, Fields.entries_forKind, written]
    rfl
  | transform computation =>
    have fills := Transform.fills (Transform.decode_encode computation wellFormed)
    rw [encode, decode, Record.bind_kind ValueExpressionKind.transform (by simp [kind])]
    exact Decoded.map_eq_ok_iff.mpr ⟨computation, fills.required (by simp), rfl⟩

/-- The source of a value that is read back fills a field. -/
theorem fills {expression : ValueExpression}
    (decoded : decode expression.encode = .ok expression) :
    Fills decode expression.encode expression :=
  ⟨rfl, decoded⟩

end ValueExpression

end GameRules
