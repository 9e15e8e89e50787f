import GameRules.Proofs.Effect
import GameRules.Proofs.Effect.Views
import GameRules.Proofs.Where.Nameless
import Mathlib.Logic.Function.Iterate

/-!
# Effects that are written and read again and again

Reading an effect back from its own document reads each of its references to views back at its place
and keeps everything else. A view in place is read back if it compares no field without a name. A
name is written without its qualifier, and reading takes one qualifier off: a name that still looks
qualified loses one qualifier in each cycle, until a plain name is left or nothing at all, which is
refused. Hence an effect is kept by all cycles exactly when its leaves are stable.
-/

namespace GameRules

namespace ViewOperation

/-- A stage that is read back from its document compares only fields with names. -/
theorem stable_of_decode_encode {operation : ViewOperation}
    (decoded : decode operation.encode = .ok operation) : Leaf.AllStable operation.leaves := by
  cases operation with
  | filter condition =>
    rw [encode, decode, Record.bind_kind ViewOperationKind.filter (by simp [kind])] at decoded
    obtain ⟨_, read, same⟩ := Decoded.map_eq_ok_iff.mp decoded
    cases same
    have read := (Fields.requiredNode_iff_of_lookup (by simp) condition.notNull_encode).mp read
    exact WhereClause.stable_of_decode_encode condition read
  | map | sort | window | groupBy | field | distance | proximity | rows =>
    exact List.forall_mem_nil _

end ViewOperation

namespace View

/-- A view that is read back from its document compares only fields with names. -/
theorem stable_of_decode_encode {view : View} (decoded : decode view.encode = .ok view) :
    Leaf.AllStable view.leaves := by
  obtain ⟨name, source, pipeline, params⟩ := view
  rw [encode, decode] at decoded
  simp only [Decoded.bind_eq_ok_iff, Decoded.pure_eq_ok_iff] at decoded
  obtain ⟨fields, same, _, read, _, -, _, -, _, -, kept⟩ := decoded
  cases Record.of_build _ _ ▸ same
  cases kept
  have items := decodePipeline_eq_ok_iff.mp read
  have stages : List.Forall₂
      (fun document operation => ViewOperation.decode document = .ok operation)
      (pipeline.map ViewOperation.encode) pipeline :=
    (Fields.items_iff (Fields.value?_of_nonemptyList (by simp))).mp items
  rw [List.forall₂_map_left_iff, List.forall₂_same] at stages
  intro leaf member
  obtain ⟨operation, inPipeline, inside⟩ := List.mem_flatMap.mp member
  exact ViewOperation.stable_of_decode_encode (stages operation inPipeline) leaf inside

end View

namespace ViewRef

/-- What a reference to a view is read back as from its document, if it is read. -/
def reread? (view : ViewRef) : Option ViewRef := (decode view.encode).toOption

/-- The document of a reference to a view is not null. -/
theorem notNull_encode (view : ViewRef) : view.encode.isNull = false := by
  cases view <;> rfl

/-- A reference after so many cycles of writing and reading. -/
def cycles : Nat → ViewRef → Option ViewRef
  | 0, view => some view
  | count + 1, view => view.reread?.bind (cycles count)

/-- A name without its qualifier, if it has one. -/
def unqualified (name : String) : String :=
  String.ofList ((Text.stripFront? "view:".toList name.toList).getD name.toList)

/-- A name loses a qualifier when it is read back, and is refused if nothing is left. -/
theorem reread?_named (name : String) : (named name).reread? =
    if unqualified name = "" then none else some (named (unqualified name)) := by
  rw [reread?, encode, decode, unqualified]
  generalize (Text.stripFront? "view:".toList name.toList).getD name.toList = rest
  cases rest with
  | nil => rfl
  | cons next rest => simp [Except.toOption]

/-- Nothing is left of nothing. -/
theorem unqualified_empty : unqualified "" = "" := rfl

/-- A name loses a qualifier in each cycle, and is refused once nothing is left. -/
theorem cycles_named (count : Nat) {name : String} (nonempty : name ≠ "") :
    cycles count (named name) =
      if unqualified^[count] name = "" then none else some (named (unqualified^[count] name)) := by
  induction count generalizing name with
  | zero => simp [cycles, nonempty]
  | succ count ih =>
    rw [cycles, reread?_named, Function.iterate_succ_apply]
    by_cases nothing : unqualified name = ""
    · rw [nothing, Function.iterate_fixed unqualified_empty]
      simp
    · rw [if_neg nothing]
      exact ih nothing

/-- A name is kept unless it looks qualified. -/
theorem unqualified_eq_self_iff {name : String} :
    unqualified name = name ↔ ¬"view:".toList <+: name.toList := by
  rw [unqualified]
  cases stripped : Text.stripFront? "view:".toList name.toList with
  | none =>
    simp only [Option.getD_none, String.ofList_toList, true_iff]
    rintro ⟨rest, same⟩
    rw [Text.stripFront?_eq_some_iff.mpr same.symm] at stripped
    cases stripped
  | some rest =>
    have split := Text.stripFront?_eq_some_iff.mp stripped
    refine iff_of_false (fun same => ?_) (not_not_intro ⟨rest, split.symm⟩)
    have lengths := congrArg (List.length ∘ String.toList) same
    simp only [Function.comp_apply, Option.getD_some, String.toList_ofList, split,
      List.length_append, String.reduceToList, List.length_cons] at lengths
    omega

/-- A well-formed reference to a view is kept exactly when its leaves are stable. -/
theorem reread?_eq_self_iff {view : ViewRef} (wellFormed : view.WellFormed) :
    view.reread? = some view ↔ Leaf.AllStable view.leaves := by
  refine ⟨fun kept => ?_, fun stable =>
    Decoded.toOption_eq_some_iff.mpr (decode_encode wellFormed stable)⟩
  cases view with
  | named name =>
    rw [reread?_named] at kept
    split at kept
    · cases kept
    · have same : unqualified name = name := by simpa using kept
      exact List.forall_mem_singleton.mpr (unqualified_eq_self_iff.mp same)
  | inPlace view =>
    have read := Decoded.toOption_eq_some_iff.mp kept
    rw [encode, View.encode, Record.build, decode] at read
    obtain ⟨_, read, same⟩ := Decoded.map_eq_ok_iff.mp read
    cases same
    exact View.stable_of_decode_encode read

end ViewRef

namespace ValueExpression

/-- The source of a value is read back with its reference to a view read back. -/
theorem decode_encode_iff {expression other : ValueExpression}
    (wellFormed : expression.WellFormed) :
    decode expression.encode = .ok other ↔ expression.mapViews? ViewRef.reread? = some other := by
  cases expression with
  | viewResult view params =>
    have paramsRead := Fills.forall₂_mapValues fun entry member =>
      Operand.decode_encode entry.2 (wellFormed.2 entry member)
    rw [encode, decode, Record.bind_kind ValueExpressionKind.viewResult (by simp [kind])]
    simp only [Decoded.bind_eq_ok_iff, Decoded.pure_eq_ok_iff]
    constructor
    · rintro ⟨found, readView, _, readParams, rfl⟩
      cases (Fills.nonemptyMapping paramsRead (by simp)).symm.trans readParams
      have read := (Fields.requiredNode_iff_of_lookup (by simp) view.notNull_encode).mp readView
      exact Option.bind_eq_some_iff.mpr ⟨found, Decoded.toOption_eq_some_iff.mpr read, rfl⟩
    · intro changed
      obtain ⟨found, read, same⟩ := Option.bind_eq_some_iff.mp changed
      cases same
      have read := Decoded.toOption_eq_some_iff.mp read
      exact ⟨found, (Fields.requiredNode_iff_of_lookup (by simp) view.notNull_encode).mpr read,
        params, Fills.nonemptyMapping paramsRead (by simp), rfl⟩
  | distance | field | literal | transform =>
    rw [decode_encode wellFormed (List.forall_mem_nil _)]
    simp [mapViews?]

end ValueExpression

namespace Effect

variable {whole : Json} {fields : Fields whole}

/-- A change of a location is read back with its reference to a view read back. -/
theorem decodeChange_iff {record : Record} {change other : Change} (wellFormed : change.WellFormed)
    (written : fields.entries = change.encodeInto record) :
    decodeChange change.kind fields = .ok other ↔
      change.mapViews? ViewRef.reread? = some other := by
  cases change with
  | setFromView value =>
    have value_iff (found : ValueExpression) : fields.requiredNode "valueExpression"
        (fun part _ => ValueExpression.decode part) = .ok found ↔
          value.mapViews? ViewRef.reread? = some found := by
      rw [← ValueExpression.decode_encode_iff wellFormed]
      exact Fields.requiredNode_iff_of_lookup (by simp [written, Change.encodeInto]) rfl
    simp [decodeChange, Change.kind, Change.mapViews?, Decoded.map_eq_ok_iff, value_iff,
      Option.bind_eq_some_iff]
  | set | increment | decrement | transform =>
    rw [decodeChange_of_encodeInto wellFormed (List.forall_mem_nil _) written]
    simp [Change.mapViews?]

/-- Targets are read back with their reference to a view read back. -/
theorem decodeTargets_iff {targets other : Option ViewRef}
    (written : fields.entries.lookup "targets" = targets.map ViewRef.encode) :
    decodeTargets fields = .ok other ↔ targets.mapM ViewRef.reread? = some other :=
  Fields.node?_iff_of_lookup written ViewRef.notNull_encode

end Effect

mutual

/-- An effect is read back with each of its references to views read back. -/
theorem Effect.decode_encode_iff : ∀ effect : Effect, effect.WellFormed → ∀ other : Effect,
    Effect.decode effect.encode = .ok other ↔ effect.mapViews? ViewRef.reread? = some other
  | .mutate targets path change, ⟨_, named, changeFormed⟩, other => by
    rw [Effect.encode, Effect.decode,
      Effect.bind_kind (.mutate change.kind) (by simp [Effect.lookup_encodeInto])]
    simp only [Decoded.bind_eq_ok_iff, Decoded.pure_eq_ok_iff]
    constructor
    · rintro ⟨readTargets, targetsRead, _, pathRead, readChange, changeRead, rfl⟩
      cases (Fields.requiredPath_of_lookup (by simp [Effect.lookup_encodeInto]) named).symm.trans
        pathRead
      have targetsKept : targets.mapM ViewRef.reread? = some readTargets :=
        (Effect.decodeTargets_iff (by simp [Effect.lookup_encodeInto])).mp targetsRead
      have changeKept := (Effect.decodeChange_iff changeFormed rfl).mp changeRead
      exact Option.bind_eq_some_iff.mpr ⟨readTargets, targetsKept,
        Option.bind_eq_some_iff.mpr ⟨readChange, changeKept, rfl⟩⟩
    · intro mapped
      obtain ⟨readTargets, targetsKept, mapped⟩ := Option.bind_eq_some_iff.mp mapped
      obtain ⟨readChange, changeKept, same⟩ := Option.bind_eq_some_iff.mp mapped
      exact ⟨readTargets,
        (Effect.decodeTargets_iff (by simp [Effect.lookup_encodeInto])).mpr targetsKept,
        path, Fields.requiredPath_of_lookup (by simp [Effect.lookup_encodeInto]) named,
        readChange, (Effect.decodeChange_iff changeFormed rfl).mpr changeKept, Option.some.inj same⟩
  | .destroy targets, _, other => by
    rw [Effect.encode, Effect.decode, Effect.bind_kind .destroy (by simp), Effect.mapViews?]
    refine Decoded.map_eq_ok_iff.trans (Iff.trans ?_ Option.bind_eq_some_iff.symm)
    refine exists_congr fun found => and_congr (Effect.decodeTargets_iff (by simp)) ?_
    exact Option.some_inj.symm
  | .branch condition consequent alternative, ⟨testFormed, thenFormed, elseFormed⟩, other => by
    have fills := Expression.fills (Expression.decode_encode condition testFormed)
    rw [Effect.encode, Effect.decode, Effect.bind_kind .branch (by simp)]
    simp only [Decoded.bind_eq_ok_iff, Decoded.pure_eq_ok_iff]
    constructor
    · rintro ⟨_, -, _, testRead, readThen, thenRead, readElse, elseRead, rfl⟩
      cases (fills.required (by simp)).symm.trans testRead
      have thenKept := (Effect.decodeAll_encodeAll_iff consequent thenFormed readThen).mp
        ((Fields.list_iff_of_lookup (by simp)).mp thenRead)
      have elseKept := (Effect.decodeAll_encodeAll_iff alternative elseFormed readElse).mp
        ((Fields.list_iff_of_nonemptyList (by simp)).mp elseRead)
      exact Option.bind_eq_some_iff.mpr ⟨readThen, thenKept,
        Option.bind_eq_some_iff.mpr ⟨readElse, elseKept, rfl⟩⟩
    · intro mapped
      obtain ⟨readThen, thenKept, mapped⟩ := Option.bind_eq_some_iff.mp mapped
      obtain ⟨readElse, elseKept, same⟩ := Option.bind_eq_some_iff.mp mapped
      have thenRead := (Effect.decodeAll_encodeAll_iff consequent thenFormed readThen).mpr thenKept
      have elseRead := (Effect.decodeAll_encodeAll_iff alternative elseFormed readElse).mpr elseKept
      exact ⟨.array (Effect.encodeAll consequent),
        Fields.required_eq_ok_iff.mpr (Fields.value?_of_lookup (by simp) rfl),
        condition, fills.required (by simp), readThen, Fills.list thenRead (by simp),
        readElse, Fills.nonemptyList elseRead (by simp), Option.some.inj same⟩
  | .sequence effects, wellFormed, other => by
    rw [Effect.encode, Effect.decode, Effect.bind_kind .sequence (by simp)]
    simp only [Decoded.bind_eq_ok_iff, Decoded.pure_eq_ok_iff]
    constructor
    · rintro ⟨_, -, found, read, rfl⟩
      have kept := (Effect.decodeAll_encodeAll_iff effects wellFormed found).mp
        ((Fields.list_iff_of_lookup (by simp)).mp read)
      exact Option.bind_eq_some_iff.mpr ⟨found, kept, rfl⟩
    · intro mapped
      obtain ⟨found, kept, same⟩ := Option.bind_eq_some_iff.mp mapped
      have read := (Effect.decodeAll_encodeAll_iff effects wellFormed found).mpr kept
      exact ⟨.array (Effect.encodeAll effects),
        Fields.required_eq_ok_iff.mpr (Fields.value?_of_lookup (by simp) rfl),
        found, Fills.list read (by simp), Option.some.inj same⟩
  | .spawn entity fields, wellFormed, other => by
    rw [Effect.decode_encode (.spawn entity fields) wellFormed (List.forall_mem_nil _)]
    simp [Effect.mapViews?]
  | .emit event payload, wellFormed, other => by
    rw [Effect.decode_encode (.emit event payload) wellFormed (List.forall_mem_nil _)]
    simp [Effect.mapViews?]
  | .control op target, wellFormed, other => by
    rw [Effect.decode_encode (.control op target) wellFormed (List.forall_mem_nil _)]
    simp [Effect.mapViews?]
  | .log message level, wellFormed, other => by
    rw [Effect.decode_encode (.log message level) wellFormed (List.forall_mem_nil _)]
    simp [Effect.mapViews?]

/-- The effects of a list are read back with each of their references to views read back. -/
theorem Effect.decodeAll_encodeAll_iff : ∀ effects : List Effect, Effect.WellFormedAll effects →
    ∀ others : List Effect,
      List.Forall₂ (fun document effect => Effect.decode document = .ok effect)
        (Effect.encodeAll effects) others ↔
          Effect.mapAllViews? ViewRef.reread? effects = some others
  | [], _, others => by simp [Effect.encodeAll, Effect.mapAllViews?, eq_comm]
  | effect :: effects, ⟨wellFormed, allFormed⟩, others => by
    rw [Effect.encodeAll, List.forall₂_cons_left_iff, Effect.mapAllViews?]
    constructor
    · rintro ⟨read, rest, effectRead, restRead, rfl⟩
      have kept := (Effect.decode_encode_iff effect wellFormed read).mp effectRead
      have restKept := (Effect.decodeAll_encodeAll_iff effects allFormed rest).mp restRead
      exact Option.bind_eq_some_iff.mpr ⟨read, kept,
        Option.bind_eq_some_iff.mpr ⟨rest, restKept, rfl⟩⟩
    · intro mapped
      obtain ⟨read, kept, mapped⟩ := Option.bind_eq_some_iff.mp mapped
      obtain ⟨rest, restKept, same⟩ := Option.bind_eq_some_iff.mp mapped
      exact ⟨read, rest, (Effect.decode_encode_iff effect wellFormed read).mpr kept,
        (Effect.decodeAll_encodeAll_iff effects allFormed rest).mpr restKept,
        (Option.some.inj same).symm⟩

end

mutual

/-- The leaves of an effect are those of its references to views. -/
theorem Effect.leaves_eq : ∀ effect : Effect, effect.leaves = effect.views.flatMap ViewRef.leaves
  | .mutate targets path change => by
    have changeLeaves : change.leaves = change.views.flatMap ViewRef.leaves := by
      cases change with
      | setFromView value => cases value <;> simp [Change.leaves, Change.views,
          ValueExpression.leaves, ValueExpression.views]
      | set | increment | decrement | transform => rfl
    rw [Effect.leaves, Effect.views, changeLeaves, List.flatMap_append]
  | .destroy targets => rfl
  | .branch condition consequent alternative => by
    rw [Effect.leaves, Effect.views, Effect.leavesAll_eq consequent,
      Effect.leavesAll_eq alternative, List.flatMap_append]
  | .sequence effects => Effect.leavesAll_eq effects
  | .spawn .. => rfl
  | .emit .. => rfl
  | .control .. => rfl
  | .log .. => rfl

/-- The leaves of the effects of a list are those of their references to views. -/
theorem Effect.leavesAll_eq : ∀ effects : List Effect,
    Effect.leavesAll effects = (Effect.viewsOfAll effects).flatMap ViewRef.leaves
  | [] => rfl
  | effect :: effects => by
    rw [Effect.leavesAll, Effect.viewsOfAll, Effect.leaves_eq effect, Effect.leavesAll_eq effects,
      List.flatMap_append]

end

mutual

/-- The references to views in a well-formed effect are well-formed. -/
theorem Effect.WellFormed.views : ∀ effect : Effect, effect.WellFormed →
    ∀ view ∈ effect.views, view.WellFormed
  | .mutate targets path change, ⟨targetsFormed, _, changeFormed⟩ => by
    refine List.forall_mem_append.mpr
      ⟨fun view member => targetsFormed view (Option.mem_toList.mp member), ?_⟩
    cases change with
    | setFromView value =>
      cases value with
      | viewResult view params => exact List.forall_mem_singleton.mpr changeFormed.1
      | distance | field | literal | transform => exact List.forall_mem_nil _
    | set | increment | decrement | transform => exact List.forall_mem_nil _
  | .destroy targets, wellFormed => fun view member =>
    wellFormed view (Option.mem_toList.mp member)
  | .branch _ consequent alternative, ⟨_, thenFormed, elseFormed⟩ =>
    List.forall_mem_append.mpr ⟨Effect.WellFormed.viewsOfAll consequent thenFormed,
      Effect.WellFormed.viewsOfAll alternative elseFormed⟩
  | .sequence effects, wellFormed => Effect.WellFormed.viewsOfAll effects wellFormed
  | .spawn .., _ => List.forall_mem_nil _
  | .emit .., _ => List.forall_mem_nil _
  | .control .., _ => List.forall_mem_nil _
  | .log .., _ => List.forall_mem_nil _

/-- The references to views in well-formed effects of a list are well-formed. -/
theorem Effect.WellFormed.viewsOfAll : ∀ effects : List Effect, Effect.WellFormedAll effects →
    ∀ view ∈ Effect.viewsOfAll effects, view.WellFormed
  | [], _ => List.forall_mem_nil _
  | effect :: effects, ⟨wellFormed, others⟩ =>
    List.forall_mem_append.mpr ⟨Effect.WellFormed.views effect wellFormed,
      Effect.WellFormed.viewsOfAll effects others⟩

end

namespace Effect

/-- What an effect is read back as from its document, if it is read. -/
def reread? (effect : Effect) : Option Effect := (decode effect.encode).toOption

/-- An effect after so many cycles of writing and reading. -/
def cycles : Nat → Effect → Option Effect
  | 0, effect => some effect
  | count + 1, effect => effect.reread?.bind (cycles count)

/-- Reading an effect back reads each of its references to views back at its place. -/
theorem reread?_eq {effect : Effect} (wellFormed : effect.WellFormed) :
    effect.reread? = effect.mapViews? ViewRef.reread? := by
  refine Option.ext fun other => ?_
  exact Decoded.toOption_eq_some_iff.trans (decode_encode_iff effect wellFormed other)

/-- In each number of cycles, an effect changes as each of its references to views changes. -/
theorem cycles_eq (count : Nat) {effect : Effect} (wellFormed : effect.WellFormed) :
    effect.cycles count = effect.mapViews? (ViewRef.cycles count) := by
  induction count generalizing effect with
  | zero => exact ((mapViews?_eq_self_iff effect).mpr fun _ _ => rfl).symm
  | succ count ih =>
    have later : effect.reread?.bind (cycles count) =
        effect.reread?.bind (mapViews? (ViewRef.cycles count)) := by
      refine Option.bind_congr fun other read => ih ?_
      exact wellFormed_of_decode (Decoded.toOption_eq_some_iff.mp read)
    rw [cycles, later, reread?_eq wellFormed, mapViews?_bind]
    rfl

/-- An effect that is read back as it is, is kept by all cycles. -/
theorem cycles_of_reread? {effect : Effect} (kept : effect.reread? = some effect) (count : Nat) :
    effect.cycles count = some effect := by
  induction count with
  | zero => rfl
  | succ count ih =>
    rw [cycles, kept]
    exact ih

/-- An accepted effect that is written and read again and again changes as its references to views
do, each at its place. A reference by name loses one qualifier in each cycle, and is refused once
nothing is left. So the effect is the same after all cycles exactly when no view in it is named by
what looks qualified and no view in place compares a field without a name. -/
theorem cycles_of_decode {document : Json} {effect : Effect}
    (decoded : decode document = .ok effect) :
    (∀ count, effect.cycles count = effect.mapViews? (ViewRef.cycles count)) ∧
      (∀ name count, ViewRef.named name ∈ effect.views →
        ViewRef.cycles count (.named name) =
          if ViewRef.unqualified^[count] name = "" then none
          else some (.named (ViewRef.unqualified^[count] name))) ∧
      ((∀ count, effect.cycles count = some effect) ↔ ∀ leaf ∈ effect.leaves, leaf.Stable) := by
  have wellFormed := wellFormed_of_decode decoded
  refine ⟨fun count => cycles_eq count wellFormed, fun name count member => ?_, fun kept => ?_,
    fun stable count => ?_⟩
  · have nonempty : name ≠ "" := WellFormed.views effect wellFormed _ member
    exact ViewRef.cycles_named count nonempty
  · have once : effect.mapViews? ViewRef.reread? = some effect := by
      have first : effect.reread?.bind some = some effect := kept 1
      rw [Option.bind_fun_some, reread?_eq wellFormed] at first
      exact first
    have references := (mapViews?_eq_self_iff effect).mp once
    rw [leaves_eq]
    intro leaf member
    obtain ⟨view, inViews, inside⟩ := List.mem_flatMap.mp member
    have formed := WellFormed.views effect wellFormed view inViews
    exact (ViewRef.reread?_eq_self_iff formed).mp (references view inViews) leaf inside
  · exact cycles_of_reread?
      (Decoded.toOption_eq_some_iff.mpr (decode_encode effect wellFormed stable)) count

/-- A name that is qualified once is kept as the plain name by all cycles. -/
theorem cycles_of_decode_ranked :
    decode (.object [("targets", .string "view:ranked"), ("type", .string "Destroy")]) =
        .ok (.destroy (some (.named "ranked"))) ∧
      ∀ count, cycles count (.destroy (some (.named "ranked"))) =
        some (.destroy (some (.named "ranked"))) := by
  have decoded :
      decode (.object [("targets", .string "view:ranked"), ("type", .string "Destroy")]) =
        .ok (.destroy (some (.named "ranked"))) := by
    rw [decode]
    rfl
  refine ⟨decoded, (cycles_of_decode decoded).2.2.mpr fun leaf member => ?_⟩
  cases List.mem_singleton.mp member
  show ¬"view:".toList <+: "ranked".toList
  decide

/-- A name that is qualified twice stands for another view after the first cycle, and the second
qualifier alone is refused. -/
theorem cycles_qualified :
    decode (.object [("targets", .string "view:view:ranked"), ("type", .string "Destroy")]) =
        .ok (.destroy (some (.named "view:ranked"))) ∧
      cycles 1 (.destroy (some (.named "view:ranked"))) = some (.destroy (some (.named "ranked"))) ∧
      decode (.object [("targets", .string "view:view:"), ("type", .string "Destroy")]) =
        .ok (.destroy (some (.named "view:"))) ∧
      cycles 1 (.destroy (some (.named "view:"))) = none := by
  have qualified : WellFormed (.destroy (some (.named "view:ranked"))) := by
    rintro view ⟨⟩
    show "view:ranked" ≠ ""
    decide
  have empty : WellFormed (.destroy (some (.named "view:"))) := by
    rintro view ⟨⟩
    show "view:" ≠ ""
    decide
  refine ⟨?_, ?_, ?_, ?_⟩
  · rw [decode]
    rfl
  · rw [cycles_eq 1 qualified]
    rfl
  · rw [decode]
    rfl
  · rw [cycles_eq 1 empty]
    rfl

end Effect

end GameRules
