import GameRules.Proofs.Lookups.Kinds
import GameRules.Proofs.Value.WellFormed
import GameRules.Proofs.Waypoints.Fields
import GameRules.Proofs.Where

/-!
# Nodes that no waypoint leads into

Values, conditions, views, selectors, triggers and filters have lists and names of their own, but none
of them is a waypoint. So what is wrong with such a node is a local error, wherever in it the fault is.
The same goes for the parts of an effect that are not effects.
-/

namespace GameRules

open Decoded (IsLocal)

/-- What goes on from the kind of an object has local errors if it does for every kind. -/
theorem Fields.kind_isLocal {α κ : Type} [Keyword κ] {node : NodeKind} {document : Json}
    {next : Fields document → String → κ → Decoded α}
    (each : ∀ fields word kind, IsLocal (next fields word kind)) :
    IsLocal (do
      let untyped ← Fields.of node document
      let word ← untyped.kindWord
      let kind ← untyped.kindOf word
      next untyped word kind) :=
  (Fields.of_isLocal node document).bind fun untyped => untyped.kindWord_isLocal.bind fun word =>
    (untyped.kindOf_isLocal word).bind (each untyped word)

section Values

variable {whole : Json} {fields : Fields whole}

/-- A logical combination has local errors if its parts do. -/
theorem PartsLocal.combined {α : Type} {decode : Json → Decoded α} {all any : List α → α}
    {not : α → α} {plain : Decoded α} (parts : PartsLocal whole decode) (single : IsLocal plain) :
    IsLocal (fields.combined decode all any not plain) := by
  have listed {key : String} (aside : key ∉ Position.waypointLabels) :
      IsLocal (fields.combination? key fun part _ => decode part) := by
    unfold Fields.combination?
    split
    · exact .ok none
    · rename_i items given
      have items : IsLocal (decodeItems key 0 items fun item _ => decode item) :=
        decodeItems_isLocal aside fun item member => parts item (Fields.sizeOf_item given member)
      exact items.map
    · exact .fail _
  refine (listed (by decide)).bind fun items => ?_
  cases items with
  | some items => exact .ok _
  | none =>
    refine (listed (by decide)).bind fun items => ?_
    cases items with
    | some items => exact .ok _
    | none =>
      refine (parts.node? "not").bind fun item => ?_
      cases item with
      | some item => exact .ok _
      | none => exact single

/-- A computation has local errors if its operands and conditions do. -/
theorem Transform.isLocal_of_parts (operands : PartsLocal whole Operand.decode)
    (conditions : PartsLocal whole Expression.decode) : IsLocal (Transform.decode whole) := by
  rw [Transform.decode_eq]
  refine Fields.kind_isLocal fun fields word kind => ?_
  generalize fields.forKind word = fields
  have operand (key : String) : IsLocal (fields.requiredNode key fun part _ => Operand.decode part) :=
    operands.requiredNode key
  have operand? (key : String) : IsLocal (fields.node? key fun part _ => Operand.decode part) :=
    operands.node? key
  have values (key : String) : IsLocal (fields.list key "value" fun part _ => Operand.decode part) :=
    operands.list key (by decide)
  have unit : IsLocal (fields.keyword? "unit" : Decoded (Option DistanceUnit)) :=
    fields.keyword?_isLocal "unit"
  cases kind with
  | binary op => exact (operand "left").bind fun _ => (operand "right").bind fun _ => .ok _
  | unary op => exact (operand "value").bind fun _ => .ok _
  | variadic op => exact (Fields.required_isLocal _ _).bind fun _ => (values _).bind fun _ => .ok _
  | clamp =>
    exact (operand "value").bind fun _ => (operand "min").bind fun _ => (operand "max").bind
      fun _ => .ok _
  | lerp =>
    exact (operand "from").bind fun _ => (operand "to").bind fun _ => (operand "t").bind
      fun _ => .ok _
  | moveTowards =>
    exact (operand "current").bind fun _ => (operand "target").bind fun _ => (operand "speed").bind
      fun _ => .ok _
  | random => exact (operand? "min").bind fun _ => (operand? "max").bind fun _ => .ok _
  | gpsDistance =>
    exact (operand "from").bind fun _ => (operand "to").bind fun _ => unit.bind fun _ => .ok _
  | gpsBearing => exact (operand "from").bind fun _ => (operand "to").bind fun _ => .ok _
  | gpsMoveTowards =>
    exact (operand "current").bind fun _ => (operand "target").bind fun _ => (operand "speed").bind
      fun _ => unit.bind fun _ => .ok _
  | pointInPolygon => exact (operand "point").bind fun _ => (operand "polygon").bind fun _ => .ok _
  | format => exact (operand "format").bind fun _ => (values "values").bind fun _ => .ok _
  | choose =>
    exact (conditions.requiredNode "condition").bind fun _ => (operand "then").bind fun _ =>
      (operand? "else").bind fun _ => .ok _
  | now | uuid => exact .ok _
  | addDuration => exact (operand "value").bind fun _ => (operand "duration").bind fun _ => .ok _

/-- An operand has local errors if the computation that it may be has. -/
theorem Operand.isLocal_of_transform (computation : IsLocal (Transform.decode whole)) :
    IsLocal (Operand.decode whole) := by
  rw [Operand.decode.eq_def]
  split
  · exact .ite (.ok _) (.ok _)
  · exact .ite computation.map (.ok _)

/-- A condition has local errors if its operands and conditions do. -/
theorem Expression.isLocal_of_parts (operands : PartsLocal whole Operand.decode)
    (conditions : PartsLocal whole Expression.decode) : IsLocal (Expression.decode whole) := by
  by_cases isText : ∃ text, whole = .string text
  · obtain ⟨text, rfl⟩ := isText
    rw [Expression.decode]
    exact .ite (.ok _) (.ok _)
  · rw [Expression.decode_of_not_text (not_exists.mp isText)]
    refine (Fields.of_isLocal .expression whole).bind fun fields => ?_
    refine conditions.combined (.ite ?_ (.fail _))
    exact (operands.requiredNode "left").bind fun _ => (fields.keyword?_isLocal "op").bind fun _ =>
      (operands.node? "right").bind fun _ => .ok _

/-- What is wrong with a value or a condition below a size is a local error. -/
theorem Operand.isLocal_of_size (bound : Nat) (document : Json) (small : sizeOf document < bound) :
    IsLocal (Operand.decode document) ∧ IsLocal (Transform.decode document) ∧
      IsLocal (Expression.decode document) := by
  induction bound generalizing document with
  | zero => omega
  | succ bound ih =>
    have parts (part : Json) (smaller : sizeOf part < sizeOf document) := ih part (by omega)
    have operands : PartsLocal document Operand.decode := fun part smaller => (parts part smaller).1
    have conditions : PartsLocal document Expression.decode :=
      fun part smaller => (parts part smaller).2.2
    have computation := Transform.isLocal_of_parts operands conditions
    exact ⟨Operand.isLocal_of_transform computation, computation,
      Expression.isLocal_of_parts operands conditions⟩

/-- What is wrong with an operand is a local error. -/
theorem Operand.decode_isLocal (document : Json) : IsLocal (decode document) :=
  (isLocal_of_size _ document (Nat.lt_succ_self _)).1

/-- What is wrong with a computation is a local error. -/
theorem Transform.decode_isLocal (document : Json) : IsLocal (decode document) :=
  (Operand.isLocal_of_size _ document (Nat.lt_succ_self _)).2.1

/-- What is wrong with a condition is a local error. -/
theorem Expression.decode_isLocal (document : Json) : IsLocal (decode document) :=
  (Operand.isLocal_of_size _ document (Nat.lt_succ_self _)).2.2

end Values

namespace WhereClause

/-- What is wrong with an entry of a short form is a local error. -/
theorem shorthandEntry_isLocal (field : String) (document : Json) :
    IsLocal (shorthandEntry field document) := by
  have valueLocal (value : Json) : IsLocal (shorthandValue field value) :=
    .ite (.ok none) ((Operand.decode_isLocal value).inside rfl).map
  unfold shorthandEntry
  split
  · exact .fail _
  · split
    · exact .fail _
    · exact (valueLocal _).map
  · exact .fail _
  · exact (valueLocal _).map

/-- What is wrong with a short form is a local error. -/
theorem decodeShorthand_isLocal (entries : Entries Json) : IsLocal (decodeShorthand entries) := by
  have each : IsLocal (shorthandEntries entries) := by
    induction entries with
    | nil => exact .ok []
    | cons entry entries ih =>
      exact (shorthandEntry_isLocal entry.1 entry.2).bind fun _ => ih.bind fun _ => .ok _
  refine each.bind fun clauses => ?_
  split
  · exact .fail _
  · exact .ok _
  · exact .ok _

/-- What is wrong with a condition on entities is a local error. -/
theorem decode_isLocal (document : Json) : IsLocal (decode document) := by
  induction bound : sizeOf document using Nat.strongRecOn generalizing document with
  | _ size ih =>
    have parts : PartsLocal document decode := fun part smaller =>
      ih (sizeOf part) (bound ▸ smaller) part rfl
    rw [decode_eq]
    refine (Fields.of_isLocal .whereClause document).bind fun fields => ?_
    have strict : IsLocal fields.isStrictClause :=
      (fields.nonemptyString?_isLocal "field").bind fun _ => .ok _
    refine strict.bind fun strict => .ite (parts.combined ?_) (decodeShorthand_isLocal _)
    exact (fields.requiredString_isLocal "field").bind fun _ => (fields.keyword?_isLocal "op").bind
      fun _ => (fields.node?_isLocal "value" Operand.decode_isLocal).bind fun _ => .ok _

end WhereClause

namespace ViewOperation

/-- What is wrong with a stage of a view of a known kind is a local error. -/
theorem decodeAs_isLocal {whole : Json} (kind : ViewOperationKind) (fields : Fields whole) :
    IsLocal (decodeAs kind fields) := by
  have operand? (key : String) := fields.node?_isLocal key Operand.decode_isLocal
  cases kind with
  | filter => exact (fields.requiredNode_isLocal "where" WhereClause.decode_isLocal).map
  | map =>
    refine (fields.required_isLocal "fields").bind fun projection => ?_
    split
    · exact .ok _
    · exact .fail _
  | sort =>
    exact (fields.requiredPath_isLocal "by").bind fun _ => (fields.keyword?_isLocal "order").bind
      fun _ => .ok _
  | window kept =>
    exact (fields.required_isLocal "count").bind fun _ => (fields.nat32?_isLocal "count").bind
      fun _ => .ok _
  | groupBy =>
    exact (fields.requiredPath_isLocal "groupField").bind fun _ =>
      (fields.keyword?_isLocal "aggregate").bind fun _ => (fields.path?_isLocal "field").bind
        fun _ => .ok _
  | field stage => exact (fields.requiredPath_isLocal "field").map
  | distance =>
    exact (operand? "from").bind fun _ => (operand? "to").bind fun _ => (operand? "origin").bind
      fun _ => (fields.keyword?_isLocal "unit").bind fun _ => .ite (.fail _) (.ok _)
  | proximity which =>
    have choice : IsLocal (ProximityOperation.decode fields) :=
      (fields.requiredNode_isLocal "origin" Operand.decode_isLocal).bind fun _ =>
        (fields.path?_isLocal "field").bind fun _ => (fields.nat32?_isLocal "count").bind fun _ =>
          (fields.number?_isLocal "maxDistance").bind fun _ =>
            (fields.number?_isLocal "minDistance").bind fun _ =>
              (fields.keyword?_isLocal "unit").bind fun _ => .ok _
    exact choice.map
  | rows stage => exact .ok _

/-- What is wrong with a stage of a view is a local error. -/
theorem decode_isLocal (document : Json) : IsLocal (decode document) := by
  rw [decode_eq]
  exact Fields.kind_isLocal fun fields word kind => decodeAs_isLocal kind (fields.forKind word)

end ViewOperation

/-- What is wrong with a declared parameter of a view is a local error. -/
theorem ViewParam.decode_isLocal (document : Json) : IsLocal (decode document) := by
  unfold decode
  split
  · exact (Fields.keywordOf_isLocal "type" _).bind fun _ => .ok _
  · exact (Fields.of_isLocal _ _).bind fun fields => (fields.keyword?_isLocal "type").bind
      fun _ => .ok _

/-- What is wrong with a view is a local error. -/
theorem View.decode_isLocal (document : Json) : IsLocal (decode document) := by
  refine (Fields.of_isLocal .view document).bind fun fields => ?_
  have stages : IsLocal (decodePipeline fields) := by
    unfold decodePipeline
    split
    · exact .ok []
    · exact decodeItems_isLocal (by decide) fun item _ => ViewOperation.decode_isLocal item
    · exact .fail _
  have params : IsLocal (decodeParams fields) := by
    unfold decodeParams
    split
    · exact .ok []
    · exact decodeEntries_isLocal (fun _ => rfl) fun entry _ => ViewParam.decode_isLocal entry.2
    · exact .fail _
  exact stages.bind fun _ => params.bind fun _ => (fields.nonemptyString?_isLocal "name").bind
    fun _ => (fields.requiredString_isLocal "source").bind fun _ => .ok _

/-- What is wrong with a view by name or in place is a local error. -/
theorem ViewRef.decode_isLocal (document : Json) : IsLocal (decode document) := by
  unfold decode
  split
  · exact .ite (.fail _) (.ok _)
  · exact (View.decode_isLocal _).map
  · exact .fail _

/-- What is wrong with the source of a value is a local error. -/
theorem ValueExpression.decode_isLocal (document : Json) : IsLocal (decode document) := by
  refine Fields.kind_isLocal fun untyped word kind => ?_
  generalize untyped.forKind word = fields
  have operand (key : String) := fields.requiredNode_isLocal key Operand.decode_isLocal
  cases kind with
  | viewResult =>
    exact (fields.requiredNode_isLocal "view" ViewRef.decode_isLocal).bind fun _ =>
      (fields.mapping_isLocal "params" Operand.decode_isLocal).bind fun _ => .ok _
  | distance =>
    exact (operand "from").bind fun _ => (operand "to").bind fun _ =>
      (fields.keyword?_isLocal "unit").bind fun _ => .ok _
  | field => exact (fields.requiredPath_isLocal "path").map
  | literal =>
    dsimp only
    split
    · exact .ok _
    · exact .fail _
  | transform => exact (fields.requiredNode_isLocal "transform" Transform.decode_isLocal).map

/-- What is wrong with a selector is a local error. -/
theorem Selector.decode_isLocal (document : Json) : IsLocal (decode document) := by
  refine Fields.kind_isLocal fun untyped word kind => ?_
  generalize untyped.forKind word = fields
  have operand (key : String) := fields.requiredNode_isLocal key Operand.decode_isLocal
  have choice : IsLocal (decodeChoice kind fields) := by
    cases kind with
    | all => exact .ok _
    | filter => exact (fields.requiredNode_isLocal "where" WhereClause.decode_isLocal).map
    | single => exact (operand "id").map
    | related =>
      exact (fields.requiredString_isLocal "relation").bind fun _ => (operand "source").bind
        fun _ => .ok _
    | proximity which =>
      have choice : IsLocal (ProximitySelector.decode fields) := by
        refine (operand "position").bind fun _ => (operand "origin").bind fun _ =>
          (fields.nat32?_isLocal "limit").bind fun _ =>
            (fields.number?_isLocal "maxDistance").bind fun _ =>
              (fields.number?_isLocal "minDistance").bind fun _ =>
                (fields.keyword?_isLocal "unit").bind fun _ => ?_
        split
        · exact .fail _
        · exact .ok _
      exact choice.map
  exact (fields.requiredString_isLocal "entity").bind fun _ => choice.bind fun _ => .ok _

namespace Trigger

/-- How texts are read and whole numbers are rounded does not matter to where a duration is missed. -/
theorem duration_isLocal (ofText : String → Except GrammarError Duration)
    (ofSeconds : Binary64 → Except Duration.Fault Duration)
    (rounded : Int → Option Binary64) (key : String) (given : Option Json) :
    IsLocal (match given with
      | none => .ok none
      | some (.string text) =>
        match ofText text with
        | .ok duration => .ok (some duration)
        | .error error => Decoded.fail (.invalidValue key (.grammar error))
      | some (.float seconds) =>
        match ofSeconds seconds with
        | .ok duration => .ok (some duration)
        | .error fault =>
          Decoded.fail (.invalidValue key (.seconds (Json.float seconds).render fault))
      | some (.int value) =>
        match (rounded value).elim (.error .tooLarge) ofSeconds with
        | .ok duration => .ok (some duration)
        | .error fault => Decoded.fail (.invalidValue key (.seconds (Json.int value).render fault))
      | some other => Decoded.fail (.invalidValue key (.notADuration other.kindName)) :
      Decoded (Option Duration)) := by
  split
  · exact .ok none
  · split
    · exact .ok _
    · exact .fail _
  · split
    · exact .ok _
    · exact .fail _
  · split
    · exact .ok _
    · exact .fail _
  · exact .fail _

/-- What is wrong with a duration is a local error. -/
theorem duration?_isLocal {whole : Json} (fields : Fields whole) (key : String) :
    IsLocal (fields.duration? key) :=
  duration_isLocal Duration.parse Duration.ofSeconds Binary64.ofInt? key (fields.value? key)

/-- What is wrong with a watched location is a local error. -/
theorem watchedPath_isLocal (text : String) : IsLocal (watchedPath text) := by
  unfold watchedPath
  dsimp only
  split
  · exact .ok _
  · exact .ok _
  · exact .fail _

/-- What is wrong with a time of day is a local error. -/
theorem clockTime?_isLocal {whole : Json} (fields : Fields whole) (key : String) :
    IsLocal (clockTime? fields key) := by
  refine (fields.string?_isLocal key).bind fun text => ?_
  cases text with
  | none => exact .ok none
  | some text =>
    dsimp only
    split
    · exact .ok _
    · exact .fail _

/-- What is wrong with when a rule fires is a local error. -/
theorem decodeActivation_isLocal {whole : Json} (kind : TriggerKind) (fields : Fields whole) :
    IsLocal (decodeActivation kind fields) := by
  have operand (key : String) := fields.requiredNode_isLocal key Operand.decode_isLocal
  cases kind with
  | tick => exact (fields.nat32?_isLocal "interval").bind fun _ => .ite (.fail _) (.ok _)
  | event =>
    exact (fields.requiredString_isLocal "event").bind fun _ => (fields.strings_isLocal "params").bind
      fun _ => (fields.node?_isLocal "where" WhereClause.decode_isLocal).bind fun _ => .ok _
  | change =>
    exact (fields.strings_isLocal "watch").bind fun _ => (IsLocal.mapM watchedPath_isLocal).bind
      fun _ => .ite ((fields.required_isLocal "watch").bind fun _ => .fail _) (.ok _)
  | distance =>
    exact (operand "from").bind fun _ => (operand "to").bind fun _ =>
      (fields.keyword?_isLocal "op").bind fun _ => (operand "value").bind fun _ =>
        (fields.keyword?_isLocal "unit").bind fun _ => .ok _
  | timer =>
    exact (fields.required_isLocal "duration").bind fun _ =>
      (duration?_isLocal fields "duration").bind fun _ => (fields.bool?_isLocal "repeat").bind
        fun _ => (duration?_isLocal fields "startDelay").bind fun _ => .ok _
  | cron =>
    exact (fields.requiredString_isLocal "expression").bind fun _ => .ite (.ok _) (.fail _)
  | schedule =>
    exact (clockTime?_isLocal fields "time").bind fun _ =>
      (duration?_isLocal fields "interval").bind fun _ => .ite (.fail _)
        ((fields.strings_isLocal "weekdays").bind fun _ =>
          (IsLocal.mapM (Fields.keywordOf_isLocal "weekdays")).bind fun _ => .ok _)
  | condition => exact (fields.requiredNode_isLocal "condition" Expression.decode_isLocal).map
  | start => exact .ok _

/-- What is wrong with a trigger is a local error. -/
theorem decode_isLocal (document : Json) : IsLocal (decode document) :=
  Fields.kind_isLocal fun fields word kind =>
    (decodeActivation_isLocal kind (fields.forKind word)).bind fun _ =>
      ((fields.forKind word).bool?_isLocal "enabled").bind fun _ => .ok _

end Trigger

/-- What is wrong with a stage of a filter is a local error. -/
theorem FilterOperation.decode_isLocal (document : Json) : IsLocal (decode document) := by
  refine (Fields.of_isLocal .filterOperation document).bind fun untyped =>
    untyped.kindWord_isLocal.bind fun word => ?_
  have kind : IsLocal (decodeKind untyped word) := .ite (.ok _) (untyped.kindOf_isLocal word)
  refine kind.bind fun kind => ?_
  generalize untyped.forKind word = fields
  have masking : IsLocal (decodeMasking kind fields) := by
    cases kind with
    | keepWhere | removeWhere => exact .ok _
    | hideFieldsWhere =>
      exact (fields.required_isLocal "fields").bind fun _ => (fields.strings_isLocal "fields").bind
        fun _ => .ok _
    | replaceFieldWhere =>
      exact (fields.requiredString_isLocal "field").bind fun _ =>
        (fields.node?_isLocal "value" Operand.decode_isLocal).bind fun _ => .ok _
  exact masking.bind fun _ => (fields.requiredPath_isLocal "target").bind fun _ =>
    (fields.node?_isLocal "where" WhereClause.decode_isLocal).bind fun _ => .ok _

/-- What is wrong with a filter is a local error. -/
theorem Filter.decode_isLocal (document : Json) : IsLocal (decode document) := by
  refine (Fields.of_isLocal .filter document).bind fun fields =>
    (fields.requiredString_isLocal "name").bind fun name =>
      (fields.string?_isLocal "description").bind fun _ => (fields.bool?_isLocal "enabled").bind
        fun _ => ?_
  have operations : IsLocal (fields.list "operations" "operation" fun part _ =>
      FilterOperation.decode part) :=
    fields.list_isLocal "operations" FilterOperation.decode_isLocal (by decide)
  exact (operations.inside rfl).bind fun _ => .ok _

namespace Effect

variable {whole : Json} (fields : Fields whole)

/-- What is wrong with the kind of an effect is a local error. -/
theorem decodeKind_isLocal : IsLocal (decodeKind fields) := by
  have inferred : IsLocal (inferKind fields) :=
    .ite (.ite (.ok _) (.ite (.ok _) (.ite (.ok _) (.fail _)))) (.fail _)
  refine (fields.nonemptyString?_isLocal "type").bind fun word => ?_
  cases word with
  | some word => exact (fields.kindOf_isLocal word).bind fun _ => .ok _
  | none => exact inferred.bind fun _ => .ok _

/-- What is wrong with the targets of an effect is a local error. -/
theorem decodeTargets_isLocal : IsLocal (decodeTargets fields) :=
  fields.node?_isLocal "targets" ViewRef.decode_isLocal

/-- What is wrong with what happens to a location is a local error. -/
theorem decodeChange_isLocal (kind : ChangeKind) : IsLocal (decodeChange kind fields) := by
  have step : IsLocal (decodeStep fields) :=
    (fields.node?_isLocal "value" Operand.decode_isLocal).bind fun _ => .ok _
  have value : IsLocal (decodeSetValue fields) := by
    unfold decodeSetValue
    split
    · exact .ok _
    · exact fields.requiredNode_isLocal "value" Operand.decode_isLocal
  cases kind with
  | set => exact value.map
  | increment | decrement => exact step.map
  | transform => exact (fields.requiredNode_isLocal "transform" Transform.decode_isLocal).map
  | setFromView =>
    exact (fields.requiredNode_isLocal "valueExpression" ValueExpression.decode_isLocal).map

end Effect

end GameRules
