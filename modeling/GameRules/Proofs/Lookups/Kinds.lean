import GameRules.Proofs.Effect.Inside
import GameRules.Rule.Set

/-!
# The keys that nodes are decoded from

Once the kind of a node is known, what is decoded depends on a few keys of its object. For each kind,
and for each type of node without kinds, the keys are listed, and two objects that agree on them are
decoded to the same node, or fail alike.
-/

namespace GameRules

/-- The keys that computations of a kind are decoded from, given which keys an object has. -/
def TransformKind.keys (has : String → Bool) : TransformKind → List String
  | .binary _ => ["left", "right"]
  | .unary _ => ["value"]
  | .variadic op => if has op.listKey then [op.listKey] else [op.listKey, "values"]
  | .clamp => ["value", "min", "max"]
  | .lerp => ["from", "to", "t"]
  | .moveTowards => ["current", "target", "speed"]
  | .random => ["min", "max"]
  | .gpsDistance => ["from", "to", "unit"]
  | .gpsBearing => ["from", "to"]
  | .gpsMoveTowards => ["current", "target", "speed", "unit"]
  | .pointInPolygon => ["point", "polygon"]
  | .format => ["format", "values"]
  | .choose => ["condition", "then", "else"]
  | .now => []
  | .addDuration => ["value", "duration"]
  | .uuid => []

/-- The keys that selectors of a kind are decoded from, besides their type. -/
def SelectorKind.keys : SelectorKind → List String
  | .all => ["entity"]
  | .filter => ["entity", "where"]
  | .single => ["entity", "id"]
  | .related => ["entity", "relation", "source"]
  | .proximity _ =>
    ["entity", "position", "origin", "limit", "maxDistance", "minDistance", "unit"]

/-- The keys that stages of a view of a kind are decoded from, besides their type. -/
def ViewOperationKind.keys : ViewOperationKind → List String
  | .filter => ["where"]
  | .map => ["fields"]
  | .sort => ["by", "order"]
  | .window _ => ["count"]
  | .groupBy => ["groupField", "aggregate", "field"]
  | .field _ => ["field"]
  | .distance => ["from", "to", "origin", "unit"]
  | .proximity _ => ["origin", "field", "count", "maxDistance", "minDistance", "unit"]
  | .rows _ => []

/-- The keys that triggers of a kind are decoded from, besides their type. -/
def TriggerKind.keys : TriggerKind → List String
  | .tick => ["enabled", "interval"]
  | .event => ["enabled", "event", "params", "where"]
  | .change => ["enabled", "watch"]
  | .distance => ["enabled", "from", "to", "op", "value", "unit"]
  | .timer => ["enabled", "duration", "repeat", "startDelay"]
  | .cron => ["enabled", "expression"]
  | .schedule => ["enabled", "time", "interval", "weekdays"]
  | .condition => ["enabled", "condition"]
  | .start => ["enabled"]

/-- The keys that stages of a filter of a kind are decoded from, besides their type. -/
def FilterOperationKind.keys : FilterOperationKind → List String
  | .keepWhere => ["target", "where"]
  | .removeWhere => ["target", "where"]
  | .hideFieldsWhere => ["target", "where", "fields"]
  | .replaceFieldWhere => ["target", "where", "field", "value"]

/-- The keys that effects of a kind are decoded from, besides their type. -/
def EffectKind.lookups (kind : EffectKind) : List String := kind.keys ++ kind.lists.map Prod.fst

variable {whole other : Json} {left : Fields whole} {right : Fields other}

namespace Transform

/-- Decodes a computation of a known kind. -/
def decodeAs (kind : TransformKind) (fields : Fields whole) : Decoded Transform :=
  let operand (key : String) := fields.requiredNode key fun part _ => Operand.decode part
  let operand? (key : String) := fields.node? key fun part _ => Operand.decode part
  match kind with
  | .binary op => return .binary op (← operand "left") (← operand "right")
  | .unary op => return .unary op (← operand "value")
  | .variadic op => do
    let key := fields.variadicKey op
    let _ ← fields.required key
    return .variadic op (← fields.list key "value" fun part _ => Operand.decode part)
  | .clamp => return .clamp (← operand "value") (← operand "min") (← operand "max")
  | .lerp => return .lerp (← operand "from") (← operand "to") (← operand "t")
  | .moveTowards =>
    return .moveTowards (← operand "current") (← operand "target") (← operand "speed")
  | .random => return .random (← operand? "min") (← operand? "max")
  | .gpsDistance =>
    return .gpsDistance (← operand "from") (← operand "to") (← fields.keyword? "unit")
  | .gpsBearing => return .gpsBearing (← operand "from") (← operand "to")
  | .gpsMoveTowards =>
    return .gpsMoveTowards (← operand "current") (← operand "target") (← operand "speed")
      (← fields.keyword? "unit")
  | .pointInPolygon => return .pointInPolygon (← operand "point") (← operand "polygon")
  | .format =>
    return .format (← operand "format")
      (← fields.list "values" "value" fun part _ => Operand.decode part)
  | .choose => do
    let condition ← fields.requiredNode "condition" fun part _ => Expression.decode part
    return .choose condition (← operand "then") (← operand? "else")
  | .now => return .now
  | .addDuration => return .addDuration (← operand "value") (← operand "duration")
  | .uuid => return .uuid

/-- A computation is decoded by its kind. -/
theorem decode_eq (document : Json) :
    decode document = (do
      let untyped ← Fields.of .transform document
      let word ← untyped.kindWord
      let kind ← untyped.kindOf word
      decodeAs kind (untyped.forKind word)) := by
  rw [decode]
  refine bind_congr fun untyped => bind_congr fun word => bind_congr fun kind => ?_
  cases kind <;> rfl

/-- Objects that agree on where the values of an operation on a list are given, give them under the
same key, on which they agree. -/
theorem agree_variadicKey {op : VariadicOp}
    (agree : ∀ key ∈ TransformKind.keys left.has (.variadic op), Fields.Agree left right key) :
    left.variadicKey op = right.variadicKey op ∧
      Fields.Agree left right (left.variadicKey op) := by
  have listed : Fields.Agree left right op.listKey := by
    refine agree op.listKey ?_
    rw [TransformKind.keys]
    split <;> exact List.mem_cons_self
  rw [Fields.variadicKey, Fields.variadicKey, ← listed.has]
  by_cases given : left.has op.listKey = true
  · rw [given]
    exact ⟨rfl, listed⟩
  · have values : Fields.Agree left right "values" := by
      refine agree "values" ?_
      rw [TransformKind.keys, if_neg given]
      exact List.mem_cons_of_mem _ List.mem_cons_self
    rw [← values.has]
    refine ⟨rfl, ?_⟩
    split
    · exact values
    · exact listed

/-- Two objects that agree on the keys of a kind are decoded to the same computation of that kind, or
fail alike. -/
theorem decodeAs_congr {kind : TransformKind}
    (agree : ∀ key ∈ kind.keys left.has, Fields.Agree left right key) :
    decodeAs kind left = decodeAs kind right := by
  cases kind with
  | variadic op =>
    obtain ⟨same, values⟩ := agree_variadicKey agree
    simp only [decodeAs, values.required, values.list Operand.decode]
    rw [same]
  | unary =>
    simp only [TransformKind.keys, List.forall_mem_cons] at agree
    obtain ⟨value, -⟩ := agree
    simp only [decodeAs, value.requiredNode Operand.decode]
  | binary | gpsBearing | pointInPolygon | addDuration =>
    simp only [TransformKind.keys, List.forall_mem_cons] at agree
    obtain ⟨first, second, -⟩ := agree
    simp only [decodeAs, first.requiredNode Operand.decode, second.requiredNode Operand.decode]
  | clamp | lerp | moveTowards =>
    simp only [TransformKind.keys, List.forall_mem_cons] at agree
    obtain ⟨first, second, third, -⟩ := agree
    simp only [decodeAs, first.requiredNode Operand.decode, second.requiredNode Operand.decode,
      third.requiredNode Operand.decode]
  | random =>
    simp only [TransformKind.keys, List.forall_mem_cons] at agree
    obtain ⟨lower, upper, -⟩ := agree
    simp only [decodeAs, lower.node? Operand.decode, upper.node? Operand.decode]
  | gpsDistance =>
    simp only [TransformKind.keys, List.forall_mem_cons] at agree
    obtain ⟨start, finish, unit, -⟩ := agree
    simp only [decodeAs, start.requiredNode Operand.decode, finish.requiredNode Operand.decode,
      unit.keyword?]
  | gpsMoveTowards =>
    simp only [TransformKind.keys, List.forall_mem_cons] at agree
    obtain ⟨current, target, speed, unit, -⟩ := agree
    simp only [decodeAs, current.requiredNode Operand.decode, target.requiredNode Operand.decode,
      speed.requiredNode Operand.decode, unit.keyword?]
  | format =>
    simp only [TransformKind.keys, List.forall_mem_cons] at agree
    obtain ⟨template, values, -⟩ := agree
    simp only [decodeAs, template.requiredNode Operand.decode, values.list Operand.decode]
  | choose =>
    simp only [TransformKind.keys, List.forall_mem_cons] at agree
    obtain ⟨condition, consequent, alternative, -⟩ := agree
    simp only [decodeAs, condition.requiredNode Expression.decode,
      consequent.requiredNode Operand.decode, alternative.node? Operand.decode]
  | now | uuid => rfl

end Transform

namespace Selector

/-- Decodes a selector of a known kind. -/
def decodeAs (kind : SelectorKind) (fields : Fields whole) : Decoded Selector := do
  let entity ← fields.requiredString "entity"
  let choice ← decodeChoice kind fields
  return ⟨entity, choice⟩

/-- A selector is decoded by its kind. -/
theorem decode_eq (document : Json) :
    decode document = (do
      let untyped ← Fields.of .selector document
      let word ← untyped.kindWord
      let kind ← untyped.kindOf word
      decodeAs kind (untyped.forKind word)) := rfl

/-- Two objects that agree on the keys of a kind are decoded to the same selector of that kind, or
fail alike. -/
theorem decodeAs_congr {kind : SelectorKind}
    (agree : ∀ key ∈ kind.keys, Fields.Agree left right key) :
    decodeAs kind left = decodeAs kind right := by
  cases kind <;> simp only [SelectorKind.keys, List.forall_mem_cons] at agree
  case all => simp only [decodeAs, agree.1.requiredString, decodeChoice]
  case filter =>
    obtain ⟨entity, condition, -⟩ := agree
    simp only [decodeAs, decodeChoice, entity.requiredString,
      condition.requiredNode WhereClause.decode]
  case single =>
    obtain ⟨entity, id, -⟩ := agree
    simp only [decodeAs, decodeChoice, entity.requiredString, id.requiredNode Operand.decode]
  case related =>
    obtain ⟨entity, relation, source, -⟩ := agree
    simp only [decodeAs, decodeChoice, entity.requiredString, relation.requiredString,
      source.requiredNode Operand.decode]
  case proximity which =>
    obtain ⟨entity, position, origin, limit, greatest, least, unit, -⟩ := agree
    simp only [decodeAs, decodeChoice, ProximitySelector.decode, entity.requiredString,
      position.requiredNode Operand.decode, origin.requiredNode Operand.decode, limit.nat32?,
      greatest.number?, least.number?, unit.keyword?]

end Selector

namespace ViewOperation

/-- Decodes a stage of a known kind. -/
def decodeAs (kind : ViewOperationKind) (fields : Fields whole) : Decoded ViewOperation :=
  let operand? (key : String) := fields.node? key fun part _ => Operand.decode part
  match kind with
  | .filter => filter <$> fields.requiredNode "where" fun part _ => WhereClause.decode part
  | .map => do
    match ← fields.required "fields" with
    | .object entries => return map entries
    | other =>
      Decoded.fail (.malformed .viewOperation (.wrongShape "Map 'fields'" "a mapping" other.kindName))
  | .sort => do
    let path ← fields.requiredPath "by"
    let order ← fields.keyword? "order"
    return sort path (order.getD .ascending)
  | .window kept => do
    let _ ← fields.required "count"
    let count ← fields.nat32? "count"
    return window kept (count.getD 0)
  | .groupBy => do
    let groupField ← fields.requiredPath "groupField"
    let aggregate ← fields.keyword? "aggregate"
    let path ← fields.path? "field"
    return groupBy groupField aggregate path
  | .field stage => field stage <$> fields.requiredPath "field"
  | .distance => do
    let start ← operand? "from"
    let finish ← operand? "to"
    let origin ← operand? "origin"
    let unit ← fields.keyword? "unit"
    if finish.isNone && origin.isNone then Decoded.fail (fields.missing "origin")
    else return distance start finish origin unit
  | .proximity which => proximity which <$> ProximityOperation.decode fields
  | .rows stage => return rows stage

/-- A stage is decoded by its kind. -/
theorem decode_eq (document : Json) :
    decode document = (do
      let untyped ← Fields.of .viewOperation document
      let word ← untyped.kindWord
      let kind ← untyped.kindOf word
      decodeAs kind (untyped.forKind word)) := by
  rw [decode]
  refine bind_congr fun untyped => bind_congr fun word => bind_congr fun kind => ?_
  cases kind <;> rfl

/-- Two objects that agree on the keys of a kind are decoded to the same stage of that kind, or fail
alike. -/
theorem decodeAs_congr {kind : ViewOperationKind}
    (agree : ∀ key ∈ kind.keys, Fields.Agree left right key) :
    decodeAs kind left = decodeAs kind right := by
  cases kind <;> simp only [ViewOperationKind.keys, List.forall_mem_cons] at agree
  case filter => simp only [decodeAs, agree.1.requiredNode WhereClause.decode]
  case map => simp only [decodeAs, agree.1.required]
  case sort =>
    obtain ⟨path, order, -⟩ := agree
    simp only [decodeAs, path.requiredPath, order.keyword?]
  case window => simp only [decodeAs, agree.1.required, agree.1.nat32?]
  case groupBy =>
    obtain ⟨groupField, aggregate, path, -⟩ := agree
    simp only [decodeAs, groupField.requiredPath, aggregate.keyword?, path.path?]
  case field => simp only [decodeAs, agree.1.requiredPath]
  case distance =>
    obtain ⟨start, finish, origin, unit, -⟩ := agree
    simp only [decodeAs, start.node? Operand.decode, finish.node? Operand.decode,
      origin.node? Operand.decode, unit.keyword?, origin.missing]
  case proximity =>
    obtain ⟨origin, path, count, greatest, least, unit, -⟩ := agree
    simp only [decodeAs, ProximityOperation.decode, origin.requiredNode Operand.decode, path.path?,
      count.nat32?, greatest.number?, least.number?, unit.keyword?]
  case rows => rfl

end ViewOperation

namespace Trigger

/-- The same duration is read. -/
theorem duration?_congr {key : String} (agree : Fields.Agree left right key) :
    left.duration? key = right.duration? key := by
  simp only [Fields.duration?, agree.value]

/-- The same time of day is read. -/
theorem clockTime?_congr {key : String} (agree : Fields.Agree left right key) :
    clockTime? left key = clockTime? right key := by
  rw [clockTime?, clockTime?, agree.string?]

/-- Decodes a trigger of a known kind. -/
def decodeAs (kind : TriggerKind) (fields : Fields whole) : Decoded Trigger := do
  let activation ← decodeActivation kind fields
  let enabled ← fields.bool? "enabled"
  return ⟨enabled, activation⟩

/-- A trigger is decoded by its kind. -/
theorem decode_eq (document : Json) :
    decode document = (do
      let untyped ← Fields.of .trigger document
      let word ← untyped.kindWord
      let kind ← untyped.kindOf word
      decodeAs kind (untyped.forKind word)) := rfl

/-- Two objects that agree on the keys of a kind are decoded to the same trigger of that kind, or fail
alike. -/
theorem decodeAs_congr {kind : TriggerKind}
    (agree : ∀ key ∈ kind.keys, Fields.Agree left right key) :
    decodeAs kind left = decodeAs kind right := by
  cases kind <;> simp only [TriggerKind.keys, List.forall_mem_cons] at agree
  case tick =>
    obtain ⟨enabled, interval, -⟩ := agree
    simp only [decodeAs, decodeActivation, enabled.bool?, interval.nat32?]
  case event =>
    obtain ⟨enabled, event, params, condition, -⟩ := agree
    simp only [decodeAs, decodeActivation, enabled.bool?, event.requiredString, params.strings,
      condition.node? WhereClause.decode]
  case change =>
    obtain ⟨enabled, watch, -⟩ := agree
    simp only [decodeAs, decodeActivation, enabled.bool?, watch.strings, watch.required]
  case distance =>
    obtain ⟨enabled, start, finish, op, value, unit, -⟩ := agree
    simp only [decodeAs, decodeActivation, enabled.bool?, start.requiredNode Operand.decode,
      finish.requiredNode Operand.decode, op.keyword?, value.requiredNode Operand.decode,
      unit.keyword?]
  case timer =>
    obtain ⟨enabled, duration, repeats, startDelay, -⟩ := agree
    simp only [decodeAs, decodeActivation, enabled.bool?, duration.required,
      duration?_congr duration, repeats.bool?, duration?_congr startDelay]
  case cron =>
    obtain ⟨enabled, expression, -⟩ := agree
    simp only [decodeAs, decodeActivation, enabled.bool?, expression.requiredString]
  case schedule =>
    obtain ⟨enabled, time, interval, weekdays, -⟩ := agree
    simp only [decodeAs, decodeActivation, enabled.bool?, clockTime?_congr time,
      duration?_congr interval, time.missing, weekdays.strings]
  case condition =>
    obtain ⟨enabled, condition, -⟩ := agree
    simp only [decodeAs, decodeActivation, enabled.bool?, condition.requiredNode Expression.decode]
  case start => simp only [decodeAs, decodeActivation, agree.1.bool?]

end Trigger

namespace FilterOperation

/-- Decodes a stage of a filter of a known kind. -/
def decodeAs (kind : FilterOperationKind) (fields : Fields whole) : Decoded FilterOperation := do
  let masking ← decodeMasking kind fields
  let target ← fields.requiredPath "target"
  let condition ← fields.node? "where" fun part _ => WhereClause.decode part
  return ⟨target, condition, masking⟩

/-- A stage of a filter is decoded by its kind. -/
theorem decode_eq (document : Json) :
    decode document = (do
      let untyped ← Fields.of .filterOperation document
      let word ← untyped.kindWord
      let kind ← decodeKind untyped word
      decodeAs kind (untyped.forKind word)) := rfl

/-- Two objects that agree on the keys of a kind are decoded to the same stage of a filter of that
kind, or fail alike. -/
theorem decodeAs_congr {kind : FilterOperationKind}
    (agree : ∀ key ∈ kind.keys, Fields.Agree left right key) :
    decodeAs kind left = decodeAs kind right := by
  cases kind <;> simp only [FilterOperationKind.keys, List.forall_mem_cons] at agree
  case keepWhere | removeWhere =>
    obtain ⟨target, condition, -⟩ := agree
    simp only [decodeAs, decodeMasking, target.requiredPath, condition.node? WhereClause.decode]
  case hideFieldsWhere =>
    obtain ⟨target, condition, hidden, -⟩ := agree
    simp only [decodeAs, decodeMasking, target.requiredPath, condition.node? WhereClause.decode,
      hidden.required, hidden.strings]
  case replaceFieldWhere =>
    obtain ⟨target, condition, field, value, -⟩ := agree
    simp only [decodeAs, decodeMasking, target.requiredPath, condition.node? WhereClause.decode,
      field.requiredString, value.node? Operand.decode]

end FilterOperation

namespace Filter

/-- The keys that filters are decoded from. -/
def keys : List String := ["name", "description", "enabled", "operations"]

/-- Decodes a filter from the fields of an object. -/
def decodeFields (fields : Fields whole) : Decoded Filter := do
  let name ← fields.requiredString "name"
  let description ← fields.string? "description"
  let enabled ← fields.bool? "enabled"
  let operations ← Decoded.inside (.named "filter" name)
    (fields.list "operations" "operation" fun part _ => FilterOperation.decode part)
  return ⟨name, description, enabled, operations⟩

/-- Two objects that agree on the keys of filters are decoded to the same filter, or fail alike. -/
theorem decodeFields_congr (agree : ∀ key ∈ keys, Fields.Agree left right key) :
    decodeFields left = decodeFields right := by
  simp only [keys, List.forall_mem_cons] at agree
  obtain ⟨name, description, enabled, operations, -⟩ := agree
  simp only [decodeFields, name.requiredString, description.string?, enabled.bool?,
    operations.list FilterOperation.decode]

end Filter

namespace View

/-- The keys that views are decoded from. -/
def keys : List String := ["name", "source", "pipeline", "params"]

/-- Decodes a view from the fields of an object. -/
def decodeFields (fields : Fields whole) : Decoded View := do
  let pipeline ← decodePipeline fields
  let params ← decodeParams fields
  let name ← fields.nonemptyString? "name"
  let source ← fields.requiredString "source"
  return ⟨name, source, pipeline, params⟩

/-- Two objects that agree on the keys of views are decoded to the same view, or fail alike. -/
theorem decodeFields_congr (agree : ∀ key ∈ keys, Fields.Agree left right key) :
    decodeFields left = decodeFields right := by
  simp only [keys, List.forall_mem_cons] at agree
  obtain ⟨name, source, pipeline, params, -⟩ := agree
  simp only [decodeFields, decodePipeline, decodeParams, pipeline.value, params.value,
    name.nonemptyString?, source.requiredString]

end View

namespace Rule

/-- The keys that rules are decoded from. -/
def keys : List String :=
  ["name", "description", "enabled", "priority", "trigger", "selector", "views", "effects"]

/-- Decodes a rule from the fields of an object. -/
def decodeFields (fields : Fields whole) : Decoded Rule := do
  let name ← fields.requiredString "name"
  Decoded.inside (.named "rule" name) (decodeBody fields name)

/-- Two objects that agree on the keys of rules are decoded to the same rule, or fail alike. -/
theorem decodeFields_congr (agree : ∀ key ∈ keys, Fields.Agree left right key) :
    decodeFields left = decodeFields right := by
  simp only [keys, List.forall_mem_cons] at agree
  obtain ⟨name, description, enabled, priority, trigger, selector, views, effects, -⟩ := agree
  simp only [decodeFields, decodeBody, decodeViews, decodeEffects, name.requiredString,
    description.string?, enabled.bool?, priority.int32?, trigger.requiredNode Trigger.decode,
    selector.node? Selector.decode, views.value, effects.required, effects.list Effect.decode]

end Rule

namespace RuleSet

/-- The keys that packages are decoded from. -/
def keys : List String := ["version", "package", "imports", "rules", "filters"]

/-- Decodes a package from the fields of an object. -/
def decodeFields (fields : Fields whole) : Decoded RuleSet := do
  let version ← decodeVersion fields
  let package ← fields.string? "package"
  let imports ← fields.strings "imports"
  let rules ← fields.list "rules" "rule" fun part _ => Rule.decode part
  let filters ← fields.list "filters" "filter" fun part _ => Filter.decode part
  return ⟨version, package, imports, rules, filters⟩

/-- Two objects that agree on the keys of packages are decoded to the same package, or fail alike. -/
theorem decodeFields_congr (agree : ∀ key ∈ keys, Fields.Agree left right key) :
    decodeFields left = decodeFields right := by
  simp only [keys, List.forall_mem_cons] at agree
  obtain ⟨version, package, imports, rules, filters, -⟩ := agree
  simp only [decodeFields, decodeVersion, version.value, version.string?, package.string?,
    imports.strings, rules.list Rule.decode, filters.list Filter.decode]

end RuleSet

end GameRules
