import GameRules.View.Value

/-!
# Effects

An effect is what a rule does: change locations, create and remove entities, raise events, choose
and sequence further effects, switch rules and filters, or log.
-/

namespace GameRules

/-- Switching a rule, its trigger or a filter. -/
inductive ControlOp where
  /-- Switches a rule on. -/
  | enableRule
  /-- Switches a rule off. -/
  | disableRule
  /-- Switches a rule over. -/
  | toggleRule
  /-- Switches the trigger of a rule on. -/
  | enableTrigger
  /-- Switches the trigger of a rule off. -/
  | disableTrigger
  /-- Switches a filter on. -/
  | enableFilter
  /-- Switches a filter off. -/
  | disableFilter
deriving DecidableEq, Repr

instance : Keyword ControlOp where
  all := [.enableRule, .disableRule, .toggleRule, .enableTrigger, .disableTrigger, .enableFilter,
    .disableFilter]
  word
    | .enableRule => "EnableRule"
    | .disableRule => "DisableRule"
    | .toggleRule => "ToggleRule"
    | .enableTrigger => "EnableTrigger"
    | .disableTrigger => "DisableTrigger"
    | .enableFilter => "EnableFilter"
    | .disableFilter => "DisableFilter"

/-- The key that names what is switched. -/
def ControlOp.targetKey : ControlOp → String
  | enableFilter | disableFilter => "filter"
  | enableRule | disableRule | toggleRule | enableTrigger | disableTrigger => "rule"

/-- The kinds of change of a location. -/
inductive ChangeKind where
  /-- A new value. -/
  | set
  /-- A greater value. -/
  | increment
  /-- A smaller value. -/
  | decrement
  /-- A computed value. -/
  | transform
  /-- A value taken from a view. -/
  | setFromView
deriving DecidableEq, Repr

instance : Keyword ChangeKind where
  all := [.set, .increment, .decrement, .transform, .setFromView]
  word
    | .set => "Set"
    | .increment => "Increment"
    | .decrement => "Decrement"
    | .transform => "Transform"
    | .setFromView => "SetFromView"

/-- The kinds of effect. -/
inductive EffectKind where
  /-- A change of a location. -/
  | mutate (change : ChangeKind)
  /-- A new entity. -/
  | spawn
  /-- Entities removed. -/
  | destroy
  /-- An event. -/
  | emit
  /-- A choice. -/
  | branch
  /-- Effects in turn. -/
  | sequence
  /-- A switch. -/
  | control (op : ControlOp)
  /-- A log entry. -/
  | log
deriving DecidableEq, Repr

instance : Keyword EffectKind where
  all :=
    [.mutate .set, .mutate .increment, .mutate .decrement, .mutate .transform,
      .mutate .setFromView, .spawn, .destroy, .emit, .branch, .sequence, .control .enableRule,
      .control .disableRule, .control .toggleRule, .control .enableTrigger,
      .control .disableTrigger, .control .enableFilter, .control .disableFilter, .log]
  word
    | .mutate change => Keyword.word change
    | .spawn => "Spawn"
    | .destroy => "Destroy"
    | .emit => "Emit"
    | .branch => "If"
    | .sequence => "Sequence"
    | .control op => Keyword.word op
    | .log => "Log"

/-- How important a log entry is. -/
inductive LogLevel where
  /-- For finding faults. -/
  | debug
  /-- For information. -/
  | info
  /-- Something may be wrong. -/
  | warn
  /-- Something is wrong. -/
  | error
deriving DecidableEq, Repr

instance : Keyword LogLevel where
  all := [.debug, .info, .warn, .error]
  word
    | .debug => "debug"
    | .info => "info"
    | .warn => "warn"
    | .error => "error"

/-- What happens to a location. -/
inductive Change where
  /-- It gets a value. -/
  | set (value : Operand)
  /-- It grows by a step. -/
  | increment (step : Operand)
  /-- It shrinks by a step. -/
  | decrement (step : Operand)
  /-- It gets a computed value. -/
  | transform (transform : Transform)
  /-- It gets a value taken from a view. -/
  | setFromView (value : ValueExpression)

/-- What a rule does. -/
inductive Effect where
  /-- Changes a location, of each target if there are targets. -/
  | mutate (targets : Option ViewRef) (path : Path) (change : Change)
  /-- Creates an entity with these fields. -/
  | spawn (entity : String) (fields : Entries Operand)
  /-- Removes the targets. -/
  | destroy (targets : Option ViewRef)
  /-- Raises an event. -/
  | emit (event : String) (payload : Entries Operand)
  /-- Does one thing if a condition holds and another if not. -/
  | branch (condition : Expression) (consequent alternative : List Effect)
  /-- Does one thing after the other. -/
  | sequence (effects : List Effect)
  /-- Switches a rule, its trigger or a filter. -/
  | control (op : ControlOp) (target : String)
  /-- Writes a log entry. -/
  | log (message : Operand) (level : LogLevel)

instance : Inhabited Effect := ⟨.sequence []⟩

/-- Which kind of change this is. -/
def Change.kind : Change → ChangeKind
  | set _ => .set
  | increment _ => .increment
  | decrement _ => .decrement
  | transform _ => .transform
  | setFromView _ => .setFromView

namespace Effect

/-- An effect that sets a location to a value. -/
def set (path : Path) (value : Operand) : Effect := mutate none path (.set value)

/-- Which kind of effect this is. -/
def kind : Effect → EffectKind
  | mutate _ _ change => .mutate change.kind
  | spawn .. => .spawn
  | destroy _ => .destroy
  | emit .. => .emit
  | branch .. => .branch
  | sequence _ => .sequence
  | control op _ => .control op
  | log .. => .log

/-- The location that the effect itself changes. -/
def path? : Effect → Option Path
  | mutate _ path _ => some path
  | _ => none

/-- The targets of the effect. -/
def targets? : Effect → Option ViewRef
  | mutate targets _ _ => targets
  | destroy targets => targets
  | _ => none

end Effect

/-- Adds the field that says what happens to a location. -/
def Change.encodeInto (change : Change) (record : Record) : Record :=
  match change with
  | set value => record.field "value" value.encode
  | increment step => record.field "value" step.encode
  | decrement step => record.field "value" step.encode
  | transform computation => record.field "transform" computation.encode
  | setFromView value => record.field "valueExpression" value.encode

/-- Collects what a change reads. -/
def Change.collect : Change → Walk
  | set value => value.collect
  | increment step => step.collect
  | decrement step => step.collect
  | transform computation => computation.collect
  | setFromView value => value.collect

mutual

/-- The document of an effect. -/
def Effect.encode : Effect → Json
  | .mutate targets path change =>
    (Record.typed (EffectKind.mutate change.kind)).optional "targets" (targets.map ViewRef.encode)
      |>.text "path" path.raw |> change.encodeInto |>.build
  | .spawn entity fields =>
    (Record.typed EffectKind.spawn).text "entity" entity
      |>.nonemptyMapping "fields" (fields.mapValues Operand.encode) |>.build
  | .destroy targets =>
    (Record.typed EffectKind.destroy).optional "targets" (targets.map ViewRef.encode) |>.build
  | .emit event payload =>
    (Record.typed EffectKind.emit).text "event" event
      |>.nonemptyMapping "payload" (payload.mapValues Operand.encode) |>.build
  | .branch condition consequent alternative =>
    (Record.typed EffectKind.branch).field "condition" condition.encode
      |>.list "then" (Effect.encodeAll consequent)
      |>.nonemptyList "else" (Effect.encodeAll alternative) |>.build
  | .sequence effects =>
    (Record.typed EffectKind.sequence).list "effects" (Effect.encodeAll effects) |>.build
  | .control op target =>
    (Record.typed (EffectKind.control op)).text op.targetKey target |>.build
  | .log message level =>
    (Record.typed EffectKind.log).field "message" message.encode |>.keyword "level" level |>.build

/-- The documents of a list of effects. -/
def Effect.encodeAll : List Effect → List Json
  | [] => []
  | effect :: effects => effect.encode :: Effect.encodeAll effects

end

mutual

/-- Collects what an effect reads: values, conditions, and views in place. -/
def Effect.collect : Effect → Walk
  | .mutate targets _ change, collector =>
    change.collect (Collector.whenSome ViewRef.collect targets collector)
  | .spawn _ fields, collector => Collector.each Operand.collect fields.values collector
  | .destroy targets, collector => Collector.whenSome ViewRef.collect targets collector
  | .emit _ payload, collector => Collector.each Operand.collect payload.values collector
  | .branch condition consequent alternative, collector =>
    Effect.collectAll alternative (Effect.collectAll consequent (condition.collect collector))
  | .sequence effects, collector => Effect.collectAll effects collector
  | .control .., collector => collector
  | .log message _, collector => message.collect collector

/-- Collects what the effects of a list read. -/
def Effect.collectAll : List Effect → Walk
  | [], collector => collector
  | effect :: effects, collector => Effect.collectAll effects (effect.collect collector)

end

mutual

/-- Adds the locations that an effect writes, each in canonical form if it has one. -/
def Effect.addWrites : Effect → PathSet → PathSet
  | .mutate _ path _, writes => writes.insert (path.canonicalState?.getD path)
  | .branch _ consequent alternative, writes =>
    Effect.addAllWrites alternative (Effect.addAllWrites consequent writes)
  | .sequence effects, writes => Effect.addAllWrites effects writes
  | .spawn .., writes => writes
  | .destroy _, writes => writes
  | .emit .., writes => writes
  | .control .., writes => writes
  | .log .., writes => writes

/-- Adds the locations that the effects of a list write. -/
def Effect.addAllWrites : List Effect → PathSet → PathSet
  | [], writes => writes
  | effect :: effects, writes => Effect.addAllWrites effects (effect.addWrites writes)

end

/-- The locations that an effect writes. -/
def Effect.modifies (effect : Effect) : PathSet := effect.addWrites ∅

end GameRules
