import GameRules.Effect.Basic

/-!
# Decoding effects

The kind of an effect may be left out where its fields tell: a path with a value sets, a path with a
value expression sets from a view, and a path with a computation computes.
-/

namespace GameRules

namespace Effect

/-- The kind of an effect whose document does not name it. -/
def inferKind {whole : Json} (fields : Fields whole) : Decoded EffectKind :=
  if fields.has "path" then
    if fields.mentions "value" then .ok (.mutate .set)
    else if fields.has "valueExpression" then .ok (.mutate .setFromView)
    else if fields.has "transform" then .ok (.mutate .transform)
    else Decoded.fail (.missingType .effect)
  else Decoded.fail (.missingType .effect)

/-- The kind of an effect and the word it is named with. -/
def decodeKind {whole : Json} (fields : Fields whole) : Decoded (String × EffectKind) := do
  match ← fields.kindWord? with
  | some word => return (word, ← fields.kindOf word)
  | none =>
    let kind ← inferKind fields
    return (Keyword.word kind, kind)

/-- The value that a location is set to; null has to be written out. -/
def decodeSetValue {whole : Json} (fields : Fields whole) : Decoded Operand :=
  match fields.entries.lookup "value" with
  | some .null => .ok (.literal .null)
  | _ => fields.requiredNode "value" fun part _ => Operand.decode part

/-- The step of a location that grows or shrinks, one if none is given. -/
def decodeStep {whole : Json} (fields : Fields whole) : Decoded Operand := do
  let step ← fields.node? "value" fun part _ => Operand.decode part
  return step.getD (.literal (.int 1))

/-- Decodes what happens to a location. -/
def decodeChange {whole : Json} (kind : ChangeKind) (fields : Fields whole) : Decoded Change :=
  match kind with
  | .set => .set <$> decodeSetValue fields
  | .increment => .increment <$> decodeStep fields
  | .decrement => .decrement <$> decodeStep fields
  | .transform => .transform <$> fields.requiredNode "transform" fun part _ => Transform.decode part
  | .setFromView =>
    .setFromView <$> fields.requiredNode "valueExpression" fun part _ => ValueExpression.decode part

/-- The targets of an effect, if they are given. -/
def decodeTargets {whole : Json} (fields : Fields whole) : Decoded (Option ViewRef) :=
  fields.node? "targets" fun part _ => ViewRef.decode part

end Effect

/-- Decodes an effect. -/
def Effect.decode (document : Json) : Decoded Effect := do
  let untyped ← Fields.of .effect document
  let (word, kind) ← Effect.decodeKind untyped
  let fields := untyped.forKind word
  match kind with
  | .mutate kind =>
    let targets ← Effect.decodeTargets fields
    let path ← fields.requiredPath "path"
    let change ← Effect.decodeChange kind fields
    return .mutate targets path change
  | .spawn =>
    let entity ← fields.requiredString "entity"
    let values ← fields.mapping "fields" fun part _ => Operand.decode part
    return .spawn entity values
  | .destroy => .destroy <$> Effect.decodeTargets fields
  | .emit =>
    let event ← fields.requiredString "event"
    let payload ← fields.mapping "payload" fun part _ => Operand.decode part
    return .emit event payload
  | .branch =>
    let _ ← fields.required "then"
    let condition ← fields.requiredNode "condition" fun part _ => Expression.decode part
    let consequent ← fields.list "then" "then effect" fun part _ => Effect.decode part
    let alternative ← fields.list "else" "else effect" fun part _ => Effect.decode part
    return .branch condition consequent alternative
  | .sequence =>
    let _ ← fields.required "effects"
    let effects ← fields.list "effects" "effect" fun part _ => Effect.decode part
    return .sequence effects
  | .control op => .control op <$> fields.requiredString op.targetKey
  | .log =>
    let message ← fields.requiredNode "message" fun part _ => Operand.decode part
    let level ← fields.keyword? "level"
    return .log message (level.getD .info)
termination_by sizeOf document

end GameRules
