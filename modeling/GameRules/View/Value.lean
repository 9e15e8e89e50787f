import GameRules.View.Basic

/-!
# Values taken from views

A location can be set to the result of a view, to a distance, to the value of a field, to a constant
or to a computed value.
-/

namespace GameRules

/-- The kinds of source of a value. -/
inductive ValueExpressionKind where
  /-- The result of a view. -/
  | viewResult
  /-- A distance. -/
  | distance
  /-- A field. -/
  | field
  /-- A constant. -/
  | literal
  /-- A computation. -/
  | transform
deriving DecidableEq, Repr

instance : Keyword ValueExpressionKind where
  all := [.viewResult, .distance, .field, .literal, .transform]
  word
    | .viewResult => "viewResult"
    | .distance => "distance"
    | .field => "field"
    | .literal => "literal"
    | .transform => "transform"

/-- Where a value comes from. -/
inductive ValueExpression where
  /-- The result of a view with its parameters bound. -/
  | viewResult (view : ViewRef) (params : Entries Operand)
  /-- The distance of two places. -/
  | distance (start finish : Operand) (unit : Option DistanceUnit)
  /-- The value of a field. -/
  | field (path : Path)
  /-- A constant. -/
  | literal (value : Json)
  /-- A computed value. -/
  | transform (transform : Transform)

namespace ValueExpression

/-- Which kind of source this is. -/
def kind : ValueExpression → ValueExpressionKind
  | viewResult .. => .viewResult
  | distance .. => .distance
  | field _ => .field
  | literal _ => .literal
  | transform _ => .transform

/-- Decodes the source of a value. A constant may be null, so it only has to be written. -/
def decode (document : Json) : Decoded ValueExpression := do
  let untyped ← Fields.of .valueExpression document
  let word ← untyped.kindWord
  let kind : ValueExpressionKind ← untyped.kindOf word
  let fields := untyped.forKind word
  match kind with
  | .viewResult =>
    let view ← fields.requiredNode "view" fun part _ => ViewRef.decode part
    let params ← fields.mapping "params" fun part _ => Operand.decode part
    return viewResult view params
  | .distance =>
    let start ← fields.requiredNode "from" fun part _ => Operand.decode part
    let finish ← fields.requiredNode "to" fun part _ => Operand.decode part
    let unit ← fields.keyword? "unit"
    return distance start finish unit
  | .field => field <$> fields.requiredPath "path"
  | .literal =>
    match fields.entries.lookup "value" with
    | some value => return literal value
    | none => Decoded.fail (fields.missing "value")
  | .transform => transform <$> fields.requiredNode "transform" fun part _ => Transform.decode part

/-- The document of the source of a value. -/
def encode (expression : ValueExpression) : Json :=
  let record := Record.typed expression.kind
  Record.build <|
    match expression with
    | viewResult view params =>
      record.field "view" view.encode
        |>.nonemptyMapping "params" (params.mapValues Operand.encode)
    | distance start finish unit =>
      record.field "from" start.encode |>.field "to" finish.encode |>.optionalKeyword "unit" unit
    | field path => record.text "path" path.raw
    | literal value => record.field "value" value
    | transform computation => record.field "transform" computation.encode

/-- Collects what the source of a value reads. -/
def collect : ValueExpression → Walk
  | viewResult view params => fun collector =>
    Collector.each Operand.collect params.values (view.collect collector)
  | distance start finish _ => fun collector => finish.collect (start.collect collector)
  | field path => Collector.read path
  | literal _ => id
  | transform computation => computation.collect

end ValueExpression

end GameRules
