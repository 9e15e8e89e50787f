import GameRules.View.Vocabulary
import GameRules.Where.Decode

/-!
# Stages of a view

A view runs its rows through stages, one after the other. The values of a projection are kept as
documents, since a projection may hold a document of any shape; they are decoded when it is asked
what they read, and one that cannot be decoded leaves a diagnostic.
-/

namespace GameRules

/-- What chooses rows by their distance to a place. -/
structure ProximityOperation where
  /-- The place. -/
  origin : Operand
  /-- The field that holds the position of a row. -/
  field : Option Path
  /-- How many rows are kept. -/
  count : Option Nat
  /-- The greatest distance. -/
  maxDistance : Option Binary64
  /-- The least distance. -/
  minDistance : Option Binary64
  /-- The unit of the distances. -/
  unit : Option DistanceUnit

/-- A stage of a view. -/
inductive ViewOperation where
  /-- Keeps the rows that satisfy a condition. -/
  | filter (condition : WhereClause)
  /-- Replaces each row by a projection. -/
  | map (fields : Entries Json)
  /-- Puts the rows in the order of a field. -/
  | sort (by_ : Path) (order : SortOrder)
  /-- Keeps a part of the rows. -/
  | window (window : Window) (count : Nat)
  /-- Puts rows with the same value of a field together, and perhaps reduces each group. -/
  | groupBy (groupField : Path) (aggregate : Option Aggregation) (field : Option Path)
  /-- Looks at one field of each row. -/
  | field (stage : FieldStage) (field : Path)
  /-- Adds to each row its distance to a place. -/
  | distance (start finish origin : Option Operand) (unit : Option DistanceUnit)
  /-- Chooses rows by their distance to a place. -/
  | proximity (proximity : Proximity) (operation : ProximityOperation)
  /-- Looks at whole rows. -/
  | rows (stage : RowStage)

instance : Inhabited ViewOperation := ⟨.rows .count⟩

namespace ProximityOperation

/-- Decodes what chooses rows by distance. -/
def decode {whole : Json} (fields : Fields whole) : Decoded ProximityOperation := do
  let origin ← fields.requiredNode "origin" fun part _ => Operand.decode part
  let field ← fields.path? "field"
  let count ← fields.nat32? "count"
  let maxDistance ← fields.number? "maxDistance"
  let minDistance ← fields.number? "minDistance"
  let unit ← fields.keyword? "unit"
  return ⟨origin, field, count, maxDistance, minDistance, unit⟩

/-- Adds the fields of what chooses rows by distance. -/
def encodeInto (operation : ProximityOperation) (record : Record) : Record :=
  record.field "origin" operation.origin.encode
    |>.optional "field" (operation.field.map fun path => .string path.raw)
    |>.optional "count" (operation.count.map fun count => .int count)
    |>.optional "maxDistance" (operation.maxDistance.map .float)
    |>.optional "minDistance" (operation.minDistance.map .float)
    |>.optionalKeyword "unit" operation.unit

end ProximityOperation

namespace ViewOperation

/-- Which kind of stage this is. -/
def kind : ViewOperation → ViewOperationKind
  | filter _ => .filter
  | map _ => .map
  | sort .. => .sort
  | window kept _ => .window kept
  | groupBy .. => .groupBy
  | field stage _ => .field stage
  | distance .. => .distance
  | proximity which _ => .proximity which
  | rows stage => .rows stage

/-- Whether the stage reduces the rows to a single value. -/
def isAggregation (operation : ViewOperation) : Bool := operation.kind.isAggregation

/-- Whether the stage measures distances. -/
def isSpatial (operation : ViewOperation) : Bool := operation.kind.isSpatial

/-- Decodes a stage. -/
def decode (document : Json) : Decoded ViewOperation := do
  let untyped ← Fields.of .viewOperation document
  let word ← untyped.kindWord
  let kind : ViewOperationKind ← untyped.kindOf word
  let fields := untyped.forKind word
  let operand? (key : String) := fields.node? key fun part _ => Operand.decode part
  match kind with
  | .filter => filter <$> fields.requiredNode "where" fun part _ => WhereClause.decode part
  | .map =>
    match ← fields.required "fields" with
    | .object entries => return map entries
    | other =>
      Decoded.fail (.malformed .viewOperation (.wrongShape "Map 'fields'" "a mapping" other.kindName))
  | .sort =>
    let path ← fields.requiredPath "by"
    let order ← fields.keyword? "order"
    return sort path (order.getD .ascending)
  | .window kept =>
    let _ ← fields.required "count"
    let count ← fields.nat32? "count"
    return window kept (count.getD 0)
  | .groupBy =>
    let groupField ← fields.requiredPath "groupField"
    let aggregate ← fields.keyword? "aggregate"
    let path ← fields.path? "field"
    return groupBy groupField aggregate path
  | .field stage => field stage <$> fields.requiredPath "field"
  | .distance =>
    let start ← operand? "from"
    let finish ← operand? "to"
    let origin ← operand? "origin"
    let unit ← fields.keyword? "unit"
    if finish.isNone && origin.isNone then Decoded.fail (fields.missing "origin")
    else return distance start finish origin unit
  | .proximity which => proximity which <$> ProximityOperation.decode fields
  | .rows stage => return rows stage

/-- The document of a stage. -/
def encode (operation : ViewOperation) : Json :=
  let record := Record.typed operation.kind
  Record.build <|
    match operation with
    | filter condition => record.field "where" condition.encode
    | map fields => record.field "fields" (.object fields)
    | sort path order => record.text "by" path.raw |>.keyword "order" order
    | window _ count => record.field "count" (.int count)
    | groupBy groupField aggregate path =>
      record.text "groupField" groupField.raw
        |>.optionalKeyword "aggregate" aggregate
        |>.optional "field" (path.map fun path => .string path.raw)
    | field _ path => record.text "field" path.raw
    | distance start finish origin unit =>
      record.optional "from" (start.map Operand.encode)
        |>.optional "to" (finish.map Operand.encode)
        |>.optional "origin" (origin.map Operand.encode)
        |>.optionalKeyword "unit" unit
    | proximity _ operation => operation.encodeInto record
    | rows _ => record

/-- Collects what the values of a projection read; a value that is no operand leaves a
diagnostic. -/
def collectProjection (name : String) (value : Json) : Walk :=
  match Operand.decode value with
  | .ok operand => operand.collect
  | .error error => Collector.diagnose ("projection '" ++ name ++ "' dropped: " ++ error.message)

/-- Collects what a stage reads. -/
def collect : ViewOperation → Walk
  | filter condition => condition.collect
  | map fields => Collector.each (fun entry => collectProjection entry.1 entry.2) fields
  | sort path _ => Collector.read path
  | window .. => id
  | groupBy groupField _ path => fun collector =>
    Collector.whenSome Collector.read path (collector.read groupField)
  | field _ path => Collector.read path
  | distance start finish origin _ => fun collector =>
    Collector.whenSome Operand.collect origin
      (Collector.whenSome Operand.collect finish
        (Collector.whenSome Operand.collect start collector))
  | proximity _ operation => fun collector =>
    Collector.whenSome Collector.read operation.field (operation.origin.collect collector)
  | rows _ => id

end ViewOperation

end GameRules
