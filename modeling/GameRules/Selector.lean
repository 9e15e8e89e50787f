import GameRules.View.Vocabulary
import GameRules.Where.Decode

/-!
# Selectors

A selector says which entities of a collection a rule is about.
-/

namespace GameRules

/-- The kinds of selector. -/
inductive SelectorKind where
  /-- Every entity. -/
  | all
  /-- The entities that satisfy a condition. -/
  | filter
  /-- One entity. -/
  | single
  /-- The entities related to another one. -/
  | related
  /-- Entities chosen by their distance to a place. -/
  | proximity (proximity : Proximity)
deriving DecidableEq, Repr

instance : Keyword SelectorKind where
  all := [.all, .filter, .single, .related, .proximity .nearest, .proximity .farthest]
  word
    | .all => "All"
    | .filter => "Filter"
    | .single => "Single"
    | .related => "Related"
    | .proximity proximity => Keyword.word proximity

/-- What chooses entities by their distance to a place. -/
structure ProximitySelector where
  /-- The position of an entity. -/
  position : Operand
  /-- The place. -/
  origin : Operand
  /-- How many entities are chosen. -/
  limit : Option Nat
  /-- The greatest distance. -/
  maxDistance : Option Binary64
  /-- The least distance. -/
  minDistance : Option Binary64
  /-- The unit of the distances. -/
  unit : Option DistanceUnit

/-- How entities of a collection are chosen. -/
inductive Choice where
  /-- Every entity. -/
  | all
  /-- The entities that satisfy a condition. -/
  | filter (condition : WhereClause)
  /-- The entity with this identifier. -/
  | single (id : Operand)
  /-- The entities related to another one. -/
  | related (relation : String) (source : Operand)
  /-- Entities chosen by their distance to a place. -/
  | proximity (proximity : Proximity) (selector : ProximitySelector)

/-- Which entities a rule is about. -/
structure Selector where
  /-- The collection. -/
  entity : String
  /-- How its entities are chosen. -/
  choice : Choice

namespace ProximitySelector

/-- The fault of bounds that exclude every distance. -/
def boundsFault? (least greatest : Option Binary64) : Option ValueFault :=
  match least, greatest with
  | some least, some greatest =>
    if greatest.lt least then some (.invertedBounds least greatest) else none
  | _, _ => none

/-- Decodes what chooses entities by distance; the least distance is at most the greatest. -/
def decode {whole : Json} (fields : Fields whole) : Decoded ProximitySelector := do
  let position ← fields.requiredNode "position" fun part _ => Operand.decode part
  let origin ← fields.requiredNode "origin" fun part _ => Operand.decode part
  let limit ← fields.nat32? "limit"
  let maxDistance ← fields.number? "maxDistance"
  let minDistance ← fields.number? "minDistance"
  let unit ← fields.keyword? "unit"
  match boundsFault? minDistance maxDistance with
  | some fault => Decoded.fail (.invalidValue "minDistance" fault)
  | none => return ⟨position, origin, limit, maxDistance, minDistance, unit⟩

/-- Adds the fields of what chooses entities by distance. -/
def encodeInto (selector : ProximitySelector) (record : Record) : Record :=
  record.field "position" selector.position.encode
    |>.field "origin" selector.origin.encode
    |>.optional "limit" (selector.limit.map fun limit => .int limit)
    |>.optional "maxDistance" (selector.maxDistance.map .float)
    |>.optional "minDistance" (selector.minDistance.map .float)
    |>.optionalKeyword "unit" selector.unit

end ProximitySelector

/-- Which kind of selector the choice makes. -/
def Choice.kind : Choice → SelectorKind
  | all => .all
  | filter _ => .filter
  | single _ => .single
  | related .. => .related
  | proximity which _ => .proximity which

namespace Selector

/-- Every entity of a collection. -/
def all (entity : String) : Selector := ⟨entity, .all⟩

/-- Which kind of selector this is. -/
def kind (selector : Selector) : SelectorKind := selector.choice.kind

/-- Decodes how entities are chosen. -/
def decodeChoice {whole : Json} (kind : SelectorKind) (fields : Fields whole) : Decoded Choice :=
  match kind with
  | .all => .ok .all
  | .filter => .filter <$> fields.requiredNode "where" fun part _ => WhereClause.decode part
  | .single => .single <$> fields.requiredNode "id" fun part _ => Operand.decode part
  | .related => do
    let relation ← fields.requiredString "relation"
    let source ← fields.requiredNode "source" fun part _ => Operand.decode part
    return .related relation source
  | .proximity proximity => .proximity proximity <$> ProximitySelector.decode fields

/-- Decodes a selector. -/
def decode (document : Json) : Decoded Selector := do
  let untyped ← Fields.of .selector document
  let word ← untyped.kindWord
  let kind : SelectorKind ← untyped.kindOf word
  let fields := untyped.forKind word
  let entity ← fields.requiredString "entity"
  let choice ← decodeChoice kind fields
  return ⟨entity, choice⟩

/-- The document of a selector. -/
def encode (selector : Selector) : Json :=
  let record := (Record.typed selector.kind).text "entity" selector.entity
  Record.build <|
    match selector.choice with
    | .all => record
    | .filter condition => record.field "where" condition.encode
    | .single id => record.field "id" id.encode
    | .related relation source =>
      record.text "relation" relation |>.field "source" source.encode
    | .proximity _ selector => selector.encodeInto record

/-- Collects what the choice of entities reads. -/
def collectChoice : Choice → Walk
  | .all => id
  | .filter condition => condition.collect
  | .single id => id.collect
  | .related _ source => source.collect
  | .proximity _ selector => fun collector =>
    selector.origin.collect (selector.position.collect collector)

/-- Collects what a selector reads, its collection among it. -/
def collect (selector : Selector) : Walk := fun collector =>
  collectChoice selector.choice (collector.readCollection selector.entity)

end Selector

end GameRules
