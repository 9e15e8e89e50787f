import GameRules.Where.Decode

/-!
# Filters

A filter masks the copy of the state that a viewer gets. Each of its operations looks at the part of
the state below a location and keeps, removes or changes what satisfies a condition.
-/

namespace GameRules

/-- The kinds of masking. -/
inductive FilterOperationKind where
  /-- Keeps what matches. -/
  | keepWhere
  /-- Removes what matches. -/
  | removeWhere
  /-- Hides fields of what matches. -/
  | hideFieldsWhere
  /-- Replaces a field of what matches. -/
  | replaceFieldWhere
deriving DecidableEq, Repr

instance : Keyword FilterOperationKind where
  all := [.keepWhere, .removeWhere, .hideFieldsWhere, .replaceFieldWhere]
  word
    | .keepWhere => "KeepWhere"
    | .removeWhere => "RemoveWhere"
    | .hideFieldsWhere => "HideFieldsWhere"
    | .replaceFieldWhere => "ReplaceFieldWhere"

/-- What happens to what matches. -/
inductive Masking where
  /-- It is kept, and nothing else is. -/
  | keep
  /-- It is removed. -/
  | remove
  /-- These fields are hidden. -/
  | hideFields (fields : List String)
  /-- A field gets a value. -/
  | replaceField (field : String) (value : Operand)

/-- A stage of a filter. -/
structure FilterOperation where
  /-- The location it looks below. -/
  target : Path
  /-- What matches; without a condition everything does. -/
  condition : Option WhereClause
  /-- What happens to what matches. -/
  masking : Masking

/-- A masking pipeline. -/
structure Filter where
  /-- Its name. -/
  name : String
  /-- What it is for. -/
  description : Option String
  /-- Whether it is on, if that is said. -/
  enabled : Option Bool
  /-- The stages, the first one first. -/
  operations : List FilterOperation

/-- Which kind of stage this makes. -/
def Masking.kind : Masking → FilterOperationKind
  | keep => .keepWhere
  | remove => .removeWhere
  | hideFields _ => .hideFieldsWhere
  | replaceField .. => .replaceFieldWhere

namespace FilterOperation

/-- Which kind of stage this is. -/
def kind (operation : FilterOperation) : FilterOperationKind := operation.masking.kind

/-- The former word for keeping what matches, which is still read. -/
def formerKeepWord : String := "FilterWhere"

/-- The kind that a word names, by its former word too. -/
def decodeKind {whole : Json} (fields : Fields whole) (word : String) :
    Decoded FilterOperationKind :=
  if word = formerKeepWord then .ok .keepWhere else fields.kindOf word

/-- Decodes what happens to what matches. -/
def decodeMasking {whole : Json} (kind : FilterOperationKind) (fields : Fields whole) :
    Decoded Masking := do
  match kind with
  | .keepWhere => return .keep
  | .removeWhere => return .remove
  | .hideFieldsWhere =>
    let _ ← fields.required "fields"
    let hidden ← fields.strings "fields"
    return .hideFields hidden
  | .replaceFieldWhere =>
    let field ← fields.requiredString "field"
    let value ← fields.node? "value" fun part _ => Operand.decode part
    return .replaceField field (value.getD (.literal .null))

/-- Decodes a stage. -/
def decode (document : Json) : Decoded FilterOperation := do
  let untyped ← Fields.of .filterOperation document
  let word ← untyped.kindWord
  let kind ← decodeKind untyped word
  let fields := untyped.forKind word
  let masking ← decodeMasking kind fields
  let target ← fields.requiredPath "target"
  let condition ← fields.node? "where" fun part _ => WhereClause.decode part
  return ⟨target, condition, masking⟩

/-- The document of a stage. -/
def encode (operation : FilterOperation) : Json :=
  let record :=
    (Record.typed operation.kind).text "target" operation.target.raw
      |>.optional "where" (operation.condition.map WhereClause.encode)
  Record.build <|
    match operation.masking with
    | .keep => record
    | .remove => record
    | .hideFields fields => record.field "fields" (.strings fields)
    | .replaceField field value => record.text "field" field |>.field "value" value.encode

/-- Collects what a stage reads. -/
def collect (operation : FilterOperation) : Walk := fun collector =>
  let collector :=
    Collector.whenSome WhereClause.collect operation.condition (collector.read operation.target)
  match operation.masking with
  | .replaceField _ value => value.collect collector
  | .keep | .remove | .hideFields _ => collector

end FilterOperation

namespace Filter

/-- Whether the filter is on. -/
def isEnabled (filter : Filter) : Bool := filter.enabled.getD true

/-- The filter, switched on or off. -/
def setEnabled (on : Bool) (filter : Filter) : Filter := { filter with enabled := some on }

/-- Decodes a filter. -/
def decode (document : Json) : Decoded Filter := do
  let fields ← Fields.of .filter document
  let name ← fields.requiredString "name"
  let description ← fields.string? "description"
  let enabled ← fields.bool? "enabled"
  let operations ← Decoded.inside (.named "filter" name)
    (fields.list "operations" "operation" fun part _ => FilterOperation.decode part)
  return ⟨name, description, enabled, operations⟩

/-- The document of a filter. -/
def encode (filter : Filter) : Json :=
  Record.empty.text "name" filter.name
    |>.optional "description" (filter.description.map .string)
    |>.optional "enabled" (filter.enabled.map .bool)
    |>.nonemptyList "operations" (filter.operations.map FilterOperation.encode)
    |>.build

/-- Collects what a filter reads. -/
def collect (filter : Filter) : Walk := Collector.each FilterOperation.collect filter.operations

end Filter

end GameRules
