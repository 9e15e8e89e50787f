import GameRules.Value.Encode
import GameRules.Value.Reads

/-!
# Conditions on entities

A where clause is a condition on the fields of one entity. This module holds its type, its canonical
document, its text and what it reads: values, and fields whose name is written like a state location.
-/

namespace GameRules

/-- A condition on the fields of an entity. -/
inductive WhereClause where
  /-- A field compared with a value. -/
  | compare (field : String) (op : CompareOp) (value : Option Operand)
  /-- All of the conditions hold. -/
  | all (items : List WhereClause)
  /-- Some of the conditions holds. -/
  | any (items : List WhereClause)
  /-- The condition does not hold. -/
  | not (item : WhereClause)

instance : Inhabited WhereClause := ⟨.all []⟩

mutual

/-- The document of a condition on entities. -/
def WhereClause.encode : WhereClause → Json
  | .compare field op value =>
    Record.empty.text "field" field |>.keyword "op" op
      |>.optional "value" (value.map Operand.encode) |>.build
  | .all items => Record.empty.list "and" (WhereClause.encodeAll items) |>.build
  | .any items => Record.empty.list "or" (WhereClause.encodeAll items) |>.build
  | .not item => Record.empty.field "not" item.encode |>.build

/-- The documents of a list of conditions on entities. -/
def WhereClause.encodeAll : List WhereClause → List Json
  | [] => []
  | item :: items => item.encode :: WhereClause.encodeAll items

end

mutual

/-- The text of a condition on entities. -/
def WhereClause.display : WhereClause → String
  | .compare field op value =>
    field ++ " " ++ Keyword.word op ++
      (value.map fun value => " " ++ value.encode.render).getD ""
  | .all items => "(" ++ " AND ".intercalate (WhereClause.displayAll items) ++ ")"
  | .any items => "(" ++ " OR ".intercalate (WhereClause.displayAll items) ++ ")"
  | .not item => "NOT (" ++ item.display ++ ")"

/-- The texts of a list of conditions on entities. -/
def WhereClause.displayAll : List WhereClause → List String
  | [] => []
  | item :: items => item.display :: WhereClause.displayAll items

end

mutual

/-- Collects what a condition on entities reads. -/
def WhereClause.collect : WhereClause → Walk
  | .compare field _ value, collector =>
    Collector.whenSome Operand.collect value (collector.readText field)
  | .all items, collector => WhereClause.collectAll items collector
  | .any items, collector => WhereClause.collectAll items collector
  | .not item, collector => item.collect collector

/-- Collects what the conditions of a list read. -/
def WhereClause.collectAll : List WhereClause → Walk
  | [], collector => collector
  | item :: items, collector => WhereClause.collectAll items (item.collect collector)

end

end GameRules
