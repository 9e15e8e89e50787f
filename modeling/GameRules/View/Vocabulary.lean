import GameRules.Keyword

/-!
# Vocabulary of views

The kinds of stages a view runs its rows through, and the words that parametrise them.
-/

namespace GameRules

/-- Which end of the rows, in order of distance, is kept. -/
inductive Proximity where
  /-- The rows at the least distance. -/
  | nearest
  /-- The rows at the greatest distance. -/
  | farthest
deriving DecidableEq, Repr

instance : Keyword Proximity where
  all := [.nearest, .farthest]
  word
    | .nearest => "Nearest"
    | .farthest => "Farthest"

/-- Which part of the rows, in their order, is kept. -/
inductive Window where
  /-- A number of rows from the first on. -/
  | limit
  /-- The rows after a number of them. -/
  | offset
deriving DecidableEq, Repr

instance : Keyword Window where
  all := [.limit, .offset]
  word
    | .limit => "Limit"
    | .offset => "Offset"

/-- A stage that looks at one field of each row. -/
inductive FieldStage where
  /-- One row for each value. -/
  | distinct
  /-- The values alone. -/
  | pluck
  /-- The least value. -/
  | min
  /-- The greatest value. -/
  | max
  /-- The sum of the values. -/
  | sum
  /-- The mean of the values. -/
  | average
deriving DecidableEq, Repr

instance : Keyword FieldStage where
  all := [.distinct, .pluck, .min, .max, .sum, .average]
  word
    | .distinct => "Distinct"
    | .pluck => "Pluck"
    | .min => "Min"
    | .max => "Max"
    | .sum => "Sum"
    | .average => "Avg"

/-- A stage that looks at whole rows. -/
inductive RowStage where
  /-- How many rows there are. -/
  | count
  /-- The first row. -/
  | first
  /-- The last row. -/
  | last
deriving DecidableEq, Repr

instance : Keyword RowStage where
  all := [.count, .first, .last]
  word
    | .count => "Count"
    | .first => "First"
    | .last => "Last"

/-- The kinds of stage. -/
inductive ViewOperationKind where
  /-- Rows that satisfy a condition. -/
  | filter
  /-- A projection. -/
  | map
  /-- Rows in the order of a field. -/
  | sort
  /-- A part of the rows. -/
  | window (window : Window)
  /-- Rows with the same value of a field together. -/
  | groupBy
  /-- A stage on one field. -/
  | field (stage : FieldStage)
  /-- Rows with their distance to a place. -/
  | distance
  /-- Rows chosen by their distance to a place. -/
  | proximity (proximity : Proximity)
  /-- A stage on whole rows. -/
  | rows (stage : RowStage)
deriving DecidableEq, Repr

instance : Keyword ViewOperationKind where
  all :=
    [.filter, .map, .sort, .window .limit, .window .offset, .groupBy, .field .distinct,
      .field .pluck, .distance, .proximity .nearest, .proximity .farthest, .field .min,
      .field .max, .field .sum, .field .average, .rows .count, .rows .first, .rows .last]
  word
    | .filter => "Filter"
    | .map => "Map"
    | .sort => "Sort"
    | .window window => Keyword.word window
    | .groupBy => "GroupBy"
    | .field stage => Keyword.word stage
    | .distance => "Distance"
    | .proximity proximity => Keyword.word proximity
    | .rows stage => Keyword.word stage

/-- Whether a stage reduces the rows to a single value. -/
def ViewOperationKind.isAggregation : ViewOperationKind → Bool
  | field .min | field .max | field .sum | field .average | rows _ => true
  | _ => false

/-- Whether a stage measures distances. -/
def ViewOperationKind.isSpatial : ViewOperationKind → Bool
  | distance | proximity _ => true
  | _ => false

/-- The direction of an order. -/
inductive SortOrder where
  /-- From the least on. -/
  | ascending
  /-- From the greatest on. -/
  | descending
deriving DecidableEq, Repr

instance : Keyword SortOrder where
  all := [.ascending, .descending]
  word
    | .ascending => "asc"
    | .descending => "desc"

/-- What a group of rows is reduced to. -/
inductive Aggregation where
  /-- How many rows there are. -/
  | count
  /-- The sum of a field. -/
  | sum
  /-- The mean of a field. -/
  | average
  /-- The least value of a field. -/
  | min
  /-- The greatest value of a field. -/
  | max
  /-- The first row. -/
  | first
  /-- The last row. -/
  | last
deriving DecidableEq, Repr

instance : Keyword Aggregation where
  all := [.count, .sum, .average, .min, .max, .first, .last]
  word
    | .count => "Count"
    | .sum => "Sum"
    | .average => "Avg"
    | .min => "Min"
    | .max => "Max"
    | .first => "First"
    | .last => "Last"

/-- The declared type of a parameter. -/
inductive ParamType where
  /-- Any value. -/
  | any
  /-- A number. -/
  | number
  /-- A text. -/
  | string
  /-- A truth value. -/
  | boolean
  /-- A reference. -/
  | path
  /-- A position. -/
  | position
  /-- A list. -/
  | list
deriving DecidableEq, Repr

instance : Keyword ParamType where
  all := [.any, .number, .string, .boolean, .path, .position, .list]
  word
    | .any => "any"
    | .number => "number"
    | .string => "string"
    | .boolean => "boolean"
    | .path => "path"
    | .position => "position"
    | .list => "list"

end GameRules
