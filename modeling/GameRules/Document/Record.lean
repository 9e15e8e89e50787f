import GameRules.Json.Basic
import GameRules.Keyword

/-!
# Building object documents

A node is written as an object. Fields may be added in any order, since an object keeps its entries
in key order; a field whose value is absent, and a list or mapping without elements, is left out
where the format says so.
-/

namespace GameRules

/-- The fields of an object under construction. -/
abbrev Record := Entries Json

namespace Record

/-- No fields yet. -/
def empty : Record := []

/-- Adds a field. -/
def field (key : String) (value : Json) (record : Record) : Record := Entries.insert key value record

/-- Adds a text field. -/
def text (key : String) (value : String) (record : Record) : Record :=
  record.field key (.string value)

/-- Adds a keyword field. -/
def keyword {α : Type} [Keyword α] (key : String) (value : α) (record : Record) : Record :=
  record.text key (Keyword.word value)

/-- Adds a field if there is a value for it. -/
def optional (key : String) (value : Option Json) (record : Record) : Record :=
  match value with
  | some value => record.field key value
  | none => record

/-- Adds a keyword field if there is a value for it. -/
def optionalKeyword {α : Type} [Keyword α] (key : String) (value : Option α) (record : Record) :
    Record :=
  record.optional key (value.map fun value => .string (Keyword.word value))

/-- Adds a list field. -/
def list (key : String) (items : List Json) (record : Record) : Record :=
  record.field key (.array items)

/-- Adds a list field unless the list is empty. -/
def nonemptyList (key : String) (items : List Json) (record : Record) : Record :=
  if items.isEmpty then record else record.list key items

/-- Adds a mapping field unless the mapping is empty. -/
def nonemptyMapping (key : String) (entries : Entries Json) (record : Record) : Record :=
  if entries.isEmpty then record else record.field key (.object entries)

/-- An object that says which kind it describes. -/
def typed {α : Type} [Keyword α] (kind : α) : Record := empty.keyword "type" kind

/-- The finished object. -/
def build (record : Record) : Json := .object record

end Record

end GameRules
