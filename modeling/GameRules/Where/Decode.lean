import GameRules.Where.Basic
import GameRules.Value.Decode

/-!
# Decoding conditions on entities

A document that names a field, or one of the logical combinations, is read as it stands. Any other
object is a short form: each entry compares the field that is its key, either for equality with a
value, or by the single operator of an inner mapping; several entries hold together.
-/

namespace GameRules

namespace WhereClause

/-- The value that a short form compares with; null compares with nothing. -/
def shorthandValue (field : String) (document : Json) : Decoded (Option Operand) :=
  if document.isNull then .ok none
  else some <$> Decoded.inside (.named "where" field) (Operand.decode document)

/-- One entry of a short form. -/
def shorthandEntry (field : String) (document : Json) : Decoded WhereClause :=
  match document with
  | .object [] => Decoded.fail (.ambiguous .whereClause (.emptyEntry field))
  | .object [(word, value)] =>
    match Keyword.parse? word with
    | none => Decoded.fail (.ambiguous .whereClause (.notAnOperator field word))
    | some op => compare field op <$> shorthandValue field value
  | .object entries =>
    Decoded.fail (.ambiguous .whereClause (.manyKeys field entries.length))
  | value => compare field .equal <$> shorthandValue field value

/-- The entries of a short form, each on its own. -/
def shorthandEntries : Entries Json → Decoded (List WhereClause)
  | [] => .ok []
  | (field, document) :: entries => do
    let first ← shorthandEntry field document
    let others ← shorthandEntries entries
    return first :: others

/-- Decodes a short form. -/
def decodeShorthand (entries : Entries Json) : Decoded WhereClause := do
  match ← shorthandEntries entries with
  | [] => Decoded.fail (.ambiguous .whereClause .emptyMapping)
  | [clause] => return clause
  | clauses => return .all clauses

end WhereClause

/-- Whether the fields are those of a condition that is written out. -/
def Fields.isStrictClause {whole : Json} (fields : Fields whole) : Decoded Bool := do
  let field ← fields.nonemptyString? "field"
  return field.isSome || fields.has "and" || fields.has "or" || fields.has "not"

/-- Decodes a condition on entities. -/
def WhereClause.decode (document : Json) : Decoded WhereClause := do
  let fields ← Fields.of .whereClause document
  if ← fields.isStrictClause then
    match ← fields.combination? "and" fun part _ => WhereClause.decode part with
    | some items => return .all items
    | none =>
      match ← fields.combination? "or" fun part _ => WhereClause.decode part with
      | some items => return .any items
      | none =>
        match ← fields.node? "not" fun part _ => WhereClause.decode part with
        | some item => return .not item
        | none =>
          let field ← fields.requiredString "field"
          let op ← fields.keyword? "op"
          let value ← fields.node? "value" fun part _ => Operand.decode part
          return .compare field (op.getD .equal) value
  else WhereClause.decodeShorthand fields.entries
termination_by sizeOf document

end GameRules
