import GameRules.Value.Basic
import GameRules.Document.Fields

/-!
# Decoding values and conditions

A text is a reference if it begins like one, and a constant otherwise; an object is a computation if
its type names one, and every other document is a constant. A text in place of a condition asks
whether its value counts as true.
-/

namespace GameRules

/-- Whether a document is an object whose type names a computation. -/
def Json.namesTransform : Json → Bool
  | .object entries =>
    match entries.lookup "type" with
    | some (.string word) => Keyword.isWord TransformKind word
    | _ => false
  | _ => false

/-- The items of a logical combination, which have to be a list. -/
def Fields.combination? {whole : Json} {α : Type} (fields : Fields whole) (key : String)
    (decode : PartDecoder whole α) : Decoded (Option (List α)) :=
  match given : fields.value? key with
  | none => .ok none
  | some (.array items) =>
    some <$> decodeItems key 0 items fun item member =>
      decode item (Fields.sizeOf_item given member)
  | some _ => Decoded.fail (.malformed .expression (.notAList key))

/-- The key under which the values of an operation on a list are given. -/
def Fields.variadicKey {whole : Json} (fields : Fields whole) (op : VariadicOp) : String :=
  if !fields.has op.listKey && fields.has "values" then "values" else op.listKey

mutual

/-- Decodes an operand. -/
def Operand.decode (document : Json) : Decoded Operand :=
  match document with
  | .string text =>
    if Path.classify text.toList = .field then .ok (.literal (.string text))
    else .ok (.path ⟨text⟩)
  | other =>
    if other.namesTransform then .transform <$> Transform.decode other else .ok (.literal other)
termination_by 2 * sizeOf document + 1

/-- Decodes a computation. -/
def Transform.decode (document : Json) : Decoded Transform := do
  let untyped ← Fields.of .transform document
  let word ← untyped.kindWord
  let kind : TransformKind ← untyped.kindOf word
  let fields := untyped.forKind word
  let operand (key : String) := fields.requiredNode key fun part _ => Operand.decode part
  let operand? (key : String) := fields.node? key fun part _ => Operand.decode part
  match kind with
  | .binary op => return .binary op (← operand "left") (← operand "right")
  | .unary op => return .unary op (← operand "value")
  | .variadic op =>
    let key := fields.variadicKey op
    let _ ← fields.required key
    return .variadic op (← fields.list key "value" fun part _ => Operand.decode part)
  | .clamp => return .clamp (← operand "value") (← operand "min") (← operand "max")
  | .lerp => return .lerp (← operand "from") (← operand "to") (← operand "t")
  | .moveTowards =>
    return .moveTowards (← operand "current") (← operand "target") (← operand "speed")
  | .random => return .random (← operand? "min") (← operand? "max")
  | .gpsDistance =>
    return .gpsDistance (← operand "from") (← operand "to") (← fields.keyword? "unit")
  | .gpsBearing => return .gpsBearing (← operand "from") (← operand "to")
  | .gpsMoveTowards =>
    return .gpsMoveTowards (← operand "current") (← operand "target") (← operand "speed")
      (← fields.keyword? "unit")
  | .pointInPolygon => return .pointInPolygon (← operand "point") (← operand "polygon")
  | .format =>
    return .format (← operand "format")
      (← fields.list "values" "value" fun part _ => Operand.decode part)
  | .choose =>
    let condition ← fields.requiredNode "condition" fun part _ => Expression.decode part
    return .choose condition (← operand "then") (← operand? "else")
  | .now => return .now
  | .addDuration => return .addDuration (← operand "value") (← operand "duration")
  | .uuid => return .uuid
termination_by 2 * sizeOf document

/-- Decodes a condition. -/
def Expression.decode (document : Json) : Decoded Expression :=
  match document with
  | .string text =>
    if Path.classify text.toList = .field then .ok (.truthy (.literal (.string text)))
    else .ok (.truthy (.path ⟨text⟩))
  | other => do
    let fields ← Fields.of .expression other
    match ← fields.combination? "and" fun part _ => Expression.decode part with
    | some items => return .all items
    | none =>
      match ← fields.combination? "or" fun part _ => Expression.decode part with
      | some items => return .any items
      | none =>
        match ← fields.node? "not" fun part _ => Expression.decode part with
        | some item => return .not item
        | none =>
          if fields.has "left" then
            return .compare (← fields.requiredNode "left" fun part _ => Operand.decode part)
              (← fields.keyword? "op") (← fields.node? "right" fun part _ => Operand.decode part)
          else Decoded.fail (.ambiguous .expression .noExpression)
termination_by 2 * sizeOf document

end

end GameRules
