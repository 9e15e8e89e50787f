import GameRules.Proofs.Rule

/-!
# Every node is read back from its document

What a document is decoded to, is decoded from its own canonical document again: writing a node loses
no field, and reading it back adds none. The only exceptions are leaves that the format cannot
write as they are.
-/

namespace GameRules

/-- The types of node that a document may be decoded to. -/
inductive NodeType where
  /-- A value slot. -/
  | operand
  /-- A computation. -/
  | transform
  /-- A condition. -/
  | expression
  /-- A condition on entities. -/
  | whereClause
  /-- Which entities a rule is about. -/
  | selector
  /-- A stage of a view. -/
  | viewOperation
  /-- A query. -/
  | view
  /-- A query, by name or in place. -/
  | viewRef
  /-- Where a value comes from. -/
  | valueExpression
  /-- What makes a rule fire. -/
  | trigger
  /-- What a rule does. -/
  | effect
  /-- A stage of a filter. -/
  | filterOperation
  /-- A masking pipeline. -/
  | filter
  /-- A rule. -/
  | rule
  /-- A package of rules and filters. -/
  | ruleSet
deriving DecidableEq, Repr

namespace NodeType

/-- The nodes of a type. -/
def Node : NodeType → Type
  | operand => Operand
  | transform => Transform
  | expression => Expression
  | whereClause => WhereClause
  | selector => Selector
  | viewOperation => ViewOperation
  | view => View
  | viewRef => ViewRef
  | valueExpression => ValueExpression
  | trigger => Trigger
  | effect => Effect
  | filterOperation => FilterOperation
  | filter => Filter
  | rule => Rule
  | ruleSet => RuleSet

/-- Decodes a node of a type. -/
def decode : (type : NodeType) → Json → Decoded type.Node
  | operand => Operand.decode
  | transform => Transform.decode
  | expression => Expression.decode
  | whereClause => WhereClause.decode
  | selector => Selector.decode
  | viewOperation => ViewOperation.decode
  | view => View.decode
  | viewRef => ViewRef.decode
  | valueExpression => ValueExpression.decode
  | trigger => Trigger.decode
  | effect => Effect.decode
  | filterOperation => FilterOperation.decode
  | filter => Filter.decode
  | rule => Rule.decode
  | ruleSet => RuleSet.decode

/-- The document of a node. -/
def encode : (type : NodeType) → type.Node → Json
  | operand => Operand.encode
  | transform => Transform.encode
  | expression => Expression.encode
  | whereClause => WhereClause.encode
  | selector => Selector.encode
  | viewOperation => ViewOperation.encode
  | view => View.encode
  | viewRef => ViewRef.encode
  | valueExpression => ValueExpression.encode
  | trigger => Trigger.encode
  | effect => Effect.encode
  | filterOperation => FilterOperation.encode
  | filter => Filter.encode
  | rule => Rule.encode
  | ruleSet => RuleSet.encode

/-- The leaves of a node at every depth: views that it names, fields that its conditions on entities
compare, and durations. Values, computations and conditions on values have none. -/
def leaves : (type : NodeType) → type.Node → List Leaf
  | operand => fun _ => []
  | transform => fun _ => []
  | expression => fun _ => []
  | whereClause => WhereClause.leaves
  | selector => Selector.leaves
  | viewOperation => ViewOperation.leaves
  | view => View.leaves
  | viewRef => ViewRef.leaves
  | valueExpression => ValueExpression.leaves
  | trigger => Trigger.leaves
  | effect => Effect.leaves
  | filterOperation => FilterOperation.leaves
  | filter => Filter.leaves
  | rule => Rule.leaves
  | ruleSet => RuleSet.leaves

/-- A decoded node is read back from its own document if its leaves are stable. -/
theorem decode_encode_of_decode (type : NodeType) (document : Json) (node : type.Node)
    (decoded : type.decode document = .ok node) (stable : ∀ leaf ∈ type.leaves node, leaf.Stable) :
    type.decode (type.encode node) = .ok node := by
  cases type with
  | operand => exact Operand.decode_encode node (Operand.wellFormed_of_decode decoded)
  | transform => exact Transform.decode_encode node (Transform.wellFormed_of_decode decoded)
  | expression => exact Expression.decode_encode node (Expression.wellFormed_of_decode decoded)
  | whereClause =>
    exact WhereClause.decode_encode node (WhereClause.wellFormed_of_decode decoded) stable
  | selector => exact Selector.decode_encode (Selector.wellFormed_of_decode decoded) stable
  | viewOperation =>
    exact ViewOperation.decode_encode (ViewOperation.wellFormed_of_decode decoded) stable
  | view =>
    obtain ⟨wellFormed, named⟩ := View.wellFormed_of_decode decoded
    exact View.decode_encode_of_name wellFormed named stable
  | viewRef => exact ViewRef.decode_encode (ViewRef.wellFormed_of_decode decoded) stable
  | valueExpression =>
    exact ValueExpression.decode_encode (ValueExpression.wellFormed_of_decode decoded) stable
  | trigger => exact Trigger.decode_encode (Trigger.wellFormed_of_decode decoded) stable
  | effect => exact Effect.decode_encode node (Effect.wellFormed_of_decode decoded) stable
  | filterOperation =>
    exact FilterOperation.decode_encode (FilterOperation.wellFormed_of_decode decoded) stable
  | filter => exact Filter.decode_encode (Filter.wellFormed_of_decode decoded) stable
  | rule => exact Rule.decode_encode (Rule.wellFormed_of_decode decoded) stable
  | ruleSet => exact RuleSet.decode_encode (RuleSet.wellFormed_of_decode decoded) stable

/-- A view that is named with its qualifier is written by its plain name and without the parameters it
does not have, which is read back as the same source of a value. -/
theorem decode_encode_of_viewResult :
    ValueExpression.decode (.object [("params", .object []), ("type", .string "viewResult"),
        ("view", .string "view:adjacent")]) = .ok (.viewResult (.named "adjacent") []) ∧
      (∀ leaf ∈ valueExpression.leaves (.viewResult (.named "adjacent") []), leaf.Stable) ∧
        ValueExpression.decode (ValueExpression.encode (.viewResult (.named "adjacent") [])) =
          .ok (.viewResult (.named "adjacent") []) := by
  have decoded : ValueExpression.decode (.object [("params", .object []),
      ("type", .string "viewResult"), ("view", .string "view:adjacent")]) =
        .ok (.viewResult (.named "adjacent") []) := rfl
  have stable : ∀ leaf ∈ valueExpression.leaves (.viewResult (.named "adjacent") []),
      leaf.Stable := by
    intro leaf member
    cases List.mem_singleton.mp member
    show ¬"view:".toList <+: "adjacent".toList
    decide
  exact ⟨decoded, stable, decode_encode_of_decode valueExpression _ _ decoded stable⟩

end NodeType

end GameRules
