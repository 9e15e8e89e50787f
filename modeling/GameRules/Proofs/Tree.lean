import GameRules.Rule.Set
import Mathlib.Logic.Relation

/-!
# The tree below a rule set

The types of syntax refer to each other, so one type of node holds them all. Each node is made of
others, its children; a node is inside another if it can be reached by going from a node to one of
its children again and again.
-/

namespace GameRules

/-- A node of any type. -/
inductive Node where
  /-- A package of rules and filters. -/
  | ruleSet (set : RuleSet)
  /-- A rule. -/
  | rule (rule : Rule)
  /-- A masking pipeline. -/
  | filter (filter : Filter)
  /-- A stage of a filter. -/
  | filterOperation (operation : FilterOperation)
  /-- What makes a rule fire. -/
  | trigger (trigger : Trigger)
  /-- Which entities a rule is about. -/
  | selector (selector : Selector)
  /-- A query. -/
  | view (view : View)
  /-- A stage of a view. -/
  | viewOperation (operation : ViewOperation)
  /-- A query, by name or in place. -/
  | viewRef (reference : ViewRef)
  /-- Where a value comes from. -/
  | valueExpression (expression : ValueExpression)
  /-- What a rule does. -/
  | effect (effect : Effect)
  /-- A condition on entities. -/
  | whereClause (clause : WhereClause)
  /-- A condition. -/
  | expression (condition : Expression)
  /-- A value slot. -/
  | operand (operand : Operand)
  /-- A computation. -/
  | transform (transform : Transform)

/-- What an operand is made of. -/
def Operand.children : Operand → List Node
  | literal _ => []
  | path _ => []
  | transform computation => [.transform computation]

/-- What a computation is made of. -/
def Transform.children : Transform → List Node
  | binary _ left right => [.operand left, .operand right]
  | unary _ value => [.operand value]
  | variadic _ values => values.map .operand
  | clamp value lower upper => [.operand value, .operand lower, .operand upper]
  | lerp start finish fraction => [.operand start, .operand finish, .operand fraction]
  | moveTowards current target speed => [.operand current, .operand target, .operand speed]
  | random lower upper => lower.toList.map .operand ++ upper.toList.map .operand
  | gpsDistance start finish _ => [.operand start, .operand finish]
  | gpsBearing start finish => [.operand start, .operand finish]
  | gpsMoveTowards current target speed _ => [.operand current, .operand target, .operand speed]
  | pointInPolygon point polygon => [.operand point, .operand polygon]
  | format template values => .operand template :: values.map .operand
  | choose condition consequent alternative =>
    .expression condition :: .operand consequent :: alternative.toList.map .operand
  | now => []
  | addDuration value duration => [.operand value, .operand duration]
  | uuid => []

/-- What a condition is made of. -/
def Expression.children : Expression → List Node
  | compare left _ right => .operand left :: right.toList.map .operand
  | all items => items.map .expression
  | any items => items.map .expression
  | not item => [.expression item]

/-- What a condition on entities is made of. -/
def WhereClause.children : WhereClause → List Node
  | compare _ _ value => value.toList.map .operand
  | all items => items.map .whereClause
  | any items => items.map .whereClause
  | not item => [.whereClause item]

/-- The values of a projection: its documents that can be decoded. -/
def ViewOperation.projected (fields : Entries Json) : List Operand :=
  fields.values.filterMap fun document => (Operand.decode document).toOption

namespace ViewOperation

/-- The values of a projection are those that a document of it is decoded to. -/
theorem mem_projected_iff {fields : Entries Json} {operand : Operand} :
    operand ∈ projected fields ↔ ∃ entry ∈ fields, Operand.decode entry.2 = .ok operand := by
  have decodes (document : Json) : (Operand.decode document).toOption = some operand ↔
      Operand.decode document = .ok operand := by
    cases Operand.decode document <;> simp [Except.toOption]
  simp [projected, Entries.values, decodes]

/-- The references that a stage of a view holds itself. -/
def paths : ViewOperation → List Path
  | sort by_ _ => [by_]
  | groupBy groupField _ path => groupField :: path.toList
  | field _ path => [path]
  | proximity _ operation => operation.field.toList
  | filter _ => []
  | map _ => []
  | window .. => []
  | distance .. => []
  | rows _ => []

/-- What a stage of a view is made of. -/
def children : ViewOperation → List Node
  | filter condition => [.whereClause condition]
  | map fields => (projected fields).map .operand
  | distance start finish origin _ =>
    start.toList.map .operand ++ finish.toList.map .operand ++ origin.toList.map .operand
  | proximity _ operation => [.operand operation.origin]
  | sort .. => []
  | window .. => []
  | groupBy .. => []
  | field .. => []
  | rows _ => []

end ViewOperation

/-- What a use of a view is made of; a view that is named stands elsewhere. -/
def ViewRef.children : ViewRef → List Node
  | named _ => []
  | inPlace view => [.view view]

/-- What the source of a value is made of. -/
def ValueExpression.children : ValueExpression → List Node
  | viewResult view params => .viewRef view :: params.values.map .operand
  | distance start finish _ => [.operand start, .operand finish]
  | field _ => []
  | literal _ => []
  | transform computation => [.transform computation]

/-- What the choice of entities is made of. -/
def Choice.children : Choice → List Node
  | all => []
  | filter condition => [.whereClause condition]
  | single id => [.operand id]
  | related _ source => [.operand source]
  | proximity _ selector => [.operand selector.position, .operand selector.origin]

/-- What the time of firing is made of. -/
def Activation.children : Activation → List Node
  | event _ _ filter => filter.toList.map .whereClause
  | distance source target _ value _ => [.operand source, .operand target, .operand value]
  | condition test => [.expression test]
  | tick _ => []
  | change _ => []
  | timer .. => []
  | cron _ => []
  | schedule .. => []
  | start => []

/-- What a change of a location is made of. -/
def Change.children : Change → List Node
  | set value => [.operand value]
  | increment step => [.operand step]
  | decrement step => [.operand step]
  | transform computation => [.transform computation]
  | setFromView value => [.valueExpression value]

/-- What an effect is made of. -/
def Effect.children : Effect → List Node
  | mutate targets _ change => targets.toList.map .viewRef ++ change.children
  | spawn _ fields => fields.values.map .operand
  | destroy targets => targets.toList.map .viewRef
  | emit _ payload => payload.values.map .operand
  | branch condition consequent alternative =>
    .expression condition :: consequent.map .effect ++ alternative.map .effect
  | sequence effects => effects.map .effect
  | control .. => []
  | log message _ => [.operand message]

/-- What the masking of what matches is made of. -/
def Masking.children : Masking → List Node
  | replaceField _ value => [.operand value]
  | keep => []
  | remove => []
  | hideFields _ => []

/-- What a stage of a filter is made of. -/
def FilterOperation.children (operation : FilterOperation) : List Node :=
  operation.condition.toList.map .whereClause ++ operation.masking.children

/-- The nodes that decide whether and where a rule fires: its trigger, its selector and its views. -/
def Rule.deciding (rule : Rule) : List Node :=
  .trigger rule.trigger :: rule.selector.toList.map .selector ++ rule.views.values.map .view

/-- What a rule is made of. -/
def Rule.children (rule : Rule) : List Node := rule.deciding ++ rule.effects.map .effect

namespace Node

/-- What a node is made of. -/
def children : Node → List Node
  | ruleSet set => set.rules.map rule ++ set.filters.map filter
  | rule node => node.children
  | filter node => node.operations.map filterOperation
  | filterOperation node => node.children
  | trigger node => node.activation.children
  | selector node => node.choice.children
  | view node => node.pipeline.map viewOperation
  | viewOperation node => node.children
  | viewRef node => node.children
  | valueExpression node => node.children
  | effect node => node.children
  | whereClause node => node.children
  | expression node => node.children
  | operand node => node.children
  | transform node => node.children

/-- A node is inside another at any depth, or is that node itself. -/
def Inside (node root : Node) : Prop :=
  Relation.ReflTransGen (fun parent child => child ∈ parent.children) root node

/-- Some node inside another has a property if that node has it, or some node inside one of its
children. -/
theorem exists_inside_iff {root : Node} {property : Node → Prop} :
    (∃ node, node.Inside root ∧ property node) ↔
      property root ∨ ∃ child ∈ root.children, ∃ node, node.Inside child ∧ property node := by
  constructor
  · rintro ⟨node, inside, holds⟩
    rcases Relation.ReflTransGen.cases_head inside with rfl | ⟨child, member, below⟩
    · exact .inl holds
    · exact .inr ⟨child, member, node, below, holds⟩
  · rintro (holds | ⟨child, member, node, below, holds⟩)
    · exact ⟨root, .refl, holds⟩
    · exact ⟨node, .head member below, holds⟩

/-- What holds of a node and is passed on to the children holds of every node inside. -/
theorem Inside.property {node root : Node} {property : Node → Prop} (inside : node.Inside root)
    (passed : ∀ parent child, property parent → child ∈ parent.children → property child)
    (holds : property root) : property node := by
  induction inside with
  | refl => exact holds
  | tail _ member ih => exact passed _ _ ih member

end Node

end GameRules
