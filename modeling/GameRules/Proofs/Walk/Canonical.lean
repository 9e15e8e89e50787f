import GameRules.Proofs.Walk.Nodes

/-!
# Walks record canonical locations

A reference to the state may be written with or without the qualifier, and a walk meets both. What it
records is the canonical form: nothing is added to the locations read before but locations that are
their own canonical forms. The law holds of the steps of a walk, each way to build a walk of others
keeps it, and so it holds of the walk over a node of any type.
-/

namespace GameRules

/-- The text of a location is the one that a walk records it by. -/
def Path.IsCanonical (path : Path) : Prop := path.canonicalState? = some path

/-- Recording a collection records a canonical location, however the collection is named. -/
theorem Path.isCanonical_collection (entity : String) : (Path.collection entity).IsCanonical := by
  unfold collection
  cases located : canonicalState? ⟨entity⟩ with
  | none => exact canonicalState?_of_name entity
  | some location => exact canonicalState?_idempotent located

namespace Collector

/-- A walk adds no location but canonical ones. -/
def Canonical (walk : Walk) : Prop :=
  ∀ collector, ∀ path ∈ (walk collector).reads, path ∈ collector.reads ∨ path.IsCanonical

variable {walk other : Walk}

/-- A walk from nothing reads canonical locations only. -/
theorem Canonical.readsOf (canonical : Canonical walk) {path : Path} (read : path ∈ readsOf walk) :
    path.IsCanonical :=
  (canonical empty path read).resolve_left (PathSet.not_mem_empty path)

/-- The law of a walk is that of any walk that does the same. -/
theorem Canonical.congr (same : ∀ collector, walk collector = other collector)
    (canonical : Canonical other) : Canonical walk := by
  have equal : walk = other := funext same
  rwa [equal]

/-- Walking nowhere adds nothing. -/
theorem canonical_id : Canonical id := fun _ _ before => .inl before

/-- Recording a canonical location adds it. -/
theorem record_canonical {path : Path} (canonical : path.IsCanonical) : Canonical (record path) := by
  intro collector location read
  rcases PathSet.mem_insert.mp read with rfl | before
  · exact .inr canonical
  · exact .inl before

/-- Looking a reference up adds its canonical form, if it has one. -/
theorem read_canonical (path : Path) : Canonical (read path) := by
  cases located : path.canonicalState? with
  | none =>
    rw [read_of_unlocated located]
    exact canonical_id
  | some location =>
    rw [read_of_located located]
    exact record_canonical (Path.canonicalState?_idempotent located)

/-- Looking a text up adds the canonical form of the location that it refers to, if it does. -/
theorem readText_canonical (text : String) : Canonical (readText text) := by
  rw [readText_eq_read]
  exact read_canonical ⟨text⟩

/-- Running through a collection adds its location, if it has a name. -/
theorem readCollection_canonical (entity : String) : Canonical (readCollection entity) := by
  by_cases unnamed : entity = ""
  · rw [unnamed, readCollection_empty]
    exact canonical_id
  · rw [readCollection_of_named unnamed]
    exact record_canonical (Path.isCanonical_collection entity)

/-- Leaving a diagnostic adds no location. -/
theorem diagnose_canonical (message : String) : Canonical (diagnose message) :=
  fun _ _ before => .inl before

/-- Of two walks, one after the other, each adds canonical locations. -/
theorem Canonical.then (first : Canonical walk) (second : Canonical other) :
    Canonical (fun collector => other (walk collector)) := fun collector path read =>
  (second (walk collector) path read).elim (first collector path) .inr

/-- Entering a scope and leaving it again adds no location. -/
theorem Canonical.within (label : String) (canonical : Canonical walk) :
    Canonical (within label walk) := fun collector => canonical (enter label collector)

section Parts

variable {α : Type}

/-- A walk over a value that may be absent adds what the walk over the value adds. -/
theorem Canonical.whenSome {visit : α → Walk} (canonical : ∀ given, Canonical (visit given))
    (value : Option α) : Canonical (whenSome visit value) := by
  cases value with
  | none => exact canonical_id
  | some given => exact canonical given

/-- A walk over a list adds what the walks over its elements add. -/
theorem Canonical.each {visit : α → Walk} (canonical : ∀ item, Canonical (visit item))
    (items : List α) : Canonical (each visit items) := by
  induction items with
  | nil => exact canonical_id
  | cons item items ih => exact ((canonical item).then ih).congr fun collector => rfl

/-- A walk over a list with positions adds what the walks over its elements add. -/
theorem Canonical.eachFrom {visit : Nat → α → Walk}
    (canonical : ∀ position item, Canonical (visit position item)) (position : Nat)
    (items : List α) : Canonical (eachFrom visit position items) := by
  induction items generalizing position with
  | nil => exact canonical_id
  | cons item items ih =>
    exact ((canonical position item).then (ih (position + 1))).congr fun collector => rfl

end Parts

end Collector

open Collector

mutual

/-- The walk over an operand records canonical locations. -/
theorem Operand.collect_canonical : ∀ operand : Operand, Canonical operand.collect
  | .literal _ => canonical_id.congr fun collector => by rw [Operand.collect]; rfl
  | .path path => (read_canonical path).congr fun collector => by rw [Operand.collect]
  | .transform computation =>
    (Transform.collect_canonical computation).congr fun collector => by rw [Operand.collect]

/-- The walk over a computation records canonical locations. -/
theorem Transform.collect_canonical : ∀ computation : Transform, Canonical computation.collect
  | .binary _ left right =>
    (Operand.collect_canonical left |>.then <| Operand.collect_canonical right).congr
      fun collector => by rw [Transform.collect]
  | .unary _ value =>
    (Operand.collect_canonical value).congr fun collector => by rw [Transform.collect]
  | .variadic _ values =>
    (Operand.collectAll_canonical values).congr fun collector => by rw [Transform.collect]
  | .clamp value lower upper =>
    (((Operand.collect_canonical value).then (Operand.collect_canonical lower)).then
      (Operand.collect_canonical upper)).congr fun collector => by rw [Transform.collect]
  | .lerp start finish fraction =>
    (((Operand.collect_canonical start).then (Operand.collect_canonical finish)).then
      (Operand.collect_canonical fraction)).congr fun collector => by rw [Transform.collect]
  | .moveTowards current target speed =>
    (((Operand.collect_canonical current).then (Operand.collect_canonical target)).then
      (Operand.collect_canonical speed)).congr fun collector => by rw [Transform.collect]
  | .random lower upper =>
    ((Operand.collectOptional_canonical lower).then
      (Operand.collectOptional_canonical upper)).congr fun collector => by rw [Transform.collect]
  | .gpsDistance start finish _ =>
    ((Operand.collect_canonical start).then (Operand.collect_canonical finish)).congr
      fun collector => by rw [Transform.collect]
  | .gpsBearing start finish =>
    ((Operand.collect_canonical start).then (Operand.collect_canonical finish)).congr
      fun collector => by rw [Transform.collect]
  | .gpsMoveTowards current target speed _ =>
    (((Operand.collect_canonical current).then (Operand.collect_canonical target)).then
      (Operand.collect_canonical speed)).congr fun collector => by rw [Transform.collect]
  | .pointInPolygon point polygon =>
    ((Operand.collect_canonical point).then (Operand.collect_canonical polygon)).congr
      fun collector => by rw [Transform.collect]
  | .format template values =>
    ((Operand.collect_canonical template).then (Operand.collectAll_canonical values)).congr
      fun collector => by rw [Transform.collect]
  | .choose condition consequent alternative =>
    (((Expression.collect_canonical condition).then (Operand.collect_canonical consequent)).then
      (Operand.collectOptional_canonical alternative)).congr fun collector => by
        rw [Transform.collect]
  | .now => canonical_id.congr fun collector => by rw [Transform.collect]; rfl
  | .addDuration value duration =>
    ((Operand.collect_canonical value).then (Operand.collect_canonical duration)).congr
      fun collector => by rw [Transform.collect]
  | .uuid => canonical_id.congr fun collector => by rw [Transform.collect]; rfl

/-- The walk over a condition records canonical locations. -/
theorem Expression.collect_canonical : ∀ condition : Expression, Canonical condition.collect
  | .compare left _ right =>
    ((Operand.collect_canonical left).then (Operand.collectOptional_canonical right)).congr
      fun collector => by rw [Expression.collect]
  | .all items =>
    (Expression.collectAll_canonical items).congr fun collector => by rw [Expression.collect]
  | .any items =>
    (Expression.collectAll_canonical items).congr fun collector => by rw [Expression.collect]
  | .not item => (Expression.collect_canonical item).congr fun collector => by rw [Expression.collect]

/-- The walk over a list of operands records canonical locations. -/
theorem Operand.collectAll_canonical :
    ∀ values : List Operand, Canonical (Operand.collectAll values)
  | [] => canonical_id.congr fun collector => by rw [Operand.collectAll]; rfl
  | value :: values =>
    ((Operand.collect_canonical value).then (Operand.collectAll_canonical values)).congr
      fun collector => by rw [Operand.collectAll]

/-- The walk over an operand that may be absent records canonical locations. -/
theorem Operand.collectOptional_canonical :
    ∀ operand : Option Operand, Canonical (Operand.collectOptional operand)
  | none => canonical_id.congr fun collector => by rw [Operand.collectOptional]; rfl
  | some value =>
    (Operand.collect_canonical value).congr fun collector => by rw [Operand.collectOptional]

/-- The walk over a list of conditions records canonical locations. -/
theorem Expression.collectAll_canonical :
    ∀ items : List Expression, Canonical (Expression.collectAll items)
  | [] => canonical_id.congr fun collector => by rw [Expression.collectAll]; rfl
  | item :: items =>
    ((Expression.collect_canonical item).then (Expression.collectAll_canonical items)).congr
      fun collector => by rw [Expression.collectAll]

end

mutual

/-- The walk over a condition on entities records canonical locations. -/
theorem WhereClause.collect_canonical : ∀ clause : WhereClause, Canonical clause.collect
  | .compare field _ value =>
    ((readText_canonical field).then (Canonical.whenSome Operand.collect_canonical value)).congr
      fun collector => by rw [WhereClause.collect]
  | .all items =>
    (WhereClause.collectAll_canonical items).congr fun collector => by rw [WhereClause.collect]
  | .any items =>
    (WhereClause.collectAll_canonical items).congr fun collector => by rw [WhereClause.collect]
  | .not item =>
    (WhereClause.collect_canonical item).congr fun collector => by rw [WhereClause.collect]

/-- The walk over a list of conditions on entities records canonical locations. -/
theorem WhereClause.collectAll_canonical :
    ∀ items : List WhereClause, Canonical (WhereClause.collectAll items)
  | [] => canonical_id.congr fun collector => by rw [WhereClause.collectAll]; rfl
  | item :: items =>
    ((WhereClause.collect_canonical item).then (WhereClause.collectAll_canonical items)).congr
      fun collector => by rw [WhereClause.collectAll]

end

/-- The walk over a value of a projection records canonical locations. -/
theorem ViewOperation.collectProjection_canonical (name : String) (value : Json) :
    Canonical (collectProjection name value) := by
  unfold collectProjection
  cases Operand.decode value with
  | ok operand => exact operand.collect_canonical
  | error error => exact diagnose_canonical _

/-- The walk over a stage of a view records canonical locations. -/
theorem ViewOperation.collect_canonical (operation : ViewOperation) :
    Canonical operation.collect := by
  cases operation with
  | filter condition => exact condition.collect_canonical
  | map fields =>
    exact Canonical.each (fun entry => collectProjection_canonical entry.1 entry.2) fields
  | sort path _ => exact read_canonical path
  | window _ _ => exact canonical_id
  | groupBy groupField _ path =>
    exact (read_canonical groupField).then (Canonical.whenSome read_canonical path)
  | field _ path => exact read_canonical path
  | distance start finish origin _ =>
    exact ((Canonical.whenSome Operand.collect_canonical start).then
      (Canonical.whenSome Operand.collect_canonical finish)).then
        (Canonical.whenSome Operand.collect_canonical origin)
  | proximity _ operation =>
    exact (operation.origin.collect_canonical).then
      (Canonical.whenSome read_canonical operation.field)
  | rows _ => exact canonical_id

/-- The walk over the source of a view records canonical locations. -/
theorem View.collectSource_canonical (source : String) : Canonical (collectSource source) := by
  unfold collectSource
  split
  · exact readCollection_canonical source
  · exact readCollection_canonical source
  · exact canonical_id

/-- The walk over a view records canonical locations. -/
theorem View.collect_canonical (view : View) : Canonical view.collect := by
  have stages := Canonical.eachFrom (fun position (operation : ViewOperation) =>
    operation.collect_canonical.within ("pipeline operation " ++ Nat.repr position)) 0 view.pipeline
  exact (collectSource_canonical view.source).then (stages.within view.label)

/-- The walk over a use of a view records canonical locations. -/
theorem ViewRef.collect_canonical (reference : ViewRef) : Canonical reference.collect := by
  cases reference with
  | named name => exact canonical_id
  | inPlace view => exact view.collect_canonical

/-- The walk over the source of a value records canonical locations. -/
theorem ValueExpression.collect_canonical (expression : ValueExpression) :
    Canonical expression.collect := by
  cases expression with
  | viewResult view params =>
    exact view.collect_canonical.then (Canonical.each Operand.collect_canonical params.values)
  | distance start finish _ => exact start.collect_canonical.then finish.collect_canonical
  | field path => exact read_canonical path
  | literal _ => exact canonical_id
  | transform computation => exact computation.collect_canonical

/-- The walk over a selector records canonical locations. -/
theorem Selector.collect_canonical (selector : Selector) : Canonical selector.collect := by
  have choice : Canonical (collectChoice selector.choice) := by
    cases selector.choice with
    | all => exact canonical_id
    | filter condition => exact condition.collect_canonical
    | single id => exact id.collect_canonical
    | related _ source => exact source.collect_canonical
    | proximity _ selector =>
      exact selector.position.collect_canonical.then selector.origin.collect_canonical
  exact (readCollection_canonical selector.entity).then choice

/-- The walk over a trigger records canonical locations. -/
theorem Trigger.collect_canonical (trigger : Trigger) : Canonical trigger.collect := by
  obtain ⟨_, activation⟩ := trigger
  cases activation with
  | change watch => exact Canonical.each read_canonical watch
  | event _ _ condition => exact Canonical.whenSome WhereClause.collect_canonical condition
  | distance start finish _ value _ =>
    exact (start.collect_canonical.then finish.collect_canonical).then value.collect_canonical
  | condition condition => exact condition.collect_canonical
  | tick _ => exact canonical_id
  | timer _ _ _ => exact canonical_id
  | cron _ => exact canonical_id
  | schedule _ _ _ => exact canonical_id
  | start => exact canonical_id

/-- The walk over a rule records canonical locations. -/
theorem Rule.collect_canonical (rule : Rule) : Canonical rule.collect :=
  (rule.trigger.collect_canonical.then
    (Canonical.whenSome Selector.collect_canonical rule.selector)).then
      (Canonical.each View.collect_canonical rule.views.values)

/-- The walk over a change records canonical locations. -/
theorem Change.collect_canonical (change : Change) : Canonical change.collect := by
  cases change with
  | set value => exact value.collect_canonical
  | increment step => exact step.collect_canonical
  | decrement step => exact step.collect_canonical
  | transform computation => exact computation.collect_canonical
  | setFromView value => exact value.collect_canonical

mutual

/-- The walk over an effect records canonical locations. -/
theorem Effect.collect_canonical : ∀ effect : Effect, Canonical effect.collect
  | .mutate targets _ change =>
    ((Canonical.whenSome ViewRef.collect_canonical targets).then change.collect_canonical).congr
      fun collector => by rw [Effect.collect]
  | .spawn _ fields =>
    (Canonical.each Operand.collect_canonical fields.values).congr fun collector => by
      rw [Effect.collect]
  | .destroy targets =>
    (Canonical.whenSome ViewRef.collect_canonical targets).congr fun collector => by
      rw [Effect.collect]
  | .emit _ payload =>
    (Canonical.each Operand.collect_canonical payload.values).congr fun collector => by
      rw [Effect.collect]
  | .branch condition consequent alternative =>
    ((condition.collect_canonical.then (Effect.collectAll_canonical consequent)).then
      (Effect.collectAll_canonical alternative)).congr fun collector => by rw [Effect.collect]
  | .sequence effects =>
    (Effect.collectAll_canonical effects).congr fun collector => by rw [Effect.collect]
  | .control _ _ => canonical_id.congr fun collector => by rw [Effect.collect]; rfl
  | .log message _ => message.collect_canonical.congr fun collector => by rw [Effect.collect]

/-- The walk over a list of effects records canonical locations. -/
theorem Effect.collectAll_canonical :
    ∀ effects : List Effect, Canonical (Effect.collectAll effects)
  | [] => canonical_id.congr fun collector => by rw [Effect.collectAll]; rfl
  | effect :: effects =>
    ((Effect.collect_canonical effect).then (Effect.collectAll_canonical effects)).congr
      fun collector => by rw [Effect.collectAll]

end

/-- The walk over a stage of a filter records canonical locations. -/
theorem FilterOperation.collect_canonical (operation : FilterOperation) :
    Canonical operation.collect := by
  have matched := (read_canonical operation.target).then
    (Canonical.whenSome WhereClause.collect_canonical operation.condition)
  obtain ⟨target, condition, masking⟩ := operation
  cases masking with
  | replaceField _ value => exact matched.then value.collect_canonical
  | keep => exact matched
  | remove => exact matched
  | hideFields _ => exact matched

/-- The walk over a node records canonical locations. -/
theorem Node.collect_canonical (node : Node) : Canonical node.collect := by
  cases node with
  | ruleSet set => exact canonical_id
  | rule rule => exact rule.collect_canonical
  | filter filter => exact Canonical.each FilterOperation.collect_canonical filter.operations
  | filterOperation operation => exact operation.collect_canonical
  | trigger trigger => exact trigger.collect_canonical
  | selector selector => exact selector.collect_canonical
  | view view => exact view.collect_canonical
  | viewOperation operation => exact operation.collect_canonical
  | viewRef reference => exact reference.collect_canonical
  | valueExpression expression => exact expression.collect_canonical
  | effect effect => exact effect.collect_canonical
  | whereClause clause => exact clause.collect_canonical
  | expression condition => exact condition.collect_canonical
  | operand operand => exact operand.collect_canonical
  | transform computation => exact computation.collect_canonical

/-- A node of any type depends on canonical locations only. -/
theorem Node.isCanonical_of_mem_dependsOn {node : Node} {location : Path}
    (read : location ∈ node.dependsOn) : location.IsCanonical :=
  node.collect_canonical.readsOf read

end GameRules
