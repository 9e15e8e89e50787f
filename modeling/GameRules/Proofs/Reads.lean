import GameRules.Proofs.Invariants
import GameRules.Proofs.Walk.Steps

/-!
# What a rule reads

Two sets of locations are told apart: those that decide whether and where a rule fires, and those
that its effects read. Each is exactly what the nodes of one part of the rule name, at any depth. The
walk over a node therefore adds to what was read before the locations that the node or a node inside
it names, and nothing else.
-/

namespace GameRules

namespace Node

/-- The references that a node of a rule looks up itself. -/
def references : Node → List Path
  | operand (.path path) => [path]
  | whereClause (.compare field _ _) => [⟨field⟩]
  | trigger ⟨_, .change watch⟩ => watch
  | viewOperation node => node.paths
  | valueExpression (.field path) => [path]
  | _ => []

/-- The collections of entities that a node of a rule runs through itself. The source of a view is
one if it is a plain name or a location; the result of another view is not. -/
def collections : Node → List String
  | selector node => [node.entity]
  | view node =>
    if Path.kind ⟨node.source⟩ = .state ∨ Path.kind ⟨node.source⟩ = .field then [node.source]
    else []
  | _ => []

/-- A node itself names a location: as the canonical form of a reference to the state, or as a
collection. -/
def Names (node : Node) (location : Path) : Prop :=
  (∃ path ∈ node.references, path.kind = .state ∧ path.canonicalState? = some location) ∨
    ∃ entity ∈ node.collections, location = Path.collection entity

/-- A node names a location at some depth. -/
def Reads (root : Node) (location : Path) : Prop :=
  ∃ node : Node, node.Inside root ∧ node.Names location

variable {location : Path}

/-- A node reads what it names itself and what its children read. -/
theorem reads_iff (root : Node) :
    root.Reads location ↔ root.Names location ∨ ∃ child ∈ root.children, child.Reads location :=
  exists_inside_iff

/-- A node that runs through no collection reads what it looks up and what its children read. -/
theorem reads_iff_of_references {root : Node} (collections : root.collections = []) :
    root.Reads location ↔
      (∃ path ∈ root.references, path.kind = .state ∧ path.canonicalState? = some location) ∨
        ∃ child ∈ root.children, child.Reads location := by
  rw [reads_iff, Names, collections]
  simp

/-- A node that names nothing itself reads what its children read. -/
theorem reads_iff_of_children {root : Node} (references : root.references = [])
    (collections : root.collections = []) :
    root.Reads location ↔ ∃ child ∈ root.children, child.Reads location := by
  rw [reads_iff_of_references collections, references]
  simp

/-- A constant reads nothing. -/
theorem not_reads_literal (value : Json) : ¬(operand (.literal value)).Reads location := by
  rw [reads_iff_of_children rfl rfl]
  exact fun ⟨_, member, _⟩ => nomatch member

/-- A reference reads its location, if it is one to the state. -/
theorem reads_path_iff {path : Path} :
    (operand (.path path)).Reads location ↔
      path.kind = .state ∧ path.canonicalState? = some location := by
  rw [reads_iff_of_references rfl]
  simp [references, children, Operand.children]

/-- An operand that is computed reads what the computation reads. -/
theorem reads_computed_iff {computation : Transform} :
    (operand (.transform computation)).Reads location ↔ (transform computation).Reads location := by
  rw [reads_iff_of_children rfl rfl]
  simp [children, Operand.children]

/-- A computation reads what its children read. -/
theorem reads_transform_iff (computation : Transform) :
    (transform computation).Reads location ↔
      ∃ child ∈ computation.children, child.Reads location :=
  reads_iff_of_children rfl rfl

/-- A view itself names the collection that its rows come from, if there is one. -/
theorem names_view_iff (node : View) :
    (view node).Names location ↔
      (Path.kind ⟨node.source⟩ = .state ∨ Path.kind ⟨node.source⟩ = .field) ∧
        location = Path.collection node.source := by
  have unreferenced : (view node).references = [] := rfl
  have sourced : (view node).collections =
      if Path.kind ⟨node.source⟩ = .state ∨ Path.kind ⟨node.source⟩ = .field then [node.source]
      else [] := rfl
  rw [Names, unreferenced, sourced]
  split
  · rename_i sourced
    simp [sourced]
  · rename_i elsewhere
    simp [elsewhere]

/-- An effect reads what its children read. -/
theorem reads_effect_iff (node : Effect) :
    (effect node).Reads location ↔ ∃ child ∈ node.children, child.Reads location :=
  reads_iff_of_children rfl rfl

/-- A condition reads what its children read. -/
theorem reads_expression_iff (condition : Expression) :
    (expression condition).Reads location ↔ ∃ child ∈ condition.children, child.Reads location :=
  reads_iff_of_children rfl rfl

end Node

namespace Collector

variable {location : Path} {collector : Collector}

/-- Recording adds one location. -/
theorem mem_record {path : Path} :
    location ∈ (collector.record path).reads ↔ location ∈ collector.reads ∨ location = path := by
  rw [record, PathSet.mem_insert, or_comm]

/-- Looking a reference up adds its canonical form if it is of the kind of locations. -/
theorem mem_read {path : Path} :
    location ∈ (collector.read path).reads ↔
      location ∈ collector.reads ∨ path.kind = .state ∧ path.canonicalState? = some location := by
  rw [read, Path.kind_eq_state_iff]
  cases path.canonicalState? with
  | none => simp
  | some canonical => simp [mem_record, eq_comm]

/-- Looking a text up adds the location that it is a reference to. -/
theorem mem_readText {text : String} :
    location ∈ (collector.readText text).reads ↔
      location ∈ collector.reads ∨
        Path.kind ⟨text⟩ = .state ∧ Path.canonicalState? ⟨text⟩ = some location := by
  rw [readText_eq_read]
  exact mem_read

/-- Running through a collection that has a name adds its location. -/
theorem mem_readCollection {entity : String} (named : entity ≠ "") :
    location ∈ (collector.readCollection entity).reads ↔
      location ∈ collector.reads ∨ location = Path.collection entity := by
  rw [readCollection_of_named named, mem_record]

/-- A walk adds a location, whatever was read before, exactly if a condition holds. -/
def Adds (walk : Walk) (location : Path) (condition : Prop) : Prop :=
  ∀ collector, location ∈ (walk collector).reads ↔ location ∈ collector.reads ∨ condition

/-- Walking over a value adds what the walk over that value adds. -/
theorem Adds.whenSome {α : Type} {walk : α → Walk} {value : Option α} {reads : α → Prop}
    (adds : ∀ given, value = some given → Adds (walk given) location (reads given)) :
    Adds (whenSome walk value) location (∃ given ∈ value.toList, reads given) := by
  intro collector
  cases value with
  | none => simp [Collector.whenSome]
  | some given => simpa [Collector.whenSome] using adds given rfl collector

/-- Looking up a reference that may be missing adds its location if it is there. -/
theorem read_whenSome_adds (path : Option Path) :
    Adds (whenSome read path) location
      (∃ given ∈ path.toList, given.kind = .state ∧ given.canonicalState? = some location) :=
  .whenSome fun _ _ _ => mem_read

/-- Walking over a list adds what the walks over its elements add. -/
theorem Adds.each {α : Type} {walk : α → Walk} {items : List α} {reads : α → Prop}
    (adds : ∀ item ∈ items, Adds (walk item) location (reads item)) :
    Adds (each walk items) location (∃ item ∈ items, reads item) := by
  intro collector
  induction items generalizing collector with
  | nil => simp [Collector.each]
  | cons item items ih =>
    obtain ⟨first, others⟩ := List.forall_mem_cons.mp adds
    have rest := ih others (walk item collector)
    rw [first collector, or_assoc] at rest
    rw [List.exists_mem_cons_iff]
    exact rest

/-- Walking over a list with positions adds what the walks over its elements add. -/
theorem Adds.eachFrom {α : Type} {walk : Nat → α → Walk} {items : List α} {reads : α → Prop}
    (adds : ∀ item ∈ items, ∀ position, Adds (walk position item) location (reads item))
    (position : Nat) : Adds (eachFrom walk position items) location (∃ item ∈ items, reads item) := by
  induction items generalizing position with
  | nil => simp [Adds, Collector.eachFrom]
  | cons item items ih =>
    intro collector
    obtain ⟨first, others⟩ := List.forall_mem_cons.mp adds
    have rest := ih others (position + 1) (walk position item collector)
    rw [first position collector, or_assoc] at rest
    rw [List.exists_mem_cons_iff]
    exact rest

/-- A scope does not change what is read inside it. -/
theorem Adds.within {walk : Walk} {condition : Prop} (label : String)
    (adds : Adds walk location condition) : Adds (within label walk) location condition :=
  fun collector => adds (collector.enter label)

end Collector

open Collector

variable {location : Path}

mutual

/-- The walk over an operand adds what the operand reads. -/
theorem Operand.collect_adds : ∀ operand : Operand,
    Adds operand.collect location ((Node.operand operand).Reads location)
  | .literal value, collector => by
    rw [Operand.collect, iff_false_intro (Node.not_reads_literal value), or_false]
  | .path path, collector => by
    rw [Operand.collect, mem_read, Node.reads_path_iff]
  | .transform computation, collector => by
    rw [Operand.collect, Transform.collect_adds computation, Node.reads_computed_iff]

/-- The walk over a computation adds what the computation reads. -/
theorem Transform.collect_adds : ∀ computation : Transform,
    Adds computation.collect location ((Node.transform computation).Reads location)
  | .binary op left right, collector => by
    rw [Transform.collect, Operand.collect_adds right, Operand.collect_adds left,
      Node.reads_transform_iff]
    simp [Transform.children, or_assoc]
  | .unary op value, collector => by
    rw [Transform.collect, Operand.collect_adds value, Node.reads_transform_iff]
    simp [Transform.children]
  | .variadic op values, collector => by
    rw [Transform.collect, Operand.collectAll_adds values, Node.reads_transform_iff]
    simp [Transform.children]
  | .clamp value lower upper, collector => by
    rw [Transform.collect, Operand.collect_adds upper, Operand.collect_adds lower,
      Operand.collect_adds value, Node.reads_transform_iff]
    simp [Transform.children, or_assoc]
  | .lerp start finish fraction, collector => by
    rw [Transform.collect, Operand.collect_adds fraction, Operand.collect_adds finish,
      Operand.collect_adds start, Node.reads_transform_iff]
    simp [Transform.children, or_assoc]
  | .moveTowards current target speed, collector => by
    rw [Transform.collect, Operand.collect_adds speed, Operand.collect_adds target,
      Operand.collect_adds current, Node.reads_transform_iff]
    simp [Transform.children, or_assoc]
  | .random lower upper, collector => by
    rw [Transform.collect, Operand.collectOptional_adds upper, Operand.collectOptional_adds lower,
      Node.reads_transform_iff]
    simp [Transform.children, or_assoc, or_and_right, exists_or]
  | .gpsDistance start finish unit, collector => by
    rw [Transform.collect, Operand.collect_adds finish, Operand.collect_adds start,
      Node.reads_transform_iff]
    simp [Transform.children, or_assoc]
  | .gpsBearing start finish, collector => by
    rw [Transform.collect, Operand.collect_adds finish, Operand.collect_adds start,
      Node.reads_transform_iff]
    simp [Transform.children, or_assoc]
  | .gpsMoveTowards current target speed unit, collector => by
    rw [Transform.collect, Operand.collect_adds speed, Operand.collect_adds target,
      Operand.collect_adds current, Node.reads_transform_iff]
    simp [Transform.children, or_assoc]
  | .pointInPolygon point polygon, collector => by
    rw [Transform.collect, Operand.collect_adds polygon, Operand.collect_adds point,
      Node.reads_transform_iff]
    simp [Transform.children, or_assoc]
  | .format template values, collector => by
    rw [Transform.collect, Operand.collectAll_adds values, Operand.collect_adds template,
      Node.reads_transform_iff]
    simp [Transform.children, or_assoc]
  | .choose condition consequent alternative, collector => by
    rw [Transform.collect, Operand.collectOptional_adds alternative,
      Operand.collect_adds consequent, Expression.collect_adds condition, Node.reads_transform_iff]
    simp [Transform.children, or_assoc]
  | .now, collector => by
    rw [Transform.collect, Node.reads_transform_iff]
    simp [Transform.children]
  | .addDuration value duration, collector => by
    rw [Transform.collect, Operand.collect_adds duration, Operand.collect_adds value,
      Node.reads_transform_iff]
    simp [Transform.children, or_assoc]
  | .uuid, collector => by
    rw [Transform.collect, Node.reads_transform_iff]
    simp [Transform.children]

/-- The walk over a condition adds what the condition reads. -/
theorem Expression.collect_adds : ∀ condition : Expression,
    Adds condition.collect location ((Node.expression condition).Reads location)
  | .compare left op right, collector => by
    rw [Expression.collect, Operand.collectOptional_adds right, Operand.collect_adds left,
      Node.reads_expression_iff]
    simp [Expression.children, or_assoc]
  | .all items, collector => by
    rw [Expression.collect, Expression.collectAll_adds items, Node.reads_expression_iff]
    simp [Expression.children]
  | .any items, collector => by
    rw [Expression.collect, Expression.collectAll_adds items, Node.reads_expression_iff]
    simp [Expression.children]
  | .not item, collector => by
    rw [Expression.collect, Expression.collect_adds item,
      Node.reads_expression_iff (.not item)]
    simp [Expression.children]

/-- The walk over a list of operands adds what they read. -/
theorem Operand.collectAll_adds : ∀ values : List Operand,
    Adds (Operand.collectAll values) location
      (∃ value ∈ values, (Node.operand value).Reads location)
  | [], collector => by simp [Operand.collectAll]
  | value :: values, collector => by
    rw [Operand.collectAll, Operand.collectAll_adds values, Operand.collect_adds value, or_assoc,
      List.exists_mem_cons_iff]

/-- The walk over an operand that may be missing adds what it reads if it is there. -/
theorem Operand.collectOptional_adds : ∀ operand : Option Operand,
    Adds (Operand.collectOptional operand) location
      (∃ value ∈ operand.toList, (Node.operand value).Reads location)
  | none, collector => by simp [Operand.collectOptional]
  | some value, collector => by
    rw [Operand.collectOptional, Operand.collect_adds value]
    simp

/-- The walk over a list of conditions adds what they read. -/
theorem Expression.collectAll_adds : ∀ items : List Expression,
    Adds (Expression.collectAll items) location
      (∃ item ∈ items, (Node.expression item).Reads location)
  | [], collector => by simp [Expression.collectAll]
  | item :: items, collector => by
    rw [Expression.collectAll, Expression.collectAll_adds items, Expression.collect_adds item,
      or_assoc, List.exists_mem_cons_iff]

end

/-- The walk over an operand that may be missing adds what it reads if it is there. -/
theorem Operand.whenSome_adds (operand : Option Operand) :
    Adds (whenSome Operand.collect operand) location
      (∃ value ∈ operand.toList, (Node.operand value).Reads location) :=
  .whenSome fun value _ => Operand.collect_adds value

mutual

/-- The walk over a condition on entities adds what the condition reads. -/
theorem WhereClause.collect_adds : ∀ clause : WhereClause,
    Adds clause.collect location ((Node.whereClause clause).Reads location)
  | .compare field op value, collector => by
    rw [WhereClause.collect, Operand.whenSome_adds value, mem_readText, or_assoc,
      Node.reads_iff_of_references rfl]
    simp [Node.references, Node.children, WhereClause.children]
  | .all items, collector => by
    rw [WhereClause.collect, WhereClause.collectAll_adds items, Node.reads_iff_of_children rfl rfl]
    simp [Node.children, WhereClause.children]
  | .any items, collector => by
    rw [WhereClause.collect, WhereClause.collectAll_adds items, Node.reads_iff_of_children rfl rfl]
    simp [Node.children, WhereClause.children]
  | .not item, collector => by
    have negation : (Node.whereClause (.not item)).Reads location ↔ _ :=
      Node.reads_iff_of_children rfl rfl
    rw [WhereClause.collect, WhereClause.collect_adds item, negation]
    simp [Node.children, WhereClause.children]

/-- The walk over a list of conditions on entities adds what they read. -/
theorem WhereClause.collectAll_adds : ∀ items : List WhereClause,
    Adds (WhereClause.collectAll items) location
      (∃ item ∈ items, (Node.whereClause item).Reads location)
  | [], collector => by simp [WhereClause.collectAll]
  | item :: items, collector => by
    rw [WhereClause.collectAll, WhereClause.collectAll_adds items, WhereClause.collect_adds item,
      or_assoc, List.exists_mem_cons_iff]

end

/-- The walk over the values of a projection adds what those of them read that can be decoded. -/
theorem ViewOperation.collectProjection_adds (name : String) (document : Json) :
    Adds (collectProjection name document) location
      (∃ operand, Operand.decode document = .ok operand ∧
        (Node.operand operand).Reads location) := by
  intro collector
  unfold collectProjection
  cases Operand.decode document with
  | ok operand => simpa using Operand.collect_adds operand collector
  | error error => simp [diagnose]

/-- Some value of a projection has a property if some document of it is decoded to such a value. -/
theorem ViewOperation.exists_projected_iff {fields : Entries Json} {property : Operand → Prop} :
    (∃ operand ∈ projected fields, property operand) ↔
      ∃ entry ∈ fields, ∃ operand, Operand.decode entry.2 = .ok operand ∧ property operand := by
  simp only [mem_projected_iff]
  constructor
  · rintro ⟨operand, ⟨entry, member, decoded⟩, holds⟩
    exact ⟨entry, member, operand, decoded, holds⟩
  · rintro ⟨entry, member, operand, decoded, holds⟩
    exact ⟨operand, ⟨entry, member, decoded⟩, holds⟩

/-- The walk over a stage of a view adds what the stage reads. -/
theorem ViewOperation.collect_adds (operation : ViewOperation) :
    Adds operation.collect location ((Node.viewOperation operation).Reads location) := by
  intro collector
  rw [Node.reads_iff_of_references rfl]
  cases operation with
  | filter condition =>
    rw [collect, WhereClause.collect_adds]
    simp [Node.references, Node.children, paths, children]
  | map fields =>
    have projections : Adds (collect (.map fields)) location _ :=
      .each fun entry _ => collectProjection_adds entry.1 entry.2
    rw [projections, ← exists_projected_iff]
    simp [Node.references, Node.children, paths, children]
  | sort by_ order =>
    rw [collect, mem_read]
    simp [Node.references, Node.children, paths, children]
  | window kept count => simp [collect, Node.references, Node.children, paths, children]
  | groupBy groupField aggregate path =>
    rw [collect, read_whenSome_adds, mem_read]
    simp [Node.references, Node.children, paths, children, or_assoc]
  | field stage path =>
    rw [collect, mem_read]
    simp [Node.references, Node.children, paths, children]
  | distance start finish origin unit =>
    rw [collect, Operand.whenSome_adds, Operand.whenSome_adds, Operand.whenSome_adds]
    simp [Node.references, Node.children, paths, children, or_assoc, or_and_right, exists_or]
  | proximity which operation =>
    rw [collect, read_whenSome_adds, Operand.collect_adds]
    simp [Node.references, Node.children, paths, children, or_assoc, or_comm]
  | rows stage => simp [collect, Node.references, Node.children, paths, children]

/-- The source of a view adds its collection if it is a plain name or a location. -/
theorem View.collectSource_adds {source : String} (named : source ≠ "") :
    Adds (collectSource source) location
      ((Path.kind ⟨source⟩ = .state ∨ Path.kind ⟨source⟩ = .field) ∧
        location = Path.collection source) := by
  intro collector
  rw [collectSource]
  cases Path.kind ⟨source⟩ <;> simp [mem_readCollection named]

/-- The walk over a view adds what the view reads. -/
theorem View.collect_adds {view : View} (wellFormed : view.WellFormed) :
    Adds view.collect location ((Node.view view).Reads location) := by
  intro collector
  have stage : ∀ operation ∈ view.pipeline, ∀ position,
      Adds (within ("pipeline operation " ++ Nat.repr position) operation.collect) location _ :=
    fun operation _ position => (ViewOperation.collect_adds operation).within _
  have stages := Adds.eachFrom stage 0
  rw [collect, stages.within, collectSource_adds wellFormed.source, or_assoc, Node.reads_iff,
    Node.names_view_iff]
  simp [Node.children]

/-- The walk over a use of a view adds what it reads. -/
theorem ViewRef.collect_adds {reference : ViewRef} (wellFormed : reference.WellFormed) :
    Adds reference.collect location ((Node.viewRef reference).Reads location) := by
  intro collector
  rw [Node.reads_iff_of_children rfl rfl]
  cases reference with
  | named name => simp [collect, Node.children, children]
  | inPlace view =>
    rw [collect, View.collect_adds wellFormed.2]
    simp [Node.children, children]

/-- The walk over operands under keys adds what they read. -/
theorem Operand.each_adds (entries : Entries Operand) :
    Adds (each Operand.collect entries.values) location
      (∃ child ∈ entries.values.map Node.operand, child.Reads location) := by
  have walks : Adds (each Operand.collect entries.values) location _ :=
    .each fun operand _ => Operand.collect_adds operand
  simpa using walks

/-- The walk over the source of a value adds what it reads. -/
theorem ValueExpression.collect_adds {expression : ValueExpression}
    (wellFormed : expression.WellFormed) :
    Adds expression.collect location ((Node.valueExpression expression).Reads location) := by
  intro collector
  rw [Node.reads_iff_of_references rfl]
  cases expression with
  | viewResult view params =>
    rw [collect, Operand.each_adds, ViewRef.collect_adds wellFormed.1]
    simp [Node.references, Node.children, children, or_assoc]
  | distance start finish unit =>
    rw [collect, Operand.collect_adds, Operand.collect_adds]
    simp [Node.references, Node.children, children, or_assoc]
  | field path =>
    rw [collect, mem_read]
    simp [Node.references, Node.children, children]
  | literal value => simp [collect, Node.references, Node.children, children]
  | transform computation =>
    rw [collect, Transform.collect_adds]
    simp [Node.references, Node.children, children]

/-- The walk over a choice of entities adds what its children read. -/
theorem Selector.collectChoice_adds (choice : Choice) :
    Adds (collectChoice choice) location (∃ child ∈ choice.children, child.Reads location) := by
  intro collector
  cases choice with
  | all => simp [collectChoice, Choice.children]
  | filter condition =>
    rw [collectChoice, WhereClause.collect_adds]
    simp [Choice.children]
  | single id =>
    rw [collectChoice, Operand.collect_adds]
    simp [Choice.children]
  | related relation source =>
    rw [collectChoice, Operand.collect_adds]
    simp [Choice.children]
  | proximity which selector =>
    rw [collectChoice, Operand.collect_adds, Operand.collect_adds]
    simp [Choice.children, or_assoc]

/-- The walk over a selector adds what the selector reads. -/
theorem Selector.collect_adds {selector : Selector} (wellFormed : selector.WellFormed) :
    Adds selector.collect location ((Node.selector selector).Reads location) := by
  intro collector
  rw [collect, collectChoice_adds, mem_readCollection wellFormed.entity, Node.reads_iff, or_assoc]
  simp [Node.Names, Node.references, Node.collections, Node.children]

/-- The walk over a trigger adds what the trigger reads. -/
theorem Trigger.collect_adds (trigger : Trigger) :
    Adds trigger.collect location ((Node.trigger trigger).Reads location) := by
  intro collector
  obtain ⟨enabled, activation⟩ := trigger
  rw [Node.reads_iff_of_references rfl]
  cases activation with
  | change watch =>
    have watched : Adds (each Collector.read watch) location _ :=
      .each fun path _ collector => mem_read
    rw [collect, watched]
    simp [Node.references, Node.children, Activation.children]
  | event name params filter =>
    have condition : Adds (whenSome WhereClause.collect filter) location _ :=
      .whenSome fun clause _ => WhereClause.collect_adds clause
    rw [collect, condition]
    simp [Node.references, Node.children, Activation.children]
  | distance source target op value unit =>
    rw [collect, Operand.collect_adds, Operand.collect_adds, Operand.collect_adds]
    simp [Node.references, Node.children, Activation.children, or_assoc]
  | condition condition =>
    rw [collect, Expression.collect_adds]
    simp [Node.references, Node.children, Activation.children]
  | _ => simp [collect, Node.references, Node.children, Activation.children]

/-- The walk over a change adds what its children read. -/
theorem Change.collect_adds {change : Change} (wellFormed : change.WellFormed) :
    Adds change.collect location (∃ child ∈ change.children, child.Reads location) := by
  intro collector
  cases change with
  | set value =>
    rw [collect, Operand.collect_adds]
    simp [children]
  | increment step =>
    rw [collect, Operand.collect_adds]
    simp [children]
  | decrement step =>
    rw [collect, Operand.collect_adds]
    simp [children]
  | transform computation =>
    rw [collect, Transform.collect_adds]
    simp [children]
  | setFromView value =>
    rw [collect, ValueExpression.collect_adds wellFormed]
    simp [children]

/-- The walk over targets adds what they read. -/
theorem ViewRef.whenSome_adds {targets : Option ViewRef}
    (wellFormed : ∀ view, targets = some view → view.WellFormed) :
    Adds (whenSome ViewRef.collect targets) location
      (∃ child ∈ targets.toList.map Node.viewRef, child.Reads location) := by
  have walks : Adds (whenSome ViewRef.collect targets) location _ :=
    .whenSome fun view there => ViewRef.collect_adds (wellFormed view there)
  simpa using walks

mutual

/-- The walk over an effect adds what the effect reads. -/
theorem Effect.collect_adds : ∀ effect : Effect, effect.WellFormed →
    Adds effect.collect location ((Node.effect effect).Reads location)
  | .mutate targets path change, wellFormed, collector => by
    rw [Effect.WellFormed] at wellFormed
    rw [Effect.collect, Change.collect_adds wellFormed.2.2, ViewRef.whenSome_adds wellFormed.1,
      Node.reads_effect_iff]
    simp [Effect.children, or_assoc, or_and_right, exists_or]
  | .spawn entity fields, wellFormed, collector => by
    rw [Effect.collect, Operand.each_adds, Node.reads_effect_iff]
    rfl
  | .destroy targets, wellFormed, collector => by
    rw [Effect.WellFormed] at wellFormed
    rw [Effect.collect, ViewRef.whenSome_adds wellFormed, Node.reads_effect_iff]
    rfl
  | .emit event payload, wellFormed, collector => by
    rw [Effect.collect, Operand.each_adds, Node.reads_effect_iff]
    rfl
  | .branch condition consequent alternative, wellFormed, collector => by
    rw [Effect.WellFormed] at wellFormed
    rw [Effect.collect, Effect.collectAll_adds alternative wellFormed.2.2,
      Effect.collectAll_adds consequent wellFormed.2.1, Expression.collect_adds,
      Node.reads_effect_iff]
    simp [Effect.children, or_assoc, or_and_right, exists_or]
  | .sequence effects, wellFormed, collector => by
    rw [Effect.WellFormed] at wellFormed
    rw [Effect.collect, Effect.collectAll_adds effects wellFormed,
      Node.reads_effect_iff]
    simp [Effect.children]
  | .control op target, wellFormed, collector => by
    rw [Effect.collect, Node.reads_effect_iff]
    simp [Effect.children]
  | .log message level, wellFormed, collector => by
    rw [Effect.collect, Operand.collect_adds, Node.reads_effect_iff]
    simp [Effect.children]

/-- The walk over a list of effects adds what they read. -/
theorem Effect.collectAll_adds : ∀ effects : List Effect, Effect.WellFormedAll effects →
    Adds (Effect.collectAll effects) location
      (∃ effect ∈ effects, (Node.effect effect).Reads location)
  | [], _, collector => by simp [Effect.collectAll]
  | effect :: effects, wellFormed, collector => by
    rw [Effect.WellFormedAll] at wellFormed
    rw [Effect.collectAll, Effect.collectAll_adds effects wellFormed.2,
      Effect.collect_adds effect wellFormed.1, or_assoc, List.exists_mem_cons_iff]

end

/-- For a decoded rule, the locations that decide whether and where it fires are those that its
trigger, its selector or one of its views names at some depth, and the locations that its effects
read are those that one of its effects names at some depth. -/
theorem Rule.mem_reads_of_decode {document : Json} {rule : Rule}
    (decoded : Rule.decode document = .ok rule) (location : Path) :
    (location ∈ rule.dependsOn ↔ ∃ root ∈ rule.deciding, root.Reads location) ∧
      (location ∈ rule.effectReads ↔
        ∃ effect ∈ rule.effects, (Node.effect effect).Reads location) := by
  have wellFormed := Rule.wellFormed_of_decode decoded
  have nothing : location ∉ Collector.empty.reads := PathSet.not_mem_empty location
  constructor
  · have views : Adds (each View.collect rule.views.values) location _ :=
      .each fun view member => View.collect_adds <|
        wellFormed.deciding (.view view) (List.mem_append_right _ (List.mem_map_of_mem member))
    have selector : Adds (whenSome Selector.collect rule.selector) location _ :=
      .whenSome fun selector there => Selector.collect_adds (wellFormed.selector selector there)
    rw [dependsOn, readsOf, collect, views, selector, Trigger.collect_adds, or_assoc, or_assoc,
      iff_false_intro nothing, false_or]
    simp [deciding, or_and_right, exists_or]
  · rw [effectReads, readsOf, Effect.collectAll_adds rule.effects wellFormed.effects,
      iff_false_intro nothing, false_or]

/-- The rule that raises the alarm depends on the players and not on the danger, which its effect
reads. -/
theorem Rule.mem_reads_of_decode_alarm :
    Rule.decode Rule.alarmDocument = .ok .alarm ∧ ⟨"$.players"⟩ ∈ Rule.alarm.dependsOn ∧
      ⟨"$.danger"⟩ ∉ Rule.alarm.dependsOn ∧ ⟨"$.danger"⟩ ∈ Rule.alarm.effectReads := by
  have decoded : Rule.decode Rule.alarmDocument = .ok .alarm :=
    Rule.decode_encode Rule.alarm_wellFormed nofun
  have players := (Rule.mem_reads_of_decode decoded ⟨"$.players"⟩).1
  have danger := Rule.mem_reads_of_decode decoded ⟨"$.danger"⟩
  refine ⟨decoded, players.mpr ?_, fun depends => ?_, danger.2.mpr ?_⟩
  · refine ⟨_, List.mem_cons_self, _, .refl, .inl ⟨⟨"$.players"⟩, List.mem_cons_self, ?_⟩⟩
    decide
  · obtain ⟨root, member, reads⟩ := danger.1.mp depends
    cases List.mem_singleton.mp member
    rw [Node.reads_iff_of_references rfl] at reads
    rcases reads with ⟨path, watched, -, canonical⟩ | ⟨child, member, -⟩
    · cases List.mem_singleton.mp watched
      revert canonical
      decide
    · cases member
  · refine ⟨_, List.mem_cons_self, .operand (.path ⟨"$.danger"⟩), .single List.mem_cons_self,
      .inl ⟨⟨"$.danger"⟩, List.mem_cons_self, ?_⟩⟩
    decide

end GameRules
