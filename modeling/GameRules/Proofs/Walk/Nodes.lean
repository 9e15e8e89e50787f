import GameRules.Proofs.Invariants
import GameRules.Proofs.Walk.Law

/-!
# Every node is walked over without looking back

The walk over a node of any type adds what it finds to what was collected before, and the scopes that
it enters are left again. Values and conditions leave no notes. The notes of a view are those of the
values of its projections that are no operands, inside of the scopes of the view and of the stage;
what holds a view has its notes. A rule reads what its trigger, its selector and its views read, so
the order in which these are walked over does not matter.
-/

namespace GameRules

open Collector

/-- The notes of a value of a projection: it may be no operand. -/
def ViewOperation.projectionNotes (name : String) (value : Json) : List Note :=
  match Operand.decode value with
  | .ok _ => []
  | .error error => [⟨[], "projection '" ++ name ++ "' dropped: " ++ error.message⟩]

/-- The notes of a stage of a view. -/
def ViewOperation.notes : ViewOperation → List Note
  | map fields => fields.flatMap fun entry => projectionNotes entry.1 entry.2
  | _ => []

/-- The notes of a view: those of its stages, each inside of the stage and the view. -/
def View.notes (view : View) : List Note :=
  ((view.pipeline.zipIdx 0).flatMap fun (operation, position) =>
    operation.notes.map (Note.inside ("pipeline operation " ++ Nat.repr position))).map
      (Note.inside view.label)

/-- The notes of a use of a view; a view that is named is walked over where it is declared. -/
def ViewRef.notes : ViewRef → List Note
  | named _ => []
  | inPlace view => view.notes

/-- The notes of the source of a value. -/
def ValueExpression.notes : ValueExpression → List Note
  | viewResult view _ => view.notes
  | _ => []

/-- The notes of a change of a location. -/
def Change.notes : Change → List Note
  | setFromView value => value.notes
  | _ => []

mutual

/-- The notes of an effect. -/
def Effect.notes : Effect → List Note
  | .mutate targets _ change => targets.toList.flatMap ViewRef.notes ++ change.notes
  | .destroy targets => targets.toList.flatMap ViewRef.notes
  | .branch _ consequent alternative =>
    Effect.notesOfAll consequent ++ Effect.notesOfAll alternative
  | .sequence effects => Effect.notesOfAll effects
  | .spawn .. | .emit .. | .control .. | .log .. => []

/-- The notes of the effects of a list. -/
def Effect.notesOfAll : List Effect → List Note
  | [] => []
  | effect :: effects => effect.notes ++ Effect.notesOfAll effects

end

/-- The notes of a rule. -/
def Rule.notes (rule : Rule) : List Note := rule.views.values.flatMap View.notes

/-- The walk over a node. A package has none: its rules and filters are walked over one by one. -/
def Node.collect : Node → Walk
  | ruleSet _ => id
  | rule node => node.collect
  | filter node => node.collect
  | filterOperation node => node.collect
  | trigger node => node.collect
  | selector node => node.collect
  | view node => node.collect
  | viewOperation node => node.collect
  | viewRef node => node.collect
  | valueExpression node => node.collect
  | effect node => node.collect
  | whereClause node => node.collect
  | expression node => node.collect
  | operand node => node.collect
  | transform node => node.collect

/-- The notes of a node. -/
def Node.notes : Node → List Note
  | rule node => node.notes
  | view node => node.notes
  | viewOperation node => node.notes
  | viewRef node => node.notes
  | valueExpression node => node.notes
  | effect node => node.notes
  | ruleSet _ | filter _ | filterOperation _ | trigger _ | selector _ | whereClause _ | expression _
  | operand _ | transform _ => []

mutual

/-- The walk over an operand is silent. -/
theorem Operand.collect_silent : ∀ operand : Operand, Silent operand.collect
  | .literal _ => silent_id.congr fun collector => by rw [Operand.collect]; rfl
  | .path path => (read_silent path).congr fun collector => by rw [Operand.collect]
  | .transform computation =>
    (Transform.collect_silent computation).congr fun collector => by rw [Operand.collect]

/-- The walk over a computation is silent. -/
theorem Transform.collect_silent : ∀ computation : Transform, Silent computation.collect
  | .binary _ left right =>
    ((Operand.collect_silent left).then (Operand.collect_silent right)).congr fun collector => by
      rw [Transform.collect]
  | .unary _ value => (Operand.collect_silent value).congr fun collector => by rw [Transform.collect]
  | .variadic _ values =>
    (Operand.collectAll_silent values).congr fun collector => by rw [Transform.collect]
  | .clamp value lower upper =>
    (((Operand.collect_silent value).then (Operand.collect_silent lower)).then
      (Operand.collect_silent upper)).congr fun collector => by rw [Transform.collect]
  | .lerp start finish fraction =>
    (((Operand.collect_silent start).then (Operand.collect_silent finish)).then
      (Operand.collect_silent fraction)).congr fun collector => by rw [Transform.collect]
  | .moveTowards current target speed =>
    (((Operand.collect_silent current).then (Operand.collect_silent target)).then
      (Operand.collect_silent speed)).congr fun collector => by rw [Transform.collect]
  | .random lower upper =>
    ((Operand.collectOptional_silent lower).then (Operand.collectOptional_silent upper)).congr
      fun collector => by rw [Transform.collect]
  | .gpsDistance start finish _ =>
    ((Operand.collect_silent start).then (Operand.collect_silent finish)).congr fun collector => by
      rw [Transform.collect]
  | .gpsBearing start finish =>
    ((Operand.collect_silent start).then (Operand.collect_silent finish)).congr fun collector => by
      rw [Transform.collect]
  | .gpsMoveTowards current target speed _ =>
    (((Operand.collect_silent current).then (Operand.collect_silent target)).then
      (Operand.collect_silent speed)).congr fun collector => by rw [Transform.collect]
  | .pointInPolygon point polygon =>
    ((Operand.collect_silent point).then (Operand.collect_silent polygon)).congr fun collector => by
      rw [Transform.collect]
  | .format template values =>
    ((Operand.collect_silent template).then (Operand.collectAll_silent values)).congr
      fun collector => by rw [Transform.collect]
  | .choose condition consequent alternative =>
    (((Expression.collect_silent condition).then (Operand.collect_silent consequent)).then
      (Operand.collectOptional_silent alternative)).congr fun collector => by rw [Transform.collect]
  | .now => silent_id.congr fun collector => by rw [Transform.collect]; rfl
  | .addDuration value duration =>
    ((Operand.collect_silent value).then (Operand.collect_silent duration)).congr
      fun collector => by rw [Transform.collect]
  | .uuid => silent_id.congr fun collector => by rw [Transform.collect]; rfl

/-- The walk over a condition is silent. -/
theorem Expression.collect_silent : ∀ condition : Expression, Silent condition.collect
  | .compare left _ right =>
    ((Operand.collect_silent left).then (Operand.collectOptional_silent right)).congr
      fun collector => by rw [Expression.collect]
  | .all items => (Expression.collectAll_silent items).congr fun collector => by rw [Expression.collect]
  | .any items => (Expression.collectAll_silent items).congr fun collector => by rw [Expression.collect]
  | .not item => (Expression.collect_silent item).congr fun collector => by rw [Expression.collect]

/-- The walk over a list of operands is silent. -/
theorem Operand.collectAll_silent : ∀ values : List Operand, Silent (Operand.collectAll values)
  | [] => silent_id.congr fun collector => by rw [Operand.collectAll]; rfl
  | value :: values =>
    ((Operand.collect_silent value).then (Operand.collectAll_silent values)).congr
      fun collector => by rw [Operand.collectAll]

/-- The walk over an operand that may be absent is silent. -/
theorem Operand.collectOptional_silent :
    ∀ operand : Option Operand, Silent (Operand.collectOptional operand)
  | none => silent_id.congr fun collector => by rw [Operand.collectOptional]; rfl
  | some value =>
    (Operand.collect_silent value).congr fun collector => by rw [Operand.collectOptional]

/-- The walk over a list of conditions is silent. -/
theorem Expression.collectAll_silent : ∀ items : List Expression, Silent (Expression.collectAll items)
  | [] => silent_id.congr fun collector => by rw [Expression.collectAll]; rfl
  | item :: items =>
    ((Expression.collect_silent item).then (Expression.collectAll_silent items)).congr
      fun collector => by rw [Expression.collectAll]

end

mutual

/-- The walk over a condition on entities is silent. -/
theorem WhereClause.collect_silent : ∀ clause : WhereClause, Silent clause.collect
  | .compare field _ value =>
    ((readText_silent field).then (Silent.whenSome Operand.collect_silent value)).congr
      fun collector => by rw [WhereClause.collect]
  | .all items =>
    (WhereClause.collectAll_silent items).congr fun collector => by rw [WhereClause.collect]
  | .any items =>
    (WhereClause.collectAll_silent items).congr fun collector => by rw [WhereClause.collect]
  | .not item => (WhereClause.collect_silent item).congr fun collector => by rw [WhereClause.collect]

/-- The walk over a list of conditions on entities is silent. -/
theorem WhereClause.collectAll_silent :
    ∀ items : List WhereClause, Silent (WhereClause.collectAll items)
  | [] => silent_id.congr fun collector => by rw [WhereClause.collectAll]; rfl
  | item :: items =>
    ((WhereClause.collect_silent item).then (WhereClause.collectAll_silent items)).congr
      fun collector => by rw [WhereClause.collectAll]

end

/-- The walk over a value of a projection leaves its note, if it has one. -/
theorem ViewOperation.collectProjection_appends (name : String) (value : Json) :
    Appends (collectProjection name value) (projectionNotes name value) := by
  unfold collectProjection projectionNotes
  cases Operand.decode value with
  | ok operand => exact operand.collect_silent
  | error error => exact diagnose_appends _

/-- The walk over a stage of a view leaves the notes of the stage. -/
theorem ViewOperation.collect_appends (operation : ViewOperation) :
    Appends operation.collect operation.notes := by
  cases operation with
  | filter condition => exact condition.collect_silent
  | map fields => exact Appends.each fun entry _ => collectProjection_appends entry.1 entry.2
  | sort path _ => exact read_silent path
  | window _ _ => exact silent_id
  | groupBy groupField _ path => exact (read_silent groupField).then (Silent.whenSome read_silent path)
  | field _ path => exact read_silent path
  | distance start finish origin _ =>
    exact ((Silent.whenSome Operand.collect_silent start).then
      (Silent.whenSome Operand.collect_silent finish)).then
        (Silent.whenSome Operand.collect_silent origin)
  | proximity _ operation =>
    exact (operation.origin.collect_silent).then (Silent.whenSome read_silent operation.field)
  | rows _ => exact silent_id

/-- The source of a view is silent. -/
theorem View.collectSource_silent (source : String) : Silent (collectSource source) := by
  unfold collectSource
  split
  · exact readCollection_silent source
  · exact readCollection_silent source
  · exact silent_id

/-- The walk over a view leaves the notes of the view. -/
theorem View.collect_appends (view : View) : Appends view.collect view.notes := by
  have stage : ∀ operation ∈ view.pipeline, ∀ position,
      Appends (within ("pipeline operation " ++ Nat.repr position) operation.collect)
        (operation.notes.map (Note.inside ("pipeline operation " ++ Nat.repr position))) :=
    fun operation _ position => operation.collect_appends.within _
  exact (collectSource_silent view.source).then ((Appends.eachFrom stage 0).within view.label)

/-- The walk over a use of a view leaves its notes. -/
theorem ViewRef.collect_appends (reference : ViewRef) :
    Appends reference.collect reference.notes := by
  cases reference with
  | named name => exact silent_id
  | inPlace view => exact view.collect_appends

/-- The walk over the source of a value leaves its notes. -/
theorem ValueExpression.collect_appends (expression : ValueExpression) :
    Appends expression.collect expression.notes := by
  cases expression with
  | viewResult view params =>
    have parts := view.collect_appends.then (Silent.each Operand.collect_silent params.values)
    rwa [List.append_nil] at parts
  | distance start finish _ => exact start.collect_silent.then finish.collect_silent
  | field path => exact read_silent path
  | literal _ => exact silent_id
  | transform computation => exact computation.collect_silent

/-- The walk over a selector is silent. -/
theorem Selector.collect_silent (selector : Selector) : Silent selector.collect := by
  have choice : Silent (collectChoice selector.choice) := by
    cases selector.choice with
    | all => exact silent_id
    | filter condition => exact condition.collect_silent
    | single id => exact id.collect_silent
    | related _ source => exact source.collect_silent
    | proximity _ selector => exact selector.position.collect_silent.then selector.origin.collect_silent
  exact (readCollection_silent selector.entity).then choice

/-- The walk over a trigger is silent. -/
theorem Trigger.collect_silent (trigger : Trigger) : Silent trigger.collect := by
  obtain ⟨_, activation⟩ := trigger
  cases activation with
  | change watch => exact Silent.each read_silent watch
  | event _ _ condition => exact Silent.whenSome WhereClause.collect_silent condition
  | distance start finish _ value _ =>
    exact (start.collect_silent.then finish.collect_silent).then value.collect_silent
  | condition condition => exact condition.collect_silent
  | tick _ => exact silent_id
  | timer _ _ _ => exact silent_id
  | cron _ => exact silent_id
  | schedule _ _ _ => exact silent_id
  | start => exact silent_id

/-- The walk over a change leaves its notes. -/
theorem Change.collect_appends (change : Change) : Appends change.collect change.notes := by
  cases change with
  | set value => exact value.collect_silent
  | increment step => exact step.collect_silent
  | decrement step => exact step.collect_silent
  | transform computation => exact computation.collect_silent
  | setFromView value => exact value.collect_appends

/-- The walk over targets that may be absent leaves their notes. -/
theorem ViewRef.whenSome_appends (targets : Option ViewRef) :
    Appends (whenSome ViewRef.collect targets) (targets.toList.flatMap ViewRef.notes) :=
  .whenSome fun given _ => given.collect_appends

mutual

/-- The walk over an effect leaves its notes. -/
theorem Effect.collect_appends : ∀ effect : Effect, Appends effect.collect effect.notes
  | .mutate targets _ change => by
    rw [Effect.notes]
    exact ((ViewRef.whenSome_appends targets).then change.collect_appends).congr fun collector => by
      rw [Effect.collect]
  | .spawn _ fields => by
    rw [Effect.notes]
    exact (Silent.each Operand.collect_silent fields.values).congr fun collector => by
      rw [Effect.collect]
  | .destroy targets => by
    rw [Effect.notes]
    exact (ViewRef.whenSome_appends targets).congr fun collector => by rw [Effect.collect]
  | .emit _ payload => by
    rw [Effect.notes]
    exact (Silent.each Operand.collect_silent payload.values).congr fun collector => by
      rw [Effect.collect]
  | .branch condition consequent alternative => by
    rw [Effect.notes]
    exact ((condition.collect_silent.then (Effect.collectAll_appends consequent)).then
      (Effect.collectAll_appends alternative)).congr fun collector => by rw [Effect.collect]
  | .sequence effects => by
    rw [Effect.notes]
    exact (Effect.collectAll_appends effects).congr fun collector => by rw [Effect.collect]
  | .control _ _ => by
    rw [Effect.notes]
    exact silent_id.congr fun collector => by rw [Effect.collect]; rfl
  | .log message _ => by
    rw [Effect.notes]
    exact message.collect_silent.congr fun collector => by rw [Effect.collect]

/-- The walk over a list of effects leaves their notes. -/
theorem Effect.collectAll_appends :
    ∀ effects : List Effect, Appends (Effect.collectAll effects) (Effect.notesOfAll effects)
  | [] => by
    rw [Effect.notesOfAll]
    exact silent_id.congr fun collector => by rw [Effect.collectAll]; rfl
  | effect :: effects => by
    rw [Effect.notesOfAll]
    exact ((Effect.collect_appends effect).then (Effect.collectAll_appends effects)).congr
      fun collector => by rw [Effect.collectAll]

end

/-- The walk over a stage of a filter is silent. -/
theorem FilterOperation.collect_silent (operation : FilterOperation) : Silent operation.collect := by
  have matched := (read_silent operation.target).then
    (Silent.whenSome WhereClause.collect_silent operation.condition)
  obtain ⟨target, condition, masking⟩ := operation
  cases masking with
  | replaceField _ value => exact matched.then value.collect_silent
  | keep => exact matched
  | remove => exact matched
  | hideFields _ => exact matched

/-- The walk over a filter is silent. -/
theorem Filter.collect_silent (filter : Filter) : Silent filter.collect :=
  Silent.each FilterOperation.collect_silent filter.operations

/-- The walk over a rule leaves the notes of its views. -/
theorem Rule.collect_appends (rule : Rule) : Appends rule.collect rule.notes :=
  (rule.trigger.collect_silent.then (Silent.whenSome Selector.collect_silent rule.selector)).then
    (Appends.each fun view _ => view.collect_appends)

/-- The walk over a node leaves its notes. -/
theorem Node.collect_appends (node : Node) : Appends node.collect node.notes := by
  cases node with
  | ruleSet set => exact silent_id
  | rule rule => exact rule.collect_appends
  | filter filter => exact filter.collect_silent
  | filterOperation operation => exact operation.collect_silent
  | trigger trigger => exact trigger.collect_silent
  | selector selector => exact selector.collect_silent
  | view view => exact view.collect_appends
  | viewOperation operation => exact operation.collect_appends
  | viewRef reference => exact reference.collect_appends
  | valueExpression expression => exact expression.collect_appends
  | effect effect => exact effect.collect_appends
  | whereClause clause => exact clause.collect_silent
  | expression condition => exact condition.collect_silent
  | operand operand => exact operand.collect_silent
  | transform computation => exact computation.collect_silent

/-- The locations that a node reads. -/
def Node.dependsOn (node : Node) : PathSet := readsOf node.collect

/-- A walk over nodes reads what one of them reads. -/
theorem Node.mem_readsOf_each {nodes : List Node} {location : Path} :
    location ∈ readsOf (each Node.collect nodes) ↔ ∃ node ∈ nodes, location ∈ node.dependsOn :=
  Collector.mem_readsOf_each fun node _ => node.collect_appends

/-- A rule reads what its trigger, its selector or one of its views reads. -/
theorem Rule.mem_dependsOn_iff {rule : Rule} {location : Path} :
    location ∈ rule.dependsOn ↔ ∃ node ∈ rule.deciding, location ∈ node.dependsOn := by
  have selector : Silent (whenSome Selector.collect rule.selector) :=
    Silent.whenSome Selector.collect_silent rule.selector
  have views : Appends (each View.collect rule.views.values) (rule.views.values.flatMap View.notes) :=
    .each fun view _ => view.collect_appends
  have parts : rule.dependsOn = readsOf rule.trigger.collect ∪
      readsOf (whenSome Selector.collect rule.selector) ∪
        readsOf (each View.collect rule.views.values) := by
    rw [dependsOn, ← selector.readsOf_after, ← views.readsOf_after]
    rfl
  have chosen : location ∈ readsOf (whenSome Selector.collect rule.selector) ↔
      ∃ selector ∈ rule.selector.toList, location ∈ readsOf selector.collect := by
    cases rule.selector with
    | none => simp [whenSome, readsOf, Collector.empty, PathSet.not_mem_empty]
    | some given => simp [whenSome]
  rw [parts, PathSet.mem_union, PathSet.mem_union, chosen,
    Collector.mem_readsOf_each fun view _ => view.collect_appends]
  simp [deciding, Node.dependsOn, Node.collect, or_and_right, exists_or, or_assoc]

/-- Analyzing a rule tells what the rule reads, and its notes inside of the scope of the rule. -/
theorem Rule.analyze_eq (rule : Rule) :
    rule.analyze = ⟨rule.dependsOn, rule.modifies,
      rule.notes.map (Note.under ["rule '" ++ rule.name ++ "'"])⟩ := by
  have walked := rule.collect_appends (Collector.empty.enter ("rule '" ++ rule.name ++ "'"))
  have nothing : (∅ : PathSet) ∪ readsOf rule.collect = rule.dependsOn := PathSet.empty_union _
  rw [analyze, within, walked, ← nothing]
  rfl

/-- Whatever was collected before the walk over a node, its reads and its notes are added to it, and
the walk is back where it was; so it is with the values that may be absent and the lists of what is
walked over in this way. Analyzing a rule tells what the rule reads, which is what its trigger, its
selector and its views read, in whatever order they are walked over. -/
theorem Node.collect_framed :
    (∀ (node : Node) (collector : Collector),
      node.collect collector =
          ⟨collector.reads ∪ node.dependsOn,
            collector.diagnostics ++ node.notes.map (Note.under collector.scope), collector.scope⟩ ∧
        (node.collect Collector.empty).diagnostics = node.notes.map (Note.under [])) ∧
      (∀ (α : Type) (visit : α → Walk) (notesOf : α → List Note),
        (∀ item, Appends (visit item) (notesOf item)) →
          (∀ items, Appends (each visit items) (items.flatMap notesOf)) ∧
            ∀ value, Appends (whenSome visit value) (value.toList.flatMap notesOf)) ∧
        ∀ rule : Rule, rule.analyze.dependsOn = rule.dependsOn ∧
          ∀ order, order.Perm rule.deciding →
            rule.dependsOn = PathSet.unionAll (order.map dependsOn) ∧
              rule.dependsOn = readsOf (each Node.collect order) := by
  refine ⟨fun node collector => ⟨node.collect_appends collector, ?_⟩,
    fun α visit notesOf appends => ⟨fun items => .each fun item _ => appends item,
      fun value => .whenSome fun given _ => appends given⟩,
    fun rule => ⟨?_, fun order reordered => ⟨?_, ?_⟩⟩⟩
  · rw [node.collect_appends]
    rfl
  · rw [rule.analyze_eq]
  · refine PathSet.ext fun location => ?_
    simp only [Rule.mem_dependsOn_iff, PathSet.mem_unionAll, List.mem_map, exists_exists_and_eq_and]
    exact exists_congr fun node => and_congr_left fun _ => reordered.mem_iff.symm
  · refine PathSet.ext fun location => ?_
    rw [Rule.mem_dependsOn_iff, Node.mem_readsOf_each]
    exact exists_congr fun node => and_congr_left fun _ => reordered.mem_iff.symm

/-- Operands are walked over without a note, and the rule that raises the alarm reads what its trigger
reads. -/
theorem Node.collect_framed_alarm :
    Appends (each Operand.collect [.path ⟨"$.danger"⟩, .literal .null]) [] ∧
      Rule.alarm.analyze.dependsOn = Rule.alarm.dependsOn ∧
        Rule.alarm.dependsOn = PathSet.unionAll [(Node.trigger Rule.alarm.trigger).dependsOn] := by
  obtain ⟨-, kept, read⟩ := Node.collect_framed
  have operands := (kept Operand Operand.collect (fun _ => []) Operand.collect_silent).1
    [.path ⟨"$.danger"⟩, .literal .null]
  obtain ⟨analyzed, ordered⟩ := read Rule.alarm
  exact ⟨operands, analyzed, (ordered Rule.alarm.deciding (.refl _)).1⟩

end GameRules
