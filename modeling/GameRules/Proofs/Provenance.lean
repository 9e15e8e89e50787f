import GameRules.Proofs.Walk.Gaps

/-!
# What views and effects were read from

Rules and effects, views and whatever uses a view are read from objects that stand in the document of
the rule set. So what holds of every document inside that one holds of every document inside the
object that such a node was read from, at any depth. Other nodes may have been put together from
several parts of a document, or stand for what was left out, and are made of their own kind only.
-/

namespace GameRules

/-- A document and every document inside it have a property. -/
def Json.Everywhere (document : Json) (property : Json → Prop) : Prop :=
  ∀ part ∈ document.subdocuments, property part

/-- The values of the fields that are given have a property everywhere. -/
def Fields.Everywhere {whole : Json} (fields : Fields whole) (property : Json → Prop) : Prop :=
  ∀ key value, fields.value? key = some value → value.Everywhere property

/-- A node was decoded from a document that has a property everywhere. -/
def ReadFrom {α : Type} (property : Json → Prop) (decode : Json → Decoded α) (node : α) : Prop :=
  ∃ document, document.Everywhere property ∧ decode document = .ok node

variable {property : Json → Prop}

namespace Json.Everywhere

/-- A property that a document has everywhere is one of the document. -/
theorem self {document : Json} (holds : document.Everywhere property) : property document :=
  holds document document.self_mem_subdocuments

/-- What an array has everywhere, its items have everywhere. -/
theorem item {items : List Json} (holds : (array items).Everywhere property) :
    ∀ item ∈ items, item.Everywhere property := by
  rw [Everywhere, subdocuments, List.forall_mem_cons, forall_mem_subdocumentsOfItems] at holds
  exact holds.2

/-- What an object has everywhere, the values of its entries have everywhere. -/
theorem value {entries : Entries Json} (holds : (object entries).Everywhere property) :
    ∀ entry ∈ entries, entry.2.Everywhere property := by
  rw [Everywhere, subdocuments, List.forall_mem_cons, forall_mem_subdocumentsOfEntries] at holds
  exact holds.2

end Json.Everywhere

namespace Fields.Everywhere

variable {α : Type} {whole : Json} {fields : Fields whole} {decode : Json → Decoded α}
  {key label : String}

/-- What an object has everywhere, its fields have everywhere. -/
theorem of_document {node : NodeKind} (read : Fields.of node whole = .ok fields)
    (holds : whole.Everywhere property) : fields.Everywhere property :=
  fun _ _ given => Fields.forall_mem_subdocuments read given holds

/-- Naming the kind does not change what the fields have. -/
theorem forKind (holds : fields.Everywhere property) (kind : String) :
    (fields.forKind kind).Everywhere property := holds

/-- A required node is read from the value of its field. -/
theorem requiredNode {node : α} (holds : fields.Everywhere property)
    (decoded : fields.requiredNode key (fun part _ => decode part) = .ok node) :
    ReadFrom property decode node := by
  obtain ⟨part, given, decoded⟩ := Fields.requiredNode_eq_ok_iff.mp decoded
  exact ⟨part, holds key part given, decoded⟩

/-- An optional node is read from the value of its field. -/
theorem node? {node : Option α} (holds : fields.Everywhere property)
    (decoded : fields.node? key (fun part _ => decode part) = .ok node) :
    ∀ value ∈ node, ReadFrom property decode value := by
  intro value present
  rcases Fields.node?_eq_ok_iff.mp decoded with ⟨-, rfl⟩ | ⟨part, found, given, read, rfl⟩
  · cases present
  · cases present
    exact ⟨part, holds key part given, read⟩

/-- The nodes of a list are read from the items of its field. -/
theorem list {nodes : List α} (holds : fields.Everywhere property)
    (decoded : fields.list key label (fun part _ => decode part) = .ok nodes) :
    ∀ node ∈ nodes, ReadFrom property decode node := by
  intro node member
  rcases Fields.list_eq_ok_iff.mp decoded with ⟨-, rfl⟩ | ⟨items, given, related⟩
  · cases member
  · obtain ⟨item, inItems, decoded⟩ := exists_mem_of_forall₂ related member
    exact ⟨item, (holds key _ given).item item inItems, decoded⟩

end Fields.Everywhere

/-- What a node was read from, if it is one of those that are read from one object, has a property
everywhere. A view of a rule is read from an object, and takes its name from elsewhere. -/
def Node.ReadFrom (property : Json → Prop) : Node → Prop
  | ruleSet node => GameRules.ReadFrom property RuleSet.decode node
  | rule node => GameRules.ReadFrom property Rule.decode node
  | effect node => GameRules.ReadFrom property Effect.decode node
  | valueExpression node => GameRules.ReadFrom property ValueExpression.decode node
  | viewRef node => GameRules.ReadFrom property ViewRef.decode node
  | view node => ∃ name, GameRules.ReadFrom property View.decode { node with name := name }
  | viewOperation node => GameRules.ReadFrom property ViewOperation.decode node
  | filter _ | filterOperation _ | trigger _ | selector _ | whereClause _ | expression _ | operand _
  | transform _ => True

section Plain

/-! Values and conditions, and what is made of them only, hold nothing that is read from one object. -/

theorem Operand.readFrom_child (operand : Operand) :
    ∀ child ∈ operand.children, child.ReadFrom property := by
  cases operand <;> simp [children, Node.ReadFrom]

theorem Transform.readFrom_child (computation : Transform) :
    ∀ child ∈ computation.children, child.ReadFrom property := by
  cases computation <;> simp [children, Node.ReadFrom, or_imp, forall_and]

theorem Expression.readFrom_child (condition : Expression) :
    ∀ child ∈ condition.children, child.ReadFrom property := by
  cases condition <;> simp [children, Node.ReadFrom]

theorem WhereClause.readFrom_child (clause : WhereClause) :
    ∀ child ∈ clause.children, child.ReadFrom property := by
  cases clause <;> simp [children, Node.ReadFrom]

theorem ViewOperation.readFrom_child (operation : ViewOperation) :
    ∀ child ∈ operation.children, child.ReadFrom property := by
  cases operation <;> simp [children, Node.ReadFrom, or_imp, forall_and]

theorem Choice.readFrom_child (choice : Choice) :
    ∀ child ∈ choice.children, child.ReadFrom property := by
  cases choice <;> simp [children, Node.ReadFrom]

theorem Activation.readFrom_child (activation : Activation) :
    ∀ child ∈ activation.children, child.ReadFrom property := by
  cases activation <;> simp [children, Node.ReadFrom]

theorem FilterOperation.readFrom_child (operation : FilterOperation) :
    ∀ child ∈ operation.children, child.ReadFrom property := by
  obtain ⟨target, condition, masking⟩ := operation
  cases masking <;>
    simp [children, Masking.children, Node.ReadFrom, or_imp, forall_and]

end Plain

/-- The stages of a view that was read are read from the items of its pipeline. -/
theorem View.readFrom_stage {document : Json} {view : View} (holds : document.Everywhere property)
    (decoded : decode document = .ok view) :
    ∀ operation ∈ view.pipeline, ReadFrom property ViewOperation.decode operation := by
  simp only [decode, Decoded.bind_eq_ok_iff, Decoded.pure_eq_ok_iff] at decoded
  obtain ⟨fields, read, pipeline, readPipeline, _, -, _, -, _, -, rfl⟩ := decoded
  intro operation member
  rcases decodePipeline_eq_ok_iff.mp readPipeline with ⟨-, rfl⟩ | ⟨items, given, related⟩
  · cases member
  · obtain ⟨item, inItems, decoded⟩ := exists_mem_of_forall₂ related member
    have inside := Fields.Everywhere.of_document read holds
    exact ⟨item, (inside _ _ given).item item inItems, decoded⟩

/-- A view that is used in place is read from the same object. -/
theorem ViewRef.readFrom_child {document : Json} {reference : ViewRef}
    (holds : document.Everywhere property) (decoded : decode document = .ok reference) :
    ∀ child ∈ reference.children, child.ReadFrom property := by
  cases reference with
  | named name => exact List.forall_mem_nil _
  | inPlace view =>
    refine List.forall_mem_singleton.mpr ⟨view.name, document, holds, ?_⟩
    unfold decode at decoded
    split at decoded
    · dsimp only at decoded
      split at decoded
      · exact absurd decoded Decoded.fail_ne_ok
      · cases decoded
    · obtain ⟨_, read, same⟩ := Decoded.map_eq_ok_iff.mp decoded
      cases same
      exact read
    · exact absurd decoded Decoded.fail_ne_ok

/-- The view whose result a value is, is read from the field that uses it. -/
theorem ValueExpression.readFrom_child {document : Json} {expression : ValueExpression}
    (holds : document.Everywhere property) (decoded : decode document = .ok expression) :
    ∀ child ∈ expression.children, child.ReadFrom property := by
  simp only [decode, Decoded.bind_eq_ok_iff] at decoded
  obtain ⟨untyped, read, word, -, kind, -, decoded⟩ := decoded
  have inside := (Fields.Everywhere.of_document read holds).forKind word
  cases kind with
  | viewResult =>
    simp only [Decoded.bind_eq_ok_iff, Decoded.pure_eq_ok_iff] at decoded
    obtain ⟨view, readView, params, -, rfl⟩ := decoded
    refine List.forall_mem_cons.mpr ⟨inside.requiredNode readView, ?_⟩
    exact List.forall_mem_map.mpr fun _ _ => trivial
  | distance =>
    simp only [Decoded.bind_eq_ok_iff, Decoded.pure_eq_ok_iff] at decoded
    obtain ⟨_, -, _, -, _, -, rfl⟩ := decoded
    simp [children, Node.ReadFrom]
  | field =>
    obtain ⟨_, -, rfl⟩ := Decoded.map_eq_ok_iff.mp decoded
    exact List.forall_mem_nil _
  | literal =>
    dsimp only at decoded
    split at decoded
    · cases Decoded.pure_eq_ok_iff.mp decoded
      exact List.forall_mem_nil _
    · exact absurd decoded Decoded.fail_ne_ok
  | transform =>
    obtain ⟨_, -, rfl⟩ := Decoded.map_eq_ok_iff.mp decoded
    exact List.forall_mem_singleton.mpr trivial

namespace Effect

variable {whole : Json} {fields : Fields whole}

/-- The targets of an effect are read from their field. -/
theorem readFrom_targets {targets : Option ViewRef} (inside : fields.Everywhere property)
    (decoded : decodeTargets fields = .ok targets) :
    ∀ child ∈ targets.toList.map Node.viewRef, child.ReadFrom property :=
  List.forall_mem_map.mpr fun view member =>
    inside.node? decoded view (Option.mem_toList.mp member)

/-- The effects of a list are read from the items of their field. -/
theorem readFrom_effects {effects : List Effect}
    (read : ∀ effect ∈ effects, ReadFrom property Effect.decode effect) :
    ∀ child ∈ effects.map Node.effect, child.ReadFrom property :=
  List.forall_mem_map.mpr read

/-- The source of a value that a location is set to is read from its field. -/
theorem readFrom_change {kind : ChangeKind} {change : Change} (inside : fields.Everywhere property)
    (decoded : decodeChange kind fields = .ok change) :
    ∀ child ∈ change.children, child.ReadFrom property := by
  cases kind <;> obtain ⟨_, read, rfl⟩ := Decoded.map_eq_ok_iff.mp decoded
  case setFromView => exact List.forall_mem_singleton.mpr (inside.requiredNode read)
  all_goals exact List.forall_mem_singleton.mpr trivial

/-- What an effect that was read is made of, is read from its fields. -/
theorem readFrom_child {document : Json} {effect : Effect} (holds : document.Everywhere property)
    (decoded : decode document = .ok effect) :
    ∀ child ∈ effect.children, child.ReadFrom property := by
  rw [decode] at decoded
  simp only [Decoded.bind_eq_ok_iff] at decoded
  obtain ⟨untyped, read, ⟨word, kind⟩, -, decoded⟩ := decoded
  have inside := (Fields.Everywhere.of_document read holds).forKind word
  have operands (values : Entries Operand) :
      ∀ child ∈ values.values.map Node.operand, child.ReadFrom property :=
    List.forall_mem_map.mpr fun _ _ => trivial
  cases kind with
  | mutate kind =>
    simp only [Decoded.bind_eq_ok_iff, Decoded.pure_eq_ok_iff] at decoded
    obtain ⟨targets, readTargets, path, -, change, readChange, rfl⟩ := decoded
    exact List.forall_mem_append.mpr
      ⟨readFrom_targets inside readTargets, readFrom_change inside readChange⟩
  | spawn =>
    simp only [Decoded.bind_eq_ok_iff, Decoded.pure_eq_ok_iff] at decoded
    obtain ⟨_, -, values, -, rfl⟩ := decoded
    exact operands values
  | destroy =>
    obtain ⟨targets, readTargets, rfl⟩ := Decoded.map_eq_ok_iff.mp decoded
    exact readFrom_targets inside readTargets
  | emit =>
    simp only [Decoded.bind_eq_ok_iff, Decoded.pure_eq_ok_iff] at decoded
    obtain ⟨_, -, payload, -, rfl⟩ := decoded
    exact operands payload
  | branch =>
    simp only [Decoded.bind_eq_ok_iff, Decoded.pure_eq_ok_iff] at decoded
    obtain ⟨_, -, condition, -, consequent, readThen, alternative, readElse, rfl⟩ := decoded
    refine List.forall_mem_append.mpr ⟨List.forall_mem_cons.mpr ⟨trivial, ?_⟩, ?_⟩
    · exact readFrom_effects (inside.list readThen)
    · exact readFrom_effects (inside.list readElse)
  | sequence =>
    simp only [Decoded.bind_eq_ok_iff, Decoded.pure_eq_ok_iff] at decoded
    obtain ⟨_, -, effects, readEffects, rfl⟩ := decoded
    exact readFrom_effects (inside.list readEffects)
  | control op =>
    obtain ⟨_, -, rfl⟩ := Decoded.map_eq_ok_iff.mp decoded
    exact List.forall_mem_nil _
  | log =>
    simp only [Decoded.bind_eq_ok_iff, Decoded.pure_eq_ok_iff] at decoded
    obtain ⟨_, -, _, -, rfl⟩ := decoded
    exact List.forall_mem_singleton.mpr trivial

end Effect

/-- The views and the effects of a rule that was read are read from its fields. -/
theorem Rule.readFrom_child {document : Json} {rule : Rule} (holds : document.Everywhere property)
    (decoded : decode document = .ok rule) : ∀ child ∈ rule.children, child.ReadFrom property := by
  simp only [decode, decodeBody, decodeEffects, Decoded.bind_eq_ok_iff, Decoded.pure_eq_ok_iff,
    Decoded.inside_eq_ok_iff] at decoded
  obtain ⟨fields, read, _, -, _, -, views, readViews, effects, ⟨_, -, listed, readEffects, kept⟩,
    _, -, _, -, _, -, _, -, rfl⟩ := decoded
  have inside := Fields.Everywhere.of_document read holds
  refine List.forall_mem_append.mpr ⟨List.forall_mem_append.mpr
    ⟨List.forall_mem_cons.mpr ⟨trivial, List.forall_mem_map.mpr fun _ _ => trivial⟩, ?_⟩, ?_⟩
  · rw [List.forall_mem_map, Entries.values, List.forall_mem_map]
    intro entry member
    rcases decodeViews_eq_ok_iff.mp readViews with ⟨-, rfl⟩ | ⟨entries, given, related⟩
    · cases member
    · obtain ⟨source, inEntries, -, decoded⟩ := exists_mem_of_forall₂ related member
      simp only [decodeView, Decoded.bind_eq_ok_iff, Decoded.pure_eq_ok_iff] at decoded
      obtain ⟨view, readView, named⟩ := decoded
      rw [← named]
      exact ⟨view.name, source.2, (inside _ _ given).value source inEntries, readView⟩
  · split at kept
    · exact absurd kept Decoded.fail_ne_ok
    · cases Decoded.pure_eq_ok_iff.mp kept
      exact Effect.readFrom_effects (inside.list readEffects)

/-- The rules of a set that was read are read from the items of its list. -/
theorem RuleSet.readFrom_child {document : Json} {set : RuleSet}
    (holds : document.Everywhere property) (decoded : decode document = .ok set) :
    ∀ child ∈ (Node.ruleSet set).children, child.ReadFrom property := by
  simp only [decode, Decoded.bind_eq_ok_iff, Decoded.pure_eq_ok_iff] at decoded
  obtain ⟨fields, read, _, -, _, -, _, -, rules, readRules, filters, -, rfl⟩ := decoded
  have inside := Fields.Everywhere.of_document read holds
  exact List.forall_mem_append.mpr ⟨List.forall_mem_map.mpr (inside.list readRules),
    List.forall_mem_map.mpr fun _ _ => trivial⟩

namespace Node

/-- What a node was read from holds what its children were read from. -/
theorem ReadFrom.child {parent child : Node} (read : parent.ReadFrom property)
    (member : child ∈ parent.children) : child.ReadFrom property := by
  cases parent with
  | ruleSet node =>
    obtain ⟨document, holds, decoded⟩ := read
    exact RuleSet.readFrom_child holds decoded child member
  | rule node =>
    obtain ⟨document, holds, decoded⟩ := read
    exact Rule.readFrom_child holds decoded child member
  | effect node =>
    obtain ⟨document, holds, decoded⟩ := read
    exact Effect.readFrom_child holds decoded child member
  | valueExpression node =>
    obtain ⟨document, holds, decoded⟩ := read
    exact ValueExpression.readFrom_child holds decoded child member
  | viewRef node =>
    obtain ⟨document, holds, decoded⟩ := read
    exact ViewRef.readFrom_child holds decoded child member
  | view node =>
    obtain ⟨name, document, holds, decoded⟩ := read
    obtain ⟨operation, inside, rfl⟩ := List.mem_map.mp member
    exact View.readFrom_stage holds decoded operation inside
  | filter node => exact List.forall_mem_map.mpr (fun _ _ => trivial) child member
  | viewOperation node => exact node.readFrom_child child member
  | filterOperation node => exact node.readFrom_child child member
  | trigger node => exact node.activation.readFrom_child child member
  | selector node => exact node.choice.readFrom_child child member
  | whereClause node => exact node.readFrom_child child member
  | expression node => exact node.readFrom_child child member
  | operand node => exact node.readFrom_child child member
  | transform node => exact node.readFrom_child child member

/-- A node inside one that was read from a document that has a property everywhere was read from such
a document, too. -/
theorem ReadFrom.inside {node root : Node} (read : root.ReadFrom property)
    (inside : node.Inside root) : node.ReadFrom property :=
  inside.property (fun _ _ => ReadFrom.child) read

end Node

end GameRules
