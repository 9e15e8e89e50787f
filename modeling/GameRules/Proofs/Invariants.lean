import GameRules.Proofs.Rule
import GameRules.Proofs.Tree

/-!
# What decoding guarantees of every node

A rule set that was decoded holds no node that a later stage would have to refuse: names are there,
references and constants are told apart by their texts, and a trigger or stage that needs a part has
it. What decoding establishes of a node it also establishes of the children of that node, so it holds
at every depth.
-/

namespace GameRules

/-- The words of a text: its maximal runs of characters that are not blank. -/
def Text.words (text : List Char) : List (List Char) := (text.splitOnP isBlank).filter (· ≠ [])

/-- A blank character is in no word. -/
theorem Text.words_cons_of_blank {char : Char} (rest : List Char) (blank : isBlank char = true) :
    words (char :: rest) = words rest := by
  rw [words, List.splitOnP_cons_eq_if_modifyHead, if_pos blank]
  rfl

/-- A character in front of a word belongs to that word; in front of a blank character it is a word
of its own. -/
theorem Text.length_words_cons {char next : Char} (rest : List Char) (notBlank : ¬isBlank char) :
    (words (char :: next :: rest)).length =
      if isBlank next then 1 + (words (next :: rest)).length else (words (next :: rest)).length := by
  rw [words, words, List.splitOnP_cons_eq_if_modifyHead, if_neg notBlank,
    List.splitOnP_cons_eq_if_modifyHead]
  by_cases blank : isBlank next = true
  · simp [blank, Nat.add_comm]
  · rw [if_neg blank, if_neg blank]
    cases rest.splitOnP isBlank with
    | nil => rfl
    | cons word words => simp

/-- As many words are counted as there are. -/
theorem Text.countWords_eq_length_words (text : List Char) :
    countWords text = (words text).length := by
  induction text with
  | nil => rfl
  | cons char rest ih =>
    rw [countWords.eq_def]
    by_cases blank : isBlank char = true
    · rw [words_cons_of_blank rest blank, ← ih]
      exact if_pos blank
    · cases rest with
      | nil => simp [words, List.splitOnP_cons_eq_if_modifyHead, blank]
      | cons next others =>
        rw [length_words_cons others blank, ← ih]
        exact if_neg blank

/-- What holds of a decoded operand: a constant is neither written like a reference nor the document
of a computation, and a reference is written like one. -/
def Operand.Valid : Operand → Prop
  | .literal value =>
    (∀ text, value = .string text → Path.classify text.toList = .field) ∧
      ∀ entries (kind : TransformKind), value = .object entries →
        entries.lookup "type" ≠ some (.string (Keyword.word kind))
  | .path reference => reference.kind ≠ .field
  | .transform _ => True

/-- What holds of a decoded stage of a view: its references are there, and a distance is measured to
some place. -/
def ViewOperation.Valid (operation : ViewOperation) : Prop :=
  (∀ path ∈ operation.paths, path.raw ≠ "") ∧
    ∀ start finish origin unit, operation = distance start finish origin unit →
      finish ≠ none ∨ origin ≠ none

/-- What holds of the decoded time of firing: it is said in full. -/
def Activation.Valid : Activation → Prop
  | tick interval => 1 ≤ interval
  | event name _ _ => name ≠ ""
  | change watch => watch ≠ [] ∧ ∀ path ∈ watch, "$.".toList <+: path.raw.toList
  | cron fields =>
    (Text.words fields.toList).length = 5 ∨ (Text.words fields.toList).length = 6
  | schedule time interval _ => time ≠ none ∨ interval ≠ none
  | distance .. => True
  | timer .. => True
  | condition _ => True
  | start => True

/-- What holds of a decoded effect: what it changes, creates, raises or switches has a name. -/
def Effect.Valid : Effect → Prop
  | mutate _ path _ => path.raw ≠ ""
  | spawn entity _ => entity ≠ ""
  | emit event _ => event ≠ ""
  | control _ target => target ≠ ""
  | destroy _ => True
  | branch .. => True
  | sequence _ => True
  | log .. => True

namespace Node

/-- What holds of a node of a decoded rule set, apart from what holds of its children. -/
def Valid : Node → Prop
  | rule node =>
    node.name ≠ "" ∧ node.effects ≠ [] ∧ ∀ entry ∈ node.views, entry.2.name = some entry.1
  | filter node => node.name ≠ ""
  | filterOperation node => node.target.raw ≠ ""
  | trigger node => node.activation.Valid
  | selector node =>
    node.entity ≠ "" ∧ ∀ relation source, node.choice = .related relation source → relation ≠ ""
  | view node => node.source ≠ ""
  | viewOperation node => node.Valid
  | viewRef node => node ≠ .named ""
  | effect node => node.Valid
  | operand node => node.Valid
  | ruleSet _ => True
  | valueExpression _ => True
  | whereClause _ => True
  | expression _ => True
  | transform _ => True

/-- What a node is that was decoded. -/
def WellFormed : Node → Prop
  | ruleSet node => node.WellFormed
  | rule node => node.WellFormed
  | filter node => node.WellFormed
  | filterOperation node => node.WellFormed
  | trigger node => node.activation.WellFormed
  | selector node => node.WellFormed
  | view node => node.WellFormed
  | viewOperation node => node.WellFormed
  | viewRef node => node.WellFormed
  | valueExpression node => node.WellFormed
  | effect node => node.WellFormed
  | whereClause node => node.WellFormed
  | expression node => node.WellFormed
  | operand node => node.WellFormed
  | transform node => node.WellFormed

end Node

/-- The children of a decoded operand were decoded. -/
theorem Operand.WellFormed.children {operand : Operand} (wellFormed : operand.WellFormed) :
    ∀ child ∈ operand.children, child.WellFormed := by
  cases operand <;> simp_all [Operand.children, Operand.WellFormed, Node.WellFormed]

/-- The children of a decoded computation were decoded. -/
theorem Transform.WellFormed.children {transform : Transform} (wellFormed : transform.WellFormed) :
    ∀ child ∈ transform.children, child.WellFormed := by
  cases transform <;>
    simp_all [Transform.children, Transform.WellFormed, Node.WellFormed, Operand.given_iff,
      Operand.givenOptional_iff, Operand.wellFormedAll_iff, or_imp, forall_and]

/-- The children of a decoded condition were decoded. -/
theorem Expression.WellFormed.children {condition : Expression}
    (wellFormed : condition.WellFormed) : ∀ child ∈ condition.children, child.WellFormed := by
  cases condition <;>
    simp_all [Expression.children, Expression.WellFormed, Node.WellFormed, Operand.given_iff,
      Operand.givenOptional_iff, Expression.wellFormedAll_iff]

/-- The children of a decoded condition on entities were decoded. -/
theorem WhereClause.WellFormed.children {clause : WhereClause} (wellFormed : clause.WellFormed) :
    ∀ child ∈ clause.children, child.WellFormed := by
  cases clause <;>
    simp_all [WhereClause.children, WhereClause.WellFormed, Node.WellFormed, Operand.given_iff,
      Operand.givenOptional_iff, WhereClause.wellFormedAll_iff]

/-- The values of a projection were decoded. -/
theorem ViewOperation.wellFormed_of_mem_projected {fields : Entries Json} {operand : Operand}
    (member : operand ∈ projected fields) : operand.WellFormed := by
  obtain ⟨entry, -, decoded⟩ := mem_projected_iff.mp member
  exact Operand.wellFormed_of_decode decoded

/-- The children of a decoded stage were decoded. -/
theorem ViewOperation.WellFormed.children {operation : ViewOperation}
    (wellFormed : operation.WellFormed) : ∀ child ∈ operation.children, child.WellFormed := by
  cases operation with
  | map fields =>
    intro child member
    obtain ⟨operand, projected, rfl⟩ := List.mem_map.mp member
    exact ViewOperation.wellFormed_of_mem_projected projected
  | proximity which operation =>
    have given := Operand.given_iff.mp wellFormed.origin
    simpa [ViewOperation.children, Node.WellFormed] using given.1
  | _ =>
    simp_all [ViewOperation.children, ViewOperation.WellFormed, Node.WellFormed, Operand.given_iff,
      Operand.givenOptional_iff, or_imp, forall_and]

/-- The children of a decoded use of a view were decoded. -/
theorem ViewRef.WellFormed.children {reference : ViewRef} (wellFormed : reference.WellFormed) :
    ∀ child ∈ reference.children, child.WellFormed := by
  cases reference <;> simp_all [ViewRef.children, ViewRef.WellFormed, Node.WellFormed]

/-- The operands under the keys of a mapping were decoded. -/
theorem Node.wellFormed_of_mem_values {entries : Entries Operand}
    (wellFormed : ∀ entry ∈ entries, entry.2.WellFormed) :
    ∀ child ∈ entries.values.map Node.operand, child.WellFormed := by
  rw [List.forall_mem_map, Entries.values, List.forall_mem_map]
  exact wellFormed

/-- The effects of a list were decoded. -/
theorem Node.wellFormed_of_mem_effects {effects : List Effect}
    (wellFormed : ∀ effect ∈ effects, effect.WellFormed) :
    ∀ child ∈ effects.map Node.effect, child.WellFormed := by
  rw [List.forall_mem_map]
  exact wellFormed

/-- The use of a view was decoded if there is one. -/
theorem Node.wellFormed_of_mem_targets {targets : Option ViewRef}
    (wellFormed : ∀ view, targets = some view → view.WellFormed) :
    ∀ child ∈ targets.toList.map Node.viewRef, child.WellFormed := by
  rw [List.forall_mem_map]
  exact fun view member => wellFormed view (Option.mem_toList.mp member)

/-- The children of the decoded source of a value were decoded. -/
theorem ValueExpression.WellFormed.children {expression : ValueExpression}
    (wellFormed : expression.WellFormed) : ∀ child ∈ expression.children, child.WellFormed := by
  cases expression with
  | viewResult view params =>
    exact List.forall_mem_cons.mpr ⟨wellFormed.1, Node.wellFormed_of_mem_values wellFormed.2⟩
  | _ =>
    simp_all [ValueExpression.children, ValueExpression.WellFormed, Node.WellFormed,
      Operand.given_iff]

/-- The children of a decoded choice of entities were decoded. -/
theorem Choice.WellFormed.children {choice : Choice} (wellFormed : choice.WellFormed) :
    ∀ child ∈ choice.children, child.WellFormed := by
  cases choice with
  | proximity which selector =>
    have position := Operand.given_iff.mp wellFormed.position
    have origin := Operand.given_iff.mp wellFormed.origin
    simp [Choice.children, Node.WellFormed, position.1, origin.1]
  | _ =>
    simp_all [Choice.children, Choice.WellFormed, Node.WellFormed, Operand.given_iff]

/-- The children of the decoded time of firing were decoded. -/
theorem Activation.WellFormed.children {activation : Activation}
    (wellFormed : activation.WellFormed) : ∀ child ∈ activation.children, child.WellFormed := by
  cases activation <;>
    simp_all [Activation.children, Activation.WellFormed, Node.WellFormed, Operand.given_iff]

/-- The children of a decoded change were decoded. -/
theorem Change.WellFormed.children {change : Change} (wellFormed : change.WellFormed) :
    ∀ child ∈ change.children, child.WellFormed := by
  cases change <;>
    simp_all [Change.children, Change.WellFormed, Node.WellFormed, Operand.given_iff]

/-- The children of a decoded effect were decoded. -/
theorem Effect.WellFormed.children {effect : Effect} (wellFormed : effect.WellFormed) :
    ∀ child ∈ effect.children, child.WellFormed := by
  cases effect <;> simp only [Effect.WellFormed, Effect.wellFormedAll_iff] at wellFormed <;>
    rw [Effect.children]
  case mutate targets path change =>
    obtain ⟨targetsFormed, -, changeFormed⟩ := wellFormed
    exact List.forall_mem_append.mpr
      ⟨Node.wellFormed_of_mem_targets targetsFormed, Change.WellFormed.children changeFormed⟩
  case spawn entity fields => exact Node.wellFormed_of_mem_values wellFormed.2
  case destroy targets => exact Node.wellFormed_of_mem_targets wellFormed
  case emit event payload => exact Node.wellFormed_of_mem_values wellFormed.2
  case branch condition consequent alternative =>
    obtain ⟨conditionFormed, consequentFormed, alternativeFormed⟩ := wellFormed
    refine List.forall_mem_append.mpr ⟨List.forall_mem_cons.mpr ⟨conditionFormed, ?_⟩, ?_⟩
    · exact Node.wellFormed_of_mem_effects consequentFormed
    · exact Node.wellFormed_of_mem_effects alternativeFormed
  case sequence effects => exact Node.wellFormed_of_mem_effects wellFormed
  case control op target => simp
  case log message level => exact List.forall_mem_singleton.mpr (Operand.given_iff.mp wellFormed).1

/-- The children of a decoded stage of a filter were decoded. -/
theorem FilterOperation.WellFormed.children {operation : FilterOperation}
    (wellFormed : operation.WellFormed) : ∀ child ∈ operation.children, child.WellFormed := by
  obtain ⟨-, conditionFormed, maskingFormed⟩ := wellFormed
  refine List.forall_mem_append.mpr ⟨?_, ?_⟩
  · rw [List.forall_mem_map]
    exact fun clause member => conditionFormed clause (Option.mem_toList.mp member)
  · cases masked : operation.masking <;>
      simp_all [Masking.children, Masking.WellFormed, Node.WellFormed]

/-- The nodes that decide whether a decoded rule fires were decoded. -/
theorem Rule.WellFormed.deciding {rule : Rule} (wellFormed : rule.WellFormed) :
    ∀ node ∈ rule.deciding, node.WellFormed := by
  refine List.forall_mem_append.mpr ⟨List.forall_mem_cons.mpr ⟨wellFormed.trigger, ?_⟩, ?_⟩
  · rw [List.forall_mem_map]
    exact fun selector member => wellFormed.selector selector (Option.mem_toList.mp member)
  · rw [List.forall_mem_map, Entries.values, List.forall_mem_map]
    exact fun entry member => (wellFormed.views entry member).1

namespace Node

/-- What decoding establishes of a node it establishes of the children. -/
theorem WellFormed.child {parent child : Node} (wellFormed : parent.WellFormed)
    (member : child ∈ parent.children) : child.WellFormed := by
  cases parent with
  | ruleSet node =>
    refine List.forall_mem_append.mpr ⟨?_, ?_⟩ child member
    · exact List.forall_mem_map.mpr (RuleSet.WellFormed.rules wellFormed)
    · exact List.forall_mem_map.mpr (RuleSet.WellFormed.filters wellFormed)
  | rule node =>
    refine List.forall_mem_append.mpr ⟨Rule.WellFormed.deciding wellFormed, ?_⟩ child member
    exact wellFormed_of_mem_effects (Effect.wellFormedAll_iff.mp (Rule.WellFormed.effects wellFormed))
  | filter node =>
    obtain ⟨operation, listed, rfl⟩ := List.mem_map.mp member
    exact Filter.WellFormed.operations wellFormed operation listed
  | filterOperation node => exact FilterOperation.WellFormed.children wellFormed child member
  | trigger node => exact Activation.WellFormed.children wellFormed child member
  | selector node =>
    exact Choice.WellFormed.children (Selector.WellFormed.choice wellFormed) child member
  | view node =>
    obtain ⟨operation, listed, rfl⟩ := List.mem_map.mp member
    exact View.WellFormed.pipeline wellFormed operation listed
  | viewOperation node => exact ViewOperation.WellFormed.children wellFormed child member
  | viewRef node => exact ViewRef.WellFormed.children wellFormed child member
  | valueExpression node => exact ValueExpression.WellFormed.children wellFormed child member
  | effect node => exact Effect.WellFormed.children wellFormed child member
  | whereClause node => exact WhereClause.WellFormed.children wellFormed child member
  | expression node => exact Expression.WellFormed.children wellFormed child member
  | operand node => exact Operand.WellFormed.children wellFormed child member
  | transform node => exact Transform.WellFormed.children wellFormed child member

end Node

/-- Of two parts that are not both missing one is there. -/
theorem ne_none_or_ne_none {α β : Type} {left : Option α} {right : Option β}
    (present : (left.isNone && right.isNone) = false) : left ≠ none ∨ right ≠ none := by
  cases left
  · cases right
    · cases present
    · exact .inr nofun
  · exact .inl nofun

/-- A constant that was decoded is neither a reference nor a computation in disguise. -/
theorem Operand.WellFormed.valid {operand : Operand} (wellFormed : operand.WellFormed) :
    operand.Valid := by
  cases operand with
  | literal value =>
    obtain ⟨noComputation, noReference⟩ := wellFormed
    refine ⟨noReference, ?_⟩
    rintro entries kind rfl typed
    rw [Json.namesTransform, typed] at noComputation
    have named : Keyword.isWord TransformKind (Keyword.word kind) = true :=
      congrArg Option.isSome (Keyword.parse?_word kind)
    exact Bool.noConfusion (named.symm.trans noComputation)
  | path reference => exact wellFormed
  | transform computation => trivial

/-- The references of a decoded stage are there, and its distance is measured to some place. -/
theorem ViewOperation.WellFormed.valid {operation : ViewOperation}
    (wellFormed : operation.WellFormed) : operation.Valid := by
  have there {path : Path} (notEmpty : some path ≠ some ⟨""⟩) : path.raw ≠ "" :=
    fun same => notEmpty (congrArg some (PathSet.raw_injective same))
  cases operation with
  | sort by_ order =>
    exact ⟨List.forall_mem_singleton.mpr wellFormed, nofun⟩
  | groupBy groupField aggregate field =>
    refine ⟨List.forall_mem_cons.mpr ⟨wellFormed.1, fun path member => ?_⟩, nofun⟩
    rw [Option.mem_toList.mp member] at wellFormed
    exact there wellFormed.2
  | field stage path => exact ⟨List.forall_mem_singleton.mpr wellFormed, nofun⟩
  | proximity which operation =>
    refine ⟨fun path member => ?_, nofun⟩
    have notEmpty := wellFormed.field
    rw [Option.mem_toList.mp member] at notEmpty
    exact there notEmpty
  | distance start finish origin unit =>
    refine ⟨nofun, ?_⟩
    rintro _ _ _ _ ⟨⟩
    obtain ⟨-, -, -, somewhere⟩ := wellFormed
    exact ne_none_or_ne_none somewhere
  | _ => exact ⟨nofun, nofun⟩

/-- The time of firing that was decoded is said in full. -/
theorem Activation.WellFormed.valid {activation : Activation}
    (wellFormed : activation.WellFormed) : activation.Valid := by
  cases activation with
  | tick interval => exact Nat.one_le_iff_ne_zero.mpr wellFormed.1
  | event name params filter => exact wellFormed.1
  | change watch =>
    refine ⟨wellFormed.1, fun path member => ?_⟩
    have canonical := Path.canonicalState?_self_iff.mp (wellFormed.2 path member)
    obtain ⟨rest, written⟩ := Text.hasFront_iff.mp canonical
    exact ⟨rest, written.symm⟩
  | cron fields =>
    rw [Activation.Valid, ← Text.countWords_eq_length_words]
    exact wellFormed.2
  | schedule time interval weekdays => exact ne_none_or_ne_none wellFormed
  | _ => trivial

/-- What a decoded effect changes, creates, raises or switches has a name. -/
theorem Effect.WellFormed.valid {effect : Effect} (wellFormed : effect.WellFormed) :
    effect.Valid := by
  cases effect <;> simp_all [Effect.WellFormed, Effect.Valid]

/-- A rule that raises the alarm to the level of danger when the players change. -/
def Rule.alarm : Rule :=
  (Rule.ofTrigger "alarm" (.onChange [⟨"$.players"⟩])).withEffect
    (.set ⟨"$.alarm"⟩ (.path ⟨"$.danger"⟩))

/-- The document of the rule that raises the alarm. -/
def Rule.alarmDocument : Json :=
  .object [
    ("effects", .array [.object [("path", .string "$.alarm"), ("type", .string "Set"),
      ("value", .string "$.danger")]]),
    ("name", .string "alarm"),
    ("trigger", .object [("type", .string "OnChange"), ("watch", .string "$.players")])]

/-- The rule that raises the alarm is well-formed. -/
theorem Rule.alarm_wellFormed : Rule.alarm.WellFormed where
  name := by decide
  priority := by decide
  trigger := ⟨nofun, List.forall_mem_singleton.mpr (by decide)⟩
  selector := nofun
  views := nofun
  active := nofun
  effects := by
    refine ⟨⟨nofun, by decide, ?_⟩, trivial⟩
    show Path.kind ⟨"$.danger"⟩ ≠ .field
    decide

namespace Node

/-- What decoding establishes of a node is what has to hold of it, and more. -/
theorem WellFormed.valid {node : Node} (wellFormed : node.WellFormed) : node.Valid := by
  cases node with
  | rule node =>
    have views := Rule.WellFormed.views wellFormed
    exact ⟨Rule.WellFormed.name wellFormed, Rule.WellFormed.active wellFormed,
      fun entry member => (views entry member).2⟩
  | filter node => exact Filter.WellFormed.name wellFormed
  | filterOperation node => exact FilterOperation.WellFormed.target wellFormed
  | trigger node => exact Activation.WellFormed.valid wellFormed
  | selector node =>
    refine ⟨Selector.WellFormed.entity wellFormed, fun relation source chosen => ?_⟩
    have choice := Selector.WellFormed.choice wellFormed
    rw [chosen] at choice
    exact choice.1
  | view node => exact View.WellFormed.source wellFormed
  | viewOperation node => exact ViewOperation.WellFormed.valid wellFormed
  | viewRef node =>
    rintro ⟨⟩
    exact wellFormed rfl
  | effect node => exact Effect.WellFormed.valid wellFormed
  | operand node => exact Operand.WellFormed.valid wellFormed
  | _ => trivial

/-- Every node of a decoded rule set is valid, at any depth. -/
theorem valid_of_decode {document : Json} {set : RuleSet}
    (decoded : RuleSet.decode document = .ok set) (node : Node)
    (inside : node.Inside (.ruleSet set)) : node.Valid := by
  have wellFormed : (ruleSet set).WellFormed := RuleSet.wellFormed_of_decode decoded
  exact (inside.property (fun _ _ => WellFormed.child) wellFormed).valid

/-- In the set of the rule that raises the alarm, the reference of its effect is a node, and it is no
plain name. -/
theorem valid_of_decode_alarm :
    RuleSet.decode (.object [("rules", .array [Rule.alarmDocument])]) =
        .ok ⟨none, none, [], [.alarm], []⟩ ∧
      (operand (.path ⟨"$.danger"⟩)).Inside (.ruleSet ⟨none, none, [], [.alarm], []⟩) ∧
        (operand (.path ⟨"$.danger"⟩)).Valid := by
  have wellFormed : (⟨none, none, [], [.alarm], []⟩ : RuleSet).WellFormed :=
    ⟨List.forall_mem_singleton.mpr Rule.alarm_wellFormed, nofun⟩
  have decoded : RuleSet.decode (.object [("rules", .array [Rule.alarmDocument])]) =
      .ok ⟨none, none, [], [.alarm], []⟩ := RuleSet.decode_encode wellFormed nofun
  have inside : (operand (.path ⟨"$.danger"⟩)).Inside
      (.ruleSet ⟨none, none, [], [.alarm], []⟩) :=
    .head (List.mem_singleton_self (rule .alarm)) <|
      .head (List.mem_cons_of_mem _ (List.mem_singleton_self (effect _))) <|
        .single (List.mem_singleton_self _)
  exact ⟨decoded, inside, valid_of_decode decoded _ inside⟩

end Node

end GameRules
