import GameRules.Proofs.Provenance

/-!
# Bounds of a choice by distance

A choice by distance may be bounded from below and from above. A selector with bounds that exclude
every distance is refused. A stage of a view is not: it has whatever bounds its object writes. So in a
rule set the bounds of all stages are in order if the document writes no stage with other bounds, and
a document that does is accepted all the same.
-/

namespace GameRules

/-- The least distance is at most the greatest, if both are given. -/
def BoundsOrdered (least greatest : Option Binary64) : Prop :=
  ∀ lower ∈ least, ∀ upper ∈ greatest, lower.signedUnits ≤ upper.signedUnits

/-- Bounds have no fault exactly if they are in order. -/
theorem ProximitySelector.boundsFault?_eq_none_iff {least greatest : Option Binary64} :
    boundsFault? least greatest = none ↔ BoundsOrdered least greatest := by
  cases least with
  | none => simp [boundsFault?, BoundsOrdered]
  | some lower =>
    cases greatest with
    | none => simp [boundsFault?, BoundsOrdered]
    | some upper => simp [boundsFault?, BoundsOrdered, Binary64.lt]

/-- The bounds of a node are in order if it chooses by distance. -/
def Node.BoundsOrdered : Node → Prop
  | selector ⟨_, .proximity _ choice⟩ => GameRules.BoundsOrdered choice.minDistance choice.maxDistance
  | viewOperation (.proximity _ choice) =>
    GameRules.BoundsOrdered choice.minDistance choice.maxDistance
  | _ => True

namespace Json

/-- The number that a document is read as, if it is one. -/
def asNumber? : Json → Option Binary64
  | float value => some value
  | int value => Binary64.ofInt? value
  | _ => none

/-- The number that an entry of an object is read as, if it is there and is one. -/
def numberAt? (entries : Entries Json) (key : String) : Option Binary64 :=
  (entries.lookup key).bind asNumber?

/-- Whether a document is written like a stage that chooses by distance, with bounds that are not in
order. -/
def isInvertedStage : Json → Bool
  | object entries =>
    (match entries.lookup "type" with
      | some (string word) => Keyword.isWord Proximity word
      | _ => false) &&
      (ProximitySelector.boundsFault? (numberAt? entries "minDistance")
        (numberAt? entries "maxDistance")).isSome
  | _ => false

end Json

/-- An entry that is null is read as no number, like one that is not there. -/
theorem Json.numberAt?_eq {whole : Json} (fields : Fields whole) (key : String) :
    numberAt? fields.entries key = (fields.value? key).bind asNumber? := by
  rw [numberAt?, Fields.value?]
  cases fields.entries.lookup key with
  | none => rfl
  | some document =>
    cases document with
    | null => rfl
    | _ => simp only [Option.filter, isNull, Bool.not_false, if_true]

/-- A bound is the number that is written in its field. -/
theorem Fields.number?_eq_written {whole : Json} {fields : Fields whole} {key : String}
    {value : Option Binary64} (read : fields.number? key = .ok value) :
    value = Json.numberAt? fields.entries key := by
  rw [Json.numberAt?_eq]
  rcases number?_eq_ok_iff.mp read with given | ⟨whole, number, given, rounded, rfl⟩
  · rw [given]
    cases value with
    | none => rfl
    | some number => rw [Option.map_some, Option.bind_some, Json.asNumber?]
  · rw [given, Option.bind_some, Json.asNumber?, rounded]

/-- A stage has the bounds that are written in its fields. -/
theorem ProximityOperation.bounds_of_decode {whole : Json} {fields : Fields whole}
    {choice : ProximityOperation} (decoded : decode fields = .ok choice) :
    choice.minDistance = Json.numberAt? fields.entries "minDistance" ∧
      choice.maxDistance = Json.numberAt? fields.entries "maxDistance" := by
  simp only [decode, Decoded.bind_eq_ok_iff, Decoded.pure_eq_ok_iff] at decoded
  obtain ⟨_, -, _, -, _, -, greatest, readGreatest, least, readLeast, _, -, rfl⟩ := decoded
  exact ⟨Fields.number?_eq_written readLeast, Fields.number?_eq_written readGreatest⟩

/-- Whether a kind of stage chooses by distance. -/
def ViewOperationKind.isProximity : ViewOperationKind → Bool
  | proximity _ => true
  | _ => false

/-- The words of the stages that choose by distance are told from those of other stages. -/
theorem ViewOperationKind.isWord_proximity (kind : ViewOperationKind) :
    Keyword.isWord Proximity (Keyword.word kind) = kind.isProximity := by
  cases kind with
  | window kept => cases kept <;> rfl
  | field stage => cases stage <;> rfl
  | proximity which => cases which <;> rfl
  | rows stage => cases stage <;> rfl
  | _ => rfl

namespace ViewOperation

variable {document : Json} {operation : ViewOperation}

/-- A stage was decoded from an object that names its kind, and a choice by distance from its
fields. -/
theorem kind_of_decode (decoded : decode document = .ok operation) :
    ∃ untyped word, Fields.of .viewOperation document = .ok untyped ∧
      untyped.kindWord = .ok word ∧ Keyword.parse? word = some operation.kind ∧
        ∀ which choice, operation = proximity which choice →
          ProximityOperation.decode (untyped.forKind word) = .ok choice := by
  simp only [decode, Decoded.bind_eq_ok_iff] at decoded
  obtain ⟨untyped, read, word, readWord, kind, readKind, decoded⟩ := decoded
  suffices same : operation.kind = kind ∧ ∀ which choice, operation = proximity which choice →
      ProximityOperation.decode (untyped.forKind word) = .ok choice from
    ⟨untyped, word, read, readWord, same.1 ▸ Fields.kindOf_eq_ok_iff.mp readKind, same.2⟩
  cases kind with
  | proximity which =>
    obtain ⟨choice, readChoice, rfl⟩ := Decoded.map_eq_ok_iff.mp decoded
    refine ⟨rfl, ?_⟩
    rintro _ _ ⟨⟩
    exact readChoice
  | map =>
    simp only [Decoded.bind_eq_ok_iff] at decoded
    obtain ⟨_, -, decoded⟩ := decoded
    split at decoded
    · cases Decoded.pure_eq_ok_iff.mp decoded
      exact ⟨rfl, nofun⟩
    · exact absurd decoded Decoded.fail_ne_ok
  | distance =>
    simp only [Decoded.bind_eq_ok_iff] at decoded
    obtain ⟨_, -, _, -, _, -, _, -, decoded⟩ := decoded
    split at decoded
    · exact absurd decoded Decoded.fail_ne_ok
    · cases Decoded.pure_eq_ok_iff.mp decoded
      exact ⟨rfl, nofun⟩
  | filter | sort | window | groupBy | field | rows =>
    simp only [Decoded.bind_eq_ok_iff, Decoded.map_eq_ok_iff, Decoded.pure_eq_ok_iff] at decoded
    grind [kind]

/-- The bounds of a stage are in order exactly if its document writes no others. -/
theorem boundsOrdered_iff_of_decode (decoded : decode document = .ok operation) :
    (Node.viewOperation operation).BoundsOrdered ↔ document.isInvertedStage = false := by
  obtain ⟨untyped, word, read, readWord, named, readChoice⟩ := kind_of_decode decoded
  cases document with
  | object entries =>
    cases read
    have typed : entries.lookup "type" = some (.string word) :=
      Fields.lookup_of_value? (Fields.kindWord_eq_ok_iff.mp readWord).1
    have written : (Json.object entries).isInvertedStage =
        (operation.kind.isProximity &&
          (ProximitySelector.boundsFault? (Json.numberAt? entries "minDistance")
            (Json.numberAt? entries "maxDistance")).isSome) := by
      rw [Json.isInvertedStage, typed, ← Keyword.word_of_parse? rfl named]
      dsimp only
      rw [ViewOperationKind.isWord_proximity]
    rw [written]
    cases operation with
    | proximity which choice =>
      obtain ⟨least, greatest⟩ := ProximityOperation.bounds_of_decode (readChoice which choice rfl)
      rw [kind, ViewOperationKind.isProximity, Bool.true_and, Option.isSome_eq_false_iff,
        Option.isNone_iff_eq_none, ProximitySelector.boundsFault?_eq_none_iff, Node.BoundsOrdered,
        least, greatest]
      rfl
    | _ => exact iff_of_true trivial rfl
  | _ => cases read

end ViewOperation

/-- A selector that was decoded has its bounds in order. -/
theorem Selector.WellFormed.boundsOrdered {chosen : Selector} (wellFormed : chosen.WellFormed) :
    (Node.selector chosen).BoundsOrdered := by
  obtain ⟨entity, choice⟩ := chosen
  cases choice with
  | proximity which choice =>
    have bounds := (Selector.WellFormed.choice wellFormed).bounds
    exact ProximitySelector.boundsFault?_eq_none_iff.mp bounds
  | _ => trivial

namespace Node

/-- In a decoded rule set the bounds of every selector are in order. Every stage of every view,
whether the view is declared or used in place, was decoded from an object inside the document, and its
bounds are in order exactly if that object writes no others. So the bounds of all nodes are in order
if no object inside the document is written like a stage with others. -/
theorem boundsOrdered_of_decode {document : Json} {set : RuleSet}
    (decoded : RuleSet.decode document = .ok set) :
    (∀ chosen, (selector chosen).Inside (ruleSet set) → (selector chosen).BoundsOrdered) ∧
      (∀ operation, (viewOperation operation).Inside (ruleSet set) →
        ∃ part ∈ document.subdocuments, ViewOperation.decode part = .ok operation ∧
          ((viewOperation operation).BoundsOrdered ↔ part.isInvertedStage = false)) ∧
        ((∀ part ∈ document.subdocuments, part.isInvertedStage = false) →
          ∀ node : Node, node.Inside (ruleSet set) → node.BoundsOrdered) := by
  have wellFormed (node : Node) (inside : node.Inside (ruleSet set)) : node.WellFormed :=
    inside.property (fun _ _ => WellFormed.child) (RuleSet.wellFormed_of_decode decoded)
  have selectors (chosen : Selector) (inside : (selector chosen).Inside (ruleSet set)) :
      (selector chosen).BoundsOrdered := Selector.WellFormed.boundsOrdered (wellFormed _ inside)
  -- Whatever stands in the document stands in the document.
  have root : (ruleSet set).ReadFrom (fun part => part ∈ document.subdocuments) :=
    ⟨document, fun _ member => member, decoded⟩
  have stages (operation : ViewOperation) (inside : (viewOperation operation).Inside (ruleSet set)) :
      ∃ part ∈ document.subdocuments, ViewOperation.decode part = .ok operation ∧
        ((viewOperation operation).BoundsOrdered ↔ part.isInvertedStage = false) := by
    obtain ⟨part, holds, read⟩ := root.inside inside
    exact ⟨part, holds.self, read, ViewOperation.boundsOrdered_iff_of_decode read⟩
  refine ⟨selectors, stages, fun written node inside => ?_⟩
  cases node with
  | selector chosen => exact selectors chosen inside
  | viewOperation operation =>
    obtain ⟨part, member, -, ordered⟩ := stages operation inside
    exact ordered.mpr (written part member)
  | _ => trivial

end Node

/-- The number one. -/
def Binary64.one : Binary64 := ⟨false, 1023 * 2 ^ 52, by decide⟩

/-- The number two. -/
def Binary64.two : Binary64 := ⟨false, 1024 * 2 ^ 52, by decide⟩

/-- A stage that keeps what is nearest to the base, between two distances. -/
def ViewOperation.nearBase (least greatest : Binary64) : ViewOperation :=
  .proximity .nearest ⟨.path ⟨"$.base"⟩, none, none, some greatest, some least, none⟩

/-- The rule that raises the alarm, with a view of the players near the base. -/
def Rule.lookout (least greatest : Binary64) : Rule :=
  alarm.withView "near" ⟨none, "players", [.nearBase least greatest], []⟩

/-- The document of a package of the rule with a view of the players near the base. -/
def Rule.lookoutDocument (least greatest : Binary64) : Json :=
  .object [("rules", .array [.object [
    ("effects", .array [.object [("path", .string "$.alarm"), ("type", .string "Set"),
      ("value", .string "$.danger")]]),
    ("name", .string "alarm"),
    ("trigger", .object [("type", .string "OnChange"), ("watch", .array [.string "$.players"])]),
    ("views", .object [("near", .object [("name", .string "near"),
      ("pipeline", .array [.object [("maxDistance", .float greatest),
        ("minDistance", .float least), ("origin", .string "$.base"),
        ("type", .string "Nearest")]]),
      ("source", .string "players")])])]])]

/-- The players near the base may be looked for between any two distances. -/
theorem RuleSet.decode_lookout (least greatest : Binary64) :
    decode (Rule.lookoutDocument least greatest) =
      .ok ⟨none, none, [], [Rule.lookout least greatest], []⟩ := by
  have source : "players" ≠ "" := by decide
  have reference : Path.kind ⟨"$.base"⟩ ≠ .field := by decide
  have origin : Operand.Given (.path ⟨"$.base"⟩) := Operand.given_iff.mpr ⟨reference, nofun⟩
  have rule : (Rule.lookout least greatest).WellFormed :=
    { Rule.alarm_wellFormed with
      views := List.forall_mem_singleton.mpr
        ⟨⟨source, List.forall_mem_singleton.mpr ⟨origin, nofun, nofun⟩, List.forall_mem_nil _⟩,
          rfl⟩ }
  have wellFormed : (⟨none, none, [], [Rule.lookout least greatest], []⟩ : RuleSet).WellFormed :=
    ⟨List.forall_mem_singleton.mpr rule, List.forall_mem_nil _⟩
  exact decode_encode wellFormed (List.forall_mem_nil Leaf.Stable)

/-- The stage that keeps what is nearest to the base is inside the package. -/
theorem Node.nearBase_inside (least greatest : Binary64) :
    (viewOperation (.nearBase least greatest)).Inside
      (ruleSet ⟨none, none, [], [Rule.lookout least greatest], []⟩) :=
  .head (List.mem_singleton_self (rule (Rule.lookout least greatest))) <|
    .head (List.mem_append_left _ (List.mem_cons_of_mem _ (List.mem_singleton_self (view _)))) <|
      .single (List.mem_singleton_self _)

namespace Node

/-- From one to two, the bounds of the stage are in order, as all bounds in the package are. -/
theorem boundsOrdered_of_decode_lookout :
    RuleSet.decode (Rule.lookoutDocument .one .two) =
        .ok ⟨none, none, [], [Rule.lookout .one .two], []⟩ ∧
      (viewOperation (.nearBase .one .two)).BoundsOrdered := by
  have decoded := RuleSet.decode_lookout .one .two
  obtain ⟨-, -, ordered⟩ := boundsOrdered_of_decode decoded
  exact ⟨decoded, ordered (by decide +kernel) _ (nearBase_inside .one .two)⟩

/-- From two to one, the bounds of the stage are not in order, and the package is accepted. -/
theorem not_boundsOrdered_lookout :
    RuleSet.decode (Rule.lookoutDocument .two .one) =
        .ok ⟨none, none, [], [Rule.lookout .two .one], []⟩ ∧
      (viewOperation (.nearBase .two .one)).Inside
          (ruleSet ⟨none, none, [], [Rule.lookout .two .one], []⟩) ∧
        ¬(viewOperation (.nearBase .two .one)).BoundsOrdered := by
  have apart : ¬Binary64.two.signedUnits ≤ Binary64.one.signedUnits := by decide +kernel
  exact ⟨RuleSet.decode_lookout .two .one, nearBase_inside .two .one,
    fun ordered => apart (ordered _ rfl _ rfl)⟩

end Node

end GameRules
