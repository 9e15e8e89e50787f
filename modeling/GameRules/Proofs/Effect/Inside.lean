import GameRules.Proofs.Document.Agreement
import GameRules.Proofs.Document.Failure
import GameRules.Proofs.Effect

/-!
# Effects inside effects

A choice has two lists of effects and a sequence has one. What is decoded of an effect once its kind is
known depends on a few keys, on the lists among them only through what their items are decoded to. An
effect is not decoded if one inside it is not, and fails like the first one inside it that fails, seen
from outside.
-/

namespace GameRules

/-- The keys that effects of a kind are decoded from, besides their type and their lists of effects. -/
def EffectKind.keys : EffectKind → List String
  | .mutate .transform => ["targets", "path", "transform"]
  | .mutate .setFromView => ["targets", "path", "valueExpression"]
  | .mutate .set | .mutate .increment | .mutate .decrement => ["targets", "path", "value"]
  | .spawn => ["entity", "fields"]
  | .destroy => ["targets"]
  | .emit => ["event", "payload"]
  | .branch => ["condition"]
  | .sequence => []
  | .control op => [op.targetKey]
  | .log => ["message", "level"]

/-- The keys of the lists of effects of a kind, each with the label of its items. -/
def EffectKind.lists : EffectKind → List (String × String)
  | .branch => [("then", "then effect"), ("else", "else effect")]
  | .sequence => [("effects", "effect")]
  | _ => []

/-- The type is read once, to find the kind. -/
theorem EffectKind.type_notMem_keys (kind : EffectKind) : "type" ∉ kind.keys := by
  cases kind with
  | mutate change => cases change <;> decide
  | control op => cases op <;> decide
  | _ => decide

/-- The type is no list of effects. -/
theorem EffectKind.type_notMem_lists (kind : EffectKind) : "type" ∉ kind.lists.map Prod.fst := by
  cases kind with
  | branch | sequence => decide
  | _ => exact List.not_mem_nil

/-- The other keys have no lists of effects. -/
theorem EffectKind.notMem_lists (kind : EffectKind) {key : String} (read : key ∈ kind.keys) :
    key ∉ kind.lists.map Prod.fst := by
  cases kind with
  | branch =>
    have only : key = "condition" := List.mem_singleton.mp read
    rw [only]
    decide
  | sequence => cases read
  | _ => exact List.not_mem_nil

namespace Effect

/-- Decodes an effect of a known kind. -/
def decodeAs {whole : Json} (kind : EffectKind) (fields : Fields whole) : Decoded Effect :=
  match kind with
  | .mutate kind => do
    let targets ← decodeTargets fields
    let path ← fields.requiredPath "path"
    let change ← decodeChange kind fields
    return .mutate targets path change
  | .spawn => do
    let entity ← fields.requiredString "entity"
    let values ← fields.mapping "fields" fun part _ => Operand.decode part
    return .spawn entity values
  | .destroy => .destroy <$> decodeTargets fields
  | .emit => do
    let event ← fields.requiredString "event"
    let payload ← fields.mapping "payload" fun part _ => Operand.decode part
    return .emit event payload
  | .branch => do
    let _ ← fields.required "then"
    let condition ← fields.requiredNode "condition" fun part _ => Expression.decode part
    let consequent ← fields.list "then" "then effect" fun part _ => decode part
    let alternative ← fields.list "else" "else effect" fun part _ => decode part
    return .branch condition consequent alternative
  | .sequence => do
    let _ ← fields.required "effects"
    let effects ← fields.list "effects" "effect" fun part _ => decode part
    return .sequence effects
  | .control op => .control op <$> fields.requiredString op.targetKey
  | .log => do
    let message ← fields.requiredNode "message" fun part _ => Operand.decode part
    let level ← fields.keyword? "level"
    return .log message (level.getD .info)

/-- An effect is decoded by its kind. -/
theorem decode_eq (document : Json) :
    decode document = (do
      let untyped ← Fields.of .effect document
      let (word, kind) ← decodeKind untyped
      decodeAs kind (untyped.forKind word)) := by
  rw [decode]
  refine bind_congr fun untyped => bind_congr fun named => ?_
  obtain ⟨word, kind⟩ := named
  cases kind <;> rfl

/-- An object whose kind is found is decoded by that kind. -/
theorem decode_of_kind {entries : Record} {word : String} {kind : EffectKind}
    (found : decodeKind (entries.fields .effect) = .ok (word, kind)) :
    decode (.object entries) = decodeAs kind ((entries.fields .effect).forKind word) := by
  rw [decode_eq]
  change decodeKind (entries.fields .effect) >>= _ = _
  rw [found]
  rfl

/-- An object that names its kind is decoded by that kind. -/
theorem decode_of_typed {entries : Record} (kind : EffectKind)
    (typed : entries.lookup "type" = some (.string (Keyword.word kind))) :
    decode (.object entries) =
      decodeAs kind ((entries.fields .effect).forKind (Keyword.word kind)) :=
  decode_of_kind (decodeKind_of_typed kind typed)

section Agreement

variable {whole other : Json} {left : Fields whole} {right : Fields other}

/-- A list of effects is there in both of two objects or in neither, and it is decoded to the same. -/
structure ListsAgree (left : Fields whole) (right : Fields other) (key label : String) : Prop where
  /-- Both fail alike if it is required and not there. -/
  required : ∀ next : Decoded Effect,
    (left.required key >>= fun _ => next) = right.required key >>= fun _ => next
  /-- Its items are decoded to the same. -/
  list : left.list key label (fun part _ => decode part) =
    right.list key label fun part _ => decode part

/-- The same value is decoded where null has to be written out. -/
theorem decodeSetValue_congr (agree : Fields.Agree left right "value")
    (written : left.entries.lookup "value" = right.entries.lookup "value") :
    decodeSetValue left = decodeSetValue right := by
  unfold decodeSetValue
  rw [written, agree.requiredNode Operand.decode]

/-- Two objects that agree on the keys of a kind are decoded to the same effect of that kind, or fail
alike. For a location that is set, it matters besides whether null is written out. -/
theorem decodeAs_congr {kind : EffectKind}
    (agree : ∀ key ∈ kind.keys, Fields.Agree left right key)
    (written : kind = .mutate .set → left.entries.lookup "value" = right.entries.lookup "value")
    (lists : ∀ list ∈ kind.lists, ListsAgree left right list.1 list.2) :
    decodeAs kind left = decodeAs kind right := by
  cases kind with
  | mutate change =>
    have targets : decodeTargets left = decodeTargets right :=
      (agree "targets" (by cases change <;> decide)).node? ViewRef.decode
    have path : left.requiredPath "path" = right.requiredPath "path" :=
      (agree "path" (by cases change <;> decide)).requiredPath
    have changed : decodeChange change left = decodeChange change right := by
      cases change with
      | set =>
        have value := decodeSetValue_congr (agree "value" (by decide)) (written rfl)
        rw [decodeChange, decodeChange, value]
      | increment | decrement =>
        have value := (agree "value" (by decide)).node? Operand.decode
        rw [decodeChange, decodeChange, decodeStep, decodeStep, value]
      | transform =>
        have computation := (agree "transform" (by decide)).requiredNode Transform.decode
        rw [decodeChange, decodeChange, computation]
      | setFromView =>
        have value := (agree "valueExpression" (by decide)).requiredNode ValueExpression.decode
        rw [decodeChange, decodeChange, value]
    rw [decodeAs, decodeAs, targets, path, changed]
  | spawn =>
    rw [decodeAs, decodeAs, (agree "entity" (by decide)).requiredString,
      (agree "fields" (by decide)).mapping Operand.decode]
  | destroy =>
    have targets : decodeTargets left = decodeTargets right :=
      (agree "targets" (by decide)).node? ViewRef.decode
    rw [decodeAs, decodeAs, targets]
  | emit =>
    rw [decodeAs, decodeAs, (agree "event" (by decide)).requiredString,
      (agree "payload" (by decide)).mapping Operand.decode]
  | branch =>
    have consequent := lists ("then", "then effect") (by decide)
    have alternative := lists ("else", "else effect") (by decide)
    rw [decodeAs, decodeAs, (agree "condition" (by decide)).requiredNode Expression.decode,
      consequent.list, alternative.list]
    exact consequent.required _
  | sequence =>
    have effects := lists ("effects", "effect") (by decide)
    rw [decodeAs, decodeAs, effects.list]
    exact effects.required _
  | control op =>
    have target := (agree op.targetKey (by simp [EffectKind.keys])).requiredString
    rw [decodeAs, decodeAs, target]
  | log =>
    rw [decodeAs, decodeAs, (agree "message" (by decide)).requiredNode Operand.decode,
      (agree "level" (by decide)).keyword?]

end Agreement

/-- A document is an item of a list of effects of another one, at a position. -/
inductive Holds : Json → Position → Json → Prop
  /-- An effect that a choice does if its condition holds. -/
  | consequent {entries : Record} {front back : List Json} {part : Json}
      (typed : entries.lookup "type" = some (.string "If"))
      (listed : entries.lookup "then" = some (.array (front ++ part :: back))) :
      Holds (.object entries) (.item "then effect" front.length) part
  /-- An effect that a choice does if its condition does not hold. -/
  | alternative {entries : Record} {front back : List Json} {part : Json}
      (typed : entries.lookup "type" = some (.string "If"))
      (listed : entries.lookup "else" = some (.array (front ++ part :: back))) :
      Holds (.object entries) (.item "else effect" front.length) part
  /-- An effect of a sequence. -/
  | step {entries : Record} {front back : List Json} {part : Json}
      (typed : entries.lookup "type" = some (.string "Sequence"))
      (listed : entries.lookup "effects" = some (.array (front ++ part :: back))) :
      Holds (.object entries) (.item "effect" front.length) part

/-- All documents of a list are decoded. -/
def AllDecode (documents : List Json) : Prop :=
  ∀ document ∈ documents, ∃ effect, decode document = .ok effect

/-- A document is an item of a list of effects of another one, and all that comes before it there is
decoded: the condition first, then the effects in their order. -/
inductive Reaches : Json → Position → Json → Prop
  /-- An effect that a choice does if its condition holds. -/
  | consequent {entries : Record} {test : Json} {condition : Expression} {front back : List Json}
      {part : Json} (typed : entries.lookup "type" = some (.string "If"))
      (tested : entries.lookup "condition" = some test)
      (decoded : Expression.decode test = .ok condition)
      (listed : entries.lookup "then" = some (.array (front ++ part :: back)))
      (before : AllDecode front) :
      Reaches (.object entries) (.item "then effect" front.length) part
  /-- An effect that a choice does if its condition does not hold. -/
  | alternative {entries : Record} {test : Json} {condition : Expression}
      {consequent front back : List Json} {part : Json}
      (typed : entries.lookup "type" = some (.string "If"))
      (tested : entries.lookup "condition" = some test)
      (decoded : Expression.decode test = .ok condition)
      (positive : entries.lookup "then" = some (.array consequent))
      (clear : AllDecode consequent)
      (listed : entries.lookup "else" = some (.array (front ++ part :: back)))
      (before : AllDecode front) :
      Reaches (.object entries) (.item "else effect" front.length) part
  /-- An effect of a sequence. -/
  | step {entries : Record} {front back : List Json} {part : Json}
      (typed : entries.lookup "type" = some (.string "Sequence"))
      (listed : entries.lookup "effects" = some (.array (front ++ part :: back)))
      (before : AllDecode front) :
      Reaches (.object entries) (.item "effect" front.length) part

/-- A document is found in another one step by step, from the outside in. -/
inductive Along (step : Json → Position → Json → Prop) : Json → List Position → Json → Prop
  /-- The document itself. -/
  | here (document : Json) : Along step document [] document
  /-- A document inside an item. -/
  | next {outer middle inner : Json} {position : Position} {positions : List Position}
      (head : step outer position middle) (rest : Along step middle positions inner) :
      Along step outer (position :: positions) inner

section Lists

variable {entries : Record} {key label word : String} {front back items : List Json} {part : Json}

/-- An array that was written under a key is decoded item by item. -/
theorem list_of_written (listed : entries.lookup key = some (.array items)) :
    ((entries.fields .effect).forKind word).list key label (fun part _ => decode part) =
      decodeItems label 0 items fun item _ => decode item := by
  rw [Fields.list_eq, Fields.value?_forKind, Fields.value?_of_lookup listed rfl]

/-- An array that was written under a key is there. -/
theorem required_of_written (listed : entries.lookup key = some (.array items)) :
    ((entries.fields .effect).forKind word).required key = .ok (.array items) := by
  rw [Fields.required, Fields.value?_forKind, Fields.value?_of_lookup listed rfl]

/-- A list is decoded if all its items are. -/
theorem exists_list_of_allDecode (listed : entries.lookup key = some (.array items))
    (clear : AllDecode items) :
    ∃ effects, ((entries.fields .effect).forKind word).list key label (fun part _ => decode part) =
      .ok effects := by
  rw [list_of_written listed]
  cases read : decodeItems label 0 items fun item _ => decode item with
  | ok effects => exact ⟨effects, rfl⟩
  | error error =>
    obtain ⟨front, item, back, inner, rfl, -, failed, -⟩ := decodeItems_eq_error_iff.mp read
    obtain ⟨effect, decoded⟩ := clear item (by simp)
    rw [decoded] at failed
    cases failed

/-- Every item of a list that is decoded is decoded. -/
theorem exists_item_of_list {effects : List Effect}
    (listed : entries.lookup key = some (.array (front ++ part :: back)))
    (read : ((entries.fields .effect).forKind word).list key label (fun part _ => decode part) =
      .ok effects) : ∃ effect, decode part = .ok effect := by
  rw [list_of_written listed, decodeItems_eq_ok_iff] at read
  have member : part ∈ front ++ part :: back := by simp
  obtain ⟨effect, -, decoded⟩ := exists_mem_of_forall₂ read.flip member
  exact ⟨effect, decoded⟩

/-- A condition that was written and can be decoded is decoded. -/
theorem condition_of_written {test : Json} {condition : Expression}
    (tested : entries.lookup "condition" = some test)
    (decoded : Expression.decode test = .ok condition) :
    ((entries.fields .effect).forKind word).requiredNode "condition"
      (fun part _ => Expression.decode part) = .ok condition := by
  have notNull : test.isNull = false := by
    cases test with
    | null =>
      have notText (text : String) : Json.null ≠ .string text := nofun
      rw [Expression.decode_of_not_text notText] at decoded
      cases decoded
    | _ => rfl
  rw [Fields.requiredNode_eq, Fields.value?_forKind, Fields.value?_of_lookup tested notNull]
  exact Decoded.inside_eq_ok_iff.mpr decoded

end Lists

/-- An effect is not decoded if one inside it is not. -/
theorem Holds.decoded {outer part : Json} {position : Position} (holds : Holds outer position part)
    {effect : Effect} (read : decode outer = .ok effect) : ∃ inner, decode part = .ok inner := by
  cases holds with
  | consequent typed listed =>
    rw [decode_of_typed .branch typed, decodeAs] at read
    simp only [Decoded.bind_eq_ok_iff] at read
    obtain ⟨_, -, _, -, consequent, readThen, -⟩ := read
    exact exists_item_of_list listed readThen
  | alternative typed listed =>
    rw [decode_of_typed .branch typed, decodeAs] at read
    simp only [Decoded.bind_eq_ok_iff] at read
    obtain ⟨_, -, _, -, _, -, alternative, readElse, -⟩ := read
    exact exists_item_of_list listed readElse
  | step typed listed =>
    rw [decode_of_typed .sequence typed, decodeAs] at read
    simp only [Decoded.bind_eq_ok_iff] at read
    obtain ⟨_, -, effects, readEffects, -⟩ := read
    exact exists_item_of_list listed readEffects

/-- An effect fails like the first one inside it that fails. -/
theorem Reaches.failed {outer part : Json} {position : Position}
    (reaches : Reaches outer position part) {error : DecodeError}
    (failed : decode part = .error error) : decode outer = .error (error.within position) := by
  cases reaches with
  | consequent typed tested decoded listed before =>
    rw [decode_of_typed .branch typed, decodeAs]
    simp only [Decoded.bind_eq_error_iff]
    exact .inr ⟨_, required_of_written listed, .inr ⟨_, condition_of_written tested decoded,
      .inl (Record.list_eq_error_of_item listed before failed)⟩⟩
  | alternative typed tested decoded positive clear listed before =>
    obtain ⟨consequent, readThen⟩ := exists_list_of_allDecode positive clear
    rw [decode_of_typed .branch typed, decodeAs]
    simp only [Decoded.bind_eq_error_iff]
    exact .inr ⟨_, required_of_written positive, .inr ⟨_, condition_of_written tested decoded,
      .inr ⟨consequent, readThen, .inl (Record.list_eq_error_of_item listed before failed)⟩⟩⟩
  | step typed listed before =>
    rw [decode_of_typed .sequence typed, decodeAs]
    simp only [Decoded.bind_eq_error_iff]
    exact .inr ⟨_, required_of_written listed, .inl (Record.list_eq_error_of_item listed before failed)⟩

namespace Along

variable {outer part : Json} {positions : List Position}

/-- An effect is not decoded if one is not that it has inside at any depth. -/
theorem decoded (along : Along Holds outer positions part) {effect : Effect}
    (read : decode outer = .ok effect) : ∃ inner, decode part = .ok inner := by
  induction along generalizing effect with
  | here document => exact ⟨effect, read⟩
  | next head rest ih =>
    obtain ⟨middle, readMiddle⟩ := head.decoded read
    exact ih readMiddle

/-- An effect fails like the first one that fails among those that it has inside at any depth. -/
theorem failed (along : Along Reaches outer positions part) {error : DecodeError}
    (failed : decode part = .error error) :
    decode outer = .error ⟨positions ++ error.positions, error.fault⟩ := by
  induction along with
  | here document => exact failed
  | next head rest ih => exact head.failed (ih failed)

end Along

end Effect

end GameRules
