import GameRules.Proofs.Effect.Inference
import GameRules.Proofs.Lookups.Kinds
import GameRules.Proofs.RoundTrip

/-!
# Other keys and null do not matter

A decoder looks up the keys of the kind that an object names, or implies, and nothing else. So two
objects with the same under these keys are decoded to the same node, or fail alike, whatever else they
hold. Null counts as nothing, except that setting a location to null has to be written out.
-/

namespace GameRules

/-- The value that entries give under a key, where null counts as nothing. -/
def Json.givenAt? (entries : Entries Json) (key : String) : Option Json :=
  (entries.lookup key).filter fun value => !value.isNull

/-- The word that entries give as their type. -/
def Json.wordAt? (entries : Entries Json) : Option String :=
  match givenAt? entries "type" with
  | some (.string word) => some word
  | _ => none

open Json (givenAt? wordAt?)

/-- The kind of stage of a filter that a word names, by its former word too. -/
def FilterOperation.kindNamed? (word : String) : Option FilterOperationKind :=
  if word = formerKeepWord then some .keepWhere else Keyword.parse? word

namespace Effect

/-- The keys that the kind of an effect is inferred from, and then those of the inferred kind. -/
def impliedKeys (entries : Entries Json) : List String :=
  if given entries "path" then
    if written entries "value" then ["path", "value"] ++ (EffectKind.mutate .set).lookups
    else if given entries "valueExpression" then
      ["path", "value", "valueExpression"] ++ (EffectKind.mutate .setFromView).lookups
    else if given entries "transform" then
      ["path", "value", "valueExpression", "transform"] ++ (EffectKind.mutate .transform).lookups
    else ["path", "value", "valueExpression", "transform"]
  else ["path"]

/-- The keys that effects are decoded from, besides their type. -/
def keys (entries : Entries Json) : List String :=
  if untyped entries then impliedKeys entries
  else ((wordAt? entries).bind Keyword.parse?).elim [] EffectKind.lookups

end Effect

/-- The types of node that are decoded from the fields of one object. -/
inductive RecordType where
  /-- A computation. -/
  | transform
  /-- Which entities a rule is about. -/
  | selector
  /-- A stage of a view. -/
  | viewOperation
  /-- What makes a rule fire. -/
  | trigger
  /-- A stage of a filter. -/
  | filterOperation
  /-- A masking pipeline. -/
  | filter
  /-- A query. -/
  | view
  /-- A rule. -/
  | rule
  /-- A package of rules and filters. -/
  | ruleSet
  /-- What a rule does. -/
  | effect
deriving DecidableEq, Repr

namespace RecordType

/-- The type among all types of node. -/
def nodeType : RecordType → NodeType
  | transform => .transform
  | selector => .selector
  | viewOperation => .viewOperation
  | trigger => .trigger
  | filterOperation => .filterOperation
  | filter => .filter
  | view => .view
  | rule => .rule
  | ruleSet => .ruleSet
  | effect => .effect

/-- The keys that the decoder of a type looks up: the type, if there are kinds, and the keys of the
kind that the entries name or imply. -/
def keys (entries : Entries Json) : RecordType → List String
  | transform =>
    "type" :: ((wordAt? entries).bind Keyword.parse?).elim []
      (TransformKind.keys fun key => (givenAt? entries key).isSome)
  | selector => "type" :: ((wordAt? entries).bind Keyword.parse?).elim [] SelectorKind.keys
  | viewOperation => "type" :: ((wordAt? entries).bind Keyword.parse?).elim [] ViewOperationKind.keys
  | trigger => "type" :: ((wordAt? entries).bind Keyword.parse?).elim [] TriggerKind.keys
  | filterOperation =>
    "type" :: ((wordAt? entries).bind FilterOperation.kindNamed?).elim [] FilterOperationKind.keys
  | filter => Filter.keys
  | view => View.keys
  | rule => Rule.keys
  | ruleSet => RuleSet.keys
  | effect => "type" :: Effect.keys entries

end RecordType

section Agreement

variable {left right : Record} {node : NodeKind} {word key : String}

/-- Objects that give the same under a key agree on it, also once their kind is named. -/
theorem agree_of_givenAt? (same : givenAt? left key = givenAt? right key) :
    Fields.Agree ((left.fields node).forKind word) ((right.fields node).forKind word) key :=
  ⟨rfl, rfl, same⟩

/-- A word that was read is the one that is given. -/
theorem wordAt?_of_kindWord (read : (left.fields node).kindWord = .ok word) :
    wordAt? left = some word := by
  have given : givenAt? left "type" = some (.string word) := (Fields.kindWord_eq_ok_iff.mp read).1
  rw [wordAt?, given]

/-- What is decoded by its kind is decoded alike from objects that agree on their type, and on the keys
of the kind that it names, if it is once that kind is known. -/
theorem decode_congr_of_kind {α β : Type} {decode : Json → Decoded β}
    (kindOf : {whole : Json} → Fields whole → String → Decoded α)
    (decodeAs : {whole : Json} → α → Fields whole → Decoded β)
    {kindNamed? : String → Option α} {keysOf : α → List String}
    (decode_eq : ∀ document, decode document = (do
      let untyped ← Fields.of node document
      let word ← untyped.kindWord
      let kind ← kindOf untyped word
      decodeAs kind (untyped.forKind word)))
    (same : ∀ word, kindOf (left.fields node) word = kindOf (right.fields node) word)
    (found : ∀ word kind, kindOf (left.fields node) word = .ok kind → kindNamed? word = some kind)
    (decodeAs_congr : ∀ word kind,
      (∀ key ∈ keysOf kind, Fields.Agree ((left.fields node).forKind word)
        ((right.fields node).forKind word) key) →
      decodeAs kind ((left.fields node).forKind word) =
        decodeAs kind ((right.fields node).forKind word))
    (agree : ∀ key ∈ "type" :: ((wordAt? left).bind kindNamed?).elim [] keysOf,
      givenAt? left key = givenAt? right key) :
    decode (.object left) = decode (.object right) := by
  obtain ⟨type, others⟩ := List.forall_mem_cons.mp agree
  have typed : Fields.Agree (left.fields node) (right.fields node) "type" := ⟨rfl, rfl, type⟩
  let named (record : Record) (word : String) : Decoded β := do
    let kind ← kindOf (record.fields node) word
    decodeAs kind ((record.fields node).forKind word)
  rw [decode_eq, decode_eq]
  change (left.fields node).kindWord >>= named left = (right.fields node).kindWord >>= named right
  rw [← typed.kindWord]
  refine Decoded.bind_congr_of_ok fun word readWord => ?_
  dsimp only [named]
  rw [← same]
  refine Decoded.bind_congr_of_ok fun kind readKind => ?_
  refine decodeAs_congr word kind fun key member => agree_of_givenAt? (others key ?_)
  rw [wordAt?_of_kindWord readWord, Option.bind_some, found word kind readKind]
  exact member

end Agreement

/-- The kind of stage of a filter that is read is the one that the word names. -/
theorem FilterOperation.kindNamed?_of_decodeKind {whole : Json} {fields : Fields whole}
    {word : String} {kind : FilterOperationKind} (read : decodeKind fields word = .ok kind) :
    kindNamed? word = some kind := by
  unfold decodeKind at read
  unfold kindNamed?
  split at read
  · rename_i former
    rw [if_pos former]
    exact congrArg some (Except.ok.inj read)
  · rename_i current
    rw [if_neg current]
    exact Fields.kindOf_eq_ok_iff.mp read

namespace Effect

variable {left right : Record}

/-- A key is given if it gives a value. -/
theorem given_eq_isSome (entries : Entries Json) (key : String) :
    given entries key = (givenAt? entries key).isSome := by
  rw [given, givenAt?]
  cases entries.lookup key with
  | none => rfl
  | some value => cases value <;> rfl

/-- Entries that give the same under a key both give it or neither does. -/
theorem given_congr {key : String} (same : givenAt? left key = givenAt? right key) :
    given left key = given right key := by
  rw [given_eq_isSome, given_eq_isSome, same]

/-- No word is found for the kind of an object only if the object has no type. -/
theorem untyped_of_kindWord? (read : (left.fields .effect).kindWord? = .ok none) :
    untyped left = true := by
  have absent_or_empty := Fields.nonemptyString?_eq_ok_iff.mp read
  rw [Fields.value?, Record.entries_fields] at absent_or_empty
  unfold untyped
  generalize left.lookup "type" = given at absent_or_empty ⊢
  cases given with
  | none => rfl
  | some value =>
    cases value with
    | null => rfl
    | string text =>
      have empty : text = "" := by simpa [Option.filter, Json.isNull] using absent_or_empty
      rw [empty]
      rfl
    | _ => simp [Option.filter, Json.isNull] at absent_or_empty

/-- The word that is found for the kind of an object is the one that is given. -/
theorem wordAt?_of_kindWord? {word : String}
    (read : (left.fields .effect).kindWord? = .ok (some word)) : wordAt? left = some word := by
  have given : givenAt? left "type" = some (.string word) := by
    rcases Fields.nonemptyString?_eq_ok_iff.mp read with ⟨given, -⟩ | ⟨-, none⟩
    · exact given
    · cases none
  rw [wordAt?, given]

/-- Objects that agree on the key of a list agree on the list. -/
theorem ListsAgree.of_agree {whole other : Json} {left : Fields whole} {right : Fields other}
    {key : String} (agree : Fields.Agree left right key) (label : String) :
    ListsAgree left right key label :=
  ⟨fun next => by rw [agree.required], agree.list decode label⟩

/-- Objects that agree on the keys that a kind is inferred from imply the same kind. -/
theorem inferKind_congr (agree : ∀ key ∈ impliedKeys left, givenAt? left key = givenAt? right key)
    (literal : "value" ∈ impliedKeys left → left.lookup "value" = right.lookup "value") :
    inferKind (left.fields .effect) = inferKind (right.fields .effect) := by
  have mentions (entries : Record) :
      (entries.fields .effect).mentions "value" = written entries "value" := rfl
  simp only [inferKind, has_eq_given, mentions, Record.entries_fields]
  unfold impliedKeys at agree literal
  by_cases path : given left "path" = true
  · rw [if_pos path] at agree literal
    have samePath := given_congr (agree "path" (by split_ifs <;> simp))
    have sameValue : written left "value" = written right "value" :=
      congrArg Option.isSome (literal (by split_ifs <;> simp))
    rw [← samePath, ← sameValue]
    by_cases value : written left "value" = true
    · rw [if_pos value, if_pos value]
    · rw [if_neg value] at agree
      have sameExpression := given_congr (agree "valueExpression" (by split_ifs <;> simp))
      rw [← sameExpression]
      by_cases expression : given left "valueExpression" = true
      · rw [if_pos expression, if_pos expression]
      · rw [if_neg expression] at agree
        rw [← given_congr (agree "transform" (by split_ifs <;> simp))]
  · rw [if_neg path] at agree
    have samePath := given_congr (agree "path" List.mem_cons_self)
    rw [← samePath, if_neg path, if_neg path]

/-- The keys of the kind that is inferred are looked up. -/
theorem lookups_subset_impliedKeys {kind : EffectKind}
    (inferred : inferKind (left.fields .effect) = .ok kind) : kind.lookups ⊆ impliedKeys left := by
  have mentions : (left.fields .effect).mentions "value" = written left "value" := rfl
  simp only [inferKind, has_eq_given, mentions, Record.entries_fields] at inferred
  unfold impliedKeys
  split at inferred
  · rename_i path
    rw [if_pos path]
    split at inferred
    · rename_i value
      cases inferred
      rw [if_pos value]
      exact List.subset_append_right _ _
    · rename_i value
      rw [if_neg value]
      split at inferred
      · rename_i expression
        cases inferred
        rw [if_pos expression]
        exact List.subset_append_right _ _
      · rename_i expression
        rw [if_neg expression]
        split at inferred
        · rename_i computation
          cases inferred
          rw [if_pos computation]
          exact List.subset_append_right _ _
        · exact absurd inferred Decoded.fail_ne_ok
  · exact absurd inferred Decoded.fail_ne_ok

/-- The keys of the kind that is found are looked up. -/
theorem lookups_subset_keys {word : String} {kind : EffectKind}
    (found : decodeKind (left.fields .effect) = .ok (word, kind)) : kind.lookups ⊆ keys left := by
  simp only [decodeKind, Decoded.bind_eq_ok_iff] at found
  obtain ⟨given, read, found⟩ := found
  cases given with
  | none =>
    simp only [Decoded.bind_eq_ok_iff, Decoded.pure_eq_ok_iff] at found
    obtain ⟨_, inferred, same⟩ := found
    cases same
    rw [keys, if_pos (untyped_of_kindWord? read)]
    exact lookups_subset_impliedKeys inferred
  | some named =>
    simp only [Decoded.bind_eq_ok_iff, Decoded.pure_eq_ok_iff] at found
    obtain ⟨_, readKind, same⟩ := found
    cases same
    have typed : ¬untyped left = true := fun bare => by
      rw [kindWord?_of_untyped bare] at read
      cases read
    rw [keys, if_neg typed, wordAt?_of_kindWord? read, Option.bind_some,
      Fields.kindOf_eq_ok_iff.mp readKind]
    exact fun _ member => member

/-- Objects that agree on the keys that effects are decoded from are found to be of the same kind. -/
theorem decodeKind_congr (typed : givenAt? left "type" = givenAt? right "type")
    (agree : ∀ key ∈ keys left, givenAt? left key = givenAt? right key)
    (literal : "value" ∈ keys left → left.lookup "value" = right.lookup "value") :
    decodeKind (left.fields .effect) = decodeKind (right.fields .effect) := by
  have word : Fields.Agree (left.fields .effect) (right.fields .effect) "type" := ⟨rfl, rfl, typed⟩
  have same : (left.fields .effect).kindWord? = (right.fields .effect).kindWord? :=
    word.nonemptyString?
  rw [decodeKind, decodeKind, ← same]
  refine Decoded.bind_congr_of_ok fun given read => ?_
  cases given with
  | none =>
    rw [keys, if_pos (untyped_of_kindWord? read)] at agree literal
    dsimp only
    rw [inferKind_congr agree literal]
  | some named => rfl

/-- Objects that agree on the keys that effects are decoded from are decoded to the same effect, or
fail alike. -/
theorem decode_agree (typed : givenAt? left "type" = givenAt? right "type")
    (agree : ∀ key ∈ keys left, givenAt? left key = givenAt? right key)
    (literal : "value" ∈ keys left → left.lookup "value" = right.lookup "value") :
    decode (.object left) = decode (.object right) := by
  refine (decode_eq _).trans (Eq.trans ?_ (decode_eq _).symm)
  change decodeKind (left.fields .effect) >>= _ = decodeKind (right.fields .effect) >>= _
  rw [← decodeKind_congr typed agree literal]
  refine Decoded.bind_congr_of_ok ?_
  rintro ⟨word, kind⟩ found
  have looked := lookups_subset_keys found
  have agreed (key : String) (member : key ∈ kind.lookups) :
      Fields.Agree ((left.fields .effect).forKind word) ((right.fields .effect).forKind word) key :=
    agree_of_givenAt? (agree key (looked member))
  refine decodeAs_congr (fun key member => agreed key (List.mem_append_left _ member)) ?_ ?_
  · rintro rfl
    exact literal (looked (by decide))
  · intro list member
    exact .of_agree (agreed list.1 (List.mem_append_right _ (List.mem_map_of_mem member))) list.2

end Effect

namespace RecordType

variable {left right : Record}

/-- Objects that agree on the keys that a decoder looks up, where null counts as nothing, are decoded
to the same node, or fail alike, at the same place and with the same fault. For effects, null under
the key `value` counts as itself. -/
theorem decode_congr (type : RecordType)
    (agree : ∀ key ∈ type.keys left, givenAt? left key = givenAt? right key)
    (literal : type = effect → "value" ∈ type.keys left →
      left.lookup "value" = right.lookup "value") :
    type.nodeType.decode (.object left) = type.nodeType.decode (.object right) := by
  cases type with
  | transform =>
    exact decode_congr_of_kind Fields.kindOf Transform.decodeAs Transform.decode_eq (fun _ => rfl)
      (fun _ _ => Fields.kindOf_eq_ok_iff.mp) (fun _ _ => fun agreed => Transform.decodeAs_congr agreed)
      agree
  | selector =>
    exact decode_congr_of_kind Fields.kindOf Selector.decodeAs Selector.decode_eq (fun _ => rfl)
      (fun _ _ => Fields.kindOf_eq_ok_iff.mp) (fun _ _ => Selector.decodeAs_congr) agree
  | viewOperation =>
    exact decode_congr_of_kind Fields.kindOf ViewOperation.decodeAs ViewOperation.decode_eq
      (fun _ => rfl) (fun _ _ => Fields.kindOf_eq_ok_iff.mp)
      (fun _ _ => ViewOperation.decodeAs_congr) agree
  | trigger =>
    exact decode_congr_of_kind Fields.kindOf Trigger.decodeAs Trigger.decode_eq (fun _ => rfl)
      (fun _ _ => Fields.kindOf_eq_ok_iff.mp) (fun _ _ => Trigger.decodeAs_congr) agree
  | filterOperation =>
    exact decode_congr_of_kind FilterOperation.decodeKind FilterOperation.decodeAs
      FilterOperation.decode_eq (fun _ => rfl)
      (fun _ _ => FilterOperation.kindNamed?_of_decodeKind)
      (fun _ _ => FilterOperation.decodeAs_congr) agree
  | filter => exact Filter.decodeFields_congr fun key member => agree_of_givenAt? (agree key member)
  | view => exact View.decodeFields_congr fun key member => agree_of_givenAt? (agree key member)
  | rule => exact Rule.decodeFields_congr fun key member => agree_of_givenAt? (agree key member)
  | ruleSet => exact RuleSet.decodeFields_congr fun key member => agree_of_givenAt? (agree key member)
  | effect =>
    obtain ⟨typed, agree⟩ := List.forall_mem_cons.mp agree
    exact Effect.decode_agree typed agree fun member =>
      literal rfl (List.mem_cons_of_mem _ member)

/-- The entries of an effect that raises the alarm. -/
def alarmEntries : Entries Json := [("path", .string "$.alarm"), ("value", .string "$.danger")]

/-- The entries of an effect that raises the alarm, with a note and with targets that are null. -/
def notedAlarmEntries : Entries Json :=
  [("note", .int 1), ("path", .string "$.alarm"), ("targets", .null), ("value", .string "$.danger")]

/-- A note beside an effect, and targets that are null, do not matter. -/
theorem decode_congr_noted :
    (∀ key ∈ effect.keys alarmEntries,
        givenAt? alarmEntries key = givenAt? notedAlarmEntries key) ∧
      Effect.decode (.object alarmEntries) = Effect.decode (.object notedAlarmEntries) := by
  have looked : effect.keys alarmEntries = ["type", "path", "value", "targets", "path", "value"] := by
    decide
  have agree : ∀ key ∈ effect.keys alarmEntries,
      givenAt? alarmEntries key = givenAt? notedAlarmEntries key := by
    simp only [looked, List.forall_mem_cons]
    exact ⟨rfl, rfl, rfl, rfl, rfl, rfl, nofun⟩
  exact ⟨agree, decode_congr effect agree fun _ _ => rfl⟩

end RecordType

end GameRules
