import GameRules.Proofs.Effect.Inside
import GameRules.Proofs.Entries

/-!
# Effects whose kind is left out

The kind of an effect may be left out where the keys of its document imply it. Writing the implied
kind out, in a document and in all effects inside it, changes neither the effect nor the error that
the document is decoded to. An effect whose kind is left out and not implied is refused.
-/

namespace GameRules.Effect

/-- Whether a key is there with a value that is not null. -/
def given (entries : Entries Json) (key : String) : Bool :=
  (entries.lookup key).any fun value => !value.isNull

/-- Whether a key is there, be it with null. -/
def written (entries : Entries Json) (key : String) : Bool := (entries.lookup key).isSome

/-- Whether an object has no type: none at all, null or an empty text. -/
def untyped (entries : Entries Json) : Bool :=
  match entries.lookup "type" with
  | none | some .null | some (.string "") => true
  | _ => false

/-- The type that the keys of an object without one imply. -/
def impliedType? (entries : Entries Json) : Option String :=
  if given entries "path" && written entries "value" then some "Set"
  else if given entries "path" && given entries "valueExpression" then some "SetFromView"
  else if given entries "path" && given entries "transform" then some "Transform"
  else none

/-- An object with the type that its keys imply, if they imply one. -/
def withImpliedType (entries : Entries Json) : Entries Json :=
  match impliedType? entries with
  | some word => entries.insert "type" (.string word)
  | none => entries

/-- The keys under which an object of a type has lists of effects. -/
def listKeys (entries : Entries Json) : List String :=
  match entries.lookup "type" with
  | some (.string "If") => ["then", "else"]
  | some (.string "Sequence") => ["effects"]
  | _ => []

mutual

/-- The document of an effect with the types written out that are implied, in it and in all effects
inside it. -/
def tag : Json → Json
  | .object entries =>
    if untyped entries then .object (withImpliedType entries)
    else .object (tagEntries (listKeys entries) entries)
  | other => other

/-- A list of effects with the implied types written out. -/
def tagList : Json → Json
  | .array items => .array (tagItems items)
  | other => other

/-- The items of a list of effects with the implied types written out. -/
def tagItems : List Json → List Json
  | [] => []
  | item :: items => tag item :: tagItems items

/-- The entries of an effect with the implied types written out under some keys. -/
def tagEntries (keys : List String) : List (String × Json) → List (String × Json)
  | [] => []
  | (key, value) :: entries =>
    (key, if key ∈ keys then tagList value else value) :: tagEntries keys entries

end

/-- The items of a list are tagged one by one. -/
theorem tagItems_eq_map (items : List Json) : tagItems items = items.map tag := by
  induction items with
  | nil => rfl
  | cons item items ih => rw [tagItems, ih, List.map_cons]

/-- Tagging changes what is found under the keys of lists of effects. -/
theorem lookup_tagEntries (keys : List String) (entries : Entries Json) (key : String) :
    (tagEntries keys entries).lookup key =
      if key ∈ keys then (entries.lookup key).map tagList else entries.lookup key := by
  induction entries with
  | nil => simp [tagEntries]
  | cons entry entries ih =>
    obtain ⟨other, value⟩ := entry
    rw [tagEntries, List.lookup_cons, List.lookup_cons]
    by_cases same : key = other
    · subst same
      by_cases listed : key ∈ keys <;> simp [listed]
    · rw [beq_eq_false_iff_ne.mpr same]
      exact ih

/-- Without keys there is nothing to tag. -/
theorem tagEntries_nil (entries : Entries Json) : tagEntries [] entries = entries := by
  induction entries with
  | nil => rfl
  | cons entry entries ih =>
    rw [tagEntries, ih]
    rfl

section Fields

variable {whole : Json} {fields : Fields whole}

/-- A key is given to decoders if it is there with a value that is not null. -/
theorem has_eq_given (key : String) : fields.has key = given fields.entries key := by
  rw [Fields.has, Fields.value?, given]
  cases fields.entries.lookup key with
  | none => rfl
  | some value => cases value <;> rfl

/-- No word is found for the kind of an object without a type. -/
theorem kindWord?_of_untyped (bare : untyped fields.entries = true) :
    fields.kindWord? = .ok none := by
  have absent_or_empty :
      fields.value? "type" = none ∨ fields.value? "type" = some (.string "") := by
    unfold untyped at bare
    rw [Fields.value?]
    split at bare
    · rename_i absent
      rw [absent]
      exact .inl rfl
    · rename_i null
      rw [null]
      exact .inl rfl
    · rename_i empty
      rw [empty]
      exact .inr rfl
    · cases bare
  apply Fields.nonemptyString?_eq_ok_iff.mpr
  rcases absent_or_empty with absent | empty
  · exact .inl ⟨absent, (Option.some_ne_none "").symm⟩
  · exact .inr ⟨empty, rfl⟩

/-- The kind that is inferred is the one whose word is implied; if none is implied, none is inferred. -/
theorem inferKind_cases (fields : Fields whole) :
    (impliedType? fields.entries = none ∧
      inferKind fields = Decoded.fail (.missingType .effect)) ∨
    ∃ change : ChangeKind, impliedType? fields.entries = some (Keyword.word change) ∧
      inferKind fields = .ok (.mutate change) := by
  have mentioned : fields.mentions "value" = written fields.entries "value" := rfl
  unfold impliedType? inferKind
  rw [mentioned, has_eq_given, has_eq_given, has_eq_given]
  by_cases path : given fields.entries "path" = true
  · by_cases value : written fields.entries "value" = true
    · exact .inr ⟨.set, by simp [path, value, Keyword.word], by simp [path, value]⟩
    · by_cases expression : given fields.entries "valueExpression" = true
      · exact .inr ⟨.setFromView, by simp [path, value, expression, Keyword.word],
          by simp [path, value, expression]⟩
      · by_cases computation : given fields.entries "transform" = true
        · exact .inr ⟨.transform, by simp [path, value, expression, computation, Keyword.word],
            by simp [path, value, expression, computation]⟩
        · exact .inl ⟨by simp [value, expression, computation],
            by simp [path, value, expression, computation]⟩
  · exact .inl ⟨by simp [path], by simp [path]⟩

/-- The kind of an object without a type is the one that its keys imply. -/
theorem decodeKind_of_untyped (bare : untyped fields.entries = true) {kind : EffectKind}
    (inferred : inferKind fields = .ok kind) :
    decodeKind fields = .ok (Keyword.word kind, kind) := by
  rw [decodeKind, kindWord?_of_untyped bare]
  change (inferKind fields >>= _) = _
  rw [inferred]
  rfl

/-- No kind is found for an object without a type whose keys imply none. -/
theorem decodeKind_of_unimplied (bare : untyped fields.entries = true)
    (unimplied : impliedType? fields.entries = none) :
    decodeKind fields = Decoded.fail (.missingType .effect) := by
  rw [decodeKind, kindWord?_of_untyped bare]
  change (inferKind fields >>= _) = _
  rcases inferKind_cases fields with ⟨-, refused⟩ | ⟨change, implied, -⟩
  · rw [refused]
    rfl
  · rw [unimplied] at implied
    cases implied

end Fields

section Tagging

variable {entries left right : Record} {key label word : String}

/-- Objects with the same under a key agree on it. -/
theorem agree_of_lookup (same : left.lookup key = right.lookup key) :
    Fields.Agree ((left.fields .effect).forKind word) ((right.fields .effect).forKind word) key where
  node := rfl
  kind := rfl
  value := by
    rw [Fields.value?_forKind, Fields.value?_forKind, Fields.value?, Fields.value?]
    exact congrArg _ same

/-- Tagging a list keeps it there, and keeps what it is decoded to if that holds of its items. -/
theorem listsAgree_of_tagged (tagged : left.lookup key = (right.lookup key).map tagList)
    (inside : ∀ items, right.lookup key = some (.array items) →
      ∀ item ∈ items, decode (tag item) = decode item) :
    ListsAgree ((left.fields .effect).forKind word) ((right.fields .effect).forKind word) key
      label := by
  have notNull : (fun value : Json => !value.isNull) ∘ tagList = fun value => !value.isNull := by
    funext value
    cases value <;> rfl
  have value : ((left.fields .effect).forKind word).value? key =
      (((right.fields .effect).forKind word).value? key).map tagList := by
    rw [Fields.value?, Fields.value?]
    change (left.lookup key).filter _ = ((right.lookup key).filter _).map tagList
    rw [tagged, Option.filter_map, notNull]
  constructor
  · intro next
    rw [Fields.required, Fields.required, value]
    cases ((right.fields .effect).forKind word).value? key <;> rfl
  · rw [Fields.list_eq, Fields.list_eq, value]
    cases there : ((right.fields .effect).forKind word).value? key with
    | none => rfl
    | some document =>
      cases document with
      | array items =>
        have listed : right.lookup key = some (.array items) :=
          (Fields.lookup_of_value? there)
        rw [Option.map_some, tagList, tagItems_eq_map]
        exact decodeItems_map (inside items listed)
      | _ => rfl

/-- Writing the implied type out does not change what an object without a type is decoded to. -/
theorem decode_withImpliedType (bare : untyped entries = true) :
    decode (.object (withImpliedType entries)) = decode (.object entries) := by
  rcases inferKind_cases (entries.fields .effect) with ⟨none, -⟩ | ⟨change, implied, inferred⟩
  · have same : withImpliedType entries = entries := by
      rw [withImpliedType, show impliedType? entries = _ from none]
    rw [same]
  · have tagged : withImpliedType entries =
        entries.insert "type" (.string (Keyword.word change)) := by
      rw [withImpliedType, show impliedType? entries = _ from implied]
    have explicit : (withImpliedType entries).lookup "type" =
        some (.string (Keyword.word (EffectKind.mutate change))) := by
      rw [tagged]
      exact Entries.lookup_insert_self _ _ _
    have kept {key : String} (different : key ≠ "type") :
        (withImpliedType entries).lookup key = entries.lookup key := by
      rw [tagged]
      exact Entries.lookup_insert_of_ne _ _ different
    rw [decode_of_typed (.mutate change) explicit,
      decode_of_kind (decodeKind_of_untyped bare inferred)]
    apply decodeAs_congr
    · intro key read
      have different : key ≠ "type" := by
        rintro rfl
        exact EffectKind.type_notMem_keys _ read
      exact agree_of_lookup (kept different)
    · intro _
      exact kept (by decide)
    · intro list listed
      cases listed

/-- Writing implied types out inside an object with a type does not change what it is decoded to if
that holds of the effects inside it. -/
theorem decode_tagEntries (kind : EffectKind)
    (typed : entries.lookup "type" = some (.string (Keyword.word kind)))
    (inside : ∀ key items, entries.lookup key = some (.array items) →
      ∀ item ∈ items, decode (tag item) = decode item) :
    decode (.object (tagEntries (kind.lists.map Prod.fst) entries)) = decode (.object entries) := by
  have kept {key : String} (unlisted : key ∉ kind.lists.map Prod.fst) :
      (tagEntries (kind.lists.map Prod.fst) entries).lookup key = entries.lookup key := by
    rw [lookup_tagEntries, if_neg unlisted]
  have untouched := kept kind.type_notMem_lists
  rw [decode_of_typed kind typed, decode_of_typed kind (untouched.trans typed)]
  apply decodeAs_congr
  · intro key read
    exact agree_of_lookup (kept (kind.notMem_lists read))
  · intro set
    subst set
    exact kept (by decide)
  · intro list listed
    refine listsAgree_of_tagged ?_ (inside list.1)
    rw [lookup_tagEntries, if_pos (List.mem_map_of_mem listed)]

/-- An object without a type is refused if its keys imply none, so that it is not tagged. -/
theorem decode_of_unchanged (bare : untyped entries = true)
    (unchanged : tag (.object entries) = .object entries) :
    decode (.object entries) = Decoded.fail (.missingType .effect) := by
  have kept : withImpliedType entries = entries := by
    rw [tag, if_pos bare] at unchanged
    exact Json.object.inj unchanged
  have unimplied : impliedType? entries = none := by
    rcases inferKind_cases (entries.fields .effect) with ⟨none, -⟩ | ⟨change, implied, -⟩
    · exact none
    · -- The type would be there, and it is not empty.
      have implied : impliedType? entries = some (Keyword.word change) := implied
      rw [withImpliedType, implied] at kept
      have typed : entries.lookup "type" = some (.string (Keyword.word change)) := by
        rw [← kept]
        exact Entries.lookup_insert_self _ _ _
      rw [untyped, typed] at bare
      cases change <;> cases bare
  rw [decode_eq]
  change decodeKind (entries.fields .effect) >>= _ = _
  rw [decodeKind_of_unimplied bare unimplied]
  rfl

/-- Writing implied types out in an object does not change what it is decoded to if that holds of the
effects inside it. -/
theorem decode_tag_object (inside : ∀ key items, entries.lookup key = some (.array items) →
      ∀ item ∈ items, decode (tag item) = decode item) :
    decode (tag (.object entries)) = decode (.object entries) := by
  rw [tag]
  split
  · rename_i bare
    exact decode_withImpliedType bare
  · unfold listKeys
    split
    · rename_i typed
      exact decode_tagEntries .branch typed inside
    · rename_i typed
      exact decode_tagEntries .sequence typed inside
    · rw [tagEntries_nil]

end Tagging

/-- Leaving out the kind of an effect is an abbreviation at every depth. Writing out the types that are
implied, in a document and in all effects inside it, changes neither the effect nor the error. An
object without a type that stays as it is then is refused. So is every effect that has it inside, and
the error is that of the missing type at its position if all that comes before it is decoded. -/
theorem decode_tag (document : Json) :
    decode (tag document) = decode document ∧
      ∀ entries, untyped entries = true → tag (.object entries) = .object entries →
        decode (.object entries) = Decoded.fail (.missingType .effect) ∧
        (∀ positions, Along Holds document positions (.object entries) →
          ∃ error, decode document = .error error) ∧
        ∀ positions, Along Reaches document positions (.object entries) →
          decode document = .error ⟨positions, .missingType .effect⟩ := by
  constructor
  · induction bound : sizeOf document using Nat.strongRecOn generalizing document with
    | _ size ih =>
      cases document with
      | object entries =>
        apply decode_tag_object
        intro key items listed item member
        have smaller : sizeOf item < sizeOf (Json.object entries) :=
          Nat.lt_trans (Json.sizeOf_lt_array member)
            (Json.sizeOf_lt_object (Entries.mem_of_lookup listed))
        exact ih (sizeOf item) (bound ▸ smaller) item rfl
      | _ => rfl
  · intro entries bare unchanged
    have refused := decode_of_unchanged bare unchanged
    refine ⟨refused, fun positions along => ?_, fun positions along => ?_⟩
    · cases read : decode document with
      | error error => exact ⟨error, rfl⟩
      | ok effect =>
        obtain ⟨inner, decoded⟩ := along.decoded read
        rw [refused] at decoded
        cases decoded
    · rw [along.failed refused]
      exact congrArg _ (congrArg (DecodeError.mk · _) (List.append_nil positions))

example : tag (.object [("effects", .array [.object [("path", .string "$.a"), ("value", .null)],
      .object [("path", .string "$.b"), ("type", .null)], .int 1]), ("type", .string "Sequence")]) =
    .object [("effects", .array [.object [("path", .string "$.a"), ("type", .string "Set"),
      ("value", .null)], .object [("path", .string "$.b"), ("type", .null)], .int 1]),
      ("type", .string "Sequence")] := by
  rfl

/-- A location that is set to null does not need a type; one that nothing is said about is refused at
its position, behind the first. -/
theorem decode_tag_alarm :
    decode (tag (.object [("path", .string "$.door"), ("value", .null)])) =
        .ok (.mutate none ⟨"$.door"⟩ (.set (.literal .null))) ∧
      decode (.object [("condition", .string "$.alarm"), ("then", .array
        [.object [("path", .string "$.door"), ("value", .null)], .object [("path", .string "$.lamp")]]),
        ("type", .string "If")]) = .error ⟨[.item "then effect" 1], .missingType .effect⟩ := by
  have door : decode (.object [("path", .string "$.door"), ("value", .null)]) =
      .ok (.mutate none ⟨"$.door"⟩ (.set (.literal .null))) := by
    have inferred : decodeKind (Record.fields [("path", .string "$.door"), ("value", .null)] .effect) =
        .ok (Keyword.word (EffectKind.mutate .set), .mutate .set) := decodeKind_of_untyped rfl rfl
    rw [decode_of_kind inferred]
    rfl
  have alarm : Expression.decode (.string "$.alarm") = .ok (.truthy (.path ⟨"$.alarm"⟩)) := by
    rw [Expression.decode, if_neg (by decide)]
  have before : AllDecode [.object [("path", .string "$.door"), ("value", .null)]] :=
    List.forall_mem_singleton.mpr ⟨_, door⟩
  have tagged := (decode_tag (.object [("path", .string "$.door"), ("value", .null)])).1
  have positioned := fun document =>
    ((decode_tag document).2 [("path", .string "$.lamp")] rfl rfl).2.2
  exact ⟨tagged.trans door, positioned _ _ (.next (.consequent rfl rfl alarm rfl before) (.here _))⟩

end GameRules.Effect
