import GameRules.Proofs.Cache.Integrity
import GameRules.Proofs.Json.Limit
import GameRules.Proofs.Nesting.Rule

/-!
# Whether a rule set can be read again

A rule set is written as its canonical document, on its own and in a cache. The reader goes 127 levels
deep, and the canonical document may be two levels deeper than the one that the rule set was read from.
So what was read from at most 125 levels is read again, but what was read from more levels need not be:
two comparisons in the short form, below enough negations, are accepted, saved, and then refused.
-/

namespace GameRules

namespace RuleSet

/-- A rule set is read back from its own text if its document is nested no deeper than the reader
goes, and refused otherwise. -/
theorem read?_toText {set : RuleSet} (proper : ∀ part ∈ set.encode.subdocuments, part.Proper) :
    Json.read? set.toText = if set.encode.nesting ≤ 127 then some set.encode.reread else none :=
  Json.readNested?_render proper 127

/-- The text of a rule set is refused as no document exactly if its document is nested deeper than the
reader goes. -/
theorem ofText_toText_eq_notJson_iff {set : RuleSet}
    (proper : ∀ part ∈ set.encode.subdocuments, part.Proper) :
    ofText set.toText = .error .notJson ↔ 127 < set.encode.nesting := by
  rw [ofText, read?_toText proper]
  by_cases shallow : set.encode.nesting ≤ 127
  · rw [if_pos shallow]
    refine iff_of_false ?_ (Nat.not_lt.mpr shallow)
    cases decoded : decode set.encode.reread with
    | error error => simp [decoded, Except.mapError]
    | ok again => simp [decoded, Except.mapError]
  · rw [if_neg shallow]
    exact iff_of_true rfl (Nat.lt_of_not_le shallow)

/-- The canonical document of a rule set that was read from a text is sound two levels deeper than the
text. -/
theorem sound_encode_of_ofText {text : String} {set : RuleSet} (loaded : ofText text = .ok set) :
    ∃ document, Json.read? text = some document ∧ set.encode.Sound (document.nesting + 2) := by
  obtain ⟨document, read, decoded⟩ := ofText_eq_ok_iff.mp loaded
  have sound : document.Sound document.nesting := ⟨le_rfl, (Json.sound_of_read? read).proper⟩
  exact ⟨document, read, NodeType.sound_encode .ruleSet sound decoded⟩

end RuleSet

namespace Cache

variable {hash : Hash} {set : RuleSet}

/-- What a payload is checked for is no matter of its document. -/
theorem check_ne_notJson (summary : Summary) (set : RuleSet) :
    check summary set ≠ .error (.invalid .notJson) := by
  unfold check
  split
  · nofun
  · split
    · nofun
    · split
      · nofun
      · nofun

/-- A payload is refused for its document exactly if the text in it is not read as one. -/
theorem decodePayload_eq_notJson_iff {payload : Payload} :
    decodePayload payload = .error (.invalid .notJson) ↔
      RuleSet.ofText payload.document = .error .notJson := by
  unfold decodePayload
  split
  · rename_i refused
    exact iff_of_true rfl refused
  · rename_i refused
    rw [refused]
    exact iff_of_false nofun nofun
  · rename_i set accepted
    rw [accepted]
    exact iff_of_false (check_ne_notJson _ set) nofun

/-- What is saved for a rule set is refused for its document exactly if that is nested deeper than the
reader goes. -/
theorem loadWith_eq_notJson_iff {source : Option String} {bytes : List UInt8}
    (saved : saveWith hash set source = .ok bytes)
    (proper : ∀ part ∈ set.encode.subdocuments, part.Proper) :
    loadWith hash bytes = .error (.invalid .notJson) ↔ 127 < set.encode.nesting := by
  obtain ⟨header, stored, -⟩ := readPayload_of_saveWith saved
  simp only [loadWith, stored, bind, Except.bind]
  rw [decodePayload_eq_notJson_iff]
  exact RuleSet.ofText_toText_eq_notJson_iff proper

end Cache

/-- The canonical document of a rule set that was read from a text is at most two levels deeper than
the text. It is read back from its own text, up to what its fractional numbers are read as, if it is
nested no deeper than the reader goes, thus if the text was nested two levels less deep than that; it
is refused if it is nested deeper. What is saved for the rule set is refused for its document in that
case only. -/
theorem RuleSet.reread_of_ofText {text : String} {set : RuleSet} (loaded : ofText text = .ok set) :
    ∃ document, Json.read? text = some document ∧ set.encode.nesting ≤ document.nesting + 2 ∧
      (document.nesting ≤ 125 → Json.read? set.toText = some set.encode.reread) ∧
      (Json.read? set.toText = if set.encode.nesting ≤ 127 then some set.encode.reread else none) ∧
      ((∀ number ∈ set.encode.fractions,
        Json.read? (Json.float number).render = some (.float number)) →
          set.encode.reread = set.encode) ∧
      ∀ (hash : Cache.Hash) (source : Option String) (bytes : List UInt8),
        Cache.saveWith hash set source = .ok bytes →
          (Cache.loadWith hash bytes = .error (.invalid .notJson) ↔ 127 < set.encode.nesting) := by
  obtain ⟨document, read, sound⟩ := sound_encode_of_ofText loaded
  have again := read?_toText sound.proper
  refine ⟨document, read, sound.shallow, fun shallow => ?_, again, Json.reread_of_fractions,
    fun hash source bytes saved => Cache.loadWith_eq_notJson_iff saved sound.proper⟩
  have deeper := sound.shallow
  rw [again, if_pos (by omega)]

namespace Json

/-- A condition with this many negations around it. -/
def negated (condition : Json) : Nat → Json
  | 0 => condition
  | count + 1 => .object [("not", condition.negated count)]

/-- Each negation is a level. -/
theorem nesting_negated (condition : Json) (count : Nat) :
    (condition.negated count).nesting = condition.nesting + count := by
  induction count with
  | zero => rfl
  | succ count ih =>
    rw [negated, nesting, nestingOfEntries, nestingOfEntries, Nat.max_zero, ih]
    rfl

/-- An object with ascending keys is sound if its values are. -/
theorem sound_object_of_keys {entries : Entries Json} {depth : Nat}
    (ascending : (entries.map Prod.fst).Pairwise (· < ·))
    (sound : ∀ entry ∈ entries, entry.2.Sound depth) : (object entries).Sound (depth + 1) :=
  sound_object (List.pairwise_map.mp ascending) sound

/-- Negations of a condition are sound as many levels deeper. -/
theorem sound_negated {condition : Json} {depth : Nat} (sound : condition.Sound depth) (count : Nat) :
    (condition.negated count).Sound (depth + count) := by
  induction count with
  | zero => exact sound
  | succ count ih => exact sound_object (List.pairwise_singleton _ _) (by simpa using ih)

/-- Negations are read back around what they negate. -/
theorem reread_negated (condition : Json) (count : Nat) :
    (condition.negated count).reread = condition.reread.negated count := by
  induction count with
  | zero => rfl
  | succ count ih =>
    rw [negated, reread, rereadEntries, ih]
    rfl

/-- Each negation is eight characters. -/
theorem length_render_negated (condition : Json) (count : Nat) :
    (condition.negated count).render.toList.length =
      condition.render.toList.length + 8 * count := by
  induction count with
  | zero => rfl
  | succ count ih =>
    have key : (quote "not").toList.length = 5 := by decide +kernel
    rw [negated, render_object, renderEntries_singleton, renderEntry, List.length_cons,
      List.length_append, List.length_append, List.length_cons, ih, key]
    show _ + 1 + 1 = _
    omega

end Json

namespace WhereClause

/-- The opposite of the opposite, and so on, of a condition. -/
def negated (clause : WhereClause) : Nat → WhereClause
  | 0 => clause
  | count + 1 => .not (clause.negated count)

/-- Negations are written around what they negate. -/
theorem encode_negated (clause : WhereClause) (count : Nat) :
    (clause.negated count).encode = clause.encode.negated count := by
  induction count with
  | zero => rfl
  | succ count ih =>
    rw [negated, encode, ih]
    rfl

/-- Whatever is read as a condition fills a field. -/
theorem fills_of_decode {document : Json} {clause : WhereClause}
    (decoded : decode document = .ok clause) : Fills decode document clause := by
  refine ⟨?_, decoded⟩
  cases document with
  | null =>
    rw [decode_eq] at decoded
    cases decoded
  | _ => rfl

/-- Negations are read around what they negate. -/
theorem decode_negated {document : Json} {clause : WhereClause}
    (decoded : decode document = .ok clause) (count : Nat) :
    decode (document.negated count) = .ok (clause.negated count) := by
  induction count with
  | zero => exact decoded
  | succ count ih =>
    have fills := fills_of_decode ih
    show decode (Record.empty.field "not" (document.negated count)).build = _
    refine decode_build (Fields.isStrictClause_of_has (by simp) ?_)
      (.not_of_lookup fills (by simp) (by simp) (by simp))
    exact (congrArg _ (fills.has (by simp))).trans (Bool.or_true _)

end WhereClause

namespace RuleSet

/-- The document of a fog of war: its only filter keeps the drones that satisfy a condition. -/
def fogDocument (condition : Json) : Json :=
  .object [("filters", .array [.object [("name", .string "fog"), ("operations", .array [.object
    [("target", .string "$.Drones"), ("type", .string "KeepWhere"), ("where", condition)]])]]),
    ("rules", .array [])]

/-- A fog of war: its only filter keeps the drones that satisfy a condition. -/
def fog (condition : WhereClause) : RuleSet :=
  ⟨none, none, [], [], [⟨"fog", none, none, [⟨⟨"$.Drones"⟩, some condition, .keep⟩]⟩]⟩

/-- The condition is five levels deep in the document. -/
theorem nesting_fogDocument (condition : Json) :
    (fogDocument condition).nesting = condition.nesting + 5 := by
  simp [fogDocument, Json.nesting, Json.nestingOfItems, Json.nestingOfEntries]

/-- The canonical document of a fog of war has that of its condition in it. -/
theorem encode_fog (condition : WhereClause) :
    (fog condition).encode = fogDocument condition.encode := rfl

/-- The document is sound five levels deeper than its condition. -/
theorem sound_fogDocument {condition : Json} {depth : Nat} (sound : condition.Sound depth) :
    (fogDocument condition).Sound (depth + 5) := by
  have operation : (Json.object [("target", .string "$.Drones"), ("type", .string "KeepWhere"),
      ("where", condition)]).Sound (depth + 1) := by
    have keys : ["target", "type", "where"].Pairwise (· < ·) := by decide
    exact Json.sound_object_of_keys keys (by simp [Json.sound_string, sound])
  have filter : (Json.object [("name", .string "fog"), ("operations", .array [.object
      [("target", .string "$.Drones"), ("type", .string "KeepWhere"),
        ("where", condition)]])]).Sound (depth + 3) := by
    have keys : ["name", "operations"].Pairwise (· < ·) := by decide
    have operations := Json.sound_array (List.forall_mem_singleton.mpr operation)
    exact Json.sound_object_of_keys keys (by simpa [Json.sound_string] using operations)
  have keys : ["filters", "rules"].Pairwise (· < ·) := by decide
  have filters := Json.sound_array (List.forall_mem_singleton.mpr filter)
  have rules : (Json.array []).Sound (depth + 4) := Json.sound_array (List.forall_mem_nil _)
  exact Json.sound_object_of_keys keys (by simpa [rules] using filters)

/-- The text of the document is that of the condition with 104 characters around it. -/
theorem length_render_fogDocument (condition : Json) :
    (fogDocument condition).render.toList.length = condition.render.toList.length + 104 := by
  have replaced : (fogDocument condition).render.toList.length + Json.null.render.toList.length =
      condition.render.toList.length + (fogDocument .null).render.toList.length := by
    simp only [fogDocument, Json.render_object, Json.renderEntries_cons_cons,
      Json.renderEntries_singleton, Json.renderEntry, Json.render_array, Json.renderItems_singleton,
      List.length_append, List.length_cons]
    omega
  have null : Json.null.render.toList.length = 4 := by decide +kernel
  have around : (fogDocument .null).render.toList.length = 108 := by decide +kernel
  omega

/-- The document is read as the rule set if its condition is. -/
theorem decode_fogDocument {document : Json} {condition : WhereClause}
    (decoded : WhereClause.decode document = .ok condition) :
    decode (fogDocument document) = .ok (fog condition) := by
  have fills := WhereClause.fills_of_decode decoded
  have operation : FilterOperation.decode (.object [("target", .string "$.Drones"),
      ("type", .string "KeepWhere"), ("where", document)]) =
        .ok ⟨⟨"$.Drones"⟩, some condition, .keep⟩ := by
    simp only [FilterOperation.decode, Decoded.bind_eq_ok_iff, Decoded.pure_eq_ok_iff]
    exact ⟨_, rfl, _, rfl, _, rfl, _, rfl, _, rfl, _, fills.present rfl, rfl⟩
  have filter : Filter.decode (.object [("name", .string "fog"), ("operations", .array [.object
      [("target", .string "$.Drones"), ("type", .string "KeepWhere"), ("where", document)]])]) =
        .ok ⟨"fog", none, none, [⟨⟨"$.Drones"⟩, some condition, .keep⟩]⟩ := by
    simp only [Filter.decode, Decoded.bind_eq_ok_iff, Decoded.pure_eq_ok_iff,
      Decoded.inside_eq_ok_iff]
    exact ⟨_, rfl, _, rfl, _, rfl, _, rfl, _,
      Fields.list_eq_ok_iff.mpr (.inr ⟨_, rfl, .cons operation .nil⟩), rfl⟩
  simp only [decode, Decoded.bind_eq_ok_iff, Decoded.pure_eq_ok_iff]
  exact ⟨_, rfl, _, rfl, _, rfl, _, rfl, _, rfl, _,
    Fields.list_eq_ok_iff.mpr (.inr ⟨_, rfl, .cons filter .nil⟩), rfl⟩

/-- Two comparisons in the short form. -/
def hiddenTeam : Json := .object [("hidden", .bool true), ("team", .int 1)]

/-- The comparisons that the short form stands for. -/
def hiddenTeamClause : WhereClause :=
  .all [.compare "hidden" .equal (some (.literal (.bool true))),
    .compare "team" .equal (some (.literal (.int 1)))]

/-- The short form stands for the comparisons. -/
theorem decode_hiddenTeam : WhereClause.decode hiddenTeam = .ok hiddenTeamClause := by
  have hidden : Operand.decode (.bool true) = .ok (.literal (.bool true)) :=
    Json.IsConstant.decode ⟨rfl, nofun⟩
  have team : Operand.decode (.int 1) = .ok (.literal (.int 1)) :=
    Json.IsConstant.decode ⟨rfl, nofun⟩
  rw [WhereClause.decode_eq]
  show WhereClause.decodeShorthand [("hidden", .bool true), ("team", .int 1)] = _
  simp only [WhereClause.decodeShorthand, WhereClause.shorthandEntries, WhereClause.shorthandEntry,
    WhereClause.shorthandValue, hidden, team]
  rfl

/-- A fog of war with this many negations around the comparisons. -/
def negatedFog (count : Nat) : RuleSet := fog (hiddenTeamClause.negated count)

/-- The document of a fog of war with this many negations around the short form. -/
def negatedFogDocument (count : Nat) : Json := fogDocument (hiddenTeam.negated count)

/-- The text with the short form below no more than 121 negations is read. -/
theorem read?_negatedFogDocument {count : Nat} (few : count ≤ 121) :
    Json.read? (negatedFogDocument count).render = some (negatedFogDocument count) := by
  have condition : hiddenTeam.Sound 1 := ⟨by decide +kernel, by decide +kernel⟩
  have shallow : 1 + count + 5 ≤ 127 := by omega
  have sound := (sound_fogDocument (Json.sound_negated condition count)).mono shallow
  have kept : (negatedFogDocument count).reread = negatedFogDocument count :=
    congrArg fogDocument (Json.reread_negated hiddenTeam count)
  exact (Json.readNested?_render_of_sound sound).trans (congrArg some kept)

/-- It is read as the comparisons below as many negations. -/
theorem ofText_negatedFogDocument {count : Nat} (few : count ≤ 121) :
    ofText (negatedFogDocument count).render = .ok (negatedFog count) := by
  have condition := WhereClause.decode_negated decode_hiddenTeam count
  exact ofText_eq_ok_iff.mpr ⟨_, read?_negatedFogDocument few, decode_fogDocument condition⟩

/-- The comparisons are three levels deep, inside the negations and the five levels of the fog. -/
theorem nesting_negatedFog (count : Nat) : (negatedFog count).encode.nesting = count + 8 := by
  have comparisons : hiddenTeamClause.encode.nesting = 3 := by decide +kernel
  rw [negatedFog, encode_fog, WhereClause.encode_negated, nesting_fogDocument, Json.nesting_negated]
  omega

/-- The canonical document of the negated fog has no fractional numbers, so it is read back as itself. -/
theorem reread_encode_negatedFog (count : Nat) :
    (negatedFog count).encode.reread = (negatedFog count).encode := by
  rw [negatedFog, encode_fog, WhereClause.encode_negated]
  exact congrArg fogDocument (Json.reread_negated hiddenTeamClause.encode count)

/-- The text of the negated fog is that of the comparisons with the negations and the fog around it. -/
theorem length_toText_negatedFog (count : Nat) :
    (negatedFog count).toText.toList.length = 88 + 8 * count + 104 := by
  have comparisons : hiddenTeamClause.encode.render.toList.length = 88 := by decide +kernel
  rw [toText, negatedFog, encode_fog, WhereClause.encode_negated, length_render_fogDocument,
    Json.length_render_negated, comparisons]

/-- Below 119 negations, the text is nested 125 levels deep and the canonical document 127, which is
read back. -/
theorem reread_negatedFog :
    ofText (negatedFogDocument 119).render = .ok (negatedFog 119) ∧
      (negatedFog 119).encode.nesting = 127 ∧
        Json.read? (negatedFog 119).toText = some (negatedFog 119).encode := by
  have loaded : ofText (negatedFogDocument 119).render = .ok (negatedFog 119) :=
    ofText_negatedFogDocument (by decide)
  obtain ⟨document, read, -, again, -⟩ := reread_of_ofText loaded
  have same : negatedFogDocument 119 = document :=
    Option.some.inj ((read?_negatedFogDocument (by decide)).symm.trans read)
  have shallow : document.nesting ≤ 125 := by
    rw [← same, negatedFogDocument, nesting_fogDocument, Json.nesting_negated]
    exact Nat.le_refl 125
  rw [reread_encode_negatedFog] at again
  exact ⟨loaded, nesting_negatedFog 119, again shallow⟩

end RuleSet

namespace Cache

/-- Below one negation more, the text is read and the rule set is saved, but the canonical document is
nested 128 levels deep: neither its text nor what was saved is read again. -/
theorem load_negatedFog :
    Json.read? (RuleSet.negatedFogDocument 120).render = some (RuleSet.negatedFogDocument 120) ∧
      (RuleSet.negatedFogDocument 120).nesting ≤ 127 ∧
        RuleSet.ofText (RuleSet.negatedFogDocument 120).render = .ok (RuleSet.negatedFog 120) ∧
          ¬ (RuleSet.negatedFog 120).encode.nesting ≤ 127 ∧
            Json.read? (RuleSet.negatedFog 120).toText = none ∧
              ∃ bytes, save (RuleSet.negatedFog 120) none = .ok bytes ∧
                load bytes = .error (.invalid .notJson) := by
  have accepted : RuleSet.ofText (RuleSet.negatedFogDocument 120).render =
      .ok (RuleSet.negatedFog 120) := RuleSet.ofText_negatedFogDocument (by decide)
  obtain ⟨_, -, sound⟩ := RuleSet.sound_encode_of_ofText accepted
  have deep : 127 < (RuleSet.negatedFog 120).encode.nesting := by
    rw [RuleSet.nesting_negatedFog]
    decide
  have shallow : (RuleSet.negatedFogDocument 120).nesting ≤ 127 := by
    rw [RuleSet.negatedFogDocument, RuleSet.nesting_fogDocument, Json.nesting_negated]
    decide
  have refused : Json.read? (RuleSet.negatedFog 120).toText = none := by
    rw [RuleSet.read?_toText sound.proper, if_neg (Nat.not_le.mpr deep)]
  let payload := payloadOf Blake3.hash (RuleSet.negatedFog 120) none
  have fits : (payloadFormat.encode payload).length < 2 ^ 32 := by
    have stored := length_payload_le payload
    have summary : (summaryFormat.encode payload.summary).length = 4 := by decide +kernel
    have text : payload.document.toList.length = 1152 := RuleSet.length_toText_negatedFog 120
    omega
  have saved := saveWith_eq_ok_iff.mpr ⟨fits, rfl⟩
  exact ⟨RuleSet.read?_negatedFogDocument (by decide), shallow, accepted, Nat.not_le.mpr deep, refused,
    _, saved, (loadWith_eq_notJson_iff saved sound.proper).mpr deep⟩

end Cache

end GameRules
