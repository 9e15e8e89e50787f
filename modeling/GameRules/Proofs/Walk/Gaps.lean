import GameRules.Proofs.Json.Proper
import GameRules.Proofs.Reads
import GameRules.Proofs.Walk.Nodes

/-!
# What the analysis of a rule leaves out

A projection holds a document of any shape. One that is no operand is a gap: the analysis of a rule
tells of every gap in the named views, in their order, and goes on as if the projection were not there.
-/

namespace GameRules

open Collector

/-- A projection of a named view that is no operand. -/
structure Gap where
  /-- The name of the view. -/
  view : String
  /-- The position of the stage in the view. -/
  stage : Nat
  /-- The field that is projected. -/
  field : String
  /-- What is wrong with the document of the projection. -/
  error : DecodeError

namespace Gap

/-- Gaps are in the order of their views, then of their stages, then of their fields. -/
def Before (left right : Gap) : Prop :=
  left.view < right.view ∨
    left.view = right.view ∧
      (left.stage < right.stage ∨ left.stage = right.stage ∧ left.field < right.field)

/-- What the analysis of a rule of this name tells of a gap. -/
def diagnostic (rule : String) (gap : Gap) : Diagnostic :=
  ⟨"rule '" ++ rule ++ "': view '" ++ gap.view ++ "': pipeline operation " ++ Nat.repr gap.stage,
    "projection '" ++ gap.field ++ "' dropped: " ++ gap.error.message⟩

end Gap

namespace ViewOperation

/-- The field of a projection that is no operand, and what is wrong with its document. -/
def projectionGap? (projection : String × Json) : Option (String × DecodeError) :=
  match Operand.decode projection.2 with
  | .ok _ => none
  | .error error => some (projection.1, error)

/-- The fields of a stage whose projections are no operands, and what is wrong with their documents. -/
def gaps : ViewOperation → Entries DecodeError
  | map fields => fields.filterMap projectionGap?
  | _ => []

/-- The stage without the projections that are no operands. -/
def withoutGaps : ViewOperation → ViewOperation
  | map fields => map (fields.filter fun projection => (Operand.decode projection.2).isOk)
  | other => other

/-- A projection is a gap at its field if it is no operand. -/
theorem projectionGap?_eq_some_iff {projection : String × Json} {gap : String × DecodeError} :
    projectionGap? projection = some gap ↔
      projection.1 = gap.1 ∧ Operand.decode projection.2 = .error gap.2 := by
  unfold projectionGap?
  cases Operand.decode projection.2 <;> simp [Prod.ext_iff]

/-- A stage has a gap at each of its projections that is no operand. -/
theorem mem_gaps_iff {operation : ViewOperation} {field : String} {error : DecodeError} :
    (field, error) ∈ operation.gaps ↔
      ∃ fields value, operation = map fields ∧ (field, value) ∈ fields ∧
        Operand.decode value = .error error := by
  cases operation with
  | map fields =>
    simp only [gaps, List.mem_filterMap, projectionGap?_eq_some_iff]
    constructor
    · rintro ⟨⟨_, value⟩, member, rfl, failed⟩
      exact ⟨fields, value, rfl, member, failed⟩
    · rintro ⟨_, value, ⟨⟩, member, failed⟩
      exact ⟨(field, value), member, rfl, failed⟩
  | _ => simp [gaps]

/-- The gaps of a stage are in the order of their fields. -/
theorem ordered_gaps {fields : Entries Json} (ordered : fields.Ordered) :
    Entries.Ordered (map fields).gaps := by
  refine List.Pairwise.filterMap _ (fun left right before => ?_) ordered
  intro leftGap foundLeft rightGap foundRight
  rw [← (projectionGap?_eq_some_iff.mp foundLeft).1, ← (projectionGap?_eq_some_iff.mp foundRight).1]
  exact before

/-- The notes of a stage are those of its gaps. -/
theorem notes_eq (operation : ViewOperation) :
    operation.notes = operation.gaps.map fun gap =>
      ⟨[], "projection '" ++ gap.1 ++ "' dropped: " ++ gap.2.message⟩ := by
  cases operation with
  | map fields =>
    rw [notes, gaps, List.map_filterMap, List.filterMap_eq_flatMap_toList]
    refine List.flatMap_congr fun projection _ => ?_
    rw [projectionNotes, projectionGap?]
    cases Operand.decode projection.2 <;> rfl
  | _ => rfl

/-- A stage without its gaps has none. -/
theorem gaps_withoutGaps (operation : ViewOperation) : operation.withoutGaps.gaps = [] := by
  refine List.eq_nil_iff_forall_not_mem.mpr ?_
  rintro ⟨field, error⟩ member
  obtain ⟨kept, value, same, member, failed⟩ := mem_gaps_iff.mp member
  cases operation with
  | map fields =>
    cases same
    have decodes := (List.mem_filter.mp member).2
    rw [failed] at decodes
    cases decodes
  | _ => cases same

variable {location : Path}

/-- A projection that is no operand reads nothing. -/
theorem not_mem_readsOf_collectProjection {name : String} {value : Json} {error : DecodeError}
    (failed : Operand.decode value = .error error) :
    location ∉ readsOf (collectProjection name value) := by
  rw [readsOf, collectProjection, failed]
  exact PathSet.not_mem_empty location

/-- A stage reads the same without its gaps. -/
theorem mem_readsOf_withoutGaps (operation : ViewOperation) :
    location ∈ readsOf operation.withoutGaps.collect ↔ location ∈ readsOf operation.collect := by
  cases operation with
  | map fields =>
    have projections (fields : Entries Json) : location ∈ readsOf (map fields).collect ↔
        ∃ entry ∈ fields, location ∈ readsOf (collectProjection entry.1 entry.2) :=
      mem_readsOf_each fun entry _ => collectProjection_appends entry.1 entry.2
    rw [withoutGaps, projections, projections]
    constructor
    · rintro ⟨projection, kept, reads⟩
      exact ⟨projection, (List.mem_filter.mp kept).1, reads⟩
    · rintro ⟨projection, member, reads⟩
      have decodes : (Operand.decode projection.2).isOk = true := by
        cases decoded : Operand.decode projection.2 with
        | ok operand => rfl
        | error error => exact absurd reads (not_mem_readsOf_collectProjection decoded)
      exact ⟨projection, List.mem_filter.mpr ⟨member, decodes⟩, reads⟩
  | _ => rfl

end ViewOperation

/-- A walk that appends adds the locations that it reads from nothing. -/
theorem Collector.Appends.adds {walk : Walk} {notes : List Note} (appends : Appends walk notes)
    (location : Path) : Adds walk location (location ∈ readsOf walk) := by
  intro collector
  rw [appends, PathSet.mem_union]

namespace View

variable {location : Path}

/-- The gaps of a view of this name. -/
def gaps (name : String) (view : View) : List Gap :=
  view.pipeline.zipIdx.flatMap fun (operation, stage) =>
    operation.gaps.map fun gap => ⟨name, stage, gap.1, gap.2⟩

/-- The view without the projections that are no operands. -/
def withoutGaps (view : View) : View :=
  { view with pipeline := view.pipeline.map ViewOperation.withoutGaps }

/-- A view has the gaps of its stages. -/
theorem mem_gaps_iff {name : String} {view : View} {gap : Gap} :
    gap ∈ view.gaps name ↔
      gap.view = name ∧ ∃ operation, view.pipeline[gap.stage]? = some operation ∧
        (gap.field, gap.error) ∈ operation.gaps := by
  simp only [gaps, List.mem_flatMap, List.mem_map, Prod.exists, List.mk_mem_zipIdx_iff_getElem?]
  constructor
  · rintro ⟨operation, stage, there, field, error, member, rfl⟩
    exact ⟨rfl, operation, there, member⟩
  · rintro ⟨rfl, operation, there, member⟩
    exact ⟨operation, gap.stage, there, gap.field, gap.error, member, rfl⟩

/-- The gaps of a view are in order if its projections are. -/
theorem pairwise_gaps {name : String} {view : View}
    (ordered : ∀ fields, .map fields ∈ view.pipeline → fields.Ordered) :
    (view.gaps name).Pairwise Gap.Before := by
  -- Within a stage the fields are in order, and of two stages the positions are.
  refine List.pairwise_flatMap.mpr ⟨?_, ?_⟩
  · rintro ⟨operation, stage⟩ member
    have inside : operation ∈ view.pipeline := (List.mem_zipIdx' member).2 ▸ List.getElem_mem _
    refine List.pairwise_map.mpr ?_
    cases operation with
    | map fields =>
      exact (ViewOperation.ordered_gaps (ordered fields inside)).imp fun before =>
        .inr ⟨rfl, .inr ⟨rfl, before⟩⟩
    | _ => exact List.Pairwise.nil
  · have stages : (view.pipeline.zipIdx.map Prod.snd).Pairwise (· < ·) := by
      rw [List.zipIdx_map_snd]
      exact List.pairwise_lt_range'
    refine (List.pairwise_map.mp stages).imp ?_
    intro left right before leftGap memberLeft rightGap memberRight
    obtain ⟨_, -, rfl⟩ := List.mem_map.mp memberLeft
    obtain ⟨_, -, rfl⟩ := List.mem_map.mp memberRight
    exact .inr ⟨rfl, .inl before⟩

/-- The notes of a view that bears its name are those of its gaps. -/
theorem notes_eq {name : String} {view : View} (named : view.name = some name) (rule : String) :
    view.notes.map (Note.under ["rule '" ++ rule ++ "'"]) =
      (view.gaps name).map (Gap.diagnostic rule) := by
  have label : view.label = "view '" ++ name ++ "'" := by rw [View.label, named]
  simp only [notes, gaps, ViewOperation.notes_eq, List.map_flatMap, List.map_map, label]
  refine List.flatMap_congr fun stage _ => List.map_congr_left fun gap _ => ?_
  -- The labels are joined with colons, which the text of the diagnostic has inside of its parts.
  refine congrArg₂ Diagnostic.mk (String.toList_inj.mp ?_) rfl
  simp [Note.inside, String.intercalate_cons_cons]

/-- A view without its gaps leaves no notes. -/
theorem notes_withoutGaps (view : View) : view.withoutGaps.notes = [] := by
  have silent (operation : ViewOperation) : operation.withoutGaps.notes = [] := by
    rw [ViewOperation.notes_eq, ViewOperation.gaps_withoutGaps]
    rfl
  rw [notes, withoutGaps, List.zipIdx_map, List.flatMap_map, List.map_eq_nil_iff,
    List.flatMap_eq_nil_iff]
  intro stage _
  exact List.map_eq_nil_iff.mpr (silent stage.1)

/-- A view reads what its source and its stages read. -/
theorem mem_readsOf_collect_iff (view : View) :
    location ∈ readsOf view.collect ↔
      location ∈ readsOf (collectSource view.source) ∨
        ∃ operation ∈ view.pipeline, location ∈ readsOf operation.collect := by
  have stage : ∀ operation ∈ view.pipeline, ∀ position,
      Adds (within ("pipeline operation " ++ Nat.repr position) operation.collect) location _ :=
    fun operation _ position => (operation.collect_appends.adds location).within _
  exact ((Adds.eachFrom stage 0).within view.label) _

/-- A view reads the same without its gaps. -/
theorem mem_readsOf_withoutGaps (view : View) :
    location ∈ readsOf view.withoutGaps.collect ↔ location ∈ readsOf view.collect := by
  rw [mem_readsOf_collect_iff, mem_readsOf_collect_iff]
  simp only [withoutGaps, List.mem_map, exists_exists_and_eq_and,
    ViewOperation.mem_readsOf_withoutGaps]

end View

/-- What holds of everything inside a document holds of everything inside the value of a field. -/
theorem Fields.forall_mem_subdocuments {node : NodeKind} {document value : Json}
    {fields : Fields document} {key : String} {property : Json → Prop}
    (read : Fields.of node document = .ok fields) (given : fields.value? key = some value)
    (holds : ∀ part ∈ document.subdocuments, property part) :
    ∀ part ∈ value.subdocuments, property part := by
  cases document with
  | object entries =>
    cases read
    rw [Json.subdocuments, List.forall_mem_cons, Json.forall_mem_subdocumentsOfEntries] at holds
    have found := Fields.lookup_of_value? given
    exact holds.2 (key, value) (Entries.mem_of_lookup found)
  | _ => cases read

/-- The projections of a decoded stage are in the order of their fields. -/
theorem ViewOperation.ordered_of_decode {document : Json} {fields : Entries Json}
    (proper : ∀ part ∈ document.subdocuments, part.Proper)
    (decoded : decode document = .ok (map fields)) : fields.Ordered := by
  simp only [decode, Decoded.bind_eq_ok_iff] at decoded
  obtain ⟨untyped, readFields, word, -, kind, -, decoded⟩ := decoded
  cases kind with
  | map =>
    simp only [Decoded.bind_eq_ok_iff] at decoded
    obtain ⟨value, read, decoded⟩ := decoded
    split at decoded
    · cases Decoded.pure_eq_ok_iff.mp decoded
      have given := Fields.required_eq_ok_iff.mp read
      exact Fields.forall_mem_subdocuments readFields given proper _ (Json.self_mem_subdocuments _)
    · exact absurd decoded Decoded.fail_ne_ok
  | distance =>
    simp only [Decoded.bind_eq_ok_iff] at decoded
    obtain ⟨_, -, _, -, _, -, _, -, decoded⟩ := decoded
    split at decoded
    · exact absurd decoded Decoded.fail_ne_ok
    · cases Decoded.pure_eq_ok_iff.mp decoded
  | _ => simp [Decoded.bind_eq_ok_iff, Decoded.map_eq_ok_iff, Decoded.pure_eq_ok_iff] at decoded

/-- The projections of a decoded view are in the order of their fields. -/
theorem View.ordered_of_decode {document : Json} {view : View}
    (proper : ∀ part ∈ document.subdocuments, part.Proper) (decoded : decode document = .ok view) :
    ∀ fields, .map fields ∈ view.pipeline → fields.Ordered := by
  simp only [decode, Decoded.bind_eq_ok_iff, Decoded.pure_eq_ok_iff] at decoded
  obtain ⟨parts, readParts, pipeline, readPipeline, _, -, _, -, _, -, rfl⟩ := decoded
  intro fields member
  rcases decodePipeline_eq_ok_iff.mp readPipeline with ⟨-, rfl⟩ | ⟨items, given, related⟩
  · cases member
  · obtain ⟨item, inItems, read⟩ := exists_mem_of_forall₂ related member
    have inside := Fields.forall_mem_subdocuments readParts given proper
    rw [Json.subdocuments, List.forall_mem_cons, Json.forall_mem_subdocumentsOfItems] at inside
    exact ViewOperation.ordered_of_decode (inside.2 item inItems) read

/-- The views of a decoded rule are in the order of their names, and the projections of each of them
are in the order of their fields. -/
theorem Rule.ordered_of_decode {document : Json} {rule : Rule}
    (proper : ∀ part ∈ document.subdocuments, part.Proper) (decoded : decode document = .ok rule) :
    rule.views.Ordered ∧
      ∀ entry ∈ rule.views, ∀ fields, .map fields ∈ entry.2.pipeline → fields.Ordered := by
  simp only [decode, decodeBody, Decoded.bind_eq_ok_iff, Decoded.pure_eq_ok_iff,
    Decoded.inside_eq_ok_iff] at decoded
  obtain ⟨fields, readFields, _, -, _, -, views, readViews, _, -, _, -, _, -, _, -, _, -, rfl⟩ := decoded
  rcases decodeViews_eq_ok_iff.mp readViews with ⟨-, rfl⟩ | ⟨entries, given, related⟩
  · exact ⟨List.Pairwise.nil, List.forall_mem_nil _⟩
  · have inside := Fields.forall_mem_subdocuments readFields given proper
    rw [Json.subdocuments, List.forall_mem_cons, Json.forall_mem_subdocumentsOfEntries] at inside
    obtain ⟨ordered, values⟩ := inside
    refine ⟨Entries.Ordered.decoded ordered related, ?_⟩
    intro entry member
    obtain ⟨source, inEntries, -, read⟩ := exists_mem_of_forall₂ related member
    simp only [decodeView, Decoded.bind_eq_ok_iff, Decoded.pure_eq_ok_iff] at read
    obtain ⟨view, readView, named⟩ := read
    have inView := View.ordered_of_decode (values source inEntries) readView
    rw [← named]
    exact inView

namespace Rule

/-- The gaps of a rule are those of the views that it names. -/
def gaps (rule : Rule) : List Gap := rule.views.flatMap fun entry => entry.2.gaps entry.1

/-- A rule has a gap at each projection of a view that it names that is no operand. -/
def HasGap (rule : Rule) (gap : Gap) : Prop :=
  ∃ view fields value, (gap.view, view) ∈ rule.views ∧
    view.pipeline[gap.stage]? = some (.map fields) ∧ (gap.field, value) ∈ fields ∧
      Operand.decode value = .error gap.error

/-- The rule without the projections of its views that are no operands. -/
def withoutGaps (rule : Rule) : Rule := { rule with views := rule.views.mapValues View.withoutGaps }

/-- The gaps of a rule are those that it has. -/
theorem mem_gaps_iff {rule : Rule} {gap : Gap} : gap ∈ rule.gaps ↔ rule.HasGap gap := by
  simp only [gaps, HasGap, List.mem_flatMap, Prod.exists, View.mem_gaps_iff,
    ViewOperation.mem_gaps_iff]
  constructor
  · rintro ⟨_, view, member, rfl, _, there, fields, value, rfl, inside, failed⟩
    exact ⟨view, fields, value, member, there, inside, failed⟩
  · rintro ⟨view, fields, value, member, there, inside, failed⟩
    exact ⟨gap.view, view, member, rfl, _, there, fields, value, rfl, inside, failed⟩

/-- The gaps of a rule are in order if its views and their projections are. -/
theorem pairwise_gaps {rule : Rule} (views : rule.views.Ordered)
    (ordered : ∀ entry ∈ rule.views, ∀ fields, .map fields ∈ entry.2.pipeline → fields.Ordered) :
    rule.gaps.Pairwise Gap.Before := by
  refine List.pairwise_flatMap.mpr ⟨fun entry member => View.pairwise_gaps (ordered entry member), ?_⟩
  refine views.imp fun before left inLeft right inRight => .inl ?_
  rw [(View.mem_gaps_iff.mp inLeft).1, (View.mem_gaps_iff.mp inRight).1]
  exact before

/-- The notes of a rule whose views bear their names are those of its gaps. -/
theorem notes_eq {rule : Rule} (named : ∀ entry ∈ rule.views, entry.2.name = some entry.1) :
    rule.notes.map (Note.under ["rule '" ++ rule.name ++ "'"]) =
      rule.gaps.map (Gap.diagnostic rule.name) := by
  rw [notes, gaps, Entries.values, List.flatMap_map, List.map_flatMap, List.map_flatMap]
  exact List.flatMap_congr fun entry member => View.notes_eq (named entry member) rule.name

/-- A rule without its gaps leaves no notes. -/
theorem notes_withoutGaps (rule : Rule) : rule.withoutGaps.notes = [] := by
  rw [notes, List.flatMap_eq_nil_iff]
  intro view member
  simp only [withoutGaps, Entries.values, Entries.mapValues, List.map_map, List.mem_map,
    Function.comp_apply] at member
  obtain ⟨entry, -, rfl⟩ := member
  exact entry.2.notes_withoutGaps

/-- A rule depends on the same locations without its gaps. -/
theorem dependsOn_withoutGaps (rule : Rule) : rule.withoutGaps.dependsOn = rule.dependsOn := by
  refine PathSet.ext fun location => ?_
  have views : (∃ node ∈ rule.withoutGaps.views.values.map Node.view, location ∈ node.dependsOn) ↔
      ∃ node ∈ rule.views.values.map Node.view, location ∈ node.dependsOn := by
    simp only [withoutGaps, Entries.values, Entries.mapValues, List.map_map, List.mem_map,
      exists_exists_and_eq_and, Function.comp_apply, Node.dependsOn, Node.collect,
      View.mem_readsOf_withoutGaps]
  rw [mem_dependsOn_iff, mem_dependsOn_iff, deciding, deciding]
  simp only [List.mem_append, or_and_right, exists_or, views]
  rfl

/-- The analysis of a decoded rule tells of its gaps, each once and in order, and of nothing else. It is
that of the rule without its gaps, which has nothing left out, and so it is complete exactly if every
projection of a named view is an operand. -/
theorem analyze_of_decode {document : Json} {rule : Rule} (decoded : decode document = .ok rule)
    (proper : ∀ part ∈ document.subdocuments, part.Proper) :
    rule.analyze.diagnostics = rule.gaps.map (Gap.diagnostic rule.name) ∧
      rule.gaps.Pairwise Gap.Before ∧ (∀ gap, gap ∈ rule.gaps ↔ rule.HasGap gap) ∧
        rule.withoutGaps.analyze = ⟨rule.analyze.dependsOn, rule.analyze.modifies, []⟩ ∧
          (rule.analyze.isComplete = true ↔
            ∀ entry ∈ rule.views, ∀ fields, .map fields ∈ entry.2.pipeline →
              ∀ projection ∈ fields, ∃ operand, Operand.decode projection.2 = .ok operand) := by
  obtain ⟨views, projections⟩ := ordered_of_decode proper decoded
  have named (entry : String × View) (member : entry ∈ rule.views) : entry.2.name = some entry.1 :=
    ((wellFormed_of_decode decoded).views entry member).2
  have diagnostics : rule.analyze.diagnostics = rule.gaps.map (Gap.diagnostic rule.name) := by
    rw [analyze_eq, ← notes_eq named]
  refine ⟨diagnostics, pairwise_gaps views projections, fun gap => mem_gaps_iff, ?_, ?_⟩
  · rw [analyze_eq, notes_withoutGaps, dependsOn_withoutGaps, analyze_eq]
    rfl
  · rw [Analysis.isComplete, diagnostics, List.isEmpty_iff, List.map_eq_nil_iff,
      List.eq_nil_iff_forall_not_mem]
    constructor
    · intro complete entry member fields there projection inside
      obtain ⟨stage, found⟩ := List.mem_iff_getElem?.mp there
      cases read : Operand.decode projection.2 with
      | ok operand => exact ⟨operand, rfl⟩
      | error error =>
        refine absurd (mem_gaps_iff.mpr ?_) (complete ⟨entry.1, stage, projection.1, error⟩)
        exact ⟨entry.2, fields, projection.2, member, found, inside, read⟩
    · intro decodes gap inGaps
      obtain ⟨view, fields, value, member, there, inside, failed⟩ := mem_gaps_iff.mp inGaps
      obtain ⟨operand, read⟩ :=
        decodes (gap.view, view) member fields (List.mem_of_getElem? there) (gap.field, value) inside
      rw [failed] at read
      cases read

/-- The rule that raises the alarm, with a view of the players whose projections are a bonus and a
computation that lacks a value. -/
def board : Rule :=
  alarm.withView "board" ⟨none, "Players", [.map
    [("broken", .object [("type", .string "Clamp")]), ("ok", .string "$.World.bonus")]], []⟩

/-- The analysis of the rule with the view of the players tells of the computation alone. -/
theorem analyze_of_decode_board :
    decode board.encode = .ok board ∧ (∀ part ∈ board.encode.subdocuments, part.Proper) ∧
      board.analyze.diagnostics = [⟨"rule 'alarm': view 'board': pipeline operation 0",
        "projection 'broken' dropped: Clamp transform requires field 'value'"⟩] ∧
        board.withoutGaps.analyze.isComplete = true := by
  have wellFormed : board.WellFormed :=
    { Rule.alarm_wellFormed with
      views := List.forall_mem_singleton.mpr
        ⟨⟨by decide, List.forall_mem_singleton.mpr trivial, List.forall_mem_nil _⟩, rfl⟩ }
  have decoded : decode board.encode = .ok board :=
    decode_encode wellFormed (List.forall_mem_nil Leaf.Stable)
  have proper : ∀ part ∈ board.encode.subdocuments, part.Proper := by decide
  have bonus : Operand.decode (.string "$.World.bonus") = .ok (.path ⟨"$.World.bonus"⟩) := by
    rw [Operand.decode]
    rfl
  have failed : Operand.decode (.object [("type", .string "Clamp")]) =
      .error ⟨[], .missingField .transform "Clamp" "value"⟩ := by
    rw [Operand.decode, Transform.decode]
    · rfl
    · intro text same
      cases same
  have gaps : board.gaps = [⟨"board", 0, "broken", ⟨[], .missingField .transform "Clamp" "value"⟩⟩] := by
    show View.gaps "board" ⟨_, _, [.map [_, _]], _⟩ ++ [] = _
    simp [View.gaps, ViewOperation.gaps, ViewOperation.projectionGap?, bonus, failed]
  obtain ⟨diagnostics, -, -, rest, -⟩ := analyze_of_decode decoded proper
  refine ⟨decoded, proper, ?_, ?_⟩
  · rw [diagnostics, gaps]
    rfl
  · rw [rest]
    rfl

end Rule

end GameRules
