import GameRules.Proofs.Effect
import GameRules.Proofs.Filter
import GameRules.Proofs.Selector
import GameRules.Proofs.Trigger
import GameRules.Rule.Set

/-!
# Rules and rule sets are read back

A rule has effects, its priority fits 32 bits, and its views bear the names that they stand under.
-/

namespace GameRules

/-- What a rule is that was decoded. -/
structure Rule.WellFormed (rule : Rule) : Prop where
  /-- The rule has a name. -/
  name : rule.name ≠ ""
  /-- The priority fits 32 bits. -/
  priority : -(2 ^ 31) ≤ rule.priority ∧ rule.priority < 2 ^ 31
  /-- The trigger is well-formed. -/
  trigger : rule.trigger.activation.WellFormed
  /-- The selector is well-formed. -/
  selector : ∀ selector, rule.selector = some selector → selector.WellFormed
  /-- The views are well-formed and bear the names that they stand under. -/
  views : ∀ entry ∈ rule.views, entry.2.WellFormed ∧ entry.2.name = some entry.1
  /-- The rule does something. -/
  active : rule.effects ≠ []
  /-- The effects are well-formed. -/
  effects : Effect.WellFormedAll rule.effects

/-- The leaves of a rule: those of its trigger, its selector, its views and its effects. -/
def Rule.leaves (rule : Rule) : List Leaf :=
  rule.trigger.leaves ++ rule.selector.toList.flatMap Selector.leaves ++
    rule.views.values.flatMap View.leaves ++ Effect.leavesAll rule.effects

/-- What a rule set is that was decoded. -/
structure RuleSet.WellFormed (set : RuleSet) : Prop where
  /-- The rules are well-formed. -/
  rules : ∀ rule ∈ set.rules, rule.WellFormed
  /-- The filters are well-formed. -/
  filters : ∀ filter ∈ set.filters, filter.WellFormed

/-- The leaves of the rules and filters of a rule set. -/
def RuleSet.leaves (set : RuleSet) : List Leaf :=
  set.rules.flatMap Rule.leaves ++ set.filters.flatMap Filter.leaves

namespace Rule

variable {whole : Json} {fields : Fields whole}

/-- The views of a rule are read from a mapping, or there are none. -/
theorem decodeViews_eq_ok_iff {views : Entries View} :
    decodeViews fields = .ok views ↔
      fields.value? "views" = none ∧ views = [] ∨
        ∃ entries, fields.value? "views" = some (.object entries) ∧
          List.Forall₂ (fun entry view =>
            entry.1 = view.1 ∧ decodeView entry.1 entry.2 = .ok view.2) entries views := by
  unfold decodeViews
  split
  · rename_i absent
    simp [absent, eq_comm]
  · rename_i entries given
    have entrywise := @decodeEntries_eq_ok_iff View (.named "view") entries decodeView views
    simp [given, entrywise]
  · rename_i other notObject given
    simp only [given, Decoded.fail_ne_ok, reduceCtorEq, false_and, false_or, false_iff]
    rintro ⟨entries, same, -⟩
    exact notObject entries (Option.some.inj same)

/-- The decoded views of a rule are well-formed and bear the names that they stand under. -/
theorem wellFormed_of_decodeViews {views : Entries View}
    (decoded : decodeViews fields = .ok views) :
    ∀ entry ∈ views, entry.2.WellFormed ∧ entry.2.name = some entry.1 := by
  rcases decodeViews_eq_ok_iff.mp decoded with ⟨-, rfl⟩ | ⟨entries, -, related⟩
  · exact fun _ member => nomatch member
  · intro entry member
    obtain ⟨source, -, sameKey, read⟩ := exists_mem_of_forall₂ related member
    simp only [decodeView, Decoded.bind_eq_ok_iff, Decoded.pure_eq_ok_iff] at read
    obtain ⟨view, readView, named⟩ := read
    obtain ⟨key, entryView⟩ := entry
    subst named sameKey
    obtain ⟨⟨source, pipeline, params⟩, -⟩ := View.wellFormed_of_decode readView
    exact ⟨⟨source, pipeline, params⟩, rfl⟩

/-- The decoded effects of a rule are well-formed, and there is one at least. -/
theorem wellFormed_of_decodeEffects {effects : List Effect}
    (decoded : decodeEffects fields = .ok effects) :
    effects ≠ [] ∧ Effect.WellFormedAll effects := by
  simp only [decodeEffects, Decoded.bind_eq_ok_iff] at decoded
  obtain ⟨_, -, found, read, decoded⟩ := decoded
  split at decoded
  · exact absurd decoded Decoded.fail_ne_ok
  · rename_i nonempty
    cases Decoded.pure_eq_ok_iff.mp decoded
    have parts : PartsSatisfy whole Effect.decode Effect.WellFormed :=
      fun _ _ _ => Effect.wellFormed_of_decode
    exact ⟨by simpa using nonempty, Effect.wellFormedAll_iff.mpr (parts.list read)⟩

/-- A decoded rule is well-formed. -/
theorem wellFormed_of_decode {document : Json} {rule : Rule}
    (decoded : decode document = .ok rule) : rule.WellFormed := by
  simp only [decode, decodeBody, Decoded.bind_eq_ok_iff, Decoded.pure_eq_ok_iff,
    Decoded.inside_eq_ok_iff] at decoded
  obtain ⟨fields, -, name, readName, priority, readPriority, views, readViews, effects, readEffects,
    _, -, _, -, trigger, readTrigger, selector, readSelector, rfl⟩ := decoded
  obtain ⟨active, effectsFormed⟩ := wellFormed_of_decodeEffects readEffects
  refine ⟨(Fields.requiredString_eq_ok_iff.mp readName).2,
    Fields.getD_inRange_of_int32? readPriority, ?_, ?_, wellFormed_of_decodeViews readViews, active,
    effectsFormed⟩
  · obtain ⟨part, -, readTrigger⟩ := Fields.requiredNode_eq_ok_iff.mp readTrigger
    exact Trigger.wellFormed_of_decode readTrigger
  · have parts : PartsSatisfy document Selector.decode Selector.WellFormed :=
      fun _ _ _ => Selector.wellFormed_of_decode
    exact parts.node? readSelector

/-- A view of a rule is read back under its name. -/
theorem decodeView_encode {name : String} {view : View} (wellFormed : view.WellFormed)
    (named : view.name = some name) (stable : Leaf.AllStable view.leaves) :
    decodeView name view.encode = .ok view := by
  rw [decodeView, View.decode_encode wellFormed stable]
  exact congrArg (fun name => Except.ok { view with name }) named.symm

/-- The priority of a rule is read back, zero as the default. -/
theorem priority_of_lookup {priority : Int} (fits : -(2 ^ 31) ≤ priority ∧ priority < 2 ^ 31)
    (written : fields.entries.lookup "priority" =
      if priority = 0 then none else some (.int priority)) :
    fields.int32? "priority" = .ok (if priority = 0 then none else some priority) := by
  rw [Fields.int32?_eq_ok_iff]
  by_cases zero : priority = 0
  · rw [if_pos zero] at written ⊢
    exact ⟨Fields.value?_of_unwritten written, nofun⟩
  · rw [if_neg zero] at written ⊢
    refine ⟨Fields.value?_of_lookup written rfl, ?_⟩
    rintro _ ⟨⟩
    exact fits

/-- The effects of a rule are read back. -/
theorem decodeEffects_of_lookup {effects : List Effect} (active : effects ≠ [])
    (wellFormed : Effect.WellFormedAll effects) (stable : Leaf.AllStable (Effect.leavesAll effects))
    (written : fields.entries.lookup "effects" = some (.array (Effect.encodeAll effects))) :
    decodeEffects fields = .ok effects := by
  have read := Effect.decodeAll_encodeAll effects wellFormed stable
  have given := Fields.value?_of_lookup written rfl
  simp only [decodeEffects, Decoded.bind_eq_ok_iff]
  exact ⟨_, Fields.required_eq_ok_iff.mpr given, effects, Fills.list read written,
    if_neg (by simpa using active)⟩

/-- The views of a rule are read back. -/
theorem decodeViews_of_lookup {views : Entries View}
    (wellFormed : ∀ entry ∈ views, entry.2.WellFormed ∧ entry.2.name = some entry.1)
    (stable : Leaf.AllStable (views.values.flatMap View.leaves))
    (written : fields.entries.lookup "views" =
      if views.mapValues View.encode ≠ [] then some (.object (views.mapValues View.encode))
      else none) :
    decodeViews fields = .ok views := by
  have read : List.Forall₂ (fun entry view =>
      entry.1 = view.1 ∧ decodeView entry.1 entry.2 = .ok view.2)
      (views.mapValues View.encode) views := by
    rw [Entries.mapValues, List.forall₂_map_left_iff, List.forall₂_same]
    intro entry member
    obtain ⟨viewFormed, named⟩ := wellFormed entry member
    refine ⟨rfl, decodeView_encode viewFormed named fun leaf inside => stable leaf ?_⟩
    exact List.mem_flatMap.mpr ⟨entry.2, List.mem_map_of_mem member, inside⟩
  have given := Fills.value?_of_nonempty read written rfl
  exact decodeViews_eq_ok_iff.mpr (given.imp_right fun given => ⟨_, given, read⟩)

/-- A well-formed rule is read back if its leaves are stable. -/
theorem decode_encode {rule : Rule} (wellFormed : rule.WellFormed)
    (stable : Leaf.AllStable rule.leaves) : decode rule.encode = .ok rule := by
  obtain ⟨stableRest, stableEffects⟩ := List.forall_mem_append.mp stable
  obtain ⟨stableRest, stableViews⟩ := List.forall_mem_append.mp stableRest
  obtain ⟨stableTrigger, stableSelector⟩ := List.forall_mem_append.mp stableRest
  obtain ⟨name, description, priority, enabled, trigger, selector, views, effects⟩ := rule
  obtain ⟨named, fits, triggerFormed, selectorFormed, viewsFormed, active, effectsFormed⟩ :=
    wellFormed
  have fillsTrigger : Fills Trigger.decode trigger.encode trigger :=
    ⟨rfl, Trigger.decode_encode triggerFormed stableTrigger⟩
  have fillsSelector : ∀ value, selector = some value →
      Fills Selector.decode value.encode value := by
    rintro value rfl
    refine ⟨rfl, Selector.decode_encode (selectorFormed value rfl) ?_⟩
    simpa using stableSelector
  have kept : (if priority = 0 then none else some priority).getD 0 = priority := by
    by_cases zero : priority = 0
    · rw [if_pos zero, zero]
      rfl
    · rw [if_neg zero]
      rfl
  have someEffect : Effect.encodeAll effects ≠ [] := by
    cases effects with
    | nil => exact absurd rfl active
    | cons effect effects => exact List.cons_ne_nil _ _
  rw [encode, decode]
  simp only [Decoded.bind_eq_ok_iff, Decoded.inside_eq_ok_iff]
  refine ⟨_, Record.of_build _ _, name, Fields.requiredString_of_lookup (by simp) named, ?_⟩
  simp only [decodeBody, Decoded.bind_eq_ok_iff, Decoded.pure_eq_ok_iff]
  refine ⟨_, priority_of_lookup fits ?_, views,
    decodeViews_of_lookup viewsFormed stableViews (by simp), effects,
    decodeEffects_of_lookup active effectsFormed stableEffects (by simp [someEffect]),
    description, Fields.string?_of_lookup (by simp),
    enabled, Fields.bool?_of_lookup (by simp), trigger, fillsTrigger.required (by simp),
    selector, Fills.optional fillsSelector (by simp), ?_⟩
  · simp
  · rw [kept]

end Rule

namespace RuleSet

/-- A decoded rule set is well-formed. -/
theorem wellFormed_of_decode {document : Json} {set : RuleSet}
    (decoded : decode document = .ok set) : set.WellFormed := by
  simp only [decode, Decoded.bind_eq_ok_iff, Decoded.pure_eq_ok_iff] at decoded
  obtain ⟨fields, -, _, -, _, -, _, -, rules, readRules, filters, readFilters, rfl⟩ := decoded
  have ruleParts : PartsSatisfy document Rule.decode Rule.WellFormed :=
    fun _ _ _ => Rule.wellFormed_of_decode
  have filterParts : PartsSatisfy document Filter.decode Filter.WellFormed :=
    fun _ _ _ => Filter.wellFormed_of_decode
  exact ⟨ruleParts.list readRules, filterParts.list readFilters⟩

/-- The version of a rule set is read back. -/
theorem decodeVersion_of_lookup {whole : Json} {fields : Fields whole} {version : Option String}
    (written : fields.entries.lookup "version" = version.map .string) :
    decodeVersion fields = .ok version := by
  have given := Fields.value?_of_map written fun _ => rfl
  have read := Fields.string?_of_lookup written
  unfold decodeVersion
  rw [given]
  cases version <;> exact read

/-- A well-formed rule set is read back if its leaves are stable. -/
theorem decode_encode {set : RuleSet} (wellFormed : set.WellFormed)
    (stable : Leaf.AllStable set.leaves) : decode set.encode = .ok set := by
  obtain ⟨version, package, imports, rules, filters⟩ := set
  obtain ⟨stableRules, stableFilters⟩ := List.forall_mem_append.mp stable
  have readRules := Fills.forall₂_map fun rule member =>
    Rule.decode_encode (wellFormed.rules rule member) fun leaf inside =>
      stableRules leaf (List.mem_flatMap.mpr ⟨rule, member, inside⟩)
  have readFilters := Fills.forall₂_map fun filter member =>
    Filter.decode_encode (wellFormed.filters filter member) fun leaf inside =>
      stableFilters leaf (List.mem_flatMap.mpr ⟨filter, member, inside⟩)
  rw [encode, decode]
  simp only [Decoded.bind_eq_ok_iff, Decoded.pure_eq_ok_iff]
  exact ⟨_, Record.of_build _ _, version, decodeVersion_of_lookup (by simp),
    package, Fields.string?_of_lookup (by simp),
    imports, Fields.strings_of_lookup (by simp [Json.strings]),
    rules, Fills.list readRules (by simp),
    filters, Fills.nonemptyList readFilters (by simp), rfl⟩

end RuleSet

end GameRules
