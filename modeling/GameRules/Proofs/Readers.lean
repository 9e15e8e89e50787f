import GameRules.Proofs.Index
import GameRules.Proofs.Path.Overlap
import GameRules.Proofs.Walk.Canonical

/-!
# Who reads exactly this location

The index lists the readers of a location under its canonical form, and looks exact readers up by the
text it is asked about. So a location that is asked about in its canonical form finds the enabled
rules that read it. With the qualifier in front, the same location finds none, although a write to it
affects them all.
-/

namespace GameRules

/-- Every reference overlaps itself, by its steps or by its text. -/
theorem Path.overlaps_self (path : Path) : path.overlaps path = true := by
  rw [overlaps_eq]
  cases Segment.readPath path.raw.toList with
  | error mismatch => simp [textsOverlap]
  | ok steps => simp [stepsOverlap]

/-- A rule that listens to a location is affected by a write to it. -/
theorem Rule.isAffectedBy_of_listensTo {rule : Rule} {path : Path}
    (listens : rule.listensTo path.raw = true) : rule.isAffectedBy path = true :=
  Rule.isAffectedBy_iff.mpr ⟨path.raw, listens, path.overlaps_self⟩

/-- No rule listens to a reference that is not its own canonical form. -/
theorem Rule.listensTo_of_not_isCanonical {path : Path} (other : ¬path.IsCanonical) (rule : Rule) :
    rule.listensTo path.raw = false := by
  have unread : path ∉ (Node.rule rule).dependsOn := fun read =>
    other (Node.isCanonical_of_mem_dependsOn read)
  rw [listensTo, decide_eq_false (p := path ∈ rule.dependsOn) unread, Bool.and_false]

namespace DependencyIndex

/-- The exact readers of a reference are the rules that listen to its text, in document order. -/
theorem readersOf_eq (set : RuleSet) (path : Path) :
    (ofRuleSet set).readersOf path =
      (set.rules.filter fun rule => rule.listensTo path.raw).map Rule.name := by
  rw [readersOf, ← readersAt, readersAt_ofRuleSet]
  exact filterMap_positionsWhere (Rule.listensTo · path.raw) set.rules Rule.name

/-- The exact readers of a reference are among the rules that a write to it affects. -/
theorem readersOf_sublist (set : RuleSet) (path : Path) :
    ((ofRuleSet set).readersOf path).Sublist ((ofRuleSet set).rulesAffectedBy path) := by
  rw [readersOf_eq, rulesAffectedBy_ofRuleSet]
  exact (List.monotone_filter_right set.rules fun rule => Rule.isAffectedBy_of_listensTo).map _

/-- A reference that is not its own canonical form has no exact readers. -/
theorem readersOf_of_not_isCanonical (set : RuleSet) {path : Path} (other : ¬path.IsCanonical) :
    (ofRuleSet set).readersOf path = [] := by
  rw [readersOf_eq, List.map_eq_nil_iff, List.filter_eq_nil_iff]
  exact fun rule _ => Bool.eq_false_iff.mp (Rule.listensTo_of_not_isCanonical other rule)

/-- Asked about in its canonical form, a location has the enabled rules that read it as its exact
readers, in document order and each once; with the qualifier in front it has none. Either way they are
among the rules that a write to the location affects, and there are some exactly if the location is
asked about in its canonical form and an enabled rule reads it. -/
theorem readersOf_location (set : RuleSet) {path location : Path}
    (located : path.canonicalState? = some location) :
    ((ofRuleSet set).readersOf path =
        if path = location then
          (set.rules.filter fun rule =>
            rule.isEnabled && decide (location ∈ rule.dependsOn)).map Rule.name
        else []) ∧
      ((ofRuleSet set).readersOf path).Sublist ((ofRuleSet set).rulesAffectedBy path) ∧
        ((ofRuleSet set).readersOf path ≠ [] ↔
          path = location ∧
            ∃ rule ∈ set.rules, rule.isEnabled = true ∧ location ∈ rule.dependsOn) := by
  by_cases same : path = location
  · subst same
    have found : (ofRuleSet set).readersOf path =
        (set.rules.filter fun rule =>
          rule.isEnabled && decide (path ∈ rule.dependsOn)).map Rule.name := readersOf_eq set path
    refine ⟨by rw [if_pos rfl, found], readersOf_sublist set path, ?_⟩
    rw [found, ne_eq, List.map_eq_nil_iff, List.filter_eq_nil_iff]
    simp
  · have other : ¬path.IsCanonical := fun canonical =>
      same (Option.some_inj.mp (canonical.symm.trans located))
    have found := readersOf_of_not_isCanonical set other
    exact ⟨by rw [if_neg same, found], readersOf_sublist set path,
      iff_of_false (fun some => some found) fun asked => same asked.1⟩

/-- The rule that raises the alarm is the exact reader of the players that it watches. -/
theorem readersOf_location_players :
    (Path.mk "$.players").canonicalState? = some ⟨"$.players"⟩ ∧
      (ofRuleSet ⟨none, none, [], [.alarm], []⟩).readersOf ⟨"$.players"⟩ = ["alarm"] := by
  have located : (Path.mk "$.players").canonicalState? = some ⟨"$.players"⟩ := by decide
  obtain ⟨found, -, -⟩ := readersOf_location ⟨none, none, [], [.alarm], []⟩ located
  exact ⟨located, found⟩

/-- In the set of the rule that raises the alarm, the rule is no exact reader of the players when they
are written with the qualifier, although it is on, reads that very location and is affected by a write
to it. -/
theorem readersOf_qualified_players :
    RuleSet.decode (.object [("rules", .array [Rule.alarmDocument])]) =
        .ok ⟨none, none, [], [.alarm], []⟩ ∧
      (Path.mk "state:$.players").canonicalState? = some ⟨"$.players"⟩ ∧
        Rule.alarm.isEnabled = true ∧ Path.mk "$.players" ∈ Rule.alarm.dependsOn ∧
          (ofRuleSet ⟨none, none, [], [.alarm], []⟩).readersOf ⟨"state:$.players"⟩ = [] ∧
            (ofRuleSet ⟨none, none, [], [.alarm], []⟩).rulesAffectedBy ⟨"state:$.players"⟩ =
              ["alarm"] := by
  have wellFormed : (⟨none, none, [], [.alarm], []⟩ : RuleSet).WellFormed :=
    ⟨List.forall_mem_singleton.mpr Rule.alarm_wellFormed, nofun⟩
  have located : (Path.mk "state:$.players").canonicalState? = some ⟨"$.players"⟩ := by decide
  have reads : Rule.alarm.dependsOn.toList = [⟨"$.players"⟩] := rfl
  have overlap : (Path.mk "$.players").overlaps ⟨"state:$.players"⟩ = true := by
    rw [← Path.overlaps_canonical, located]
    exact Path.overlaps_self _
  refine ⟨RuleSet.decode_encode wellFormed nofun, located, rfl, List.mem_singleton.mpr rfl, rfl, ?_⟩
  rw [rulesAffectedBy_ofRuleSet, List.filter_cons, reads, List.any_cons, overlap]
  rfl

end DependencyIndex

end GameRules
