import GameRules.Proofs.Entries
import GameRules.Proofs.Path.Extension
import GameRules.Proofs.Positions
import GameRules.Rule.Index
import Mathlib.Data.List.Basic

/-!
# The index finds what a look at every rule finds

Under every location the index lists the enabled rules that read it, in document order. So the
positions it collects for a changed location are those of the enabled rules with an overlapping read,
whichever location the reads are listed under and however often they are met.
-/

namespace GameRules

/-- Whether a rule is on and reads exactly this location. -/
def Rule.listensTo (rule : Rule) (text : String) : Bool :=
  rule.isEnabled && decide (Path.mk text ∈ rule.dependsOn)

/-- Whether a rule is on and reads a location that overlaps this one. -/
def Rule.isAffectedBy (rule : Rule) (changed : Path) : Bool :=
  rule.isEnabled && rule.dependsOn.toList.any fun read => read.overlaps changed

/-- A rule is affected if it listens to a location that overlaps the changed one. -/
theorem Rule.isAffectedBy_iff {rule : Rule} {changed : Path} :
    rule.isAffectedBy changed = true ↔
      ∃ text, rule.listensTo text = true ∧ (Path.mk text).overlaps changed = true := by
  simp only [isAffectedBy, listensTo, Bool.and_eq_true, List.any_eq_true, decide_eq_true_eq]
  constructor
  · rintro ⟨enabled, read, reads, overlap⟩
    exact ⟨read.raw, ⟨enabled, reads⟩, overlap⟩
  · rintro ⟨text, ⟨enabled, reads⟩, overlap⟩
    exact ⟨enabled, ⟨text⟩, reads, overlap⟩

/-- Affected rules do not depend on how the changed location is written. -/
theorem Rule.isAffectedBy_canonical (rule : Rule) (changed : Path) :
    rule.isAffectedBy (changed.canonicalState?.getD changed) = rule.isAffectedBy changed := by
  simp only [isAffectedBy, Path.overlaps_canonical]

/-- The members of a set are listed once. -/
theorem PathSet.nodup (set : PathSet) : set.toList.Nodup := by
  refine set.ascending.imp fun below same => ?_
  subst same
  exact String.lt_irrefl _ below

namespace DependencyIndex

/-- The readers listed under a location. -/
def readersAt (readers : Entries (List Nat)) (text : String) : List Nat :=
  (readers.lookup text).getD []

/-- A reader is added at the end of those of its location. -/
theorem readersAt_addReader (position : Nat) (readers : Entries (List Nat)) (path : Path)
    (text : String) :
    readersAt (addReader position readers path) text =
      readersAt readers text ++ if Path.mk text = path then [position] else [] := by
  obtain ⟨raw⟩ := path
  rw [readersAt, addReader, Entries.lookup_insert]
  by_cases same : text = raw
  · subst same
    rw [if_pos rfl, if_pos rfl]
    rfl
  · have different : Path.mk text ≠ ⟨raw⟩ := fun equal => same (congrArg Path.raw equal)
    rw [if_neg same, if_neg different, List.append_nil]
    rfl

/-- A rule is added once to each of the locations it reads. -/
theorem readersAt_addReaders (position : Nat) (readers : Entries (List Nat)) {paths : List Path}
    (nodup : paths.Nodup) (text : String) :
    readersAt (paths.foldl (addReader position) readers) text =
      readersAt readers text ++ if Path.mk text ∈ paths then [position] else [] := by
  induction paths generalizing readers with
  | nil => exact (List.append_nil _).symm
  | cons path paths ih =>
    obtain ⟨fresh, rest⟩ := List.nodup_cons.mp nodup
    rw [List.foldl_cons, ih _ rest, readersAt_addReader, List.append_assoc]
    by_cases same : Path.mk text = path
    · subst same
      rw [if_pos rfl, if_neg fresh, if_pos List.mem_cons_self]
      rfl
    · rw [if_neg same, List.nil_append]
      simp only [List.mem_cons, same, false_or]

/-- A rule is added to the locations it listens to. -/
theorem readersAt_addRule (readers : Entries (List Nat)) (rule : Rule × Nat) (text : String) :
    readersAt (addRule readers rule) text =
      readersAt readers text ++ if rule.1.listensTo text then [rule.2] else [] := by
  unfold addRule Rule.listensTo
  split
  · rename_i enabled
    rw [readersAt_addReaders rule.2 readers rule.1.dependsOn.nodup, enabled, Bool.true_and]
    simp only [decide_eq_true_eq]
    rfl
  · rename_i disabled
    simp [disabled]

/-- Rules are added one after the other. -/
theorem readersAt_addRules (rules : List (Rule × Nat)) (readers : Entries (List Nat))
    (text : String) :
    readersAt (rules.foldl addRule readers) text =
      readersAt readers text ++ (rules.filter fun rule => rule.1.listensTo text).map (·.2) := by
  induction rules generalizing readers with
  | nil => exact (List.append_nil _).symm
  | cons rule rules ih =>
    rw [List.foldl_cons, ih, readersAt_addRule, List.append_assoc, List.filter_cons]
    split <;> rfl

/-- Under every location the rules that listen to it are listed, in document order. -/
theorem readersAt_ofRuleSet (set : RuleSet) (text : String) :
    readersAt (ofRuleSet set).readers text = positionsWhere (Rule.listensTo · text) set.rules :=
  readersAt_addRules set.rules.zipIdx [] text

/-- The locations are in order. -/
theorem ordered_ofRuleSet (set : RuleSet) : (ofRuleSet set).readers.Ordered := by
  have addReaders : ∀ (position : Nat) (paths : List Path) (readers : Entries (List Nat)),
      readers.Ordered → (paths.foldl (addReader position) readers).Ordered := by
    intro position paths
    induction paths with
    | nil => exact fun _ ordered => ordered
    | cons path paths ih => exact fun readers ordered => ih _ (Entries.ordered_insert ordered)
  have addRules : ∀ (rules : List (Rule × Nat)) (readers : Entries (List Nat)),
      readers.Ordered → (rules.foldl addRule readers).Ordered := by
    intro rules
    induction rules with
    | nil => exact fun _ ordered => ordered
    | cons rule rules ih =>
      refine fun readers ordered => ih _ ?_
      unfold addRule
      split
      · exact addReaders rule.2 _ readers ordered
      · exact ordered
  exact addRules _ [] List.Pairwise.nil

/-- The positions are the old ones and the new one. -/
theorem mem_insertPosition {position other : Nat} {positions : List Nat} :
    other ∈ insertPosition position positions ↔ other = position ∨ other ∈ positions := by
  induction positions with
  | nil => simp [insertPosition]
  | cons first rest ih =>
    simp only [insertPosition]
    split
    · exact List.mem_cons
    · split
      · rename_i same
        simp [same]
      · rw [List.mem_cons, List.mem_cons, ih, or_left_comm]

/-- Putting a position at its place keeps the order. -/
theorem insertPosition_ascending {position : Nat} {positions : List Nat}
    (ascending : positions.Pairwise (· < ·)) :
    (insertPosition position positions).Pairwise (· < ·) := by
  induction positions with
  | nil => exact List.pairwise_singleton _ _
  | cons first rest ih =>
    obtain ⟨below, tail⟩ := List.pairwise_cons.mp ascending
    simp only [insertPosition]
    split
    · rename_i before
      refine List.pairwise_cons.mpr ⟨fun other member => ?_, ascending⟩
      rcases List.mem_cons.mp member with rfl | inside
      · exact before
      · exact Nat.lt_trans before (below other inside)
    · split
      · exact ascending
      · refine List.pairwise_cons.mpr ⟨fun other member => ?_, ih tail⟩
        rcases mem_insertPosition.mp member with rfl | inside
        · omega
        · exact below other inside

/-- Collected positions are in ascending order, and they are the given ones. -/
theorem collectPositions_spec (positions : List Nat) :
    (collectPositions positions).Pairwise (· < ·) ∧
      ∀ position, position ∈ collectPositions positions ↔ position ∈ positions := by
  have all : ∀ collected : List Nat, collected.Pairwise (· < ·) →
      (positions.foldl (fun collected position => insertPosition position collected)
        collected).Pairwise (· < ·) ∧
        ∀ position, position ∈ positions.foldl
          (fun collected position => insertPosition position collected) collected ↔
            position ∈ collected ∨ position ∈ positions := by
    induction positions with
    | nil => exact fun collected ascending => ⟨ascending, fun position => by simp⟩
    | cons first rest ih =>
      intro collected ascending
      obtain ⟨ascendingEnd, members⟩ := ih _ (insertPosition_ascending ascending)
      refine ⟨ascendingEnd, fun position => (members position).trans ?_⟩
      rw [mem_insertPosition, List.mem_cons, or_assoc, or_left_comm]
  obtain ⟨ascending, members⟩ := all [] List.Pairwise.nil
  refine ⟨ascending, fun position => (members position).trans ?_⟩
  exact or_iff_right List.not_mem_nil

/-- A position is hit if it is listed under a location that overlaps the changed one. -/
theorem mem_hits_iff {index : DependencyIndex} (ordered : index.readers.Ordered) {changed : Path}
    {position : Nat} :
    position ∈ index.hits changed ↔
      ∃ text, position ∈ readersAt index.readers text ∧ (Path.mk text).overlaps changed = true := by
  rw [hits, (collectPositions_spec _).2, List.mem_flatMap]
  constructor
  · rintro ⟨⟨text, positions⟩, entry, member⟩
    split at member
    · rename_i overlap
      refine ⟨text, ?_, overlap⟩
      rw [readersAt, (Entries.mem_iff_lookup ordered).mp entry]
      exact member
    · cases member
  · rintro ⟨text, member, overlap⟩
    rw [readersAt] at member
    cases found : index.readers.lookup text with
    | none =>
      rw [found] at member
      cases member
    | some positions =>
      rw [found] at member
      refine ⟨(text, positions), (Entries.mem_iff_lookup ordered).mpr found, ?_⟩
      rw [if_pos overlap]
      exact member

/-- The positions found for a changed location are those of the affected rules. -/
theorem affected_ofRuleSet (set : RuleSet) (changed : Path) :
    (ofRuleSet set).affected changed = positionsWhere (Rule.isAffectedBy · changed) set.rules := by
  refine eq_positionsWhere (collectPositions_spec _).1 fun position => ?_
  rw [affected]
  refine (mem_hits_iff (ordered_ofRuleSet set)).trans ?_
  simp only [readersAt_ofRuleSet, mem_positionsWhere_iff]
  constructor
  · rintro ⟨text, ⟨rule, found, listens⟩, overlap⟩
    refine ⟨rule, found, ?_⟩
    rw [← rule.isAffectedBy_canonical]
    exact Rule.isAffectedBy_iff.mpr ⟨text, listens, overlap⟩
  · rintro ⟨rule, found, affected⟩
    rw [← rule.isAffectedBy_canonical] at affected
    obtain ⟨text, listens, overlap⟩ := Rule.isAffectedBy_iff.mp affected
    exact ⟨text, ⟨rule, found, listens⟩, overlap⟩

/-- The index finds the rules that are on and read something that overlaps the changed location, in
document order and each once. -/
theorem rulesAffectedBy_ofRuleSet (set : RuleSet) (changed : Path) :
    (ofRuleSet set).rulesAffectedBy changed =
      (set.rules.filter fun rule => rule.isEnabled &&
        rule.dependsOn.toList.any fun read => read.overlaps changed).map Rule.name := by
  rw [rulesAffectedBy, affected_ofRuleSet]
  exact filterMap_positionsWhere (Rule.isAffectedBy · changed) set.rules Rule.name

/-- Whatever overlaps a location inside of another one overlaps the other one. So the rules that are
affected by a write to the inner location are among those that are affected by a write to the outer. -/
theorem rulesAffectedBy_ancestor (set : RuleSet) {ancestor suffix : String}
    (opens : suffix.toList.head? = some '.' ∨ suffix.toList.head? = some '[')
    (outer : Path.Grammatical ⟨ancestor⟩) (inner : Path.Grammatical ⟨ancestor ++ suffix⟩) :
    (∀ other : Path,
        other.overlaps ⟨ancestor ++ suffix⟩ = true → other.overlaps ⟨ancestor⟩ = true) ∧
      ((ofRuleSet set).rulesAffectedBy ⟨ancestor ++ suffix⟩).Sublist
        ((ofRuleSet set).rulesAffectedBy ⟨ancestor⟩) := by
  have inside := Path.extends_append outer (.of_head? opens)
  have overlaps (other : Path) (overlap : other.overlaps ⟨ancestor ++ suffix⟩ = true) :
      other.overlaps ⟨ancestor⟩ = true :=
    Path.overlaps_of_extends outer inner inside overlap
  refine ⟨overlaps, ?_⟩
  rw [rulesAffectedBy_ofRuleSet, rulesAffectedBy_ofRuleSet]
  refine (List.monotone_filter_right set.rules fun rule affected => ?_).map Rule.name
  simp only [Bool.and_eq_true, List.any_eq_true] at affected ⊢
  obtain ⟨enabled, read, reads, overlap⟩ := affected
  exact ⟨enabled, read, reads, overlaps read overlap⟩

/-- A rule that reads a cell of the score, by a reference without steps, is affected by a write to the
players as it is by one to the score. -/
theorem rulesAffectedBy_ancestor_score :
    Path.Grammatical ⟨"$.Players"⟩ ∧ Path.Grammatical ⟨"$.Players" ++ "[0].Score"⟩ ∧
      (Path.mk "$.Players[0].Score[x]").overlaps ⟨"$.Players" ++ "[0].Score"⟩ = true ∧
        (Path.mk "$.Players[0].Score[x]").overlaps ⟨"$.Players"⟩ = true ∧
          ["rank"].Sublist ((ofRuleSet ⟨none, none, [],
            [.ofTrigger "rank" (.onChange [⟨"$.Players[0].Score[x]"⟩])], []⟩).rulesAffectedBy
              ⟨"$.Players"⟩) := by
  have players : Segment.Spelling (.field "Players") ".Players".toList :=
    .field "Players".toList (by decide) (List.all_eq_true.mp rfl)
  have score : Segment.Spelled [.index 0, .field "Score"] "[0].Score".toList :=
    .cons (.index ['0'] (by decide) (List.all_eq_true.mp rfl) (by decide))
      (.cons (.field "Score".toList (by decide) (List.all_eq_true.mp rfl)) .nil)
  have outer : Path.Grammatical ⟨"$.Players"⟩ :=
    ⟨_, Path.segments_of_spelled rfl rfl (.cons players .nil)⟩
  have inner : Path.Grammatical ⟨"$.Players" ++ "[0].Score"⟩ :=
    ⟨_, Path.segments_of_spelled rfl rfl (.cons players score)⟩
  have unread : ¬Path.Grammatical ⟨"$.Players[0].Score[x]"⟩ := Path.not_grammatical_append inner rfl
  have overlap : (Path.mk "$.Players[0].Score[x]").overlaps ⟨"$.Players" ++ "[0].Score"⟩ = true := by
    rw [Path.overlaps_of_not_grammatical unread]
    rfl
  have reads : (Rule.ofTrigger "rank" (.onChange [⟨"$.Players[0].Score[x]"⟩])).dependsOn.toList =
      [⟨"$.Players[0].Score[x]"⟩] := rfl
  obtain ⟨overlaps, affected⟩ := rulesAffectedBy_ancestor ⟨none, none, [],
    [.ofTrigger "rank" (.onChange [⟨"$.Players[0].Score[x]"⟩])], []⟩ (.inr rfl) outer inner
  rw [rulesAffectedBy_ofRuleSet, List.filter_cons, reads, List.any_cons, overlap] at affected
  exact ⟨outer, inner, overlap, overlaps _ overlap, affected⟩

end DependencyIndex

end GameRules
