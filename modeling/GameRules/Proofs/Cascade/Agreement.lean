import GameRules.Cascade.Graph
import GameRules.Proofs.Index

/-!
# The cascade graph and the index agree

The graph compares what a rule writes with what each enabled rule reads and numbers the enabled rules
alone; the index is asked for one written location at a time and numbers all rules. Read as positions
in the document, the edges of a rule lead to the positions that the index finds for its writes.
-/

namespace GameRules

/-- A rule that is on is affected by one of several writes exactly if they reach what it reads. -/
theorem Rule.isAffectedBy_any (writes : PathSet) (rule : Rule) :
    (writes.toList.any fun written => rule.isAffectedBy written) =
      (rule.isEnabled && CascadeGraph.reaches writes rule.dependsOn) := by
  rw [CascadeGraph.reaches]
  have turned (written : Path) : (rule.dependsOn.toList.any fun read => read.overlaps written) =
      rule.dependsOn.toList.any fun read => written.overlaps read := by
    simp only [Path.overlaps_comm]
  simp only [isAffectedBy, turned]
  cases rule.isEnabled <;> simp

namespace DependencyIndex

/-- The positions that are affected by one of several writes, in document order and each once. -/
def affectedByAny (index : DependencyIndex) (writes : PathSet) : List Nat :=
  (List.range index.names.length).filter fun position =>
    writes.toList.any fun written => (index.affected written).contains position

/-- Several writes affect the enabled rules whose reads they reach. -/
theorem affectedByAny_ofRuleSet (set : RuleSet) (writes : PathSet) :
    (ofRuleSet set).affectedByAny writes =
      positionsWhere (fun rule => rule.isEnabled && CascadeGraph.reaches writes rule.dependsOn)
        set.rules := by
  refine eq_positionsWhere (List.pairwise_lt_range.filter _) fun position => ?_
  simp only [affectedByAny, ← Rule.isAffectedBy_any, List.mem_filter, List.mem_range, List.any_eq_true,
    List.contains_iff_mem, affected_ofRuleSet, mem_positionsWhere_iff]
  constructor
  · rintro ⟨-, written, writes, rule, found, affected⟩
    exact ⟨rule, found, written, writes, affected⟩
  · rintro ⟨rule, found, written, writes, affected⟩
    have inside := (List.getElem?_eq_some_iff.mp found).1
    exact ⟨by simpa [ofRuleSet] using inside, written, writes, rule, found, affected⟩

end DependencyIndex

namespace CascadeGraph

/-- The position in the document of a rule of the graph. -/
def documentPosition? (set : RuleSet) (rule : Nat) : Option Nat :=
  (positionsWhere Rule.isEnabled set.rules)[rule]?

/-- The edges of a rule lead to the positions in the document that the index finds for its writes. -/
theorem map_documentPosition?_reached (set : RuleSet) (writes : PathSet) :
    (reached writes ((enabledRules set).map Rule.dependsOn)).map (documentPosition? set) =
      ((DependencyIndex.ofRuleSet set).affectedByAny writes).map some := by
  have numbered : reached writes ((enabledRules set).map Rule.dependsOn) = _ :=
    positionsWhere_map (reaches writes) (set.rules.filter Rule.isEnabled) Rule.dependsOn
  rw [DependencyIndex.affectedByAny_ofRuleSet, numbered]
  exact map_positionsWhere_filter Rule.isEnabled _ set.rules

/-- The rules of the graph are the enabled rules of the document in turn, and the edges of each lead to
the positions in the document that the index finds for what the rule writes. -/
theorem edges_eq_affectedByAny (set : RuleSet) :
    ((ofRuleSet set).edges.zipIdx.map fun source =>
        (documentPosition? set source.2, source.1.map (documentPosition? set))) =
      (set.rules.zipIdx.filter fun rule => rule.1.isEnabled).map fun rule =>
        (some rule.2, ((DependencyIndex.ofRuleSet set).affectedByAny rule.1.modifies).map some) := by
  refine List.ext_getElem? fun source => ?_
  have located : (enabledRules set)[source]? =
      ((set.rules.zipIdx.filter fun rule => rule.1.isEnabled)[source]?).map Prod.fst := by
    rw [enabledRules, ← map_fst_filter_zipIdx, List.getElem?_map]
  have placed : documentPosition? set source =
      ((set.rules.zipIdx.filter fun rule => rule.1.isEnabled)[source]?).map Prod.snd := by
    rw [documentPosition?, positionsWhere, List.getElem?_map]
  rw [List.getElem?_map, List.getElem?_zipIdx, List.getElem?_map, ofRuleSet, List.getElem?_map,
    located]
  cases found : (set.rules.zipIdx.filter fun rule => rule.1.isEnabled)[source]? with
  | none => rfl
  | some rule =>
    rw [found] at placed
    simp [placed, map_documentPosition?_reached]

end CascadeGraph

end GameRules
