import GameRules.Cascade.Graph
import GameRules.Proofs.Positions
import Mathlib.Data.Fintype.Card
import Mathlib.Data.Fintype.EquivFin
import Mathlib.Logic.Relation

/-!
# Edges and loops of the cascade graph

Rules are positions, and every edge leads from a position of the graph to another. A graph has
finitely many rules, so a set of rules that each have a predecessor in the set holds a loop.
-/

namespace GameRules

namespace CascadeGraph

/-- There is an edge from one rule to another. -/
def Edge (graph : CascadeGraph) (source target : Nat) : Prop := target ∈ graph.targets source

instance (graph : CascadeGraph) (source target : Nat) : Decidable (graph.Edge source target) :=
  inferInstanceAs (Decidable (target ∈ graph.targets source))

/-- What the graph of a rule set is. -/
structure WellFormed (graph : CascadeGraph) : Prop where
  /-- Every rule has its edges. -/
  edges_length : graph.edges.length = graph.size
  /-- Edges lead to rules of the graph. -/
  target_lt : ∀ {source target}, graph.Edge source target → target < graph.size
  /-- A rule leads to another at most once. -/
  targets_nodup : ∀ source, (graph.targets source).Nodup

/-- Edges start at rules of the graph. -/
theorem WellFormed.source_lt {graph : CascadeGraph} (wellFormed : graph.WellFormed)
    {source target : Nat} (edge : graph.Edge source target) : source < graph.size := by
  by_contra outside
  have none : graph.edges[source]? = none := by
    rw [List.getElem?_eq_none_iff, wellFormed.edges_length]
    omega
  rw [Edge, targets, none] at edge
  cases edge

/-- The edges are those of the rules, one rule after the other. -/
theorem WellFormed.map_targets {graph : CascadeGraph} (wellFormed : graph.WellFormed) :
    (List.range graph.size).map graph.targets = graph.edges :=
  List.ext_getElem (by simp [wellFormed.edges_length])
    fun source _ inside => by simp [targets, inside]

/-- The graph of a rule set is well-formed. -/
theorem wellFormed_ofRuleSet (set : RuleSet) : (ofRuleSet set).WellFormed := by
  have listed : ∀ source, (ofRuleSet set).targets source = [] ∨
      ∃ writes, (ofRuleSet set).targets source =
        positionsWhere (reaches writes) ((enabledRules set).map Rule.dependsOn) := by
    intro source
    cases found : (ofRuleSet set).edges[source]? with
    | none => exact .inl (by rw [targets, found]; rfl)
    | some edges =>
      obtain ⟨rule, -, rfl⟩ := List.mem_map.mp (List.mem_of_getElem? found)
      exact .inr ⟨rule.modifies, by rw [targets, found]; rfl⟩
  refine ⟨by simp [ofRuleSet, size], ?_, ?_⟩
  · intro source target edge
    rcases listed source with none | ⟨writes, reached⟩
    · rw [Edge, none] at edge
      cases edge
    · rw [Edge, reached, mem_positionsWhere_iff] at edge
      obtain ⟨reads, found, -⟩ := edge
      have inside := (List.getElem?_eq_some_iff.mp found).1
      simpa [ofRuleSet, size] using inside
  · intro source
    rcases listed source with none | ⟨writes, reached⟩
    · rw [none]
      exact List.nodup_nil
    · rw [reached]
      exact (positionsWhere_ascending _ _).imp Nat.ne_of_lt

/-- A rule lies on a loop. -/
def OnLoop (graph : CascadeGraph) (rule : Nat) : Prop := Relation.TransGen graph.Edge rule rule

/-- A rule lies on a loop or is reached from one. -/
def Trapped (graph : CascadeGraph) (rule : Nat) : Prop :=
  ∃ origin, graph.OnLoop origin ∧ Relation.ReflTransGen graph.Edge origin rule

/-- A rule on a loop is trapped. -/
theorem OnLoop.trapped {graph : CascadeGraph} {rule : Nat} (loop : graph.OnLoop rule) :
    graph.Trapped rule :=
  ⟨rule, loop, .refl⟩

/-- What is reached from a trapped rule is trapped. -/
theorem Trapped.trans {graph : CascadeGraph} {source target : Nat} (trapped : graph.Trapped source)
    (reached : Relation.TransGen graph.Edge source target) : graph.Trapped target := by
  obtain ⟨origin, loop, path⟩ := trapped
  exact ⟨origin, loop, path.trans reached.to_reflTransGen⟩

/-- There is an edge into a trapped rule from a trapped rule. -/
theorem Trapped.predecessor {graph : CascadeGraph} {rule : Nat} (trapped : graph.Trapped rule) :
    ∃ source, graph.Edge source rule ∧ graph.Trapped source := by
  obtain ⟨origin, loop, path⟩ := trapped
  cases path with
  | refl =>
    obtain ⟨source, path, edge⟩ := Relation.TransGen.tail'_iff.mp loop
    exact ⟨source, edge, rule, loop, path⟩
  | tail path edge => exact ⟨_, edge, origin, loop, path⟩

/-- If every rule of a set has a predecessor in the set, they are all trapped: going backwards in a
finite graph has to come round. -/
theorem trapped_of_predecessor {graph : CascadeGraph} {rules : Nat → Prop}
    (inGraph : ∀ rule, rules rule → rule < graph.size)
    (preceded : ∀ rule, rules rule → ∃ source, rules source ∧ graph.Edge source rule)
    {rule : Nat} (member : rules rule) : graph.Trapped rule := by
  -- The rules of the set that are not trapped form no loop, so one of them would have to come first.
  let free := { rule : Fin graph.size // rules rule ∧ ¬graph.Trapped rule }
  let reaches : free → free → Prop := fun left right => Relation.TransGen graph.Edge left.1 right.1
  have transitive : IsTrans free reaches := ⟨fun _ _ _ => Relation.TransGen.trans⟩
  have irreflexive : Std.Irrefl reaches :=
    ⟨fun origin loop => origin.2.2 (OnLoop.trapped loop)⟩
  have finite : Finite free := Subtype.finite
  have wellFounded : WellFounded reaches := Finite.wellFounded_of_trans_of_irrefl reaches
  have none : free → False := by
    intro rule
    induction rule using wellFounded.induction with
    | _ rule ih =>
      obtain ⟨source, inSet, edge⟩ := preceded rule.1 rule.2.1
      have freeSource : ¬graph.Trapped source := fun trapped =>
        rule.2.2 (trapped.trans (.single edge))
      exact ih ⟨⟨source, inGraph source inSet⟩, inSet, freeSource⟩ (.single edge)
  by_contra free
  exact none ⟨⟨rule, inGraph rule member⟩, member, free⟩

/-- A sensor that sets off a siren, and the siren, which sets off itself. -/
def feedback : RuleSet :=
  let raise : Effect := .set ⟨"$.alarm"⟩ (.path ⟨"$.level"⟩)
  ⟨none, none, [],
    [(Rule.ofTrigger "sensor" (.onChange [⟨"$.players"⟩])).withEffect raise,
      (Rule.ofTrigger "siren" (.onChange [⟨"$.alarm"⟩])).withEffect raise], []⟩

/-- Both the sensor and the siren lead to the siren. -/
theorem edges_feedback : (ofRuleSet feedback).edges = [[1], [1]] := by decide +kernel

end CascadeGraph

end GameRules
