import GameRules.Proofs.Cascade.Search
import Mathlib.Algebra.Order.BigOperators.Group.List
import Mathlib.Algebra.Order.Group.Nat

/-!
# The reported loops are the feedback loops

Every reported loop is a loop of the graph, and without the edges that close the reported loops no
loop is left. So there are reported loops exactly when the graph has loops.
-/

namespace GameRules

namespace CascadeGraph

variable {graph : CascadeGraph}

/-- The invariant holds before any rule is met. -/
theorem Search.invariant_start (wellFormed : graph.WellFormed) :
    graph.startSearch.Invariant graph := by
  have progress : ∀ rule, graph.startSearch.progressOf rule =
      if rule < graph.size then .unvisited else .done := by
    intro rule
    rw [startSearch, Search.progressOf, List.getElem?_replicate]
    split <;> rfl
  have outside : ∀ rule target, graph.startSearch.progressOf rule = .done →
      ¬graph.Edge rule target := by
    intro rule target done edge
    rw [progress, if_pos (wellFormed.source_lt edge)] at done
    cases done
  refine ⟨List.length_replicate, ?_, List.nodup_nil, List.isChain_nil, List.forall_mem_nil _,
    trivial, ?_, ?_⟩
  · intro rule
    rw [progress]
    constructor
    · intro onPath
      split at onPath <;> cases onPath
    · intro member
      cases member
  · intro source target done kept
    exact absurd kept.1 (outside source target done)
  · intro rule done loop
    obtain ⟨target, kept, -⟩ := Relation.TransGen.head'_iff.mp loop
    exact outside rule target done kept.1

/-- One step for every edge of a rule and one to leave it make up the bound of the search. -/
theorem sum_steps_eq_searchBound (wellFormed : graph.WellFormed) :
    ((List.range graph.size).map fun rule => (graph.targets rule).length + 1).sum =
      graph.searchBound := by
  have edges : graph.edges.flatten.length =
      ((List.range graph.size).map fun rule => (graph.targets rule).length).sum := by
    rw [List.length_flatten, ← wellFormed.map_targets, List.map_map]
    rfl
  rw [List.sum_map_add, searchBound, edges]
  simp [Nat.add_comm]

/-- The unmet rules take no more steps than the bound of the search. -/
theorem Search.unmetSteps_le (wellFormed : graph.WellFormed) (search : Search) :
    search.unmetSteps graph ≤ graph.searchBound := by
  rw [← sum_steps_eq_searchBound wellFormed]
  exact ((List.filter_sublist).map _).sum_le_sum fun _ _ => Nat.zero_le _

/-- Beginning a way changes nothing about how many steps are left. -/
theorem Search.Invariant.remaining_enter {search : Search} (invariant : search.Invariant graph)
    (idle : search.frames = []) {start : Nat} (inGraph : start < graph.size)
    (unvisited : search.progressOf start = .unvisited) :
    (search.enter start).remaining graph = search.remaining graph := by
  have inside : start < search.progress.length := invariant.progress_length ▸ inGraph
  have progress := @Search.progressOf_set search (search.enter start) _ _ inside rfl
  have counted : search.unmetSteps graph = _ := Search.unmetSteps_enter inGraph unvisited progress
  have frames : (search.enter start).frames = [⟨start, 0⟩] :=
    congrArg (List.cons (⟨start, 0⟩ : Frame)) idle
  have begun : Frame.remaining graph ⟨start, 0⟩ = (graph.targets start).length + 1 := rfl
  rw [Search.remaining, Search.remaining, frames, idle, counted, List.map_singleton,
    List.sum_singleton, List.map_nil, List.sum_nil, begun]
  omega

/-- A search from one rule keeps the invariant, leaves no rule on the way, meets the rule, and does
not forget any other. -/
theorem Search.Invariant.searchRule (wellFormed : graph.WellFormed) {search : Search}
    (invariant : search.Invariant graph) (idle : search.frames = []) {start : Nat}
    (inGraph : start < graph.size) :
    (graph.searchRule search start).Invariant graph ∧
      (graph.searchRule search start).frames = [] ∧
        (graph.searchRule search start).progressOf start ≠ .unvisited ∧
          ∀ rule, search.progressOf rule ≠ .unvisited →
            (graph.searchRule search start).progressOf rule ≠ .unvisited := by
  unfold CascadeGraph.searchRule
  split
  · rename_i unvisited
    have inside : start < search.progress.length := invariant.progress_length ▸ inGraph
    have progress := @Search.progressOf_set search (search.enter start) _ _ inside rfl
    have entered : ∀ rule, search.progressOf rule ≠ .unvisited ∨ rule = start →
        (search.enter start).progressOf rule ≠ .unvisited := by
      intro rule met
      rw [progress]
      split
      · exact nofun
      · rename_i different
        exact met.resolve_right different
    have enough : (search.enter start).remaining graph ≤ graph.searchBound := by
      rw [invariant.remaining_enter idle inGraph unvisited, Search.remaining, idle]
      exact search.unmetSteps_le wellFormed
    obtain ⟨result, ended, met⟩ :=
      (invariant.start idle inGraph unvisited).searchFrom wellFormed enough
    exact ⟨result, ended, met start (entered start (.inr rfl)),
      fun rule before => met rule (entered rule (.inl before))⟩
  · rename_i met
    exact ⟨invariant, idle, met, fun _ before => before⟩

/-- While no rule is on the way, a rule is done once it has been met. -/
theorem Search.Invariant.done_of_met {search : Search} (invariant : search.Invariant graph)
    (idle : search.frames = []) {rule : Nat}
    (met : rule < graph.size → search.progressOf rule ≠ .unvisited) :
    search.progressOf rule = .done := by
  by_cases inGraph : rule < graph.size
  · have path : search.path = [] := congrArg (List.map Frame.rule) idle
    cases progress : search.progressOf rule with
    | unvisited => exact absurd progress (met inGraph)
    | onPath =>
      have member := (invariant.onPath_iff rule).mp progress
      rw [path] at member
      cases member
    | done => rfl
  · have none : search.progress[rule]? = none := by
      rw [List.getElem?_eq_none_iff, invariant.progress_length]
      omega
    rw [Search.progressOf, none, Option.getD_none]

/-- When the search from every rule is over, the invariant holds and every rule is done. -/
theorem searchAll_done (wellFormed : graph.WellFormed) :
    graph.searchAll.Invariant graph ∧ ∀ rule, graph.searchAll.progressOf rule = .done := by
  have all : ∀ starts : List Nat, (∀ rule ∈ starts, rule < graph.size) → ∀ search : Search,
      search.Invariant graph → search.frames = [] →
        (starts.foldl graph.searchRule search).Invariant graph ∧
          (starts.foldl graph.searchRule search).frames = [] ∧
            ∀ rule, rule ∈ starts ∨ search.progressOf rule ≠ .unvisited →
              (starts.foldl graph.searchRule search).progressOf rule ≠ .unvisited := by
    intro starts inGraph
    induction starts with
    | nil => exact fun search invariant idle => ⟨invariant, idle, fun rule met => by simpa using met⟩
    | cons start starts ih =>
      intro search invariant idle
      obtain ⟨inGraphStart, inGraphRest⟩ := List.forall_mem_cons.mp inGraph
      obtain ⟨result, ended, metStart, metBefore⟩ := invariant.searchRule wellFormed idle inGraphStart
      obtain ⟨invariantEnd, idleEnd, met⟩ := ih inGraphRest _ result ended
      refine ⟨invariantEnd, idleEnd, fun rule before => met rule ?_⟩
      rcases before with member | before
      · rcases List.mem_cons.mp member with rfl | later
        · exact .inr metStart
        · exact .inl later
      · exact .inr (metBefore rule before)
  obtain ⟨invariant, idle, met⟩ : graph.searchAll.Invariant graph ∧ graph.searchAll.frames = [] ∧ _ :=
    all (List.range graph.size) (fun rule member => List.mem_range.mp member) graph.startSearch
      (Search.invariant_start wellFormed) rfl
  exact ⟨invariant, fun rule => invariant.done_of_met idle fun inGraph =>
    met rule (.inl (List.mem_range.mpr inGraph))⟩

/-- An edge closes one of some loops in whichever order they are listed. -/
theorem closes_reverse_iff {found : List (List Nat)} {source target : Nat} :
    Closes found.reverse source target ↔ Closes found source target := by
  simp only [Closes, List.mem_reverse]

/-- The reported loops are loops of the graph. -/
theorem isLoop_of_mem_loops (wellFormed : graph.WellFormed) {loop : List Nat}
    (member : loop ∈ graph.loops) : graph.IsLoop loop :=
  (searchAll_done wellFormed).1.found_loops loop (List.mem_reverse.mp member)

/-- No loop is left without the edges that close the reported loops. -/
theorem kept_acyclic (wellFormed : graph.WellFormed) (rule : Nat) :
    ¬Relation.TransGen (graph.Kept graph.loops) rule rule := by
  obtain ⟨invariant, done⟩ := searchAll_done wellFormed
  refine fun loop => invariant.done_acyclic rule (done rule) (loop.lift id ?_)
  exact fun _ _ kept => ⟨kept.1, fun closes => kept.2 (closes_reverse_iff.mpr closes)⟩

/-- A closed way along edges comes back by way of these edges. -/
theorem transGen_of_isChain {related : Nat → Nat → Prop} {origin : Nat} {middle : List Nat}
    (way : (origin :: middle ++ [origin]).IsChain related) :
    Relation.TransGen related origin origin := by
  cases middle with
  | nil => exact .single (List.isChain_pair.mp way)
  | cons next middle =>
    obtain ⟨edge, rest⟩ := List.isChain_cons_cons.mp way
    exact .head' edge (List.relationReflTransGen_of_exists_isChain_cons _ rest (by simp))

/-- Every closed way along edges follows an edge that closes a reported loop. -/
theorem exists_closes_of_isChain (wellFormed : graph.WellFormed) {origin : Nat}
    {middle : List Nat} (way : (origin :: middle ++ [origin]).IsChain graph.Edge) :
    ∃ source target, [source, target] <:+: origin :: middle ++ [origin] ∧
      Closes graph.loops source target := by
  by_contra none
  have kept : (origin :: middle ++ [origin]).IsChain (graph.Kept graph.loops) := by
    rw [List.isChain_iff_forall_rel_of_append_cons_cons] at way ⊢
    intro source target before after split
    refine ⟨way split, fun closes => none ⟨source, target, ⟨before, after, ?_⟩, closes⟩⟩
    rw [split, List.append_assoc]
    rfl
  exact kept_acyclic wellFormed origin (transGen_of_isChain kept)

/-- The edges of a loop lead from its first rule back to it. -/
theorem IsLoop.onLoop {loop : List Nat} (isLoop : graph.IsLoop loop) :
    ∃ rule, graph.OnLoop rule := by
  obtain ⟨first, others, rfl, -⟩ := isLoop.simple
  exact ⟨first, transGen_of_isChain isLoop.edges⟩

/-- There are no reported loops exactly when no rule is on a loop. -/
theorem hasCycles_eq_false_iff (wellFormed : graph.WellFormed) :
    graph.hasCycles = false ↔ ∀ rule, ¬graph.OnLoop rule := by
  rw [hasCycles, Bool.not_eq_false', List.isEmpty_iff]
  constructor
  · intro none rule loop
    refine kept_acyclic wellFormed rule (loop.lift id fun source target edge => ⟨edge, ?_⟩)
    rw [none]
    rintro ⟨loop, found, -⟩
    cases found
  · intro none
    cases found : graph.loops with
    | nil => rfl
    | cons loop others =>
      have member : loop ∈ graph.loops := found ▸ List.mem_cons_self
      obtain ⟨rule, onLoop⟩ := (isLoop_of_mem_loops wellFormed member).onLoop
      exact absurd onLoop (none rule)

/-- The reported cycles are the loops found, by name; each of them is a loop of different enabled
rules along edges. Every closed way along edges follows an edge that closes one of them, so that no
closed way is left without these edges, and there are reported cycles exactly when there are loops. -/
theorem cycles_sound_and_complete (set : RuleSet) :
    let graph := ofRuleSet set
    graph.cycles = graph.loops.map (fun loop => loop.map graph.name) ∧
      (∀ loop ∈ graph.loops, ∃ first others, loop = first :: others ++ [first] ∧
        (first :: others).Nodup ∧ (∀ rule ∈ first :: others, rule < (enabledRules set).length) ∧
          loop.IsChain graph.Edge) ∧
        (∀ origin middle, (origin :: middle ++ [origin]).IsChain graph.Edge →
          ∃ source target, [source, target] <:+: origin :: middle ++ [origin] ∧
            Closes graph.loops source target) ∧
          (∀ rule, ¬Relation.TransGen (graph.Kept graph.loops) rule rule) ∧
            (graph.hasCycles = false ↔ ∀ rule, ¬graph.OnLoop rule) := by
  intro graph
  have wellFormed : graph.WellFormed := wellFormed_ofRuleSet set
  have size : graph.size = (enabledRules set).length := List.length_map ..
  refine ⟨rfl, ?_, fun origin middle way => exists_closes_of_isChain wellFormed way,
    kept_acyclic wellFormed, hasCycles_eq_false_iff wellFormed⟩
  intro loop member
  have isLoop := isLoop_of_mem_loops wellFormed member
  obtain ⟨first, others, ends, nodup, inGraph⟩ := isLoop.simple
  exact ⟨first, others, ends, nodup, fun rule inLoop => size ▸ inGraph rule inLoop, isLoop.edges⟩

end CascadeGraph

end GameRules
