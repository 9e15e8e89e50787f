import GameRules.Proofs.Cascade.Order

/-!
# The counters of the worklist

The worklist runs in rounds. Each round takes the preferred ready rule, places it, and counts its
edges as done, one after the other; a rule whose count comes to zero is put among the ready ones. At
the start of every round a rule's counter is the number of rules not placed that lead to it. So no
edge is counted as done at zero, no rule is put among the ready ones twice, and there are no more
rounds than rules.
-/

namespace GameRules

namespace CascadeGraph

variable {graph : CascadeGraph}

/-- The rules not placed that lead to a rule. -/
def blockers (graph : CascadeGraph) (placed : List Nat) (rule : Nat) : List Nat :=
  (graph.unplaced placed).filter fun source => graph.Edge source rule

/-- The edges into a rule from some rules are as many as those of the rules that lead to it. -/
theorem count_flatMap_targets (wellFormed : graph.WellFormed) (sources : List Nat) (rule : Nat) :
    (sources.flatMap graph.targets).count rule =
      (sources.filter fun source => graph.Edge source rule).length := by
  induction sources with
  | nil => rfl
  | cons source sources ih =>
    have own : (graph.targets source).count rule = if graph.Edge source rule then 1 else 0 :=
      (wellFormed.targets_nodup source).count
    rw [List.flatMap_cons, List.count_append, ih, own, List.filter_cons]
    by_cases edge : graph.Edge source rule
    · rw [if_pos edge, if_pos (decide_eq_true edge), List.length_cons, Nat.add_comm]
    · rw [if_neg edge, if_neg (by simpa using edge), Nat.zero_add]

/-- A rule waits for one edge from each rule that blocks it. -/
theorem waiting_eq_length_blockers (wellFormed : graph.WellFormed) (placed : List Nat) (rule : Nat) :
    graph.waiting placed rule = (graph.blockers placed rule).length :=
  count_flatMap_targets wellFormed (graph.unplaced placed) rule

/-- The rules that are put among the ready ones while edges into some rules are counted as done. -/
def freed (graph : CascadeGraph) : List Nat → Worklist → List Nat
  | [], _ => []
  | rule :: todo, list =>
    if (list.pending[rule]?).getD 0 - 1 = 0 then rule :: graph.freed todo (graph.release list rule)
    else graph.freed todo (graph.release list rule)

/-- The worklist in the middle of a round, when a rule has been taken off the ready ones and placed,
and none of its edges has been counted as done. -/
def Worklist.take (list : Worklist) (rule : Nat) (ready : List Nat) : Worklist :=
  { list with ready, placed := rule :: list.placed }

/-- The worklist at the start of a round, with the number of rounds before it and the rules that have
been put among the ready ones so far. -/
inductive Worklist.Reached (graph : CascadeGraph) : Nat → List Nat → Worklist → Prop where
  /-- At first the rules without an edge into them are ready. -/
  | start : Reached graph 0 ((List.range graph.size).filter fun rule => graph.inDegree rule == 0)
      graph.startWorklist
  /-- A round takes the preferred ready rule. -/
  | next {rounds rule : Nat} {inserted ready : List Nat} {list next : Worklist}
      (reached : Reached graph rounds inserted list) (first : list.ready = rule :: ready)
      (step : graph.place? list = some next) :
      Reached graph (rounds + 1)
        (inserted ++ graph.freed (graph.targets rule) (list.take rule ready)) next

/-- A round counts the edges of the rule that it takes as done. -/
theorem place?_of_ready (graph : CascadeGraph) {list : Worklist} {rule : Nat} {ready : List Nat}
    (first : list.ready = rule :: ready) :
    graph.place? list = some ((graph.targets rule).foldl graph.release (list.take rule ready)) := by
  rw [place?, first]
  rfl

/-- The ready rules after some edges are counted as done are those from before and the freed ones. -/
theorem ready_releaseAll_perm (graph : CascadeGraph) (todo : List Nat) (list : Worklist) :
    (todo.foldl graph.release list).ready.Perm (list.ready ++ graph.freed todo list) := by
  induction todo generalizing list with
  | nil => exact .of_eq (List.append_nil _).symm
  | cons rule todo ih =>
    rw [List.foldl_cons, freed]
    refine (ih _).trans ?_
    by_cases free : (list.pending[rule]?).getD 0 - 1 = 0
    · have added : (graph.release list rule).ready = graph.insertReady rule list.ready := by
        rw [release, if_pos free]
      rw [if_pos free, added]
      exact ((graph.insertReady_perm rule list.ready).append_right _).trans List.perm_middle.symm
    · have kept : (graph.release list rule).ready = list.ready := by
        rw [release, if_neg free]
      rw [if_neg free, kept]

/-- What holds at the start of every round. -/
structure Worklist.Consistent (graph : CascadeGraph) (rounds : Nat) (inserted : List Nat)
    (list : Worklist) : Prop where
  /-- The counters and the ready rules are those of the rules not placed. -/
  accurate : Worklist.Accurate graph [] list
  /-- Every round places a rule. -/
  rounds_eq : rounds = list.placed.length
  /-- A rule that was put among the ready ones is there still, or it has been placed. -/
  inserted_perm : inserted.Perm (list.ready ++ list.placed)

/-- The worklist is consistent before the first round. -/
theorem Worklist.consistent_start (wellFormed : graph.WellFormed) :
    Worklist.Consistent graph 0
      ((List.range graph.size).filter fun rule => graph.inDegree rule == 0) graph.startWorklist := by
  have nodup : ((List.range graph.size).filter fun rule => graph.inDegree rule == 0).Nodup :=
    List.nodup_range.filter _
  have ready : graph.startWorklist.ready.Perm _ := byPreference_perm nodup
  exact ⟨Worklist.accurate_start wellFormed, rfl, ready.symm.trans (.of_eq (List.append_nil _).symm)⟩

/-- A round keeps the worklist consistent. -/
theorem Worklist.Consistent.next (wellFormed : graph.WellFormed) {rounds rule : Nat}
    {inserted ready : List Nat} {list next : Worklist}
    (consistent : Worklist.Consistent graph rounds inserted list)
    (first : list.ready = rule :: ready) (step : graph.place? list = some next) :
    Worklist.Consistent graph (rounds + 1)
      (inserted ++ graph.freed (graph.targets rule) (list.take rule ready)) next := by
  obtain ⟨pending, _, placed⟩ := list
  cases first
  obtain ⟨accurate, rounds_eq, inserted_perm⟩ := consistent
  cases (graph.place?_of_ready rfl).symm.trans step
  obtain ⟨accurateNext, placedNext⟩ :=
    accurate.takeAndRelease wellFormed (List.append_nil (graph.targets rule)).symm
  refine ⟨accurateNext, ?_, ?_⟩
  · exact (congrArg (· + 1) rounds_eq).trans (congrArg List.length placedNext).symm
  · -- The rule that is taken goes to the placed ones, and the freed rules come to the ready ones.
    have readyNext := graph.ready_releaseAll_perm (graph.targets rule)
      (Worklist.take ⟨pending, rule :: ready, placed⟩ rule ready)
    generalize graph.freed (graph.targets rule) _ = new at readyNext ⊢
    have moved : (rule :: ready ++ placed).Perm (ready ++ rule :: placed) := List.perm_middle.symm
    calc
      List.Perm (inserted ++ new) ((ready ++ rule :: placed) ++ new) :=
        (inserted_perm.trans moved).append_right new
      List.Perm _ (ready ++ (new ++ rule :: placed)) := by
        rw [List.append_assoc]
        exact List.perm_append_comm.append_left ready
      List.Perm _ ((ready ++ new) ++ rule :: placed) := .of_eq (List.append_assoc ..).symm
      List.Perm _ _ := readyNext.symm.append (.of_eq placedNext.symm)

/-- The worklist is consistent at the start of every round. -/
theorem Worklist.Reached.consistent (wellFormed : graph.WellFormed) {rounds : Nat}
    {inserted : List Nat} {list : Worklist} (reached : Worklist.Reached graph rounds inserted list) :
    Worklist.Consistent graph rounds inserted list := by
  induction reached with
  | start => exact Worklist.consistent_start wellFormed
  | next _ first step ih => exact ih.next wellFormed first step

namespace Worklist.Consistent

variable {rounds : Nat} {inserted : List Nat} {list : Worklist}

/-- A rule's counter is the number of the rules that block it. -/
theorem pending_eq (consistent : Worklist.Consistent graph rounds inserted list)
    (wellFormed : graph.WellFormed) {rule : Nat} (inGraph : rule < graph.size) :
    list.pending[rule]? = some (graph.blockers list.placed rule).length := by
  have inside : rule < list.pending.length := consistent.accurate.pending_length ▸ inGraph
  have counted := consistent.accurate.pending_eq rule inGraph
  rw [List.count_nil, Nat.add_zero, waiting_eq_length_blockers wellFormed] at counted
  rw [List.getElem?_eq_getElem inside] at counted ⊢
  exact congrArg some counted

/-- The ready rules are those whose counter is zero and that are not placed. -/
theorem mem_ready_iff (consistent : Worklist.Consistent graph rounds inserted list)
    (wellFormed : graph.WellFormed) (rule : Nat) :
    rule ∈ list.ready ↔
      rule < graph.size ∧ rule ∉ list.placed ∧ list.pending[rule]? = some 0 := by
  rw [consistent.accurate.mem_ready_iff]
  constructor
  · rintro ⟨free, -⟩
    have none : graph.waiting list.placed rule = 0 :=
      (waiting_eq_zero_iff wellFormed).mpr free.preceded
    rw [waiting_eq_length_blockers wellFormed] at none
    exact ⟨free.lt_size, free.unplaced, none ▸ consistent.pending_eq wellFormed free.lt_size⟩
  · rintro ⟨inGraph, unplaced, zero⟩
    have none : (graph.blockers list.placed rule).length = 0 :=
      Option.some_inj.mp ((consistent.pending_eq wellFormed inGraph).symm.trans zero)
    rw [← waiting_eq_length_blockers wellFormed] at none
    exact ⟨⟨inGraph, unplaced, (waiting_eq_zero_iff wellFormed).mp none⟩, List.not_mem_nil⟩

/-- When an edge is to be counted as done, the counter of its target is not zero. -/
theorem pending_pos (consistent : Worklist.Consistent graph rounds inserted list)
    (wellFormed : graph.WellFormed) {rule target : Nat} {ready counted todo : List Nat}
    (first : list.ready = rule :: ready) (split : graph.targets rule = counted ++ target :: todo) :
    ∃ left, (counted.foldl graph.release (list.take rule ready)).pending[target]? =
      some (left + 1) := by
  obtain ⟨pending, _, placed⟩ := list
  cases first
  have inGraph : target < graph.size :=
    wellFormed.target_lt (split ▸ List.mem_append_right _ List.mem_cons_self)
  obtain ⟨accurate, -⟩ := consistent.accurate.takeAndRelease wellFormed split
  have inside := accurate.pending_length ▸ inGraph
  have counter := accurate.pending_eq target inGraph
  rw [List.getElem?_eq_getElem inside, Option.getD_some, List.count_cons_self, ← Nat.add_assoc]
    at counter
  exact ⟨_, (List.getElem?_eq_getElem inside).trans (congrArg some counter)⟩

/-- No rule is put among the ready ones twice. -/
theorem inserted_nodup (consistent : Worklist.Consistent graph rounds inserted list) :
    inserted.Nodup := by
  have accurate := consistent.accurate
  rw [consistent.inserted_perm.nodup_iff]
  refine List.nodup_append.mpr ⟨accurate.sorted.nodup, accurate.placed_nodup, ?_⟩
  rintro rule ready _ placed rfl
  exact ((accurate.mem_ready_iff rule).mp ready).1.unplaced placed

/-- There are no more rounds than rules. -/
theorem rounds_le (consistent : Worklist.Consistent graph rounds inserted list) :
    rounds ≤ graph.size := by
  rw [consistent.rounds_eq]
  exact length_le_of_forall_lt consistent.accurate.placed_nodup consistent.accurate.placed_lt

end Worklist.Consistent

/-- Rounds are taken until no rule is ready, if as many may be taken as there are rules left. -/
theorem Worklist.Reached.placeAll (wellFormed : graph.WellFormed) {bound rounds : Nat}
    {inserted : List Nat} {list : Worklist} (reached : Worklist.Reached graph rounds inserted list)
    (enough : graph.size ≤ rounds + bound) :
    ∃ last all, Worklist.Reached graph last all (graph.placeAll bound list) ∧
      (graph.placeAll bound list).ready = [] := by
  induction bound generalizing rounds inserted list with
  | zero =>
    refine ⟨rounds, inserted, reached, ?_⟩
    cases first : list.ready with
    | nil => exact first
    | cons rule ready =>
      -- Another round would be one more than there are rules.
      have further := (reached.next first (graph.place?_of_ready first)).consistent wellFormed
      have fewer := further.rounds_le
      omega
  | succ bound ih =>
    cases first : list.ready with
    | nil =>
      have stop : graph.place? list = none := by rw [place?, first]
      rw [CascadeGraph.placeAll, stop]
      exact ⟨rounds, inserted, reached, first⟩
    | cons rule ready =>
      have step := graph.place?_of_ready first
      rw [CascadeGraph.placeAll, step]
      exact ih (reached.next first step) (by omega)

/-- At the start of every round of the worklist of a rule set, a rule's counter is the number of rules
not placed that lead to it, and the ready rules are those not placed whose counter is zero. So no edge
is counted as done while the counter of its target is zero, every rule is put among the ready ones at
most once, and there are at most as many rounds as enabled rules; the order of the rules is built when
no rule is ready any more. -/
theorem worklist_exact (set : RuleSet) :
    let graph := ofRuleSet set
    (∀ rounds inserted list, Worklist.Reached graph rounds inserted list →
      (∀ rule < graph.size,
        list.pending[rule]? = some (graph.blockers list.placed rule).length) ∧
      (∀ rule, rule ∈ list.ready ↔
        rule < graph.size ∧ rule ∉ list.placed ∧ list.pending[rule]? = some 0) ∧
      (∀ rule ready counted target todo, list.ready = rule :: ready →
        graph.targets rule = counted ++ target :: todo →
          ∃ left, (counted.foldl graph.release (list.take rule ready)).pending[target]? =
            some (left + 1)) ∧
      inserted.Nodup ∧ inserted.Perm (list.ready ++ list.placed) ∧
      rounds ≤ (enabledRules set).length) ∧
    ∃ rounds inserted,
      Worklist.Reached graph rounds inserted (graph.placeAll graph.size graph.startWorklist) ∧
        (graph.placeAll graph.size graph.startWorklist).ready = [] := by
  intro graph
  have wellFormed : graph.WellFormed := wellFormed_ofRuleSet set
  have size : graph.size = (enabledRules set).length := List.length_map ..
  refine ⟨fun rounds inserted list reached => ?_,
    Worklist.Reached.start.placeAll wellFormed (Nat.le_add_left _ _)⟩
  have consistent := reached.consistent wellFormed
  refine ⟨fun rule inGraph => consistent.pending_eq wellFormed inGraph,
    consistent.mem_ready_iff wellFormed, ?_, consistent.inserted_nodup, consistent.inserted_perm,
    size ▸ consistent.rounds_le⟩
  intro rule ready counted target todo first split
  exact consistent.pending_pos wellFormed first split

/-- Where a sensor sets off a siren that sets off itself, the only round places the sensor. Then the
siren is blocked by itself alone, as its counter says, and was never put among the ready ones. -/
theorem worklist_exact_feedback :
    Worklist.Reached (ofRuleSet feedback) 1 [0] ⟨[0, 1], [], [0]⟩ ∧
      ((ofRuleSet feedback).blockers [0] 1).length = 1 ∧ 1 ≤ (enabledRules feedback).length := by
  have first : (ofRuleSet feedback).startWorklist.ready = [0] := by decide +kernel
  have step : (ofRuleSet feedback).place? (ofRuleSet feedback).startWorklist =
      some ⟨[0, 1], [], [0]⟩ := by decide +kernel
  have inserted : ((List.range (ofRuleSet feedback).size).filter fun rule =>
      (ofRuleSet feedback).inDegree rule == 0) ++ (ofRuleSet feedback).freed
        ((ofRuleSet feedback).targets 0) ((ofRuleSet feedback).startWorklist.take 0 []) = [0] := by
    decide +kernel
  have reached := Worklist.Reached.start.next first step
  rw [inserted] at reached
  obtain ⟨counted, -, -, -, -, rounds⟩ := (worklist_exact feedback).1 1 [0] _ reached
  have counter := counted 1 (show 1 < 2 by decide)
  exact ⟨reached, (Option.some_inj.mp counter).symm, rounds⟩

end CascadeGraph

end GameRules
