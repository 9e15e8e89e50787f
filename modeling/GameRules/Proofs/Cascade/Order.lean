import GameRules.Proofs.Cascade.Graph
import GameRules.Proofs.Cascade.Preference

/-!
# Rules run in the order of the greedy schedule

A rule is free once every rule with an edge into it has been placed. The greedy schedule places the
preferred free rule as long as there is one, and puts the rules that never become free behind, in
order of preference. The worklist computes this schedule: its counters are the edges that still lead
into a rule from rules not placed, and its ready rules are the free ones.
-/

namespace GameRules

namespace CascadeGraph

variable {graph : CascadeGraph}

/-- A rule that is not placed, while every rule with an edge into it is. -/
structure Free (graph : CascadeGraph) (placed : List Nat) (rule : Nat) : Prop where
  /-- It is a rule of the graph. -/
  lt_size : rule < graph.size
  /-- It is not placed. -/
  unplaced : rule ∉ placed
  /-- Every rule that leads to it is placed. -/
  preceded : ∀ source, graph.Edge source rule → source ∈ placed

/-- The greedy schedule after some rules are placed: the free rules that are placed next, one after
the other, and the rules that are left over in the end. -/
inductive Schedule (graph : CascadeGraph) : List Nat → List Nat → List Nat → Prop where
  /-- As long as a rule is free, the preferred one comes next. -/
  | next {placed chosen rest : List Nat} {rule : Nat} (free : graph.Free placed rule)
      (preferred : ∀ other, graph.Free placed other → other ≠ rule → graph.Before rule other)
      (later : Schedule graph (rule :: placed) chosen rest) :
      Schedule graph placed (rule :: chosen) rest
  /-- When no rule is free, the remaining rules follow in order of preference. -/
  | finish {placed rest : List Nat} (stuck : ∀ rule, ¬graph.Free placed rule)
      (sorted : graph.Sorted rest)
      (remaining : ∀ rule, rule ∈ rest ↔ rule < graph.size ∧ rule ∉ placed) :
      Schedule graph placed [] rest

/-- There is one greedy schedule at most. -/
theorem Schedule.unique {placed chosen rest otherChosen otherRest : List Nat}
    (schedule : graph.Schedule placed chosen rest)
    (other : graph.Schedule placed otherChosen otherRest) :
    chosen = otherChosen ∧ rest = otherRest := by
  induction schedule generalizing otherChosen otherRest with
  | @next placed chosen rest rule free preferred _ ih =>
    cases other with
    | next freeOther preferredOther laterOther =>
      rename_i other
      have same : rule = other := by
        by_contra different
        have before := preferred other freeOther (Ne.symm different)
        exact before.asymm (preferredOther rule free different)
      subst same
      obtain ⟨rfl, rfl⟩ := ih laterOther
      exact ⟨rfl, rfl⟩
    | finish stuck => exact absurd free (stuck rule)
  | @finish placed rest stuck sorted remaining =>
    cases other with
    | next free => exact absurd free (stuck _)
    | finish _ sortedOther remainingOther =>
      refine ⟨rfl, sorted.eq_of_mem_iff sortedOther fun rule => ?_⟩
      rw [remaining, remainingOther]

/-- The rules that are not placed. -/
def unplaced (graph : CascadeGraph) (placed : List Nat) : List Nat :=
  (List.range graph.size).filter fun rule => rule ∉ placed

/-- How many edges lead into a rule from rules that are not placed. -/
def waiting (graph : CascadeGraph) (placed : List Nat) (rule : Nat) : Nat :=
  ((graph.unplaced placed).flatMap graph.targets).count rule

/-- A rule of the graph is unplaced unless it is placed. -/
theorem mem_unplaced_iff {placed : List Nat} {rule : Nat} :
    rule ∈ graph.unplaced placed ↔ rule < graph.size ∧ rule ∉ placed := by
  simp [unplaced]

/-- A rule waits for no edge once every rule that leads to it is placed. -/
theorem waiting_eq_zero_iff (wellFormed : graph.WellFormed) {placed : List Nat} {rule : Nat} :
    graph.waiting placed rule = 0 ↔ ∀ source, graph.Edge source rule → source ∈ placed := by
  rw [waiting, List.count_eq_zero, List.mem_flatMap]
  constructor
  · intro none source edge
    by_contra waits
    exact none ⟨source, mem_unplaced_iff.mpr ⟨wellFormed.source_lt edge, waits⟩, edge⟩
  · rintro preceded ⟨source, unplaced, edge⟩
    exact (mem_unplaced_iff.mp unplaced).2 (preceded source edge)

/-- No rule is unplaced twice. -/
theorem nodup_unplaced (placed : List Nat) : (graph.unplaced placed).Nodup :=
  List.nodup_range.filter _

/-- Placing a rule takes it off the unplaced ones. -/
theorem unplaced_perm {placed : List Nat} {rule : Nat} (inGraph : rule < graph.size)
    (new : rule ∉ placed) :
    (graph.unplaced placed).Perm (rule :: graph.unplaced (rule :: placed)) := by
  refine filter_range_perm inGraph (by simp) fun other => ?_
  by_cases same : other = rule
  · subst same
    simp [new]
  · simp [same]

/-- Placing a rule takes its edges off those that the other rules wait for. -/
theorem waiting_cons {placed : List Nat} {rule target : Nat} (inGraph : rule < graph.size)
    (new : rule ∉ placed) :
    graph.waiting placed target =
      (graph.targets rule).count target + graph.waiting (rule :: placed) target := by
  have split := (unplaced_perm inGraph new).flatMap_right graph.targets
  rw [waiting, split.count_eq, List.flatMap_cons, List.count_append, waiting]

/-- Before any rule is placed, a rule waits for every edge into it. -/
theorem waiting_nil (wellFormed : graph.WellFormed) (rule : Nat) :
    graph.waiting [] rule = graph.inDegree rule := by
  have all : (List.range graph.size).flatMap graph.targets = graph.edges.flatten := by
    rw [List.flatMap_def, wellFormed.map_targets]
  have every : graph.unplaced [] = List.range graph.size := by
    simp [unplaced]
  rw [waiting, every, all, inDegree]

/-- What the worklist knows while the edges into some rules are still to be counted as done. -/
structure Worklist.Accurate (graph : CascadeGraph) (todo : List Nat) (list : Worklist) : Prop where
  /-- There is a counter for every rule. -/
  pending_length : list.pending.length = graph.size
  /-- Rules wait for the edges from rules not placed and for those still to be counted. -/
  pending_eq : ∀ rule < graph.size,
    (list.pending[rule]?).getD 0 = graph.waiting list.placed rule + todo.count rule
  /-- The ready rules are in order of preference. -/
  sorted : graph.Sorted list.ready
  /-- The ready rules are the free ones with no edge to be counted. -/
  mem_ready_iff : ∀ rule, rule ∈ list.ready ↔ graph.Free list.placed rule ∧ rule ∉ todo
  /-- No rule is placed twice. -/
  placed_nodup : list.placed.Nodup
  /-- Rules of the graph are placed. -/
  placed_lt : ∀ rule ∈ list.placed, rule < graph.size
  /-- Whatever leads to a placed rule is placed. -/
  preceded : ∀ rule ∈ list.placed, ∀ source, graph.Edge source rule → source ∈ list.placed

/-- Counting an edge as done keeps the worklist accurate. -/
theorem Worklist.Accurate.release (wellFormed : graph.WellFormed) {rule : Nat} {todo : List Nat}
    {list : Worklist} (accurate : Worklist.Accurate graph (rule :: todo) list)
    (inGraph : rule < graph.size) (unplaced : rule ∉ list.placed) :
    Worklist.Accurate graph todo (graph.release list rule) ∧
      (graph.release list rule).placed = list.placed := by
  have left : (list.pending[rule]?).getD 0 - 1 =
      graph.waiting list.placed rule + todo.count rule := by
    rw [accurate.pending_eq rule inGraph, List.count_cons_self]
    omega
  have freed : (list.pending[rule]?).getD 0 - 1 = 0 ↔
      graph.Free list.placed rule ∧ rule ∉ todo := by
    rw [left, Nat.add_eq_zero_iff, waiting_eq_zero_iff wellFormed, List.count_eq_zero]
    exact ⟨fun ⟨preceded, done⟩ => ⟨⟨inGraph, unplaced, preceded⟩, done⟩,
      fun ⟨free, done⟩ => ⟨free.preceded, done⟩⟩
  have notReady : rule ∉ list.ready := fun member =>
    ((accurate.mem_ready_iff rule).mp member).2 List.mem_cons_self
  have others : ∀ other, other ≠ rule →
      (other ∈ list.ready ↔ graph.Free list.placed other ∧ other ∉ todo) := by
    intro other different
    rw [accurate.mem_ready_iff, List.mem_cons, not_or]
    simp [different]
  refine ⟨⟨?_, ?_, ?_, ?_, accurate.placed_nodup, accurate.placed_lt, accurate.preceded⟩, rfl⟩
  · exact (List.length_set ..).trans accurate.pending_length
  · intro other inside
    have position : rule < list.pending.length := accurate.pending_length ▸ inGraph
    simp only [CascadeGraph.release, List.getElem?_set]
    by_cases same : rule = other
    · subst same
      rw [if_pos rfl, if_pos position]
      exact left
    · rw [if_neg same, accurate.pending_eq other inside, List.count_cons_of_ne same]
  · simp only [CascadeGraph.release]
    split
    · exact sorted_insertReady accurate.sorted notReady
    · exact accurate.sorted
  · intro other
    simp only [CascadeGraph.release]
    split
    · rename_i none
      rw [(graph.insertReady_perm rule list.ready).mem_iff, List.mem_cons]
      by_cases same : other = rule
      · subst same
        simp [freed.mp none]
      · rw [or_iff_right same]
        exact others other same
    · rename_i some
      by_cases same : other = rule
      · subst same
        exact ⟨fun member => absurd member notReady, fun free => absurd (freed.mpr free) some⟩
      · exact others other same

/-- Counting the first of several edges as done keeps the worklist accurate for the others. -/
theorem Worklist.Accurate.releaseAll (wellFormed : graph.WellFormed) {counted todo : List Nat}
    {list : Worklist} (accurate : Worklist.Accurate graph (counted ++ todo) list)
    (inGraph : ∀ rule ∈ counted, rule < graph.size)
    (unplaced : ∀ rule ∈ counted, rule ∉ list.placed) :
    Worklist.Accurate graph todo (counted.foldl graph.release list) ∧
      (counted.foldl graph.release list).placed = list.placed := by
  induction counted generalizing list with
  | nil => exact ⟨accurate, rfl⟩
  | cons rule counted ih =>
    obtain ⟨released, placed⟩ := accurate.release wellFormed (inGraph rule List.mem_cons_self)
      (unplaced rule List.mem_cons_self)
    have result := ih released (fun other member => inGraph other (List.mem_cons_of_mem _ member))
      (fun other member => placed ▸ unplaced other (List.mem_cons_of_mem _ member))
    exact ⟨result.1, result.2.trans placed⟩

/-- The worklist is accurate before any rule is placed. -/
theorem Worklist.accurate_start (wellFormed : graph.WellFormed) :
    Worklist.Accurate graph [] graph.startWorklist := by
  have nodup : ((List.range graph.size).filter fun rule => graph.inDegree rule == 0).Nodup :=
    List.nodup_range.filter _
  refine ⟨by simp [startWorklist], ?_, sorted_byPreference nodup, ?_, List.nodup_nil, nofun, nofun⟩
  · intro rule inside
    simp [startWorklist, inside, waiting_nil wellFormed]
  · intro rule
    have chosen : rule ∈ graph.startWorklist.ready ↔ _ := (byPreference_perm nodup).mem_iff
    rw [chosen, List.mem_filter, List.mem_range, beq_iff_eq, ← waiting_nil wellFormed,
      waiting_eq_zero_iff wellFormed]
    constructor
    · rintro ⟨inside, preceded⟩
      exact ⟨⟨inside, List.not_mem_nil, preceded⟩, List.not_mem_nil⟩
    · rintro ⟨free, -⟩
      exact ⟨free.lt_size, free.preceded⟩

/-- A ready rule leads to no rule that is placed, and not to itself. -/
theorem Worklist.Accurate.targets_unplaced {list : Worklist}
    (accurate : Worklist.Accurate graph [] list) {rule : Nat} (isReady : rule ∈ list.ready) :
    ∀ target ∈ graph.targets rule, target ∉ rule :: list.placed := by
  have free : graph.Free list.placed rule := ((accurate.mem_ready_iff rule).mp isReady).1
  intro target edge member
  -- What leads to a placed rule, or to this one, was placed before.
  rcases List.mem_cons.mp member with rfl | earlier
  · exact free.unplaced (free.preceded target edge)
  · exact free.unplaced (accurate.preceded target earlier rule edge)

/-- When the preferred ready rule is taken, the worklist is accurate for the edges of that rule. -/
theorem Worklist.Accurate.take {pending ready placed : List Nat} {rule : Nat}
    (accurate : Worklist.Accurate graph [] ⟨pending, rule :: ready, placed⟩) :
    Worklist.Accurate graph (graph.targets rule) ⟨pending, ready, rule :: placed⟩ := by
  obtain ⟨first, sorted⟩ := List.pairwise_cons.mp accurate.sorted
  have free : graph.Free placed rule := ((accurate.mem_ready_iff rule).mp List.mem_cons_self).1
  refine ⟨accurate.pending_length, ?_, sorted, ?_, ?_, ?_, ?_⟩
  · intro other inside
    rw [accurate.pending_eq other inside, waiting_cons free.lt_size free.unplaced,
      List.count_nil, Nat.add_zero, Nat.add_comm]
  · intro other
    constructor
    · intro member
      have freeOther := ((accurate.mem_ready_iff other).mp (List.mem_cons_of_mem _ member)).1
      have different : other ≠ rule := by
        rintro rfl
        exact (first other member).asymm (first other member)
      have away : other ∉ graph.targets rule := fun edge =>
        free.unplaced (freeOther.preceded rule edge)
      refine ⟨⟨freeOther.lt_size, ?_, fun source edge => ?_⟩, away⟩
      · exact List.not_mem_cons_of_ne_of_not_mem different freeOther.unplaced
      · exact List.mem_cons_of_mem _ (freeOther.preceded source edge)
    · rintro ⟨freeOther, away⟩
      have different : other ≠ rule := List.ne_of_not_mem_cons freeOther.unplaced
      have freeBefore : graph.Free placed other := by
        refine ⟨freeOther.lt_size, List.not_mem_of_not_mem_cons freeOther.unplaced, ?_⟩
        intro source edge
        refine (List.mem_cons.mp (freeOther.preceded source edge)).resolve_left ?_
        rintro rfl
        exact away edge
      have isReady := (accurate.mem_ready_iff other).mpr ⟨freeBefore, List.not_mem_nil⟩
      exact (List.mem_cons.mp isReady).resolve_left different
  · exact List.nodup_cons.mpr ⟨free.unplaced, accurate.placed_nodup⟩
  · exact List.forall_mem_cons.mpr ⟨free.lt_size, accurate.placed_lt⟩
  · intro other member source edge
    rcases List.mem_cons.mp member with rfl | earlier
    · exact List.mem_cons_of_mem _ (free.preceded source edge)
    · exact List.mem_cons_of_mem _ (accurate.preceded other earlier source edge)

/-- While the edges of the rule that was taken are counted as done one by one, the worklist is accurate
for those that are left. -/
theorem Worklist.Accurate.takeAndRelease (wellFormed : graph.WellFormed)
    {pending ready placed counted todo : List Nat} {rule : Nat}
    (accurate : Worklist.Accurate graph [] ⟨pending, rule :: ready, placed⟩)
    (split : graph.targets rule = counted ++ todo) :
    Worklist.Accurate graph todo (counted.foldl graph.release ⟨pending, ready, rule :: placed⟩) ∧
      (counted.foldl graph.release ⟨pending, ready, rule :: placed⟩).placed = rule :: placed := by
  have isTarget : ∀ target ∈ counted, target ∈ graph.targets rule := fun target member =>
    split ▸ List.mem_append_left _ member
  exact (split ▸ accurate.take).releaseAll wellFormed
    (fun target member => wellFormed.target_lt (isTarget target member))
    (fun target member => accurate.targets_unplaced List.mem_cons_self target (isTarget target member))

/-- The worklist stops when no rule is free, and otherwise places the preferred one. -/
theorem Worklist.Accurate.place? (wellFormed : graph.WellFormed) {list : Worklist}
    (accurate : Worklist.Accurate graph [] list) :
    (graph.place? list = none ∧ ∀ rule, ¬graph.Free list.placed rule) ∨
      ∃ rule next, graph.place? list = some next ∧ graph.Free list.placed rule ∧
        (∀ other, graph.Free list.placed other → other ≠ rule → graph.Before rule other) ∧
          next.placed = rule :: list.placed ∧ Worklist.Accurate graph [] next := by
  obtain ⟨pending, ready, placed⟩ := list
  have isReady : ∀ rule, graph.Free placed rule → rule ∈ ready :=
    fun rule free => (accurate.mem_ready_iff rule).mpr ⟨free, List.not_mem_nil⟩
  cases ready with
  | nil => exact .inl ⟨rfl, fun rule free => List.not_mem_nil (isReady rule free)⟩
  | cons rule ready =>
    right
    have free : graph.Free placed rule := ((accurate.mem_ready_iff rule).mp List.mem_cons_self).1
    obtain ⟨accurateNext, placedNext⟩ :=
      accurate.takeAndRelease wellFormed (List.append_nil (graph.targets rule)).symm
    refine ⟨rule, _, rfl, free, fun other freeOther different => ?_, placedNext, accurateNext⟩
    have first := (List.pairwise_cons.mp accurate.sorted).1
    exact first other ((List.mem_cons.mp (isReady other freeOther)).resolve_left different)

/-- Every rule is placed once as many rules are placed as there are. -/
theorem Worklist.Accurate.not_free_of_length {list : Worklist}
    (accurate : Worklist.Accurate graph [] list) (full : graph.size ≤ list.placed.length)
    (rule : Nat) : ¬graph.Free list.placed rule := by
  intro free
  have nodup : (rule :: list.placed).Nodup :=
    List.nodup_cons.mpr ⟨free.unplaced, accurate.placed_nodup⟩
  have shorter := length_le_of_forall_lt nodup
    (List.forall_mem_cons.mpr ⟨free.lt_size, accurate.placed_lt⟩)
  rw [List.length_cons] at shorter
  omega

/-- Placing rules until none is free follows the greedy schedule. -/
theorem Worklist.Accurate.schedule (wellFormed : graph.WellFormed) {bound : Nat} {list : Worklist}
    (accurate : Worklist.Accurate graph [] list)
    (enough : graph.size ≤ bound + list.placed.length) {rest : List Nat}
    (sorted : graph.Sorted rest)
    (remaining : ∀ rule,
      rule ∈ rest ↔ rule < graph.size ∧ rule ∉ (graph.placeAll bound list).placed) :
    ∃ chosen, (graph.placeAll bound list).placed = chosen.reverse ++ list.placed ∧
      graph.Schedule list.placed chosen rest := by
  induction bound generalizing list with
  | zero =>
    rw [Nat.zero_add] at enough
    exact ⟨[], rfl, .finish (accurate.not_free_of_length enough) sorted remaining⟩
  | succ bound ih =>
    rcases accurate.place? wellFormed with
      ⟨none, stuck⟩ | ⟨rule, next, some, free, preferred, placed, accurateNext⟩
    · rw [placeAll, none] at remaining ⊢
      exact ⟨[], rfl, .finish stuck sorted remaining⟩
    · rw [placeAll, some] at remaining ⊢
      have further : graph.size ≤ bound + next.placed.length := by
        rw [placed, List.length_cons]
        omega
      obtain ⟨chosen, result, schedule⟩ := ih accurateNext further remaining
      rw [placed] at result schedule
      refine ⟨rule :: chosen, ?_, .next free preferred schedule⟩
      rw [result, List.reverse_cons, List.append_assoc, List.singleton_append]

/-- The rules that a schedule still places are those not placed yet, each once. -/
theorem Schedule.perm {placed chosen rest : List Nat} (schedule : graph.Schedule placed chosen rest) :
    (chosen ++ rest).Perm (graph.unplaced placed) := by
  induction schedule with
  | next free _ _ ih => exact (ih.cons _).trans (unplaced_perm free.lt_size free.unplaced).symm
  | @finish placed rest stuck sorted remaining =>
    rw [List.nil_append, List.perm_ext_iff_of_nodup sorted.nodup (nodup_unplaced placed)]
    intro rule
    rw [remaining, mem_unplaced_iff]

/-- What leads to a rule that a schedule places is placed before it. -/
theorem Schedule.source_before {placed chosen rest : List Nat}
    (schedule : graph.Schedule placed chosen rest) {source target : Nat}
    (edge : graph.Edge source target) (member : target ∈ chosen) :
    source ∈ placed ∨
      ∃ before after, chosen = before ++ target :: after ∧ source ∈ before := by
  induction schedule with
  | @next placed chosen rest rule free _ _ ih =>
    rcases List.mem_cons.mp member with rfl | later
    · exact .inl (free.preceded source edge)
    · rcases ih later with earlier | ⟨before, after, rfl, inside⟩
      · rcases List.mem_cons.mp earlier with rfl | earlier
        · obtain ⟨before, after, rfl⟩ := List.append_of_mem later
          exact .inr ⟨source :: before, after, rfl, List.mem_cons_self⟩
        · exact .inl earlier
      · exact .inr ⟨rule :: before, after, rfl, List.mem_cons_of_mem _ inside⟩
  | finish => cases member

/-- No rule that a schedule places is on a loop or behind one. -/
theorem Schedule.not_trapped {placed chosen rest : List Nat}
    (schedule : graph.Schedule placed chosen rest)
    (placedFree : ∀ rule ∈ placed, ¬graph.Trapped rule) :
    ∀ rule ∈ chosen, ¬graph.Trapped rule := by
  induction schedule with
  | @next placed chosen rest rule free _ _ ih =>
    have ruleFree : ¬graph.Trapped rule := by
      intro trapped
      obtain ⟨source, edge, trappedSource⟩ := trapped.predecessor
      exact placedFree source (free.preceded source edge) trappedSource
    exact List.forall_mem_cons.mpr
      ⟨ruleFree, ih (List.forall_mem_cons.mpr ⟨ruleFree, placedFree⟩)⟩
  | finish => exact fun _ member => nomatch member

/-- Something that is left over leads to every rule that is left over. -/
theorem Schedule.rest_preceded (wellFormed : graph.WellFormed) {placed chosen rest : List Nat}
    (schedule : graph.Schedule placed chosen rest) {rule : Nat} (member : rule ∈ rest) :
    ∃ source, source ∈ rest ∧ graph.Edge source rule := by
  induction schedule with
  | next _ _ _ ih => exact ih member
  | @finish placed rest stuck sorted remaining =>
    obtain ⟨inGraph, unplaced⟩ := (remaining rule).mp member
    by_contra none
    refine stuck rule ⟨inGraph, unplaced, fun source edge => ?_⟩
    by_contra waits
    exact none ⟨source, (remaining source).mpr ⟨wellFormed.source_lt edge, waits⟩, edge⟩

/-- The rules left over are those on a loop or behind one. -/
theorem Schedule.mem_rest_iff (wellFormed : graph.WellFormed) {chosen rest : List Nat}
    (schedule : graph.Schedule [] chosen rest) {rule : Nat} :
    rule ∈ rest ↔ graph.Trapped rule := by
  have members : ∀ rule, rule ∈ chosen ∨ rule ∈ rest ↔ rule < graph.size := by
    intro rule
    rw [← List.mem_append, schedule.perm.mem_iff, mem_unplaced_iff]
    simp
  constructor
  · exact trapped_of_predecessor (fun rule member => (members rule).mp (.inr member))
      (fun rule member => schedule.rest_preceded wellFormed member)
  · intro trapped
    obtain ⟨source, edge, -⟩ := trapped.predecessor
    refine ((members rule).mpr (wellFormed.target_lt edge)).resolve_left fun member => ?_
    exact schedule.not_trapped (fun _ member => nomatch member) rule member trapped

/-- Along an edge to a rule that is not left over, rules stand in the order of the edge. -/
theorem Schedule.idxOf_lt {chosen rest : List Nat} (schedule : graph.Schedule [] chosen rest)
    {source target : Nat} (edge : graph.Edge source target) (member : target ∈ chosen) :
    (chosen ++ rest).idxOf source < (chosen ++ rest).idxOf target := by
  have nodup : (chosen ++ rest).Nodup := schedule.perm.nodup_iff.mpr (nodup_unplaced [])
  rcases schedule.source_before edge member with none | ⟨before, after, rfl, inside⟩
  · cases none
  · rw [List.append_assoc, List.cons_append] at nodup ⊢
    have first : target ∉ before := fun earlier =>
      (List.nodup_append.mp nodup).2.2 target earlier target List.mem_cons_self rfl
    rw [List.idxOf_append_of_mem inside, List.idxOf_append_of_notMem first, List.idxOf_cons_self]
    exact Nat.lt_add_right _ (List.idxOf_lt_length_of_mem inside)

/-- The order of a graph is a greedy schedule. -/
theorem order_eq_schedule (wellFormed : graph.WellFormed) :
    ∃ chosen rest, graph.order = chosen ++ rest ∧ graph.Schedule [] chosen rest := by
  have nodup : ((List.range graph.size).filter fun rule =>
      !(graph.placeAll graph.size graph.startWorklist).placed.reverse.contains rule).Nodup :=
    List.nodup_range.filter _
  obtain ⟨chosen, placed, schedule⟩ := (Worklist.accurate_start wellFormed).schedule wellFormed
    (Nat.le_add_right _ _) (sorted_byPreference nodup) (fun rule => by
      rw [(byPreference_perm nodup).mem_iff]
      simp)
  refine ⟨chosen, _, ?_, schedule⟩
  change (graph.placeAll graph.size graph.startWorklist).placed.reverse ++ _ = _
  rw [placed]
  simp [startWorklist]

/-- The order in which rules run is the greedy schedule of their positions and no other sequence. It
holds every enabled rule once, it leaves over the rules on a loop or behind one, and every other rule
runs after the rules that lead to it. -/
theorem executionOrder_eq_schedule (set : RuleSet) :
    ∃ chosen rest : List Nat,
      (ofRuleSet set).executionOrder = (chosen ++ rest).map (ofRuleSet set).name ∧
      (∀ otherChosen otherRest, (ofRuleSet set).Schedule [] otherChosen otherRest ↔
        otherChosen = chosen ∧ otherRest = rest) ∧
      (chosen ++ rest).Perm (List.range (enabledRules set).length) ∧
      (∀ rule, rule ∈ rest ↔ (ofRuleSet set).Trapped rule) ∧
      ∀ source target, (ofRuleSet set).Edge source target → ¬(ofRuleSet set).Trapped target →
        (chosen ++ rest).idxOf source < (chosen ++ rest).idxOf target := by
  have wellFormed := wellFormed_ofRuleSet set
  obtain ⟨chosen, rest, order, schedule⟩ := order_eq_schedule wellFormed
  have size : (ofRuleSet set).size = (enabledRules set).length := by
    simp [CascadeGraph.size, ofRuleSet]
  have all : (ofRuleSet set).unplaced [] = List.range (enabledRules set).length := by
    simp [unplaced, size]
  refine ⟨chosen, rest, by rw [executionOrder, order], ?_, all ▸ schedule.perm,
    fun rule => schedule.mem_rest_iff wellFormed, ?_⟩
  · intro otherChosen otherRest
    constructor
    · exact fun other => other.unique schedule
    · rintro ⟨rfl, rfl⟩
      exact schedule
  · intro source target edge untrapped
    refine schedule.idxOf_lt edge ?_
    have member : target ∈ chosen ++ rest := by
      rw [schedule.perm.mem_iff, mem_unplaced_iff]
      exact ⟨wellFormed.target_lt edge, List.not_mem_nil⟩
    exact (List.mem_append.mp member).resolve_right fun left =>
      untrapped ((schedule.mem_rest_iff wellFormed).mp left)

end CascadeGraph

end GameRules
