import GameRules.Proofs.Cascade.Loops

/-!
# Every rule is entered once and every edge followed once

A log of the search tells which rules were put on the way, which edges were followed, and how many
steps were taken. Of a rule on the way just the edges before the cursor have been followed, of a done
rule all of them, and of a rule that has not been met none. The steps taken and those that are left
add up to the bound of the search, so the search takes exactly that many steps.
-/

namespace GameRules

namespace CascadeGraph

variable {graph : CascadeGraph}

/-- What a search has done so far. -/
structure Search.Log where
  /-- The rules put on the way, in turn. -/
  pushed : List Nat
  /-- The edges followed, each with its two ends, in turn. -/
  followed : List (Nat × Nat)
  /-- How many steps were taken. -/
  steps : Nat

/-- The edge that the next step follows, if it follows one. -/
def Search.nextEdge? (graph : CascadeGraph) (search : Search) : Option (Nat × Nat) :=
  search.frames.head?.bind fun frame =>
    ((graph.targets frame.rule)[frame.cursor]?).map fun target => (frame.rule, target)

/-- The rules that a later state has on the way on top of those of an earlier one. -/
def Search.added (search next : Search) : List Nat :=
  next.path.take (next.path.length - search.path.length)

/-- The log after a step from one state to the next. -/
def Search.Log.step (graph : CascadeGraph) (search next : Search) (log : Log) : Log :=
  ⟨log.pushed ++ search.added next, log.followed ++ (search.nextEdge? graph).toList, log.steps + 1⟩

/-- A state of the search at the start of a turn of either loop, with the number of rules that the
outer loop has passed, and with the log. -/
inductive Search.Reached (graph : CascadeGraph) : Nat → Log → Search → Prop where
  /-- Before any rule is met. -/
  | start : Reached graph 0 ⟨[], [], 0⟩ graph.startSearch
  /-- The outer loop passes over a rule that has been met. -/
  | pass {passed : Nat} {log : Log} {search : Search} (reached : Reached graph passed log search)
      (idle : search.frames = []) (inGraph : passed < graph.size)
      (met : search.progressOf passed ≠ .unvisited) : Reached graph (passed + 1) log search
  /-- The outer loop begins a way with a rule that has not been met. -/
  | begin {passed : Nat} {log : Log} {search : Search} (reached : Reached graph passed log search)
      (idle : search.frames = []) (inGraph : passed < graph.size)
      (unvisited : search.progressOf passed = .unvisited) :
      Reached graph (passed + 1)
        { log with pushed := log.pushed ++ search.added (search.enter passed) } (search.enter passed)
  /-- The inner loop takes a step. -/
  | step {passed : Nat} {log : Log} {search next : Search} (reached : Reached graph passed log search)
      (step : graph.searchStep? search = some next) :
      Reached graph passed (log.step graph search next) next

/-- The targets of the followed edges of a rule, in turn. -/
def followedFrom (followed : List (Nat × Nat)) (rule : Nat) : List Nat :=
  (followed.filter fun edge => edge.1 = rule).map Prod.snd

/-- Following an edge adds its target to those of its source. -/
theorem followedFrom_concat (followed : List (Nat × Nat)) (source target rule : Nat) :
    followedFrom (followed ++ [(source, target)]) rule =
      followedFrom followed rule ++ if rule = source then [target] else [] := by
  by_cases same : rule = source
  · simp [followedFrom, same]
  · simp [followedFrom, same, Ne.symm same]

/-- An edge was followed as often as its target was followed from its source. -/
theorem count_followed (followed : List (Nat × Nat)) (source target : Nat) :
    followed.count (source, target) = (followedFrom followed source).count target := by
  induction followed with
  | nil => rfl
  | cons edge followed ih =>
    obtain ⟨origin, ending⟩ := edge
    by_cases same : origin = source
    · subst same
      simp [followedFrom, List.count_cons, ih]
    · simp [followedFrom, ih, same]

/-- What the followed edges have to do with how far the search has come with a rule. -/
structure Search.Covered (graph : CascadeGraph) (followed : List (Nat × Nat)) (search : Search) :
    Prop where
  /-- No cursor is past the edges of its rule. -/
  cursor_le : ∀ frame ∈ search.frames, frame.cursor ≤ (graph.targets frame.rule).length
  /-- Of a rule on the way the edges before the cursor have been followed. -/
  onPath : ∀ frame ∈ search.frames,
    followedFrom followed frame.rule = (graph.targets frame.rule).take frame.cursor
  /-- Of a done rule all edges have been followed. -/
  done : ∀ rule, search.progressOf rule = .done → followedFrom followed rule = graph.targets rule
  /-- Of a rule that has not been met no edge has been followed. -/
  unvisited : ∀ rule, search.progressOf rule = .unvisited → followedFrom followed rule = []

/-- A rule was put on the way exactly if it has been met, and once at most. -/
structure Search.Entered (graph : CascadeGraph) (pushed : List Nat) (search : Search) : Prop where
  /-- No rule was put on the way twice. -/
  nodup : pushed.Nodup
  /-- The rules put on the way are the rules of the graph that have been met. -/
  mem_iff : ∀ rule, rule ∈ pushed ↔ rule < graph.size ∧ search.progressOf rule ≠ .unvisited

namespace Search.Covered

variable {search : Search} {followed : List (Nat × Nat)}

/-- Leaving a rule whose edges have all been followed. -/
theorem leave (covered : search.Covered graph followed) (invariant : search.Invariant graph)
    {frame : Frame} {below : List Frame} (frames : search.frames = frame :: below)
    (finished : (graph.targets frame.rule)[frame.cursor]? = none) :
    Search.Covered graph followed
      { search with progress := search.progress.set frame.rule .done, frames := below } := by
  have progress := invariant.progressOf_leave frames
  have atHand : frame ∈ search.frames := frames ▸ List.mem_cons_self
  have others : ∀ other ∈ below, other ∈ search.frames := fun other member =>
    frames ▸ List.mem_cons_of_mem _ member
  refine ⟨fun other member => covered.cursor_le other (others other member),
    fun other member => covered.onPath other (others other member), ?_, ?_⟩
  · intro rule done
    rw [progress] at done
    by_cases same : rule = frame.rule
    · rw [same, covered.onPath frame atHand]
      exact List.take_of_length_le (List.getElem?_eq_none_iff.mp finished)
    · rw [if_neg same] at done
      exact covered.done rule done
  · intro rule unvisited
    rw [progress] at unvisited
    split at unvisited
    · cases unvisited
    · exact covered.unvisited rule unvisited

/-- Following the next edge of the rule at hand, before anything is done about its target. -/
theorem advance (covered : search.Covered graph followed) (invariant : search.Invariant graph)
    {frame : Frame} {below : List Frame} (frames : search.frames = frame :: below) {target : Nat}
    (edge : (graph.targets frame.rule)[frame.cursor]? = some target) :
    Search.Covered graph (followed ++ [(frame.rule, target)])
      { search with frames := ⟨frame.rule, frame.cursor + 1⟩ :: below } := by
  have path : search.path = frame.rule :: below.map Frame.rule := by
    rw [Search.path, frames, List.map_cons]
  have atHand : frame ∈ search.frames := frames ▸ List.mem_cons_self
  have onPath : search.progressOf frame.rule = .onPath :=
    (invariant.onPath_iff frame.rule).mpr (path ▸ List.mem_cons_self)
  have below_ne : ∀ other ∈ below, other.rule ≠ frame.rule := by
    intro other member same
    have fresh := (List.nodup_cons.mp (path ▸ invariant.path_nodup)).1
    exact fresh (same ▸ List.mem_map_of_mem member)
  -- The rule at hand is on the way, and once, so nothing changes about the edges of another rule.
  have unchanged : ∀ rule, rule ≠ frame.rule →
      followedFrom (followed ++ [(frame.rule, target)]) rule = followedFrom followed rule := by
    intro rule different
    rw [followedFrom_concat, if_neg different, List.append_nil]
  refine ⟨?_, ?_, ?_, ?_⟩
  · refine List.forall_mem_cons.mpr ⟨(List.getElem?_eq_some_iff.mp edge).1, fun other member => ?_⟩
    exact covered.cursor_le other (frames ▸ List.mem_cons_of_mem _ member)
  · refine List.forall_mem_cons.mpr ⟨?_, fun other member => ?_⟩
    · rw [followedFrom_concat, if_pos rfl, covered.onPath frame atHand, List.take_add_one, edge]
      rfl
    · rw [unchanged other.rule (below_ne other member)]
      exact covered.onPath other (frames ▸ List.mem_cons_of_mem _ member)
  · intro rule done
    have different : rule ≠ frame.rule := by
      rintro rfl
      cases onPath.symm.trans done
    rw [unchanged rule different]
    exact covered.done rule done
  · intro rule unvisited
    have different : rule ≠ frame.rule := by
      rintro rfl
      cases onPath.symm.trans unvisited
    rw [unchanged rule different]
    exact covered.unvisited rule unvisited

/-- Entering a rule that has not been met. -/
theorem enter (covered : search.Covered graph followed) {target : Nat}
    (inside : target < search.progress.length)
    (unvisited : search.progressOf target = .unvisited) :
    (search.enter target).Covered graph followed := by
  have progress := @Search.progressOf_set search (search.enter target) _ _ inside rfl
  refine ⟨List.forall_mem_cons.mpr ⟨Nat.zero_le _, covered.cursor_le⟩,
    List.forall_mem_cons.mpr ⟨?_, covered.onPath⟩, ?_, ?_⟩
  · rw [covered.unvisited target unvisited]
    exact List.take_zero.symm
  · intro rule done
    rw [progress] at done
    split at done
    · cases done
    · exact covered.done rule done
  · intro rule unmet
    rw [progress] at unmet
    split at unmet
    · cases unmet
    · exact covered.unvisited rule unmet

/-- Reporting a loop follows no edge. -/
theorem report (covered : search.Covered graph followed) (target : Nat) :
    (search.report target).Covered graph followed := by
  have frames := (Search.report_eq search target).2
  refine ⟨frames ▸ covered.cursor_le, frames ▸ covered.onPath, fun rule done => ?_,
    fun rule unvisited => ?_⟩
  · rw [Search.progressOf_report] at done
    exact covered.done rule done
  · rw [Search.progressOf_report] at unvisited
    exact covered.unvisited rule unvisited

end Search.Covered

namespace Search.Entered

variable {search next : Search} {pushed : List Nat}

/-- Meeting no rule puts none on the way. -/
theorem congr (entered : search.Entered graph pushed)
    (same : ∀ rule, next.progressOf rule = .unvisited ↔ search.progressOf rule = .unvisited) :
    next.Entered graph pushed :=
  ⟨entered.nodup, fun rule => by rw [entered.mem_iff, Ne, Ne, same]⟩

/-- A rule that has not been met is put on the way for the first time. -/
theorem enter (entered : search.Entered graph pushed) {target : Nat} (inGraph : target < graph.size)
    (unvisited : search.progressOf target = .unvisited)
    (progress : ∀ rule, next.progressOf rule =
      if rule = target then .onPath else search.progressOf rule) :
    next.Entered graph (pushed ++ [target]) := by
  have fresh : target ∉ pushed := fun member => ((entered.mem_iff target).mp member).2 unvisited
  refine ⟨?_, fun rule => ?_⟩
  · exact List.nodup_append_comm.mp (List.nodup_cons.mpr ⟨fresh, entered.nodup⟩)
  · rw [List.mem_append, List.mem_singleton, entered.mem_iff, progress]
    by_cases same : rule = target
    · simp [same, inGraph]
    · simp [same]

end Search.Entered

/-- What holds at the start of every turn of either loop. -/
structure Search.Traced (graph : CascadeGraph) (passed : Nat) (log : Log) (search : Search) :
    Prop where
  /-- The invariant of the search. -/
  invariant : search.Invariant graph
  /-- The outer loop has passed rules of the graph. -/
  passed_le : passed ≤ graph.size
  /-- The rules that the outer loop has passed have been met. -/
  passed_met : ∀ rule < passed, search.progressOf rule ≠ .unvisited
  /-- The edges in the log are those that were followed. -/
  covered : search.Covered graph log.followed
  /-- The rules in the log are those that were put on the way. -/
  entered : search.Entered graph log.pushed
  /-- The steps taken and those that are left make up the bound. -/
  steps_add : log.steps + search.remaining graph = graph.searchBound

/-- Before the search every rule of the graph has not been met. -/
theorem progressOf_startSearch {rule : Nat} (inGraph : rule < graph.size) :
    graph.startSearch.progressOf rule = .unvisited := by
  rw [startSearch, Search.progressOf, List.getElem?_replicate, if_pos inGraph]
  rfl

/-- Nothing has been done before the search. -/
theorem Search.traced_start (wellFormed : graph.WellFormed) :
    graph.startSearch.Traced graph 0 ⟨[], [], 0⟩ := by
  have unmet : graph.startSearch.unmet graph = List.range graph.size :=
    List.filter_eq_self.mpr fun rule member =>
      decide_eq_true (progressOf_startSearch (List.mem_range.mp member))
  refine ⟨Search.invariant_start wellFormed, Nat.zero_le _, nofun, ⟨nofun, nofun, ?_, fun _ _ => rfl⟩,
    ⟨List.nodup_nil, ?_⟩, ?_⟩
  · intro rule done
    cases listed : graph.targets rule with
    | nil => rfl
    | cons target targets =>
      have edge : target ∈ graph.targets rule := listed ▸ List.mem_cons_self
      cases (progressOf_startSearch (wellFormed.source_lt edge)).symm.trans done
  · intro rule
    refine iff_of_false List.not_mem_nil fun ⟨inGraph, met⟩ => met (progressOf_startSearch inGraph)
  · rw [Search.remaining, Search.unmetSteps, unmet, sum_steps_eq_searchBound wellFormed]
    exact Nat.zero_add _

/-- What is put on the way by entering a rule is that rule. -/
theorem Search.added_of_path {search next : Search} {target : Nat}
    (path : next.path = target :: search.path) : search.added next = [target] := by
  rw [Search.added, path, List.length_cons, Nat.add_sub_cancel_left]
  rfl

/-- Nothing is put on the way if the way does not grow. -/
theorem Search.added_of_length_le {search next : Search}
    (shorter : next.path.length ≤ search.path.length) : search.added next = [] := by
  rw [Search.added, Nat.sub_eq_zero_of_le shorter, List.take_zero]

namespace Search.Traced

variable {passed : Nat} {log : Log} {search next : Search}

/-- The outer loop passes over a rule that has been met. -/
theorem pass (traced : search.Traced graph passed log) (inGraph : passed < graph.size)
    (met : search.progressOf passed ≠ .unvisited) : search.Traced graph (passed + 1) log := by
  refine { traced with passed_le := inGraph, passed_met := fun rule before => ?_ }
  by_cases last : rule = passed
  · exact last ▸ met
  · exact traced.passed_met rule (by omega)

/-- The outer loop begins a way with a rule that has not been met. -/
theorem begin (traced : search.Traced graph passed log) (idle : search.frames = [])
    (inGraph : passed < graph.size) (unvisited : search.progressOf passed = .unvisited) :
    (search.enter passed).Traced graph (passed + 1)
      { log with pushed := log.pushed ++ search.added (search.enter passed) } := by
  have invariant := traced.invariant
  have inside : passed < search.progress.length := invariant.progress_length ▸ inGraph
  have progress := @Search.progressOf_set search (search.enter passed) _ _ inside rfl
  have added : search.added (search.enter passed) = [passed] := Search.added_of_path rfl
  refine ⟨invariant.start idle inGraph unvisited, inGraph, fun rule before => ?_,
    traced.covered.enter inside unvisited, ?_, ?_⟩
  · rw [progress]
    split
    · exact nofun
    · exact traced.passed_met rule (by omega)
  · rw [added]
    exact traced.entered.enter inGraph unvisited progress
  · rw [invariant.remaining_enter idle inGraph unvisited]
    exact traced.steps_add

/-- A step of the inner loop keeps the log: it follows the next edge, if there is one, and puts its
target on the way if that has not been met. -/
theorem logged (wellFormed : graph.WellFormed) (traced : search.Traced graph passed log)
    (step : graph.searchStep? search = some next) :
    next.Covered graph (log.followed ++ (search.nextEdge? graph).toList) ∧
      next.Entered graph (log.pushed ++ search.added next) := by
  have invariant := traced.invariant
  obtain ⟨frame, below, frames, step⟩ := searchStep?_eq_some step
  have nextEdge : search.nextEdge? graph =
      ((graph.targets frame.rule)[frame.cursor]?).map fun target => (frame.rule, target) := by
    rw [Search.nextEdge?, frames]
    rfl
  have path := search.path_advance frames
  rw [nextEdge]
  cases step with
  | leave finished =>
    have added : search.added
        { search with progress := search.progress.set frame.rule .done, frames := below } = [] := by
      apply Search.added_of_length_le
      rw [Search.path, Search.path, frames, List.length_map, List.length_map, List.length_cons]
      exact Nat.le_succ _
    rw [finished, added, List.append_nil, Option.map_none, Option.toList_none, List.append_nil]
    exact ⟨traced.covered.leave invariant frames finished,
      traced.entered.congr (invariant.unvisited_leave_iff frames)⟩
  | skip edge done =>
    rw [edge, Search.added_of_length_le (le_of_eq (congrArg List.length path)), List.append_nil]
    exact ⟨traced.covered.advance invariant frames edge, traced.entered.congr fun _ => Iff.rfl⟩
  | enter edge unvisited =>
    rename_i target
    have inGraph : target < graph.size := wellFormed.target_lt (List.mem_of_getElem? edge)
    have inside : target < search.progress.length := invariant.progress_length ▸ inGraph
    have added : search.added
        (Search.enter { search with frames := ⟨frame.rule, frame.cursor + 1⟩ :: below } target) =
          [target] := Search.added_of_path (congrArg (target :: ·) path)
    rw [edge, added]
    exact ⟨(traced.covered.advance invariant frames edge).enter inside unvisited,
      traced.entered.enter inGraph unvisited (invariant.progressOf_enter wellFormed edge _)⟩
  | report edge onPath =>
    rename_i target
    have kept := (Search.report_eq
      { search with frames := ⟨frame.rule, frame.cursor + 1⟩ :: below } target).2
    have pathNext : Search.path (Search.report
        { search with frames := ⟨frame.rule, frame.cursor + 1⟩ :: below } target) = search.path := by
      rw [← path, Search.path, kept, Search.path]
    rw [edge, Search.added_of_length_le (le_of_eq (congrArg List.length pathNext)), List.append_nil]
    refine ⟨(traced.covered.advance invariant frames edge).report target,
      traced.entered.congr fun rule => ?_⟩
    rw [Search.progressOf_report]
    rfl

/-- A step of the inner loop. -/
theorem step (wellFormed : graph.WellFormed) (traced : search.Traced graph passed log)
    (step : graph.searchStep? search = some next) :
    next.Traced graph passed (log.step graph search next) := by
  have invariant := traced.invariant
  have counted := invariant.remaining_step wellFormed step
  have total := traced.steps_add
  obtain ⟨covered, entered⟩ := traced.logged wellFormed step
  refine ⟨invariant.step wellFormed step, traced.passed_le, fun rule before => ?_, covered, entered,
    ?_⟩
  · exact invariant.step_met wellFormed step (traced.passed_met rule before)
  · show log.steps + 1 + next.remaining graph = graph.searchBound
    omega

/-- An edge back to a rule on the way is reported: the rule is found among the frames. -/
theorem exists_report (traced : search.Traced graph passed log) {frame : Frame}
    {below : List Frame} (frames : search.frames = frame :: below) {target : Nat}
    (edge : (graph.targets frame.rule)[frame.cursor]? = some target)
    (onPath : search.progressOf target = .onPath) :
    ∃ loop, closedLoop (⟨frame.rule, frame.cursor + 1⟩ :: below) target = some loop ∧
      graph.searchStep? search =
        some ⟨search.progress, ⟨frame.rule, frame.cursor + 1⟩ :: below, loop :: search.found⟩ := by
  have member : target ∈ (⟨frame.rule, frame.cursor + 1⟩ :: below : List Frame).map Frame.rule := by
    have onWay := (traced.invariant.onPath_iff target).mp onPath
    rwa [Search.path, frames] at onWay
  obtain ⟨front, back, split, first⟩ := List.eq_append_cons_of_mem member
  have closed := closedLoop_eq split first
  refine ⟨_, closed, ?_⟩
  have follows : Search.follow { search with frames := ⟨frame.rule, frame.cursor + 1⟩ :: below }
      target = Search.report
        { search with frames := ⟨frame.rule, frame.cursor + 1⟩ :: below } target := by
    unfold Search.follow
    have progress : Search.progressOf
        { search with frames := ⟨frame.rule, frame.cursor + 1⟩ :: below } target = .onPath := onPath
    rw [progress]
  unfold searchStep?
  rw [frames]
  simp only [edge]
  rw [follows, Search.report, closed]

/-- When the outer loop has passed every rule and no rule is on the way, the search is over. -/
theorem finished (wellFormed : graph.WellFormed) (traced : search.Traced graph graph.size log)
    (idle : search.frames = []) :
    log.pushed.Perm (List.range graph.size) ∧
      (∀ source target,
        log.followed.count (source, target) = if graph.Edge source target then 1 else 0) ∧
        log.steps = graph.searchBound := by
  have done (rule : Nat) : search.progressOf rule = .done :=
    traced.invariant.done_of_met idle (traced.passed_met rule)
  refine ⟨?_, fun source target => ?_, ?_⟩
  · rw [List.perm_ext_iff_of_nodup traced.entered.nodup List.nodup_range]
    intro rule
    rw [traced.entered.mem_iff, List.mem_range]
    exact ⟨And.left, fun inGraph => ⟨inGraph, traced.passed_met rule inGraph⟩⟩
  · rw [count_followed, traced.covered.done source (done source)]
    exact (wellFormed.targets_nodup source).count
  · have unmet : search.unmet graph = [] :=
      List.filter_eq_nil_iff.mpr fun rule _ => by simp [done rule]
    have none : search.remaining graph = 0 := by
      rw [Search.remaining, Search.unmetSteps, unmet, idle]
      rfl
    have total := traced.steps_add
    omega

end Search.Traced

/-- What holds at the start of every turn. -/
theorem Search.Reached.traced (wellFormed : graph.WellFormed) {passed : Nat} {log : Search.Log}
    {search : Search} (reached : Search.Reached graph passed log search) :
    search.Traced graph passed log := by
  induction reached with
  | start => exact Search.traced_start wellFormed
  | pass _ _ inGraph met ih => exact ih.pass inGraph met
  | begin _ idle inGraph unvisited ih => exact ih.begin idle inGraph unvisited
  | step _ step ih => exact ih.step wellFormed step

/-- The inner loop runs through turns of the search. -/
theorem Search.Reached.searchFrom {passed : Nat} {log : Search.Log} {search : Search}
    (reached : Search.Reached graph passed log search) (bound : Nat) :
    ∃ last, Search.Reached graph passed last (graph.searchFrom bound search) := by
  induction bound generalizing log search with
  | zero => exact ⟨log, reached⟩
  | succ bound ih =>
    cases step : graph.searchStep? search with
    | none =>
      rw [CascadeGraph.searchFrom, step]
      exact ⟨log, reached⟩
    | some next =>
      rw [CascadeGraph.searchFrom, step]
      exact ih (reached.step step)

/-- A turn of the outer loop. -/
theorem Search.Reached.searchRule {passed : Nat} {log : Search.Log} {search : Search}
    (reached : Search.Reached graph passed log search) (idle : search.frames = [])
    (inGraph : passed < graph.size) :
    ∃ last, Search.Reached graph (passed + 1) last (graph.searchRule search passed) := by
  unfold CascadeGraph.searchRule
  split
  · rename_i unvisited
    exact (reached.begin idle inGraph unvisited).searchFrom graph.searchBound
  · rename_i met
    exact ⟨log, reached.pass idle inGraph met⟩

/-- The outer loop runs through turns of the search, and ends each of its own with no rule on the
way. -/
theorem Search.reached_foldl (wellFormed : graph.WellFormed) {passed : Nat}
    (inGraph : passed ≤ graph.size) :
    ∃ log, Search.Reached graph passed log
        ((List.range passed).foldl graph.searchRule graph.startSearch) ∧
      ((List.range passed).foldl graph.searchRule graph.startSearch).frames = [] := by
  induction passed with
  | zero => exact ⟨_, .start, rfl⟩
  | succ passed ih =>
    obtain ⟨log, reached, idle⟩ := ih (by omega)
    obtain ⟨last, reachedNext⟩ := reached.searchRule idle inGraph
    obtain ⟨-, idleNext, -⟩ :=
      (reached.traced wellFormed).invariant.searchRule wellFormed idle inGraph
    rw [List.range_succ, List.foldl_append]
    exact ⟨last, reachedNext, idleNext⟩

/-- At the start of every turn of either loop of the search for loops, the rules on the way are
different rules that each lead to the next one, they are the rules marked as on the way, no cursor is
past the edges of its rule, just the edges before the cursor have been followed, and of every done rule
all edges have been followed. So the rule that an edge leads back to is found among the frames and its
loop is reported. Over the whole search every rule is put on the way once and every edge followed once,
in as many steps as there are rules and edges; no state has taken more, and one with a rule on the way
takes another. -/
theorem search_exact (set : RuleSet) :
    let graph := ofRuleSet set
    (∀ passed log search, Search.Reached graph passed log search →
      search.path.Nodup ∧ (search.path.IsChain fun target source => graph.Edge source target) ∧
      (∀ rule, search.progressOf rule = .onPath ↔ rule ∈ search.path) ∧
      (∀ frame ∈ search.frames, frame.cursor ≤ (graph.targets frame.rule).length ∧
        followedFrom log.followed frame.rule = (graph.targets frame.rule).take frame.cursor) ∧
      (∀ rule, search.progressOf rule = .done →
        followedFrom log.followed rule = graph.targets rule) ∧
      (∀ frame below target, search.frames = frame :: below →
        (graph.targets frame.rule)[frame.cursor]? = some target →
        search.progressOf target = .onPath →
          ∃ loop, closedLoop (⟨frame.rule, frame.cursor + 1⟩ :: below) target = some loop ∧
            graph.searchStep? search = some
              ⟨search.progress, ⟨frame.rule, frame.cursor + 1⟩ :: below, loop :: search.found⟩) ∧
      passed ≤ graph.size ∧ log.steps ≤ graph.size + graph.edges.flatten.length ∧
      (search.frames ≠ [] → ∃ next, graph.searchStep? search = some next)) ∧
    (∀ log search, Search.Reached graph graph.size log search → search.frames = [] →
      log.pushed.Perm (List.range graph.size) ∧
      (∀ source target,
        log.followed.count (source, target) = if graph.Edge source target then 1 else 0) ∧
      log.steps = graph.size + graph.edges.flatten.length) ∧
    ∃ log, Search.Reached graph graph.size log graph.searchAll ∧ graph.searchAll.frames = [] := by
  intro graph
  have wellFormed : graph.WellFormed := wellFormed_ofRuleSet set
  refine ⟨fun passed log search reached => ?_, fun log search reached idle => ?_,
    Search.reached_foldl wellFormed (Nat.le_refl _)⟩
  · have traced := reached.traced wellFormed
    have invariant := traced.invariant
    refine ⟨invariant.path_nodup, invariant.path_edges, invariant.onPath_iff, ?_,
      traced.covered.done, ?_, traced.passed_le, ?_, ?_⟩
    · intro frame member
      exact ⟨traced.covered.cursor_le frame member, traced.covered.onPath frame member⟩
    · exact fun frame below target frames edge onPath => traced.exists_report frames edge onPath
    · exact (Nat.le_add_right _ _).trans_eq traced.steps_add
    · intro busy
      rw [← Option.isSome_iff_exists, Option.isSome_iff_ne_none]
      exact fun stop => busy (searchStep?_eq_none stop)
  · exact (reached.traced wellFormed).finished wellFormed idle

/-- Where a sensor sets off a siren that sets off itself, the search puts both on the way once, follows
both edges once, and takes four steps. -/
theorem search_exact_feedback :
    ∃ log, Search.Reached (ofRuleSet feedback) 2 log (ofRuleSet feedback).searchAll ∧
      log.pushed.Perm [0, 1] ∧ log.followed.count (0, 1) = 1 ∧ log.followed.count (1, 1) = 1 ∧
        log.followed.count (1, 0) = 0 ∧ log.steps = 4 := by
  obtain ⟨-, complete, log, reached, idle⟩ := search_exact feedback
  obtain ⟨pushed, followed, steps⟩ := complete log _ reached idle
  have edges : (ofRuleSet feedback).edges = [[1], [1]] := edges_feedback
  refine ⟨log, reached, pushed, ?_, ?_, ?_, steps.trans (by rw [edges]; rfl)⟩
  · rw [followed, if_pos (by rw [Edge, targets, edges]; decide)]
  · rw [followed, if_pos (by rw [Edge, targets, edges]; decide)]
  · rw [followed, if_neg (by rw [Edge, targets, edges]; decide)]

end CascadeGraph

end GameRules
