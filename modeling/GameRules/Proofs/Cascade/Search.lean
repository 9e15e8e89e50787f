import GameRules.Cascade.Loops
import GameRules.Proofs.Cascade.Graph
import Mathlib.Algebra.GroupWithZero.Nat
import Mathlib.Data.List.Chain

/-!
# What the depth-first search knows

An edge that closes a reported loop is set apart, and every other edge is kept. A rule is done once
its kept edges lead to rules that were done before it, so the done rules lie on no loop of kept edges.
The rules on the way are linked by edges, and each of their followed edges is set apart, leads to a
done rule, or leads further along the way.
-/

namespace GameRules

namespace CascadeGraph

variable {graph : CascadeGraph}

/-- A closed way through the graph: it comes back to its first rule and meets no other rule twice. -/
structure IsLoop (graph : CascadeGraph) (loop : List Nat) : Prop where
  /-- It ends where it begins, and its rules are different rules of the graph. -/
  simple : ∃ first others, loop = first :: others ++ [first] ∧ (first :: others).Nodup ∧
    ∀ rule ∈ first :: others, rule < graph.size
  /-- Each rule leads to the next one. -/
  edges : loop.IsChain graph.Edge

/-- An edge is the last one of a loop among those found. -/
def Closes (found : List (List Nat)) (source target : Nat) : Prop :=
  ∃ loop ∈ found, ∃ front, loop = front ++ [source, target]

/-- An edge that closes none of the loops found. -/
def Kept (graph : CascadeGraph) (found : List (List Nat)) (source target : Nat) : Prop :=
  graph.Edge source target ∧ ¬Closes found source target

/-- Finding more loops keeps no more edges. -/
theorem Kept.of_cons {found : List (List Nat)} {loop : List Nat} {source target : Nat}
    (kept : graph.Kept (loop :: found) source target) : graph.Kept found source target := by
  refine ⟨kept.1, fun closes => kept.2 ?_⟩
  obtain ⟨other, member, front, rfl⟩ := closes
  exact ⟨_, List.mem_cons_of_mem _ member, front, rfl⟩

/-- A followed edge is settled if it closes a loop, leads to a done rule, or leads to one of some
rules. -/
def Settled (search : Search) (above : List Nat) (source target : Nat) : Prop :=
  Closes search.found source target ∨ search.progressOf target = .done ∨ target ∈ above

/-- The followed edges of every frame are settled by the rules further along the way. -/
def Followed (graph : CascadeGraph) (search : Search) : List Nat → List Frame → Prop
  | _, [] => True
  | above, frame :: below =>
    (∀ target ∈ (graph.targets frame.rule).take frame.cursor,
      Settled search above frame.rule target) ∧
      Followed graph search (frame.rule :: above) below

/-- The rules on the way, the rule at hand first. -/
def Search.path (search : Search) : List Nat := search.frames.map Frame.rule

/-- What holds throughout the search. -/
structure Search.Invariant (graph : CascadeGraph) (search : Search) : Prop where
  /-- It is known of every rule how far the search has come with it. -/
  progress_length : search.progress.length = graph.size
  /-- The rules marked as on the way are those on the way. -/
  onPath_iff : ∀ rule, search.progressOf rule = .onPath ↔ rule ∈ search.path
  /-- No rule is on the way twice. -/
  path_nodup : search.path.Nodup
  /-- Each rule on the way leads to the next one. -/
  path_edges : search.path.IsChain fun target source => graph.Edge source target
  /-- The loops found are loops. -/
  found_loops : ∀ loop ∈ search.found, graph.IsLoop loop
  /-- The followed edges of the rules on the way are settled. -/
  followed : Followed graph search [] search.frames
  /-- Kept edges lead from done rules to done rules. -/
  done_closed : ∀ source target, search.progressOf source = .done →
    graph.Kept search.found source target → search.progressOf target = .done
  /-- Done rules lie on no loop of kept edges. -/
  done_acyclic : ∀ rule, search.progressOf rule = .done →
    ¬Relation.TransGen (graph.Kept search.found) rule rule

/-- Settled edges stay settled when the search knows more. -/
theorem Followed.mono {search next : Search} {above aboveNext : List Nat} {frames : List Frame}
    (followed : Followed graph search above frames)
    (settled : ∀ further source target, Settled search (further ++ above) source target →
      Settled next (further ++ aboveNext) source target) :
    Followed graph next aboveNext frames := by
  induction frames generalizing above aboveNext with
  | nil => trivial
  | cons frame below ih =>
    obtain ⟨here, rest⟩ := followed
    refine ⟨fun target member => settled [] _ _ (here target member), ih rest ?_⟩
    intro further source target old
    have split : ∀ list : List Nat, further ++ frame.rule :: list =
        (further ++ [frame.rule]) ++ list := fun list => by simp
    rw [split] at old ⊢
    exact settled _ source target old

/-- What is known of a rule changes with its own progress alone. -/
theorem Search.progressOf_set {search next : Search} {rule : Nat} {progress : Progress}
    (inside : rule < search.progress.length)
    (changed : next.progress = search.progress.set rule progress) (other : Nat) :
    next.progressOf other = if other = rule then progress else search.progressOf other := by
  rw [Search.progressOf, Search.progressOf, changed, List.getElem?_set]
  by_cases same : rule = other
  · subst same
    simp [inside]
  · simp [same, Ne.symm same]

/-- Following an edge of the rule at hand does not change the way. -/
theorem Search.path_advance (search : Search) {frame : Frame} {below : List Frame}
    (frames : search.frames = frame :: below) :
    Search.path { search with frames := ⟨frame.rule, frame.cursor + 1⟩ :: below } = search.path := by
  rw [Search.path, Search.path, frames]
  rfl

namespace Search.Invariant

variable {search : Search}

/-- Rules on the way are rules of the graph. -/
theorem lt_size_of_mem_path (invariant : search.Invariant graph) {rule : Nat}
    (member : rule ∈ search.path) : rule < graph.size := by
  by_contra outside
  have onPath := (invariant.onPath_iff rule).mpr member
  have none : search.progress[rule]? = none := by
    rw [List.getElem?_eq_none_iff, invariant.progress_length]
    omega
  rw [Search.progressOf, none] at onPath
  cases onPath

/-- Leaving the rule at hand marks it as done. -/
theorem progressOf_leave (invariant : search.Invariant graph) {frame : Frame} {below : List Frame}
    (frames : search.frames = frame :: below) (rule : Nat) :
    Search.progressOf
        { search with progress := search.progress.set frame.rule .done, frames := below } rule =
      if rule = frame.rule then .done else search.progressOf rule := by
  have atHand : frame.rule ∈ search.path := by
    rw [Search.path, frames]
    exact List.mem_cons_self
  have inside : frame.rule < search.progress.length :=
    invariant.progress_length ▸ invariant.lt_size_of_mem_path atHand
  exact Search.progressOf_set inside rfl rule

/-- Entering a rule marks it as on the way. -/
theorem progressOf_enter (invariant : search.Invariant graph) (wellFormed : graph.WellFormed)
    {frame : Frame} {target : Nat}
    (edge : (graph.targets frame.rule)[frame.cursor]? = some target) (frames : List Frame)
    (rule : Nat) :
    (Search.enter { search with frames } target).progressOf rule =
      if rule = target then .onPath else search.progressOf rule := by
  have inside : target < search.progress.length :=
    invariant.progress_length ▸ wellFormed.target_lt (List.mem_of_getElem? edge)
  exact Search.progressOf_set inside rfl rule

/-- Done rules lead to done rules along kept edges. -/
theorem done_of_reach (invariant : search.Invariant graph) {source target : Nat}
    (done : search.progressOf source = .done)
    (reach : Relation.ReflTransGen (graph.Kept search.found) source target) :
    search.progressOf target = .done := by
  induction reach with
  | refl => exact done
  | tail _ kept ih => exact invariant.done_closed _ _ ih kept

/-- The rule at hand is done when its edges have been followed. -/
theorem leave (invariant : search.Invariant graph) {frame : Frame} {below : List Frame}
    (frames : search.frames = frame :: below)
    (finished : (graph.targets frame.rule)[frame.cursor]? = none) :
    Search.Invariant graph
      { search with progress := search.progress.set frame.rule .done, frames := below } := by
  have path : search.path = frame.rule :: below.map Frame.rule := by
    rw [Search.path, frames, List.map_cons]
  have atHand : frame.rule ∈ search.path := path ▸ List.mem_cons_self
  have onPath := (invariant.onPath_iff frame.rule).mpr atHand
  have progress := invariant.progressOf_leave frames
  have stillDone : ∀ rule, search.progressOf rule = .done → Search.progressOf
      { search with progress := search.progress.set frame.rule .done, frames := below } rule =
        .done := by
    intro rule done
    rw [progress, done, ite_self]
  have doneBefore : ∀ rule, rule ≠ frame.rule → Search.progressOf
      { search with progress := search.progress.set frame.rule .done, frames := below } rule =
        .done → search.progressOf rule = .done := by
    intro rule different done
    rwa [progress, if_neg different] at done
  obtain ⟨fresh, nodup⟩ := List.nodup_cons.mp (path ▸ invariant.path_nodup)
  have followed := invariant.followed
  rw [frames] at followed
  obtain ⟨here, rest⟩ := followed
  have all : (graph.targets frame.rule).take frame.cursor = graph.targets frame.rule :=
    List.take_of_length_le (List.getElem?_eq_none_iff.mp finished)
  rw [all] at here
  have leads : ∀ target, graph.Kept search.found frame.rule target →
      search.progressOf target = .done := by
    rintro target ⟨edge, open_⟩
    rcases here target edge with closes | done | none
    · exact absurd closes open_
    · exact done
    · cases none
  refine ⟨(List.length_set ..).trans invariant.progress_length, ?_, nodup, ?_,
    invariant.found_loops, ?_, ?_, ?_⟩
  · intro rule
    rw [progress]
    by_cases same : rule = frame.rule
    · subst same
      exact ⟨fun onPath => (by simp at onPath), fun member => absurd member fresh⟩
    · rw [if_neg same, invariant.onPath_iff, path, List.mem_cons, or_iff_right same]
      rfl
  · exact (path ▸ invariant.path_edges).tail
  · refine rest.mono fun further source target settled => ?_
    rcases settled with closes | done | above
    · exact .inl closes
    · exact .inr (.inl (stillDone target done))
    · rcases List.mem_append.mp above with above | above
      · exact .inr (.inr (List.mem_append_left _ above))
      · cases List.mem_singleton.mp above
        exact .inr (.inl (by rw [progress, if_pos rfl]))
  · intro source target done kept
    by_cases same : source = frame.rule
    · subst same
      exact stillDone target (leads target kept)
    · exact stillDone target (invariant.done_closed source target (doneBefore source same done) kept)
  · intro rule done loop
    by_cases same : rule = frame.rule
    · -- A loop through the rule at hand would lead from a done rule back to it.
      subst same
      obtain ⟨target, kept, back⟩ := Relation.TransGen.head'_iff.mp loop
      have returned := invariant.done_of_reach (leads target kept) back
      rw [onPath] at returned
      cases returned
    · exact invariant.done_acyclic rule (doneBefore rule same done) loop

/-- The followed edges of the rule at hand are settled with the next one if that is. -/
theorem followed_next (invariant : search.Invariant graph) {frame : Frame} {below : List Frame}
    (frames : search.frames = frame :: below) {target : Nat}
    (edge : (graph.targets frame.rule)[frame.cursor]? = some target)
    {next : Search} {above : List Nat}
    (settled : ∀ further source target, Settled search further source target →
      Settled next (further ++ above) source target)
    (new : Settled next above frame.rule target) :
    Followed graph next above (⟨frame.rule, frame.cursor + 1⟩ :: below) := by
  have followed := invariant.followed
  rw [frames] at followed
  obtain ⟨here, rest⟩ := followed
  refine ⟨fun other member => ?_, rest.mono fun further source target old => ?_⟩
  · rw [List.take_add_one, edge] at member
    rcases List.mem_append.mp member with earlier | last
    · exact settled [] _ _ (here other earlier)
    · cases List.mem_singleton.mp last
      exact new
  · have split : further ++ frame.rule :: above = (further ++ [frame.rule]) ++ above := by simp
    rw [split]
    exact settled _ source target old

/-- An edge to a done rule is passed over. -/
theorem skip (invariant : search.Invariant graph) {frame : Frame} {below : List Frame}
    (frames : search.frames = frame :: below) {target : Nat}
    (edge : (graph.targets frame.rule)[frame.cursor]? = some target)
    (done : search.progressOf target = .done) :
    Search.Invariant graph
      { search with frames := ⟨frame.rule, frame.cursor + 1⟩ :: below } := by
  have path := search.path_advance frames
  refine ⟨invariant.progress_length, ?_, ?_, ?_, invariant.found_loops, ?_, invariant.done_closed,
    invariant.done_acyclic⟩
  · rw [path]
    exact invariant.onPath_iff
  · rw [path]
    exact invariant.path_nodup
  · rw [path]
    exact invariant.path_edges
  · refine invariant.followed_next frames edge (fun further source other settled => ?_)
      (.inr (.inl done))
    rw [List.append_nil]
    exact settled

/-- A rule that has not been met is entered, be it along an edge or as the first rule of a way. -/
theorem enter_of_path (invariant : search.Invariant graph) {frames : List Frame} {target : Nat}
    (path : frames.map Frame.rule = search.path) (inGraph : target < graph.size)
    (unvisited : search.progressOf target = .unvisited)
    (edges : (target :: search.path).IsChain fun target source => graph.Edge source target)
    (followed : ∀ next : Search, (∀ further source other, Settled search further source other →
        Settled next (further ++ [target]) source other) → Followed graph next [target] frames) :
    (Search.enter { search with frames } target).Invariant graph := by
  have inside : target < search.progress.length := invariant.progress_length ▸ inGraph
  have pathNext : (Search.enter { search with frames } target).path = target :: search.path :=
    congrArg (target :: ·) path
  have progress := @Search.progressOf_set search (Search.enter { search with frames } target) _ _
    inside rfl
  have doneBefore : ∀ rule, (Search.enter { search with frames } target).progressOf rule = .done →
      search.progressOf rule = .done := by
    intro rule done
    rw [progress] at done
    split at done
    · cases done
    · exact done
  have stillDone : ∀ rule, search.progressOf rule = .done →
      (Search.enter { search with frames } target).progressOf rule = .done := by
    intro rule done
    have different : rule ≠ target := by
      rintro rfl
      rw [unvisited] at done
      cases done
    rw [progress, if_neg different, done]
  have fresh : target ∉ search.path := by
    intro member
    have onPath := (invariant.onPath_iff target).mpr member
    rw [unvisited] at onPath
    cases onPath
  refine ⟨(List.length_set ..).trans invariant.progress_length, ?_, ?_, ?_,
    invariant.found_loops, ⟨?_, followed _ ?_⟩, ?_, ?_⟩
  · intro rule
    rw [progress, pathNext, List.mem_cons]
    by_cases same : rule = target
    · simp [same]
    · rw [if_neg same, or_iff_right same]
      exact invariant.onPath_iff rule
  · rw [pathNext]
    exact List.nodup_cons.mpr ⟨fresh, invariant.path_nodup⟩
  · rw [pathNext]
    exact edges
  · intro other member
    rw [List.take_zero] at member
    cases member
  · intro further source other settled
    rcases settled with closes | done | above
    · exact .inl closes
    · exact .inr (.inl (stillDone other done))
    · exact .inr (.inr (List.mem_append_left _ above))
  · intro source other done kept
    exact stillDone other (invariant.done_closed source other (doneBefore source done) kept)
  · intro rule done
    exact invariant.done_acyclic rule (doneBefore rule done)

/-- The rule that an edge leads to is the next one on the way if it has not been met. -/
theorem enter (invariant : search.Invariant graph) (wellFormed : graph.WellFormed) {frame : Frame}
    {below : List Frame} (frames : search.frames = frame :: below) {target : Nat}
    (edge : (graph.targets frame.rule)[frame.cursor]? = some target)
    (unvisited : search.progressOf target = .unvisited) :
    Search.Invariant graph
      (Search.enter { search with frames := ⟨frame.rule, frame.cursor + 1⟩ :: below } target) := by
  have leads : graph.Edge frame.rule target := List.mem_of_getElem? edge
  refine invariant.enter_of_path (search.path_advance frames) (wellFormed.target_lt leads) unvisited
    ?_ fun next settled => invariant.followed_next frames edge settled
      (.inr (.inr List.mem_cons_self))
  have edges := invariant.path_edges
  rw [Search.path, frames, List.map_cons] at edges ⊢
  exact List.isChain_cons_cons.mpr ⟨leads, edges⟩

/-- A rule that has not been met may begin a way. -/
theorem start (invariant : search.Invariant graph) (idle : search.frames = []) {start : Nat}
    (inGraph : start < graph.size) (unvisited : search.progressOf start = .unvisited) :
    (search.enter start).Invariant graph := by
  have path : search.path = [] := by
    rw [Search.path, idle, List.map_nil]
  refine invariant.enter_of_path rfl inGraph unvisited ?_ fun next _ => ?_
  · rw [path]
    exact List.isChain_singleton _
  · rw [idle]
    trivial

end Search.Invariant

/-- The loop that is closed by an edge back to a rule on the way runs from that rule to the rule at
hand. -/
theorem closedLoop_eq {frames : List Frame} {front back : List Nat} {target : Nat}
    (path : frames.map Frame.rule = front ++ target :: back) (first : target ∉ front) :
    closedLoop frames target = some ((front ++ [target]).reverse ++ [target]) := by
  obtain ⟨near, rest, rfl, rfl, tail⟩ := List.map_eq_append_iff.mp path
  obtain ⟨frame, far, rfl, rfl, -⟩ := List.map_eq_cons_iff.mp tail
  have before : ∀ other ∈ near, (other.rule != frame.rule) = true := by
    intro other member
    rw [bne_iff_ne]
    exact fun same => first (same ▸ List.mem_map_of_mem member)
  have taken : (near ++ frame :: far).takeWhile (fun other => other.rule != frame.rule) = near := by
    rw [List.takeWhile_append_of_pos before, List.takeWhile_cons_of_neg (by simp), List.append_nil]
  have met : (near ++ frame :: far).any (fun other => other.rule == frame.rule) = true := by
    simp
  rw [closedLoop, if_pos met, taken, List.reverse_append, List.reverse_singleton]
  rfl

/-- A way back to one of its rules is a loop, and the last edge closes it. -/
theorem isLoop_of_path {front back below : List Nat} {source target : Nat}
    (way : front ++ target :: back = source :: below)
    (nodup : (front ++ target :: back).Nodup)
    (inGraph : ∀ rule ∈ front ++ target :: back, rule < graph.size)
    (edges : (front ++ target :: back).IsChain fun target source => graph.Edge source target)
    (edge : graph.Edge source target) :
    graph.IsLoop ((front ++ [target]).reverse ++ [target]) ∧
      ∃ others, (front ++ [target]).reverse ++ [target] = others ++ [source, target] := by
  have initial : front ++ [target] <+: front ++ target :: back := by simp
  obtain ⟨others, ends⟩ : ∃ others, front ++ [target] = source :: others := by
    cases front with
    | nil => exact ⟨[], by rw [List.nil_append, (List.cons.inj way).1]⟩
    | cons first front => exact ⟨front ++ [target], by rw [List.cons_append, (List.cons.inj way).1]⟩
  refine ⟨⟨⟨target, front.reverse, ?_, ?_, ?_⟩, ?_⟩, others.reverse, ?_⟩
  · simp
  · have simple := initial.sublist.nodup nodup
    rw [← List.nodup_reverse] at simple
    simpa using simple
  · intro rule member
    refine inGraph rule (initial.subset ?_)
    simpa [or_comm] using member
  · have way : (front ++ [target]).reverse.IsChain graph.Edge :=
      List.isChain_reverse.mpr <| List.IsChain.prefix edges initial
    refine way.append (List.isChain_singleton _) fun last isLast next isNext => ?_
    rw [ends, List.reverse_cons, List.getLast?_concat, Option.mem_some_iff] at isLast
    rw [List.head?_cons, Option.mem_some_iff] at isNext
    rwa [← isLast, ← isNext]
  · rw [ends, List.reverse_cons, List.append_assoc, List.singleton_append]

/-- An edge back to a rule on the way closes a loop, which is reported. -/
theorem Search.Invariant.report {search : Search} (invariant : search.Invariant graph)
    {frame : Frame} {below : List Frame} (frames : search.frames = frame :: below) {target : Nat}
    (edge : (graph.targets frame.rule)[frame.cursor]? = some target)
    (onPath : search.progressOf target = .onPath) :
    Search.Invariant graph
      (Search.report { search with frames := ⟨frame.rule, frame.cursor + 1⟩ :: below } target) := by
  have advanced := search.path_advance frames
  have leads : graph.Edge frame.rule target := List.mem_of_getElem? edge
  have member : target ∈ search.path := (invariant.onPath_iff target).mp onPath
  obtain ⟨front, back, split, first⟩ := List.eq_append_cons_of_mem member
  have way : front ++ target :: back = frame.rule :: below.map Frame.rule := by
    rw [← split, Search.path, frames, List.map_cons]
  obtain ⟨isLoop, others, ends⟩ := isLoop_of_path way (split ▸ invariant.path_nodup)
    (fun rule member => invariant.lt_size_of_mem_path (split ▸ member))
    (split ▸ invariant.path_edges) leads
  have reported : Search.report
      { search with frames := ⟨frame.rule, frame.cursor + 1⟩ :: below } target =
        ⟨search.progress, ⟨frame.rule, frame.cursor + 1⟩ :: below,
          ((front ++ [target]).reverse ++ [target]) :: search.found⟩ := by
    rw [Search.report, closedLoop_eq (advanced.trans split) first]
  rw [reported]
  refine ⟨invariant.progress_length, ?_, ?_, ?_, ?_, ?_, ?_, ?_⟩
  · intro rule
    exact (invariant.onPath_iff rule).trans (by rw [← advanced]; rfl)
  · have nodup := invariant.path_nodup
    rw [← advanced] at nodup
    exact nodup
  · have edges := invariant.path_edges
    rw [← advanced] at edges
    exact edges
  · exact List.forall_mem_cons.mpr ⟨isLoop, invariant.found_loops⟩
  · refine invariant.followed_next frames edge (fun further source other settled => ?_)
      (.inl ⟨_, List.mem_cons_self, others, ends⟩)
    rw [List.append_nil]
    rcases settled with ⟨loop, found, closes⟩ | settled
    · exact .inl ⟨loop, List.mem_cons_of_mem _ found, closes⟩
    · exact .inr settled
  · intro source other done keptEdge
    exact invariant.done_closed source other done keptEdge.of_cons
  · intro rule done loop
    exact invariant.done_acyclic rule done (loop.lift id fun _ _ keptEdge => keptEdge.of_cons)

/-- What one step of the search does with the rule at hand. -/
inductive Search.Step (graph : CascadeGraph) (search : Search) (frame : Frame)
    (below : List Frame) : Search → Prop where
  /-- All edges have been followed, and the rule is left. -/
  | leave (finished : (graph.targets frame.rule)[frame.cursor]? = none) :
      Step graph search frame below
        { search with progress := search.progress.set frame.rule .done, frames := below }
  /-- The next edge leads to a done rule. -/
  | skip {target : Nat} (edge : (graph.targets frame.rule)[frame.cursor]? = some target)
      (met : search.progressOf target = .done) :
      Step graph search frame below
        { search with frames := ⟨frame.rule, frame.cursor + 1⟩ :: below }
  /-- The next edge leads to a rule that has not been met. -/
  | enter {target : Nat} (edge : (graph.targets frame.rule)[frame.cursor]? = some target)
      (met : search.progressOf target = .unvisited) :
      Step graph search frame below
        (Search.enter { search with frames := ⟨frame.rule, frame.cursor + 1⟩ :: below } target)
  /-- The next edge leads back to a rule on the way. -/
  | report {target : Nat} (edge : (graph.targets frame.rule)[frame.cursor]? = some target)
      (met : search.progressOf target = .onPath) :
      Step graph search frame below
        (Search.report { search with frames := ⟨frame.rule, frame.cursor + 1⟩ :: below } target)

/-- A step of the search is one of the four. -/
theorem searchStep?_eq_some {search next : Search} (step : graph.searchStep? search = some next) :
    ∃ frame below, search.frames = frame :: below ∧ Search.Step graph search frame below next := by
  unfold searchStep? at step
  split at step
  · cases step
  · rename_i frame below frames
    refine ⟨frame, below, frames, ?_⟩
    split at step
    · rename_i finished
      cases step
      exact .leave finished
    · rename_i target edge
      cases step
      unfold Search.follow
      cases met : Search.progressOf
          { search with frames := ⟨frame.rule, frame.cursor + 1⟩ :: below } target with
      | onPath => exact .report edge met
      | unvisited => exact .enter edge met
      | done => exact .skip edge met

/-- There is no step only when no rule is on the way. -/
theorem searchStep?_eq_none {search : Search} (stop : graph.searchStep? search = none) :
    search.frames = [] := by
  unfold searchStep? at stop
  split at stop
  · assumption
  · split at stop <;> cases stop

/-- Reporting a loop changes nothing but the loops found. -/
theorem Search.report_eq (search : Search) (target : Nat) :
    (search.report target).progress = search.progress ∧
      (search.report target).frames = search.frames := by
  unfold Search.report
  split <;> exact ⟨rfl, rfl⟩

/-- Reporting a loop does not bring the search further with any rule. -/
theorem Search.progressOf_report (search : Search) (target rule : Nat) :
    (search.report target).progressOf rule = search.progressOf rule := by
  rw [Search.progressOf, (Search.report_eq search target).1, Search.progressOf]

/-- A step of the search keeps the invariant. -/
theorem Search.Invariant.step (wellFormed : graph.WellFormed) {search next : Search}
    (invariant : search.Invariant graph) (step : graph.searchStep? search = some next) :
    next.Invariant graph := by
  obtain ⟨frame, below, frames, step⟩ := searchStep?_eq_some step
  cases step with
  | leave finished => exact invariant.leave frames finished
  | skip edge met => exact invariant.skip frames edge met
  | enter edge met => exact invariant.enter wellFormed frames edge met
  | report edge met => exact invariant.report frames edge met

/-- The rules that have not been met. -/
def Search.unmet (graph : CascadeGraph) (search : Search) : List Nat :=
  (List.range graph.size).filter fun rule => search.progressOf rule = .unvisited

/-- How many steps a rule on the way still takes: one for each edge not followed, and one to leave. -/
def Frame.remaining (graph : CascadeGraph) (frame : Frame) : Nat :=
  (graph.targets frame.rule).length - frame.cursor + 1

/-- How many steps the unmet rules take. -/
def Search.unmetSteps (graph : CascadeGraph) (search : Search) : Nat :=
  ((search.unmet graph).map fun rule => (graph.targets rule).length + 1).sum

/-- How many steps are left: those of the unmet rules, and those of the rules on the way. -/
def Search.remaining (graph : CascadeGraph) (search : Search) : Nat :=
  search.unmetSteps graph + (search.frames.map (Frame.remaining graph)).sum

/-- The unmet rules take the same steps if the same rules are unvisited. -/
theorem Search.unmetSteps_congr {search next : Search}
    (same : ∀ rule, next.progressOf rule = .unvisited ↔ search.progressOf rule = .unvisited) :
    next.unmetSteps graph = search.unmetSteps graph := by
  have unmet : next.unmet graph = search.unmet graph :=
    List.filter_congr fun rule _ => decide_eq_decide.mpr (same rule)
  rw [Search.unmetSteps, Search.unmetSteps, unmet]

/-- Entering a rule takes its steps off those of the unmet rules. -/
theorem Search.unmetSteps_enter {search next : Search} {target : Nat} (inside : target < graph.size)
    (unvisited : search.progressOf target = .unvisited)
    (progress : ∀ rule, next.progressOf rule =
      if rule = target then .onPath else search.progressOf rule) :
    search.unmetSteps graph = (graph.targets target).length + 1 + next.unmetSteps graph := by
  have fewer : (search.unmet graph).Perm (target :: next.unmet graph) := by
    refine filter_range_perm inside (by simp [progress]) fun rule => ?_
    by_cases same : rule = target
    · subst same
      simp [unvisited]
    · simp [same, progress]
  have counted := (fewer.map fun rule => (graph.targets rule).length + 1).sum_nat
  rwa [List.map_cons, List.sum_cons] at counted

namespace Search.Invariant

variable {search next : Search}

/-- Leaving the rule at hand meets no rule. -/
theorem unvisited_leave_iff (invariant : search.Invariant graph) {frame : Frame}
    {below : List Frame} (frames : search.frames = frame :: below) (rule : Nat) :
    Search.progressOf
        { search with progress := search.progress.set frame.rule .done, frames := below } rule =
      .unvisited ↔ search.progressOf rule = .unvisited := by
  rw [invariant.progressOf_leave frames]
  by_cases atHand : rule = frame.rule
  · have onPath : search.progressOf frame.rule = .onPath := by
      rw [invariant.onPath_iff, Search.path, frames]
      exact List.mem_cons_self
    rw [if_pos atHand, atHand, onPath]
    decide
  · rw [if_neg atHand]

/-- A rule that has been met stays met. -/
theorem step_met (invariant : search.Invariant graph) (wellFormed : graph.WellFormed)
    (step : graph.searchStep? search = some next) {rule : Nat}
    (met : search.progressOf rule ≠ .unvisited) : next.progressOf rule ≠ .unvisited := by
  obtain ⟨frame, below, frames, step⟩ := searchStep?_eq_some step
  cases step with
  | leave finished => exact mt (invariant.unvisited_leave_iff frames rule).mp met
  | skip edge done => exact met
  | enter edge unvisited =>
    rw [invariant.progressOf_enter wellFormed edge]
    split
    · exact nofun
    · exact met
  | report edge onPath =>
    rw [Search.progressOf_report]
    exact met

/-- Every step is counted. -/
theorem remaining_step (invariant : search.Invariant graph) (wellFormed : graph.WellFormed)
    (step : graph.searchStep? search = some next) :
    search.remaining graph = next.remaining graph + 1 := by
  obtain ⟨frame, below, frames, step⟩ := searchStep?_eq_some step
  have before : search.remaining graph = search.unmetSteps graph +
      (frame.remaining graph + (below.map (Frame.remaining graph)).sum) := by
    rw [Search.remaining, frames, List.map_cons, List.sum_cons]
  have advanced {target : Nat} (edge : (graph.targets frame.rule)[frame.cursor]? = some target) :
      frame.remaining graph = Frame.remaining graph ⟨frame.rule, frame.cursor + 1⟩ + 1 := by
    have inside := (List.getElem?_eq_some_iff.mp edge).1
    simp only [Frame.remaining]
    omega
  cases step with
  | leave finished =>
    have same : Search.unmetSteps graph
        { search with progress := search.progress.set frame.rule .done, frames := below } =
          search.unmetSteps graph :=
      Search.unmetSteps_congr (invariant.unvisited_leave_iff frames)
    have last : frame.remaining graph = 1 := by
      have none := List.getElem?_eq_none_iff.mp finished
      rw [Frame.remaining]
      omega
    rw [before, last, Search.remaining, same]
    dsimp only
    omega
  | skip edge done =>
    have same : Search.unmetSteps graph
        { search with frames := ⟨frame.rule, frame.cursor + 1⟩ :: below } =
          search.unmetSteps graph := Search.unmetSteps_congr fun _ => Iff.rfl
    rw [before, advanced edge, Search.remaining, same, List.map_cons, List.sum_cons]
    omega
  | enter edge unvisited =>
    rename_i target
    have fewer := Search.unmetSteps_enter (wellFormed.target_lt (List.mem_of_getElem? edge))
      unvisited
      (invariant.progressOf_enter wellFormed edge (⟨frame.rule, frame.cursor + 1⟩ :: below))
    have begun : Frame.remaining graph ⟨target, 0⟩ = (graph.targets target).length + 1 := rfl
    rw [before, advanced edge, fewer, Search.remaining, Search.enter, List.map_cons, List.sum_cons,
      List.map_cons, List.sum_cons, begun]
    omega
  | report edge onPath =>
    rename_i target
    have kept := (Search.report_eq
      { search with frames := ⟨frame.rule, frame.cursor + 1⟩ :: below } target).2
    have same : Search.unmetSteps graph (Search.report
        { search with frames := ⟨frame.rule, frame.cursor + 1⟩ :: below } target) =
          search.unmetSteps graph := by
      refine Search.unmetSteps_congr fun rule => ?_
      rw [Search.progressOf_report]
      rfl
    rw [before, advanced edge, Search.remaining, same, kept, List.map_cons, List.sum_cons]
    omega

/-- A search that may take as many steps as are left ends with no rule on the way. It keeps the
invariant, and rules that have been met stay met. -/
theorem searchFrom (wellFormed : graph.WellFormed) {bound : Nat} {search : Search}
    (invariant : search.Invariant graph) (enough : search.remaining graph ≤ bound) :
    (graph.searchFrom bound search).Invariant graph ∧
      (graph.searchFrom bound search).frames = [] ∧
        ∀ rule, search.progressOf rule ≠ .unvisited →
          (graph.searchFrom bound search).progressOf rule ≠ .unvisited := by
  induction bound generalizing search with
  | zero =>
    refine ⟨invariant, ?_, fun _ met => met⟩
    cases frames : search.frames with
    | nil => exact frames
    | cons frame below =>
      rw [Search.remaining, frames, List.map_cons, List.sum_cons, Frame.remaining] at enough
      omega
  | succ bound ih =>
    cases step : graph.searchStep? search with
    | none =>
      rw [CascadeGraph.searchFrom, step]
      exact ⟨invariant, searchStep?_eq_none step, fun _ met => met⟩
    | some next =>
      have counted := invariant.remaining_step wellFormed step
      obtain ⟨invariantEnd, ended, metEnd⟩ := ih (invariant.step wellFormed step) (by omega)
      rw [CascadeGraph.searchFrom, step]
      exact ⟨invariantEnd, ended,
        fun rule met => metEnd rule (invariant.step_met wellFormed step met)⟩

end Search.Invariant

end CascadeGraph

end GameRules
