import GameRules.Cascade.Graph

/-!
# Feedback loops

Loops are found by a depth-first search that starts from every rule in turn. The rules on the way
from the start to the rule at hand are kept as frames, each with the number of its edges that have
been followed. An edge to a rule of the way closes a loop, and each such edge is reported as the loop
it closes: the rules from there on, and the first one again.
-/

namespace GameRules

namespace CascadeGraph

/-- How far the search has come with a rule. -/
inductive Progress where
  /-- It has not been met. -/
  | unvisited
  /-- It is on the way to the rule at hand. -/
  | onPath
  /-- All its edges have been followed. -/
  | done
deriving DecidableEq, Repr

/-- A rule on the way, and how many of its edges have been followed. -/
structure Frame where
  /-- The rule. -/
  rule : Nat
  /-- The number of edges followed. -/
  cursor : Nat
deriving DecidableEq, Repr

/-- A state of the search. -/
structure Search where
  /-- How far the search has come with each rule. -/
  progress : List Progress
  /-- The way to the rule at hand, which comes first. -/
  frames : List Frame
  /-- The loops found, the last one first. -/
  found : List (List Nat)
deriving DecidableEq, Repr

/-- The search before any rule is met. -/
def startSearch (graph : CascadeGraph) : Search :=
  ⟨List.replicate graph.size .unvisited, [], []⟩

/-- How far the search has come with a rule. -/
def Search.progressOf (search : Search) (rule : Nat) : Progress :=
  (search.progress[rule]?).getD .done

/-- Goes on to a rule that has not been met. -/
def Search.enter (search : Search) (rule : Nat) : Search :=
  { search with
    progress := search.progress.set rule .onPath
    frames := ⟨rule, 0⟩ :: search.frames }

/-- The loop that an edge from the rule at hand back to a rule of the way closes. -/
def closedLoop (frames : List Frame) (rule : Nat) : Option (List Nat) :=
  if frames.any fun frame => frame.rule == rule then
    some (rule :: ((frames.takeWhile fun frame => frame.rule != rule).map Frame.rule).reverse ++
      [rule])
  else none

/-- Reports the loop that an edge closes. -/
def Search.report (search : Search) (rule : Nat) : Search :=
  match closedLoop search.frames rule with
  | some loop => { search with found := loop :: search.found }
  | none => search

/-- Follows an edge of the rule at hand. -/
def Search.follow (search : Search) (target : Nat) : Search :=
  match search.progressOf target with
  | .onPath => search.report target
  | .unvisited => search.enter target
  | .done => search

/-- One step of the search: leaves the rule at hand if all its edges have been followed, and follows
its next edge otherwise. There is no step from a way of no rules. -/
def searchStep? (graph : CascadeGraph) (search : Search) : Option Search :=
  match search.frames with
  | [] => none
  | frame :: below =>
    match (graph.targets frame.rule)[frame.cursor]? with
    | none =>
      some { search with
        progress := search.progress.set frame.rule .done
        frames := below }
    | some target =>
      some (Search.follow { search with frames := ⟨frame.rule, frame.cursor + 1⟩ :: below } target)

/-- Takes steps until there is none; at most as many as the bound. -/
def searchFrom (graph : CascadeGraph) : Nat → Search → Search
  | 0, search => search
  | bound + 1, search =>
    match graph.searchStep? search with
    | none => search
    | some next => searchFrom graph bound next

/-- How many steps a search can take: one for every edge, and one to leave every rule. -/
def searchBound (graph : CascadeGraph) : Nat := graph.size + graph.edges.flatten.length

/-- Searches from a rule unless it has been met. -/
def searchRule (graph : CascadeGraph) (search : Search) (start : Nat) : Search :=
  if search.progressOf start = .unvisited then graph.searchFrom graph.searchBound (search.enter start)
  else search

/-- The search from every rule in turn. -/
def searchAll (graph : CascadeGraph) : Search :=
  (List.range graph.size).foldl graph.searchRule graph.startSearch

/-- The loops found, by position, in the order found. -/
def loops (graph : CascadeGraph) : List (List Nat) := graph.searchAll.found.reverse

/-- The loops found, by name. -/
def cycles (graph : CascadeGraph) : List (List String) := graph.loops.map fun loop => loop.map graph.name

/-- Whether there is a loop. -/
def hasCycles (graph : CascadeGraph) : Bool := !graph.loops.isEmpty

end CascadeGraph

end GameRules
