import GameRules.Cascade.Graph

/-!
# The order in which rules run

Rules run after the rules that lead to them. Among the rules that are free to run, the one of highest
priority comes first, and of equal priority the one that comes first in the document. Rules on a loop
or behind one are never free; they come last, in the same order of preference.

The order is built by a worklist. It counts for every rule the edges into it from rules that have
not been placed yet, and keeps the rules whose count is zero in order of preference.
-/

namespace GameRules

namespace CascadeGraph

/-- Whether one rule is preferred to another, or is that rule. -/
def prefers (graph : CascadeGraph) (left right : Nat) : Bool :=
  graph.priority right < graph.priority left ||
    (graph.priority left == graph.priority right && left ≤ right)

/-- Puts a rule at its place among rules in order of preference. -/
def insertReady (graph : CascadeGraph) (rule : Nat) : List Nat → List Nat
  | [] => [rule]
  | other :: rest =>
    if graph.prefers rule other then rule :: other :: rest else other :: insertReady graph rule rest

/-- Rules in order of preference. -/
def byPreference (graph : CascadeGraph) (rules : List Nat) : List Nat :=
  rules.foldl (fun sorted rule => insertReady graph rule sorted) []

/-- A state of the worklist. -/
structure Worklist where
  /-- For every rule, how many edges lead into it from rules not placed yet. -/
  pending : List Nat
  /-- The rules free to run and not placed yet, the preferred one first. -/
  ready : List Nat
  /-- The rules placed, the last one first. -/
  placed : List Nat
deriving DecidableEq, Repr

/-- How many edges lead into a rule. -/
def inDegree (graph : CascadeGraph) (rule : Nat) : Nat := graph.edges.flatten.count rule

/-- The worklist before any rule is placed. -/
def startWorklist (graph : CascadeGraph) : Worklist :=
  let rules := List.range graph.size
  ⟨rules.map graph.inDegree,
    graph.byPreference (rules.filter fun rule => graph.inDegree rule == 0), []⟩

/-- Counts one edge into a rule as done; the rule becomes free with its last one. -/
def release (graph : CascadeGraph) (list : Worklist) (rule : Nat) : Worklist :=
  let left := (list.pending[rule]?).getD 0 - 1
  { list with
    pending := list.pending.set rule left
    ready := if left = 0 then graph.insertReady rule list.ready else list.ready }

/-- Places the preferred rule that is free, if any rule is. -/
def place? (graph : CascadeGraph) (list : Worklist) : Option Worklist :=
  match list.ready with
  | [] => none
  | rule :: ready =>
    some ((graph.targets rule).foldl graph.release
      { list with ready, placed := rule :: list.placed })

/-- Places rules until none is free; at most as many as the bound. -/
def placeAll (graph : CascadeGraph) : Nat → Worklist → Worklist
  | 0, list => list
  | bound + 1, list =>
    match graph.place? list with
    | none => list
    | some next => placeAll graph bound next

/-- The rules, by position, in the order in which they run. -/
def order (graph : CascadeGraph) : List Nat :=
  let placed := (graph.placeAll graph.size graph.startWorklist).placed.reverse
  let rest := (List.range graph.size).filter fun rule => !placed.contains rule
  placed ++ graph.byPreference rest

/-- The names of the rules in the order in which they run. -/
def executionOrder (graph : CascadeGraph) : List String := graph.order.map graph.name

end CascadeGraph

end GameRules
