import GameRules.Rule.Set

/-!
# Which rules set off which

There is an edge from one enabled rule to another when something the first one writes overlaps
something the second one reads. Rules are the positions in the list of enabled rules, since names
need not be unique. Loops are legal in a reactive rule set, and reported as data.
-/

namespace GameRules

/-- Edges between the enabled rules of a rule set. -/
structure CascadeGraph where
  /-- The names of the rules, by position. -/
  names : List String
  /-- The priorities of the rules, by position. -/
  priorities : List Int
  /-- The rules that each rule leads to, in ascending order, by position. -/
  edges : List (List Nat)

namespace CascadeGraph

/-- Whether something written overlaps something read. -/
def reaches (writes reads : PathSet) : Bool :=
  writes.toList.any fun written => reads.toList.any fun read => written.overlaps read

/-- The positions of the sets that something written overlaps. -/
def reached (writes : PathSet) (reads : List PathSet) : List Nat :=
  (reads.zipIdx.filter fun candidate => reaches writes candidate.1).map (·.2)

/-- The enabled rules of a rule set, in document order. -/
def enabledRules (set : RuleSet) : List Rule := set.rules.filter Rule.isEnabled

/-- The graph of a rule set. -/
def ofRuleSet (set : RuleSet) : CascadeGraph :=
  let rules := enabledRules set
  let reads := rules.map Rule.dependsOn
  ⟨rules.map Rule.name, rules.map Rule.priority, rules.map fun rule => reached rule.modifies reads⟩

/-- How many rules there are. -/
def size (graph : CascadeGraph) : Nat := graph.names.length

/-- The rules that a rule leads to. -/
def targets (graph : CascadeGraph) (rule : Nat) : List Nat := (graph.edges[rule]?).getD []

/-- The name of a rule. -/
def name (graph : CascadeGraph) (rule : Nat) : String := (graph.names[rule]?).getD ""

/-- The priority of a rule. -/
def priority (graph : CascadeGraph) (rule : Nat) : Int := (graph.priorities[rule]?).getD 0

/-- Every edge with the names of its ends. -/
def namedEdges (graph : CascadeGraph) : List (String × String) :=
  (List.range graph.size).flatMap fun rule =>
    (graph.targets rule).map fun target => (graph.name rule, graph.name target)

/-- The rules that the first rule of a name leads to, if there is such a rule. -/
def successors? (graph : CascadeGraph) (name : String) : Option (List String) :=
  (graph.names.findIdx? (· == name)).map fun rule => (graph.targets rule).map graph.name

end CascadeGraph

end GameRules
