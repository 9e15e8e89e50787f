import GameRules.Rule.Set

/-!
# Which rules to look at again

After a write the engine has to look again at the rules that read what may have changed. The index
maps every location that an enabled rule reads to the positions of its readers. It is a picture of
the rule set at the time it is built.
-/

namespace GameRules

/-- The readers of every location that is read. -/
structure DependencyIndex where
  /-- The positions of the rules that read a location, by the text of the location. -/
  readers : Entries (List Nat)
  /-- The names of all rules, by position. -/
  names : List String

namespace DependencyIndex

/-- Adds a reader of a location. -/
def addReader (position : Nat) (readers : Entries (List Nat)) (path : Path) : Entries (List Nat) :=
  readers.insert path.raw ((readers.lookup path.raw).getD [] ++ [position])

/-- Adds what a rule reads, if it is on. -/
def addRule (readers : Entries (List Nat)) (rule : Rule × Nat) : Entries (List Nat) :=
  if rule.1.isEnabled then rule.1.dependsOn.toList.foldl (addReader rule.2) readers else readers

/-- The index of a rule set. -/
def ofRuleSet (set : RuleSet) : DependencyIndex :=
  ⟨set.rules.zipIdx.foldl addRule [], set.rules.map Rule.name⟩

/-- Puts a position at its place in an ascending list, unless it is there. -/
def insertPosition (position : Nat) : List Nat → List Nat
  | [] => [position]
  | other :: rest =>
    if position < other then position :: other :: rest
    else if position = other then other :: rest
    else other :: insertPosition position rest

/-- Some positions in ascending order, each once. -/
def collectPositions (positions : List Nat) : List Nat :=
  positions.foldl (fun collected position => insertPosition position collected) []

/-- The positions of the rules that read a location overlapping this one, in ascending order. -/
def hits (index : DependencyIndex) (changed : Path) : List Nat :=
  collectPositions (index.readers.flatMap fun entry =>
    if (Path.mk entry.1).overlaps changed then entry.2 else [])

/-- The positions of the rules whose reads overlap a location, in whichever form it is written. -/
def affected (index : DependencyIndex) (changed : Path) : List Nat :=
  index.hits (changed.canonicalState?.getD changed)

/-- The names of the rules at some positions. -/
def namesAt (index : DependencyIndex) (positions : List Nat) : List String :=
  positions.filterMap fun position => index.names[position]?

/-- The rules whose reads overlap a location, in document order and each once. -/
def rulesAffectedBy (index : DependencyIndex) (changed : Path) : List String :=
  index.namesAt (index.affected changed)

/-- The rules that read exactly this location. -/
def readersOf (index : DependencyIndex) (path : Path) : List String :=
  index.namesAt ((index.readers.lookup path.raw).getD [])

/-- Every location that is read, in order. -/
def paths (index : DependencyIndex) : List String := index.readers.keys

end DependencyIndex

end GameRules
