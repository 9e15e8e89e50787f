import GameRules.Path.Set

/-!
# Collecting what is read

A walk over a node collects the state locations the node reads. Where a part cannot be understood
the walk goes on without it and leaves a diagnostic, which names the place by the labels of the
scopes that enclose it.
-/

namespace GameRules

/-- Something a walk could not follow. -/
structure Diagnostic where
  /-- Where it is. -/
  context : String
  /-- What is wrong with it. -/
  message : String
deriving DecidableEq, Repr

/-- The text of a diagnostic. -/
def Diagnostic.text (diagnostic : Diagnostic) : String :=
  diagnostic.context ++ ": " ++ diagnostic.message

/-- What a walk has collected so far, and where it is. -/
structure Collector where
  /-- The locations read. -/
  reads : PathSet
  /-- What could not be followed, in the order met. -/
  diagnostics : List Diagnostic
  /-- The labels of the scopes entered and not left, the outermost first. -/
  scope : List String
deriving DecidableEq

/-- A step of a walk. -/
abbrev Walk := Collector → Collector

namespace Collector

/-- Nothing collected yet. -/
def empty : Collector := ⟨∅, [], []⟩

instance : Inhabited Collector := ⟨empty⟩

/-- Records a location as read. -/
def record (path : Path) : Walk := fun collector =>
  { collector with reads := collector.reads.insert path }

/-- Records a reference as read if it names a state location. -/
def read (path : Path) : Walk := fun collector =>
  match path.canonicalState? with
  | some location => collector.record location
  | none => collector

/-- Records a text as read if it is written like a state location. -/
def readText (text : String) : Walk := fun collector =>
  if Text.hasFront "$.".toList text.toList || Text.hasFront "state:$.".toList text.toList then
    collector.read ⟨text⟩
  else collector

/-- Records a collection of entities as read, unless its name is empty. -/
def readCollection (entity : String) : Walk := fun collector =>
  if entity.isEmpty then collector else collector.record (Path.collection entity)

/-- Leaves a diagnostic at the current place. -/
def diagnose (message : String) : Walk := fun collector =>
  { collector with
    diagnostics := collector.diagnostics ++ [⟨": ".intercalate collector.scope, message⟩] }

/-- Enters a scope with a label. -/
def enter (label : String) : Walk := fun collector =>
  { collector with scope := collector.scope ++ [label] }

/-- Leaves the scope entered last. -/
def leave : Walk := fun collector => { collector with scope := collector.scope.dropLast }

/-- Walks inside a scope with a label. -/
def within (label : String) (walk : Walk) : Walk := fun collector =>
  leave (walk (enter label collector))

/-- Walks over the elements of a list in turn. -/
def each {α : Type} (walk : α → Walk) (items : List α) : Walk := fun collector =>
  items.foldl (fun collector item => walk item collector) collector

/-- Walks over a value if there is one. -/
def whenSome {α : Type} (walk : α → Walk) (value : Option α) : Walk :=
  match value with
  | some value => walk value
  | none => id

/-- Walks over the elements of a list with their positions. -/
def eachFrom {α : Type} (walk : Nat → α → Walk) : Nat → List α → Walk
  | _, [] => id
  | position, item :: items => fun collector =>
    eachFrom walk (position + 1) items (walk position item collector)

/-- The locations that a walk from nothing reads. -/
def readsOf (walk : Walk) : PathSet := (walk empty).reads

end Collector

end GameRules
