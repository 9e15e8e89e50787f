import GameRules.Path.Segment

/-!
# References

A reference is a text that names a location of the state, a parameter, a view, a constant or a field
of the current entity. What it names is decided by what the text begins with. Two references overlap
when a write to one may change what is seen at the other.
-/

namespace GameRules

/-- What a reference names. -/
inductive PathKind where
  /-- A location of the state: `$.a.b` or `state:$.a.b`. -/
  | state
  /-- A parameter of a view: `param:name`. -/
  | param
  /-- A named view: `view:name`. -/
  | view
  /-- A constant: `const:value`. -/
  | const
  /-- A field of the entity at hand: `self.field`. -/
  | selfRelative
  /-- The entity at hand itself: a lone `$`. -/
  | current
  /-- Anything else, such as the plain name of a field. -/
  | field
deriving DecidableEq, Repr

/-- A reference, kept as it was written. -/
structure Path where
  /-- The text. -/
  raw : String
deriving DecidableEq, Repr, Inhabited

namespace Path

/-- What the text of an unqualified state location begins with. -/
def stateFront : List Char := "$.".toList

/-- What may stand in front of a state location without changing it. -/
def qualifier : List Char := "state:".toList

/-- What a text names. -/
def classify (text : List Char) : PathKind :=
  if Text.hasFront stateFront text || Text.hasFront (qualifier ++ stateFront) text then .state
  else if text = "$".toList then .current
  else if Text.hasFront "param:".toList text then .param
  else if Text.hasFront "view:".toList text then .view
  else if Text.hasFront "const:".toList text then .const
  else if text = "self".toList || Text.hasFront "self.".toList text then .selfRelative
  else .field

/-- What a reference names. -/
def kind (path : Path) : PathKind := classify path.raw.toList

/-- Whether a reference names a location of the state. -/
def isState (path : Path) : Bool := path.kind = .state

/-- The text of a state location without its qualifier. -/
def canonicalText? (text : List Char) : Option (List Char) :=
  match Text.stripFront? qualifier text with
  | some rest => if Text.hasFront stateFront rest then some rest else none
  | none => if Text.hasFront stateFront text then some text else none

/-- A state location without its qualifier; no other reference has this form. -/
def canonicalState? (path : Path) : Option Path :=
  (canonicalText? path.raw.toList).map fun text => ⟨String.ofList text⟩

/-- The location of a collection of entities, given its name or that very location. -/
def collection (entity : String) : Path :=
  (canonicalState? ⟨entity⟩).getD ⟨"$." ++ entity⟩

/-- The name after `param:`, `view:` or `const:`. -/
def referenceName? (path : Path) : Option String :=
  (["param:", "view:", "const:"].findSome? fun front =>
    Text.stripFront? front.toList path.raw.toList).map String.ofList

/-- The steps of a state location. -/
def segments (path : Path) : Except GrammarError (List Segment) := Segment.parsePath path.raw

/-- A text without the qualifier, if it begins with one. -/
def unqualified (text : List Char) : List Char := (Text.stripFront? qualifier text).getD text

/-- Whether the second text goes on after the first with a dot or a bracket. -/
def continues (shorter longer : List Char) : Bool :=
  match Text.stripFront? shorter longer with
  | some (next :: _) => next == '.' || next == '['
  | _ => false

/-- Whether one text is the other, or goes on after it with a dot or a bracket. -/
def textsOverlap (left right : List Char) : Bool :=
  left == right || continues left right || continues right left

/-- Whether one list of steps begins with the other. -/
def stepsOverlap (left right : List Segment) : Bool :=
  left.isPrefixOf right || right.isPrefixOf left

/-- Whether a write to one of the references may change what is seen at the other. References with
steps are compared step by step, all others by their texts. -/
def overlaps (left right : Path) : Bool :=
  match left.segments, right.segments with
  | .ok leftSteps, .ok rightSteps => stepsOverlap leftSteps rightSteps
  | _, _ => textsOverlap (unqualified left.raw.toList) (unqualified right.raw.toList)

end Path

end GameRules
