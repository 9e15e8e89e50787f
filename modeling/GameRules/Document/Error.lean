import GameRules.Path.Basic
import GameRules.Time.Duration
import GameRules.Json.Writer

/-!
# Errors of decoding

Decoding stops at the first fault. An error is that fault together with the positions that lead to
it, the outermost first: `rule 3: rule 'patrol': effect 0: Set effect requires field 'path'`. The
wording is in this module alone; decoders say what is wrong, not how it reads.
-/

namespace GameRules

/-- The kinds of node that documents describe. -/
inductive NodeKind where
  /-- A rule set. -/
  | ruleSet
  /-- A rule. -/
  | rule
  /-- What makes a rule fire. -/
  | trigger
  /-- Which entities a rule is about. -/
  | selector
  /-- A query. -/
  | view
  /-- A stage of a query. -/
  | viewOperation
  /-- A declared parameter of a query. -/
  | viewParameter
  /-- A query, by name or in place. -/
  | viewReference
  /-- What a rule does. -/
  | effect
  /-- Where a value taken from a view comes from. -/
  | valueExpression
  /-- A computation of a value. -/
  | transform
  /-- A condition. -/
  | expression
  /-- A condition on the fields of an entity. -/
  | whereClause
  /-- A masking pipeline. -/
  | filter
  /-- A stage of a masking pipeline. -/
  | filterOperation
deriving DecidableEq, Repr

/-- The words for a kind of node. -/
def NodeKind.words : NodeKind → String
  | ruleSet => "rule set"
  | rule => "rule"
  | trigger => "trigger"
  | selector => "selector"
  | view => "view"
  | viewOperation => "view operation"
  | viewParameter => "view parameter"
  | viewReference => "view reference"
  | effect => "effect"
  | valueExpression => "value expression"
  | transform => "transform"
  | expression => "expression"
  | whereClause => "where clause"
  | filter => "filter"
  | filterOperation => "filter operation"

/-- The name of a kind of reference. -/
def PathKind.name : PathKind → String
  | state => "State"
  | param => "Param"
  | view => "View"
  | const => "Const"
  | selfRelative => "SelfRelative"
  | current => "Current"
  | field => "Field"

/-- Where in a document something is. -/
inductive Position where
  /-- The value of a field. -/
  | field (key : String)
  /-- An element of a list, counted from zero. -/
  | item (label : String) (index : Nat)
  /-- An entry of a mapping that is the value of a field. -/
  | entry (key name : String)
  /-- Something that has a name of its own. -/
  | named (label name : String)
deriving DecidableEq, Repr

/-- The text of a position. -/
def Position.text : Position → String
  | field key => "field '" ++ key ++ "'"
  | item label index => label ++ " " ++ Nat.repr index
  | entry key name => key ++ "." ++ name
  | named label name => label ++ " '" ++ name ++ "'"

/-- How the shape of a document is wrong. -/
inductive Malformation where
  /-- The node is not an object. -/
  | notAnObject (found : String)
  /-- The value of a field has the wrong type. -/
  | wrongType (key expected found : String)
  /-- The value of a structural field has the wrong type. -/
  | wrongShape (key expected found : String)
  /-- A logical combination is not over a list. -/
  | notAList (key : String)
  /-- A view is neither named nor described. -/
  | notAView (found : String)
deriving DecidableEq, Repr

/-- The words of a malformation. -/
def Malformation.words : Malformation → String
  | notAnObject found => "expected an object, found " ++ found
  | wrongType key expected found => "field '" ++ key ++ "' must be " ++ expected ++ ", found " ++ found
  | wrongShape key expected found => key ++ " must be " ++ expected ++ ", found " ++ found
  | notAList key => "'" ++ key ++ "' must be a list"
  | notAView found => "expected a view name or an inline view, found " ++ found

/-- Why a short form cannot be resolved. -/
inductive Ambiguity where
  /-- There is no entry at all. -/
  | emptyMapping
  /-- A field maps to something that is no operator. -/
  | notAnOperator (field operator : String)
  /-- A field maps to nothing. -/
  | emptyEntry (field : String)
  /-- A field maps to several things. -/
  | manyKeys (field : String) (count : Nat)
  /-- No part of an expression is there. -/
  | noExpression
deriving DecidableEq, Repr

/-- The words of an ambiguity. -/
def Ambiguity.words : Ambiguity → String
  | emptyMapping => "empty mapping"
  | notAnOperator field operator =>
    "'" ++ field ++ "' maps to '" ++ operator ++ "', which is not an operator"
  | emptyEntry field => "'" ++ field ++ "' maps to an empty mapping"
  | manyKeys field count =>
    "'" ++ field ++ "' maps to " ++ Nat.repr count ++ " keys; expected a single operator"
  | noExpression => "expected 'left' or one of 'and', 'or', 'not'"

/-- Why a value of the right type is refused. -/
inductive ValueFault where
  /-- The word is not in the vocabulary. -/
  | unknownKeyword (word : String)
  /-- The number does not fit. -/
  | outOfRange (value : Int)
  /-- The text does not match its grammar. -/
  | grammar (error : GrammarError)
  /-- The number of seconds, as written, is no duration. -/
  | seconds (written : String) (fault : Duration.Fault)
  /-- The value is neither a number nor a text. -/
  | notADuration (found : String)
  /-- The reference does not name a location of the state. -/
  | notAStatePath (path : Path)
  /-- Nothing is watched. -/
  | nothingWatched
  /-- The interval is zero. -/
  | zeroInterval
  /-- The number of fields of a cron expression is wrong. -/
  | cronFields (count : Nat)
  /-- The least distance is greater than the greatest. -/
  | invertedBounds (least greatest : Binary64)
  /-- The name of a view is empty. -/
  | emptyViewName
deriving DecidableEq, Repr

/-- The words for a text that is in no vocabulary. -/
def unrecognizedKeyword (word : String) : String := "unrecognized keyword '" ++ word ++ "'"

/-- The words of a fault in a value. -/
def ValueFault.words : ValueFault → String
  | unknownKeyword word => unrecognizedKeyword word
  | outOfRange value => toString value ++ " is out of range"
  | grammar error => error.message
  | seconds written fault => written ++ " seconds: " ++ fault.words
  | notADuration found => "expected seconds or a duration literal, found " ++ found
  | notAStatePath path =>
    "'" ++ path.raw ++ "' is a " ++ path.kind.name ++ " reference, not a state path"
  | nothingWatched => "at least one path is required"
  | zeroInterval => "must be at least 1 tick"
  | cronFields count => "cron expression needs 5 or 6 fields, found " ++ Nat.repr count
  | invertedBounds least greatest =>
    least.render Binary64.plainLayout ++ " exceeds maxDistance " ++
      greatest.render Binary64.plainLayout
  | emptyViewName => "empty view name"

/-- What is wrong with a document. -/
inductive DecodeFault where
  /-- The shape is wrong. -/
  | malformed (node : NodeKind) (problem : Malformation)
  /-- The kind is not in the vocabulary. -/
  | unknownKind (node : NodeKind) (kind : String)
  /-- The kind is not given. -/
  | missingType (node : NodeKind)
  /-- A field is not given that this kind of node, if named, needs. -/
  | missingField (node : NodeKind) (kind field : String)
  /-- A short form cannot be resolved. -/
  | ambiguous (node : NodeKind) (ambiguity : Ambiguity)
  /-- A value is refused. -/
  | invalidValue (field : String) (fault : ValueFault)
deriving DecidableEq, Repr

/-- The words of a fault. -/
def DecodeFault.words : DecodeFault → String
  | malformed node problem => "malformed " ++ node.words ++ ": " ++ problem.words
  | unknownKind node kind => "unknown " ++ node.words ++ " type '" ++ kind ++ "'"
  | missingType node => node.words ++ " is missing its 'type' discriminator"
  | missingField node kind field =>
    (if kind.isEmpty then node.words else kind ++ " " ++ node.words) ++
      " requires field '" ++ field ++ "'"
  | ambiguous node ambiguity => "ambiguous " ++ node.words ++ " shorthand: " ++ ambiguity.words
  | invalidValue field fault => "invalid value for '" ++ field ++ "': " ++ fault.words

/-- A fault and where it is. -/
structure DecodeError where
  /-- The way to the fault, the outermost position first. -/
  positions : List Position
  /-- What is wrong there. -/
  fault : DecodeFault
deriving DecidableEq, Repr

namespace DecodeError

/-- A fault of the document itself. -/
def of (fault : DecodeFault) : DecodeError := ⟨[], fault⟩

/-- The same fault, seen from one position further out. -/
def within (position : Position) (error : DecodeError) : DecodeError :=
  { error with positions := position :: error.positions }

/-- The message: every position, and then the fault. -/
def message (error : DecodeError) : String :=
  error.positions.foldr (fun position text => position.text ++ ": " ++ text) error.fault.words

end DecodeError

/-- The outcome of decoding. -/
abbrev Decoded (α : Type) := Except DecodeError α

/-- Fails with a fault of the document itself. -/
def Decoded.fail {α : Type} (fault : DecodeFault) : Decoded α := .error (.of fault)

/-- Decodes a part, and reports its errors from its position on. -/
def Decoded.inside {α : Type} (position : Position) (part : Decoded α) : Decoded α :=
  part.mapError (DecodeError.within position)

end GameRules
