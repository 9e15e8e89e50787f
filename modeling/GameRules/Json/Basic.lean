import GameRules.Entries
import GameRules.Number.Notation

/-!
# Documents

A rule document is a JSON value. Whole numbers of 64 bits and fractional numbers are told apart:
`1` and `1.0` are different documents. The entries of an object are in ascending order of their
keys.
-/

namespace GameRules

/-- A document. -/
inductive Json where
  /-- The absent value. -/
  | null
  /-- A truth value. -/
  | bool (value : Bool)
  /-- A whole number. -/
  | int (value : Int)
  /-- A fractional number, or one too large for a whole number. -/
  | float (value : Binary64)
  /-- A text. -/
  | string (value : String)
  /-- A list of documents. -/
  | array (items : List Json)
  /-- Documents by name. -/
  | object (entries : List (String × Json))
deriving Inhabited

namespace Json

/-- What a document is, in the words of an error message. -/
def kindName : Json → String
  | null => "null"
  | bool _ => "a boolean"
  | int _ | float _ => "a number"
  | string _ => "a string"
  | array _ => "an array"
  | object _ => "an object"

/-- Whether a document is the absent value. -/
def isNull : Json → Bool
  | null => true
  | _ => false

/-- The text of a string document. -/
def asString? : Json → Option String
  | string value => some value
  | _ => none

/-- A list of strings as a document. -/
def strings (items : List String) : Json := array (items.map string)

end Json

end GameRules
