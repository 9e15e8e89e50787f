import GameRules.Rule.Basic
import GameRules.Filter
import GameRules.Json.Reader

/-!
# Rule sets

A rule set is a package of rules and filters that is loaded from one document. Names are not required
to be unique; a name stands for the first rule or filter that bears it.
-/

namespace GameRules

/-- A package of rules and filters. -/
structure RuleSet where
  /-- Its version. -/
  version : Option String
  /-- Its name. -/
  package : Option String
  /-- The packages it builds on. -/
  imports : List String
  /-- Its rules. -/
  rules : List Rule
  /-- Its filters. -/
  filters : List Filter

/-- Changes the first element of a list that satisfies a condition; none if there is none. -/
def modifyFirst? {α : Type} (matches_ : α → Bool) (change : α → α) : List α → Option (List α)
  | [] => none
  | item :: items =>
    if matches_ item then some (change item :: items)
    else (modifyFirst? matches_ change items).map (item :: ·)

namespace RuleSet

/-- The version of a document, which may be written as a number. -/
def decodeVersion {whole : Json} (fields : Fields whole) : Decoded (Option String) :=
  match fields.value? "version" with
  | some (.int value) => .ok (some (Json.int value).render)
  | some (.float value) => .ok (some (Json.float value).render)
  | _ => fields.string? "version"

/-- Decodes a rule set. -/
def decode (document : Json) : Decoded RuleSet := do
  let fields ← Fields.of .ruleSet document
  let version ← decodeVersion fields
  let package ← fields.string? "package"
  let imports ← fields.strings "imports"
  let rules ← fields.list "rules" "rule" fun part _ => Rule.decode part
  let filters ← fields.list "filters" "filter" fun part _ => Filter.decode part
  return ⟨version, package, imports, rules, filters⟩

/-- The document of a rule set. -/
def encode (set : RuleSet) : Json :=
  Record.empty.optional "version" (set.version.map .string)
    |>.optional "package" (set.package.map .string)
    |>.nonemptyList "imports" (set.imports.map .string)
    |>.list "rules" (set.rules.map Rule.encode)
    |>.nonemptyList "filters" (set.filters.map Filter.encode)
    |>.build

/-- Why a text is not a rule set. -/
inductive LoadError where
  /-- It is not a document. -/
  | notJson
  /-- The document describes no rule set. -/
  | notARuleSet (error : DecodeError)
deriving DecidableEq, Repr

/-- Reads a whole text and decodes its document. -/
def ofText (text : String) : Except LoadError RuleSet :=
  match Json.read? text with
  | none => .error .notJson
  | some document => (decode document).mapError .notARuleSet

/-- Decodes the document at the front of a text before looking at what comes after it. -/
def ofStream (text : String) : Except LoadError RuleSet :=
  match Json.readFront? Json.nestingLimit text.toList with
  | none => .error .notJson
  | some (document, rest) =>
    match decode document with
    | .error error => .error (.notARuleSet error)
    | .ok set => if Json.isBlankRest rest then .ok set else .error .notJson

/-- The text of a rule set: its canonical document, written compactly. -/
def toText (set : RuleSet) : String := set.encode.render

/-- The first rule of a name. -/
def rule? (set : RuleSet) (name : String) : Option Rule := set.rules.find? (·.name == name)

/-- The first filter of a name. -/
def filter? (set : RuleSet) (name : String) : Option Filter := set.filters.find? (·.name == name)

/-- The rule set with the first rule of a name changed, if there is such a rule. -/
def modifyRule? (set : RuleSet) (name : String) (change : Rule → Rule) : Option RuleSet :=
  (modifyFirst? (fun rule => rule.name == name) change set.rules).map fun rules =>
    { set with rules }

/-- The rule set with the first filter of a name changed, if there is such a filter. -/
def modifyFilter? (set : RuleSet) (name : String) (change : Filter → Filter) : Option RuleSet :=
  (modifyFirst? (fun filter => filter.name == name) change set.filters).map fun filters =>
    { set with filters }

/-- The rules by descending priority; rules of equal priority keep their order. -/
def rulesByPriority (set : RuleSet) : List Rule :=
  set.rules.mergeSort fun left right => decide (right.priority ≤ left.priority)

/-- The analysis of every rule with its name. -/
def analyze (set : RuleSet) : List (String × Analysis) :=
  set.rules.map fun rule => (rule.name, rule.analyze)

/-- A short description of a rule set. -/
def display (set : RuleSet) : String :=
  "RuleSet(" ++ (set.package.map fun package => package ++ ": ").getD "" ++
    Nat.repr set.rules.length ++ " rules, " ++ Nat.repr set.filters.length ++ " filters" ++
    (set.version.map fun version => ", version " ++ version).getD "" ++ ")"

end RuleSet

end GameRules
