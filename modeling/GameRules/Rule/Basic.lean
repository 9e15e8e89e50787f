import GameRules.Selector
import GameRules.Trigger.Decode
import GameRules.Effect.Decode

/-!
# Rules

A rule has a trigger, the entities it is about, views that it names, and effects. Whether and where
it fires depends on what its trigger, selector and views read; what its effects read is kept apart.
-/

namespace GameRules

/-- A rule. -/
structure Rule where
  /-- Its name. -/
  name : String
  /-- What it is for. -/
  description : Option String
  /-- Of rules that fire together, those of higher priority run first. -/
  priority : Int
  /-- Whether it is on, if that is said. -/
  enabled : Option Bool
  /-- When it fires. -/
  trigger : Trigger
  /-- The entities it is about. -/
  selector : Option Selector
  /-- The views it names. -/
  views : Entries View
  /-- What it does, one thing after the other. -/
  effects : List Effect

/-- What is known of a rule without running it. -/
structure Analysis where
  /-- The locations that decide whether and where the rule fires. -/
  dependsOn : PathSet
  /-- The locations that the effects write. -/
  modifies : PathSet
  /-- What could not be followed. -/
  diagnostics : List Diagnostic
deriving DecidableEq

/-- Whether nothing was left out. -/
def Analysis.isComplete (analysis : Analysis) : Bool := analysis.diagnostics.isEmpty

namespace Rule

/-- A rule that does nothing yet. -/
def ofTrigger (name : String) (trigger : Trigger) : Rule :=
  ⟨name, none, 0, none, trigger, none, [], []⟩

/-- The rule about other entities. -/
def withSelector (selector : Selector) (rule : Rule) : Rule := { rule with selector := some selector }

/-- The rule with a view under a name, which becomes the name of the view. -/
def withView (name : String) (view : View) (rule : Rule) : Rule :=
  { rule with views := rule.views.insert name { view with name := some name } }

/-- The rule with one more effect at the end. -/
def withEffect (effect : Effect) (rule : Rule) : Rule :=
  { rule with effects := rule.effects ++ [effect] }

/-- The rule with another priority. -/
def withPriority (priority : Int) (rule : Rule) : Rule := { rule with priority }

/-- Whether the rule is on. -/
def isEnabled (rule : Rule) : Bool := rule.enabled.getD true

/-- The rule, switched on or off. -/
def setEnabled (on : Bool) (rule : Rule) : Rule := { rule with enabled := some on }

/-- The rule with its trigger switched on or off. -/
def setTriggerEnabled (on : Bool) (rule : Rule) : Rule :=
  { rule with trigger := rule.trigger.setEnabled on }

/-- Decodes a view under a name, which becomes the name of the view. -/
def decodeView (name : String) (document : Json) : Decoded View := do
  let view ← View.decode document
  return { view with name := some name }

/-- The views of a document; an absent field means none. -/
def decodeViews {whole : Json} (fields : Fields whole) : Decoded (Entries View) :=
  match fields.value? "views" with
  | none => .ok []
  | some (.object entries) =>
    decodeEntries (.named "view") entries fun name document _ => decodeView name document
  | some other => Decoded.fail (.malformed .rule (.wrongShape "'views'" "a mapping" other.kindName))

/-- The effects of a document, of which there has to be one at least. -/
def decodeEffects {whole : Json} (fields : Fields whole) : Decoded (List Effect) := do
  let _ ← fields.required "effects"
  let effects ← fields.list "effects" "effect" fun part _ => Effect.decode part
  if effects.isEmpty then Decoded.fail (.missingField .rule "" "effects") else return effects

/-- Decodes everything but the name. -/
def decodeBody {whole : Json} (fields : Fields whole) (name : String) : Decoded Rule := do
  let priority ← fields.int32? "priority"
  let views ← decodeViews fields
  let effects ← decodeEffects fields
  let description ← fields.string? "description"
  let enabled ← fields.bool? "enabled"
  let trigger ← fields.requiredNode "trigger" fun part _ => Trigger.decode part
  let selector ← fields.node? "selector" fun part _ => Selector.decode part
  return ⟨name, description, priority.getD 0, enabled, trigger, selector, views, effects⟩

/-- Decodes a rule. -/
def decode (document : Json) : Decoded Rule := do
  let fields ← Fields.of .rule document
  let name ← fields.requiredString "name"
  Decoded.inside (.named "rule" name) (decodeBody fields name)

/-- The document of a rule. -/
def encode (rule : Rule) : Json :=
  Record.empty.text "name" rule.name
    |>.optional "description" (rule.description.map .string)
    |>.optional "enabled" (rule.enabled.map .bool)
    |>.field "trigger" rule.trigger.encode
    |>.optional "selector" (rule.selector.map Selector.encode)
    |>.nonemptyList "effects" (Effect.encodeAll rule.effects)
    |>.optional "priority" (if rule.priority = 0 then none else some (.int rule.priority))
    |>.nonemptyMapping "views" (rule.views.mapValues View.encode)
    |>.build

/-- Collects what decides whether and where the rule fires. -/
def collect (rule : Rule) : Walk := fun collector =>
  Collector.each View.collect rule.views.values
    (Collector.whenSome Selector.collect rule.selector (rule.trigger.collect collector))

/-- The locations that decide whether and where the rule fires. -/
def dependsOn (rule : Rule) : PathSet := Collector.readsOf rule.collect

/-- The locations that the effects read. -/
def effectReads (rule : Rule) : PathSet := Collector.readsOf (Effect.collectAll rule.effects)

/-- The locations that the effects write. -/
def modifies (rule : Rule) : PathSet := Effect.addAllWrites rule.effects ∅

/-- What is known of the rule without running it. -/
def analyze (rule : Rule) : Analysis :=
  let collector := Collector.within ("rule '" ++ rule.name ++ "'") rule.collect Collector.empty
  ⟨collector.reads, rule.modifies, collector.diagnostics⟩

end Rule

end GameRules
