import GameRules.Proofs.Effect.Inference
import GameRules.Proofs.Invariants
import GameRules.Proofs.Waypoints.Nodes

/-!
# The way to a fault

An error says where its fault is. For rule sets, rules and effects at any depth this is exact. An item
that an error counts is an item of the list: those before it are decoded on their own, it is not, and
it fails on its own with what is left of the error. The other way round, the first item that fails is
the one that the error of the whole counts. And where the items of the lists are decoded on their own
and the other fields can be read, the whole is decoded, item by item.
-/

namespace GameRules

open Decoded (FailsWith IsLocal)

/-- The list under a key is decoded item by item; a list that is not given has no items. -/
def Record.HasItems {α : Type} (entries : Record) (key : String) (decode : Json → Decoded α)
    (nodes : List α) : Prop :=
  (entries.lookup key = none ∨ entries.lookup key = some .null) ∧ nodes = [] ∨
    ∃ items, entries.lookup key = some (.array items) ∧
      List.Forall₂ (fun item node => decode item = .ok node) items nodes

/-- What the way to a fault leads over. -/
inductive Site where
  /-- The document of a rule set. -/
  | ruleSet (document : Json)
  /-- The document of a rule. -/
  | rule (document : Json)
  /-- The fields of a rule, under its name. -/
  | body (entries : Record) (name : String)
  /-- The document of an effect. -/
  | effect (document : Json)

namespace Site

/-- Decodes what stands at a site. -/
def decode : Site → Decoded Node
  | ruleSet document => .ruleSet <$> RuleSet.decode document
  | rule document => .rule <$> Rule.decode document
  | body entries name => .rule <$> Rule.decodeBody (entries.fields .rule) name
  | effect document => .effect <$> Effect.decode document

/-- A position leads from a site to a part of it, and all that comes before the part is decoded. -/
inductive Leads : Site → Position → Site → Prop
  /-- A rule of a rule set. -/
  | rule {entries : Record} {version package : Option String} {imports : List String}
      {front back : List Json} {part : Json}
      (readVersion : RuleSet.decodeVersion (entries.fields .ruleSet) = .ok version)
      (readPackage : (entries.fields .ruleSet).string? "package" = .ok package)
      (readImports : (entries.fields .ruleSet).strings "imports" = .ok imports)
      (listed : entries.lookup "rules" = some (.array (front ++ part :: back)))
      (before : ∀ earlier ∈ front, ∃ rule, Rule.decode earlier = .ok rule) :
      Leads (.ruleSet (.object entries)) (.item "rule" front.length) (.rule part)
  /-- The fields of a rule, under the name that the rule has. -/
  | name {entries : Record} {name : String} (named : entries.lookup "name" = some (.string name))
      (nonempty : name ≠ "") :
      Leads (.rule (.object entries)) (.named "rule" name) (.body entries name)
  /-- An effect of a rule. -/
  | effect {entries : Record} {name : String} {priority : Option Int} {views : Entries View}
      {front back : List Json} {part : Json}
      (readPriority : (entries.fields .rule).int32? "priority" = .ok priority)
      (readViews : Rule.decodeViews (entries.fields .rule) = .ok views)
      (listed : entries.lookup "effects" = some (.array (front ++ part :: back)))
      (before : Effect.AllDecode front) :
      Leads (.body entries name) (.item "effect" front.length) (.effect part)
  /-- An effect in a list of a choice or a sequence. -/
  | inner {outer part : Json} {position : Position} (reaches : Effect.Reaches outer position part) :
      Leads (.effect outer) position (.effect part)

/-- Positions lead from a site to another one, step by step. -/
inductive Trail : Site → List Position → Site → Prop
  /-- The site itself. -/
  | here (site : Site) : Trail site [] site
  /-- A site further on. -/
  | next {site middle last : Site} {position : Position} {positions : List Position}
      (head : Leads site position middle) (rest : Trail middle positions last) :
      Trail site (position :: positions) last

/-- What stands at a site is put together from what its lists and its other fields are decoded to. -/
inductive Assembles : Site → Node → Prop
  /-- A rule set of rules and filters. -/
  | ruleSet {entries : Record} {version package : Option String} {imports : List String}
      {rules : List Rule} {filters : List Filter}
      (readVersion : RuleSet.decodeVersion (entries.fields .ruleSet) = .ok version)
      (readPackage : (entries.fields .ruleSet).string? "package" = .ok package)
      (readImports : (entries.fields .ruleSet).strings "imports" = .ok imports)
      (readRules : entries.HasItems "rules" Rule.decode rules)
      (readFilters : entries.HasItems "filters" Filter.decode filters) :
      Assembles (.ruleSet (.object entries)) (.ruleSet ⟨version, package, imports, rules, filters⟩)
  /-- A rule under its name. -/
  | rule {entries : Record} {name : String} {node : Node}
      (named : entries.lookup "name" = some (.string name)) (nonempty : name ≠ "")
      (body : Assembles (.body entries name) node) : Assembles (.rule (.object entries)) node
  /-- A rule of effects, of which there is one at least. -/
  | body {entries : Record} {name : String} {priority : Option Int} {views : Entries View}
      {effects : List Effect} {description : Option String} {enabled : Option Bool}
      {trigger : Trigger} {selector : Option Selector}
      (readPriority : (entries.fields .rule).int32? "priority" = .ok priority)
      (readViews : Rule.decodeViews (entries.fields .rule) = .ok views)
      (readEffects : entries.HasItems "effects" Effect.decode effects) (active : effects ≠ [])
      (readDescription : (entries.fields .rule).string? "description" = .ok description)
      (readEnabled : (entries.fields .rule).bool? "enabled" = .ok enabled)
      (readTrigger : (entries.fields .rule).requiredNode "trigger" (fun part _ =>
        Trigger.decode part) = .ok trigger)
      (readSelector : (entries.fields .rule).node? "selector" (fun part _ =>
        Selector.decode part) = .ok selector) :
      Assembles (.body entries name)
        (.rule ⟨name, description, priority.getD 0, enabled, trigger, selector, views, effects⟩)
  /-- A choice between effects. -/
  | choice {entries : Record} {condition : Expression} {consequent alternative : List Effect}
      (typed : entries.lookup "type" = some (.string (Keyword.word EffectKind.branch)))
      (readCondition : (entries.fields .effect).requiredNode "condition" (fun part _ =>
        Expression.decode part) = .ok condition)
      (given : (entries.fields .effect).has "then" = true)
      (readThen : entries.HasItems "then" Effect.decode consequent)
      (readElse : entries.HasItems "else" Effect.decode alternative) :
      Assembles (.effect (.object entries)) (.effect (.branch condition consequent alternative))
  /-- Effects in turn. -/
  | sequence {entries : Record} {effects : List Effect}
      (typed : entries.lookup "type" = some (.string (Keyword.word EffectKind.sequence)))
      (given : (entries.fields .effect).has "effects" = true)
      (readEffects : entries.HasItems "effects" Effect.decode effects) :
      Assembles (.effect (.object entries)) (.effect (.sequence effects))

/-- An error comes from a part that a site leads to, and says how. -/
def LeadsTo (site : Site) (error : DecodeError) : Prop :=
  ∃ position part inner, site.Leads position part ∧ part.decode = .error inner ∧
    error = inner.within position

/-- An error is about the site itself, or it comes from a part that the site leads to. -/
def Explains (site : Site) (error : DecodeError) : Prop := error.IsLocal ∨ site.LeadsTo error

end Site

namespace Record

variable {α : Type} {entries : Record} {node : NodeKind} {key label word : String}
  {decode : Json → Decoded α}

/-- A list fails with the error of an item, at the position of the item, and the items before it are
decoded. -/
theorem list_failsWith : FailsWith
    (fun error => error.IsLocal ∨ ∃ front part back inner,
      entries.lookup key = some (.array (front ++ part :: back)) ∧
        (∀ earlier ∈ front, ∃ node, decode earlier = .ok node) ∧ decode part = .error inner ∧
          error = inner.within (.item label front.length))
    (((entries.fields node).forKind word).list key label fun part _ => decode part) := by
  rw [Fields.list_eq, Fields.value?_forKind]
  split
  · exact .ok []
  · rename_i items given
    intro error failed
    obtain ⟨front, part, back, inner, rfl, before, failedThere, rfl⟩ :=
      decodeItems_eq_error_iff.mp failed
    refine .inr ⟨front, part, back, inner, Fields.lookup_of_value? given, before, failedThere, ?_⟩
    rw [Nat.zero_add]
  · exact FailsWith.mono (IsLocal.fail _) fun _ => .inl

/-- A list with items is given. -/
theorem HasItems.has {nodes : List α} (items : entries.HasItems key decode nodes)
    (some : nodes ≠ []) : (entries.fields node).has key = true := by
  rcases items with ⟨-, none⟩ | ⟨items, written, -⟩
  · exact absurd none some
  · rw [Fields.has, Fields.value?_of_lookup written rfl]
    rfl

/-- A list whose items are decoded is decoded. -/
theorem HasItems.list {nodes : List α} (items : entries.HasItems key decode nodes) :
    ((entries.fields node).forKind word).list key label (fun part _ => decode part) = .ok nodes := by
  rw [Fields.list_eq_ok_iff, Fields.value?_forKind, Fields.value?, entries_fields]
  rcases items with ⟨absent | absent, none⟩ | ⟨items, written, decoded⟩
  · rw [absent]
    exact .inl ⟨rfl, none⟩
  · rw [absent]
    exact .inl ⟨rfl, none⟩
  · rw [written]
    exact .inr ⟨items, rfl, decoded⟩

end Record

/-- The effects of a rule are decoded if they are on their own and there are some. -/
theorem Rule.decodeEffects_of_items {entries : Record} {effects : List Effect}
    (items : entries.HasItems "effects" Effect.decode effects) (active : effects ≠ []) :
    decodeEffects (entries.fields .rule) = .ok effects := by
  obtain ⟨_, found⟩ := Option.isSome_iff_exists.mp (items.has active)
  have notEmpty : ¬effects.isEmpty = true := by simpa using active
  simp only [decodeEffects, Decoded.bind_eq_ok_iff]
  refine ⟨_, Fields.required_eq_ok_iff.mpr found, effects, items.list, ?_⟩
  rw [if_neg notEmpty]
  rfl

/-- A kind with lists of effects is not told by the fields of an effect but named. -/
theorem Effect.typed_of_decodeKind {entries : Record} {word : String} {kind : EffectKind}
    (found : decodeKind (entries.fields .effect) = .ok (word, kind)) (nested : kind.lists ≠ []) :
    entries.lookup "type" = some (.string (Keyword.word kind)) := by
  obtain ⟨named, readWord, found⟩ := Decoded.bind_eq_ok_iff.mp found
  cases named with
  | some named =>
    obtain ⟨given, -⟩ | ⟨-, none⟩ := Fields.nonemptyString?_eq_ok_iff.mp readWord
    · obtain ⟨kind, readKind, same⟩ := Decoded.bind_eq_ok_iff.mp found
      cases same
      rw [Keyword.word_of_parse? rfl (Fields.kindOf_eq_ok_iff.mp readKind)]
      exact Fields.lookup_of_value? given
    · cases none
  | none =>
    obtain ⟨inferred, readKind, same⟩ := Decoded.bind_eq_ok_iff.mp found
    cases same
    -- Only changes of a location are told by their fields, and they have no lists.
    obtain ⟨-, refused⟩ | ⟨change, -, told⟩ := inferKind_cases (entries.fields .effect)
    · exact absurd (refused.symm.trans readKind) Decoded.fail_ne_ok
    · cases told.symm.trans readKind
      exact absurd rfl nested

/-- If the effects of a list that is given are decoded, all of them are. -/
theorem Effect.allDecode_of_list {entries : Record} {word key label : String} {value : Json}
    {effects : List Effect}
    (given : ((entries.fields .effect).forKind word).required key = .ok value)
    (read : ((entries.fields .effect).forKind word).list key label (fun part _ => decode part) =
      .ok effects) :
    ∃ items, entries.lookup key = some (.array items) ∧ AllDecode items := by
  have found := Fields.required_eq_ok_iff.mp given
  rcases Fields.list_eq_ok_iff.mp read with ⟨absent, -⟩ | ⟨items, listed, decoded⟩
  · cases found.symm.trans absent
  · refine ⟨items, Fields.lookup_of_value? listed, fun item member => ?_⟩
    obtain ⟨effect, -, decoded⟩ := exists_mem_of_forall₂ decoded.flip member
    exact ⟨effect, decoded⟩

/-- Local errors are explained. -/
theorem Decoded.IsLocal.explained {α : Type} {part : Decoded α} {site : Site}
    (isLocal : IsLocal part) : FailsWith site.Explains part :=
  isLocal.mono fun _ => .inl

namespace Site

/-- A list of items that a site leads to has explained errors. -/
theorem list_explains {site : Site} {α : Type} {entries : Record} {node : NodeKind}
    {key label word : String} {decode : Json → Decoded α} {part : Json → Site} {wrap : α → Node}
    (same : ∀ document, (part document).decode = wrap <$> decode document)
    (leads : ∀ front document back,
      entries.lookup key = some (.array (front ++ document :: back)) →
        (∀ earlier ∈ front, ∃ node, decode earlier = .ok node) →
          site.Leads (.item label front.length) (part document)) :
    FailsWith site.Explains
      (((entries.fields node).forKind word).list key label fun part _ => decode part) := by
  refine Record.list_failsWith.mono fun error explained => ?_
  rcases explained with isLocal | ⟨front, document, back, inner, listed, before, failed, rfl⟩
  · exact .inl isLocal
  · refine .inr ⟨_, _, inner, leads front document back listed before, ?_, rfl⟩
    rw [same, failed]
    rfl

/-- The errors of a rule set are explained by its rules. -/
theorem ruleSet_explains (document : Json) :
    FailsWith (ruleSet document).Explains (RuleSet.decode document) := by
  cases document with
  | object entries =>
    let fields := Record.fields entries .ruleSet
    change FailsWith _ (RuleSet.decodeFields fields)
    have version : IsLocal (RuleSet.decodeVersion fields) := by
      unfold RuleSet.decodeVersion
      split
      · exact .ok _
      · exact .ok _
      · exact fields.string?_isLocal "version"
    have filters : IsLocal (fields.list "filters" "filter" fun part _ => Filter.decode part) :=
      fields.list_isLocal "filters" Filter.decode_isLocal (by decide)
    refine version.explained.bind fun _ readVersion =>
      (fields.string?_isLocal "package").explained.bind fun _ readPackage =>
        (fields.strings_isLocal "imports").explained.bind fun _ readImports => ?_
    have rules : FailsWith (ruleSet (.object entries)).Explains
        (fields.list "rules" "rule" fun part _ => Rule.decode part) :=
      list_explains (fun _ => rfl) fun _ _ _ => .rule readVersion readPackage readImports
    exact rules.bind fun _ _ => filters.explained.bind fun _ _ => .ok _
  | _ => exact (IsLocal.fail _).explained

/-- The errors of a rule are explained by its fields, under its name. -/
theorem rule_explains (document : Json) :
    FailsWith (rule document).Explains (Rule.decode document) := by
  cases document with
  | object entries =>
    let fields := Record.fields entries .rule
    change FailsWith _ (Rule.decodeFields fields)
    refine (fields.requiredString_isLocal "name").explained.bind fun name readName => ?_
    obtain ⟨given, nonempty⟩ := Fields.requiredString_eq_ok_iff.mp readName
    intro error failed
    obtain ⟨inner, failedThere, rfl⟩ := Decoded.inside_eq_error_iff.mp failed
    refine .inr ⟨_, _, inner, .name (Fields.lookup_of_value? given) nonempty, ?_, rfl⟩
    rw [decode, failedThere]
    rfl
  | _ => exact (IsLocal.fail _).explained

/-- The errors of the fields of a rule are explained by its effects. -/
theorem body_explains (entries : Record) (name : String) :
    FailsWith (body entries name).Explains (Rule.decodeBody (entries.fields .rule) name) := by
  let fields := entries.fields .rule
  have views : IsLocal (Rule.decodeViews fields) := by
    unfold Rule.decodeViews
    split
    · exact .ok []
    · exact decodeEntries_isLocal (fun _ => rfl) fun entry _ =>
        (View.decode_isLocal entry.2).bind fun _ => .ok _
    · exact .fail _
  refine (fields.int32?_isLocal "priority").explained.bind fun _ readPriority =>
    views.explained.bind fun _ readViews => ?_
  have listed : FailsWith (body entries name).Explains
      (fields.list "effects" "effect" fun part _ => Effect.decode part) :=
    list_explains (fun _ => rfl) fun _ _ _ => .effect readPriority readViews
  have effects : FailsWith (body entries name).Explains (Rule.decodeEffects fields) :=
    (fields.required_isLocal "effects").explained.bind fun _ _ => listed.bind fun effects _ =>
      (IsLocal.ite (.fail _) (.ok effects)).explained
  exact effects.bind fun _ _ => (fields.string?_isLocal "description").explained.bind
    fun _ _ => (fields.bool?_isLocal "enabled").explained.bind fun _ _ =>
      (fields.requiredNode_isLocal "trigger" Trigger.decode_isLocal).explained.bind fun _ _ =>
        (fields.node?_isLocal "selector" Selector.decode_isLocal).explained.bind fun _ _ => .ok _

/-- The errors of an effect of a known kind are explained by the effects in its lists. -/
theorem effectAs_explains {entries : Record} {word : String} {kind : EffectKind}
    (found : Effect.decodeKind (entries.fields .effect) = .ok (word, kind)) :
    FailsWith (effect (.object entries)).Explains
      (Effect.decodeAs kind ((entries.fields .effect).forKind word)) := by
  let fields := (entries.fields .effect).forKind word
  cases kind with
  | mutate change =>
    exact ((Effect.decodeTargets_isLocal fields).bind fun _ =>
      (fields.requiredPath_isLocal "path").bind fun _ =>
        (Effect.decodeChange_isLocal fields change).bind fun _ => .ok _).explained
  | spawn =>
    exact ((fields.requiredString_isLocal "entity").bind fun _ =>
      (fields.mapping_isLocal "fields" Operand.decode_isLocal).bind fun _ => .ok _).explained
  | destroy => exact (Effect.decodeTargets_isLocal fields).map.explained
  | emit =>
    exact ((fields.requiredString_isLocal "event").bind fun _ =>
      (fields.mapping_isLocal "payload" Operand.decode_isLocal).bind fun _ => .ok _).explained
  | branch =>
    have typed : entries.lookup "type" = some (.string "If") :=
      Effect.typed_of_decodeKind found (List.cons_ne_nil _ _)
    refine (fields.required_isLocal "then").explained.bind fun _ given =>
      (fields.requiredNode_isLocal "condition" Expression.decode_isLocal).explained.bind
        fun _ readCondition => ?_
    obtain ⟨test, testGiven, decoded⟩ := Fields.requiredNode_eq_ok_iff.mp readCondition
    have tested : entries.lookup "condition" = some test := Fields.lookup_of_value? testGiven
    have consequents : FailsWith (effect (.object entries)).Explains
        (fields.list "then" "then effect" fun part _ => Effect.decode part) :=
      list_explains (fun _ => rfl) fun _ _ _ listed before =>
        .inner (.consequent typed tested decoded listed before)
    refine consequents.bind fun _ readThen => ?_
    -- The effects for the other case are only looked at once all of these are decoded.
    obtain ⟨items, positive, clear⟩ := Effect.allDecode_of_list given readThen
    have alternatives : FailsWith (effect (.object entries)).Explains
        (fields.list "else" "else effect" fun part _ => Effect.decode part) :=
      list_explains (fun _ => rfl) fun _ _ _ listed before =>
        .inner (.alternative typed tested decoded positive clear listed before)
    exact alternatives.bind fun _ _ => .ok _
  | sequence =>
    have typed : entries.lookup "type" = some (.string "Sequence") :=
      Effect.typed_of_decodeKind found (List.cons_ne_nil _ _)
    have effects : FailsWith (effect (.object entries)).Explains
        (fields.list "effects" "effect" fun part _ => Effect.decode part) :=
      list_explains (fun _ => rfl) fun _ _ _ listed before => .inner (.step typed listed before)
    exact (fields.required_isLocal "effects").explained.bind fun _ _ => effects.bind fun _ _ => .ok _
  | control op => exact (fields.requiredString_isLocal op.targetKey).map.explained
  | log =>
    exact ((fields.requiredNode_isLocal "message" Operand.decode_isLocal).bind fun _ =>
      (fields.keyword?_isLocal "level").bind fun _ => .ok _).explained

/-- The errors of an effect are explained by the effects in its lists. -/
theorem effect_explains (document : Json) :
    FailsWith (effect document).Explains (Effect.decode document) := by
  rw [Effect.decode_eq]
  cases document with
  | object entries =>
    let fields := Record.fields entries .effect
    change FailsWith _ (Effect.decodeKind fields >>= _)
    exact (Effect.decodeKind_isLocal fields).explained.bind fun _ found => effectAs_explains found
  | _ => exact (IsLocal.fail _).explained

/-- Every error of decoding a site is about the site, or it comes from a part that the site leads
to. -/
theorem explains (site : Site) : FailsWith site.Explains site.decode := by
  cases site with
  | ruleSet document => exact (ruleSet_explains document).map
  | rule document => exact (rule_explains document).map
  | body entries name => exact (body_explains entries name).map
  | effect document => exact (effect_explains document).map

/-- A waypoint in an error comes from a part that the site leads to. -/
theorem leadsTo_of_waypoint {site : Site} {error : DecodeError} (failed : site.decode = .error error)
    {position : Position} (member : position ∈ error.positions)
    (waypoint : position.isWaypoint = true) : site.LeadsTo error := by
  refine (site.explains error failed).resolve_left fun isLocal => ?_
  rw [isLocal position member] at waypoint
  cases waypoint

/-- A trail goes to each waypoint in an error. What is left of the error there is the error of the part
that the waypoint leads to. -/
theorem trail_of_error {site : Site} {error : DecodeError} (failed : site.decode = .error error)
    {outer inner : List Position} {position : Position}
    (split : error.positions = outer ++ position :: inner) (waypoint : position.isWaypoint = true) :
    ∃ holder part, site.Trail outer holder ∧ holder.Leads position part ∧
      part.decode = .error ⟨inner, error.fault⟩ := by
  -- By induction on the way: its first position leads to a part that fails with the other ones.
  induction outer generalizing site error with
  | nil =>
    obtain ⟨_, part, ⟨_, _⟩, leads, failedThere, rfl⟩ :=
      leadsTo_of_waypoint failed (by simp [split]) waypoint
    cases split
    exact ⟨site, part, .here site, leads, failedThere⟩
  | cons first outer ih =>
    obtain ⟨_, part, ⟨_, _⟩, leads, failedThere, rfl⟩ :=
      leadsTo_of_waypoint failed (by simp [split]) waypoint
    cases split
    obtain ⟨holder, last, trail, leadsOn, failedLast⟩ := ih failedThere rfl
    exact ⟨holder, last, .next leads trail, leadsOn, failedLast⟩

/-- A site fails like the part that it leads to. -/
theorem Leads.failed {site part : Site} {position : Position} (leads : site.Leads position part)
    {error : DecodeError} (failed : part.decode = .error error) :
    site.decode = .error (error.within position) := by
  cases leads with
  | rule readVersion readPackage readImports listed before =>
    have failedThere := Decoded.map_eq_error_iff.mp failed
    refine Decoded.map_eq_error_iff.mpr ?_
    simp only [RuleSet.decode, Decoded.bind_eq_error_iff]
    exact .inr ⟨_, rfl, .inr ⟨_, readVersion, .inr ⟨_, readPackage, .inr ⟨_, readImports,
      .inl (Record.list_eq_error_of_item listed before failedThere)⟩⟩⟩⟩
  | name named nonempty =>
    have failedThere := Decoded.map_eq_error_iff.mp failed
    refine Decoded.map_eq_error_iff.mpr ?_
    simp only [Rule.decode, Decoded.bind_eq_error_iff, Decoded.inside_eq_error_iff]
    exact .inr ⟨_, rfl, .inr ⟨_, Fields.requiredString_of_lookup named nonempty, error,
      failedThere, rfl⟩⟩
  | effect readPriority readViews listed before =>
    have failedThere := Decoded.map_eq_error_iff.mp failed
    refine Decoded.map_eq_error_iff.mpr ?_
    simp only [Rule.decodeBody, Rule.decodeEffects, Decoded.bind_eq_error_iff]
    exact .inr ⟨_, readPriority, .inr ⟨_, readViews, .inl (.inr ⟨_,
      Fields.required_eq_ok_iff.mpr (Fields.value?_of_lookup listed rfl),
      .inl (Record.list_eq_error_of_item listed before failedThere)⟩)⟩⟩
  | inner reaches =>
    have failedThere := Decoded.map_eq_error_iff.mp failed
    exact Decoded.map_eq_error_iff.mpr (reaches.failed failedThere)

/-- A site fails like the one that a trail goes to. -/
theorem Trail.failed {site last : Site} {positions : List Position}
    (trail : site.Trail positions last) {error : DecodeError}
    (failed : last.decode = .error error) :
    site.decode = .error ⟨positions ++ error.positions, error.fault⟩ := by
  induction trail with
  | here site => exact failed
  | next head rest ih => exact head.failed (ih failed)

/-- What a site is put together from is decoded as the whole. -/
theorem Assembles.decode {site : Site} {node : Node} (assembles : site.Assembles node) :
    site.decode = .ok node := by
  induction assembles with
  | ruleSet readVersion readPackage readImports readRules readFilters =>
    refine Decoded.map_eq_ok_iff.mpr ⟨_, ?_, rfl⟩
    simp only [RuleSet.decode, Decoded.bind_eq_ok_iff]
    exact ⟨_, rfl, _, readVersion, _, readPackage, _, readImports, _, readRules.list, _,
      readFilters.list, rfl⟩
  | rule named nonempty _ body =>
    obtain ⟨rule, decoded, rfl⟩ := Decoded.map_eq_ok_iff.mp body
    refine Decoded.map_eq_ok_iff.mpr ⟨rule, ?_, rfl⟩
    simp only [Rule.decode, Decoded.bind_eq_ok_iff]
    exact ⟨_, rfl, _, Fields.requiredString_of_lookup named nonempty,
      Decoded.inside_eq_ok_iff.mpr decoded⟩
  | body readPriority readViews readEffects active readDescription readEnabled readTrigger
      readSelector =>
    refine Decoded.map_eq_ok_iff.mpr ⟨_, ?_, rfl⟩
    simp only [Rule.decodeBody, Decoded.bind_eq_ok_iff]
    exact ⟨_, readPriority, _, readViews, _, Rule.decodeEffects_of_items readEffects active, _,
      readDescription, _, readEnabled, _, readTrigger, _, readSelector, rfl⟩
  | choice typed readCondition given readThen readElse =>
    obtain ⟨_, found⟩ := Option.isSome_iff_exists.mp given
    obtain ⟨test, tested, decoded⟩ := Fields.requiredNode_eq_ok_iff.mp readCondition
    refine Decoded.map_eq_ok_iff.mpr ⟨_, ?_, rfl⟩
    rw [Effect.decode_of_typed .branch typed, Effect.decodeAs]
    simp only [Decoded.bind_eq_ok_iff]
    exact ⟨_, Fields.required_eq_ok_iff.mpr found, _,
      Fields.requiredNode_eq_ok_iff.mpr ⟨test, tested, decoded⟩, _,
      readThen.list, _, readElse.list, rfl⟩
  | sequence typed given readEffects =>
    obtain ⟨_, found⟩ := Option.isSome_iff_exists.mp given
    refine Decoded.map_eq_ok_iff.mpr ⟨_, ?_, rfl⟩
    rw [Effect.decode_of_typed .sequence typed, Effect.decodeAs]
    simp only [Decoded.bind_eq_ok_iff]
    exact ⟨_, Fields.required_eq_ok_iff.mpr found, _, readEffects.list, rfl⟩

/-- Every waypoint in an error is exact: the positions before it lead, over waypoints, to a list or a
rule; it counts an item of that list, after items that are decoded, or gives the name of that rule; and
the part that stands there fails on its own with what is left of the error. If a trail goes to a part
that fails, the whole fails with the error of the part behind the positions of the trail. And if the
parts are decoded and the other fields can be read, the whole is put together from them. -/
theorem decode_exact (site : Site) :
    (∀ error outer position inner, site.decode = .error error →
      error.positions = outer ++ position :: inner → position.isWaypoint = true →
        ∃ holder part, site.Trail outer holder ∧ holder.Leads position part ∧
          part.decode = .error ⟨inner, error.fault⟩) ∧
      (∀ positions last error, site.Trail positions last → last.decode = .error error →
        site.decode = .error ⟨positions ++ error.positions, error.fault⟩) ∧
        ∀ node, site.Assembles node → site.decode = .ok node :=
  ⟨fun _ _ _ _ failed split waypoint => trail_of_error failed split waypoint,
    fun _ _ _ trail failed => trail.failed failed, fun _ assembles => assembles.decode⟩

end Site

/-- The document of an effect that switches the rule on that raises the alarm. -/
def Effect.switchDocument : Json :=
  .object [("rule", .string "alarm"), ("type", .string "EnableRule")]

/-- The document of a rule that switches the alarm on and then does something that is not said. -/
def Rule.sirenDocument : Json :=
  .object [
    ("effects", .array [.object [("effects", .array [Effect.switchDocument, .null]),
      ("type", .string "Sequence")]]),
    ("name", .string "siren")]

/-- The document of a package of rules. -/
def RuleSet.documentOf (rules : List Json) : Json := .object [("rules", .array rules)]

/-- The rule that raises the alarm is read from its document. -/
theorem Rule.decode_alarm : decode alarmDocument = .ok alarm :=
  decode_encode alarm_wellFormed nofun

/-- The alarm is switched on. -/
theorem Effect.decode_switch : decode switchDocument = .ok (.control .enableRule "alarm") := by
  rw [switchDocument, decode_of_typed (.control .enableRule) rfl]
  rfl

namespace Site

/-- A package of two rules. -/
def siren : Site := ruleSet (RuleSet.documentOf [Rule.alarmDocument, Rule.sirenDocument])

/-- The way to what is not said goes over the second effect in the first effect of the second rule. -/
theorem siren_trail :
    siren.Trail [.item "rule" 1, .named "rule" "siren", .item "effect" 0, .item "effect" 1]
      (effect .null) := by
  have rules : ∀ earlier ∈ [Rule.alarmDocument], ∃ rule, Rule.decode earlier = .ok rule :=
    List.forall_mem_singleton.mpr ⟨_, Rule.decode_alarm⟩
  have first : Effect.AllDecode [] := List.forall_mem_nil _
  have second : Effect.AllDecode [Effect.switchDocument] :=
    List.forall_mem_singleton.mpr ⟨_, Effect.decode_switch⟩
  exact .next (.rule rfl rfl rfl rfl rules) <| .next (.name rfl (by decide)) <|
    .next (.effect rfl rfl rfl first) <| .next (.inner (.step rfl rfl second)) (.here _)

/-- What is not said fails at the end of its trail, and the last position of the error leads there. A
package of the rule that stands before it is decoded. -/
theorem decode_exact_siren :
    siren.decode = .error
        ⟨[.item "rule" 1, .named "rule" "siren", .item "effect" 0, .item "effect" 1],
          .malformed .effect (.notAnObject "null")⟩ ∧
      (∃ holder part,
        siren.Trail [.item "rule" 1, .named "rule" "siren", .item "effect" 0] holder ∧
          holder.Leads (.item "effect" 1) part ∧
            part.decode = .error ⟨[], .malformed .effect (.notAnObject "null")⟩) ∧
        (ruleSet (RuleSet.documentOf [Rule.alarmDocument])).decode =
          .ok (.ruleSet ⟨none, none, [], [.alarm], []⟩) := by
  have refused : (effect .null).decode =
      .error ⟨[], .malformed .effect (.notAnObject "null")⟩ := by
    rw [decode, Effect.decode_eq]
    rfl
  have failed := (decode_exact siren).2.1 _ _ _ siren_trail refused
  have assembles : (ruleSet (RuleSet.documentOf [Rule.alarmDocument])).Assembles
      (.ruleSet ⟨none, none, [], [.alarm], []⟩) :=
    .ruleSet rfl rfl rfl (.inr ⟨_, rfl, .cons Rule.decode_alarm .nil⟩) (.inl ⟨.inl rfl, rfl⟩)
  exact ⟨failed, (decode_exact siren).1 _ _ _ [] failed rfl rfl,
    (decode_exact _).2.2 _ assembles⟩

end Site

end GameRules
