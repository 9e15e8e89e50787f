import GameRules.Proofs.Document.Agreement
import GameRules.Proofs.Document.Failure

/-!
# Faults that no waypoint leads to

The way from a rule set to a fault goes over elements of its list of rules, over the names of rules and
over elements of lists of effects. These positions are the waypoints. An error without waypoints is
local: it is about a field of the node that the way has led to. The accessors of an object have local
errors only, if what they decode has.
-/

namespace GameRules

/-- The labels of the elements of a list of rules and of lists of effects. -/
def Position.waypointLabels : List String := ["rule", "effect", "then effect", "else effect"]

/-- Whether a position is an element of a list of rules or effects, or the name of a rule. -/
def Position.isWaypoint : Position → Bool
  | item label _ => waypointLabels.contains label
  | named label _ => label == "rule"
  | field _ => false
  | entry _ _ => false

/-- No waypoint leads to the fault. -/
def DecodeError.IsLocal (error : DecodeError) : Prop :=
  ∀ position ∈ error.positions, position.isWaypoint = false

/-- A position that is no waypoint does not keep an error from being local. -/
theorem DecodeError.IsLocal.within {error : DecodeError} (isLocal : error.IsLocal)
    {position : Position} (aside : position.isWaypoint = false) : (error.within position).IsLocal :=
  List.forall_mem_cons.mpr ⟨aside, isLocal⟩

namespace Decoded

variable {α β : Type} {property : DecodeError → Prop} {part : Decoded α}

/-- Whatever a decoder fails with has a property. -/
def FailsWith (property : DecodeError → Prop) (part : Decoded α) : Prop :=
  ∀ error, part = .error error → property error

/-- Decoding fails with local errors only. -/
def IsLocal (part : Decoded α) : Prop := FailsWith DecodeError.IsLocal part

namespace FailsWith

/-- What succeeds does not fail. -/
theorem ok (value : α) : FailsWith property (.ok value) := nofun

/-- What fails with errors of one kind fails with errors of a wider kind. -/
theorem mono {wider : DecodeError → Prop} (fails : FailsWith property part)
    (widen : ∀ error, property error → wider error) : FailsWith wider part :=
  fun error failed => widen error (fails error failed)

/-- A decoder that goes on after another one fails as either of them does. -/
theorem bind {next : α → Decoded β} (first : FailsWith property part)
    (others : ∀ value, part = .ok value → FailsWith property (next value)) :
    FailsWith property (part >>= next) := by
  intro error failed
  rcases bind_eq_error_iff.mp failed with failed | ⟨value, decoded, failed⟩
  · exact first error failed
  · exact others value decoded error failed

/-- Changing the result of a decoder does not change what it fails with. -/
theorem map {change : α → β} (fails : FailsWith property part) :
    FailsWith property (change <$> part) :=
  fun error failed => fails error (map_eq_error_iff.mp failed)

end FailsWith

namespace IsLocal

/-- What succeeds does not fail. -/
theorem ok (value : α) : IsLocal (.ok value) := FailsWith.ok value

/-- A fault of the document itself is local. -/
theorem fail (fault : DecodeFault) : IsLocal (Decoded.fail fault : Decoded α) := by
  rintro error ⟨⟩
  exact List.forall_mem_nil _

/-- A decoder that goes on after another one has local errors if both do. -/
theorem bind {next : α → Decoded β} (first : IsLocal part) (others : ∀ value, IsLocal (next value)) :
    IsLocal (part >>= next) :=
  FailsWith.bind first fun value _ => others value

/-- Changing the result of a decoder does not change what it fails with. -/
theorem map {change : α → β} (first : IsLocal part) : IsLocal (change <$> part) :=
  FailsWith.map first

/-- A part at a position that is no waypoint has local errors if it does on its own. -/
theorem inside {position : Position} (aside : position.isWaypoint = false) (first : IsLocal part) :
    IsLocal (Decoded.inside position part) := by
  intro error failed
  obtain ⟨inner, failedThere, rfl⟩ := inside_eq_error_iff.mp failed
  exact (first inner failedThere).within aside

/-- A list without positions has local errors if its items do. -/
theorem mapM {decode : α → Decoded β} {items : List α} (all : ∀ item, IsLocal (decode item)) :
    IsLocal (items.mapM decode) := by
  intro error failed
  obtain ⟨_, item, _, _, _, failed⟩ := mapM_eq_error_iff.mp failed
  exact all item error failed

/-- One of two decoders has local errors if both do. -/
theorem ite {condition : Prop} [Decidable condition] {other : Decoded α} (first : IsLocal part)
    (second : IsLocal other) : IsLocal (if condition then part else other) := by
  split
  · exact first
  · exact second

end IsLocal

end Decoded

open Decoded (IsLocal)

variable {α : Type}

/-- A list whose label is none of a waypoint has local errors if its items do. -/
theorem decodeItems_isLocal {label : String} {start : Nat} {items : List Json}
    {decode : Json → Decoded α} (aside : label ∉ Position.waypointLabels)
    (all : ∀ item ∈ items, IsLocal (decode item)) :
    IsLocal (decodeItems label start items fun item _ => decode item) := by
  intro error failed
  obtain ⟨front, item, back, inner, rfl, -, failedThere, rfl⟩ := decodeItems_eq_error_iff.mp failed
  have elsewhere (index : Nat) : (Position.item label index).isWaypoint = false := by
    simpa [Position.isWaypoint] using aside
  exact (all item (by simp) inner failedThere).within (elsewhere _)

/-- A mapping has local errors if its values do and stand at no waypoints. -/
theorem decodeEntries_isLocal {position : String → Position} {entries : List (String × Json)}
    {decode : String → Json → Decoded α} (aside : ∀ name, (position name).isWaypoint = false)
    (all : ∀ entry ∈ entries, IsLocal (decode entry.1 entry.2)) :
    IsLocal (decodeEntries position entries fun name value _ => decode name value) := by
  induction entries with
  | nil => exact .ok []
  | cons entry entries ih =>
    obtain ⟨first, others⟩ := List.forall_mem_cons.mp all
    exact (first.inside (aside _)).bind fun _ => (ih others).bind fun _ => .ok _

namespace Fields

variable {whole : Json} (fields : Fields whole) (key : String)

/-- What is no object has no fields. -/
theorem of_isLocal (node : NodeKind) (document : Json) : IsLocal (Fields.of node document) := by
  cases document with
  | object entries => exact .ok _
  | _ => exact .fail _

/-- A field may be missing. -/
theorem required_isLocal : IsLocal (fields.required key) := by
  unfold required
  split
  · exact .ok _
  · exact .fail _

/-- A text may be something else. -/
theorem string?_isLocal : IsLocal (fields.string? key) := by
  unfold string?
  split
  · exact .ok _
  · exact .ok _
  · exact .fail _

/-- A text that may be empty may be something else. -/
theorem nonemptyString?_isLocal : IsLocal (fields.nonemptyString? key) :=
  (fields.string?_isLocal key).map

/-- A required text may be missing. -/
theorem requiredString_isLocal : IsLocal (fields.requiredString key) := by
  refine (fields.nonemptyString?_isLocal key).bind fun text => ?_
  cases text with
  | none => exact .fail _
  | some text => exact .ok text

/-- The word for the kind may be missing. -/
theorem kindWord_isLocal : IsLocal fields.kindWord := by
  refine (fields.nonemptyString?_isLocal "type").bind fun word => ?_
  cases word with
  | none => exact .fail _
  | some word => exact .ok word

/-- A word may be that of no kind. -/
theorem kindOf_isLocal [Keyword α] (word : String) : IsLocal (fields.kindOf word : Decoded α) := by
  unfold kindOf
  split
  · exact .ok _
  · exact .fail _

/-- A truth value may be something else. -/
theorem bool?_isLocal : IsLocal (fields.bool? key) := by
  unfold bool?
  split
  · exact .ok _
  · exact .ok _
  · exact .fail _

/-- A whole number of 32 bits with sign may be something else, or too large. -/
theorem int32?_isLocal : IsLocal (fields.int32? key) := by
  have wide : IsLocal (fields.int64? key) := by
    unfold int64?
    split
    · exact .ok _
    · exact .ite (.ok _) (.fail _)
    · exact .fail _
  refine wide.bind fun value => ?_
  cases value with
  | none => exact .ok none
  | some value => exact .ite (.ok _) (.fail _)

/-- A whole number of 32 bits without sign may be something else, or too large. -/
theorem nat32?_isLocal : IsLocal (fields.nat32? key) := by
  unfold nat32?
  split
  · exact .ok _
  · split
    · exact .fail _
    · split
      · exact .ok _
      · exact .fail _
  · exact .fail _

/-- How whole numbers are rounded to fractional ones does not matter to where a number is missed. -/
theorem number_isLocal (rounded : Int → Option Binary64) (fault : Json → DecodeFault)
    (given : Option Json) :
    IsLocal (match given with
      | none => .ok none
      | some (.float value) => .ok (some value)
      | some (.int value) =>
        match rounded value with
        | some value => .ok (some value)
        | none => Decoded.fail (fault (.int value))
      | some other => Decoded.fail (fault other) : Decoded (Option Binary64)) := by
  split
  · exact .ok _
  · exact .ok _
  · split
    · exact .ok _
    · exact .fail _
  · exact .fail _

/-- A fractional number may be something else. -/
theorem number?_isLocal : IsLocal (fields.number? key) :=
  number_isLocal Binary64.ofInt? (fields.wrongType key "a number") (fields.value? key)

/-- A list of texts may be something else. -/
theorem strings_isLocal : IsLocal (fields.strings key) := by
  have listed (items : List Json) : IsLocal (fields.stringItems key items) := by
    induction items with
    | nil => exact .ok []
    | cons item items ih =>
      cases item with
      | string text => exact ih.map
      | _ => exact .fail _
  unfold strings
  split
  · exact .ok _
  · exact .ok _
  · exact listed _
  · exact .fail _

/-- A word may be in no vocabulary. -/
theorem keywordOf_isLocal [Keyword α] (word : String) : IsLocal (keywordOf key word : Decoded α) := by
  unfold keywordOf
  split
  · exact .ok _
  · exact .fail _

/-- A word of a vocabulary may be something else. -/
theorem keyword?_isLocal [Keyword α] : IsLocal (fields.keyword? key : Decoded (Option α)) := by
  refine (fields.string?_isLocal key).bind fun word => ?_
  cases word with
  | none => exact .ok none
  | some word => exact (keywordOf_isLocal key word).map

/-- A reference may be something else. -/
theorem path?_isLocal : IsLocal (fields.path? key) := (fields.nonemptyString?_isLocal key).map

/-- A required reference may be missing. -/
theorem requiredPath_isLocal : IsLocal (fields.requiredPath key) :=
  (fields.requiredString_isLocal key).map

end Fields

/-- What is decoded of every part of a document has local errors. -/
def PartsLocal (whole : Json) (decode : Json → Decoded α) : Prop :=
  ∀ part, sizeOf part < sizeOf whole → IsLocal (decode part)

namespace PartsLocal

variable {whole : Json} {fields : Fields whole} {decode : Json → Decoded α}
  (parts : PartsLocal whole decode) (key : String)

include parts

/-- A node has local errors as the parts do. -/
theorem node? : IsLocal (fields.node? key fun part _ => decode part) := by
  rw [Fields.node?_eq]
  split
  · exact .ok none
  · exact ((parts _ (Fields.sizeOf_value? ‹_›)).inside rfl).map

/-- A required node has local errors as the parts do. -/
theorem requiredNode : IsLocal (fields.requiredNode key fun part _ => decode part) := by
  rw [Fields.requiredNode_eq]
  split
  · exact .fail _
  · exact (parts _ (Fields.sizeOf_value? ‹_›)).inside rfl

/-- A list whose label is none of a waypoint has local errors as the parts do. -/
theorem list {label : String} (aside : label ∉ Position.waypointLabels) :
    IsLocal (fields.list key label fun part _ => decode part) := by
  rw [Fields.list_eq]
  split
  · exact .ok []
  · exact decodeItems_isLocal aside fun item member => parts item (Fields.sizeOf_item ‹_› member)
  · exact .fail _

end PartsLocal

namespace Fields

variable {whole : Json} {decode : Json → Decoded α} (fields : Fields whole) (key : String)
  (each : ∀ document, IsLocal (decode document))

include each

/-- A node has local errors if all documents have. -/
theorem node?_isLocal : IsLocal (fields.node? key fun part _ => decode part) :=
  PartsLocal.node? (fun part _ => each part) key

/-- A required node has local errors if all documents have. -/
theorem requiredNode_isLocal : IsLocal (fields.requiredNode key fun part _ => decode part) :=
  PartsLocal.requiredNode (fun part _ => each part) key

/-- A list whose label is none of a waypoint has local errors if all documents have. -/
theorem list_isLocal {label : String} (aside : label ∉ Position.waypointLabels) :
    IsLocal (fields.list key label fun part _ => decode part) :=
  PartsLocal.list (fun part _ => each part) key aside

/-- A mapping has local errors if all documents have. -/
theorem mapping_isLocal : IsLocal (fields.mapping key fun part _ => decode part) := by
  rw [mapping_eq]
  split
  · exact .ok []
  · exact decodeEntries_isLocal (fun _ => rfl) fun entry _ => each entry.2
  · exact .fail _

end Fields

end GameRules
