import GameRules.Proofs.Document.Record
import GameRules.Proofs.Json.Proper
import GameRules.Proofs.Value.Combination

/-!
# How deep what is written goes

A node is decoded from a document and written as another one, the canonical document of the node,
which may be nested deeper: short forms are written out. Here is what this depends on. The parts of an
object are sound one level less deep than the object, and an object that is written is sound one level
deeper than its fields. What is known of the documents of parts is thus known of the documents of the
lists, the mappings and the objects of such parts.
-/

namespace GameRules

/-- Entries in order whose values are sound at a depth. -/
structure Entries.Within (depth : Nat) (entries : Entries Json) : Prop where
  /-- The keys are in order. -/
  ordered : entries.Ordered
  /-- Each value is sound. -/
  sound : ∀ entry ∈ entries, entry.2.Sound depth

/-- An object is sound at a depth exactly if its entries are within one level less. -/
theorem Json.sound_object_iff_within {entries : Entries Json} {depth : Nat} :
    (object entries).Sound depth ↔ ∃ less, depth = less + 1 ∧ entries.Within less := by
  rw [sound_object_iff]
  exact exists_congr fun less => and_congr_right fun _ =>
    ⟨fun ⟨ordered, sound⟩ => ⟨ordered, sound⟩, fun within => ⟨within.ordered, within.sound⟩⟩

namespace Record

variable {depth : Nat} {record : Record} (within : Entries.Within depth record)
include within

omit within in
/-- No fields are within any depth. -/
theorem within_empty : Entries.Within depth Record.empty :=
  ⟨List.Pairwise.nil, List.forall_mem_nil _⟩

/-- A field may be nested as deep as the others. -/
theorem within_field {key : String} {value : Json} (sound : value.Sound depth) :
    Entries.Within depth (record.field key value) := by
  refine ⟨Entries.ordered_insert within.ordered, fun entry member => ?_⟩
  rcases Entries.eq_or_mem_of_mem_insert member with rfl | old
  · exact sound
  · exact within.sound entry old

/-- A text is not nested. -/
theorem within_text {key value : String} : Entries.Within depth (record.text key value) :=
  within_field within (Json.sound_string value depth)

/-- A keyword is not nested. -/
theorem within_keyword {α : Type} [Keyword α] {key : String} {value : α} :
    Entries.Within depth (record.keyword key value) :=
  within_text within

/-- A field that may be absent may be nested as deep as the others. -/
theorem within_optional {key : String} {value : Option Json}
    (sound : ∀ given ∈ value, given.Sound depth) :
    Entries.Within depth (record.optional key value) := by
  cases value with
  | none => exact within
  | some given => exact within_field within (sound given rfl)

/-- A field that may be absent may be written as a text, a number or a truth value. -/
theorem within_leaf {α : Type} {key : String} {value : Option α} {write : α → Json}
    (leaf : ∀ given, value = some given → (write given).Sound 0) :
    Entries.Within depth (record.optional key (value.map write)) := by
  refine within_optional within fun document written => ?_
  obtain ⟨given, there, rfl⟩ := Option.map_eq_some_iff.mp written
  exact (leaf given there).mono (Nat.zero_le depth)

/-- A text that may be absent is not nested. -/
theorem within_optionalText {α : Type} {key : String} {value : Option α} {text : α → String} :
    Entries.Within depth (record.optional key (value.map fun given => .string (text given))) :=
  within_leaf within fun given _ => Json.sound_string (text given) 0

/-- A truth value that may be absent is not nested. -/
theorem within_optionalBool {key : String} {value : Option Bool} :
    Entries.Within depth (record.optional key (value.map .bool)) :=
  within_leaf within fun given _ => Json.sound_bool given 0

/-- A whole number of 32 bits that may be absent is not nested. -/
theorem within_optionalNat {key : String} {value : Option Nat}
    (fits : ∀ number, value = some number → number < 2 ^ 32) :
    Entries.Within depth (record.optional key (value.map fun number => .int number)) := by
  cases value with
  | none => exact within
  | some number =>
    have small := fits number rfl
    exact within_field within (Json.sound_int (by omega) depth)

/-- A fractional number that may be absent is not nested. -/
theorem within_optionalFloat {key : String} {value : Option Binary64} :
    Entries.Within depth (record.optional key (value.map .float)) :=
  within_leaf within fun given _ => Json.sound_float given 0

/-- A keyword that may be absent is not nested. -/
theorem within_optionalKeyword {α : Type} [Keyword α] {key : String} {value : Option α} :
    Entries.Within depth (record.optionalKeyword key value) :=
  within_optionalText within

/-- A list may be nested as deep as the other fields. -/
theorem within_list {key : String} {items : List Json}
    (sound : (Json.array items).Sound depth) : Entries.Within depth (record.list key items) :=
  within_field within sound

/-- A list that is left out when it is empty may be nested as deep as the other fields. -/
theorem within_nonemptyList {key : String} {items : List Json}
    (sound : (Json.array items).Sound depth) :
    Entries.Within depth (record.nonemptyList key items) := by
  unfold nonemptyList
  split
  · exact within
  · exact within_list within sound

/-- A mapping that is left out when it is empty may be nested as deep as the other fields. -/
theorem within_nonemptyMapping {key : String} {entries : Entries Json}
    (sound : (Json.object entries).Sound depth) :
    Entries.Within depth (record.nonemptyMapping key entries) := by
  unfold nonemptyMapping
  split
  · exact within
  · exact within_field within sound

/-- An object goes one level deeper than its fields. -/
theorem sound_build : record.build.Sound (depth + 1) :=
  Json.sound_object_iff_within.mpr ⟨depth, rfl, within⟩

omit within in
/-- The word of a kind is not nested. -/
theorem within_typed {α : Type} [Keyword α] {kind : α} : Entries.Within depth (typed kind) :=
  within_keyword within_empty

end Record

/-- A list of texts is one level deep. -/
theorem Json.sound_texts {α : Type} {values : List α} {text : α → String} {depth : Nat} :
    (array (values.map fun value => .string (text value))).Sound (depth + 1) :=
  sound_array (List.forall_mem_map.mpr fun value _ => sound_string (text value) depth)

namespace Fields

variable {document : Json} {fields : Fields document} {depth : Nat} {key : String} {value : Json}

/-- The fields of an object are sound one level less deep than the object. -/
theorem within_of {node : NodeKind} (read : Fields.of node document = .ok fields)
    (sound : document.Sound depth) : ∃ less, depth = less + 1 ∧ fields.entries.Within less := by
  cases document with
  | object entries =>
    cases read
    exact Json.sound_object_iff_within.mp sound
  | _ => exact absurd read Decoded.fail_ne_ok

/-- Fields that are known by their kind are sound one level less deep than the object, too. -/
theorem within_forKind_of {node : NodeKind} (read : Fields.of node document = .ok fields)
    (sound : document.Sound depth) (word : String) :
    ∃ less, depth = less + 1 ∧ (fields.forKind word).entries.Within less := by
  obtain ⟨less, deep, within⟩ := within_of read sound
  exact ⟨less, deep, within⟩

variable (within : fields.entries.Within depth)
include within

/-- What is written under a key is one of the entries. -/
theorem sound_of_lookup (written : fields.entries.lookup key = some value) : value.Sound depth :=
  within.sound _ (Entries.mem_of_lookup written)

/-- What is found under a key is one of the entries. -/
theorem sound_of_value? (given : fields.value? key = some value) : value.Sound depth :=
  sound_of_lookup within (Fields.lookup_of_value? given)

end Fields

/-- What is decoded from a sound document is written as one that is sound at most some more levels
deep, at every depth up to a bound. -/
def Deepens (extra bound : Nat) {α : Type} (decode : Json → Decoded α) (encode : α → Json) : Prop :=
  ∀ depth ≤ bound, ∀ document : Json, document.Sound depth → ∀ node, decode document = .ok node →
    (encode node).Sound (depth + extra)

namespace Deepens

variable {α : Type} {decode : Json → Decoded α} {encode : α → Json} {extra depth : Nat}

/-- More levels may be allowed. -/
theorem weaken {more : Nat} (deepens : Deepens extra depth decode encode) (le : extra ≤ more) :
    Deepens more depth decode encode := fun less inBound document sound node decoded =>
  (deepens less inBound document sound node decoded).mono (Nat.add_le_add_left le less)

variable {whole : Json} {fields : Fields whole} {key label : String}
  (deepens : Deepens extra depth decode encode) (within : fields.entries.Within depth)
include deepens within

/-- A node that a field has to hold is written no deeper than the fields and the levels that may be
added. -/
theorem requiredNode {node : α}
    (decoded : fields.requiredNode key (fun part _ => decode part) = .ok node) :
    (encode node).Sound (depth + extra) := by
  obtain ⟨part, given, decoded⟩ := Fields.requiredNode_eq_ok_iff.mp decoded
  exact deepens depth (Nat.le_refl depth) part (Fields.sound_of_value? within given) node decoded

/-- A node that a field may hold is written no deeper than the fields and the levels that may be
added. -/
theorem node? {node : Option α}
    (decoded : fields.node? key (fun part _ => decode part) = .ok node) :
    ∀ written ∈ node.map encode, written.Sound (depth + extra) := by
  intro written member
  obtain ⟨value, rfl, rfl⟩ := Option.map_eq_some_iff.mp member
  rcases Fields.node?_eq_ok_iff.mp decoded with ⟨-, none⟩ | ⟨part, value, given, decoded, same⟩
  · cases none
  · cases same
    exact deepens.requiredNode within (Fields.requiredNode_eq_ok_iff.mpr ⟨part, given, decoded⟩)

/-- The nodes that are decoded from the items of a field are written with some more levels. -/
theorem items {items : List Json} {nodes : List α} (given : fields.value? key = some (.array items))
    (decoded : List.Forall₂ (fun item node => decode item = .ok node) items nodes) :
    (Json.array (nodes.map encode)).Sound (depth + extra) := by
  obtain ⟨less, rfl, sound⟩ := Json.sound_array_iff.mp (Fields.sound_of_value? within given)
  rw [Nat.add_right_comm]
  refine Json.sound_array (List.forall_mem_map.mpr fun node member => ?_)
  obtain ⟨item, inItems, read⟩ := exists_mem_of_forall₂ decoded member
  exact deepens less (Nat.le_succ less) item (sound item inItems) node read

omit deepens in
/-- The nodes that are decoded from the values of a field, perhaps with their names, are written with
some more levels. -/
theorem entries {decode : String → Json → Decoded α}
    (deepens : ∀ name, Deepens extra depth (decode name) encode) {entries : Entries Json}
    {nodes : Entries α} (given : fields.value? key = some (.object entries))
    (decoded : List.Forall₂ (fun entry node => entry.1 = node.1 ∧
      decode entry.1 entry.2 = .ok node.2) entries nodes) :
    (Json.object (nodes.mapValues encode)).Sound (depth + extra) := by
  obtain ⟨less, rfl, ordered, sound⟩ :=
    Json.sound_object_iff.mp (Fields.sound_of_value? within given)
  have keys : nodes.Ordered := Entries.Ordered.decoded ordered decoded
  rw [Nat.add_right_comm]
  refine Json.sound_object (List.pairwise_map.mpr keys) (List.forall_mem_map.mpr ?_)
  intro node member
  obtain ⟨entry, inEntries, -, read⟩ := exists_mem_of_forall₂ decoded member
  exact deepens entry.1 less (Nat.le_succ less) entry.2 (sound entry inEntries) node.2 read

/-- The items of a logical combination are written with some more levels. -/
theorem combination? {nodes : List α}
    (decoded : fields.combination? key (fun part _ => decode part) = .ok (some nodes)) :
    (Json.array (nodes.map encode)).Sound (depth + extra) := by
  rcases Fields.combination?_eq_ok_iff.mp decoded with
    ⟨-, none⟩ | ⟨documents, _, given, related, same⟩
  · cases none
  · cases same
    exact deepens.items within given related

variable (positive : 0 < extra)
include positive

/-- A list of nodes that may be absent is written with some more levels. -/
theorem list {nodes : List α}
    (decoded : fields.list key label (fun part _ => decode part) = .ok nodes) :
    (Json.array (nodes.map encode)).Sound (depth + extra) := by
  rcases Fields.list_eq_ok_iff.mp decoded with ⟨-, rfl⟩ | ⟨items, given, related⟩
  · have empty : (Json.array []).Sound 1 := Json.sound_array (List.forall_mem_nil _)
    exact empty.mono (Nat.le_add_left_of_le positive)
  · exact deepens.items within given related

/-- A mapping to nodes that may be absent is written with some more levels. -/
theorem mapping {nodes : Entries α}
    (decoded : fields.mapping key (fun part _ => decode part) = .ok nodes) :
    (Json.object (nodes.mapValues encode)).Sound (depth + extra) := by
  rcases Fields.mapping_eq_ok_iff.mp decoded with ⟨-, rfl⟩ | ⟨entries, given, related⟩
  · have empty : (Json.object []).Sound 1 := Json.sound_object List.Pairwise.nil (List.forall_mem_nil _)
    exact empty.mono (Nat.le_add_left_of_le positive)
  · exact Deepens.entries within (fun _ => deepens) given related

end Deepens

end GameRules
