import GameRules.Value.Decode
import GameRules.Proofs.Document.Record

/-!
# Logical combinations

Conditions on values and conditions on entities are combined in the same way: all of a list, any of a
list, or the opposite of one. What is none of these is a plain condition. This module says once which
of the four a document is read as, and reads back those that were written.
-/

namespace GameRules

/-- The items of a logical combination are read from a list of their documents. -/
theorem Fields.combination?_eq_ok_iff {whole : Json} {α : Type} {fields : Fields whole}
    {key : String} {decode : Json → Decoded α} {nodes : Option (List α)} :
    fields.combination? key (fun part _ => decode part) = .ok nodes ↔
      fields.value? key = none ∧ nodes = none ∨
        ∃ items found, fields.value? key = some (.array items) ∧
          List.Forall₂ (fun item node => decode item = .ok node) items found ∧
            nodes = some found := by
  unfold combination?
  split
  · rename_i absent
    simp [absent, eq_comm]
  · rename_i items given
    simp only [Decoded.map_eq_ok_iff, decodeItems_eq_ok_iff, given]
    constructor
    · rintro ⟨found, decoded, rfl⟩
      exact .inr ⟨items, found, rfl, decoded, rfl⟩
    · rintro (⟨none, -⟩ | ⟨_, found, same, decoded, rfl⟩)
      · cases none
      · cases same
        exact ⟨found, decoded, rfl⟩
  · rename_i other notArray given
    simp only [given, Decoded.fail_ne_ok, reduceCtorEq, false_and, false_or, false_iff]
    rintro ⟨items, _, same, -⟩
    exact notArray items (Option.some.inj same)

/-- Every node of a logical combination has the property of the parts. -/
theorem PartsSatisfy.combination? {whole : Json} {α : Type} {fields : Fields whole} {key : String}
    {decode : Json → Decoded α} {property : α → Prop} (parts : PartsSatisfy whole decode property)
    {nodes : List α}
    (decoded : fields.combination? key (fun part _ => decode part) = .ok (some nodes)) :
    ∀ node ∈ nodes, property node := by
  rcases Fields.combination?_eq_ok_iff.mp decoded with
    ⟨-, none⟩ | ⟨documents, _, given, decoded, same⟩
  · cases none
  · cases same
    exact parts.items given decoded

namespace Fields

variable {whole : Json} {α : Type} {fields : Fields whole} {decode : Json → Decoded α}

/-- The items of a logical combination that was written are read back. -/
theorem combination?_of_lookup {key : String} {documents : List Json} {nodes : List α}
    (decoded : List.Forall₂ (fun document node => decode document = .ok node) documents nodes)
    (written : fields.entries.lookup key = some (.array documents)) :
    fields.combination? key (fun part _ => decode part) = .ok (some nodes) := by
  have given := value?_of_lookup written rfl
  exact combination?_eq_ok_iff.mpr (.inr ⟨documents, nodes, given, decoded, rfl⟩)

/-- The items of a logical combination that was written are those that are read. -/
theorem combination?_iff_of_lookup {key : String} {documents : List Json} {nodes : List α}
    (written : fields.entries.lookup key = some (.array documents)) :
    fields.combination? key (fun part _ => decode part) = .ok (some nodes) ↔
      List.Forall₂ (fun document node => decode document = .ok node) documents nodes := by
  rw [combination?_eq_ok_iff, value?_of_lookup written rfl]
  simp

/-- There is no logical combination under a key that nothing was written under. -/
theorem combination?_of_unwritten {key : String} (unwritten : fields.entries.lookup key = none) :
    fields.combination? key (fun part _ => decode part) = .ok none :=
  combination?_eq_ok_iff.mpr (.inl ⟨value?_of_unwritten unwritten, rfl⟩)

variable {all any : List α → α} {not : α → α} {plain : Decoded α}

/-- Decodes a logical combination, or a plain condition if it is none. -/
def combined (fields : Fields whole) (decode : Json → Decoded α) (all any : List α → α)
    (not : α → α) (plain : Decoded α) : Decoded α := do
  match ← fields.combination? "and" fun part _ => decode part with
  | some items => return all items
  | none =>
    match ← fields.combination? "or" fun part _ => decode part with
    | some items => return any items
    | none =>
      match ← fields.node? "not" fun part _ => decode part with
      | some item => return not item
      | none => plain

/-- Which conditions the fields are read as. -/
inductive Combined (fields : Fields whole) (decode : Json → Decoded α) (all any : List α → α)
    (not : α → α) (plain : Decoded α) : α → Prop where
  /-- All of some conditions. -/
  | all {items : List α}
      (given : fields.combination? "and" (fun part _ => decode part) = .ok (some items)) :
      Combined fields decode all any not plain (all items)
  /-- Any of some conditions. -/
  | any {items : List α}
      (notAll : fields.combination? "and" (fun part _ => decode part) = .ok none)
      (given : fields.combination? "or" (fun part _ => decode part) = .ok (some items)) :
      Combined fields decode all any not plain (any items)
  /-- The opposite of a condition. -/
  | not {item : α}
      (notAll : fields.combination? "and" (fun part _ => decode part) = .ok none)
      (notAny : fields.combination? "or" (fun part _ => decode part) = .ok none)
      (given : fields.node? "not" (fun part _ => decode part) = .ok (some item)) :
      Combined fields decode all any not plain (not item)
  /-- A plain condition. -/
  | plain {condition : α}
      (notAll : fields.combination? "and" (fun part _ => decode part) = .ok none)
      (notAny : fields.combination? "or" (fun part _ => decode part) = .ok none)
      (notNot : fields.node? "not" (fun part _ => decode part) = .ok none)
      (given : plain = .ok condition) :
      Combined fields decode all any not plain condition

/-- The fields are decoded as what they are read as. -/
theorem combined_eq_ok_iff {condition : α} :
    fields.combined decode all any not plain = .ok condition ↔
      fields.Combined decode all any not plain condition := by
  unfold combined
  constructor
  · intro decoded
    obtain ⟨items, readAll, decoded⟩ := Decoded.bind_eq_ok_iff.mp decoded
    cases items with
    | some items =>
      cases Decoded.pure_eq_ok_iff.mp decoded
      exact .all readAll
    | none =>
      obtain ⟨items, readAny, decoded⟩ := Decoded.bind_eq_ok_iff.mp decoded
      cases items with
      | some items =>
        cases Decoded.pure_eq_ok_iff.mp decoded
        exact .any readAll readAny
      | none =>
        obtain ⟨item, readNot, decoded⟩ := Decoded.bind_eq_ok_iff.mp decoded
        cases item with
        | some item =>
          cases Decoded.pure_eq_ok_iff.mp decoded
          exact .not readAll readAny readNot
        | none => exact .plain readAll readAny readNot decoded
  · intro combined
    cases combined with
    | all given =>
      rw [given]
      rfl
    | any notAll given =>
      rw [notAll, given]
      rfl
    | not notAll notAny given =>
      rw [notAll, notAny, given]
      rfl
    | plain notAll notAny notNot given =>
      rw [notAll, notAny, notNot]
      exact given

/-- The conditions under `and` are read back. -/
theorem Combined.all_of_lookup {documents : List Json} {items : List α}
    (decoded : List.Forall₂ (fun document item => decode document = .ok item) documents items)
    (written : fields.entries.lookup "and" = some (.array documents)) :
    fields.Combined decode all any not plain (all items) :=
  .all (combination?_of_lookup decoded written)

/-- The conditions under `or` are read back if there are none under `and`. -/
theorem Combined.any_of_lookup {documents : List Json} {items : List α}
    (decoded : List.Forall₂ (fun document item => decode document = .ok item) documents items)
    (unwritten : fields.entries.lookup "and" = none)
    (written : fields.entries.lookup "or" = some (.array documents)) :
    fields.Combined decode all any not plain (any items) :=
  .any (combination?_of_unwritten unwritten) (combination?_of_lookup decoded written)

/-- The condition under `not` is read back if there are none under `and` and `or`. -/
theorem Combined.not_of_lookup {document : Json} {item : α} (fills : Fills decode document item)
    (unwrittenAnd : fields.entries.lookup "and" = none)
    (unwrittenOr : fields.entries.lookup "or" = none)
    (written : fields.entries.lookup "not" = some document) :
    fields.Combined decode all any not plain (not item) :=
  .not (combination?_of_unwritten unwrittenAnd) (combination?_of_unwritten unwrittenOr)
    (fills.present written)

/-- A plain condition is read back if there is no other. -/
theorem Combined.plain_of_unwritten {condition : α}
    (unwrittenAnd : fields.entries.lookup "and" = none)
    (unwrittenOr : fields.entries.lookup "or" = none)
    (unwrittenNot : fields.entries.lookup "not" = none) (given : plain = .ok condition) :
    fields.Combined decode all any not plain condition :=
  .plain (combination?_of_unwritten unwrittenAnd) (combination?_of_unwritten unwrittenOr)
    (Fills.absent unwrittenNot) given

end Fields

end GameRules
