import GameRules.Proofs.Leaf
import GameRules.Proofs.Value.RoundTrip
import GameRules.Where.Decode

/-!
# Conditions on entities are read back

A condition on entities is read from its long form or from a short form, and is always written in its
long form. It is read back if no field that it compares is without a name.
-/

namespace GameRules

mutual

/-- What a condition on entities is that was decoded. -/
def WhereClause.WellFormed : WhereClause → Prop
  | .compare _ _ value => Operand.GivenOptional value
  | .all items => WhereClause.WellFormedAll items
  | .any items => WhereClause.WellFormedAll items
  | .not item => item.WellFormed

/-- Every condition of a list is well-formed. -/
def WhereClause.WellFormedAll : List WhereClause → Prop
  | [] => True
  | item :: items => item.WellFormed ∧ WhereClause.WellFormedAll items

end

mutual

/-- The fields that a condition compares. -/
def WhereClause.leaves : WhereClause → List Leaf
  | .compare field _ _ => [.comparison field]
  | .all items => WhereClause.leavesAll items
  | .any items => WhereClause.leavesAll items
  | .not item => item.leaves

/-- The fields that the conditions of a list compare. -/
def WhereClause.leavesAll : List WhereClause → List Leaf
  | [] => []
  | item :: items => item.leaves ++ WhereClause.leavesAll items

end

/-- A list of conditions is well-formed when its members are. -/
theorem WhereClause.wellFormedAll_iff {items : List WhereClause} :
    WhereClause.WellFormedAll items ↔ ∀ item ∈ items, item.WellFormed := by
  induction items with
  | nil => simp [WhereClause.WellFormedAll]
  | cons item items ih => simp [WhereClause.WellFormedAll, ih]

/-- Decodes a comparison of a field, the plain condition on entities. -/
def Fields.fieldComparison {whole : Json} (fields : Fields whole) : Decoded WhereClause := do
  let field ← fields.requiredString "field"
  let op ← fields.keyword? "op"
  let value ← fields.node? "value" fun part _ => Operand.decode part
  return .compare field (op.getD .equal) value

namespace WhereClause

/-- A document in the long form is read as a logical combination or a comparison. -/
theorem decode_eq (document : Json) :
    decode document = (do
      let fields ← Fields.of .whereClause document
      if ← fields.isStrictClause then
        fields.combined decode .all .any .not fields.fieldComparison
      else decodeShorthand fields.entries) := by
  rw [decode]
  refine bind_congr fun fields => bind_congr fun strict => ?_
  cases strict with
  | false => rfl
  | true =>
    simp only [if_true]
    unfold Fields.combined Fields.fieldComparison
    refine bind_congr fun all => ?_
    cases all with
    | some items => rfl
    | none =>
      refine bind_congr fun any => ?_
      cases any with
      | some items => rfl
      | none =>
        refine bind_congr fun negated => ?_
        cases negated <;> rfl

/-- The value of a short form is given if it is there. -/
theorem givenOptional_of_shorthandValue {field : String} {document : Json} {value : Option Operand}
    (decoded : shorthandValue field document = .ok value) : Operand.GivenOptional value := by
  unfold shorthandValue at decoded
  split at decoded
  · cases decoded
    trivial
  · rename_i notNull
    obtain ⟨operand, read, rfl⟩ := Decoded.map_eq_ok_iff.mp decoded
    rw [Decoded.inside_eq_ok_iff] at read
    refine Operand.given_iff.mpr ⟨Operand.wellFormed_of_decode read, ?_⟩
    rintro rfl
    rw [Operand.decode_eq_null read] at notNull
    exact notNull rfl

/-- An entry of a short form is well-formed. -/
theorem wellFormed_of_shorthandEntry {field : String} {document : Json} {clause : WhereClause}
    (decoded : shorthandEntry field document = .ok clause) : clause.WellFormed := by
  unfold shorthandEntry at decoded
  split at decoded
  · exact absurd decoded Decoded.fail_ne_ok
  · split at decoded
    · exact absurd decoded Decoded.fail_ne_ok
    · obtain ⟨value, read, rfl⟩ := Decoded.map_eq_ok_iff.mp decoded
      exact givenOptional_of_shorthandValue read
  · exact absurd decoded Decoded.fail_ne_ok
  · obtain ⟨value, read, rfl⟩ := Decoded.map_eq_ok_iff.mp decoded
    exact givenOptional_of_shorthandValue read

/-- The entries of a short form are well-formed. -/
theorem wellFormedAll_of_shorthandEntries {entries : Entries Json} {clauses : List WhereClause}
    (decoded : shorthandEntries entries = .ok clauses) : WellFormedAll clauses := by
  induction entries generalizing clauses with
  | nil =>
    cases decoded
    trivial
  | cons entry entries ih =>
    obtain ⟨field, document⟩ := entry
    simp only [shorthandEntries, Decoded.bind_eq_ok_iff, Decoded.pure_eq_ok_iff] at decoded
    obtain ⟨first, readFirst, others, readOthers, rfl⟩ := decoded
    exact ⟨wellFormed_of_shorthandEntry readFirst, ih readOthers⟩

/-- A short form is well-formed. -/
theorem wellFormed_of_decodeShorthand {entries : Entries Json} {clause : WhereClause}
    (decoded : decodeShorthand entries = .ok clause) : clause.WellFormed := by
  simp only [decodeShorthand, Decoded.bind_eq_ok_iff] at decoded
  obtain ⟨clauses, read, decoded⟩ := decoded
  have wellFormed := wellFormedAll_of_shorthandEntries read
  split at decoded
  · exact absurd decoded Decoded.fail_ne_ok
  · cases Decoded.pure_eq_ok_iff.mp decoded
    exact wellFormed.1
  · cases Decoded.pure_eq_ok_iff.mp decoded
    exact wellFormed

/-- A condition is well-formed if what it is made of is. -/
theorem wellFormed_of_parts {document : Json} {clause : WhereClause}
    (parts : PartsSatisfy document WhereClause.decode WellFormed)
    (decoded : decode document = .ok clause) : clause.WellFormed := by
  rw [decode_eq] at decoded
  simp only [Decoded.bind_eq_ok_iff] at decoded
  obtain ⟨fields, -, strict, -, decoded⟩ := decoded
  cases strict with
  | false => exact wellFormed_of_decodeShorthand decoded
  | true =>
    cases Fields.combined_eq_ok_iff.mp decoded with
    | all given => exact wellFormedAll_iff.mpr (parts.combination? given)
    | any _ given => exact wellFormedAll_iff.mpr (parts.combination? given)
    | @not item _ _ given => exact parts.node? given item rfl
    | plain _ _ _ given =>
      simp only [Fields.fieldComparison, Decoded.bind_eq_ok_iff, Decoded.pure_eq_ok_iff] at given
      obtain ⟨field, -, op, -, value, readValue, rfl⟩ := given
      exact (Operand.partsSatisfy document).optionalOperand readValue

/-- Decoded conditions are well-formed. -/
theorem wellFormed_of_decode {document : Json} {clause : WhereClause}
    (decoded : decode document = .ok clause) : clause.WellFormed :=
  PartsSatisfy.decoded (fun _ _ => wellFormed_of_parts) document clause decoded

/-- The conditions in any document are well-formed. -/
theorem partsSatisfy (whole : Json) : PartsSatisfy whole decode WellFormed :=
  fun _ _ _ => wellFormed_of_decode

/-- The document of a condition is an object. -/
theorem encode_eq_build (clause : WhereClause) :
    ∃ record : Record, clause.encode = record.build := by
  cases clause <;> rw [encode] <;> exact ⟨_, rfl⟩

/-- A condition that is read back fills a field. -/
theorem fills {clause : WhereClause} (decoded : decode clause.encode = .ok clause) :
    Fills decode clause.encode clause := by
  refine ⟨?_, decoded⟩
  obtain ⟨record, written⟩ := clause.encode_eq_build
  rw [written]
  rfl

end WhereClause

/-- A document that names a field is in the long form. -/
theorem Fields.isStrictClause_of_field {whole : Json} {fields : Fields whole} {field : String}
    (named : fields.entries.lookup "field" = some (.string field)) (nonempty : field ≠ "") :
    fields.isStrictClause = .ok true := by
  have read : fields.nonemptyString? "field" = .ok (some field) :=
    nonemptyString?_of_lookup named (by simpa using nonempty)
  rw [isStrictClause, read]
  rfl

/-- A document that is a logical combination is in the long form. -/
theorem Fields.isStrictClause_of_has {whole : Json} {fields : Fields whole}
    (unnamed : fields.entries.lookup "field" = none)
    (combined : (fields.has "and" || fields.has "or" || fields.has "not") = true) :
    fields.isStrictClause = .ok true := by
  have read : fields.nonemptyString? "field" = .ok none :=
    nonemptyString?_of_lookup unnamed nofun
  rw [isStrictClause, read]
  exact congrArg Except.ok combined

/-- A condition in the long form is read back from the fields that were written. -/
theorem WhereClause.decode_build {record : Record} {clause : WhereClause}
    (strict : (record.fields .whereClause).isStrictClause = .ok true)
    (combined : (record.fields .whereClause).Combined WhereClause.decode .all .any .not
      (record.fields .whereClause).fieldComparison clause) :
    WhereClause.decode record.build = .ok clause := by
  rw [WhereClause.decode_eq]
  simp only [Decoded.bind_eq_ok_iff]
  exact ⟨_, Record.of_build _ _, true, strict, Fields.combined_eq_ok_iff.mpr combined⟩

mutual

/-- A well-formed condition is read back if its fields have names. -/
theorem WhereClause.decode_encode : ∀ clause : WhereClause, clause.WellFormed →
    Leaf.AllStable clause.leaves → WhereClause.decode clause.encode = .ok clause
  | .compare field op value, given, stable => by
    have named : field ≠ "" := stable _ List.mem_cons_self
    rw [WhereClause.encode]
    refine WhereClause.decode_build (Fields.isStrictClause_of_field (by simp) named)
      (.plain_of_unwritten (by simp) (by simp) (by simp) ?_)
    simp only [Fields.fieldComparison, Decoded.bind_eq_ok_iff, Decoded.pure_eq_ok_iff]
    exact ⟨field, Fields.requiredString_of_lookup (by simp) named,
      some op, Fields.keyword?_of_lookup (by simp),
      value, Fills.optional (Operand.fills_of_givenOptional value given) (by simp), rfl⟩
  | .all items, wellFormed, stable => by
    have decoded := WhereClause.decodeAll_encodeAll items wellFormed stable
    rw [WhereClause.encode]
    exact WhereClause.decode_build (Fields.isStrictClause_of_has (by simp) rfl)
      (.all_of_lookup decoded (by simp))
  | .any items, wellFormed, stable => by
    have decoded := WhereClause.decodeAll_encodeAll items wellFormed stable
    rw [WhereClause.encode]
    exact WhereClause.decode_build (Fields.isStrictClause_of_has (by simp) rfl)
      (.any_of_lookup decoded (by simp) (by simp))
  | .not item, wellFormed, stable => by
    have fills := WhereClause.fills (WhereClause.decode_encode item wellFormed stable)
    rw [WhereClause.encode]
    refine WhereClause.decode_build (Fields.isStrictClause_of_has (by simp) ?_)
      (.not_of_lookup fills (by simp) (by simp) (by simp))
    exact (congrArg _ (fills.has (by simp))).trans (Bool.or_true _)

/-- A list of well-formed conditions is read back if their fields have names. -/
theorem WhereClause.decodeAll_encodeAll : ∀ items : List WhereClause,
    WhereClause.WellFormedAll items → Leaf.AllStable (WhereClause.leavesAll items) →
      List.Forall₂ (fun document item => WhereClause.decode document = .ok item)
        (WhereClause.encodeAll items) items
  | [], _, _ => .nil
  | item :: items, ⟨wellFormed, others⟩, stable => by
    obtain ⟨stableItem, stableOthers⟩ := List.forall_mem_append.mp stable
    exact .cons (WhereClause.decode_encode item wellFormed stableItem)
      (WhereClause.decodeAll_encodeAll items others stableOthers)

end

end GameRules
