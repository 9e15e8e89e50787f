import GameRules.Proofs.Where

/-!
# Comparisons with a field of no name

The long form of a condition on entities has to name a field, but an entry of a short form may have
the empty key. Such a comparison is written in the long form without a name to go by, so its
document is taken for a short form in its turn, with the keys of the long form as fields. Hence a
condition that was decoded is read back from its own document exactly when every field that it
compares has a name.
-/

namespace GameRules.WhereClause

/-- A short form of two entries or more is a conjunction. -/
theorem exists_all_of_decodeShorthand {first second : String × Json} {entries : Entries Json}
    {clause : WhereClause} (decoded : decodeShorthand (first :: second :: entries) = .ok clause) :
    ∃ clauses, clause = .all clauses := by
  simp only [decodeShorthand, shorthandEntries, Decoded.bind_eq_ok_iff, Decoded.pure_eq_ok_iff]
    at decoded
  obtain ⟨_, ⟨here, -, _, ⟨next, -, others, -, rfl⟩, rfl⟩, decoded⟩ := decoded
  cases Decoded.pure_eq_ok_iff.mp decoded
  exact ⟨_, rfl⟩

/-- The fields of a comparison without a name are not those of the long form. -/
theorem isStrictClause_of_nameless {whole : Json} {fields : Fields whole}
    (nameless : fields.entries.lookup "field" = some (.string ""))
    (unwrittenAnd : fields.entries.lookup "and" = none)
    (unwrittenOr : fields.entries.lookup "or" = none)
    (unwrittenNot : fields.entries.lookup "not" = none) :
    fields.isStrictClause = .ok false := by
  have unnamed : fields.nonemptyString? "field" = .ok none :=
    Fields.nonemptyString?_eq_ok_iff.mpr (.inr ⟨Fields.value?_of_lookup nameless rfl, rfl⟩)
  have hasNone (key : String) (unwritten : fields.entries.lookup key = none) :
      fields.has key = false := by
    rw [Fields.has, Fields.value?_of_unwritten unwritten]
    rfl
  rw [Fields.isStrictClause, unnamed]
  change Except.ok (false || fields.has "and" || fields.has "or" || fields.has "not") = _
  rw [hasNone "and" unwrittenAnd, hasNone "or" unwrittenOr, hasNone "not" unwrittenNot]
  rfl

/-- The document of a comparison without a name is read as a conjunction, if it is read at all. -/
theorem exists_all_of_nameless {op : CompareOp} {value : Option Operand} {clause : WhereClause}
    (decoded : decode (compare "" op value).encode = .ok clause) :
    ∃ clauses, clause = .all clauses := by
  rw [encode, decode_eq] at decoded
  obtain ⟨fields, same, decoded⟩ := Decoded.bind_eq_ok_iff.mp decoded
  cases Record.of_build _ _ ▸ same
  obtain ⟨strict, read, decoded⟩ := Decoded.bind_eq_ok_iff.mp decoded
  rw [isStrictClause_of_nameless (by simp) (by simp) (by simp) (by simp)] at read
  cases read
  cases value with
  | none => exact exists_all_of_decodeShorthand decoded
  | some value => exact exists_all_of_decodeShorthand decoded

/-- The document of a condition is not null. -/
theorem notNull_encode (clause : WhereClause) : clause.encode.isNull = false := by
  obtain ⟨record, encoded⟩ := clause.encode_eq_build
  rw [encoded]
  rfl

/-- The fields of a negation are those of the long form. -/
theorem isStrictClause_of_not (item : WhereClause) :
    ((Record.empty.field "not" item.encode).fields .whereClause).isStrictClause = .ok true := by
  obtain ⟨object, encoded⟩ := item.encode_eq_build
  rw [encoded]
  rfl

/-- A document in the long form is read as the conditions that its fields are read as. -/
theorem combined_of_decode_build {record : Record} {clause : WhereClause}
    (strict : (record.fields .whereClause).isStrictClause = .ok true)
    (decoded : decode record.build = .ok clause) :
    (record.fields .whereClause).Combined decode .all .any .not
      (record.fields .whereClause).fieldComparison clause := by
  rw [decode_eq] at decoded
  obtain ⟨fields, same, decoded⟩ := Decoded.bind_eq_ok_iff.mp decoded
  cases Record.of_build _ _ ▸ same
  obtain ⟨long, read, decoded⟩ := Decoded.bind_eq_ok_iff.mp decoded
  cases strict.symm.trans read
  exact Fields.combined_eq_ok_iff.mp decoded

/-- A plain condition is a comparison. -/
theorem exists_compare_of_fieldComparison {whole : Json} {fields : Fields whole}
    {clause : WhereClause} (decoded : fields.fieldComparison = .ok clause) :
    ∃ field op value, clause = compare field op value := by
  simp only [Fields.fieldComparison, Decoded.bind_eq_ok_iff, Decoded.pure_eq_ok_iff] at decoded
  obtain ⟨field, -, op, -, value, -, rfl⟩ := decoded
  exact ⟨_, _, _, rfl⟩

mutual

/-- A condition that is read back from its document compares only fields with names. -/
theorem stable_of_decode_encode : ∀ clause : WhereClause,
    decode clause.encode = .ok clause → Leaf.AllStable clause.leaves
  | .compare field op value, decoded => by
    intro leaf member
    cases List.mem_singleton.mp member
    rintro rfl
    obtain ⟨clauses, same⟩ := exists_all_of_nameless decoded
    cases same
  | .all items, decoded => by
    rw [encode] at decoded
    have combined := combined_of_decode_build (Fields.isStrictClause_of_has (by simp) rfl) decoded
    cases combined with
    | all given =>
      exact stableAll_of_decodeAll_encodeAll items
        ((Fields.combination?_iff_of_lookup (by simp)).mp given)
    | plain _ _ _ given =>
      obtain ⟨_, _, _, same⟩ := exists_compare_of_fieldComparison given
      cases same
  | .any items, decoded => by
    rw [encode] at decoded
    have combined := combined_of_decode_build (Fields.isStrictClause_of_has (by simp) rfl) decoded
    cases combined with
    | any _ given =>
      exact stableAll_of_decodeAll_encodeAll items
        ((Fields.combination?_iff_of_lookup (by simp)).mp given)
    | plain _ _ _ given =>
      obtain ⟨_, _, _, same⟩ := exists_compare_of_fieldComparison given
      cases same
  | .not item, decoded => by
    rw [encode] at decoded
    have combined := combined_of_decode_build (isStrictClause_of_not item) decoded
    cases combined with
    | not _ _ given =>
      have written :
          ((Record.empty.field "not" item.encode).fields .whereClause).entries.lookup "not" =
            (some item).map encode := by simp
      have read := (Fields.node?_iff_of_lookup written notNull_encode).mp given
      exact stable_of_decode_encode item (by simpa [Decoded.toOption_eq_some_iff] using read)
    | plain _ _ _ given =>
      obtain ⟨_, _, _, same⟩ := exists_compare_of_fieldComparison given
      cases same

/-- The conditions of a list that are read back compare only fields with names. -/
theorem stableAll_of_decodeAll_encodeAll : ∀ items : List WhereClause,
    List.Forall₂ (fun document item => decode document = .ok item) (encodeAll items) items →
      Leaf.AllStable (leavesAll items)
  | [], _ => List.forall_mem_nil _
  | item :: items, .cons first others =>
    List.forall_mem_append.mpr
      ⟨stable_of_decode_encode item first, stableAll_of_decodeAll_encodeAll items others⟩

end

mutual

/-- The leaves of a condition are the fields that it compares. -/
theorem exists_comparison_of_mem_leaves {leaf : Leaf} : ∀ clause : WhereClause,
    leaf ∈ clause.leaves → ∃ field, leaf = .comparison field
  | .compare field _ _, member => ⟨field, List.mem_singleton.mp member⟩
  | .all items, member => exists_comparison_of_mem_leavesAll items member
  | .any items, member => exists_comparison_of_mem_leavesAll items member
  | .not item, member => exists_comparison_of_mem_leaves item member

/-- The leaves of the conditions of a list are the fields that they compare. -/
theorem exists_comparison_of_mem_leavesAll {leaf : Leaf} : ∀ items : List WhereClause,
    leaf ∈ leavesAll items → ∃ field, leaf = .comparison field
  | item :: items, member =>
    (List.mem_append.mp member).elim (exists_comparison_of_mem_leaves item)
      (exists_comparison_of_mem_leavesAll items)

end

/-- The leaves of a condition are stable if none is a comparison without a name. -/
theorem allStable_iff_named {clause : WhereClause} :
    Leaf.AllStable clause.leaves ↔ Leaf.comparison "" ∉ clause.leaves := by
  constructor
  · intro stable nameless
    exact stable _ nameless rfl
  · intro named leaf member
    obtain ⟨field, rfl⟩ := exists_comparison_of_mem_leaves clause member
    rintro rfl
    exact named member

/-- A condition that was decoded is read back from its own document exactly when no comparison in
it, at any depth, is without the name of a field. -/
theorem decode_encode_iff_named {document : Json} {clause : WhereClause}
    (decoded : decode document = .ok clause) :
    decode clause.encode = .ok clause ↔ Leaf.comparison "" ∉ clause.leaves := by
  rw [← allStable_iff_named]
  exact ⟨stable_of_decode_encode clause, decode_encode clause (wellFormed_of_decode decoded)⟩

/-- A short form of two entries is read back as the conjunction that it stands for. -/
theorem decode_encode_iff_named_hiddenTeam :
    decode (.object [("hidden", .bool true), ("team", .int 1)]) =
        .ok (.all [.compare "hidden" .equal (some (.literal (.bool true))),
          .compare "team" .equal (some (.literal (.int 1)))]) ∧
      decode (encode (.all [.compare "hidden" .equal (some (.literal (.bool true))),
          .compare "team" .equal (some (.literal (.int 1)))])) =
        .ok (.all [.compare "hidden" .equal (some (.literal (.bool true))),
          .compare "team" .equal (some (.literal (.int 1)))]) := by
  have hidden : Operand.decode (.bool true) = .ok (.literal (.bool true)) :=
    Json.IsConstant.decode ⟨rfl, nofun⟩
  have team : Operand.decode (.int 1) = .ok (.literal (.int 1)) :=
    Json.IsConstant.decode ⟨rfl, nofun⟩
  have decoded : decode (.object [("hidden", .bool true), ("team", .int 1)]) =
      .ok (.all [.compare "hidden" .equal (some (.literal (.bool true))),
        .compare "team" .equal (some (.literal (.int 1)))]) := by
    rw [decode_eq]
    show decodeShorthand [("hidden", .bool true), ("team", .int 1)] = _
    simp only [decodeShorthand, shorthandEntries, shorthandEntry, shorthandValue, hidden, team]
    rfl
  exact ⟨decoded, (decode_encode_iff_named decoded).mpr (by simp [leaves, leavesAll])⟩

/-- A short form with the empty key is accepted, but what it stands for is not read back. -/
theorem decode_encode_nameless :
    decode (.object [("", .int 5)]) = .ok (.compare "" .equal (some (.literal (.int 5)))) ∧
      decode (encode (.compare "" .equal (some (.literal (.int 5))))) ≠
        .ok (.compare "" .equal (some (.literal (.int 5)))) := by
  have five : Operand.decode (.int 5) = .ok (.literal (.int 5)) :=
    Json.IsConstant.decode ⟨rfl, nofun⟩
  constructor
  · rw [decode_eq]
    show decodeShorthand [("", .int 5)] = _
    simp only [decodeShorthand, shorthandEntries, shorthandEntry, shorthandValue, five]
    rfl
  · intro decoded
    obtain ⟨clauses, same⟩ := exists_all_of_nameless decoded
    cases same

end GameRules.WhereClause
