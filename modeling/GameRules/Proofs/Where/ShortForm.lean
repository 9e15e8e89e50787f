import GameRules.Proofs.Document.Agreement
import GameRules.Proofs.Document.Failure
import GameRules.Proofs.Where

/-!
# Short forms stand for long forms

An object without the keys of the long form is a short form. An entry with a value is the comparison
for equality with that value, an entry with a mapping from an operator is the comparison by that
operator, and no other entry is accepted. Several entries are the conjunction of what each of them is
on its own; the first one that fails, in the order of keys, decides the error.
-/

namespace GameRules.WhereClause

/-- A key that an entry of a short form may have without being taken for a part of the long form. -/
def ShortKey (key : String) : Prop := key ≠ "" ∧ key ∉ ["field", "and", "or", "not"]

instance (key : String) : Decidable (ShortKey key) := inferInstanceAs (Decidable (_ ∧ _))

/-- The long form of a comparison. -/
def longForm (field operator : String) (value : Json) : Json :=
  .object [("field", .string field), ("op", .string operator), ("value", value)]

/-- The value of a comparison, at the position where it is written; null compares with nothing. -/
def valueAt (position : Position) (document : Json) : Decoded (Option Operand) :=
  if document.isNull then .ok none else some <$> Decoded.inside position (Operand.decode document)

/-- Where the value of a comparison is written does not matter to what it is like. -/
theorem alike_valueAt (here there : Position) (document : Json) :
    Decoded.Alike (valueAt here document) (valueAt there document) := by
  unfold valueAt
  split
  · rfl
  · exact (Decoded.alike_inside here there _).map some

/-- A value that was written into a field is decoded at the position of the field. -/
theorem node?_of_written {whole value : Json} {fields : Fields whole} {key : String}
    (written : fields.entries.lookup key = some value) :
    fields.node? key (fun part _ => Operand.decode part) = valueAt (.field key) value := by
  rw [Fields.node?_eq, valueAt]
  by_cases null : value.isNull = true
  · have absent : fields.value? key = none := by
      rw [Fields.value?, written]
      simp [null]
    rw [absent, if_pos null]
  · have given : fields.value? key = some value :=
      Fields.value?_of_lookup written ((Bool.not_eq_true _).mp null)
    rw [given, if_neg null]

/-- The long form of a comparison with a known operator is decoded to that comparison. -/
theorem decode_longForm {field operator : String} {op : CompareOp} (named : field ≠ "")
    (known : Keyword.parse? operator = some op) (value : Json) :
    decode (longForm field operator value) = compare field op <$> valueAt (.field "value") value := by
  have opened : ∃ fields : Fields (longForm field operator value),
      Fields.of .whereClause (longForm field operator value) = .ok fields ∧
        fields.entries = [("field", .string field), ("op", .string operator), ("value", value)] :=
    ⟨_, rfl, rfl⟩
  obtain ⟨fields, opened, entries⟩ := opened
  have strict : fields.isStrictClause = .ok true :=
    Fields.isStrictClause_of_field (by rw [entries]; rfl) named
  have notAll : fields.combination? "and" (fun part _ => decode part) = .ok none :=
    Fields.combination?_of_unwritten (by rw [entries]; rfl)
  have notAny : fields.combination? "or" (fun part _ => decode part) = .ok none :=
    Fields.combination?_of_unwritten (by rw [entries]; rfl)
  have notNot : fields.node? "not" (fun part _ => decode part) = .ok none :=
    Fills.absent (by rw [entries]; rfl)
  have fieldRead : fields.requiredString "field" = .ok field :=
    Fields.requiredString_of_lookup (by rw [entries]; rfl) named
  have opRead : fields.keyword? "op" = .ok (some op) := by
    have given : fields.value? "op" = some (.string operator) :=
      Fields.value?_of_lookup (by rw [entries]; rfl) rfl
    exact Fields.keyword?_eq_ok_iff.mpr (.inr ⟨operator, op, given, known, rfl⟩)
  have valueRead : fields.node? "value" (fun part _ => Operand.decode part) =
      valueAt (.field "value") value := node?_of_written (by rw [entries]; rfl)
  have plain : fields.fieldComparison = compare field op <$> valueAt (.field "value") value := by
    rw [Fields.fieldComparison, fieldRead, opRead, valueRead]
    rfl
  rw [decode_eq, opened]
  show (fields.isStrictClause >>= _) = _
  rw [strict]
  show fields.combined decode .all .any .not fields.fieldComparison = _
  rw [Fields.combined, notAll, notAny, notNot]
  exact plain

/-- Nothing is found under a key of the long form in a short form. -/
theorem lookup_eq_none {entries : Entries Json} (short : ∀ entry ∈ entries, ShortKey entry.1)
    {key : String} (reserved : key ∈ ["field", "and", "or", "not"]) : entries.lookup key = none := by
  rw [List.lookup_eq_none_iff]
  intro entry member
  rw [bne_iff_ne]
  rintro rfl
  exact (short entry member).2 reserved

/-- An object without the keys of the long form is decoded entry by entry. -/
theorem decode_of_short {entries : Entries Json} (short : ∀ entry ∈ entries, ShortKey entry.1) :
    decode (.object entries) = decodeShorthand entries := by
  have opened : ∃ fields : Fields (.object entries),
      Fields.of .whereClause (.object entries) = .ok fields ∧ fields.entries = entries :=
    ⟨_, rfl, rfl⟩
  obtain ⟨fields, opened, same⟩ := opened
  have absent (key : String) (reserved : key ∈ ["field", "and", "or", "not"]) :
      fields.value? key = none :=
    Fields.value?_of_unwritten (by rw [same]; exact lookup_eq_none short reserved)
  have unnamed : fields.nonemptyString? "field" = .ok none :=
    Fields.nonemptyString?_eq_ok_iff.mpr (.inl ⟨absent "field" (by simp), nofun⟩)
  have notStrict : fields.isStrictClause = .ok false := by
    rw [Fields.isStrictClause, unnamed]
    show Except.ok (false || fields.has "and" || fields.has "or" || fields.has "not") = _
    rw [Fields.has, Fields.has, Fields.has, absent "and" (by simp), absent "or" (by simp),
      absent "not" (by simp)]
    rfl
  rw [decode_eq, opened]
  show (fields.isStrictClause >>= _) = _
  rw [notStrict]
  show decodeShorthand fields.entries = _
  rw [same]

/-- An entry on its own is decoded as an entry of a short form. -/
theorem decode_of_entry {key : String} (short : ShortKey key) (value : Json) :
    decode (.object [(key, value)]) = shorthandEntry key value := by
  rw [decode_of_short (List.forall_mem_singleton.mpr short), decodeShorthand, shorthandEntries]
  cases shorthandEntry key value with
  | error error => rfl
  | ok clause => rfl

/-- The entries of a short form are decoded one after the other, each as if it were on its own. -/
theorem shorthandEntries_eq_mapM {entries : Entries Json}
    (short : ∀ entry ∈ entries, ShortKey entry.1) :
    shorthandEntries entries = entries.mapM fun entry => decode (.object [entry]) := by
  induction entries with
  | nil => rfl
  | cons entry entries ih =>
    obtain ⟨shortFirst, shortOthers⟩ := List.forall_mem_cons.mp short
    rw [shorthandEntries, List.mapM_cons, decode_of_entry shortFirst entry.2, ih shortOthers]

/-- Several entries are decoded to the conjunction of what each of them is on its own. -/
theorem decode_of_entries {entries : Entries Json} (short : ∀ entry ∈ entries, ShortKey entry.1)
    (several : 2 ≤ entries.length) :
    decode (.object entries) = .all <$> entries.mapM fun entry => decode (.object [entry]) := by
  rw [decode_of_short short, decodeShorthand, shorthandEntries_eq_mapM short]
  cases read : entries.mapM fun entry => decode (.object [entry]) with
  | error error => rfl
  | ok clauses =>
    have length : entries.length = clauses.length := (Decoded.mapM_eq_ok_iff.mp read).length_eq
    cases clauses with
    | nil =>
      rw [List.length_nil] at length
      omega
    | cons first others =>
      cases others with
      | nil =>
        rw [List.length_singleton] at length
        omega
      | cons second others => rfl

/-- Every entry of a short form with several is decoded on its own, and the whole is their conjunction;
or one of them fails and all with smaller keys are decoded, and the whole fails like that entry. -/
theorem decode_of_ordered {entries : Entries Json} (ordered : Entries.Ordered entries)
    (short : ∀ entry ∈ entries, ShortKey entry.1) (several : 2 ≤ entries.length) :
    (∃ clauses, List.Forall₂ (fun entry clause => decode (.object [entry]) = .ok clause) entries
        clauses ∧ decode (.object entries) = .ok (.all clauses)) ∨
      ∃ entry ∈ entries, ∃ error, decode (.object [entry]) = .error error ∧
        (∀ earlier ∈ entries, earlier.1 < entry.1 →
          ∃ clause, decode (.object [earlier]) = .ok clause) ∧
        decode (.object entries) = .error error := by
  rw [decode_of_entries short several]
  cases read : entries.mapM fun entry => decode (.object [entry]) with
  | ok clauses => exact .inl ⟨clauses, Decoded.mapM_eq_ok_iff.mp read, rfl⟩
  | error error =>
    obtain ⟨front, entry, back, rfl, clear, failed⟩ := Decoded.mapM_eq_error_iff.mp read
    have after := (List.pairwise_append.mp ordered).2.1
    have greater := (List.pairwise_cons.mp after).1
    refine .inr ⟨entry, by simp, error, failed, fun earlier member smaller => ?_, rfl⟩
    rcases List.mem_append.mp member with before | behind
    · exact clear earlier before
    · -- Neither the entry itself nor one behind it has a smaller key.
      rcases List.mem_cons.mp behind with rfl | behind
      · exact absurd smaller (String.lt_irrefl _)
      · exact absurd smaller (String.lt_asymm (greater earlier behind))

/-- An entry with anything but a mapping from one operator is refused as ambiguous. -/
theorem exists_ambiguity {key : String} {inner : Entries Json} (short : ShortKey key)
    (noOperator : ∀ operator value, inner = [(operator, value)] →
      Keyword.isWord CompareOp operator = false) :
    ∃ ambiguity, decode (.object [(key, .object inner)]) =
      Decoded.fail (.ambiguous .whereClause ambiguity) := by
  rw [decode_of_entry short]
  match inner with
  | [] => exact ⟨.emptyEntry key, rfl⟩
  | [(operator, value)] =>
    have unknown : (Keyword.parse? operator : Option CompareOp) = none := by
      simpa [Keyword.isWord] using noOperator operator value rfl
    refine ⟨.notAnOperator key operator, ?_⟩
    rw [shorthandEntry, unknown]
  | first :: second :: others => exact ⟨.manyKeys key _, rfl⟩

/-- Short forms stand for long forms. An entry with a value that is no mapping is like the comparison
for equality with it, and an entry with a mapping from an operator, in any spelling, is like the
comparison by it: the same condition, or the same fault. Any other entry is refused as ambiguous, as is
the object without entries. Several entries are the conjunction of what they are on their own, or fail
like the first of them that fails, in the order of their keys. -/
theorem decode_shortForm :
    (∀ key value, ShortKey key → (∀ inner, value ≠ .object inner) →
      Decoded.Alike (decode (.object [(key, value)])) (decode (longForm key "==" value))) ∧
    (∀ key operator value, ShortKey key → Keyword.isWord CompareOp operator = true →
      Decoded.Alike (decode (.object [(key, .object [(operator, value)])]))
        (decode (longForm key operator value))) ∧
    (∀ key inner, ShortKey key →
      (∀ operator value, inner = [(operator, value)] →
        Keyword.isWord CompareOp operator = false) →
      ∃ ambiguity, decode (.object [(key, .object inner)]) =
        Decoded.fail (.ambiguous .whereClause ambiguity)) ∧
    decode (.object []) = Decoded.fail (.ambiguous .whereClause .emptyMapping) ∧
    ∀ entries, Entries.Ordered entries → (∀ entry ∈ entries, ShortKey entry.1) →
      2 ≤ entries.length →
      (∃ clauses, List.Forall₂ (fun entry clause => decode (.object [entry]) = .ok clause) entries
          clauses ∧ decode (.object entries) = .ok (.all clauses)) ∨
        ∃ entry ∈ entries, ∃ error, decode (.object [entry]) = .error error ∧
          (∀ earlier ∈ entries, earlier.1 < entry.1 →
            ∃ clause, decode (.object [earlier]) = .ok clause) ∧
          decode (.object entries) = .error error := by
  refine ⟨fun key value short noMapping => ?_, fun key operator value short known => ?_,
    fun key inner => exists_ambiguity, ?_, fun entries => decode_of_ordered⟩
  · have entry : shorthandEntry key value =
        compare key .equal <$> valueAt (.named "where" key) value := by
      cases value with
      | object inner => exact absurd rfl (noMapping inner)
      | _ => rfl
    rw [decode_of_entry short, entry, decode_longForm short.1 rfl]
    exact (alike_valueAt _ _ value).map _
  · obtain ⟨op, parsed⟩ := Option.isSome_iff_exists.mp known
    have entry : shorthandEntry key (.object [(operator, value)]) =
        compare key op <$> valueAt (.named "where" key) value := by
      rw [shorthandEntry, parsed]
      rfl
    rw [decode_of_entry short, entry, decode_longForm short.1 parsed]
    exact (alike_valueAt _ _ value).map _
  · rw [decode_of_short (List.forall_mem_nil _)]
    rfl

/-- An alias of an operator is decoded from a short form as from the long form, and a mapping from two
operators is refused. -/
theorem decode_shortForm_health :
    decode (.object [("health", .object [("lt", .int 10)])]) =
        .ok (.compare "health" .less (some (.literal (.int 10)))) ∧
      decode (longForm "health" "lt" (.int 10)) =
        .ok (.compare "health" .less (some (.literal (.int 10)))) ∧
      ∃ ambiguity, decode (.object [("health", .object [("<", .int 10), (">", .int 1)])]) =
        Decoded.fail (.ambiguous .whereClause ambiguity) := by
  have ten : Operand.decode (.int 10) = .ok (.literal (.int 10)) :=
    Json.IsConstant.decode ⟨rfl, nofun⟩
  have short : ShortKey "health" := by decide
  have long : decode (longForm "health" "lt" (.int 10)) =
      .ok (.compare "health" .less (some (.literal (.int 10)))) := by
    rw [decode_longForm short.1 (by decide : Keyword.parse? "lt" = some CompareOp.less)]
    rw [valueAt, ten]
    rfl
  obtain ⟨-, byOperator, ambiguous, -⟩ := decode_shortForm
  have alike := byOperator "health" "lt" (.int 10) short (by decide)
  rw [long] at alike
  exact ⟨alike.eq_ok, long, ambiguous "health" _ short (by simp)⟩

end GameRules.WhereClause
