import GameRules.Proofs.Nesting.Document
import GameRules.Proofs.Where

/-!
# How deep values and conditions are written

A value is written as deep as it was read, but for a condition in it that was given as a text: it
becomes a comparison, which is one level deep. A condition on entities in the short form may become
two levels deeper: its comparisons are written in full, and if there are several of them, in a list
of an object.
-/

namespace GameRules

/-- The documents of a list of operands are those of its members. -/
theorem Operand.encodeAll_eq_map (values : List Operand) :
    Operand.encodeAll values = values.map Operand.encode := by
  induction values with
  | nil => rfl
  | cons value values ih => rw [Operand.encodeAll, ih, List.map_cons]

/-- The documents of a list of conditions are those of its members. -/
theorem Expression.encodeAll_eq_map (items : List Expression) :
    Expression.encodeAll items = items.map Expression.encode := by
  induction items with
  | nil => rfl
  | cons item items ih => rw [Expression.encodeAll, ih, List.map_cons]

/-- The documents of a list of conditions on entities are those of its members. -/
theorem WhereClause.encodeAll_eq_map (items : List WhereClause) :
    WhereClause.encodeAll items = items.map WhereClause.encode := by
  induction items with
  | nil => rfl
  | cons item items ih => rw [WhereClause.encodeAll, ih, List.map_cons]

open Record

section Parts

variable {document : Json} {depth : Nat} (sound : document.Sound depth)
  (operands : ∀ less, depth = less + 1 → Deepens 1 less Operand.decode Operand.encode)
  (conditions : ∀ less, depth = less + 1 → Deepens 1 less Expression.decode Expression.encode)
include sound operands conditions

/-- A computation is written at most one level deeper if what it is made of is. -/
theorem Transform.sound_encode_of_parts {transform : Transform}
    (decoded : Transform.decode document = .ok transform) :
    transform.encode.Sound (depth + 1) := by
  rw [Transform.decode] at decoded
  simp only [Decoded.bind_eq_ok_iff] at decoded
  obtain ⟨untyped, readFields, word, -, kind, -, decoded⟩ := decoded
  obtain ⟨less, rfl, within⟩ := Fields.within_forKind_of readFields sound word
  replace operands := operands less rfl
  replace conditions := conditions less rfl
  have required {key operand} (read : (untyped.forKind word).requiredNode key
      (fun part _ => Operand.decode part) = .ok operand) := operands.requiredNode within read
  have optional {key operand} (read : (untyped.forKind word).node? key
      (fun part _ => Operand.decode part) = .ok operand) := operands.node? within read
  have listed {key label values} (read : (untyped.forKind word).list key label
      (fun part _ => Operand.decode part) = .ok values) := operands.list within Nat.one_pos read
  cases kind <;> simp only [Decoded.bind_eq_ok_iff, Decoded.pure_eq_ok_iff] at decoded
  case binary op =>
    obtain ⟨left, readLeft, right, readRight, rfl⟩ := decoded
    rw [Transform.encode]
    exact sound_build <| within_field
      (within_field within_typed (required readLeft)) (required readRight)
  case unary op =>
    obtain ⟨value, read, rfl⟩ := decoded
    rw [Transform.encode]
    exact sound_build <| within_field within_typed (required read)
  case variadic op =>
    obtain ⟨_, -, values, read, rfl⟩ := decoded
    rw [Transform.encode, Operand.encodeAll_eq_map]
    exact sound_build <| within_list within_typed (listed read)
  case clamp =>
    obtain ⟨value, readValue, lower, readLower, upper, readUpper, rfl⟩ := decoded
    rw [Transform.encode]
    exact sound_build <| within_field (within_field
      (within_field within_typed (required readValue)) (required readLower)) (required readUpper)
  case lerp =>
    obtain ⟨start, readStart, finish, readFinish, fraction, readFraction, rfl⟩ := decoded
    rw [Transform.encode]
    exact sound_build <| within_field (within_field
      (within_field within_typed (required readStart)) (required readFinish)) (required readFraction)
  case moveTowards =>
    obtain ⟨current, readCurrent, target, readTarget, speed, readSpeed, rfl⟩ := decoded
    rw [Transform.encode]
    exact sound_build <| within_field (within_field
      (within_field within_typed (required readCurrent)) (required readTarget)) (required readSpeed)
  case random =>
    obtain ⟨lower, readLower, upper, readUpper, rfl⟩ := decoded
    rw [Transform.encode, Operand.encodeOptional_eq_map, Operand.encodeOptional_eq_map]
    exact sound_build <| within_optional
      (within_optional within_typed (optional readLower)) (optional readUpper)
  case gpsDistance =>
    obtain ⟨start, readStart, finish, readFinish, unit, -, rfl⟩ := decoded
    rw [Transform.encode]
    exact sound_build <| within_optionalKeyword <| within_field
      (within_field within_typed (required readStart)) (required readFinish)
  case gpsBearing =>
    obtain ⟨start, readStart, finish, readFinish, rfl⟩ := decoded
    rw [Transform.encode]
    exact sound_build <| within_field
      (within_field within_typed (required readStart)) (required readFinish)
  case gpsMoveTowards =>
    obtain ⟨current, readCurrent, target, readTarget, speed, readSpeed, unit, -, rfl⟩ := decoded
    rw [Transform.encode]
    exact sound_build <| within_optionalKeyword <| within_field (within_field
      (within_field within_typed (required readCurrent)) (required readTarget)) (required readSpeed)
  case pointInPolygon =>
    obtain ⟨point, readPoint, polygon, readPolygon, rfl⟩ := decoded
    rw [Transform.encode]
    exact sound_build <| within_field
      (within_field within_typed (required readPoint)) (required readPolygon)
  case format =>
    obtain ⟨format, readFormat, values, readValues, rfl⟩ := decoded
    rw [Transform.encode, Operand.encodeAll_eq_map]
    exact sound_build <| within_nonemptyList
      (within_field within_typed (required readFormat)) (listed readValues)
  case choose =>
    obtain ⟨condition, readCondition, consequent, readConsequent, alternative, readAlternative,
      rfl⟩ := decoded
    rw [Transform.encode, Operand.encodeOptional_eq_map]
    exact sound_build <| within_optional (within_field
      (within_field within_typed (conditions.requiredNode within readCondition))
        (required readConsequent)) (optional readAlternative)
  case now =>
    subst decoded
    rw [Transform.encode]
    exact sound_build within_typed
  case addDuration =>
    obtain ⟨value, readValue, duration, readDuration, rfl⟩ := decoded
    rw [Transform.encode]
    exact sound_build <| within_field
      (within_field within_typed (required readValue)) (required readDuration)
  case uuid =>
    subst decoded
    rw [Transform.encode]
    exact sound_build within_typed

omit operands conditions in
/-- An operand is written at most one level deeper if the computation in it is. -/
theorem Operand.sound_encode_of_transform {operand : Operand}
    (transforms : ∀ transform, Transform.decode document = .ok transform →
      transform.encode.Sound (depth + 1))
    (decoded : Operand.decode document = .ok operand) : operand.encode.Sound (depth + 1) := by
  rw [Operand.decode.eq_def] at decoded
  split at decoded
  · rename_i text
    split at decoded
    · cases decoded
      exact Json.sound_string text _
    · cases decoded
      exact Json.sound_string text _
  · split at decoded
    · obtain ⟨transform, read, rfl⟩ := Decoded.map_eq_ok_iff.mp decoded
      exact transforms transform read
    · cases decoded
      exact sound.mono (Nat.le_succ depth)

/-- A condition is written at most one level deeper if what it is made of is. -/
theorem Expression.sound_encode_of_parts {condition : Expression}
    (decoded : Expression.decode document = .ok condition) :
    condition.encode.Sound (depth + 1) := by
  by_cases isText : ∃ text, document = .string text
  · -- A text becomes a comparison of its value with nothing.
    obtain ⟨text, rfl⟩ := isText
    have compared (operand : Operand) (written : operand.encode = .string text) :
        (Expression.truthy operand).encode.Sound (depth + 1) := by
      rw [Expression.truthy, Expression.encode, written]
      exact sound_build (within_field within_empty (Json.sound_string text depth))
    rw [Expression.decode] at decoded
    split at decoded
    · cases decoded
      exact compared (.literal (.string text)) rfl
    · cases decoded
      exact compared (.path ⟨text⟩) rfl
  · rw [Expression.decode_of_not_text (not_exists.mp isText)] at decoded
    obtain ⟨fields, readFields, decoded⟩ := Decoded.bind_eq_ok_iff.mp decoded
    obtain ⟨less, rfl, within⟩ := Fields.within_of readFields sound
    replace operands := operands less rfl
    replace conditions := conditions less rfl
    cases Fields.combined_eq_ok_iff.mp decoded with
    | all given =>
      rw [Expression.encode, Expression.encodeAll_eq_map]
      exact sound_build (within_list within_empty (conditions.combination? within given))
    | any _ given =>
      rw [Expression.encode, Expression.encodeAll_eq_map]
      exact sound_build (within_list within_empty (conditions.combination? within given))
    | not _ _ given =>
      rw [Expression.encode]
      exact sound_build (within_field within_empty (conditions.node? within given _ rfl))
    | plain _ _ _ given =>
      unfold Fields.valueComparison at given
      split at given
      · simp only [Decoded.bind_eq_ok_iff, Decoded.pure_eq_ok_iff] at given
        obtain ⟨left, readLeft, op, -, right, readRight, rfl⟩ := given
        rw [Expression.encode, Operand.encodeOptional_eq_map]
        exact sound_build <| within_optional (within_optionalKeyword
          (within_field within_empty (operands.requiredNode within readLeft)))
            (operands.node? within readRight)
      · exact absurd given Decoded.fail_ne_ok

end Parts

/-- Operands, computations and conditions are written at most one level deeper than they were read. -/
theorem Operand.deepens_parts (bound : Nat) :
    Deepens 1 bound Operand.decode Operand.encode ∧
      Deepens 1 bound Transform.decode Transform.encode ∧
        Deepens 1 bound Expression.decode Expression.encode := by
  -- The parts of an object are nested less deep than it, so the induction is on the depth.
  induction bound using Nat.strongRecOn with
  | _ bound ih =>
    have operands (depth : Nat) (inBound : depth ≤ bound) (less : Nat) (deep : depth = less + 1) :
        Deepens 1 less Operand.decode Operand.encode := (ih less (by omega)).1
    have conditions (depth : Nat) (inBound : depth ≤ bound) (less : Nat) (deep : depth = less + 1) :
        Deepens 1 less Expression.decode Expression.encode := (ih less (by omega)).2.2
    have transforms : Deepens 1 bound Transform.decode Transform.encode :=
      fun depth inBound _ sound _ => Transform.sound_encode_of_parts sound
        (operands depth inBound) (conditions depth inBound)
    refine ⟨fun depth inBound document sound _ => ?_, transforms,
      fun depth inBound document sound _ => ?_⟩
    · exact Operand.sound_encode_of_transform sound (transforms depth inBound document sound)
    · exact Expression.sound_encode_of_parts sound (operands depth inBound)
        (conditions depth inBound)

/-- Operands are written at most one level deeper than they were read. -/
theorem Operand.deepens (depth : Nat) {extra : Nat} (positive : 0 < extra) :
    Deepens extra depth Operand.decode Operand.encode :=
  (Operand.deepens_parts depth).1.weaken positive

/-- Computations are written at most one level deeper than they were read. -/
theorem Transform.deepens (depth : Nat) {extra : Nat} (positive : 0 < extra) :
    Deepens extra depth Transform.decode Transform.encode :=
  (Operand.deepens_parts depth).2.1.weaken positive

/-- Conditions are written at most one level deeper than they were read. -/
theorem Expression.deepens (depth : Nat) {extra : Nat} (positive : 0 < extra) :
    Deepens extra depth Expression.decode Expression.encode :=
  (Operand.deepens_parts depth).2.2.weaken positive

/-- What is no object is no computation, and it is written as deep as it was read. -/
theorem Operand.sound_encode_of_not_object {document : Json} {operand : Operand} {depth : Nat}
    (sound : document.Sound depth) (notObject : ∀ entries, document ≠ .object entries)
    (decoded : Operand.decode document = .ok operand) : operand.encode.Sound depth := by
  rw [Operand.decode.eq_def] at decoded
  split at decoded
  · rename_i text
    split at decoded
    · cases decoded
      exact Json.sound_string text depth
    · cases decoded
      exact Json.sound_string text depth
  · split at decoded
    · rename_i computation
      unfold Json.namesTransform at computation
      split at computation
      · exact absurd rfl (notObject _)
      · cases computation
    · cases decoded
      exact sound

namespace WhereClause

variable {depth : Nat}

/-- A comparison with a value is one level deeper than the value. -/
theorem sound_compare {field : String} {op : CompareOp} {value : Option Operand}
    (sound : ∀ written ∈ value.map Operand.encode, written.Sound depth) :
    (compare field op value).encode.Sound (depth + 1) := by
  rw [encode]
  exact sound_build (within_optional (within_keyword (within_text within_empty)) sound)

/-- The value of a short form is written as deep as an operand. -/
theorem sound_shorthandValue {field : String} {document : Json} {value : Option Operand}
    (operands : ∀ operand, Operand.decode document = .ok operand → operand.encode.Sound depth)
    (decoded : shorthandValue field document = .ok value) :
    ∀ written ∈ value.map Operand.encode, written.Sound depth := by
  intro written member
  obtain ⟨operand, rfl, rfl⟩ := Option.map_eq_some_iff.mp member
  unfold shorthandValue at decoded
  split at decoded
  · cases decoded
  · obtain ⟨_, read, same⟩ := Decoded.map_eq_ok_iff.mp decoded
    cases same
    exact operands operand (Decoded.inside_eq_ok_iff.mp read)

/-- An entry of a short form is written one level deeper, like an object that holds it. -/
theorem sound_shorthandEntry {field : String} {document : Json} {clause : WhereClause}
    (sound : document.Sound depth) (decoded : shorthandEntry field document = .ok clause) :
    clause.encode.Sound (depth + 1) := by
  unfold shorthandEntry at decoded
  split at decoded
  · exact absurd decoded Decoded.fail_ne_ok
  · split at decoded
    · exact absurd decoded Decoded.fail_ne_ok
    · -- The object around the operator is given up, which makes up for a level in the value.
      obtain ⟨value, read, rfl⟩ := Decoded.map_eq_ok_iff.mp decoded
      obtain ⟨less, rfl, -, inside⟩ := Json.sound_object_iff.mp sound
      refine sound_compare (sound_shorthandValue (fun operand readOperand => ?_) read)
      exact Operand.deepens less Nat.one_pos less (Nat.le_refl less) _
        (inside _ List.mem_cons_self) operand readOperand
  · exact absurd decoded Decoded.fail_ne_ok
  · rename_i notEmpty notOne notMany
    obtain ⟨value, read, rfl⟩ := Decoded.map_eq_ok_iff.mp decoded
    refine sound_compare (sound_shorthandValue (fun operand => ?_) read)
    exact Operand.sound_encode_of_not_object sound notMany

/-- The entries of a short form are written one level deeper. -/
theorem sound_shorthandEntries {entries : Entries Json} {clauses : List WhereClause}
    (sound : ∀ entry ∈ entries, entry.2.Sound depth)
    (decoded : shorthandEntries entries = .ok clauses) :
    ∀ clause ∈ clauses, clause.encode.Sound (depth + 1) := by
  induction entries generalizing clauses with
  | nil =>
    cases decoded
    exact List.forall_mem_nil _
  | cons entry entries ih =>
    obtain ⟨field, document⟩ := entry
    obtain ⟨soundFirst, soundOthers⟩ := List.forall_mem_cons.mp sound
    simp only [shorthandEntries, Decoded.bind_eq_ok_iff, Decoded.pure_eq_ok_iff] at decoded
    obtain ⟨first, readFirst, others, readOthers, rfl⟩ := decoded
    exact List.forall_mem_cons.mpr
      ⟨sound_shorthandEntry soundFirst readFirst, ih soundOthers readOthers⟩

/-- A short form is written at most two levels deeper than the object that it is. -/
theorem sound_decodeShorthand {entries : Entries Json} {clause : WhereClause}
    (within : entries.Within depth) (decoded : decodeShorthand entries = .ok clause) :
    clause.encode.Sound (depth + 3) := by
  simp only [decodeShorthand, Decoded.bind_eq_ok_iff] at decoded
  obtain ⟨clauses, read, decoded⟩ := decoded
  have sound := sound_shorthandEntries within.sound read
  split at decoded
  · exact absurd decoded Decoded.fail_ne_ok
  · cases Decoded.pure_eq_ok_iff.mp decoded
    exact (sound clause List.mem_cons_self).mono (by omega)
  · -- Several comparisons stand in a list of an object.
    cases Decoded.pure_eq_ok_iff.mp decoded
    rw [encode, encodeAll_eq_map]
    exact sound_build (within_list within_empty (Json.sound_array (List.forall_mem_map.mpr sound)))

/-- A condition is written at most two levels deeper if what it is made of is. -/
theorem sound_encode_of_parts {document : Json} {clause : WhereClause}
    (sound : document.Sound depth)
    (parts : ∀ less, depth = less + 1 → Deepens 2 less decode encode)
    (decoded : decode document = .ok clause) : clause.encode.Sound (depth + 2) := by
  rw [decode_eq] at decoded
  simp only [Decoded.bind_eq_ok_iff] at decoded
  obtain ⟨fields, readFields, strict, -, decoded⟩ := decoded
  obtain ⟨less, rfl, within⟩ := Fields.within_of readFields sound
  replace parts := parts less rfl
  cases strict with
  | false => exact sound_decodeShorthand within decoded
  | true =>
    cases Fields.combined_eq_ok_iff.mp decoded with
    | all given =>
      rw [encode, encodeAll_eq_map]
      exact sound_build (within_list within_empty (parts.combination? within given))
    | any _ given =>
      rw [encode, encodeAll_eq_map]
      exact sound_build (within_list within_empty (parts.combination? within given))
    | not _ _ given =>
      rw [encode]
      exact sound_build (within_field within_empty (parts.node? within given _ rfl))
    | plain _ _ _ given =>
      simp only [Fields.fieldComparison, Decoded.bind_eq_ok_iff, Decoded.pure_eq_ok_iff] at given
      obtain ⟨field, -, op, -, value, readValue, rfl⟩ := given
      exact sound_compare ((Operand.deepens less Nat.two_pos).node? within readValue)

/-- Conditions on entities are written at most two levels deeper than they were read. -/
theorem deepens (bound : Nat) : Deepens 2 bound decode encode := by
  induction bound using Nat.strongRecOn with
  | _ bound ih =>
    intro depth inBound document sound clause decoded
    have parts (less : Nat) (deep : depth = less + 1) : Deepens 2 less decode encode :=
      ih less (by omega)
    exact sound_encode_of_parts sound parts decoded

end WhereClause

end GameRules
