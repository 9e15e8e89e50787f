import GameRules.Value.Encode
import GameRules.Proofs.Document.Vocabulary
import GameRules.Proofs.Value.WellFormed

/-!
# Values and conditions are read back

The canonical document of a well-formed operand, computation or condition is decoded to it again.
-/

namespace GameRules

/-- No list of values is written in place of the kind. -/
theorem VariadicOp.listKey_ne_type (op : VariadicOp) : "type" ≠ op.listKey := by
  cases op <;> decide

/-- The document of a computation is an object that says so. -/
theorem Transform.encode_eq_build (transform : Transform) :
    ∃ record : Record, transform.encode = record.build ∧
      record.lookup "type" = some (.string (Keyword.word transform.kind)) := by
  cases transform with
  | variadic op values =>
    refine ⟨_, Transform.encode.eq_3 op values, ?_⟩
    simp [Transform.kind, op.listKey_ne_type]
  | _ => rw [Transform.encode]; exact ⟨_, rfl, by simp [Transform.kind]⟩

/-- The document of a computation names it. -/
theorem Transform.namesTransform_encode (transform : Transform) :
    transform.encode.namesTransform = true := by
  obtain ⟨record, written, typed⟩ := transform.encode_eq_build
  rw [written, Record.build, Json.namesTransform, typed]
  simp [Keyword.isWord, Keyword.parse?_word]

/-- A constant is read back from itself. -/
theorem Json.IsConstant.decode {value : Json} (constant : value.IsConstant) :
    Operand.decode value = .ok (.literal value) := by
  obtain ⟨unnamed, plain⟩ := constant
  rw [Operand.decode.eq_def]
  split
  · rename_i text
    rw [if_pos (plain text rfl)]
  · rw [unnamed]
    rfl

/-- A reference is read back from its text. -/
theorem Operand.decode_reference {path : Path} (reference : path.kind ≠ .field) :
    Operand.decode (.string path.raw) = .ok (.path path) := by
  rw [Operand.decode]
  exact if_neg reference

/-- A computation in place of an operand is read back as one. -/
theorem Operand.decode_transform {transform : Transform}
    (decoded : Transform.decode transform.encode = .ok transform) :
    Operand.decode transform.encode = .ok (.transform transform) := by
  have names := transform.namesTransform_encode
  obtain ⟨record, written, -⟩ := transform.encode_eq_build
  rw [written, Record.build] at names decoded ⊢
  rw [Operand.decode.eq_def]
  simp only [names, decoded, if_true]
  rfl

/-- A computation that is read back fills a field. -/
theorem Transform.fills {transform : Transform}
    (decoded : Transform.decode transform.encode = .ok transform) :
    Fills Transform.decode transform.encode transform := by
  refine ⟨?_, decoded⟩
  obtain ⟨record, written, -⟩ := transform.encode_eq_build
  rw [written]
  rfl

/-- An operand that is read back fills a field if it is not the constant null. -/
theorem Operand.fills {operand : Operand} (notNull : operand ≠ .literal .null)
    (decoded : Operand.decode operand.encode = .ok operand) :
    Fills Operand.decode operand.encode operand := by
  refine ⟨?_, decoded⟩
  cases operand with
  | literal value => cases value <;> simp_all [Operand.encode, Json.isNull]
  | path path => rfl
  | transform transform =>
    obtain ⟨record, written, -⟩ := transform.encode_eq_build
    rw [Operand.encode, written]
    rfl

/-- The document of a condition is an object. -/
theorem Expression.encode_eq_build (condition : Expression) :
    ∃ record : Record, condition.encode = record.build := by
  cases condition <;> rw [Expression.encode] <;> exact ⟨_, rfl⟩

/-- A condition that is read back fills a field. -/
theorem Expression.fills {condition : Expression}
    (decoded : Expression.decode condition.encode = .ok condition) :
    Fills Expression.decode condition.encode condition := by
  refine ⟨?_, decoded⟩
  obtain ⟨record, written⟩ := condition.encode_eq_build
  rw [written]
  rfl

/-- The document of an optional operand is that of the operand that is there. -/
@[simp] theorem Operand.encodeOptional_eq_map (value : Option Operand) :
    Operand.encodeOptional value = value.map Operand.encode := by
  cases value <;> rfl

/-- A list of values is read back under the key of its operation. -/
theorem Fields.variadicKey_of_lookup {whole : Json} {fields : Fields whole} {op : VariadicOp}
    {value : Json} (given : fields.value? op.listKey = some value) :
    fields.variadicKey op = op.listKey := by
  simp [variadicKey, has, given]

/-- A condition is read back from the fields that were written. -/
theorem Expression.decode_build {record : Record} {condition : Expression}
    (combined : (record.fields .expression).Combined Expression.decode .all .any .not
      (record.fields .expression).valueComparison condition) :
    Expression.decode record.build = .ok condition := by
  have notText : ∀ text, record.build ≠ .string text := by
    intro text same
    cases same
  rw [Expression.decode_of_not_text notText]
  exact Fields.combined_eq_ok_iff.mpr combined

mutual

/-- A well-formed operand is read back from its document. -/
theorem Operand.decode_encode : ∀ operand : Operand, operand.WellFormed →
    Operand.decode operand.encode = .ok operand
  | .literal _, constant => Json.IsConstant.decode constant
  | .path _, reference => Operand.decode_reference reference
  | .transform transform, wellFormed =>
    Operand.decode_transform (Transform.decode_encode transform wellFormed)

/-- An operand that was decoded from a field fills a field again. -/
theorem Operand.fills_of_given : ∀ operand : Operand, operand.Given →
    Fills Operand.decode operand.encode operand
  | .literal _, ⟨constant, notNull⟩ => Operand.fills (by simpa using notNull) constant.decode
  | .path _, reference => Operand.fills nofun (Operand.decode_reference reference)
  | .transform transform, wellFormed =>
    Operand.fills nofun
      (Operand.decode_transform (Transform.decode_encode transform wellFormed))

/-- A well-formed computation is read back from its document. -/
theorem Transform.decode_encode : ∀ transform : Transform, transform.WellFormed →
    Transform.decode transform.encode = .ok transform
  | .binary op left right, ⟨givenLeft, givenRight⟩ => by
    rw [Transform.encode, Transform.decode, Record.bind_kind (TransformKind.binary op) (by simp)]
    simp only [Decoded.bind_eq_ok_iff, Decoded.pure_eq_ok_iff]
    exact ⟨left, (Operand.fills_of_given left givenLeft).required (by simp),
      right, (Operand.fills_of_given right givenRight).required (by simp), rfl⟩
  | .unary op value, given => by
    rw [Transform.encode, Transform.decode, Record.bind_kind (TransformKind.unary op) (by simp)]
    simp only [Decoded.bind_eq_ok_iff, Decoded.pure_eq_ok_iff]
    exact ⟨value, (Operand.fills_of_given value given).required (by simp), rfl⟩
  | .variadic op values, wellFormed => by
    rw [Transform.encode, Transform.decode,
      Record.bind_kind (TransformKind.variadic op) (by simp [op.listKey_ne_type])]
    simp only [Decoded.bind_eq_ok_iff, Decoded.pure_eq_ok_iff]
    have written : (((Record.typed (TransformKind.variadic op)).list op.listKey
        (Operand.encodeAll values)).fields .transform).value? op.listKey =
          some (.array (Operand.encodeAll values)) :=
      Fields.value?_of_lookup (by simp) rfl
    rw [Fields.variadicKey_of_lookup (by exact written)]
    have decoded := Operand.decodeAll_encodeAll values wellFormed
    exact ⟨_, Fields.required_eq_ok_iff.mpr written, values, Fills.list decoded (by simp), rfl⟩
  | .clamp value lower upper, ⟨givenValue, givenLower, givenUpper⟩ => by
    rw [Transform.encode, Transform.decode, Record.bind_kind TransformKind.clamp (by simp)]
    simp only [Decoded.bind_eq_ok_iff, Decoded.pure_eq_ok_iff]
    exact ⟨value, (Operand.fills_of_given value givenValue).required (by simp),
      lower, (Operand.fills_of_given lower givenLower).required (by simp),
      upper, (Operand.fills_of_given upper givenUpper).required (by simp), rfl⟩
  | .lerp start finish fraction, ⟨givenStart, givenFinish, givenFraction⟩ => by
    rw [Transform.encode, Transform.decode, Record.bind_kind TransformKind.lerp (by simp)]
    simp only [Decoded.bind_eq_ok_iff, Decoded.pure_eq_ok_iff]
    exact ⟨start, (Operand.fills_of_given start givenStart).required (by simp),
      finish, (Operand.fills_of_given finish givenFinish).required (by simp),
      fraction, (Operand.fills_of_given fraction givenFraction).required (by simp), rfl⟩
  | .moveTowards current target speed, ⟨givenCurrent, givenTarget, givenSpeed⟩ => by
    rw [Transform.encode, Transform.decode, Record.bind_kind TransformKind.moveTowards (by simp)]
    simp only [Decoded.bind_eq_ok_iff, Decoded.pure_eq_ok_iff]
    exact ⟨current, (Operand.fills_of_given current givenCurrent).required (by simp),
      target, (Operand.fills_of_given target givenTarget).required (by simp),
      speed, (Operand.fills_of_given speed givenSpeed).required (by simp), rfl⟩
  | .random lower upper, ⟨givenLower, givenUpper⟩ => by
    rw [Transform.encode, Transform.decode, Record.bind_kind TransformKind.random (by simp)]
    simp only [Decoded.bind_eq_ok_iff, Decoded.pure_eq_ok_iff]
    exact ⟨lower, Fills.optional (Operand.fills_of_givenOptional lower givenLower) (by simp),
      upper, Fills.optional (Operand.fills_of_givenOptional upper givenUpper) (by simp), rfl⟩
  | .gpsDistance start finish unit, ⟨givenStart, givenFinish⟩ => by
    rw [Transform.encode, Transform.decode, Record.bind_kind TransformKind.gpsDistance (by simp)]
    simp only [Decoded.bind_eq_ok_iff, Decoded.pure_eq_ok_iff]
    exact ⟨start, (Operand.fills_of_given start givenStart).required (by simp),
      finish, (Operand.fills_of_given finish givenFinish).required (by simp),
      unit, Fields.keyword?_of_lookup (by simp), rfl⟩
  | .gpsBearing start finish, ⟨givenStart, givenFinish⟩ => by
    rw [Transform.encode, Transform.decode, Record.bind_kind TransformKind.gpsBearing (by simp)]
    simp only [Decoded.bind_eq_ok_iff, Decoded.pure_eq_ok_iff]
    exact ⟨start, (Operand.fills_of_given start givenStart).required (by simp),
      finish, (Operand.fills_of_given finish givenFinish).required (by simp), rfl⟩
  | .gpsMoveTowards current target speed unit, ⟨givenCurrent, givenTarget, givenSpeed⟩ => by
    rw [Transform.encode, Transform.decode,
      Record.bind_kind TransformKind.gpsMoveTowards (by simp)]
    simp only [Decoded.bind_eq_ok_iff, Decoded.pure_eq_ok_iff]
    exact ⟨current, (Operand.fills_of_given current givenCurrent).required (by simp),
      target, (Operand.fills_of_given target givenTarget).required (by simp),
      speed, (Operand.fills_of_given speed givenSpeed).required (by simp),
      unit, Fields.keyword?_of_lookup (by simp), rfl⟩
  | .pointInPolygon point polygon, ⟨givenPoint, givenPolygon⟩ => by
    rw [Transform.encode, Transform.decode,
      Record.bind_kind TransformKind.pointInPolygon (by simp)]
    simp only [Decoded.bind_eq_ok_iff, Decoded.pure_eq_ok_iff]
    exact ⟨point, (Operand.fills_of_given point givenPoint).required (by simp),
      polygon, (Operand.fills_of_given polygon givenPolygon).required (by simp), rfl⟩
  | .format format values, ⟨givenFormat, wellFormed⟩ => by
    have decoded := Operand.decodeAll_encodeAll values wellFormed
    rw [Transform.encode, Transform.decode, Record.bind_kind TransformKind.format (by simp)]
    simp only [Decoded.bind_eq_ok_iff, Decoded.pure_eq_ok_iff]
    exact ⟨format, (Operand.fills_of_given format givenFormat).required (by simp),
      values, Fills.nonemptyList decoded (by simp), rfl⟩
  | .choose condition consequent alternative, ⟨wellFormed, givenThen, givenElse⟩ => by
    have fills := Expression.fills (Expression.decode_encode condition wellFormed)
    rw [Transform.encode, Transform.decode, Record.bind_kind TransformKind.choose (by simp)]
    simp only [Decoded.bind_eq_ok_iff, Decoded.pure_eq_ok_iff]
    exact ⟨condition, fills.required (by simp),
      consequent, (Operand.fills_of_given consequent givenThen).required (by simp), alternative,
      Fills.optional (Operand.fills_of_givenOptional alternative givenElse) (by simp), rfl⟩
  | .now, _ => by
    rw [Transform.encode, Transform.decode, Record.bind_kind TransformKind.now (by simp)]
    rfl
  | .addDuration value duration, ⟨givenValue, givenDuration⟩ => by
    rw [Transform.encode, Transform.decode, Record.bind_kind TransformKind.addDuration (by simp)]
    simp only [Decoded.bind_eq_ok_iff, Decoded.pure_eq_ok_iff]
    exact ⟨value, (Operand.fills_of_given value givenValue).required (by simp),
      duration, (Operand.fills_of_given duration givenDuration).required (by simp), rfl⟩
  | .uuid, _ => by
    rw [Transform.encode, Transform.decode, Record.bind_kind TransformKind.uuid (by simp)]
    rfl

/-- A well-formed condition is read back from its document. -/
theorem Expression.decode_encode : ∀ condition : Expression, condition.WellFormed →
    Expression.decode condition.encode = .ok condition
  | .compare left op right, ⟨givenLeft, givenRight⟩ => by
    rw [Expression.encode, Operand.encodeOptional_eq_map]
    refine Expression.decode_build
      (.plain_of_unwritten (by simp) (by simp) (by simp) ?_)
    have fillsLeft := Operand.fills_of_given left givenLeft
    refine (if_pos (fillsLeft.has (by simp))).trans ?_
    simp only [Decoded.bind_eq_ok_iff, Decoded.pure_eq_ok_iff]
    exact ⟨left, fillsLeft.required (by simp), op, Fields.keyword?_of_lookup (by simp), right,
      Fills.optional (Operand.fills_of_givenOptional right givenRight) (by simp), rfl⟩
  | .all items, wellFormed => by
    have decoded := Expression.decodeAll_encodeAll items wellFormed
    rw [Expression.encode]
    exact Expression.decode_build (.all_of_lookup decoded (by simp))
  | .any items, wellFormed => by
    have decoded := Expression.decodeAll_encodeAll items wellFormed
    rw [Expression.encode]
    exact Expression.decode_build (.any_of_lookup decoded (by simp) (by simp))
  | .not item, wellFormed => by
    have fills := Expression.fills (Expression.decode_encode item wellFormed)
    rw [Expression.encode]
    exact Expression.decode_build (.not_of_lookup fills (by simp) (by simp) (by simp))

/-- A list of well-formed operands is read back from its documents. -/
theorem Operand.decodeAll_encodeAll : ∀ values : List Operand, Operand.WellFormedAll values →
    List.Forall₂ (fun document value => Operand.decode document = .ok value)
      (Operand.encodeAll values) values
  | [], _ => .nil
  | value :: values, ⟨wellFormed, others⟩ =>
    .cons (Operand.decode_encode value wellFormed) (Operand.decodeAll_encodeAll values others)

/-- A list of well-formed conditions is read back from its documents. -/
theorem Expression.decodeAll_encodeAll : ∀ items : List Expression,
    Expression.WellFormedAll items →
      List.Forall₂ (fun document item => Expression.decode document = .ok item)
        (Expression.encodeAll items) items
  | [], _ => .nil
  | item :: items, ⟨wellFormed, others⟩ =>
    .cons (Expression.decode_encode item wellFormed) (Expression.decodeAll_encodeAll items others)

/-- An optional operand that was decoded from a field fills a field again. -/
theorem Operand.fills_of_givenOptional : ∀ value : Option Operand, Operand.GivenOptional value →
    ∀ operand, value = some operand → Fills Operand.decode operand.encode operand
  | none, _, _, absent => nomatch absent
  | some value, given, _, rfl => Operand.fills_of_given value given

end

end GameRules
