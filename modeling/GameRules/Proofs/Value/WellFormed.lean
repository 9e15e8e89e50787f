import GameRules.Proofs.Value.Combination

/-!
# Well-formed values and conditions

What decoding yields is more than a value of its type. A constant is no reference and no computation
in disguise, a reference is one that its text shows, and an operand that fills a field is not null,
since a null field counts as absent. This module states these invariants for operands, computations
and conditions at every depth, and shows that decoding establishes them.
-/

namespace GameRules

/-- A document that is read as a constant: it neither names a computation nor is a text that begins
like a reference. -/
def Json.IsConstant (value : Json) : Prop :=
  value.namesTransform = false ∧ ∀ text, value = .string text → Path.classify text.toList = .field

mutual

/-- What an operand is that was decoded from a document of any kind. -/
def Operand.WellFormed : Operand → Prop
  | .literal value => value.IsConstant
  | .path path => path.kind ≠ .field
  | .transform transform => transform.WellFormed

/-- What an operand is that was decoded from the value of a field. -/
def Operand.Given : Operand → Prop
  | .literal value => value.IsConstant ∧ value ≠ .null
  | .path path => path.kind ≠ .field
  | .transform transform => transform.WellFormed

/-- What a computation is that was decoded. -/
def Transform.WellFormed : Transform → Prop
  | .binary _ left right => left.Given ∧ right.Given
  | .unary _ value => value.Given
  | .variadic _ values => Operand.WellFormedAll values
  | .clamp value lower upper => value.Given ∧ lower.Given ∧ upper.Given
  | .lerp start finish fraction => start.Given ∧ finish.Given ∧ fraction.Given
  | .moveTowards current target speed => current.Given ∧ target.Given ∧ speed.Given
  | .random lower upper => Operand.GivenOptional lower ∧ Operand.GivenOptional upper
  | .gpsDistance start finish _ => start.Given ∧ finish.Given
  | .gpsBearing start finish => start.Given ∧ finish.Given
  | .gpsMoveTowards current target speed _ => current.Given ∧ target.Given ∧ speed.Given
  | .pointInPolygon point polygon => point.Given ∧ polygon.Given
  | .format format values => format.Given ∧ Operand.WellFormedAll values
  | .choose condition consequent alternative =>
    condition.WellFormed ∧ consequent.Given ∧ Operand.GivenOptional alternative
  | .now => True
  | .addDuration value duration => value.Given ∧ duration.Given
  | .uuid => True

/-- What a condition is that was decoded. -/
def Expression.WellFormed : Expression → Prop
  | .compare left _ right => left.Given ∧ Operand.GivenOptional right
  | .all items => Expression.WellFormedAll items
  | .any items => Expression.WellFormedAll items
  | .not item => item.WellFormed

/-- Every operand of a list is well-formed. -/
def Operand.WellFormedAll : List Operand → Prop
  | [] => True
  | value :: values => value.WellFormed ∧ Operand.WellFormedAll values

/-- An operand was decoded from the value of a field if there is one. -/
def Operand.GivenOptional : Option Operand → Prop
  | none => True
  | some value => value.Given

/-- Every condition of a list is well-formed. -/
def Expression.WellFormedAll : List Expression → Prop
  | [] => True
  | item :: items => item.WellFormed ∧ Expression.WellFormedAll items

end

/-- An operand that fills a field is well-formed and not null. -/
theorem Operand.given_iff {operand : Operand} :
    operand.Given ↔ operand.WellFormed ∧ operand ≠ .literal .null := by
  cases operand <;> simp [Operand.Given, Operand.WellFormed]

/-- A list of operands is well-formed when its members are. -/
theorem Operand.wellFormedAll_iff {values : List Operand} :
    Operand.WellFormedAll values ↔ ∀ value ∈ values, value.WellFormed := by
  induction values with
  | nil => simp [Operand.WellFormedAll]
  | cons value values ih => simp [Operand.WellFormedAll, ih]

/-- An operand that a field may hold is given when it is given if it is there. -/
theorem Operand.givenOptional_iff {operand : Option Operand} :
    Operand.GivenOptional operand ↔ ∀ value, operand = some value → value.Given := by
  cases operand <;> simp [Operand.GivenOptional]

/-- A list of conditions is well-formed when its members are. -/
theorem Expression.wellFormedAll_iff {items : List Expression} :
    Expression.WellFormedAll items ↔ ∀ item ∈ items, item.WellFormed := by
  induction items with
  | nil => simp [Expression.WellFormedAll]
  | cons item items ih => simp [Expression.WellFormedAll, ih]

/-- Only null is decoded as the constant null. -/
theorem Operand.decode_eq_null {document : Json}
    (decoded : Operand.decode document = .ok (.literal .null)) : document = .null := by
  rw [Operand.decode.eq_def] at decoded
  split at decoded
  · split at decoded <;> simp at decoded
  · split at decoded
    · obtain ⟨_, _, same⟩ := Decoded.map_eq_ok_iff.mp decoded
      cases same
    · simpa using decoded

/-- Decodes a comparison of values, the plain condition on values. -/
def Fields.valueComparison {whole : Json} (fields : Fields whole) : Decoded Expression :=
  if fields.has "left" then do
    let left ← fields.requiredNode "left" fun part _ => Operand.decode part
    let op ← fields.keyword? "op"
    let right ← fields.node? "right" fun part _ => Operand.decode part
    return .compare left op right
  else Decoded.fail (.ambiguous .expression .noExpression)

/-- What is not a text is read as a logical combination or a comparison. -/
theorem Expression.decode_of_not_text {document : Json}
    (notText : ∀ text, document ≠ .string text) :
    Expression.decode document = (do
      let fields ← Fields.of .expression document
      fields.combined Expression.decode .all .any .not fields.valueComparison) := by
  rw [Expression.decode.eq_def]
  split
  · rename_i text
    exact absurd rfl (notText text)
  · unfold Fields.combined Fields.valueComparison
    refine bind_congr fun fields => bind_congr fun all => ?_
    cases all with
    | some items => rfl
    | none =>
      refine bind_congr fun any => ?_
      cases any with
      | some items => rfl
      | none =>
        refine bind_congr fun negated => ?_
        cases negated <;> rfl

namespace PartsSatisfy

variable {whole : Json} {fields : Fields whole} {key : String}

/-- An operand that a field has to hold is given. -/
theorem requiredOperand (parts : PartsSatisfy whole Operand.decode Operand.WellFormed)
    {operand : Operand}
    (decoded : fields.requiredNode key (fun part _ => Operand.decode part) = .ok operand) :
    operand.Given := by
  refine Operand.given_iff.mpr ⟨parts.requiredNode decoded, ?_⟩
  rintro rfl
  obtain ⟨part, given, decoded⟩ := Fields.requiredNode_eq_ok_iff.mp decoded
  have notNull := Fields.isNull_eq_false given
  rw [Operand.decode_eq_null decoded] at notNull
  cases notNull

/-- An operand that a field may hold is given if it is there. -/
theorem optionalOperand (parts : PartsSatisfy whole Operand.decode Operand.WellFormed)
    {operand : Option Operand}
    (decoded : fields.node? key (fun part _ => Operand.decode part) = .ok operand) :
    Operand.GivenOptional operand := by
  rcases Fields.node?_eq_ok_iff.mp decoded with ⟨-, rfl⟩ | ⟨part, value, given, read, rfl⟩
  · trivial
  · have required := Fields.requiredNode_eq_ok_iff.mpr ⟨part, given, read⟩
    exact parts.requiredOperand required

end PartsSatisfy

/-- A computation is well-formed if what it is made of is. -/
theorem Transform.wellFormed_of_parts {document : Json} {transform : Transform}
    (operands : PartsSatisfy document Operand.decode Operand.WellFormed)
    (conditions : PartsSatisfy document Expression.decode Expression.WellFormed)
    (decoded : Transform.decode document = .ok transform) : transform.WellFormed := by
  rw [Transform.decode] at decoded
  simp only [Decoded.bind_eq_ok_iff] at decoded
  obtain ⟨untyped, -, word, -, kind, -, decoded⟩ := decoded
  have listed {key label values} (read : (untyped.forKind word).list key label
      (fun part _ => Operand.decode part) = .ok values) : Operand.WellFormedAll values :=
    Operand.wellFormedAll_iff.mpr (operands.list read)
  cases kind <;> simp only [Decoded.bind_eq_ok_iff, Decoded.pure_eq_ok_iff] at decoded
  case binary op =>
    obtain ⟨left, readLeft, right, readRight, rfl⟩ := decoded
    exact ⟨operands.requiredOperand readLeft, operands.requiredOperand readRight⟩
  case unary op =>
    obtain ⟨value, read, rfl⟩ := decoded
    exact operands.requiredOperand read
  case variadic op =>
    obtain ⟨_, -, values, read, rfl⟩ := decoded
    exact listed read
  case clamp =>
    obtain ⟨value, readValue, lower, readLower, upper, readUpper, rfl⟩ := decoded
    exact ⟨operands.requiredOperand readValue, operands.requiredOperand readLower,
      operands.requiredOperand readUpper⟩
  case lerp =>
    obtain ⟨start, readStart, finish, readFinish, fraction, readFraction, rfl⟩ := decoded
    exact ⟨operands.requiredOperand readStart, operands.requiredOperand readFinish,
      operands.requiredOperand readFraction⟩
  case moveTowards =>
    obtain ⟨current, readCurrent, target, readTarget, speed, readSpeed, rfl⟩ := decoded
    exact ⟨operands.requiredOperand readCurrent, operands.requiredOperand readTarget,
      operands.requiredOperand readSpeed⟩
  case random =>
    obtain ⟨lower, readLower, upper, readUpper, rfl⟩ := decoded
    exact ⟨operands.optionalOperand readLower, operands.optionalOperand readUpper⟩
  case gpsDistance =>
    obtain ⟨start, readStart, finish, readFinish, unit, -, rfl⟩ := decoded
    exact ⟨operands.requiredOperand readStart, operands.requiredOperand readFinish⟩
  case gpsBearing =>
    obtain ⟨start, readStart, finish, readFinish, rfl⟩ := decoded
    exact ⟨operands.requiredOperand readStart, operands.requiredOperand readFinish⟩
  case gpsMoveTowards =>
    obtain ⟨current, readCurrent, target, readTarget, speed, readSpeed, unit, -, rfl⟩ := decoded
    exact ⟨operands.requiredOperand readCurrent, operands.requiredOperand readTarget,
      operands.requiredOperand readSpeed⟩
  case pointInPolygon =>
    obtain ⟨point, readPoint, polygon, readPolygon, rfl⟩ := decoded
    exact ⟨operands.requiredOperand readPoint, operands.requiredOperand readPolygon⟩
  case format =>
    obtain ⟨format, readFormat, values, readValues, rfl⟩ := decoded
    exact ⟨operands.requiredOperand readFormat, listed readValues⟩
  case choose =>
    obtain ⟨condition, readCondition, consequent, readConsequent, alternative, readAlternative,
      rfl⟩ := decoded
    exact ⟨conditions.requiredNode readCondition, operands.requiredOperand readConsequent,
      operands.optionalOperand readAlternative⟩
  case now =>
    subst decoded
    trivial
  case addDuration =>
    obtain ⟨value, readValue, duration, readDuration, rfl⟩ := decoded
    exact ⟨operands.requiredOperand readValue, operands.requiredOperand readDuration⟩
  case uuid =>
    subst decoded
    trivial

/-- An operand is well-formed if the computation in it is. -/
theorem Operand.wellFormed_of_transform {document : Json} {operand : Operand}
    (transforms : ∀ transform, Transform.decode document = .ok transform → transform.WellFormed)
    (decoded : Operand.decode document = .ok operand) : operand.WellFormed := by
  rw [Operand.decode.eq_def] at decoded
  split at decoded
  · rename_i text
    split at decoded
    · rename_i plain
      cases decoded
      refine ⟨rfl, fun other same => ?_⟩
      cases same
      exact plain
    · rename_i reference
      cases decoded
      simpa [Operand.WellFormed, Path.kind] using reference
  · rename_i other notText
    split at decoded
    · obtain ⟨transform, read, rfl⟩ := Decoded.map_eq_ok_iff.mp decoded
      exact transforms transform read
    · rename_i constant
      cases decoded
      refine ⟨by simpa using constant, fun text same => ?_⟩
      exact absurd same (notText text)

/-- A condition is well-formed if what it is made of is. -/
theorem Expression.wellFormed_of_parts {document : Json} {condition : Expression}
    (operands : PartsSatisfy document Operand.decode Operand.WellFormed)
    (conditions : PartsSatisfy document Expression.decode Expression.WellFormed)
    (decoded : Expression.decode document = .ok condition) : condition.WellFormed := by
  by_cases isText : ∃ text, document = .string text
  · obtain ⟨text, rfl⟩ := isText
    rw [Expression.decode] at decoded
    split at decoded
    · rename_i plain
      cases decoded
      refine ⟨⟨⟨rfl, fun other same => ?_⟩, fun absent => ?_⟩, trivial⟩
      · cases same
        exact plain
      · cases absent
    · rename_i reference
      cases decoded
      exact ⟨by simpa [Operand.Given, Path.kind] using reference, trivial⟩
  · rw [Expression.decode_of_not_text (not_exists.mp isText)] at decoded
    obtain ⟨fields, -, decoded⟩ := Decoded.bind_eq_ok_iff.mp decoded
    cases Fields.combined_eq_ok_iff.mp decoded with
    | all given => exact Expression.wellFormedAll_iff.mpr (conditions.combination? given)
    | any _ given => exact Expression.wellFormedAll_iff.mpr (conditions.combination? given)
    | @not item _ _ given => exact conditions.node? given item rfl
    | plain _ _ _ given =>
      unfold Fields.valueComparison at given
      split at given
      · simp only [Decoded.bind_eq_ok_iff, Decoded.pure_eq_ok_iff] at given
        obtain ⟨left, readLeft, op, -, right, readRight, rfl⟩ := given
        exact ⟨operands.requiredOperand readLeft, operands.optionalOperand readRight⟩
      · exact absurd given Decoded.fail_ne_ok

/-- What a document of a given size decodes to is well-formed, in each of the three ways it can be
read. -/
theorem Operand.wellFormed_of_size (bound : Nat) (document : Json) (small : sizeOf document < bound) :
    (∀ operand, Operand.decode document = .ok operand → operand.WellFormed) ∧
      (∀ transform, Transform.decode document = .ok transform → transform.WellFormed) ∧
        ∀ condition, Expression.decode document = .ok condition → condition.WellFormed := by
  induction bound generalizing document with
  | zero => omega
  | succ bound ih =>
    have parts : ∀ part, sizeOf part < sizeOf document → _ := fun part smaller =>
      ih part (by omega)
    have operands : PartsSatisfy document Operand.decode Operand.WellFormed :=
      fun part smaller => (parts part smaller).1
    have conditions : PartsSatisfy document Expression.decode Expression.WellFormed :=
      fun part smaller => (parts part smaller).2.2
    have transforms : ∀ transform, Transform.decode document = .ok transform →
        transform.WellFormed := fun _ => Transform.wellFormed_of_parts operands conditions
    exact ⟨fun _ => Operand.wellFormed_of_transform transforms, transforms,
      fun _ => Expression.wellFormed_of_parts operands conditions⟩

/-- Decoded operands are well-formed. -/
theorem Operand.wellFormed_of_decode {document : Json} {operand : Operand}
    (decoded : Operand.decode document = .ok operand) : operand.WellFormed :=
  (Operand.wellFormed_of_size _ document (Nat.lt_succ_self _)).1 operand decoded

/-- Decoded computations are well-formed. -/
theorem Transform.wellFormed_of_decode {document : Json} {transform : Transform}
    (decoded : Transform.decode document = .ok transform) : transform.WellFormed :=
  (Operand.wellFormed_of_size _ document (Nat.lt_succ_self _)).2.1 transform decoded

/-- Decoded conditions are well-formed. -/
theorem Expression.wellFormed_of_decode {document : Json} {condition : Expression}
    (decoded : Expression.decode document = .ok condition) : condition.WellFormed :=
  (Operand.wellFormed_of_size _ document (Nat.lt_succ_self _)).2.2 condition decoded

/-- The operands in any document are well-formed. -/
theorem Operand.partsSatisfy (whole : Json) :
    PartsSatisfy whole Operand.decode Operand.WellFormed :=
  fun _ _ _ => Operand.wellFormed_of_decode

end GameRules
