import GameRules.Proofs.Clock
import GameRules.Proofs.Path.Canonical
import GameRules.Proofs.Where
import GameRules.Trigger.Decode

/-!
# Triggers are read back

A trigger ticks at an interval that is not zero, watches canonical locations, of which there is one at
least, and a schedule says when it fires.
-/

namespace GameRules

/-- What the time of firing is that was decoded. -/
def Activation.WellFormed : Activation → Prop
  | .tick interval => interval ≠ 0 ∧ interval < 2 ^ 32
  | .event name _ filter => name ≠ "" ∧ ∀ clause, filter = some clause → clause.WellFormed
  | .change watch => watch ≠ [] ∧ ∀ path ∈ watch, path.canonicalState? = some path
  | .distance source target _ value _ => source.Given ∧ target.Given ∧ value.Given
  | .timer .. => True
  | .cron expression =>
    expression ≠ "" ∧
      (Text.countWords expression.toList = 5 ∨ Text.countWords expression.toList = 6)
  | .schedule time interval _ => (time.isNone && interval.isNone) = false
  | .condition test => test.WellFormed
  | .start => True

/-- The fields that a trigger compares, and its durations. -/
def Trigger.leaves (trigger : Trigger) : List Leaf :=
  match trigger.activation with
  | .event _ _ condition => condition.toList.flatMap WhereClause.leaves
  | .timer duration _ startDelay => .duration duration :: startDelay.toList.map .duration
  | .schedule _ interval _ => interval.toList.map .duration
  | _ => []

/-- A duration that was written is read back if its literal stands for it. -/
theorem Fields.duration?_of_lookup {whole : Json} {fields : Fields whole} {key : String}
    {duration : Option Duration}
    (written : fields.entries.lookup key =
      duration.map fun duration => Json.string duration.literal)
    (stable : ∀ span, duration = some span → Duration.parse span.literal = .ok span) :
    fields.duration? key = .ok duration := by
  have given := value?_of_map written fun _ => rfl
  unfold duration?
  rw [given]
  cases duration with
  | none => rfl
  | some duration => simp only [Option.map_some, stable duration rfl]

namespace Trigger

/-- A watched location is canonical. -/
theorem canonicalState?_of_watchedPath {text : String} {path : Path}
    (decoded : watchedPath text = .ok path) : path.canonicalState? = some path := by
  simp only [watchedPath] at decoded
  split at decoded
  · rename_i state
    obtain ⟨canonical, found⟩ := Path.kind_eq_state_iff.mp state
    rw [found] at decoded
    cases decoded
    exact Path.canonicalState?_idempotent found
  · cases decoded
    exact Path.canonicalState?_of_name text
  · exact absurd decoded Decoded.fail_ne_ok

/-- A canonical location is watched as it stands. -/
theorem watchedPath_of_canonical {path : Path} (canonical : path.canonicalState? = some path) :
    watchedPath path.raw = .ok path := by
  have state : path.kind = .state := Path.kind_eq_state_iff.mpr ⟨path, canonical⟩
  simp only [watchedPath, state, canonical, Option.getD_some]

/-- A time of day that was written is read back. -/
theorem clockTime?_of_lookup {whole : Json} {fields : Fields whole} {key : String}
    {time : Option ClockTime}
    (written : fields.entries.lookup key = time.map fun time => Json.string time.text) :
    clockTime? fields key = .ok time := by
  have read : fields.string? key = .ok (time.map ClockTime.text) := by
    refine Fields.string?_of_lookup ?_
    rw [written, Option.map_map]
    rfl
  unfold clockTime?
  rw [read]
  cases time with
  | none => rfl
  | some time =>
    simp only [Option.map_some, bind, Except.bind, ClockTime.parse_text]
    rfl

/-- The days of the week are read back from their words. -/
theorem weekdaysOf_map_word (weekdays : List Weekday) :
    weekdaysOf (weekdays.map Keyword.word) = .ok weekdays := by
  rw [weekdaysOf, Decoded.mapM_eq_ok_iff, List.forall₂_map_left_iff, List.forall₂_same]
  exact fun _ _ => Fields.keywordOf_word

variable {whole : Json} {fields : Fields whole}

/-- The decoded time of firing is well-formed. -/
theorem wellFormed_of_decodeActivation {kind : TriggerKind} {activation : Activation}
    (decoded : decodeActivation kind fields = .ok activation) : activation.WellFormed := by
  have operands := Operand.partsSatisfy whole
  unfold decodeActivation at decoded
  cases kind with
  | tick =>
    simp only [Decoded.bind_eq_ok_iff] at decoded
    obtain ⟨interval, read, decoded⟩ := decoded
    split at decoded
    · exact absurd decoded Decoded.fail_ne_ok
    · rename_i nonzero
      cases Decoded.pure_eq_ok_iff.mp decoded
      exact ⟨nonzero, Fields.getD_lt_of_nat32? (by decide) read⟩
  | event =>
    simp only [Decoded.bind_eq_ok_iff, Decoded.pure_eq_ok_iff] at decoded
    obtain ⟨event, readEvent, params, -, condition, readCondition, rfl⟩ := decoded
    exact ⟨(Fields.requiredString_eq_ok_iff.mp readEvent).2,
      (WhereClause.partsSatisfy whole).node? readCondition⟩
  | change =>
    simp only [Decoded.bind_eq_ok_iff] at decoded
    obtain ⟨texts, -, watch, read, decoded⟩ := decoded
    split at decoded
    · simp only [Decoded.bind_eq_ok_iff] at decoded
      obtain ⟨_, -, decoded⟩ := decoded
      exact absurd decoded Decoded.fail_ne_ok
    · rename_i nonempty
      cases Decoded.pure_eq_ok_iff.mp decoded
      refine ⟨by simpa using nonempty, fun path member => ?_⟩
      obtain ⟨text, -, read⟩ := exists_mem_of_forall₂ (Decoded.mapM_eq_ok_iff.mp read) member
      exact canonicalState?_of_watchedPath read
  | distance =>
    simp only [Decoded.bind_eq_ok_iff, Decoded.pure_eq_ok_iff] at decoded
    obtain ⟨start, readStart, finish, readFinish, op, -, value, readValue, unit, -, rfl⟩ := decoded
    exact ⟨operands.requiredOperand readStart, operands.requiredOperand readFinish,
      operands.requiredOperand readValue⟩
  | timer =>
    simp only [Decoded.bind_eq_ok_iff, Decoded.pure_eq_ok_iff] at decoded
    obtain ⟨_, -, _, -, _, -, _, -, rfl⟩ := decoded
    trivial
  | cron =>
    simp only [Decoded.bind_eq_ok_iff] at decoded
    obtain ⟨expression, read, decoded⟩ := decoded
    split at decoded
    · rename_i count
      cases Decoded.pure_eq_ok_iff.mp decoded
      exact ⟨(Fields.requiredString_eq_ok_iff.mp read).2, count⟩
    · exact absurd decoded Decoded.fail_ne_ok
  | schedule =>
    simp only [Decoded.bind_eq_ok_iff] at decoded
    obtain ⟨time, -, interval, -, decoded⟩ := decoded
    split at decoded
    · exact absurd decoded Decoded.fail_ne_ok
    · rename_i sometime
      simp only [Decoded.bind_eq_ok_iff, Decoded.pure_eq_ok_iff] at decoded
      obtain ⟨_, -, weekdays, -, rfl⟩ := decoded
      exact Bool.eq_false_iff.mpr sometime
  | condition =>
    obtain ⟨condition, read, rfl⟩ := Decoded.map_eq_ok_iff.mp decoded
    obtain ⟨part, -, read⟩ := Fields.requiredNode_eq_ok_iff.mp read
    exact Expression.wellFormed_of_decode read
  | start =>
    cases Decoded.pure_eq_ok_iff.mp decoded
    trivial

/-- A decoded trigger is well-formed. -/
theorem wellFormed_of_decode {document : Json} {trigger : Trigger}
    (decoded : decode document = .ok trigger) : trigger.activation.WellFormed := by
  simp only [decode, Decoded.bind_eq_ok_iff, Decoded.pure_eq_ok_iff] at decoded
  obtain ⟨untyped, -, word, -, kind, -, activation, read, enabled, -, rfl⟩ := decoded
  exact wellFormed_of_decodeActivation read

/-- A trigger is read back if its time of firing is. -/
theorem decode_of_activation {record : Record} {enabled : Option Bool} {activation : Activation}
    (typed : record.lookup "type" = some (.string (Keyword.word activation.kind)))
    (written : record.lookup "enabled" = enabled.map .bool)
    (read : decodeActivation activation.kind
      ((record.fields .trigger).forKind (Keyword.word activation.kind)) = .ok activation) :
    decode record.build = .ok ⟨enabled, activation⟩ := by
  rw [decode, Record.bind_kind activation.kind typed]
  simp only [Decoded.bind_eq_ok_iff, Decoded.pure_eq_ok_iff]
  exact ⟨activation, read, enabled, Fields.bool?_of_lookup written, rfl⟩

/-- A well-formed trigger is read back if its leaves are stable. -/
theorem decode_encode {trigger : Trigger} (wellFormed : trigger.activation.WellFormed)
    (stable : Leaf.AllStable trigger.leaves) : decode trigger.encode = .ok trigger := by
  obtain ⟨enabled, activation⟩ := trigger
  cases activation with
  | tick interval =>
    obtain ⟨nonzero, narrow⟩ := wellFormed
    rw [encode]
    refine decode_of_activation (by simp [kind]) (by simp) ?_
    simp only [Activation.kind, decodeActivation, Decoded.bind_eq_ok_iff]
    have fits : ∀ number, some interval = some number → number < 2 ^ 32 := by
      rintro _ ⟨⟩
      exact narrow
    exact ⟨some interval, Fields.nat32?_of_lookup (by simp) fits, if_neg nonzero⟩
  | event event params condition =>
    obtain ⟨named, wellFormed⟩ := wellFormed
    have fills : ∀ clause, condition = some clause →
        Fills WhereClause.decode clause.encode clause := by
      rintro clause rfl
      refine WhereClause.fills (WhereClause.decode_encode clause (wellFormed clause rfl) ?_)
      simpa [leaves] using stable
    rw [encode]
    refine decode_of_activation (by simp [kind]) (by simp) ?_
    simp only [Activation.kind, decodeActivation, Decoded.bind_eq_ok_iff, Decoded.pure_eq_ok_iff]
    exact ⟨event, Fields.requiredString_of_lookup (by simp) named,
      params, Fields.strings_of_lookup (by simp [Json.strings]),
      condition, Fills.optional fills (by simp), rfl⟩
  | change watch =>
    obtain ⟨nonempty, canonical⟩ := wellFormed
    have watched : (watch.map Path.raw).mapM watchedPath = .ok watch := by
      rw [Decoded.mapM_eq_ok_iff, List.forall₂_map_left_iff, List.forall₂_same]
      exact fun path member => watchedPath_of_canonical (canonical path member)
    rw [encode]
    refine decode_of_activation (by simp [kind]) (by simp) ?_
    simp only [Activation.kind, decodeActivation, Decoded.bind_eq_ok_iff]
    exact ⟨watch.map Path.raw, Fields.strings_of_lookup (by simp [nonempty]), watch, watched,
      if_neg (by simpa using nonempty)⟩
  | distance start finish op value unit =>
    obtain ⟨givenStart, givenFinish, givenValue⟩ := wellFormed
    rw [encode]
    refine decode_of_activation (by simp [kind]) (by simp) ?_
    simp only [Activation.kind, decodeActivation, Decoded.bind_eq_ok_iff, Decoded.pure_eq_ok_iff]
    exact ⟨start, (Operand.fills_of_given start givenStart).required (by simp),
      finish, (Operand.fills_of_given finish givenFinish).required (by simp),
      some op, Fields.keyword?_of_lookup (by simp),
      value, (Operand.fills_of_given value givenValue).required (by simp),
      unit, Fields.keyword?_of_lookup (by simp), rfl⟩
  | timer duration repeats startDelay =>
    have stableDuration : ∀ span, some duration = some span →
        Duration.parse span.literal = .ok span := by
      rintro _ ⟨⟩
      exact stable (.duration duration) List.mem_cons_self
    have stableDelay : ∀ span, startDelay = some span →
        Duration.parse span.literal = .ok span := by
      rintro span rfl
      exact stable (.duration span) (by simp [leaves])
    rw [encode]
    refine decode_of_activation (by simp [kind]) (by simp) ?_
    simp only [Activation.kind, decodeActivation, Decoded.bind_eq_ok_iff, Decoded.pure_eq_ok_iff]
    exact ⟨_, Fields.required_eq_ok_iff.mpr (Fields.value?_of_lookup (by simp; rfl) rfl),
      some duration, Fields.duration?_of_lookup (by simp) stableDuration,
      some repeats, Fields.bool?_of_lookup (by simp),
      startDelay, Fields.duration?_of_lookup (by simp) stableDelay, rfl⟩
  | cron expression =>
    obtain ⟨named, count⟩ := wellFormed
    rw [encode]
    refine decode_of_activation (by simp [kind]) (by simp) ?_
    simp only [Activation.kind, decodeActivation, Decoded.bind_eq_ok_iff]
    exact ⟨expression, Fields.requiredString_of_lookup (by simp) named, if_pos count⟩
  | schedule time interval weekdays =>
    have stableInterval : ∀ span, interval = some span →
        Duration.parse span.literal = .ok span := by
      rintro span rfl
      exact stable (.duration span) (by simp [leaves])
    have sometime : ¬(time.isNone && interval.isNone) = true := Bool.eq_false_iff.mp wellFormed
    rw [encode]
    refine decode_of_activation (by simp [kind]) (by simp) ?_
    simp only [Activation.kind, decodeActivation, Decoded.bind_eq_ok_iff]
    refine ⟨time, clockTime?_of_lookup (by simp),
      interval, Fields.duration?_of_lookup (by simp) stableInterval, ?_⟩
    rw [if_neg sometime]
    simp only [Decoded.bind_eq_ok_iff, Decoded.pure_eq_ok_iff]
    exact ⟨weekdays.map Keyword.word,
      Fields.strings_of_lookup (by simp [Json.strings, Function.comp_def]),
      weekdays, weekdaysOf_map_word weekdays, rfl⟩
  | condition condition =>
    have fills := Expression.fills (Expression.decode_encode condition wellFormed)
    rw [encode]
    refine decode_of_activation (by simp [kind]) (by simp) ?_
    exact Decoded.map_eq_ok_iff.mpr ⟨condition, fills.required (by simp), rfl⟩
  | start =>
    rw [encode]
    exact decode_of_activation (by simp [kind]) (by simp) rfl

end Trigger

end GameRules
