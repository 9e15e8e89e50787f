import GameRules.Trigger.Basic
import GameRules.Where.Decode
import GameRules.Text.Blank

/-!
# Decoding triggers

A watched location may be written with its qualifier, or as a plain name, which stands for the
location of that name; no other reference can be watched. A duration is a literal or a number of
seconds.
-/

namespace GameRules

/-- A duration, if the field is given. -/
def Fields.duration? {whole : Json} (fields : Fields whole) (key : String) :
    Decoded (Option Duration) :=
  match fields.value? key with
  | none => .ok none
  | some (.string text) =>
    match Duration.parse text with
    | .ok duration => .ok (some duration)
    | .error error => Decoded.fail (.invalidValue key (.grammar error))
  | some (.float seconds) =>
    match Duration.ofSeconds seconds with
    | .ok duration => .ok (some duration)
    | .error fault => Decoded.fail (.invalidValue key (.seconds (Json.float seconds).render fault))
  | some (.int value) =>
    match (Binary64.ofInt? value).elim (.error .tooLarge) Duration.ofSeconds with
    | .ok duration => .ok (some duration)
    | .error fault => Decoded.fail (.invalidValue key (.seconds (Json.int value).render fault))
  | some other => Decoded.fail (.invalidValue key (.notADuration other.kindName))

namespace Trigger

/-- The location that a watched text stands for. -/
def watchedPath (text : String) : Decoded Path :=
  let path : Path := ⟨text⟩
  match path.kind with
  | .state => .ok (path.canonicalState?.getD path)
  | .field => .ok ⟨"$." ++ text⟩
  | _ => Decoded.fail (.invalidValue "watch" (.notAStatePath path))

/-- The days of the week that words stand for. -/
def weekdaysOf (words : List String) : Decoded (List Weekday) :=
  words.mapM fun word => Fields.keywordOf "weekdays" word

/-- A time of day, if the field is given. -/
def clockTime? {whole : Json} (fields : Fields whole) (key : String) :
    Decoded (Option ClockTime) := do
  match ← fields.string? key with
  | none => return none
  | some text =>
    match ClockTime.parse text with
    | .ok time => return some time
    | .error error => Decoded.fail (.invalidValue key (.grammar error))

/-- Decodes when a rule fires. -/
def decodeActivation {whole : Json} (kind : TriggerKind) (fields : Fields whole) :
    Decoded Activation := do
  match kind with
  | .tick =>
    let interval := (← fields.nat32? "interval").getD 1
    if interval = 0 then Decoded.fail (.invalidValue "interval" .zeroInterval)
    else return .tick interval
  | .event =>
    let event ← fields.requiredString "event"
    let params ← fields.strings "params"
    let condition ← fields.node? "where" fun part _ => WhereClause.decode part
    return .event event params condition
  | .change =>
    let watch ← (← fields.strings "watch").mapM watchedPath
    if watch.isEmpty then
      let _ ← fields.required "watch"
      Decoded.fail (.invalidValue "watch" .nothingWatched)
    else return .change watch
  | .distance =>
    let start ← fields.requiredNode "from" fun part _ => Operand.decode part
    let finish ← fields.requiredNode "to" fun part _ => Operand.decode part
    let op ← fields.keyword? "op"
    let value ← fields.requiredNode "value" fun part _ => Operand.decode part
    let unit ← fields.keyword? "unit"
    return .distance start finish (op.getD .less) value unit
  | .timer =>
    let _ ← fields.required "duration"
    let duration ← fields.duration? "duration"
    let repeats ← fields.bool? "repeat"
    let startDelay ← fields.duration? "startDelay"
    return .timer (duration.getD .zero) (repeats.getD false) startDelay
  | .cron =>
    let expression ← fields.requiredString "expression"
    let count := Text.countWords expression.toList
    if count = 5 ∨ count = 6 then return .cron expression
    else Decoded.fail (.invalidValue "expression" (.cronFields count))
  | .schedule =>
    let time ← clockTime? fields "time"
    let interval ← fields.duration? "interval"
    if time.isNone && interval.isNone then Decoded.fail (fields.missing "time")
    else
      let weekdays ← weekdaysOf (← fields.strings "weekdays")
      return .schedule time interval weekdays
  | .condition =>
    .condition <$> fields.requiredNode "condition" fun part _ => Expression.decode part
  | .start => return .start

/-- Decodes a trigger. -/
def decode (document : Json) : Decoded Trigger := do
  let untyped ← Fields.of .trigger document
  let word ← untyped.kindWord
  let kind : TriggerKind ← untyped.kindOf word
  let fields := untyped.forKind word
  let activation ← decodeActivation kind fields
  let enabled ← fields.bool? "enabled"
  return ⟨enabled, activation⟩

end Trigger

end GameRules
