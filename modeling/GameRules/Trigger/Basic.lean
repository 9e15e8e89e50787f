import GameRules.Where.Basic
import GameRules.Time.Clock
import GameRules.Time.DurationLiteral

/-!
# Triggers

A trigger says when a rule fires: every so many ticks, at an event, when a location changes, by the
clock, when a condition holds, or at the start. It can be switched off; one that does not say so is
on.
-/

namespace GameRules

/-- The kinds of trigger. -/
inductive TriggerKind where
  /-- Every so many ticks. -/
  | tick
  /-- At an event. -/
  | event
  /-- When a location changes. -/
  | change
  /-- When a distance compares with a value. -/
  | distance
  /-- After a time. -/
  | timer
  /-- At the times of a cron expression. -/
  | cron
  /-- At a time of day, or at intervals. -/
  | schedule
  /-- When a condition holds. -/
  | condition
  /-- Once, at the start. -/
  | start
deriving DecidableEq, Repr

instance : Keyword TriggerKind where
  all := [.tick, .event, .change, .distance, .timer, .cron, .schedule, .condition, .start]
  word
    | .tick => "OnTick"
    | .event => "OnEvent"
    | .change => "OnChange"
    | .distance => "OnDistance"
    | .timer => "OnTimer"
    | .cron => "OnCron"
    | .schedule => "OnSchedule"
    | .condition => "OnCondition"
    | .start => "OnStart"

/-- A day of the week. -/
inductive Weekday where
  /-- The first day of the week. -/
  | monday
  /-- The second day. -/
  | tuesday
  /-- The third day. -/
  | wednesday
  /-- The fourth day. -/
  | thursday
  /-- The fifth day. -/
  | friday
  /-- The sixth day. -/
  | saturday
  /-- The last day of the week. -/
  | sunday
deriving DecidableEq, Repr

instance : Keyword Weekday where
  all := [.monday, .tuesday, .wednesday, .thursday, .friday, .saturday, .sunday]
  word
    | .monday => "Monday"
    | .tuesday => "Tuesday"
    | .wednesday => "Wednesday"
    | .thursday => "Thursday"
    | .friday => "Friday"
    | .saturday => "Saturday"
    | .sunday => "Sunday"

/-- When a rule fires. -/
inductive Activation where
  /-- Every so many ticks. -/
  | tick (interval : Nat)
  /-- At an event that satisfies a condition, if there is one. -/
  | event (event : String) (params : List String) (condition : Option WhereClause)
  /-- When one of the locations is written, or one below it. -/
  | change (watch : List Path)
  /-- When the distance of two places compares with a value. -/
  | distance (start finish : Operand) (op : CompareOp) (value : Operand)
      (unit : Option DistanceUnit)
  /-- After a time, and again if it repeats. -/
  | timer (duration : Duration) (repeats : Bool) (startDelay : Option Duration)
  /-- At the times of a cron expression. -/
  | cron (expression : String)
  /-- At a time of day or at intervals, on some days of the week. -/
  | schedule (time : Option ClockTime) (interval : Option Duration) (weekdays : List Weekday)
  /-- When a condition holds. -/
  | condition (condition : Expression)
  /-- Once, at the start. -/
  | start

instance : Inhabited Activation := ⟨.start⟩

/-- Which kind of trigger this makes. -/
def Activation.kind : Activation → TriggerKind
  | tick _ => .tick
  | event .. => .event
  | change _ => .change
  | distance .. => .distance
  | timer .. => .timer
  | cron _ => .cron
  | schedule .. => .schedule
  | condition _ => .condition
  | start => .start

/-- What makes a rule fire, and whether it is switched on. -/
structure Trigger where
  /-- Whether it is on, if that is said. -/
  enabled : Option Bool
  /-- When the rule fires. -/
  activation : Activation

namespace Trigger

/-- A trigger that fires when one of the locations is written. -/
def onChange (watch : List Path) : Trigger := ⟨none, .change watch⟩

/-- Which kind of trigger this is. -/
def kind (trigger : Trigger) : TriggerKind := trigger.activation.kind

/-- Whether the trigger is on. -/
def isEnabled (trigger : Trigger) : Bool := trigger.enabled.getD true

/-- The trigger, switched on or off. -/
def setEnabled (on : Bool) (trigger : Trigger) : Trigger := { trigger with enabled := some on }

/-- The name under which the time of the trigger of a rule is kept; only triggers that go by the
clock have one. -/
def scheduleKey? (trigger : Trigger) (rule : String) : Option String :=
  match trigger.activation with
  | .timer .. | .cron _ | .schedule .. => some (rule ++ ":" ++ Keyword.word trigger.kind)
  | _ => none

/-- The document of a trigger. -/
def encode (trigger : Trigger) : Json :=
  let record := (Record.typed trigger.kind).optional "enabled" (trigger.enabled.map .bool)
  Record.build <|
    match trigger.activation with
    | .tick interval => record.field "interval" (.int interval)
    | .event event params condition =>
      record.text "event" event
        |>.nonemptyList "params" (params.map .string)
        |>.optional "where" (condition.map WhereClause.encode)
    | .change watch => record.field "watch" (.strings (watch.map Path.raw))
    | .distance start finish op value unit =>
      record.field "from" start.encode
        |>.field "to" finish.encode
        |>.keyword "op" op
        |>.field "value" value.encode
        |>.optionalKeyword "unit" unit
    | .timer duration repeats startDelay =>
      record.text "duration" duration.literal
        |>.field "repeat" (.bool repeats)
        |>.optional "startDelay" (startDelay.map fun delay => .string delay.literal)
    | .cron expression => record.text "expression" expression
    | .schedule time interval weekdays =>
      record.optional "time" (time.map fun time => .string time.text)
        |>.optional "interval" (interval.map fun interval => .string interval.literal)
        |>.nonemptyList "weekdays" (weekdays.map fun day => .string (Keyword.word day))
    | .condition condition => record.field "condition" condition.encode
    | .start => record

/-- Collects what a trigger reads. -/
def collect (trigger : Trigger) : Walk :=
  match trigger.activation with
  | .change watch => Collector.each Collector.read watch
  | .event _ _ condition => Collector.whenSome WhereClause.collect condition
  | .distance start finish _ value _ => fun collector =>
    value.collect (finish.collect (start.collect collector))
  | .condition condition => condition.collect
  | .tick _ | .timer .. | .cron _ | .schedule .. | .start => id

end Trigger

end GameRules
