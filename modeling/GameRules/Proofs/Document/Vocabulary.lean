import GameRules.Effect.Basic
import GameRules.Filter
import GameRules.Selector
import GameRules.Trigger.Basic
import Mathlib.Data.List.Nodup

/-!
# The vocabularies are lawful

Each vocabulary lists all its values, and its words are distinct and not empty. So the word that a
value is written with is read back as that value.
-/

namespace GameRules

/-- A complete list with distinct words, none of them empty, makes a lawful vocabulary. -/
theorem Keyword.Lawful.of_words {α : Type} [Keyword α] (complete : ∀ value : α, value ∈ all)
    (distinct : (words α).Nodup) (visible : "" ∉ words α) : Lawful α where
  mem_all := complete
  word_injective left right same :=
    List.inj_on_of_nodup_map distinct (complete left) (complete right) same
  word_ne_empty value empty := visible (empty ▸ List.mem_map_of_mem (complete value))

/-- What is read without further spellings is written with the word that was read. -/
theorem Keyword.word_of_parse? {α : Type} [Keyword α] {text : String} {value : α}
    (plain : (aliases : List (String × α)) = []) (found : parse? text = some value) :
    word value = text := by
  unfold parse? at found
  split at found
  · rename_i other matched
    cases found
    have same := List.find?_some matched
    exact beq_iff_eq.mp same
  · rw [plain] at found
    cases found

open Keyword.Lawful (of_words)

instance : Keyword.Lawful DistanceUnit :=
  of_words (fun value => by cases value <;> decide) (by decide) (by decide)

instance : Keyword.Lawful CompareOp :=
  of_words (fun value => by cases value <;> decide) (by decide) (by decide)

instance : Keyword.Lawful TransformKind :=
  of_words (fun value => by
    cases value with
    | binary op => cases op <;> decide
    | unary op => cases op <;> decide
    | variadic op => cases op <;> decide
    | _ => decide) (by decide) (by decide)

instance : Keyword.Lawful SelectorKind :=
  of_words (fun value => by
    cases value with
    | proximity which => cases which <;> decide
    | _ => decide) (by decide) (by decide)

instance : Keyword.Lawful ViewOperationKind :=
  of_words (fun value => by
    cases value with
    | window kept => cases kept <;> decide
    | field stage => cases stage <;> decide
    | proximity which => cases which <;> decide
    | rows stage => cases stage <;> decide
    | _ => decide) (by decide) (by decide)

instance : Keyword.Lawful SortOrder :=
  of_words (fun value => by cases value <;> decide) (by decide) (by decide)

instance : Keyword.Lawful Aggregation :=
  of_words (fun value => by cases value <;> decide) (by decide) (by decide)

instance : Keyword.Lawful ParamType :=
  of_words (fun value => by cases value <;> decide) (by decide) (by decide)

instance : Keyword.Lawful ValueExpressionKind :=
  of_words (fun value => by cases value <;> decide) (by decide) (by decide)

instance : Keyword.Lawful TriggerKind :=
  of_words (fun value => by cases value <;> decide) (by decide) (by decide)

instance : Keyword.Lawful Weekday :=
  of_words (fun value => by cases value <;> decide) (by decide) (by decide)

instance : Keyword.Lawful EffectKind :=
  of_words (fun value => by
    cases value with
    | mutate change => cases change <;> decide
    | control op => cases op <;> decide
    | _ => decide) (by decide) (by decide)

instance : Keyword.Lawful LogLevel :=
  of_words (fun value => by cases value <;> decide) (by decide) (by decide)

instance : Keyword.Lawful FilterOperationKind :=
  of_words (fun value => by cases value <;> decide) (by decide) (by decide)

end GameRules
