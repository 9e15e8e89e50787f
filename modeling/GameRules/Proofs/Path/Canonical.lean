import GameRules.Path.Basic
import Mathlib.Tactic.ByContra

/-!
# Canonical state locations

A state location has one canonical text, which begins with `$.`; what may be written otherwise is the
qualifier in front of it. Taking the qualifier off twice does nothing more than taking it off once.
-/

namespace GameRules.Path

/-- A text that begins like a state location does not begin with the qualifier. -/
theorem stripFront?_qualifier {text : List Char} (location : Text.hasFront stateFront text = true) :
    Text.stripFront? qualifier text = none := by
  obtain ⟨rest, rfl⟩ := Text.hasFront_iff.mp location
  rfl

/-- The canonical text of a location is what is left of it without the qualifier. -/
theorem canonicalText?_eq_some_iff {text canonical : List Char} :
    canonicalText? text = some canonical ↔
      Text.hasFront stateFront canonical = true ∧
        (text = canonical ∨ text = qualifier ++ canonical) := by
  unfold canonicalText?
  constructor
  · intro found
    split at found
    · rename_i rest stripped
      split at found
      · rename_i location
        cases found
        exact ⟨location, .inr (Text.stripFront?_eq_some_iff.mp stripped)⟩
      · cases found
    · split at found
      · rename_i location
        cases found
        exact ⟨location, .inl rfl⟩
      · cases found
  · rintro ⟨location, rfl | rfl⟩
    · simp only [stripFront?_qualifier location, location, if_true]
    · simp only [Text.stripFront?_eq_some_iff.mpr rfl, location, if_true]

/-- The references that name a location are known by how their texts begin. -/
theorem classify_eq_state_iff_hasFront {text : List Char} :
    classify text = .state ↔
      (Text.hasFront stateFront text || Text.hasFront (qualifier ++ stateFront) text) = true := by
  unfold classify
  refine ⟨fun named => ?_, fun location => if_pos location⟩
  by_contra elsewhere
  rw [if_neg elsewhere] at named
  repeat' split at named
  all_goals cases named

/-- The references that name a location are those with a canonical text. -/
theorem classify_eq_state_iff {text : List Char} :
    classify text = .state ↔ ∃ canonical, canonicalText? text = some canonical := by
  rw [classify_eq_state_iff_hasFront, Bool.or_eq_true]
  constructor
  · rintro (location | qualified)
    · exact ⟨text, canonicalText?_eq_some_iff.mpr ⟨location, .inl rfl⟩⟩
    · obtain ⟨rest, rfl⟩ := Text.hasFront_iff.mp qualified
      refine ⟨stateFront ++ rest, canonicalText?_eq_some_iff.mpr ⟨?_, .inr ?_⟩⟩
      · exact Text.hasFront_iff.mpr ⟨rest, rfl⟩
      · exact List.append_assoc _ _ _
  · rintro ⟨canonical, found⟩
    obtain ⟨location, rfl | rfl⟩ := canonicalText?_eq_some_iff.mp found
    · exact .inl location
    · obtain ⟨rest, rfl⟩ := Text.hasFront_iff.mp location
      exact .inr (Text.hasFront_iff.mpr ⟨rest, (List.append_assoc _ _ _).symm⟩)

/-- The canonical form of a location is a location whose text begins with `$.`. -/
theorem canonicalState?_eq_some_iff {path canonical : Path} :
    path.canonicalState? = some canonical ↔
      Text.hasFront stateFront canonical.raw.toList = true ∧
        (path = canonical ∨ path.raw = "state:" ++ canonical.raw) := by
  obtain ⟨text⟩ := path
  obtain ⟨target⟩ := canonical
  unfold canonicalState?
  rw [Option.map_eq_some_iff]
  constructor
  · rintro ⟨rest, found, same⟩
    cases same
    obtain ⟨location, origin⟩ := canonicalText?_eq_some_iff.mp found
    rw [String.toList_ofList]
    refine ⟨location, origin.imp (fun same => ?_) fun same => ?_⟩
    · rw [← same, String.ofList_toList]
    · rw [← String.toList_inj, same, String.toList_append]
      exact congrArg (qualifier ++ ·) String.toList_ofList.symm
  · rintro ⟨location, origin⟩
    refine ⟨target.toList, canonicalText?_eq_some_iff.mpr ⟨location, origin.imp ?_ ?_⟩, ?_⟩
    · rintro ⟨⟩
      rfl
    · rintro rfl
      exact String.toList_append
    · rw [String.ofList_toList]

/-- The canonical form of a location is its own canonical form. -/
theorem canonicalState?_self_iff {path : Path} :
    path.canonicalState? = some path ↔ Text.hasFront stateFront path.raw.toList = true := by
  rw [canonicalState?_eq_some_iff]
  simp

/-- Taking the qualifier off once is enough. -/
theorem canonicalState?_idempotent {path canonical : Path}
    (found : path.canonicalState? = some canonical) : canonical.canonicalState? = some canonical :=
  canonicalState?_self_iff.mpr (canonicalState?_eq_some_iff.mp found).1

/-- A reference with a canonical form names a location. -/
theorem kind_eq_state_iff {path : Path} :
    path.kind = .state ↔ ∃ canonical, path.canonicalState? = some canonical := by
  simp only [kind, classify_eq_state_iff, canonicalState?, Option.map_eq_some_iff]
  exact ⟨fun ⟨text, found⟩ => ⟨_, text, found, rfl⟩, fun ⟨_, text, found, _⟩ => ⟨text, found⟩⟩

/-- A reference without a canonical form names no location. -/
theorem canonicalState?_eq_none_iff {path : Path} :
    path.canonicalState? = none ↔ path.kind ≠ .state := by
  rw [Ne, kind_eq_state_iff, ← Option.isSome_iff_exists, Option.not_isSome_iff_eq_none]

/-- A plain name is made a location by putting `$.` in front of it. -/
theorem canonicalState?_of_name (name : String) :
    (⟨"$." ++ name⟩ : Path).canonicalState? = some ⟨"$." ++ name⟩ := by
  rw [canonicalState?_self_iff, Text.hasFront_iff]
  exact ⟨name.toList, String.toList_append⟩

end GameRules.Path
