import GameRules.Rule.Basic
import GameRules.Proofs.Path.Union
import Mathlib.Logic.Relation

/-!
# What effects write

An effect writes the locations of the changes that are reached from it, on either side of a choice
and anywhere in a sequence, and nothing else. What a rule writes is therefore fixed by the set of
these locations: the conditions of its choices, the values and targets of its changes, and the
order, nesting and repetition of its effects have no part in it.
-/

namespace GameRules

/-- The location that a write to a reference goes to: its canonical form, or the reference as it
stands if it names no location of the state. -/
def Path.written (path : Path) : Path := path.canonicalState?.getD path

namespace Effect

/-- The effects that an effect holds: those on both sides of a choice, or those of a sequence. -/
def held : Effect → List Effect
  | branch _ consequent alternative => consequent ++ alternative
  | sequence effects => effects
  | mutate .. | spawn .. | destroy _ | emit .. | control .. | log .. => []

/-- An effect is reached from another if it is that effect, or is held by one that is reached. -/
def Reached (effect root : Effect) : Prop :=
  Relation.ReflTransGen (fun holder part => part ∈ holder.held) root effect

/-- An effect writes a location if some change that is reached from it goes there. -/
def Writes (root : Effect) (location : Path) : Prop :=
  ∃ effect path, Reached effect root ∧ effect.path? = some path ∧ path.written = location

/-- An effect writes the location that it changes itself and those that the effects it holds do. -/
theorem writes_iff {root : Effect} {location : Path} :
    root.Writes location ↔
      root.path?.map Path.written = some location ∨ ∃ part ∈ root.held, part.Writes location := by
  constructor
  · rintro ⟨effect, path, reached, changes, rfl⟩
    rcases Relation.ReflTransGen.cases_head reached with rfl | ⟨part, member, below⟩
    · apply Or.inl
      rw [changes]
      rfl
    · exact .inr ⟨part, member, effect, path, below, changes, rfl⟩
  · rintro (changes | ⟨part, member, effect, path, below, changes, same⟩)
    · obtain ⟨path, here, same⟩ := Option.map_eq_some_iff.mp changes
      exact ⟨root, path, .refl, here, same⟩
    · exact ⟨effect, path, .head member below, changes, same⟩

/-- An effect that neither changes a location nor holds effects writes nothing. -/
theorem not_writes {effect : Effect} (location : Path) (unchanging : effect.path? = none)
    (holdsNone : effect.held = []) : ¬effect.Writes location := by
  rw [writes_iff, unchanging, holdsNone]
  simp

mutual

/-- What an effect adds to a set of locations is what it writes. -/
theorem mem_addWrites (location : Path) : ∀ (effect : Effect) (writes : PathSet),
    location ∈ effect.addWrites writes ↔ location ∈ writes ∨ effect.Writes location
  | .mutate targets path change, writes => by
    have here : (mutate targets path change).Writes location ↔ location = path.written := by
      rw [writes_iff]
      simp [path?, held, eq_comm]
    rw [addWrites, PathSet.mem_insert, here, or_comm]
    rfl
  | .branch condition consequent alternative, writes => by
    have parts : (branch condition consequent alternative).Writes location ↔
        (∃ effect ∈ consequent, effect.Writes location) ∨
          ∃ effect ∈ alternative, effect.Writes location := by
      rw [writes_iff]
      simp [path?, held, or_and_right, exists_or]
    rw [addWrites, mem_addAllWrites location alternative, mem_addAllWrites location consequent,
      parts, or_assoc]
  | .sequence effects, writes => by
    have parts : (sequence effects).Writes location ↔
        ∃ effect ∈ effects, effect.Writes location := by
      rw [writes_iff]
      simp [path?, held]
    rw [addWrites, mem_addAllWrites location effects, parts]
  | .spawn .., writes => by
    rw [addWrites, or_iff_left (not_writes location rfl rfl)]
  | .destroy _, writes => by
    rw [addWrites, or_iff_left (not_writes location rfl rfl)]
  | .emit .., writes => by
    rw [addWrites, or_iff_left (not_writes location rfl rfl)]
  | .control .., writes => by
    rw [addWrites, or_iff_left (not_writes location rfl rfl)]
  | .log .., writes => by
    rw [addWrites, or_iff_left (not_writes location rfl rfl)]

/-- What the effects of a list add to a set of locations is what they write. -/
theorem mem_addAllWrites (location : Path) : ∀ (effects : List Effect) (writes : PathSet),
    location ∈ addAllWrites effects writes ↔
      location ∈ writes ∨ ∃ effect ∈ effects, effect.Writes location
  | [], writes => by
    rw [addAllWrites]
    simp
  | effect :: effects, writes => by
    rw [addAllWrites, mem_addAllWrites location effects, mem_addWrites location effect, or_assoc,
      List.exists_mem_cons_iff]

end

/-- The effects of a list write the locations that one of them writes. -/
theorem mem_addAllWrites_empty {effects : List Effect} {location : Path} :
    location ∈ addAllWrites effects ∅ ↔ ∃ effect ∈ effects, effect.Writes location := by
  rw [mem_addAllWrites]
  exact or_iff_right (PathSet.not_mem_empty location)

/-- An effect is found to write exactly the locations of the changes that are reached from it, and a
rule those of its effects. Two lists of effects are found to write the same exactly when their
changes go to the same set of locations. -/
theorem modifies_exact :
    (∀ (effect : Effect) (location : Path), location ∈ effect.modifies ↔ effect.Writes location) ∧
      (∀ (rule : Rule) (location : Path),
        location ∈ rule.modifies ↔ ∃ effect ∈ rule.effects, effect.Writes location) ∧
      ∀ left right : List Effect, addAllWrites left ∅ = addAllWrites right ∅ ↔
        ∀ location, (∃ effect ∈ left, effect.Writes location) ↔
          ∃ effect ∈ right, effect.Writes location := by
  refine ⟨fun effect location => ?_, fun rule location => mem_addAllWrites_empty,
    fun left right => ⟨fun same location => ?_, fun same => PathSet.ext fun location => ?_⟩⟩
  · rw [modifies, mem_addWrites]
    exact or_iff_right (PathSet.not_mem_empty location)
  · rw [← mem_addAllWrites_empty, ← mem_addAllWrites_empty, same]
  · rw [mem_addAllWrites_empty, mem_addAllWrites_empty]
    exact same location

end Effect

end GameRules
