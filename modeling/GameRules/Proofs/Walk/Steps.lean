import GameRules.Proofs.Path.Canonical
import GameRules.Reads.Collector

/-!
# The steps of a walk

A walk meets references, texts that may be references, and names of collections. Each of them either
records one location or is passed over.
-/

namespace GameRules.Collector

/-- A reference to a location is recorded by the canonical form of the location. -/
theorem read_of_located {path location : Path} (located : path.canonicalState? = some location) :
    read path = record location := by
  funext collector
  rw [read, located]

/-- Any other reference is passed over. -/
theorem read_of_unlocated {path : Path} (unlocated : path.canonicalState? = none) :
    read path = id := by
  funext collector
  rw [read, unlocated]
  rfl

/-- Looking a text up is looking up the reference that it is: what does not begin like a location is
none. -/
theorem readText_eq_read (text : String) : readText text = read ⟨text⟩ := by
  have named : (Text.hasFront "$.".toList text.toList ||
      Text.hasFront "state:$.".toList text.toList) = true ↔ Path.kind ⟨text⟩ = .state :=
    Path.classify_eq_state_iff_hasFront.symm
  funext collector
  rw [readText]
  by_cases isLocation : Path.kind ⟨text⟩ = .state
  · rw [if_pos (named.mpr isLocation)]
  · rw [if_neg (mt named.mp isLocation),
      read_of_unlocated (Path.canonicalState?_eq_none_iff.mpr isLocation)]
    rfl

/-- Running through a collection with a name records its location. -/
theorem readCollection_of_named {entity : String} (named : entity ≠ "") :
    readCollection entity = record (Path.collection entity) := by
  funext collector
  rw [readCollection, if_neg (by simpa using named)]

/-- A collection without a name is passed over. -/
theorem readCollection_empty : readCollection "" = id := rfl

end GameRules.Collector
