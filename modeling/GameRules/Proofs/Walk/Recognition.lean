import GameRules.Proofs.Path.Language
import GameRules.Proofs.Walk.Canonical

/-!
# The ways to recognise a location agree

Whether a text names a location of the state is asked in several ways: of its kind, of its canonical
form, by a walk that meets the text, and by the grammar of state paths. Each spells out the front of a
location for itself. They agree on every text, a walk records the same location however it meets the
text, and whatever operations a collector runs through, it records locations in canonical form.
-/

namespace GameRules

namespace Path

/-- The text of a canonical location begins with `$.`. -/
theorem IsCanonical.begins {path : Path} (canonical : path.IsCanonical) :
    ∃ rest, path.raw = "$." ++ rest := by
  obtain ⟨rest, text⟩ := Text.hasFront_iff.mp (canonicalState?_self_iff.mp canonical)
  refine ⟨String.ofList rest, String.toList_inj.mp ?_⟩
  rw [text, String.toList_append]
  exact congrArg (stateFront ++ ·) String.toList_ofList.symm

/-- A canonical location names a location. -/
theorem IsCanonical.kind_eq {path : Path} (canonical : path.IsCanonical) : path.kind = .state :=
  kind_eq_state_iff.mpr ⟨path, canonical⟩

/-- The collection that a location names is the location in its canonical form. -/
theorem collection_of_located {entity : String} {location : Path}
    (located : canonicalState? ⟨entity⟩ = some location) : collection entity = location := by
  rw [collection, located, Option.getD_some]

/-- The collection that any other name names is found under that name. -/
theorem collection_of_unlocated {entity : String} (unlocated : canonicalState? ⟨entity⟩ = none) :
    collection entity = ⟨"$." ++ entity⟩ := by
  rw [collection, unlocated, Option.getD_none]

/-- Taking the qualifier off leaves the steps of a location. -/
theorem segments_canonicalState? {path canonical : Path}
    (found : path.canonicalState? = some canonical) {steps : List Segment}
    (read : path.segments = .ok steps) : canonical.segments = .ok steps := by
  have same := readPath_congr (unqualified_canonicalState? found)
  rw [segments_eq_ok_iff] at read ⊢
  exact same.trans read

/-- What is read as a state path names a location. -/
theorem kind_of_segments {path : Path} {steps : List Segment} (read : path.segments = .ok steps) :
    path.kind = .state := by
  obtain ⟨body, root, opens, -⟩ := readPath_eq_ok_iff.mp (segments_eq_ok_iff.mp read)
  obtain ⟨rest, rfl⟩ := List.head?_eq_some_iff.mp opens
  have location : Text.hasFront stateFront ('$' :: '.' :: rest) = true :=
    Text.hasFront_iff.mpr ⟨rest, rfl⟩
  obtain ⟨front, none | qualified, text⟩ := unqualified_eq_root_iff.mp root
  · have canonical : canonicalText? path.raw.toList = some ('$' :: '.' :: rest) :=
      canonicalText?_eq_some_iff.mpr ⟨location, .inl (by rw [text, none, List.nil_append])⟩
    exact classify_eq_state_iff.mpr ⟨_, canonical⟩
  · have canonical : canonicalText? path.raw.toList = some ('$' :: '.' :: rest) :=
      canonicalText?_eq_some_iff.mpr ⟨location, .inr (by rw [text, qualified]; rfl)⟩
    exact classify_eq_state_iff.mpr ⟨_, canonical⟩

end Path

namespace Collector

/-- Recording a location from nothing is reading it. -/
theorem mem_readsOf_record {path location : Path} :
    path ∈ readsOf (record location) ↔ path = location :=
  PathSet.mem_insert.trans (or_iff_left (PathSet.not_mem_empty path))

/-- What can be asked of a collector. -/
inductive Operation where
  /-- Looks a reference up. -/
  | read (path : Path)
  /-- Looks a text up. -/
  | readText (text : String)
  /-- Runs through a collection. -/
  | readCollection (entity : String)
  /-- Leaves a diagnostic. -/
  | diagnose (message : String)
  /-- Does something inside a scope. -/
  | within (label : String) (body : List Operation)

mutual

/-- What an operation does. -/
def Operation.perform : Operation → Walk
  | .read path => Collector.read path
  | .readText text => Collector.readText text
  | .readCollection entity => Collector.readCollection entity
  | .diagnose message => Collector.diagnose message
  | .within label body => Collector.within label (performAll body)

/-- What operations do, one after the other. -/
def performAll : List Operation → Walk
  | [] => id
  | operation :: operations => fun collector => performAll operations (operation.perform collector)

end

mutual

/-- An operation records canonical locations. -/
theorem Operation.perform_canonical : ∀ operation : Operation, Canonical operation.perform
  | .read path => (read_canonical path).congr fun collector => by rw [Operation.perform]
  | .readText text => (readText_canonical text).congr fun collector => by rw [Operation.perform]
  | .readCollection entity =>
    (readCollection_canonical entity).congr fun collector => by rw [Operation.perform]
  | .diagnose message => (diagnose_canonical message).congr fun collector => by rw [Operation.perform]
  | .within label body =>
    ((performAll_canonical body).within label).congr fun collector => by rw [Operation.perform]

/-- Operations record canonical locations. -/
theorem performAll_canonical : ∀ operations : List Operation, Canonical (performAll operations)
  | [] => canonical_id.congr fun collector => by rw [performAll]
  | operation :: operations =>
    (operation.perform_canonical.then (performAll_canonical operations)).congr
      fun collector => by rw [performAll]

end

/-- On every text the ways to recognise a location agree. A text is of the kind of locations exactly if
it has a canonical form, and exactly if looking it up records something. Then looking it up as a text or
as a reference, and running through the collection of that name, record one and the same location: it
begins with `$.`, it is its own canonical form, and it is where the collection is found. A text that is
read as a state path is one of them, and its canonical form has the same steps. Of every other text
nothing is recorded, unless it names a collection: that is recorded under `$.` and the name, which is
canonical. So whatever operations a collector runs through, what it has recorded begins with `$.` and
is of the kind of locations. -/
theorem recognised_alike (text : String) :
    (Path.kind ⟨text⟩ = .state ↔ ∃ location, Path.canonicalState? ⟨text⟩ = some location) ∧
    (Path.kind ⟨text⟩ = .state ↔ ∃ location, location ∈ readsOf (readText text)) ∧
    (Path.kind ⟨text⟩ = .state → ∃ location,
      readText text = record location ∧ read ⟨text⟩ = record location ∧
      readCollection text = record location ∧ (∃ rest, location.raw = "$." ++ rest) ∧
      location.canonicalState? = some location ∧ Path.collection text = location ∧
      Path.canonicalState? ⟨text⟩ = some location) ∧
    (∀ steps, Segment.parsePath text = .ok steps → Path.kind ⟨text⟩ = .state ∧
      ∃ location, Path.canonicalState? ⟨text⟩ = some location ∧
        Segment.parsePath location.raw = .ok steps) ∧
    (Path.kind ⟨text⟩ ≠ .state → readText text = id ∧ read ⟨text⟩ = id ∧
      (text ≠ "" → readCollection text = record ⟨"$." ++ text⟩ ∧
        Path.canonicalState? ⟨"$." ++ text⟩ = some ⟨"$." ++ text⟩)) ∧
    ∀ operations path, path ∈ readsOf (performAll operations) →
      (∃ rest, path.raw = "$." ++ rest) ∧ path.kind = .state := by
  refine ⟨Path.kind_eq_state_iff, ?_, fun isLocation => ?_, fun steps read => ?_,
    fun noLocation => ?_, fun operations path recorded => ?_⟩
  · rw [readText_eq_read]
    cases located : Path.canonicalState? ⟨text⟩ with
    | none =>
      rw [read_of_unlocated located]
      refine iff_of_false (Path.canonicalState?_eq_none_iff.mp located) ?_
      rintro ⟨location, recorded⟩
      exact PathSet.not_mem_empty location recorded
    | some location =>
      rw [read_of_located located]
      exact iff_of_true (Path.kind_eq_state_iff.mpr ⟨location, located⟩)
        ⟨location, mem_readsOf_record.mpr rfl⟩
  · obtain ⟨location, located⟩ := Path.kind_eq_state_iff.mp isLocation
    have canonical : location.IsCanonical := Path.canonicalState?_idempotent located
    have named : text ≠ "" := by
      rintro rfl
      revert isLocation
      decide
    have collection := Path.collection_of_located located
    refine ⟨location, ?_, read_of_located located, ?_, canonical.begins, canonical, collection,
      located⟩
    · rw [readText_eq_read, read_of_located located]
    · rw [readCollection_of_named named, collection]
  · have isLocation : Path.kind ⟨text⟩ = .state := Path.kind_of_segments read
    obtain ⟨location, located⟩ := Path.kind_eq_state_iff.mp isLocation
    exact ⟨isLocation, location, located, Path.segments_canonicalState? located read⟩
  · have unlocated : Path.canonicalState? ⟨text⟩ = none :=
      Path.canonicalState?_eq_none_iff.mpr noLocation
    refine ⟨?_, read_of_unlocated unlocated, fun named => ⟨?_, Path.canonicalState?_of_name text⟩⟩
    · rw [readText_eq_read, read_of_unlocated unlocated]
    · rw [readCollection_of_named named, Path.collection_of_unlocated unlocated]
  · have canonical : path.IsCanonical := (performAll_canonical operations).readsOf recorded
    exact ⟨canonical.begins, canonical.kind_eq⟩

/-- A location with the qualifier is recorded without it, and a text with the qualifier twice, which
names no location, is recorded only as the name of a collection. -/
theorem recognised_alike_qualified :
    Path.kind ⟨"state:$.players"⟩ = .state ∧
      Path.collection "state:$.players" = ⟨"$.players"⟩ ∧
        readText "state:$.players" = record ⟨"$.players"⟩ ∧
          Path.kind ⟨"state:state:$.players"⟩ ≠ .state ∧ readText "state:state:$.players" = id ∧
            readCollection "state:state:$.players" = record ⟨"$.state:state:$.players"⟩ := by
  have isLocation : Path.kind ⟨"state:$.players"⟩ = .state := by decide
  have noLocation : Path.kind ⟨"state:state:$.players"⟩ ≠ .state := by decide
  have located : Path.canonicalState? ⟨"state:$.players"⟩ = some ⟨"$.players"⟩ := by decide
  obtain ⟨-, -, alike, -⟩ := recognised_alike "state:$.players"
  obtain ⟨location, recorded, -, -, -, -, collection, found⟩ := alike isLocation
  cases located.symm.trans found
  obtain ⟨-, -, -, -, other, -⟩ := recognised_alike "state:state:$.players"
  obtain ⟨ignored, -, collected⟩ := other noLocation
  exact ⟨isLocation, collection, recorded, noLocation, ignored, (collected (by decide)).1⟩

end Collector

end GameRules
