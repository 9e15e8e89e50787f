import GameRules.Proofs.Path.Union
import GameRules.Proofs.Walk.Steps

/-!
# Walks that only add

A walk is handed what was collected before it, and could do anything with it. The walks here only
add: they read the same locations and leave the same diagnostics after whatever was collected before,
and are where they were when they are done. Such a walk is described by the set that it reads from
nothing and by its notes, which are its diagnostics without the scopes that enclose the walk. The law
holds of the steps of a walk, and each way to build a walk of others keeps it.
-/

namespace GameRules

/-- A diagnostic as the walk that leaves it knows it, wherever that walk is made. -/
structure Note where
  /-- The labels of the scopes that the walk itself has entered, the outermost first. -/
  labels : List String
  /-- What is wrong. -/
  message : String

namespace Note

/-- The diagnostic that is left inside of some scopes. -/
def under (scope : List String) (note : Note) : Diagnostic :=
  ⟨": ".intercalate (scope ++ note.labels), note.message⟩

/-- The note of the walk that enters a scope first. -/
def inside (label : String) (note : Note) : Note := ⟨label :: note.labels, note.message⟩

/-- A note inside of a scope is left in that scope after the enclosing ones. -/
theorem under_inside (scope : List String) (label : String) (note : Note) :
    (note.inside label).under scope = note.under (scope ++ [label]) := by
  rw [under, under, inside, List.append_assoc, List.singleton_append]

end Note

namespace Collector

/-- A walk adds its reads and its notes to what was collected before, and is back where it was. -/
def Appends (walk : Walk) (notes : List Note) : Prop :=
  ∀ collector, walk collector =
    ⟨collector.reads ∪ readsOf walk, collector.diagnostics ++ notes.map (Note.under collector.scope),
      collector.scope⟩

/-- A walk that adds nothing but its reads. -/
abbrev Silent (walk : Walk) : Prop := Appends walk []

variable {walk other : Walk} {notes others : List Note}

/-- A walk appends its notes if there are locations that it adds to those read before. -/
theorem Appends.of_reads (reads : PathSet)
    (appends : ∀ collector, walk collector =
      ⟨collector.reads ∪ reads, collector.diagnostics ++ notes.map (Note.under collector.scope),
        collector.scope⟩) : Appends walk notes := by
  have fromNothing : readsOf walk = reads := by
    rw [readsOf, appends empty]
    exact PathSet.empty_union reads
  intro collector
  rw [appends, fromNothing]

/-- The law of a walk is that of any walk that does the same. -/
theorem Appends.congr (same : ∀ collector, walk collector = other collector)
    (appends : Appends other notes) : Appends walk notes := by
  have equal : walk = other := funext same
  rwa [equal]

/-- Walking nowhere adds nothing. -/
theorem silent_id : Silent id :=
  .of_reads ∅ fun collector => by
    rw [PathSet.union_empty, List.map_nil, List.append_nil]
    rfl

/-- Recording a location adds it. -/
theorem record_silent (path : Path) : Silent (record path) :=
  .of_reads ((∅ : PathSet).insert path) fun collector => by
    rw [record, PathSet.insert_eq_union, List.map_nil, List.append_nil]

/-- Looking a reference up adds its location, if it has one. -/
theorem read_silent (path : Path) : Silent (read path) := by
  cases located : path.canonicalState? with
  | none =>
    rw [read_of_unlocated located]
    exact silent_id
  | some location =>
    rw [read_of_located located]
    exact record_silent location

/-- Looking a text up adds the location that it is a reference to, if it is one. -/
theorem readText_silent (text : String) : Silent (readText text) := by
  rw [readText_eq_read]
  exact read_silent ⟨text⟩

/-- Running through a collection adds its location, if it has a name. -/
theorem readCollection_silent (entity : String) : Silent (readCollection entity) := by
  by_cases unnamed : entity = ""
  · rw [unnamed, readCollection_empty]
    exact silent_id
  · rw [readCollection_of_named unnamed]
    exact record_silent _

/-- A diagnostic is left at the place where the walk is. -/
theorem diagnose_appends (message : String) : Appends (diagnose message) [⟨[], message⟩] :=
  .of_reads ∅ fun collector => by
    rw [diagnose, PathSet.union_empty, List.map_singleton, Note.under, List.append_nil]

/-- Two walks, one after the other, add what each of them adds. -/
theorem Appends.then (first : Appends walk notes) (second : Appends other others) :
    Appends (fun collector => other (walk collector)) (notes ++ others) :=
  .of_reads (readsOf walk ∪ readsOf other) fun collector => by
    rw [second, first, PathSet.union_assoc, List.map_append, List.append_assoc]

/-- A walk after another one reads what it reads, and what the other one reads. -/
theorem Appends.readsOf_after (second : Appends other others) :
    readsOf (fun collector => other (walk collector)) = readsOf walk ∪ readsOf other := by
  rw [readsOf, second, ← readsOf]

/-- Inside of a scope, a walk adds the same reads, and its notes with the label of the scope. -/
theorem Appends.within (label : String) (appends : Appends walk notes) :
    Appends (within label walk) (notes.map (Note.inside label)) :=
  .of_reads (readsOf walk) fun collector => by
    have labelled : (notes.map (Note.inside label)).map (Note.under collector.scope) =
        notes.map (Note.under (collector.scope ++ [label])) := by
      rw [List.map_map]
      exact List.map_congr_left fun note _ => Note.under_inside collector.scope label note
    rw [Collector.within, leave, enter, appends, labelled]
    dsimp only
    rw [List.dropLast_concat]

section Parts

variable {α : Type} {visit : α → Walk} {notesOf : α → List Note}

/-- A walk over a value that may be absent adds what the walk over the value adds. -/
theorem Appends.whenSome {value : Option α}
    (appends : ∀ given ∈ value, Appends (visit given) (notesOf given)) :
    Appends (whenSome visit value) (value.toList.flatMap notesOf) := by
  cases value with
  | none => exact silent_id
  | some given =>
    rw [Option.toList_some, List.flatMap_singleton]
    exact appends given rfl

/-- A walk over a list adds what the walks over its elements add, in turn. -/
theorem Appends.each {items : List α}
    (appends : ∀ item ∈ items, Appends (visit item) (notesOf item)) :
    Appends (each visit items) (items.flatMap notesOf) := by
  induction items with
  | nil => exact silent_id
  | cons item items ih =>
    obtain ⟨first, rest⟩ := List.forall_mem_cons.mp appends
    rw [List.flatMap_cons]
    exact (first.then (ih rest)).congr fun collector => rfl

/-- A walk over a list with positions adds what the walks over its elements add, in turn. -/
theorem Appends.eachFrom {visit : Nat → α → Walk} {notesOf : Nat → α → List Note} {items : List α}
    (appends : ∀ item ∈ items, ∀ position, Appends (visit position item) (notesOf position item))
    (position : Nat) :
    Appends (eachFrom visit position items)
      ((items.zipIdx position).flatMap fun (item, index) => notesOf index item) := by
  induction items generalizing position with
  | nil => exact silent_id
  | cons item items ih =>
    obtain ⟨first, rest⟩ := List.forall_mem_cons.mp appends
    rw [List.zipIdx_cons, List.flatMap_cons]
    exact ((first position).then (ih rest (position + 1))).congr fun collector => rfl

/-- A walk over a value that may be absent is silent if the walk over the value is. -/
theorem Silent.whenSome (silent : ∀ given, Silent (visit given)) (value : Option α) :
    Silent (whenSome visit value) := by
  cases value with
  | none => exact silent_id
  | some given => exact silent given

/-- A walk over a list is silent if the walks over its elements are. -/
theorem Silent.each (silent : ∀ item, Silent (visit item)) (items : List α) :
    Silent (each visit items) := by
  have appends : Appends (Collector.each visit items) (items.flatMap fun _ => []) :=
    .each fun item _ => silent item
  rwa [List.flatMap_eq_nil_iff.mpr fun _ _ => rfl] at appends

/-- A walk over a list reads what a walk over one of its elements reads. -/
theorem mem_readsOf_each {items : List α} {location : Path}
    (appends : ∀ item ∈ items, Appends (visit item) (notesOf item)) :
    location ∈ readsOf (Collector.each visit items) ↔
      ∃ item ∈ items, location ∈ readsOf (visit item) := by
  induction items with
  | nil => simp [readsOf, Collector.each, empty, PathSet.not_mem_empty]
  | cons item items ih =>
    obtain ⟨-, rest⟩ := List.forall_mem_cons.mp appends
    have split : readsOf (Collector.each visit (item :: items)) =
        readsOf (visit item) ∪ readsOf (Collector.each visit items) :=
      (Appends.each rest).readsOf_after
    rw [split, PathSet.mem_union, ih rest, List.exists_mem_cons_iff]

end Parts

end Collector

end GameRules
