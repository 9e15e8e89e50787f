import GameRules.Proofs.Document.Agreement
import GameRules.Proofs.Document.Record

/-!
# Which error decoding ends with

Decoding stops at the first fault. What goes on after a part fails with the error of the part, and a
list fails with the error of its first item that cannot be decoded. Outcomes are alike if they differ
in the positions of a fault at most.
-/

namespace GameRules

variable {α β : Type}

namespace Decoded

/-- A decoder that goes on after another one fails when either does. -/
theorem bind_eq_error_iff {first : Decoded α} {next : α → Decoded β} {error : DecodeError} :
    first >>= next = .error error ↔
      first = .error error ∨ ∃ value, first = .ok value ∧ next value = .error error := by
  cases first with
  | error other => simp [bind, Except.bind]
  | ok value => simp [bind, Except.bind]

/-- Changing the result of a decoder does not change what it fails with. -/
theorem map_eq_error_iff {part : Decoded α} {change : α → β} {error : DecodeError} :
    change <$> part = .error error ↔ part = .error error := by
  cases part with
  | error other => simp [Functor.map, Except.map]
  | ok value => simp [Functor.map, Except.map]

/-- A part fails at its position. -/
theorem inside_eq_error_iff {position : Position} {part : Decoded α} {error : DecodeError} :
    Decoded.inside position part = .error error ↔
      ∃ inner, part = .error inner ∧ error = inner.within position := by
  cases part with
  | error inner => simp [inside, Except.mapError, eq_comm]
  | ok value => simp [inside, Except.mapError]

/-- A list fails with the error of its first item that cannot be decoded. -/
theorem mapM_eq_error_iff {decode : α → Decoded β} {items : List α} {error : DecodeError} :
    items.mapM decode = .error error ↔
      ∃ front item back, items = front ++ item :: back ∧
        (∀ earlier ∈ front, ∃ node, decode earlier = .ok node) ∧ decode item = .error error := by
  induction items with
  | nil => simp [pure, Except.pure]
  | cons item items ih =>
    simp only [List.mapM_cons, bind_eq_error_iff, ih, List.cons_eq_append_iff]
    constructor
    · rintro (failed | ⟨node, decoded, ⟨front, other, back, rfl, clear, failed⟩ | ⟨_, _, failed⟩⟩)
      · exact ⟨[], item, items, .inl ⟨rfl, rfl⟩, List.forall_mem_nil _, failed⟩
      · exact ⟨item :: front, other, back, .inr ⟨front, rfl, rfl⟩,
          List.forall_mem_cons.mpr ⟨⟨node, decoded⟩, clear⟩, failed⟩
      · cases failed
    · rintro ⟨front, other, back, ⟨rfl, same⟩ | ⟨front, rfl, rfl⟩, clear, failed⟩
      · cases same
        exact .inl failed
      · obtain ⟨⟨node, decoded⟩, clear⟩ := List.forall_mem_cons.mp clear
        exact .inr ⟨node, decoded, .inl ⟨front, other, back, rfl, clear, failed⟩⟩

/-- The same node, or the same fault at any position. -/
def Alike (left right : Decoded α) : Prop :=
  left.mapError DecodeError.fault = right.mapError DecodeError.fault

/-- What is like a node is that node. -/
theorem Alike.eq_ok {part : Decoded α} {node : α} (alike : Alike part (.ok node)) :
    part = .ok node := by
  cases part with
  | error error => cases alike
  | ok found =>
    cases alike
    rfl

/-- Where a part stands does not matter to what it is like. -/
theorem alike_inside (here there : Position) (part : Decoded α) :
    Alike (Decoded.inside here part) (Decoded.inside there part) := by
  cases part <;> rfl

/-- Alike outcomes stay so if what is decoded is changed in the same way. -/
theorem Alike.map {left right : Decoded α} (alike : Alike left right) (change : α → β) :
    Alike (change <$> left) (change <$> right) := by
  have commute (part : Decoded α) : (change <$> part).mapError DecodeError.fault =
      (part.mapError DecodeError.fault).map change := by
    cases part <;> rfl
  rw [Alike, commute, commute, alike]

end Decoded

/-- A list fails with the error of its first item that cannot be decoded, at the position of that
item. -/
theorem decodeItems_eq_error_iff {label : String} {start : Nat} {items : List Json}
    {decode : Json → Decoded α} {error : DecodeError} :
    decodeItems label start items (fun item _ => decode item) = .error error ↔
      ∃ front item back inner, items = front ++ item :: back ∧
        (∀ earlier ∈ front, ∃ node, decode earlier = .ok node) ∧ decode item = .error inner ∧
          error = inner.within (.item label (start + front.length)) := by
  induction items generalizing start with
  | nil => simp [decodeItems]
  | cons item items ih =>
    simp only [decodeItems, Decoded.bind_eq_error_iff, Decoded.inside_eq_ok_iff,
      Decoded.inside_eq_error_iff, ih, List.cons_eq_append_iff]
    constructor
    · rintro (⟨inner, failed, rfl⟩ | ⟨node, decoded, ⟨front, other, back, inner, rfl, clear, failed,
        rfl⟩ | ⟨_, _, failed⟩⟩)
      · exact ⟨[], item, items, inner, .inl ⟨rfl, rfl⟩, List.forall_mem_nil _, failed, rfl⟩
      · refine ⟨item :: front, other, back, inner, .inr ⟨front, rfl, rfl⟩,
          List.forall_mem_cons.mpr ⟨⟨node, decoded⟩, clear⟩, failed, ?_⟩
        rw [List.length_cons, Nat.add_right_comm, Nat.add_assoc]
      · cases failed
    · rintro ⟨front, other, back, inner, ⟨rfl, same⟩ | ⟨front, rfl, rfl⟩, clear, failed, rfl⟩
      · cases same
        exact .inl ⟨inner, failed, rfl⟩
      · obtain ⟨⟨node, decoded⟩, clear⟩ := List.forall_mem_cons.mp clear
        refine .inr ⟨node, decoded, .inl ⟨front, other, back, inner, rfl, clear, failed, ?_⟩⟩
        rw [List.length_cons, Nat.add_right_comm, Nat.add_assoc]

/-- A list that was written under a key fails like the first of its items that fails. -/
theorem Record.list_eq_error_of_item {entries : Record} {node : NodeKind} {key label word : String}
    {decode : Json → Decoded α} {front back : List Json} {part : Json} {error : DecodeError}
    (listed : entries.lookup key = some (.array (front ++ part :: back)))
    (before : ∀ earlier ∈ front, ∃ node, decode earlier = .ok node)
    (failed : decode part = .error error) :
    ((entries.fields node).forKind word).list key label (fun part _ => decode part) =
      .error (error.within (.item label front.length)) := by
  rw [Fields.list_eq, Fields.value?_forKind, Fields.value?_of_lookup listed rfl]
  refine decodeItems_eq_error_iff.mpr ⟨front, part, back, error, rfl, before, failed, ?_⟩
  rw [Nat.zero_add]

end GameRules
