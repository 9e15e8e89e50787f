import GameRules.Json.Reader
import GameRules.Proofs.Entries

/-!
# What documents are

A whole number of a document has 64 bits, and the entries of an object are in the order of their keys.
The reader yields no other documents, and none that are nested deeper than it goes.
-/

namespace GameRules.Json

mutual

/-- How many arrays and objects of a document are inside one another. -/
def nesting : Json → Nat
  | null => 0
  | bool _ => 0
  | int _ => 0
  | float _ => 0
  | string _ => 0
  | array items => nestingOfItems items + 1
  | object entries => nestingOfEntries entries + 1

/-- How many arrays and objects of the items of a list are inside one another. -/
def nestingOfItems : List Json → Nat
  | [] => 0
  | item :: items => max item.nesting (nestingOfItems items)

/-- How many arrays and objects of the values of entries are inside one another. -/
def nestingOfEntries : List (String × Json) → Nat
  | [] => 0
  | (_, value) :: entries => max value.nesting (nestingOfEntries entries)

end

mutual

/-- A document and the documents inside it, at any depth. -/
def subdocuments : Json → List Json
  | null => [null]
  | bool value => [bool value]
  | int value => [int value]
  | float value => [float value]
  | string value => [string value]
  | array items => array items :: subdocumentsOfItems items
  | object entries => object entries :: subdocumentsOfEntries entries

/-- The items of a list and the documents inside them. -/
def subdocumentsOfItems : List Json → List Json
  | [] => []
  | item :: items => item.subdocuments ++ subdocumentsOfItems items

/-- The values of entries and the documents inside them. -/
def subdocumentsOfEntries : List (String × Json) → List Json
  | [] => []
  | (_, value) :: entries => value.subdocuments ++ subdocumentsOfEntries entries

end

/-- What a document is of itself, apart from what is inside it: whole numbers have 64 bits, signed or
unsigned, and entries are in the order of their keys. -/
def Proper : Json → Prop
  | int value => -(2 ^ 63) ≤ value ∧ value < 2 ^ 64
  | object entries => Entries.Ordered entries
  | null => True
  | bool _ => True
  | float _ => True
  | string _ => True
  | array _ => True

instance : DecidablePred Proper
  | int value => inferInstanceAs (Decidable (-(2 ^ 63) ≤ value ∧ value < 2 ^ 64))
  | object entries => List.instDecidablePairwise entries
  | null | bool _ | float _ | string _ | array _ => inferInstanceAs (Decidable True)

/-- The value of a fractional number. -/
def asFraction? : Json → Option Binary64
  | float value => some value
  | _ => none

/-- The fractional numbers inside a document, at any depth. -/
def fractions (document : Json) : List Binary64 := document.subdocuments.filterMap asFraction?

/-- A document is one of its own subdocuments. -/
theorem self_mem_subdocuments (document : Json) : document ∈ document.subdocuments := by
  cases document <;> exact List.mem_cons_self

/-- Items are nested to at most a depth if each of them is. -/
theorem nestingOfItems_le_iff {items : List Json} {depth : Nat} :
    nestingOfItems items ≤ depth ↔ ∀ item ∈ items, item.nesting ≤ depth := by
  induction items with
  | nil => simp [nestingOfItems]
  | cons item items ih => rw [nestingOfItems, Nat.max_le, List.forall_mem_cons, ih]

/-- Entries are nested to at most a depth if each of their values is. -/
theorem nestingOfEntries_le_iff {entries : List (String × Json)} {depth : Nat} :
    nestingOfEntries entries ≤ depth ↔ ∀ entry ∈ entries, entry.2.nesting ≤ depth := by
  induction entries with
  | nil => simp [nestingOfEntries]
  | cons entry entries ih => rw [nestingOfEntries, Nat.max_le, List.forall_mem_cons, ih]

/-- What is inside items is inside one of them. -/
theorem forall_mem_subdocumentsOfItems {items : List Json} {property : Json → Prop} :
    (∀ part ∈ subdocumentsOfItems items, property part) ↔
      ∀ item ∈ items, ∀ part ∈ item.subdocuments, property part := by
  induction items with
  | nil => simp [subdocumentsOfItems]
  | cons item items ih => rw [subdocumentsOfItems, List.forall_mem_append, List.forall_mem_cons, ih]

/-- What is inside entries is inside one of their values. -/
theorem forall_mem_subdocumentsOfEntries {entries : List (String × Json)} {property : Json → Prop} :
    (∀ part ∈ subdocumentsOfEntries entries, property part) ↔
      ∀ entry ∈ entries, ∀ part ∈ entry.2.subdocuments, property part := by
  induction entries with
  | nil => simp [subdocumentsOfEntries]
  | cons entry entries ih =>
    rw [subdocumentsOfEntries, List.forall_mem_append, List.forall_mem_cons, ih]

/-- A document nested to at most a depth whose documents are all proper. -/
structure Sound (depth : Nat) (document : Json) : Prop where
  /-- It is not nested too deep. -/
  shallow : document.nesting ≤ depth
  /-- Every document inside it is proper. -/
  proper : ∀ part ∈ document.subdocuments, part.Proper

/-- A document with nothing inside it is sound at every depth if it is proper. -/
theorem sound_of_alone (document : Json) (alone : document.subdocuments = [document])
    (flat : document.nesting = 0) (proper : document.Proper) (depth : Nat) :
    document.Sound depth where
  shallow := by
    rw [flat]
    exact Nat.zero_le depth
  proper := by
    rw [alone]
    exact List.forall_mem_singleton.mpr proper

/-- What is sound at a depth is sound at every greater one. -/
theorem Sound.mono {document : Json} {depth deeper : Nat} (sound : document.Sound depth)
    (le : depth ≤ deeper) : document.Sound deeper :=
  ⟨Nat.le_trans sound.shallow le, sound.proper⟩

/-- The absent value is sound at every depth. -/
theorem sound_null (depth : Nat) : null.Sound depth :=
  sound_of_alone null rfl rfl trivial depth

/-- A truth value is sound at every depth. -/
theorem sound_bool (value : Bool) (depth : Nat) : (bool value).Sound depth :=
  sound_of_alone (bool value) rfl rfl trivial depth

/-- A whole number of 64 bits, signed or unsigned, is sound at every depth. -/
theorem sound_int {value : Int} (fits : -(2 ^ 63) ≤ value ∧ value < 2 ^ 64) (depth : Nat) :
    (int value).Sound depth :=
  sound_of_alone (int value) rfl rfl fits depth

/-- A fractional number is sound at every depth. -/
theorem sound_float (value : Binary64) (depth : Nat) : (float value).Sound depth :=
  sound_of_alone (float value) rfl rfl trivial depth

/-- A text is sound at every depth. -/
theorem sound_string (value : String) (depth : Nat) : (string value).Sound depth :=
  sound_of_alone (string value) rfl rfl trivial depth

/-- An array is sound at a depth exactly if its items are sound one level less deep. -/
theorem sound_array_iff {items : List Json} {depth : Nat} :
    (array items).Sound depth ↔ ∃ less, depth = less + 1 ∧ ∀ item ∈ items, item.Sound less := by
  constructor
  · rintro ⟨shallow, proper⟩
    obtain ⟨less, rfl⟩ := Nat.exists_eq_add_one_of_ne_zero (Nat.ne_zero_of_lt shallow)
    have inside := nestingOfItems_le_iff.mp (Nat.le_of_succ_le_succ shallow)
    have parts := forall_mem_subdocumentsOfItems.mp (List.forall_mem_cons.mp proper).2
    exact ⟨less, rfl, fun item member => ⟨inside item member, parts item member⟩⟩
  · rintro ⟨less, rfl, sound⟩
    have inside : nestingOfItems items ≤ less :=
      nestingOfItems_le_iff.mpr fun item member => (sound item member).shallow
    refine ⟨Nat.succ_le_succ inside, List.forall_mem_cons.mpr ⟨trivial, ?_⟩⟩
    exact forall_mem_subdocumentsOfItems.mpr fun item member => (sound item member).proper

/-- An object is sound at a depth exactly if its entries are in order and their values sound one level
less deep. -/
theorem sound_object_iff {entries : Entries Json} {depth : Nat} :
    (object entries).Sound depth ↔
      ∃ less, depth = less + 1 ∧ entries.Ordered ∧ ∀ entry ∈ entries, entry.2.Sound less := by
  constructor
  · rintro ⟨shallow, proper⟩
    obtain ⟨less, rfl⟩ := Nat.exists_eq_add_one_of_ne_zero (Nat.ne_zero_of_lt shallow)
    have inside := nestingOfEntries_le_iff.mp (Nat.le_of_succ_le_succ shallow)
    obtain ⟨ordered, proper⟩ := List.forall_mem_cons.mp proper
    have parts := forall_mem_subdocumentsOfEntries.mp proper
    exact ⟨less, rfl, ordered, fun entry member => ⟨inside entry member, parts entry member⟩⟩
  · rintro ⟨less, rfl, ordered, sound⟩
    have inside : nestingOfEntries entries ≤ less :=
      nestingOfEntries_le_iff.mpr fun entry member => (sound entry member).shallow
    refine ⟨Nat.succ_le_succ inside, List.forall_mem_cons.mpr ⟨ordered, ?_⟩⟩
    exact forall_mem_subdocumentsOfEntries.mpr fun entry member => (sound entry member).proper

/-- An array is sound if its items are. -/
theorem sound_array {items : List Json} {depth : Nat} (sound : ∀ item ∈ items, item.Sound depth) :
    (array items).Sound (depth + 1) :=
  sound_array_iff.mpr ⟨depth, rfl, sound⟩

/-- An object in order is sound if its values are. -/
theorem sound_object {entries : Entries Json} {depth : Nat} (ordered : entries.Ordered)
    (sound : ∀ entry ∈ entries, entry.2.Sound depth) : (object entries).Sound (depth + 1) :=
  sound_object_iff.mpr ⟨depth, rfl, ordered, sound⟩

/-- A significand fits 64 bits if it did before digits were appended. -/
theorem absorb_le {start : Nat} (fits : start ≤ Numeral.significandMax) (digits : List Char) :
    (Numeral.absorb start digits).1 ≤ Numeral.significandMax := by
  induction digits generalizing start with
  | nil => exact fits
  | cons digit digits ih =>
    rw [Numeral.absorb]
    split
    · rename_i next
      exact ih next
    · exact fits

/-- The whole number of a numeral has 64 bits, signed or unsigned. -/
theorem bounds_of_toInt? {numeral : Numeral} {value : Int} (read : numeral.toInt? = some value) :
    -(2 ^ 63) ≤ value ∧ value < 2 ^ 64 := by
  unfold Numeral.toInt? at read
  split at read
  · rename_i significand absorbed
    have fits := absorb_le (Nat.zero_le _) numeral.whole
    rw [absorbed, Numeral.significandMax] at fits
    grind
  · cases read

/-- A number is sound at every depth. -/
theorem sound_of_number? {text left : List Char} {number : Json} (depth : Nat)
    (read : number? text = some (number, left)) : number.Sound depth := by
  simp only [number?, Option.bind_eq_bind, Option.bind_eq_some_iff, Prod.exists, Option.pure_def,
    Option.some.injEq, Prod.mk.injEq] at read
  obtain ⟨numeral, _, -, _, valued, rfl, -⟩ := read
  unfold Numeral.toJson? at valued
  split at valued
  · rename_i value whole
    cases valued
    exact sound_int (bounds_of_toInt? whole) depth
  · obtain ⟨value, -, rfl⟩ := Option.map_eq_some_iff.mp valued
    exact sound_float value depth

/-- A scalar is sound at every depth. -/
theorem sound_of_scalar? {text left : List Char} {document : Json} (depth : Nat)
    (read : scalar? text = some (document, left)) : document.Sound depth := by
  unfold scalar? at read
  split at read
  · cases read
    exact sound_null depth
  · cases read
    exact sound_bool true depth
  · cases read
    exact sound_bool false depth
  · simp only [Option.map_eq_some_iff, Prod.mk.injEq, Prod.exists] at read
    obtain ⟨text, _, -, rfl, -⟩ := read
    exact sound_string text depth
  · exact sound_of_number? depth read

section Inner

variable {inner : Reader Json} {consumes : inner.Consumes} {depth : Nat} {left : List Char}
  (sound : ∀ text document left, inner text = some (document, left) → document.Sound depth)

include sound

/-- Items are sound if the reader of each of them yields sound documents. -/
theorem sound_of_items {text : List Char} {values : List Json}
    (read : items inner consumes text = some (values, left)) :
    ∀ value ∈ values, value.Sound depth := by
  fun_induction items inner consumes text generalizing values left with
  | case1 => cases read
  | case2 text item middle step more space shorter ih =>
    simp only [Option.map_eq_some_iff, Prod.mk.injEq, Prod.exists] at read
    obtain ⟨_, _, others, rfl, -⟩ := read
    exact List.forall_mem_cons.mpr ⟨sound _ _ _ step, ih others⟩
  | case3 text item middle step after space =>
    cases read
    exact List.forall_mem_singleton.mpr (sound _ _ _ step)
  | case4 => cases read

/-- The value of an entry is sound if the reader of values yields sound documents. -/
theorem sound_of_entry {text : List Char} {key : String} {value : Json}
    (read : entry inner text = some ((key, value), left)) : value.Sound depth := by
  simp only [entry, Option.bind_eq_bind, Option.bind_eq_some_iff, Prod.exists] at read
  obtain ⟨_, _, -, read⟩ := read
  split at read
  · simp only [Option.bind_eq_some_iff, Prod.exists, Option.pure_def, Option.some.injEq,
      Prod.mk.injEq] at read
    obtain ⟨_, _, readValue, ⟨-, rfl⟩, -⟩ := read
    exact sound _ _ _ readValue
  · cases read

/-- Entries are in order, and their values sound, if those read before are. -/
theorem sound_of_entries {text : List Char} {sofar values : Entries Json}
    (ordered : sofar.Ordered) (before : ∀ entry ∈ sofar, entry.2.Sound depth)
    (read : entries inner consumes sofar text = some (values, left)) :
    values.Ordered ∧ ∀ entry ∈ values, entry.2.Sound depth := by
  have inserted {sofar : Entries Json} (before : ∀ entry ∈ sofar, entry.2.Sound depth)
      {text rest : List Char} {key : String} {value : Json}
      (step : entry inner text = some ((key, value), rest)) :
      ∀ entry ∈ sofar.insert key value, entry.2.Sound depth := by
    intro entry member
    rcases Entries.eq_or_mem_of_mem_insert member with rfl | old
    · exact sound_of_entry sound step
    · exact before entry old
  fun_induction entries inner consumes sofar text generalizing values left with
  | case1 => cases read
  | case2 sofar text key value middle step more space shorter ih =>
    exact ih (Entries.ordered_insert ordered) (inserted before step) read
  | case3 sofar text key value middle step after space =>
    cases read
    exact ⟨Entries.ordered_insert ordered, inserted before step⟩
  | case4 => cases read

/-- A compound document is sound one level deeper than its parts. -/
theorem sound_of_compound {text : List Char} {document : Json}
    (read : compound inner consumes text = some (document, left)) : document.Sound (depth + 1) := by
  unfold compound at read
  split at read
  · split at read
    · cases read
      exact sound_array (List.forall_mem_nil _)
    · simp only [Option.map_eq_some_iff, Prod.mk.injEq, Prod.exists] at read
      obtain ⟨_, _, inside, rfl, -⟩ := read
      exact sound_array (sound_of_items sound inside)
  · split at read
    · cases read
      exact sound_object List.Pairwise.nil (List.forall_mem_nil _)
    · simp only [Option.map_eq_some_iff, Prod.mk.injEq, Prod.exists] at read
      obtain ⟨_, _, inside, rfl, -⟩ := read
      obtain ⟨ordered, values⟩ :=
        sound_of_entries sound List.Pairwise.nil (List.forall_mem_nil _) inside
      exact sound_object ordered values
  · exact sound_of_scalar? _ read

end Inner

/-- What is read to a depth is sound at that depth. -/
theorem sound_of_nested {depth : Nat} {text left : List Char} {document : Json}
    (read : (nested depth).1 text = some (document, left)) : document.Sound depth := by
  induction depth generalizing text left document with
  | zero => exact sound_of_scalar? 0 read
  | succ depth ih => exact sound_of_compound (fun _ _ _ => ih) read

/-- What is read from a text is a proper document, nested no deeper than the reader goes. -/
theorem sound_of_read? {text : String} {document : Json} (read : read? text = some document) :
    document.Sound nestingLimit := by
  unfold read? readNested? at read
  split at read
  · rename_i front
    split at read
    · cases read
      exact sound_of_nested front
    · cases read
  · cases read

end GameRules.Json
