/-!
# Entries in key order

Objects, parameter lists and the views of a rule are lists of named entries kept in ascending order
of their keys, one entry a key. Strings are ordered by code point.
-/

namespace GameRules

/-- Named entries. -/
abbrev Entries (α : Type) := List (String × α)

namespace Entries

variable {α β : Type}

/-- Keys are strictly ascending. -/
def Ordered (entries : Entries α) : Prop :=
  entries.Pairwise fun left right => left.1 < right.1

/-- Puts a value under a key, in order, in place of the key's old value. -/
def insert (key : String) (value : α) : Entries α → Entries α
  | [] => [(key, value)]
  | (other, old) :: rest =>
    if key < other then (key, value) :: (other, old) :: rest
    else if key = other then (key, value) :: rest
    else (other, old) :: insert key value rest

/-- The keys in order. -/
def keys (entries : Entries α) : List String := entries.map (·.1)

/-- The values in the order of their keys. -/
def values (entries : Entries α) : List α := entries.map (·.2)

/-- Changes every value and keeps the keys. -/
def mapValues (change : α → β) (entries : Entries α) : Entries β :=
  entries.map fun entry => (entry.1, change entry.2)

/-- The key just inserted holds the value inserted. -/
theorem lookup_insert_self (key : String) (value : α) (entries : Entries α) :
    (insert key value entries).lookup key = some value := by
  induction entries with
  | nil => simp [insert]
  | cons entry rest ih =>
    obtain ⟨other, old⟩ := entry
    simp only [insert]
    split
    · simp
    · split
      · simp
      · rename_i different
        simp only [List.lookup_cons, beq_eq_false_iff_ne.mpr different, ih]

/-- Every other key keeps its value. -/
theorem lookup_insert_of_ne {key other : String} (value : α) (entries : Entries α)
    (different : other ≠ key) : (insert key value entries).lookup other = entries.lookup other := by
  induction entries with
  | nil => simp [insert, List.lookup_cons, beq_eq_false_iff_ne.mpr different]
  | cons entry rest ih =>
    obtain ⟨name, old⟩ := entry
    simp only [insert]
    split
    · simp [List.lookup_cons, beq_eq_false_iff_ne.mpr different]
    · split
      · rename_i same
        subst same
        simp [List.lookup_cons, beq_eq_false_iff_ne.mpr different]
      · simp only [List.lookup_cons, ih]

end Entries

end GameRules
