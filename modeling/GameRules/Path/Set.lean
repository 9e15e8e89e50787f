import GameRules.Path.Basic

/-!
# Sets of references

The locations a rule reads and writes are sets. A set is kept as its references in strictly
ascending order of their texts, so equal sets are equal values and a set is written down in one way.
-/

namespace GameRules

/-- A finite set of references. -/
structure PathSet where
  /-- The members in ascending order. -/
  toList : List Path
  /-- The order is strict, so no member is listed twice. -/
  ascending : toList.Pairwise fun left right => left.raw < right.raw
deriving DecidableEq

namespace PathSet

/-- The set without members. -/
def empty : PathSet := ⟨[], List.Pairwise.nil⟩

instance : Inhabited PathSet := ⟨empty⟩

instance : EmptyCollection PathSet := ⟨empty⟩

instance : Membership Path PathSet := ⟨fun set path => path ∈ set.toList⟩

instance (path : Path) (set : PathSet) : Decidable (path ∈ set) :=
  inferInstanceAs (Decidable (path ∈ set.toList))

/-- Puts a reference at its place in an ascending list. -/
def insertSorted (path : Path) : List Path → List Path
  | [] => [path]
  | other :: rest =>
    if path.raw < other.raw then path :: other :: rest
    else if path = other then other :: rest
    else other :: insertSorted path rest

/-- The members are the old ones and the new one. -/
theorem mem_insertSorted {path other : Path} {members : List Path} :
    other ∈ insertSorted path members ↔ other = path ∨ other ∈ members := by
  induction members with
  | nil => simp [insertSorted]
  | cons first rest ih =>
    simp only [insertSorted]
    split
    · simp
    · split
      · rename_i same
        simp [same]
      · simp only [List.mem_cons, ih]
        constructor
        · rintro (here | new | old)
          · exact .inr (.inl here)
          · exact .inl new
          · exact .inr (.inr old)
        · rintro (new | here | old)
          · exact .inr (.inl new)
          · exact .inl here
          · exact .inr (.inr old)

/-- Two references with the same text are the same. -/
theorem raw_injective {left right : Path} (same : left.raw = right.raw) : left = right := by
  cases left
  cases right
  exact congrArg Path.mk same

/-- Of two different references one has the smaller text. -/
theorem lt_of_not_lt_of_ne {left right : Path} (notBefore : ¬left.raw < right.raw)
    (different : left ≠ right) : right.raw < left.raw := by
  refine Std.lt_of_le_of_ne (String.not_lt.mp notBefore) fun same => different ?_
  exact raw_injective same.symm

/-- Putting a reference at its place keeps the order. -/
theorem insertSorted_ascending {path : Path} {members : List Path}
    (ascending : members.Pairwise fun left right => left.raw < right.raw) :
    (insertSorted path members).Pairwise fun left right => left.raw < right.raw := by
  induction members with
  | nil => exact List.pairwise_singleton _ _
  | cons first rest ih =>
    rw [List.pairwise_cons] at ascending
    obtain ⟨below, tail⟩ := ascending
    simp only [insertSorted]
    split
    · rename_i before
      refine List.pairwise_cons.mpr ⟨?_, List.pairwise_cons.mpr ⟨below, tail⟩⟩
      intro other member
      rcases List.mem_cons.mp member with rfl | inside
      · exact before
      · exact String.lt_trans before (below other inside)
    · split
      · exact List.pairwise_cons.mpr ⟨below, tail⟩
      · rename_i notBefore different
        refine List.pairwise_cons.mpr ⟨?_, ih tail⟩
        intro other member
        rcases mem_insertSorted.mp member with rfl | inside
        · exact lt_of_not_lt_of_ne notBefore different
        · exact below other inside

/-- The set with one more member. -/
def insert (path : Path) (set : PathSet) : PathSet :=
  ⟨insertSorted path set.toList, insertSorted_ascending set.ascending⟩

/-- The members of either set. -/
def union (left right : PathSet) : PathSet := right.toList.foldl (fun set path => set.insert path) left

instance : Union PathSet := ⟨union⟩

/-- Nothing is a member of the empty set. -/
theorem not_mem_empty (path : Path) : path ∉ (∅ : PathSet) := List.not_mem_nil

/-- Inserting adds exactly one member. -/
theorem mem_insert {path other : Path} {set : PathSet} :
    other ∈ set.insert path ↔ other = path ∨ other ∈ set := mem_insertSorted

/-- Inserting a list adds exactly its members. -/
theorem mem_foldl_insert {other : Path} {members : List Path} {set : PathSet} :
    other ∈ members.foldl (fun set path => set.insert path) set ↔ other ∈ set ∨ other ∈ members := by
  induction members generalizing set with
  | nil => simp
  | cons first rest ih =>
    rw [List.foldl_cons, ih, mem_insert, List.mem_cons]
    constructor
    · rintro ((here | old) | later)
      · exact .inr (.inl here)
      · exact .inl old
      · exact .inr (.inr later)
    · rintro (old | here | later)
      · exact .inl (.inr old)
      · exact .inl (.inl here)
      · exact .inr later

/-- The union has exactly the members of both sets. -/
theorem mem_union {other : Path} {left right : PathSet} :
    other ∈ left ∪ right ↔ other ∈ left ∨ other ∈ right := mem_foldl_insert

end PathSet

end GameRules
