import GameRules.Path.Set
import Mathlib.Data.List.Sort

/-!
# The algebra of sets of references

Sets with the same members are equal, because a set is written down in one way. What is known of
unions of finite sets therefore holds here as equations.
-/

namespace GameRules.PathSet

/-- Two sets with the same members are the same set. -/
theorem ext {left right : PathSet} (same : ∀ path, path ∈ left ↔ path ∈ right) : left = right := by
  obtain ⟨first, ascending⟩ := left
  obtain ⟨second, ascendingToo⟩ := right
  have antisymmetric : Std.Antisymm fun left right : Path => left.raw < right.raw :=
    ⟨fun _ _ below above => absurd above (String.lt_asymm below)⟩
  have irreflexive : Std.Irrefl fun left right : Path => left.raw < right.raw :=
    ⟨fun path => String.lt_irrefl path.raw⟩
  have equal : first = second := ascending.eq_of_mem_iff ascendingToo same
  subst equal
  rfl

variable (first second third : PathSet) (path : Path)

/-- Nothing is added by the empty set. -/
theorem union_empty : first ∪ ∅ = first := rfl

/-- Nothing is added to the empty set but the members of the other one. -/
theorem empty_union : ∅ ∪ first = first := by
  refine ext fun path => ?_
  rw [mem_union]
  exact or_iff_right (not_mem_empty path)

/-- Unions may be grouped in either way. -/
theorem union_assoc : first ∪ second ∪ third = first ∪ (second ∪ third) := by
  refine ext fun path => ?_
  rw [mem_union, mem_union, mem_union, mem_union, or_assoc]

/-- Inserting is a union with the set of the one member. -/
theorem insert_eq_union : first.insert path = first ∪ (∅ : PathSet).insert path := by
  refine ext fun other => ?_
  rw [mem_insert, mem_union, mem_insert, or_iff_left (not_mem_empty other), or_comm]

/-- The members of any of some sets. -/
def unionAll (sets : List PathSet) : PathSet := sets.foldl (· ∪ ·) ∅

/-- The union of some sets has exactly the members of one of them. -/
theorem mem_unionAll {sets : List PathSet} {location : Path} :
    location ∈ unionAll sets ↔ ∃ set ∈ sets, location ∈ set := by
  have grown (start : PathSet) : location ∈ sets.foldl (· ∪ ·) start ↔
      location ∈ start ∨ ∃ set ∈ sets, location ∈ set := by
    induction sets generalizing start with
    | nil => simp
    | cons first rest ih => rw [List.foldl_cons, ih, mem_union, or_assoc, List.exists_mem_cons_iff]
  rw [unionAll, grown]
  exact or_iff_right (not_mem_empty location)

end GameRules.PathSet
