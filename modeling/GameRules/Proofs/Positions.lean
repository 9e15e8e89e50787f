import Mathlib.Data.List.Perm.Subperm
import Mathlib.Data.List.Sort

/-!
# The positions of the members that satisfy a condition

Rules are told apart by their positions, since names need not be unique. A list of positions is known
by its members once it is ascending.
-/

namespace GameRules

variable {α β : Type}

/-- The positions of the members of a list that satisfy a condition, in ascending order. -/
def positionsWhere (condition : α → Bool) (list : List α) : List Nat :=
  (list.zipIdx.filter fun located => condition located.1).map (·.2)

/-- A position is listed if a member that satisfies the condition is there. -/
theorem mem_positionsWhere_iff {condition : α → Bool} {list : List α} {position : Nat} :
    position ∈ positionsWhere condition list ↔
      ∃ member, list[position]? = some member ∧ condition member = true := by
  simp only [positionsWhere, List.mem_map, List.mem_filter, Prod.exists,
    List.mem_zipIdx_iff_getElem?]
  constructor
  · rintro ⟨member, _, ⟨found, holds⟩, rfl⟩
    exact ⟨member, found, holds⟩
  · rintro ⟨member, found, holds⟩
    exact ⟨member, position, ⟨found, holds⟩, rfl⟩

/-- The positions are listed in ascending order. -/
theorem positionsWhere_ascending (condition : α → Bool) (list : List α) :
    (positionsWhere condition list).Pairwise (· < ·) := by
  have positions : list.zipIdx.Pairwise fun left right => left.2 < right.2 := by
    rw [← List.pairwise_map, List.zipIdx_map_snd]
    exact List.pairwise_lt_range'
  exact List.pairwise_map.mpr (positions.filter _)

/-- An ascending list of the positions where a condition is satisfied is the list of all of them. -/
theorem eq_positionsWhere {condition : α → Bool} {list : List α} {positions : List Nat}
    (ascending : positions.Pairwise (· < ·))
    (same : ∀ position, position ∈ positions ↔
      ∃ member, list[position]? = some member ∧ condition member = true) :
    positions = positionsWhere condition list :=
  ascending.eq_of_mem_iff (positionsWhere_ascending condition list) fun position =>
    (same position).trans mem_positionsWhere_iff.symm

/-- The located members that satisfy a condition are the members that do. -/
theorem map_fst_filter_zipIdx (condition : α → Bool) (list : List α) :
    (list.zipIdx.filter fun located => condition located.1).map Prod.fst =
      list.filter condition := by
  have split : (list.zipIdx.map Prod.fst).filter condition = _ := List.filter_map
  rw [List.zipIdx_map_fst] at split
  exact split.symm

/-- At the positions stands what the members that satisfy the condition are mapped to. -/
theorem map_positionsWhere (condition : α → Bool) (list : List α) (value : α → β) :
    ((positionsWhere condition list).map fun position => (list.map value)[position]?) =
      (list.filter condition).map fun member => some (value member) := by
  have found : ∀ located ∈ list.zipIdx.filter fun located => condition located.1,
      (list.map value)[located.2]? = some (value located.1) := by
    intro located member
    have placed := List.mem_zipIdx_iff_getElem?.mp (List.mem_filter.mp member).1
    rw [List.getElem?_map, placed, Option.map_some]
  calc
    ((positionsWhere condition list).map fun position => (list.map value)[position]?) =
        (list.zipIdx.filter fun located => condition located.1).map fun located =>
          (list.map value)[located.2]? := List.map_map
    _ = (list.zipIdx.filter fun located => condition located.1).map fun located =>
          some (value located.1) := List.map_congr_left found
    _ = ((list.zipIdx.filter fun located => condition located.1).map Prod.fst).map fun member =>
          some (value member) := by
      rw [List.map_map]
      rfl
    _ = (list.filter condition).map fun member => some (value member) := by
      rw [map_fst_filter_zipIdx]

/-- What is found at the positions is what the members that satisfy the condition are mapped to. -/
theorem filterMap_positionsWhere (condition : α → Bool) (list : List α) (value : α → β) :
    ((positionsWhere condition list).filterMap fun position => (list.map value)[position]?) =
      (list.filter condition).map value := by
  have found := congrArg (List.filterMap id) (map_positionsWhere condition list value)
  rw [List.filterMap_map, List.filterMap_map] at found
  exact found.trans (congrFun List.filterMap_eq_map _)

/-- The positions in a list of values are those of the members with such values. -/
theorem positionsWhere_map (condition : β → Bool) (list : List α) (value : α → β) :
    positionsWhere condition (list.map value) =
      positionsWhere (fun member => condition (value member)) list := by
  simp only [positionsWhere, List.zipIdx_map, List.filter_map, List.map_map]
  rfl

/-- The positions among the members that satisfy a condition, read as positions in the whole list,
are those of the members that satisfy both conditions. -/
theorem map_positionsWhere_filter (listed condition : α → Bool) (list : List α) :
    ((positionsWhere condition (list.filter listed)).map fun position =>
        (positionsWhere listed list)[position]?) =
      (positionsWhere (fun member => listed member && condition member) list).map some := by
  rw [← map_fst_filter_zipIdx, positionsWhere_map]
  refine (map_positionsWhere _ _ Prod.snd).trans ?_
  rw [List.filter_filter, positionsWhere, List.map_map]
  simp only [Bool.and_comm]
  rfl

/-- There are no more different positions below a bound than the bound. -/
theorem length_le_of_forall_lt {positions : List Nat} {bound : Nat} (nodup : positions.Nodup)
    (below : ∀ position ∈ positions, position < bound) : positions.length ≤ bound := by
  have subset : positions ⊆ List.range bound := fun position member =>
    List.mem_range.mpr (below position member)
  have shorter := (nodup.subperm subset).length_le
  rwa [List.length_range] at shorter

/-- If a condition holds of one more position than another, it holds of that one besides. -/
theorem filter_range_perm {size position : Nat} {before after : Nat → Bool}
    (inside : position < size) (fresh : after position = false)
    (more : ∀ other, before other = true ↔ other = position ∨ after other = true) :
    ((List.range size).filter before).Perm (position :: (List.range size).filter after) := by
  have notListed : position ∉ (List.range size).filter after := by
    rw [List.mem_filter, fresh]
    exact fun member => Bool.false_ne_true member.2
  rw [List.perm_ext_iff_of_nodup (List.nodup_range.filter _)
    (List.nodup_cons.mpr ⟨notListed, List.nodup_range.filter _⟩)]
  intro other
  rw [List.mem_cons, List.mem_filter, List.mem_filter, List.mem_range, more]
  constructor
  · rintro ⟨inRange, same | holds⟩
    · exact .inl same
    · exact .inr ⟨inRange, holds⟩
  · rintro (rfl | ⟨inRange, holds⟩)
    · exact ⟨inside, .inl rfl⟩
    · exact ⟨inRange, .inr holds⟩

end GameRules
