import GameRules.Entries

/-!
# What is held under a key

Inserting changes what is held under one key and keeps the keys in order. With the keys in order
there is one entry a key, so the entries are what is found under their keys.
-/

namespace GameRules.Entries

variable {α : Type} {entries : Entries α}

/-- Inserting changes what is found under one key. -/
theorem lookup_insert (key other : String) (value : α) (entries : Entries α) :
    (insert key value entries).lookup other =
      if other = key then some value else entries.lookup other := by
  by_cases same : other = key
  · subst same
    rw [if_pos rfl]
    exact lookup_insert_self other value entries
  · rw [if_neg same]
    exact lookup_insert_of_ne value entries same

/-- An entry after inserting is the new one or an old one. -/
theorem eq_or_mem_of_mem_insert {key : String} {value : α} {entry : String × α}
    (member : entry ∈ insert key value entries) : entry = (key, value) ∨ entry ∈ entries := by
  induction entries with
  | nil => exact .inl (List.mem_singleton.mp member)
  | cons first rest ih =>
    obtain ⟨other, old⟩ := first
    simp only [insert] at member
    split at member
    · exact List.mem_cons.mp member
    · split at member
      · exact (List.mem_cons.mp member).imp_right (List.mem_cons_of_mem _)
      · rcases List.mem_cons.mp member with rfl | inside
        · exact .inr List.mem_cons_self
        · exact (ih inside).imp_right (List.mem_cons_of_mem _)

/-- Inserting keeps the keys in order. -/
theorem ordered_insert {key : String} {value : α} (ordered : Ordered entries) :
    Ordered (insert key value entries) := by
  induction entries with
  | nil => exact List.pairwise_singleton _ _
  | cons first rest ih =>
    obtain ⟨other, old⟩ := first
    obtain ⟨below, tail⟩ := List.pairwise_cons.mp ordered
    simp only [insert]
    split
    · rename_i before
      refine List.pairwise_cons.mpr ⟨fun entry member => ?_, ordered⟩
      rcases List.mem_cons.mp member with rfl | inside
      · exact before
      · exact String.lt_trans before (below entry inside)
    · split
      · rename_i same
        subst same
        exact List.pairwise_cons.mpr ⟨below, tail⟩
      · rename_i notBefore different
        refine List.pairwise_cons.mpr ⟨fun entry member => ?_, ih tail⟩
        rcases eq_or_mem_of_mem_insert member with rfl | inside
        · exact Std.lt_of_le_of_ne (String.not_lt.mp notBefore) (Ne.symm different)
        · exact below entry inside

/-- The entries are what is found under their keys. -/
theorem mem_iff_lookup (ordered : Ordered entries) {key : String} {value : α} :
    (key, value) ∈ entries ↔ entries.lookup key = some value := by
  induction entries with
  | nil => exact ⟨nofun, nofun⟩
  | cons first rest ih =>
    obtain ⟨other, held⟩ := first
    obtain ⟨below, tail⟩ := List.pairwise_cons.mp ordered
    rw [List.lookup_cons, List.mem_cons]
    by_cases same : key = other
    · subst same
      -- A later entry under the same key would have a greater key.
      have only : (key, value) ∉ rest := fun later => String.lt_irrefl key (below _ later)
      rw [or_iff_left only]
      simp [eq_comm]
    · rw [ih tail, beq_eq_false_iff_ne.mpr same]
      simp [same]

/-- A key after all others is inserted at the end. -/
theorem insert_of_greater {key : String} {value : α} (greatest : ∀ entry ∈ entries, entry.1 < key) :
    insert key value entries = entries ++ [(key, value)] := by
  induction entries with
  | nil => rfl
  | cons first rest ih =>
    obtain ⟨other, old⟩ := first
    obtain ⟨before, others⟩ := List.forall_mem_cons.mp greatest
    have different : key ≠ other := fun same => String.lt_irrefl key (same ▸ before)
    rw [insert, if_neg (String.lt_asymm before), if_neg different, ih others]
    rfl

/-- The next entry of an ordered list is inserted at the end. -/
theorem insert_of_ordered {key : String} {value : α} {others : Entries α}
    (ordered : Ordered (entries ++ (key, value) :: others)) :
    insert key value entries = entries ++ [(key, value)] := by
  obtain ⟨-, -, across⟩ := List.pairwise_append.mp ordered
  exact insert_of_greater fun entry member => across entry member _ List.mem_cons_self

end GameRules.Entries
