import GameRules.Json.Writer

/-!
# The text of arrays and objects

Items and entries stand one after another with commas between them, inside brackets or braces. So the
text of an array has a character for each item, and that of an object holds the texts of its values.
-/

namespace GameRules.Json

/-- The text of an array is that of its items between brackets. -/
theorem render_array (items : List Json) :
    (array items).render.toList =
      '[' :: ((",".intercalate (renderItems items)).toList ++ [']']) := by
  rw [render]
  simp

/-- The text of an object is that of its entries between braces. -/
theorem render_object (entries : List (String × Json)) :
    (object entries).render.toList =
      '\x7b' :: ((",".intercalate (renderEntries entries)).toList ++ ['\x7d']) := by
  rw [render]
  simp

/-- The text of a single item. -/
theorem renderItems_singleton (item : Json) :
    ",".intercalate (renderItems [item]) = item.render := by
  rw [renderItems, renderItems, String.intercalate_singleton]

/-- The text of several items has a comma after the first one. -/
theorem renderItems_cons_cons (item next : Json) (items : List Json) :
    (",".intercalate (renderItems (item :: next :: items))).toList =
      item.render.toList ++ ',' :: (",".intercalate (renderItems (next :: items))).toList := by
  rw [renderItems, renderItems, String.intercalate_cons_cons]
  simp

/-- The text of an entry is that of its key, a colon, and that of its value. -/
def renderEntry (key : String) (value : Json) : List Char :=
  (quote key).toList ++ ':' :: value.render.toList

/-- The text of a single entry. -/
theorem renderEntries_singleton (key : String) (value : Json) :
    (",".intercalate (renderEntries [(key, value)])).toList = renderEntry key value := by
  rw [renderEntries, renderEntries, String.intercalate_singleton]
  simp [renderEntry]

/-- The text of several entries has a comma after the first one. -/
theorem renderEntries_cons_cons (key : String) (value : Json) (next : String × Json)
    (entries : List (String × Json)) :
    (",".intercalate (renderEntries ((key, value) :: next :: entries))).toList =
      renderEntry key value ++ ',' :: (",".intercalate (renderEntries (next :: entries))).toList := by
  rw [renderEntries, renderEntries, String.intercalate_cons_cons]
  simp [renderEntry]

/-- Every item of an array but the last one is followed by a comma. -/
theorem length_le_length_renderItems (items : List Json) :
    items.length ≤ (",".intercalate (renderItems items)).toList.length + 1 := by
  induction items with
  | nil => exact Nat.zero_le _
  | cons item items ih =>
    cases items with
    | nil => simp
    | cons next items =>
      simp only [renderItems_cons_cons, List.length_append, List.length_cons] at ih ⊢
      omega

/-- The text of an array has at least one character for each item. -/
theorem length_le_length_render_array (items : List Json) :
    items.length ≤ (array items).render.toList.length := by
  have separated := length_le_length_renderItems items
  rw [render_array, List.length_cons, List.length_append]
  omega

/-- The text of an object is no shorter than that of each of its values. -/
theorem length_render_le_of_mem {entries : List (String × Json)} {key : String} {value : Json}
    (member : (key, value) ∈ entries) :
    value.render.toList.length ≤ (object entries).render.toList.length := by
  have inside : value.render.toList.length ≤
      (",".intercalate (renderEntries entries)).toList.length := by
    induction entries with
    | nil => cases member
    | cons entry entries ih =>
      obtain ⟨other, first⟩ := entry
      cases entries with
      | nil =>
        cases List.mem_singleton.mp member
        rw [renderEntries_singleton, renderEntry, List.length_append, List.length_cons]
        omega
      | cons next entries =>
        rw [renderEntries_cons_cons, renderEntry, List.length_append, List.length_append,
          List.length_cons, List.length_cons]
        rcases List.mem_cons.mp member with same | later
        · cases same
          omega
        · have shorter := ih later
          omega
  rw [render_object, List.length_cons, List.length_append]
  omega

end GameRules.Json
