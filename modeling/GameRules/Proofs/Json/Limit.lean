import GameRules.Proofs.Json.RoundTrip

/-!
# How deep documents may be nested

A reader that goes deeper reads all that one that goes less deep reads, and reads it alike. The text
of a document is therefore read back by a reader that goes deep enough, and by no other: the limit of
the reader is the only reason why the text of a proper document could be refused.
-/

namespace GameRules.Json

section Steps

variable {inner : Reader Json} {consumes : inner.Consumes} {text rest left : List Char}

/-- An item with a comma somewhere after it is read, and then the others. -/
theorem items_of_space_comma {item : Json} (read : inner (skipSpace text) = some (item, rest))
    (space : skipSpace rest = ',' :: left) :
    items inner consumes text =
      (items inner consumes left).map fun (others, rest) => (item :: others, rest) := by
  rw [items]
  split <;> rename_i step <;> rw [read] at step <;> cases step
  split
  · rename_i same
    rw [space] at same
    cases same
    rfl
  · rename_i same
    rw [space] at same
    cases same
  · rename_i noComma _
    exact (noComma _ space).elim

/-- An item with a bracket somewhere after it is the last one. -/
theorem items_of_space_bracket {item : Json} (read : inner (skipSpace text) = some (item, rest))
    (space : skipSpace rest = ']' :: left) : items inner consumes text = some ([item], left) := by
  rw [items]
  split <;> rename_i step <;> rw [read] at step <;> cases step
  split
  · rename_i same
    rw [space] at same
    cases same
  · rename_i same
    rw [space] at same
    cases same
    rfl
  · rename_i noBracket
    exact (noBracket _ space).elim

/-- An entry with a comma somewhere after it is inserted, and then the others. -/
theorem entries_of_space_comma {sofar : Entries Json} {key : String} {value : Json}
    (read : entry inner text = some ((key, value), rest)) (space : skipSpace rest = ',' :: left) :
    entries inner consumes sofar text = entries inner consumes (sofar.insert key value) left := by
  rw [entries]
  split <;> rename_i step <;> rw [read] at step <;> cases step
  split
  · rename_i same
    rw [space] at same
    cases same
    rfl
  · rename_i same
    rw [space] at same
    cases same
  · rename_i noComma _
    exact (noComma _ space).elim

/-- An entry with a brace somewhere after it is the last one. -/
theorem entries_of_space_brace {sofar : Entries Json} {key : String} {value : Json}
    (read : entry inner text = some ((key, value), rest))
    (space : skipSpace rest = '\x7d' :: left) :
    entries inner consumes sofar text = some (sofar.insert key value, left) := by
  rw [entries]
  split <;> rename_i step <;> rw [read] at step <;> cases step
  split
  · rename_i same
    rw [space] at same
    cases same
  · rename_i same
    rw [space] at same
    cases same
    rfl
  · rename_i noBrace
    exact (noBrace _ space).elim

end Steps

/-- Whatever the inner reader reads the other one reads alike. -/
def Reader.Extends {α : Type} (other inner : Reader α) : Prop :=
  ∀ text result, inner text = some result → other text = some result

/-- An entry is read alike by a reader that reads its value alike. -/
theorem entry_extends {inner other : Reader Json} (reads : other.Extends inner) :
    Reader.Extends (entry other) (entry inner) := by
  intro text result read
  simp only [entry, Option.bind_eq_bind, Option.bind_eq_some_iff] at read ⊢
  obtain ⟨⟨key, rest⟩, readKey, read⟩ := read
  refine ⟨⟨key, rest⟩, readKey, ?_⟩
  split at read
  · obtain ⟨⟨value, left⟩, readValue, result⟩ := Option.bind_eq_some_iff.mp read
    exact Option.bind_eq_some_iff.mpr ⟨⟨value, left⟩, reads _ _ readValue, result⟩
  · cases read

section Inner

variable {inner other : Reader Json} {consumes : inner.Consumes} {consumesToo : other.Consumes}
  (reads : other.Extends inner)

include reads

/-- Items are read alike by a reader that reads each of them alike. -/
theorem items_extends : Reader.Extends (items other consumesToo) (items inner consumes) := by
  intro text result read
  fun_induction items inner consumes text generalizing result with
  | case1 => cases read
  | case2 text item middle step more space shorter ih =>
    obtain ⟨others, readOthers, rfl⟩ := Option.map_eq_some_iff.mp read
    rw [items_of_space_comma (reads _ _ step) space, ih others readOthers]
    rfl
  | case3 text item middle step left space =>
    cases read
    exact items_of_space_bracket (reads _ _ step) space
  | case4 => cases read

/-- Entries are read alike by a reader that reads each of their values alike. -/
theorem entries_extends (sofar : Entries Json) :
    Reader.Extends (entries other consumesToo sofar) (entries inner consumes sofar) := by
  intro text result read
  fun_induction entries inner consumes sofar text generalizing result with
  | case1 => cases read
  | case2 sofar text key value middle step more space shorter ih =>
    rw [entries_of_space_comma (entry_extends reads _ _ step) space]
    exact ih result read
  | case3 sofar text key value middle step left space =>
    cases read
    exact entries_of_space_brace (entry_extends reads _ _ step) space
  | case4 => cases read

/-- Arrays and objects are read alike by a reader that reads their parts alike. -/
theorem compound_extends : Reader.Extends (compound other consumesToo) (compound inner consumes) := by
  intro text result read
  unfold compound at read ⊢
  split at read
  · split at read
    · exact read
    · obtain ⟨values, inside, rfl⟩ := Option.map_eq_some_iff.mp read
      rw [items_extends reads _ _ inside]
      rfl
  · split at read
    · exact read
    · obtain ⟨values, inside, rfl⟩ := Option.map_eq_some_iff.mp read
      rw [entries_extends reads _ _ _ inside]
      rfl
  · exact read

end Inner

/-- What begins like an array or an object is no scalar. -/
theorem scalar?_of_opening {first : Char} {others : List Char} (opening : first = '[' ∨ first = '\x7b') :
    scalar? (first :: others) = none := by
  have noNumber : number? (first :: others) = none := by
    cases read : number? (first :: others) with
    | none => rfl
    | some result =>
      obtain ⟨start, _, begins, number⟩ := head_of_number? read
      cases begins
      rcases opening with rfl | rfl
      · exact absurd number (by decide)
      · exact absurd number (by decide)
  rcases opening with rfl | rfl
  · exact noNumber
  · exact noNumber

/-- A scalar is read alike by readers that go deeper. -/
theorem compound_extends_scalar? (inner : Reader Json) (consumes : inner.Consumes) :
    Reader.Extends (compound inner consumes) scalar? := by
  intro text result read
  unfold compound
  split
  · rw [scalar?_of_opening (.inl rfl)] at read
    cases read
  · rw [scalar?_of_opening (.inr rfl)] at read
    cases read
  · exact read

/-- A reader that goes deeper reads alike all that one that goes less deep reads. -/
theorem nested_extends {depth deeper : Nat} (le : depth ≤ deeper) :
    Reader.Extends (nested deeper).1 (nested depth).1 := by
  induction depth generalizing deeper with
  | zero =>
    cases deeper with
    | zero => exact fun _ _ read => read
    | succ deeper => exact compound_extends_scalar? _ _
  | succ depth ih =>
    cases deeper with
    | zero => omega
    | succ deeper => exact compound_extends (ih (Nat.le_of_succ_le_succ le))

/-- The text of a document is read back by a reader that goes as deep as the document is nested, and
refused by every other. -/
theorem readNested?_render {document : Json} (proper : ∀ part ∈ document.subdocuments, part.Proper)
    (depth : Nat) :
    readNested? depth document.render =
      if document.nesting ≤ depth then some document.reread else none := by
  by_cases shallow : document.nesting ≤ depth
  · rw [if_pos shallow, readNested?_render_of_sound ⟨shallow, proper⟩]
  · have start := skipSpace_render (proper document document.self_mem_subdocuments) []
    have back := nested_render document document.nesting [] le_rfl proper trivial
    rw [List.append_nil] at start back
    rw [if_neg shallow, readNested?, readFront?, start]
    cases read : (nested depth).1 document.render.toList with
    | none => rfl
    | some result =>
      -- A deeper reader would read the same, but it reads a document that is nested deeper.
      have deeper := nested_extends (Nat.le_of_not_le shallow) _ _ read
      rw [back] at deeper
      cases deeper
      exact absurd (document.nesting_reread ▸ (sound_of_nested read).shallow) shallow

end GameRules.Json
