import GameRules.Json.Reader.Text
import GameRules.Json.Reader.Number

/-!
# Reading document text

A strict reader of JSON text. It refuses trailing commas, text after the document, and arrays and
objects nested deeper than a limit. Of entries with the same key the last one counts.
-/

namespace GameRules.Json

/-- Reads a document that is neither an array nor an object. -/
def scalar? : Reader Json
  | 'n' :: 'u' :: 'l' :: 'l' :: rest => some (.null, rest)
  | 't' :: 'r' :: 'u' :: 'e' :: rest => some (.bool true, rest)
  | 'f' :: 'a' :: 'l' :: 's' :: 'e' :: rest => some (.bool false, rest)
  | '"' :: rest => (string? ('"' :: rest)).map fun (text, left) => (.string text, left)
  | text => number? text

/-- A scalar takes at least one character. -/
theorem scalar?_consumes : Reader.Consumes scalar? := by
  intro text value rest read
  unfold scalar? at read
  split at read
  · cases read
    simp only [List.length_cons]
    omega
  · cases read
    simp only [List.length_cons]
    omega
  · cases read
    simp only [List.length_cons]
    omega
  · simp only [Option.map_eq_some_iff, Prod.mk.injEq, Prod.exists] at read
    obtain ⟨_, left, inner, _, rfl⟩ := read
    exact string?_consumes _ _ _ inner
  · exact number?_consumes _ _ _ read

/-- Reads the items of an array up to its closing bracket; at least one item is left to read. -/
def items (inner : Reader Json) (consumes : inner.Consumes) (text : List Char) :
    Option (List Json × List Char) :=
  match read : inner (skipSpace text) with
  | none => none
  | some (item, rest) =>
    match space : skipSpace rest with
    | ',' :: more =>
      have : more.length < text.length := by
        have step := consumes _ _ _ read
        have before := length_skipSpace_le text
        have after := length_skipSpace_le rest
        rw [space, List.length_cons] at after
        omega
      (items inner consumes more).map fun (others, left) => (item :: others, left)
    | ']' :: left => some ([item], left)
    | _ => none
termination_by text.length

/-- Reads one entry of an object: key, colon, document. -/
def entry (inner : Reader Json) (text : List Char) : Option ((String × Json) × List Char) := do
  let (key, rest) ← string? (skipSpace text)
  match skipSpace rest with
  | ':' :: rest =>
    let (value, left) ← inner (skipSpace rest)
    return ((key, value), left)
  | _ => none

/-- An entry takes at least its key. -/
theorem entry_consumes (inner : Reader Json) (consumes : inner.Consumes) :
    Reader.Consumes (entry inner) := by
  intro text value rest read
  simp only [entry, Option.bind_eq_bind, Option.bind_eq_some_iff, Prod.exists] at read
  obtain ⟨key, middle, readKey, readValue⟩ := read
  have first := string?_consumes _ _ _ readKey
  have before := length_skipSpace_le text
  split at readValue
  · rename_i after colon
    simp only [Option.bind_eq_some_iff, Prod.exists, Option.pure_def, Option.some.injEq,
      Prod.mk.injEq] at readValue
    obtain ⟨_, left, readInner, _, rfl⟩ := readValue
    have second := consumes _ _ _ readInner
    have between := length_skipSpace_le middle
    have last := length_skipSpace_le after
    rw [colon, List.length_cons] at between
    omega
  · cases readValue

/-- Reads the entries of an object up to its closing brace; at least one entry is left to read. The
entries already read are kept in key order, a later one in place of an earlier one. -/
def entries (inner : Reader Json) (consumes : inner.Consumes) (sofar : Entries Json)
    (text : List Char) : Option (Entries Json × List Char) :=
  match read : entry inner text with
  | none => none
  | some ((key, value), rest) =>
    match space : skipSpace rest with
    | ',' :: more =>
      have : more.length < text.length := by
        have step := entry_consumes inner consumes _ _ _ read
        have after := length_skipSpace_le rest
        rw [space, List.length_cons] at after
        omega
      entries inner consumes (sofar.insert key value) more
    | '\x7d' :: left => some (sofar.insert key value, left)
    | _ => none
termination_by text.length

/-- Items leave less than they were given. -/
theorem items_consumes (inner : Reader Json) (consumes : inner.Consumes) :
    Reader.Consumes (items inner consumes) := by
  intro text value rest read
  fun_induction items inner consumes text generalizing value rest with
  | case1 => cases read
  | case2 text item middle step more space shorter ih =>
    simp only [Option.map_eq_some_iff, Prod.mk.injEq, Prod.exists] at read
    obtain ⟨_, left, others, _, rfl⟩ := read
    exact Nat.lt_trans (ih _ _ others) shorter
  | case3 text item middle step left space =>
    cases read
    have first := consumes _ _ _ step
    have before := length_skipSpace_le text
    have after := length_skipSpace_le middle
    rw [space, List.length_cons] at after
    omega
  | case4 => cases read

/-- Entries leave less than they were given. -/
theorem entries_consumes (inner : Reader Json) (consumes : inner.Consumes) (sofar : Entries Json) :
    Reader.Consumes (entries inner consumes sofar) := by
  intro text value rest read
  fun_induction entries inner consumes sofar text generalizing value rest with
  | case1 => cases read
  | case2 sofar text key value middle step more space shorter ih =>
    exact Nat.lt_trans (ih _ _ read) shorter
  | case3 sofar text key value middle step left space =>
    cases read
    have first := entry_consumes inner consumes _ _ _ step
    have after := length_skipSpace_le middle
    rw [space, List.length_cons] at after
    omega
  | case4 => cases read

/-- Reads an array or object whose parts are read by `inner`, or a scalar. -/
def compound (inner : Reader Json) (consumes : inner.Consumes) (text : List Char) :
    Option (Json × List Char) :=
  match text with
  | '[' :: rest =>
    match skipSpace rest with
    | ']' :: left => some (.array [], left)
    | _ => (items inner consumes rest).map fun (values, left) => (.array values, left)
  | '\x7b' :: rest =>
    match skipSpace rest with
    | '\x7d' :: left => some (.object [], left)
    | _ => (entries inner consumes [] rest).map fun (values, left) => (.object values, left)
  | text => scalar? text

/-- A compound document leaves less than it was given. -/
theorem compound_consumes (inner : Reader Json) (consumes : inner.Consumes) :
    Reader.Consumes (compound inner consumes) := by
  intro text value rest read
  unfold compound at read
  split at read
  · rename_i after
    split at read
    · rename_i space
      cases read
      have bound := length_skipSpace_le after
      rw [space] at bound
      simp only [List.length_cons] at bound ⊢
      omega
    · simp only [Option.map_eq_some_iff, Prod.mk.injEq, Prod.exists] at read
      obtain ⟨_, left, inside, _, rfl⟩ := read
      exact Nat.lt_trans (items_consumes inner consumes _ _ _ inside) (Nat.lt_succ_self _)
  · rename_i after
    split at read
    · rename_i space
      cases read
      have bound := length_skipSpace_le after
      rw [space] at bound
      simp only [List.length_cons] at bound ⊢
      omega
    · simp only [Option.map_eq_some_iff, Prod.mk.injEq, Prod.exists] at read
      obtain ⟨_, left, inside, _, rfl⟩ := read
      exact Nat.lt_trans (entries_consumes inner consumes [] _ _ _ inside) (Nat.lt_succ_self _)
  · exact scalar?_consumes _ _ _ read

/-- The reader of documents with at most this many arrays and objects inside one another. -/
def nested : Nat → { reader : Reader Json // reader.Consumes }
  | 0 => ⟨scalar?, scalar?_consumes⟩
  | depth + 1 =>
    ⟨compound (nested depth).1 (nested depth).2, compound_consumes (nested depth).1 (nested depth).2⟩

/-- How deep arrays and objects of a document text may be nested. -/
def nestingLimit : Nat := 127

/-- Reads a document off the front of a text, and leaves the text after it. -/
def readFront? (depth : Nat) (text : List Char) : Option (Json × List Char) :=
  (nested depth).1 (skipSpace text)

/-- Whether nothing but spaces is left of a text. -/
def isBlankRest (rest : List Char) : Bool := (skipSpace rest).isEmpty

/-- Reads a text that holds one document and nothing else, nested to at most `depth`. -/
def readNested? (depth : Nat) (text : String) : Option Json :=
  match readFront? depth text.toList with
  | some (document, rest) => if isBlankRest rest then some document else none
  | none => none

/-- Reads a document text. -/
def read? (text : String) : Option Json := readNested? nestingLimit text

end GameRules.Json
