import GameRules.Json.Reader.Basic

/-!
# Reading strings

A string stands between quotes. A backslash introduces an escape: a letter, or `u` with the four
digits of a code unit; the first unit of a surrogate pair has to be followed by the second. Raw
control characters and lone surrogates are refused.
-/

namespace GameRules.Json

/-- The value of a hexadecimal digit, in either case. -/
def hexValue? (digit : Char) : Option Nat :=
  if '0' ≤ digit ∧ digit ≤ '9' then some (digit.toNat - '0'.toNat)
  else if 'a' ≤ digit ∧ digit ≤ 'f' then some (digit.toNat - 'a'.toNat + 10)
  else if 'A' ≤ digit ∧ digit ≤ 'F' then some (digit.toNat - 'A'.toNat + 10)
  else none

/-- The code unit written with four hexadecimal digits. -/
def codeUnit? (first second third fourth : Char) : Option Nat := do
  let high ← hexValue? first
  let upper ← hexValue? second
  let lower ← hexValue? third
  let low ← hexValue? fourth
  return ((high * 16 + upper) * 16 + lower) * 16 + low

/-- The character that a backslash and this letter stand for. -/
def escaped? : Char → Option Char
  | '"' => some '"'
  | '\\' => some '\\'
  | '/' => some '/'
  | 'b' => some '\x08'
  | 'f' => some '\x0c'
  | 'n' => some '\n'
  | 'r' => some '\r'
  | 't' => some '\t'
  | _ => none

/-- Whether a code unit is the first of a surrogate pair. -/
def isHighSurrogate (unit : Nat) : Bool := 0xD800 ≤ unit && unit ≤ 0xDBFF

/-- Whether a code unit is the second of a surrogate pair. -/
def isLowSurrogate (unit : Nat) : Bool := 0xDC00 ≤ unit && unit ≤ 0xDFFF

/-- The character encoded by a surrogate pair. -/
def pairedChar (high low : Nat) : Char :=
  Char.ofNat ((high - 0xD800) * 0x400 + (low - 0xDC00) + 0x10000)

/-- Reads the four digits of an escaped code unit. -/
def codeUnit : Reader Nat
  | first :: second :: third :: fourth :: rest =>
    (codeUnit? first second third fourth).map fun unit => (unit, rest)
  | _ => none

/-- A code unit leaves less than it was given. -/
theorem codeUnit_consumes : Reader.Consumes codeUnit := by
  intro text unit rest read
  unfold codeUnit at read
  split at read
  · simp only [Option.map_eq_some_iff, Prod.mk.injEq] at read
    obtain ⟨_, _, _, rfl⟩ := read
    simp only [List.length_cons]
    omega
  · cases read

/-- Reads the code unit that has to follow the first one of a surrogate pair. -/
def secondUnit : Reader Nat
  | '\\' :: 'u' :: rest => codeUnit rest
  | _ => none

/-- The second unit of a pair leaves less than it was given. -/
theorem secondUnit_consumes : Reader.Consumes secondUnit := by
  intro text unit rest read
  unfold secondUnit at read
  split at read
  · have shorter := codeUnit_consumes _ _ _ read
    simp only [List.length_cons]
    omega
  · cases read

/-- Reads the character that one or two escaped code units stand for. -/
def unicodeChar (text : List Char) : Option (Char × List Char) := do
  let (unit, rest) ← codeUnit text
  if isLowSurrogate unit then none
  else if isHighSurrogate unit then do
    let (low, rest) ← secondUnit rest
    if isLowSurrogate low then some (pairedChar unit low, rest) else none
  else some (Char.ofNat unit, rest)

/-- An escaped character leaves less than it was given. -/
theorem unicodeChar_consumes : Reader.Consumes unicodeChar := by
  intro text char rest read
  simp only [unicodeChar, Option.bind_eq_bind, Option.bind_eq_some_iff, Prod.exists] at read
  obtain ⟨unit, middle, readUnit, readRest⟩ := read
  have first := codeUnit_consumes _ _ _ readUnit
  split at readRest
  · cases readRest
  · split at readRest
    · simp only [Option.bind_eq_some_iff, Prod.exists] at readRest
      obtain ⟨low, left, readLow, paired⟩ := readRest
      have second := secondUnit_consumes _ _ _ readLow
      split at paired
      · simp only [Option.some.injEq, Prod.mk.injEq] at paired
        obtain ⟨_, rfl⟩ := paired
        exact Nat.lt_trans second first
      · cases paired
    · cases readRest
      exact first

/-- Reads what a backslash in a string introduces. -/
def escapedChar : Reader Char
  | letter :: rest =>
    if letter = 'u' then unicodeChar rest else (escaped? letter).map fun char => (char, rest)
  | [] => none

/-- An escape leaves less than it was given. -/
theorem escapedChar_consumes : Reader.Consumes escapedChar := by
  intro text char rest read
  unfold escapedChar at read
  split at read
  · split at read
    · have shorter := unicodeChar_consumes _ _ _ read
      simp only [List.length_cons]
      omega
    · rw [Option.map_eq_some_iff] at read
      obtain ⟨_, _, result⟩ := read
      cases result
      simp
  · cases read

/-- Reads one character of a string, or its closing quote, which gives none. -/
def stringPiece : Reader (Option Char)
  | '"' :: rest => some (none, rest)
  | '\\' :: rest => (escapedChar rest).map fun (char, left) => (some char, left)
  | char :: rest => if char < ' ' then none else some (some char, rest)
  | [] => none

/-- A piece of a string leaves less than it was given. -/
theorem stringPiece_consumes : Reader.Consumes stringPiece := by
  intro text piece rest read
  unfold stringPiece at read
  split at read
  · cases read
    simp
  · simp only [Option.map_eq_some_iff, Prod.mk.injEq, Prod.exists] at read
    obtain ⟨_, left, inner, _, rfl⟩ := read
    have shorter := escapedChar_consumes _ _ _ inner
    simp only [List.length_cons]
    omega
  · split at read
    · cases read
    · cases read
      simp
  · cases read

/-- Reads the characters of a string and its closing quote; the opening one is already read. -/
def stringTail (text : List Char) : Option (List Char × List Char) :=
  match step : stringPiece text with
  | none => none
  | some (none, rest) => some ([], rest)
  | some (some char, rest) =>
    have : rest.length < text.length := stringPiece_consumes text _ rest step
    (stringTail rest).map fun (chars, left) => (char :: chars, left)
termination_by text.length

/-- The closing quote is always taken. -/
theorem stringTail_consumes : Reader.Consumes stringTail := by
  intro text chars rest read
  fun_induction stringTail text generalizing chars rest with
  | case1 => cases read
  | case2 text left step =>
    cases read
    exact stringPiece_consumes _ _ _ step
  | case3 text char middle step shorter ih =>
    simp only [Option.map_eq_some_iff, Prod.mk.injEq, Prod.exists] at read
    obtain ⟨_, left, inner, _, rfl⟩ := read
    exact Nat.lt_trans (ih _ _ inner) shorter

/-- Reads a string with both its quotes. -/
def string? : Reader String
  | '"' :: rest => (stringTail rest).map fun (chars, left) => (String.ofList chars, left)
  | _ => none

/-- A string takes at least its quotes. -/
theorem string?_consumes : Reader.Consumes string? := by
  intro text value rest read
  unfold string? at read
  split at read
  · simp only [Option.map_eq_some_iff, Prod.mk.injEq, Prod.exists] at read
    obtain ⟨chars, left, inner, _, rfl⟩ := read
    have shorter := stringTail_consumes _ _ _ inner
    simp only [List.length_cons]
    omega
  · cases read

end GameRules.Json
