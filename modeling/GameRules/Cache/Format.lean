import GameRules.Number.Power

/-!
# Formats of stored values

A format writes a value as bytes and reads a value from the front of some bytes, returning the bytes
after it. Numbers are written in as few bytes as they need: up to 250 in one byte, and larger ones
after a mark that says how many bytes follow. Reading takes any of the marks, so a number may have
several stored forms, and the writer uses the shortest.
-/

namespace GameRules

/-- A writer and a prefix reader of one stored type. -/
structure Format (α : Type) where
  /-- The bytes of a value. -/
  encode : α → List UInt8
  /-- Reads one value from the front, returning the bytes after it. -/
  decode : List UInt8 → Option (α × List UInt8)

namespace Format

variable {α β : Type}

/-- Reading the bytes of a value, followed by any bytes, returns the value and those bytes. -/
def LawfulAt (format : Format α) (value : α) : Prop :=
  ∀ suffix, format.decode (format.encode value ++ suffix) = some (value, suffix)

/-- The bytes of a number, the least significant one first. -/
def littleEndian : (width : Nat) → Nat → List UInt8
  | 0, _ => []
  | width + 1, value => UInt8.ofNat value :: littleEndian width (value / 256)

/-- The number that bytes stand for, the least significant one first. -/
def ofLittleEndian : List UInt8 → Nat
  | [] => 0
  | byte :: bytes => byte.toNat + 256 * ofLittleEndian bytes

/-- A number of this many bytes has this many bytes. -/
theorem length_littleEndian (width value : Nat) : (littleEndian width value).length = width := by
  induction width generalizing value with
  | zero => rfl
  | succ width ih => rw [littleEndian, List.length_cons, ih]

/-- Reads a fixed number of bytes. -/
def takeBytes (count : Nat) (bytes : List UInt8) : Option (List UInt8 × List UInt8) :=
  if count ≤ bytes.length then some (bytes.take count, bytes.drop count) else none

/-- Reads a number of this many bytes. -/
def takeNumber (width : Nat) (bytes : List UInt8) : Option (Nat × List UInt8) :=
  (takeBytes width bytes).map fun (number, rest) => (ofLittleEndian number, rest)

/-- The greatest number of a single byte. -/
def singleMax : Nat := 250

/-- The bytes of a number of at most 64 bits. -/
def encodeNatural (value : Nat) : List UInt8 :=
  if value ≤ singleMax then [UInt8.ofNat value]
  else if value < 2 ^ 16 then 251 :: littleEndian 2 value
  else if value < 2 ^ 32 then 252 :: littleEndian 4 value
  else 253 :: littleEndian 8 value

/-- Reads a number of at most 64 bits. -/
def decodeNatural : List UInt8 → Option (Nat × List UInt8)
  | [] => none
  | mark :: rest =>
    if mark.toNat ≤ singleMax then some (mark.toNat, rest)
    else if mark = 251 then takeNumber 2 rest
    else if mark = 252 then takeNumber 4 rest
    else if mark = 253 then takeNumber 8 rest
    else none

/-- Natural numbers of at most 64 bits. -/
def natural : Format Nat := ⟨encodeNatural, decodeNatural⟩

/-- A fixed number of bytes. -/
def fixed (count : Nat) : Format { bytes : List UInt8 // bytes.length = count } where
  encode value := value.1
  decode bytes :=
    if enough : count ≤ bytes.length then
      some (⟨bytes.take count, List.length_take_of_le enough⟩, bytes.drop count)
    else none

/-- The bytes of a text. -/
def textBytes (text : String) : List UInt8 := text.toByteArray.data.toList

/-- The text of bytes, if they are those of one. -/
def ofTextBytes? (bytes : List UInt8) : Option String := String.fromUTF8? ⟨bytes.toArray⟩

/-- Texts: the number of bytes, and the bytes in UTF-8. -/
def text : Format String where
  encode value := natural.encode (textBytes value).length ++ textBytes value
  decode bytes := do
    let (length, rest) ← natural.decode bytes
    let (content, rest) ← takeBytes length rest
    let value ← ofTextBytes? content
    return (value, rest)

/-- A value that may be absent: a byte that says so, and the value if there is one. -/
def option (format : Format α) : Format (Option α) where
  encode
    | none => [0]
    | some value => 1 :: format.encode value
  decode
    | [] => none
    | mark :: rest =>
      if mark = 0 then some (none, rest)
      else if mark = 1 then (format.decode rest).map fun (value, rest) => (some value, rest)
      else none

/-- Two values in order. -/
def pair (left : Format α) (right : Format β) : Format (α × β) where
  encode value := left.encode value.1 ++ right.encode value.2
  decode bytes := do
    let (first, rest) ← left.decode bytes
    let (second, rest) ← right.decode rest
    return ((first, second), rest)

/-- The same stored form for another type. -/
def equiv (format : Format α) (pack : α → β) (unpack : β → α) : Format β where
  encode value := format.encode (unpack value)
  decode bytes := (format.decode bytes).map fun (value, rest) => (pack value, rest)

end Format

end GameRules
