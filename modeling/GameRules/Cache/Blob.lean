import GameRules.Cache.Digest
import GameRules.Cache.Format
import GameRules.Rule.Set

/-!
# Cached rule sets

A cached rule set is a header of 32 bytes and a payload. The header identifies the format, says how
long the payload is and holds the front of its digest. The payload repeats what one may want to know
without decoding the rules, and holds the text of the canonical document. Loading decodes that
document again, so a cache never yields a rule set that the decoder would refuse.
-/

namespace GameRules

namespace Cache

/-- The bytes a cache begins with. -/
def magic : List UInt8 := [0x52, 0x52, 0x55, 0x4C]

/-- The version of the format. -/
def formatVersion : Nat := 1

/-- The version of the engine that writes. -/
def engineVersion : Nat := 1

/-- The length of a header. -/
def headerSize : Nat := 32

/-- How many bytes of the digest of the payload a header holds. -/
def checksumSize : Nat := 16

/-- What the payload tells without its rules being decoded. -/
structure Summary where
  /-- The number of rules. -/
  ruleCount : Nat
  /-- The number of filters. -/
  filterCount : Nat
  /-- The name of the package. -/
  package : Option String
  /-- The digest of the text that the rule set was read from. -/
  sourceDigest : Option Digest
deriving DecidableEq

/-- What is cached. -/
structure Payload where
  /-- What can be told without decoding rules. -/
  summary : Summary
  /-- The text of the canonical document. -/
  document : String
deriving DecidableEq

/-- What a header says. -/
structure Header where
  /-- The version of the format. -/
  format : Nat
  /-- The version of the engine that wrote. -/
  engine : Nat
  /-- The length of the payload. -/
  payloadLength : Nat
  /-- The front of the digest of the payload. -/
  checksum : List UInt8
deriving DecidableEq

/-- What can be told of a cache without decoding its rules. -/
structure Info where
  /-- The version of the engine that wrote. -/
  engine : Nat
  /-- What the payload tells. -/
  summary : Summary
deriving DecidableEq

/-- Why a rule set cannot be written. -/
inductive SaveError where
  /-- The payload is longer than a header can say. -/
  | tooLarge (length : Nat)
deriving DecidableEq, Repr

/-- Why the content of a cache is refused. -/
inductive ContentFault where
  /-- The document is not one. -/
  | notJson
  /-- The document describes no rule set. -/
  | notARuleSet (error : DecodeError)
  /-- The number of rules is not the one stated. -/
  | ruleCount (stated actual : Nat)
  /-- The number of filters is not the one stated. -/
  | filterCount (stated actual : Nat)
  /-- The package is not the one stated. -/
  | package
deriving DecidableEq, Repr

/-- Why bytes are not a cached rule set. -/
inductive LoadError where
  /-- They do not begin like a cache. -/
  | badMagic
  /-- They have another version of the format. -/
  | incompatibleVersion (found : Nat)
  /-- The payload is not the one that was written. -/
  | checksumMismatch
  /-- There are too few of them. -/
  | lengthMismatch (expected actual : Nat)
  /-- The payload has the wrong form. -/
  | undecodable
  /-- The content is refused. -/
  | invalid (fault : ContentFault)
deriving DecidableEq, Repr

/-- The words of a fault in the content. -/
def ContentFault.message : ContentFault → String
  | notJson => "embedded document"
  | notARuleSet error => "validation failed: " ++ error.message
  | ruleCount stated actual =>
    "validation failed: metadata says " ++ Nat.repr stated ++ " rules but document has " ++
      Nat.repr actual
  | filterCount stated actual =>
    "validation failed: metadata says " ++ Nat.repr stated ++ " filters but document has " ++
      Nat.repr actual
  | package => "validation failed: metadata package does not match document"

/-- The message of an error. -/
def LoadError.message : LoadError → String
  | badMagic => "not a rule cache: invalid magic bytes"
  | incompatibleVersion found =>
    "incompatible format version: blob is v" ++ Nat.repr found ++ ", engine supports v" ++
      Nat.repr formatVersion
  | checksumMismatch => "integrity check failed: BLAKE3 checksum mismatch"
  | lengthMismatch expected actual =>
    "payload length mismatch: expected " ++ Nat.repr expected ++ " bytes, got " ++ Nat.repr actual
  | undecodable => "failed to decode payload"
  | invalid fault => fault.message

/-- How a digest is stored: its bytes as they are. -/
def digestFormat : Format Digest :=
  (Format.fixed 32).equiv (fun bytes => ⟨bytes.1, bytes.2⟩) fun digest => ⟨digest.bytes, digest.size⟩

/-- How a summary is stored: its fields in order. -/
def summaryFormat : Format Summary :=
  (Format.natural.pair (Format.natural.pair (Format.text.option.pair digestFormat.option))).equiv
    (fun (ruleCount, filterCount, package, sourceDigest) =>
      ⟨ruleCount, filterCount, package, sourceDigest⟩)
    fun summary => (summary.ruleCount, summary.filterCount, summary.package, summary.sourceDigest)

/-- How a payload is stored: the summary, and then the text of the document. -/
def payloadFormat : Format Payload :=
  (summaryFormat.pair Format.text).equiv (fun (summary, document) => ⟨summary, document⟩)
    fun payload => (payload.summary, payload.document)

/-- A function from bytes to digests. -/
abbrev Hash := List UInt8 → Digest

/-- The front of a digest that a header holds. -/
def checksum (hash : Hash) (payload : List UInt8) : List UInt8 := (hash payload).bytes.take checksumSize

/-- The bytes of the header of a payload. -/
def encodeHeader (hash : Hash) (payload : List UInt8) : List UInt8 :=
  magic ++ Format.littleEndian 2 formatVersion ++ Format.littleEndian 2 engineVersion ++
    Format.littleEndian 4 0 ++ Format.littleEndian 4 payload.length ++ checksum hash payload

/-- The number that some of the bytes stand for. -/
def numberAt (bytes : List UInt8) (position width : Nat) : Nat :=
  Format.ofLittleEndian ((bytes.drop position).take width)

/-- Reads a header. -/
def readHeader (bytes : List UInt8) : Except LoadError Header :=
  if bytes.length < headerSize then .error (.lengthMismatch headerSize bytes.length)
  else if bytes.take 4 ≠ magic then .error .badMagic
  else
    .ok ⟨numberAt bytes 4 2, numberAt bytes 6 2, numberAt bytes 12 4,
      (bytes.drop 16).take checksumSize⟩

/-- The payload that a header announces, once it is the one that was written. -/
def verifiedPayload (hash : Hash) (bytes : List UInt8) (header : Header) :
    Except LoadError (List UInt8) :=
  if header.format ≠ formatVersion then .error (.incompatibleVersion header.format)
  else if bytes.length < headerSize + header.payloadLength then
    .error (.lengthMismatch header.payloadLength (bytes.length - headerSize))
  else
    let payload := (bytes.drop headerSize).take header.payloadLength
    if checksum hash payload ≠ header.checksum then .error .checksumMismatch else .ok payload

/-- Reads header and payload. -/
def readPayload (hash : Hash) (bytes : List UInt8) : Except LoadError (Header × Payload) := do
  let header ← readHeader bytes
  let stored ← verifiedPayload hash bytes header
  match payloadFormat.decode stored with
  | none => .error .undecodable
  | some (payload, _) => return (header, payload)

/-- The digest of a text. -/
def sourceDigest (hash : Hash) (source : String) : Digest := hash (Format.textBytes source)

/-- What is cached for a rule set, and perhaps for the text it was read from. -/
def payloadOf (hash : Hash) (set : RuleSet) (source : Option String) : Payload :=
  ⟨⟨set.rules.length, set.filters.length, set.package, source.map (sourceDigest hash)⟩, set.toText⟩

/-- The bytes of a cached rule set, with any hash. -/
def saveWith (hash : Hash) (set : RuleSet) (source : Option String) : Except SaveError (List UInt8) :=
  let payload := payloadFormat.encode (payloadOf hash set source)
  if payload.length < 2 ^ 32 then .ok (encodeHeader hash payload ++ payload)
  else .error (.tooLarge payload.length)

/-- Checks a rule set against what the payload tells. -/
def check (summary : Summary) (set : RuleSet) : Except LoadError RuleSet :=
  if summary.ruleCount ≠ set.rules.length then
    .error (.invalid (.ruleCount summary.ruleCount set.rules.length))
  else if summary.filterCount ≠ set.filters.length then
    .error (.invalid (.filterCount summary.filterCount set.filters.length))
  else if summary.package ≠ set.package then .error (.invalid .package)
  else .ok set

/-- The rule set of a payload. -/
def decodePayload (payload : Payload) : Except LoadError RuleSet :=
  match RuleSet.ofText payload.document with
  | .error .notJson => .error (.invalid .notJson)
  | .error (.notARuleSet error) => .error (.invalid (.notARuleSet error))
  | .ok set => check payload.summary set

/-- The rule set of a cache, with any hash. -/
def loadWith (hash : Hash) (bytes : List UInt8) : Except LoadError RuleSet := do
  let (_, payload) ← readPayload hash bytes
  decodePayload payload

/-- What can be told of a cache without decoding its rules, with any hash. -/
def inspectWith (hash : Hash) (bytes : List UInt8) : Except LoadError Info := do
  let (header, payload) ← readPayload hash bytes
  return ⟨header.engine, payload.summary⟩

/-- Whether a cache was written for exactly this text, with any hash. -/
def Info.matchesSourceWith (hash : Hash) (info : Info) (source : String) : Bool :=
  info.summary.sourceDigest = some (sourceDigest hash source)

/-- The bytes of a cached rule set. -/
def save (set : RuleSet) (source : Option String) : Except SaveError (List UInt8) :=
  saveWith Blake3.hash set source

/-- The rule set of a cache. -/
def load (bytes : List UInt8) : Except LoadError RuleSet := loadWith Blake3.hash bytes

/-- What can be told of a cache without decoding its rules. -/
def inspect (bytes : List UInt8) : Except LoadError Info := inspectWith Blake3.hash bytes

/-- Whether a cache was written for exactly this text. -/
def Info.matchesSource (info : Info) (source : String) : Bool :=
  info.matchesSourceWith Blake3.hash source

end Cache

end GameRules
