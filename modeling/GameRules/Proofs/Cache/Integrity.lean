import GameRules.Proofs.Cache.RoundTrip

/-!
# What a cache that is accepted tells

Nothing is assumed here about where the bytes come from or which hash is used. Reading looks at the 32
bytes of the header and at as many bytes after it as the header announces, and at no others; what
follows them has no influence. Loading and inspecting read the same header and the same payload, so a
cache that cannot be inspected cannot be loaded, and what is told of a cache that is loaded is true of
the rule set in it.
-/

namespace GameRules

/-- A rule set is that of a text if the text is a document and the rule set is that of the document. -/
theorem RuleSet.ofText_eq_ok_iff {text : String} {set : RuleSet} :
    ofText text = .ok set ↔ ∃ document, Json.read? text = some document ∧ decode document = .ok set := by
  rw [ofText]
  cases Json.read? text with
  | none => simp
  | some document => cases decoded : decode document <;> simp [Except.mapError, decoded]

namespace Cache

/-- Bytes are found at the same place when others follow. -/
theorem slice_append {bytes : List UInt8} {position width : Nat}
    (within : position + width ≤ bytes.length) (suffix : List UInt8) :
    ((bytes ++ suffix).drop position).take width = (bytes.drop position).take width := by
  have reached : position ≤ bytes.length := by omega
  have enough : width ≤ (bytes.drop position).length := by
    rw [List.length_drop]
    omega
  rw [List.drop_append_of_le_length reached, List.take_append_of_le_length enough]

/-- A number is found at the same place when other bytes follow. -/
theorem numberAt_append {bytes : List UInt8} {position width : Nat}
    (within : position + width ≤ bytes.length) (suffix : List UInt8) :
    numberAt (bytes ++ suffix) position width = numberAt bytes position width := by
  rw [numberAt, slice_append within, numberAt]

/-- A header is read of bytes that are enough for one and begin like a cache. -/
theorem readHeader_eq_ok_iff {bytes : List UInt8} {header : Header} :
    readHeader bytes = .ok header ↔
      headerSize ≤ bytes.length ∧ bytes.take 4 = magic ∧
        header = ⟨numberAt bytes 4 2, numberAt bytes 6 2, numberAt bytes 12 4,
          (bytes.drop 16).take checksumSize⟩ := by
  rw [readHeader]
  split
  · rename_i short
    exact ⟨fun read => (by cases read), fun given => absurd short (Nat.not_lt.mpr given.1)⟩
  · rename_i enough
    split
    · rename_i foreign
      exact ⟨fun read => (by cases read), fun given => absurd given.2.1 foreign⟩
    · rename_i begins
      rw [Except.ok.injEq, eq_comm]
      exact ⟨fun read => ⟨Nat.not_lt.mp enough, not_not.mp begins, read⟩, fun given => given.2.2⟩

/-- A payload is verified if the header has the format that is supported, all of the announced bytes
are there, and they have the digest of which the header has the front. -/
theorem verifiedPayload_eq_ok_iff {hash : Hash} {bytes stored : List UInt8} {header : Header} :
    verifiedPayload hash bytes header = .ok stored ↔
      header.format = formatVersion ∧ headerSize + header.payloadLength ≤ bytes.length ∧
        stored = (bytes.drop headerSize).take header.payloadLength ∧
          checksum hash stored = header.checksum := by
  rw [verifiedPayload]
  split
  · rename_i other
    exact ⟨fun read => (by cases read), fun given => absurd given.1 other⟩
  · rename_i supported
    split
    · rename_i short
      exact ⟨fun read => (by cases read), fun given => absurd short (Nat.not_lt.mpr given.2.1)⟩
    · rename_i enough
      dsimp only
      split
      · rename_i altered
        refine ⟨fun read => (by cases read), fun given => absurd ?_ altered⟩
        obtain ⟨-, -, sliced, same⟩ := given
        rw [← sliced, same]
      · rename_i same
        rw [Except.ok.injEq, eq_comm]
        refine ⟨fun sliced => ⟨not_not.mp supported, Nat.not_lt.mp enough, sliced, ?_⟩,
          fun given => given.2.2.1⟩
        rw [sliced, not_not.mp same]

/-- Reading that goes on after other reading succeeds when both do. -/
theorem bind_eq_ok_iff {α β : Type} {first : Except LoadError α} {next : α → Except LoadError β}
    {result : β} :
    first >>= next = .ok result ↔ ∃ value, first = .ok value ∧ next value = .ok result := by
  cases first with
  | error error => simp [bind, Except.bind]
  | ok value => simp [bind, Except.bind]

variable {hash : Hash} {bytes : List UInt8} {header : Header} {payload : Payload} {set : RuleSet}

/-- Header and payload are read if the header is and a payload stands at the front of the bytes that
are verified. -/
theorem readPayload_eq_ok_iff :
    readPayload hash bytes = .ok (header, payload) ↔
      readHeader bytes = .ok header ∧ ∃ stored rest, verifiedPayload hash bytes header = .ok stored ∧
        payloadFormat.decode stored = some (payload, rest) := by
  simp only [readPayload, bind_eq_ok_iff]
  constructor
  · rintro ⟨read, found, stored, verified, decoded⟩
    split at decoded
    · cases decoded
    · rename_i content rest front
      simp only [pure, Except.pure, Except.ok.injEq, Prod.mk.injEq] at decoded
      obtain ⟨rfl, rfl⟩ := decoded
      exact ⟨found, stored, rest, verified, front⟩
  · rintro ⟨found, stored, rest, verified, front⟩
    refine ⟨header, found, stored, verified, ?_⟩
    rw [front]
    rfl

/-- A rule set is loaded if a payload is read and the rule set is that of the payload. -/
theorem loadWith_eq_ok_iff :
    loadWith hash bytes = .ok set ↔ ∃ header payload,
      readPayload hash bytes = .ok (header, payload) ∧ decodePayload payload = .ok set := by
  rw [loadWith, bind_eq_ok_iff, Prod.exists]

/-- What is told of a cache is what its header and its payload say. -/
theorem inspectWith_of_readPayload (read : readPayload hash bytes = .ok (header, payload)) :
    inspectWith hash bytes = .ok ⟨header.engine, payload.summary⟩ := by
  simp only [inspectWith, read, bind, Except.bind, pure, Except.pure]

/-- Inspecting fails only because header and payload are not read, and then loading fails alike. -/
theorem loadWith_of_inspectWith_error {error : LoadError} (failed : inspectWith hash bytes = .error error) :
    loadWith hash bytes = .error error := by
  cases read : readPayload hash bytes with
  | error reason =>
    simp only [inspectWith, read, bind, Except.bind, Except.error.injEq] at failed
    simp only [loadWith, read, bind, Except.bind, failed]
  | ok found =>
    rw [inspectWith_of_readPayload read] at failed
    cases failed

/-- A rule set that passes the check is the one that was checked, and the summary is true of it. -/
theorem check_eq_ok_iff {summary : Summary} {checked : RuleSet} :
    check summary checked = .ok set ↔
      checked = set ∧ summary.ruleCount = set.rules.length ∧
        summary.filterCount = set.filters.length ∧ summary.package = set.package := by
  have unfolded : check summary checked = .ok set ↔ summary.ruleCount = checked.rules.length ∧
      summary.filterCount = checked.filters.length ∧ summary.package = checked.package ∧
        checked = set := by
    simp only [check, ne_eq, ite_not]
    split_ifs <;> simp_all
  rw [unfolded]
  constructor
  · rintro ⟨rules, filters, package, rfl⟩
    exact ⟨rfl, rules, filters, package⟩
  · rintro ⟨rfl, rules, filters, package⟩
    exact ⟨rules, filters, package, rfl⟩

/-- The rule set of a payload is that of the document in it, and the summary is true of it. -/
theorem decodePayload_eq_ok_iff :
    decodePayload payload = .ok set ↔
      RuleSet.ofText payload.document = .ok set ∧ payload.summary.ruleCount = set.rules.length ∧
        payload.summary.filterCount = set.filters.length ∧ payload.summary.package = set.package := by
  rw [decodePayload]
  cases RuleSet.ofText payload.document with
  | error error => cases error <;> simp
  | ok found => simp only [check_eq_ok_iff, Except.ok.injEq]

/-- A header is read whatever follows it. -/
theorem readHeader_append (read : readHeader bytes = .ok header) (suffix : List UInt8) :
    readHeader (bytes ++ suffix) = .ok header := by
  obtain ⟨enough, begins, rfl⟩ := readHeader_eq_ok_iff.mp read
  rw [headerSize] at enough
  refine readHeader_eq_ok_iff.mpr ⟨?_, ?_, ?_⟩
  · rw [headerSize, List.length_append]
    omega
  · rw [List.take_append_of_le_length (by omega), begins]
  · have checksum : ((bytes ++ suffix).drop 16).take checksumSize = (bytes.drop 16).take checksumSize :=
      slice_append (by rw [checksumSize]; omega) suffix
    rw [numberAt_append (by omega), numberAt_append (by omega), numberAt_append (by omega), checksum]

/-- A payload is verified whatever follows it. -/
theorem verifiedPayload_append {stored : List UInt8}
    (verified : verifiedPayload hash bytes header = .ok stored) (suffix : List UInt8) :
    verifiedPayload hash (bytes ++ suffix) header = .ok stored := by
  obtain ⟨supported, enough, sliced, same⟩ := verifiedPayload_eq_ok_iff.mp verified
  refine verifiedPayload_eq_ok_iff.mpr ⟨supported, ?_, ?_, same⟩
  · rw [List.length_append]
    omega
  · rw [slice_append enough, sliced]

/-- Header and payload are read whatever follows them. -/
theorem readPayload_append (read : readPayload hash bytes = .ok (header, payload))
    (suffix : List UInt8) : readPayload hash (bytes ++ suffix) = .ok (header, payload) := by
  obtain ⟨found, stored, rest, verified, decoded⟩ := readPayload_eq_ok_iff.mp read
  exact readPayload_eq_ok_iff.mpr
    ⟨readHeader_append found suffix, stored, rest, verifiedPayload_append verified suffix, decoded⟩

/-- Whatever bytes a rule set is loaded from, the decoder accepts it, what inspecting tells of it is
true, and the same is loaded and told if other bytes follow. Bytes that cannot be inspected cannot be
loaded, for the same reason. -/
theorem loadWith_sound (hash : Hash) (bytes : List UInt8) :
    (∀ set, loadWith hash bytes = .ok set →
      (∃ document, RuleSet.decode document = .ok set) ∧
        (∃ info, inspectWith hash bytes = .ok info ∧
          info.summary.ruleCount = set.rules.length ∧
            info.summary.filterCount = set.filters.length ∧ info.summary.package = set.package) ∧
          ∀ suffix, loadWith hash (bytes ++ suffix) = .ok set ∧
            inspectWith hash (bytes ++ suffix) = inspectWith hash bytes) ∧
      ∀ error, inspectWith hash bytes = .error error → loadWith hash bytes = .error error := by
  refine ⟨fun set loaded => ?_, fun error failed => loadWith_of_inspectWith_error failed⟩
  obtain ⟨header, payload, read, contained⟩ := loadWith_eq_ok_iff.mp loaded
  obtain ⟨accepted, told⟩ := decodePayload_eq_ok_iff.mp contained
  obtain ⟨document, -, decoded⟩ := RuleSet.ofText_eq_ok_iff.mp accepted
  have inspected := inspectWith_of_readPayload read
  refine ⟨⟨document, decoded⟩, ⟨_, inspected, told⟩, fun suffix => ?_⟩
  have readAgain := readPayload_append read suffix
  have loadedAgain : loadWith hash (bytes ++ suffix) = .ok set :=
    loadWith_eq_ok_iff.mpr ⟨header, payload, readAgain, contained⟩
  have inspectedAgain : inspectWith hash (bytes ++ suffix) = inspectWith hash bytes := by
    rw [inspectWith_of_readPayload readAgain, inspected]
  exact ⟨loadedAgain, inspectedAgain⟩

/-- A rule set that is read from its own text is loaded from what is saved for it. -/
theorem loadWith_of_saveWith {source : Option String} (saved : saveWith hash set source = .ok bytes)
    (read : RuleSet.ofText set.toText = .ok set) : loadWith hash bytes = .ok set := by
  obtain ⟨header, stored, -⟩ := readPayload_of_saveWith saved
  have contained : decodePayload (payloadOf hash set source) = .ok set :=
    decodePayload_eq_ok_iff.mpr ⟨read, rfl, rfl, rfl⟩
  exact loadWith_eq_ok_iff.mpr ⟨header, _, stored, contained⟩

/-- The rules of the harbor are read from their text. -/
theorem ofText_toText_harbor : RuleSet.ofText harbor.toText = .ok harbor :=
  RuleSet.ofText_toText
    (Json.read?_render ⟨by decide +kernel, by decide +kernel⟩ (by decide +kernel))
    decode_encode_harbor

/-- The cache of the harbor is accepted with a byte after it, and no bytes at all are refused. -/
theorem load_harbor_followed :
    ∃ bytes, save harbor (some "harbor.json") = .ok bytes ∧ load bytes = .ok harbor ∧
      load (bytes ++ [0]) = .ok harbor ∧ inspect (bytes ++ [0]) = inspect bytes ∧
        inspect [] = .error (.lengthMismatch 32 0) ∧ load [] = .error (.lengthMismatch 32 0) := by
  have fits : (payloadFormat.encode
      (payloadOf Blake3.hash harbor (some "harbor.json"))).length < 2 ^ 32 :=
    length_payload_harbor (sourceDigest Blake3.hash "harbor.json")
  have saved := saveWith_eq_ok_iff.mpr ⟨fits, rfl⟩
  have loaded := loadWith_of_saveWith saved ofText_toText_harbor
  obtain ⟨-, -, followed⟩ := (loadWith_sound Blake3.hash _).1 harbor loaded
  obtain ⟨loadedAgain, inspectedAgain⟩ := followed [0]
  have empty : inspect [] = .error (.lengthMismatch 32 0) := rfl
  exact ⟨_, saved, loaded, loadedAgain, inspectedAgain, empty, (loadWith_sound Blake3.hash []).2 _ empty⟩

end Cache

end GameRules
