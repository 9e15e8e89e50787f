import GameRules.Cache.Blob
import GameRules.Json.Equality
import GameRules.Proofs.Cache.Format
import GameRules.Proofs.Document.Record
import GameRules.Proofs.Invariants
import GameRules.Proofs.Json.RoundTrip
import GameRules.Proofs.Json.Writer

/-!
# Cached rule sets are read back

What is saved is loaded as the same rule set, and what is told of it without decoding the rules is
what was saved. The three formats fit into each other: the header says how long the payload is and
holds the front of its digest, the payload is read back field by field, and the text in it is that of
the document, which is read back too. None of this depends on which hash is used.
-/

namespace GameRules

/-- The text of an object has at least one character for each item of a list in it. -/
theorem Record.length_le_length_render {record : Record} (key : String) {items : List Json}
    (written : record.lookup key = some (.array items)) :
    items.length ≤ record.build.render.toList.length := by
  obtain ⟨before, after, entries, -⟩ := List.lookup_eq_some_iff.mp written
  have member : (key, Json.array items) ∈ record := by
    rw [entries]
    exact List.mem_append_right _ List.mem_cons_self
  exact (Json.length_le_length_render_array items).trans (Json.length_render_le_of_mem member)

namespace RuleSet

variable (set : RuleSet)

/-- The text of a rule set has at least one character for each rule. -/
theorem length_rules_le_length_toText : set.rules.length ≤ set.toText.toList.length :=
  (List.length_map Rule.encode).symm.trans_le (Record.length_le_length_render "rules" (by simp))

/-- The text of a rule set has at least one character for each filter. -/
theorem length_filters_le_length_toText : set.filters.length ≤ set.toText.toList.length := by
  by_cases filled : set.filters = []
  · rw [filled]
    exact Nat.zero_le _
  · exact (List.length_map Filter.encode).symm.trans_le
      (Record.length_le_length_render "filters" (by simp [filled]))

/-- A rule set whose document and text are read back is loaded from its text. -/
theorem ofText_toText {set : RuleSet} (read : Json.read? set.encode.render = some set.encode)
    (stable : decode set.encode = .ok set) : ofText set.toText = .ok set := by
  rw [ofText, toText, read]
  dsimp only
  rw [stable]
  rfl

end RuleSet

namespace Cache

/-- Bytes between others are found where they begin. -/
theorem slice_eq {bytes middle : List UInt8} {position width : Nat} (before after : List UInt8)
    (written : bytes = before ++ (middle ++ after)) (placed : before.length = position)
    (size : middle.length = width) : (bytes.drop position).take width = middle := by
  rw [written, List.drop_left' placed, List.take_left' size]

/-- A number that fits its bytes is found where they begin. -/
theorem numberAt_eq {bytes : List UInt8} {position width value : Nat} (before after : List UInt8)
    (written : bytes = before ++ (Format.littleEndian width value ++ after))
    (placed : before.length = position) (fits : value < 256 ^ width) :
    numberAt bytes position width = value := by
  rw [numberAt, slice_eq before after written placed (Format.length_littleEndian width value),
    Format.ofLittleEndian_littleEndian fits]

section Header

variable (hash : Hash) (payload : List UInt8)

/-- The front of a digest is 16 bytes long. -/
theorem length_checksum : (checksum hash payload).length = checksumSize := by
  rw [checksum, List.length_take, (hash payload).size]
  rfl

/-- A header is 32 bytes long. -/
theorem length_encodeHeader : (encodeHeader hash payload).length = headerSize := by
  simp only [encodeHeader, List.length_append, Format.length_littleEndian, length_checksum]
  rfl

variable {payload}

/-- A header is read back from the front of a cache. -/
theorem readHeader_encodeHeader (fits : payload.length < 2 ^ 32) (rest : List UInt8) :
    readHeader (encodeHeader hash payload ++ rest) =
      .ok ⟨formatVersion, engineVersion, payload.length, checksum hash payload⟩ := by
  let format := Format.littleEndian 2 formatVersion
  let engine := Format.littleEndian 2 engineVersion
  let flags := Format.littleEndian 4 0
  let length := Format.littleEndian 4 payload.length
  have written : encodeHeader hash payload ++ rest =
      magic ++ (format ++ (engine ++ (flags ++ (length ++ (checksum hash payload ++ rest))))) := by
    simp only [encodeHeader, List.append_assoc, format, engine, flags, length]
  have long : ¬(encodeHeader hash payload ++ rest).length < headerSize := by
    rw [List.length_append, length_encodeHeader]
    omega
  have begins : (encodeHeader hash payload ++ rest).take 4 = magic := by
    rw [written]
    exact List.take_left' rfl
  have formatFound : numberAt (encodeHeader hash payload ++ rest) 4 2 = formatVersion :=
    numberAt_eq magic _ written rfl (by decide)
  have engineFound : numberAt (encodeHeader hash payload ++ rest) 6 2 = engineVersion :=
    numberAt_eq (magic ++ format) _ (by rw [written, List.append_assoc]) rfl (by decide)
  have lengthFound : numberAt (encodeHeader hash payload ++ rest) 12 4 = payload.length :=
    numberAt_eq (magic ++ format ++ engine ++ flags) _ (by simp only [written, List.append_assoc]; rfl)
      rfl fits
  have checksumFound : ((encodeHeader hash payload ++ rest).drop 16).take checksumSize =
      checksum hash payload :=
    slice_eq (magic ++ format ++ engine ++ flags ++ length) rest
      (by simp only [written, List.append_assoc]) rfl (length_checksum hash payload)
  rw [readHeader, if_neg long, if_neg (not_not_intro begins), formatFound, engineFound, lengthFound,
    checksumFound]

/-- The payload that was written after its header is verified. -/
theorem verifiedPayload_encodeHeader :
    verifiedPayload hash (encodeHeader hash payload ++ payload)
      ⟨formatVersion, engineVersion, payload.length, checksum hash payload⟩ = .ok payload := by
  have complete : ¬(encodeHeader hash payload ++ payload).length < headerSize + payload.length := by
    rw [List.length_append, length_encodeHeader]
    omega
  have sliced : ((encodeHeader hash payload ++ payload).drop headerSize).take payload.length =
      payload :=
    slice_eq (encodeHeader hash payload) [] (by rw [List.append_nil])
      (length_encodeHeader hash payload) rfl
  simp only [verifiedPayload, ne_eq, not_true_eq_false, if_false, if_neg complete, sliced]

end Header

/-- A summary is read back if its numbers and the length of the name fit 64 bits. -/
theorem summaryFormat_lawfulAt {summary : Summary} (rules : summary.ruleCount < 2 ^ 64)
    (filters : summary.filterCount < 2 ^ 64)
    (package : ∀ name ∈ summary.package, (Format.textBytes name).length < 2 ^ 64) :
    summaryFormat.LawfulAt summary := by
  have digest : digestFormat.option.LawfulAt summary.sourceDigest :=
    Format.option_lawfulAt fun given _ => Format.equiv_lawfulAt (Format.fixed_lawfulAt _) rfl
  have name : Format.text.option.LawfulAt summary.package :=
    Format.option_lawfulAt fun given present => Format.text_lawfulAt (package given present)
  exact Format.equiv_lawfulAt (Format.pair_lawfulAt (Format.natural_lawfulAt rules)
    (Format.pair_lawfulAt (Format.natural_lawfulAt filters) (Format.pair_lawfulAt name digest))) rfl

/-- A payload is no shorter than the text in it. -/
theorem length_document_le (payload : Payload) :
    (Format.textBytes payload.document).length ≤ (payloadFormat.encode payload).length := by
  show _ ≤ (summaryFormat.encode payload.summary ++
    (Format.natural.encode _ ++ Format.textBytes payload.document)).length
  rw [List.length_append, List.length_append]
  omega

/-- A payload is not much longer than the characters of the text in it take. -/
theorem length_payload_le (payload : Payload) :
    (payloadFormat.encode payload).length ≤
      (summaryFormat.encode payload.summary).length + 9 + 4 * payload.document.toList.length := by
  have size := Format.length_natural_le (Format.textBytes payload.document).length
  have text := Format.length_textBytes_le payload.document
  show (summaryFormat.encode payload.summary ++
    (Format.natural.encode (Format.textBytes payload.document).length ++
      Format.textBytes payload.document)).length ≤ _
  rw [List.length_append, List.length_append]
  omega

/-- A payload is no shorter than the name of the package in it. -/
theorem length_package_le {payload : Payload} {name : String}
    (named : payload.summary.package = some name) :
    (Format.textBytes name).length ≤ (payloadFormat.encode payload).length := by
  show _ ≤ (Format.natural.encode _ ++ (Format.natural.encode _ ++
    (Format.text.option.encode payload.summary.package ++ digestFormat.option.encode _)) ++
      Format.text.encode _).length
  have stored : Format.text.option.encode payload.summary.package =
      1 :: (Format.natural.encode (Format.textBytes name).length ++ Format.textBytes name) := by
    rw [named]
    rfl
  simp only [stored, List.length_append, List.length_cons]
  omega

variable {hash : Hash} {set : RuleSet} {source : Option String}

/-- The payload of a rule set is read back if its length fits a header. The numbers in it are no
greater than that length, so they fit too. -/
theorem payloadFormat_lawfulAt
    (fits : (payloadFormat.encode (payloadOf hash set source)).length < 2 ^ 32) :
    payloadFormat.LawfulAt (payloadOf hash set source) := by
  have document := length_document_le (payloadOf hash set source)
  have characters := Format.length_toList_le_length_textBytes set.toText
  have rules := set.length_rules_le_length_toText
  have filters := set.length_filters_le_length_toText
  change (Format.textBytes set.toText).length ≤ _ at document
  have summary : summaryFormat.LawfulAt (payloadOf hash set source).summary := by
    refine summaryFormat_lawfulAt ?_ ?_ fun name named => ?_
    · show set.rules.length < 2 ^ 64
      omega
    · show set.filters.length < 2 ^ 64
      omega
    · have shorter := length_package_le named
      omega
  have text : Format.text.LawfulAt set.toText := Format.text_lawfulAt (by omega)
  exact Format.equiv_lawfulAt (Format.pair_lawfulAt summary text) rfl

/-- What is saved is a header and the payload it announces, which fits. -/
theorem saveWith_eq_ok_iff {bytes : List UInt8} :
    saveWith hash set source = .ok bytes ↔
      (payloadFormat.encode (payloadOf hash set source)).length < 2 ^ 32 ∧
        bytes = encodeHeader hash (payloadFormat.encode (payloadOf hash set source)) ++
          payloadFormat.encode (payloadOf hash set source) := by
  rw [saveWith]
  split
  · rename_i fits
    rw [Except.ok.injEq, eq_comm]
    exact (and_iff_right fits).symm
  · rename_i tooLarge
    exact ⟨nofun, fun stored => absurd stored.1 tooLarge⟩

/-- The header and the payload of what was saved are read back. -/
theorem readPayload_of_saveWith {bytes : List UInt8} (saved : saveWith hash set source = .ok bytes) :
    ∃ header, readPayload hash bytes = .ok (header, payloadOf hash set source) ∧
      header.engine = engineVersion := by
  obtain ⟨fits, rfl⟩ := saveWith_eq_ok_iff.mp saved
  have decoded := payloadFormat_lawfulAt fits []
  rw [List.append_nil] at decoded
  generalize payloadFormat.encode (payloadOf hash set source) = stored at fits decoded ⊢
  refine ⟨⟨formatVersion, engineVersion, stored.length, checksum hash stored⟩, ?_, rfl⟩
  simp only [readPayload, readHeader_encodeHeader hash fits, verifiedPayload_encodeHeader, decoded,
    bind, Except.bind]
  rfl

/-- A payload tells of its rule set what the rule set is checked for. -/
theorem check_payloadOf : check (payloadOf hash set source).summary set = .ok set := by
  simp [check, payloadOf]

/-- A cache matches exactly the texts that have the digest of the text it was saved for. -/
theorem matchesSourceWith_iff {info : Info}
    (digest : info.summary.sourceDigest = source.map (sourceDigest hash)) (text : String) :
    info.matchesSourceWith hash text = true ↔
      ∃ given, source = some given ∧ sourceDigest hash text = sourceDigest hash given := by
  rw [Info.matchesSourceWith, decide_eq_true_iff, digest, Option.map_eq_some_iff]
  exact exists_congr fun given => and_congr_right fun _ => eq_comm

/-- A rule set that is decoded from its own document, nested no deeper than 127 levels, is loaded from
what was saved for it, and inspecting that tells the version of the engine, the numbers of rules and
filters, the package and the digest of the source. As in every document that is read, whole numbers
have 64 bits and entries are in order; that fractional numbers are read back is assumed of those in
the document. -/
theorem loadWith_inspectWith_of_saveWith (hash : Hash) (set : RuleSet) (source : Option String)
    (bytes : List UInt8) (stable : RuleSet.decode set.encode = .ok set)
    (shallow : set.encode.nesting ≤ 127) (proper : ∀ part ∈ set.encode.subdocuments, part.Proper)
    (readBack : ∀ number ∈ set.encode.fractions,
      Json.read? (Json.float number).render = some (.float number))
    (saved : saveWith hash set source = .ok bytes) :
    loadWith hash bytes = .ok set ∧ ∃ info, inspectWith hash bytes = .ok info ∧ info.engine = 1 ∧
      info.summary.ruleCount = set.rules.length ∧ info.summary.filterCount = set.filters.length ∧
        info.summary.package = set.package ∧
          info.summary.sourceDigest = source.map (sourceDigest hash) ∧
            ∀ text, info.matchesSourceWith hash text = true ↔
              ∃ given, source = some given ∧ sourceDigest hash text = sourceDigest hash given := by
  obtain ⟨header, read, engine⟩ := readPayload_of_saveWith saved
  have document : RuleSet.ofText (payloadOf hash set source).document = .ok set :=
    RuleSet.ofText_toText (Json.read?_render ⟨shallow, proper⟩ readBack) stable
  have loaded : loadWith hash bytes = .ok set := by
    simp only [loadWith, read, bind, Except.bind, decodePayload, document, check_payloadOf]
  have inspected : inspectWith hash bytes =
      .ok ⟨header.engine, (payloadOf hash set source).summary⟩ := by
    simp only [inspectWith, read, bind, Except.bind]
    rfl
  exact ⟨loaded, _, inspected, engine, rfl, rfl, rfl, rfl, matchesSourceWith_iff rfl⟩

/-- The rules of a harbor: one raises the alarm and one lowers it to one half. -/
def harbor : RuleSet :=
  ⟨none, some "harbor", [], [.alarm, { Rule.alarm with
    name := "calm"
    effects := [.set ⟨"$.alarm"⟩ (.literal (.float ⟨false, 1022 * 2 ^ 52, by decide⟩))] }], []⟩

/-- The rules of the harbor are read back from their document. -/
theorem decode_encode_harbor : RuleSet.decode harbor.encode = .ok harbor := by
  refine RuleSet.decode_encode ⟨?_, nofun⟩ nofun
  rintro rule (_ | ⟨_, _ | ⟨_, ⟨⟩⟩⟩)
  · exact Rule.alarm_wellFormed
  · exact { Rule.alarm_wellFormed with
      name := by decide
      active := nofun
      effects := ⟨⟨nofun, by decide, rfl, nofun⟩, trivial⟩ }

/-- The payload of the rules of the harbor fits a header, whatever the digest of their source. -/
theorem length_payload_harbor (digest : Digest) :
    (payloadFormat.encode ⟨⟨2, 0, some "harbor", some digest⟩, harbor.toText⟩).length < 2 ^ 32 := by
  have document : (Format.text.encode harbor.toText).length < 2 ^ 31 := by decide +kernel
  have package : (Format.text.option.encode (some "harbor")).length < 2 ^ 16 := by decide +kernel
  have stored : (digestFormat.option.encode (some digest)).length = 33 :=
    congrArg Nat.succ digest.size
  show (Format.natural.encode 2 ++ (Format.natural.encode 0 ++ (Format.text.option.encode
    (some "harbor") ++ digestFormat.option.encode (some digest))) ++
      Format.text.encode harbor.toText).length < 2 ^ 32
  have counts : (Format.natural.encode 2).length = 1 ∧ (Format.natural.encode 0).length = 1 := by
    decide
  simp only [List.length_append]
  omega

/-- The rules of the harbor are loaded from what is saved for them, which matches their source. -/
theorem load_inspect_harbor :
    ∃ bytes info, save harbor (some "harbor.json") = .ok bytes ∧ load bytes = .ok harbor ∧
      inspect bytes = .ok info ∧ info.matchesSource "harbor.json" = true := by
  have fits : (payloadFormat.encode
      (payloadOf Blake3.hash harbor (some "harbor.json"))).length < 2 ^ 32 :=
    length_payload_harbor (sourceDigest Blake3.hash "harbor.json")
  have saved := saveWith_eq_ok_iff.mpr ⟨fits, rfl⟩
  obtain ⟨loaded, info, inspected, -, -, -, -, -, sourced⟩ :=
    loadWith_inspectWith_of_saveWith Blake3.hash harbor (some "harbor.json") _ decode_encode_harbor
      (by decide +kernel) (by decide +kernel) (by decide +kernel) saved
  exact ⟨_, info, saved, loaded, inspected, (sourced _).mpr ⟨_, rfl, rfl⟩⟩

end Cache

end GameRules
