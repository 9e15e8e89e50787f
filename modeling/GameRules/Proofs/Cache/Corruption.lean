import GameRules.Proofs.Cache.Integrity

/-!
# Corrupted caches are told apart

A cache that was saved may lose bytes at its end, or have one of its bytes changed. Which error is
given depends on where the change is: each field of the header is a slice of the bytes, a change
outside of a slice leaves the slice as it is, and one inside of it makes another number of it. Only
the version of the engine and four bytes without a meaning may change without being noticed. Of the
hash it is assumed no more than that it tells the payload at hand from the changed one.
-/

namespace GameRules

namespace Cache

section Slices

variable {bytes : List UInt8} {index position width : Nat} {value : UInt8}

/-- Changing a byte outside of a slice leaves the slice as it is. -/
theorem slice_set_outside (outside : index < position ∨ position + width ≤ index) :
    ((bytes.set index value).drop position).take width = (bytes.drop position).take width := by
  rw [List.drop_set]
  split
  · rfl
  · rename_i reached
    exact List.take_set_of_le (by omega)

/-- Changing a byte inside of a slice changes the byte in the slice. -/
theorem slice_set_inside (reached : position ≤ index) :
    ((bytes.set index value).drop position).take width =
      ((bytes.drop position).take width).set (index - position) value := by
  rw [List.drop_set, if_neg (Nat.not_lt.mpr reached), List.take_set]

/-- Another byte inside of a slice makes another slice of it. -/
theorem slice_set_ne (reached : position ≤ index) (inside : index < position + width)
    (present : index < bytes.length) (changed : value ≠ bytes[index]) :
    ((bytes.set index value).drop position).take width ≠ (bytes.drop position).take width := by
  have within : index - position < ((bytes.drop position).take width).length := by
    rw [List.length_take, List.length_drop]
    omega
  have place : position + (index - position) = index := by omega
  rw [slice_set_inside reached]
  intro same
  have byte := List.getElem_of_eq same.symm within
  simp only [List.getElem_set_self, List.getElem_take, List.getElem_drop, place] at byte
  exact changed byte.symm

/-- Changing a byte outside of a number leaves the number as it is. -/
theorem numberAt_set_outside (outside : index < position ∨ position + width ≤ index) :
    numberAt (bytes.set index value) position width = numberAt bytes position width := by
  rw [numberAt, slice_set_outside outside, numberAt]

/-- Another byte inside of a number makes another number of it. -/
theorem numberAt_set_ne (reached : position ≤ index) (inside : index < position + width)
    (present : index < bytes.length) (changed : value ≠ bytes[index]) :
    numberAt (bytes.set index value) position width ≠ numberAt bytes position width := by
  have size : (((bytes.set index value).drop position).take width).length =
      ((bytes.drop position).take width).length := by
    simp only [List.length_take, List.length_drop, List.length_set]
  exact fun same => slice_set_ne reached inside present changed (Format.eq_of_ofLittleEndian_eq size same)

/-- A number is the same in the bytes up to a later place. -/
theorem numberAt_take {length : Nat} (within : position + width ≤ length) :
    numberAt (bytes.take length) position width = numberAt bytes position width := by
  have shorter : min width (length - position) = width := by omega
  rw [numberAt, List.drop_take, List.take_take, shorter, numberAt]

end Slices

/-- Neither a rule set is loaded from the bytes nor anything told of them, for this reason. -/
def Refused (hash : Hash) (bytes : List UInt8) (error : LoadError) : Prop :=
  loadWith hash bytes = .error error ∧ inspectWith hash bytes = .error error

/-- What the header of some bytes says, if they begin with one. -/
def headerOf (bytes : List UInt8) : Header :=
  ⟨numberAt bytes 4 2, numberAt bytes 6 2, numberAt bytes 12 4, (bytes.drop 16).take checksumSize⟩

section Refusal

variable {hash : Hash} {bytes : List UInt8} {error : LoadError}

/-- Bytes whose header and payload are not read are refused for that reason. -/
theorem refused_of_readPayload (failed : readPayload hash bytes = .error error) :
    Refused hash bytes error := by
  constructor
  · simp only [loadWith, failed, bind, Except.bind]
  · simp only [inspectWith, failed, bind, Except.bind]

/-- Bytes whose header is not read are refused for that reason. -/
theorem refused_of_readHeader (failed : readHeader bytes = .error error) :
    Refused hash bytes error :=
  refused_of_readPayload (by simp only [readPayload, failed, bind, Except.bind])

/-- Bytes whose payload is not verified are refused for that reason. -/
theorem refused_of_verifiedPayload {header : Header} (read : readHeader bytes = .ok header)
    (failed : verifiedPayload hash bytes header = .error error) : Refused hash bytes error :=
  refused_of_readPayload (by simp only [readPayload, read, failed, bind, Except.bind])

/-- Too few bytes for a header are refused with the number that is needed. -/
theorem refused_of_short (short : bytes.length < headerSize) :
    Refused hash bytes (.lengthMismatch headerSize bytes.length) :=
  refused_of_readHeader (by rw [readHeader, if_pos short])

/-- Bytes that do not begin like a cache are refused for that. -/
theorem refused_of_foreign (enough : headerSize ≤ bytes.length) (foreign : bytes.take 4 ≠ magic) :
    Refused hash bytes .badMagic :=
  refused_of_readHeader (by rw [readHeader, if_neg (Nat.not_lt.mpr enough), if_pos foreign])

variable (enough : headerSize ≤ bytes.length) (begins : bytes.take 4 = magic)
include enough begins

/-- Another version of the format is refused with that version. -/
theorem refused_of_format (other : numberAt bytes 4 2 ≠ formatVersion) :
    Refused hash bytes (.incompatibleVersion (numberAt bytes 4 2)) := by
  have read : readHeader bytes = .ok (headerOf bytes) := readHeader_eq_ok_iff.mpr ⟨enough, begins, rfl⟩
  refine refused_of_verifiedPayload read ?_
  rw [verifiedPayload, if_pos (show (headerOf bytes).format ≠ formatVersion from other)]
  rfl

variable (supported : numberAt bytes 4 2 = formatVersion)
include supported

/-- Fewer bytes than announced are refused with the number that is announced. -/
theorem refused_of_truncated (short : bytes.length < headerSize + numberAt bytes 12 4) :
    Refused hash bytes (.lengthMismatch (numberAt bytes 12 4) (bytes.length - headerSize)) := by
  have read : readHeader bytes = .ok (headerOf bytes) := readHeader_eq_ok_iff.mpr ⟨enough, begins, rfl⟩
  refine refused_of_verifiedPayload read ?_
  have format : ¬(headerOf bytes).format ≠ formatVersion := not_not_intro supported
  have truncated : bytes.length < headerSize + (headerOf bytes).payloadLength := short
  rw [verifiedPayload, if_neg format, if_pos truncated]
  rfl

/-- A payload that has not the digest of which the header has the front is refused. -/
theorem refused_of_checksum (long : headerSize + numberAt bytes 12 4 ≤ bytes.length)
    (altered : checksum hash ((bytes.drop headerSize).take (numberAt bytes 12 4)) ≠
      (bytes.drop 16).take checksumSize) : Refused hash bytes .checksumMismatch := by
  have read : readHeader bytes = .ok (headerOf bytes) := readHeader_eq_ok_iff.mpr ⟨enough, begins, rfl⟩
  refine refused_of_verifiedPayload read ?_
  have format : ¬(headerOf bytes).format ≠ formatVersion := not_not_intro supported
  have complete : ¬bytes.length < headerSize + (headerOf bytes).payloadLength := Nat.not_lt.mpr long
  rw [verifiedPayload, if_neg format, if_neg complete]
  exact if_pos altered

end Refusal

/-- What is known of the bytes of a cache that was saved. -/
structure Intact (hash : Hash) (bytes : List UInt8) : Prop where
  /-- There is a header. -/
  enough : headerSize ≤ bytes.length
  /-- It begins like one. -/
  begins : bytes.take 4 = magic
  /-- It has the version that is supported. -/
  supported : numberAt bytes 4 2 = formatVersion
  /-- It announces all of the bytes that follow. -/
  announced : numberAt bytes 12 4 = (bytes.drop headerSize).length
  /-- It has the front of their digest. -/
  digested : (bytes.drop 16).take checksumSize = checksum hash (bytes.drop headerSize)

/-- What is saved is intact. -/
theorem intact_of_saveWith {hash : Hash} {set : RuleSet} {source : Option String}
    {bytes : List UInt8} (saved : saveWith hash set source = .ok bytes) : Intact hash bytes := by
  obtain ⟨fits, rfl⟩ := saveWith_eq_ok_iff.mp saved
  generalize payloadFormat.encode (payloadOf hash set source) = payload at fits ⊢
  have content : (encodeHeader hash payload ++ payload).drop headerSize = payload :=
    List.drop_left' (length_encodeHeader hash payload)
  obtain ⟨enough, begins, header⟩ := readHeader_eq_ok_iff.mp (readHeader_encodeHeader hash fits payload)
  obtain ⟨supported, -, announced, digested⟩ := Header.mk.inj header
  exact
    { enough, begins
      supported := supported.symm
      announced := by rw [content, announced]
      digested := by rw [content, digested] }

/-- How one other byte in a cache is noticed, by where it stands. -/
structure Classified (hash : Hash) (bytes : List UInt8) (position : Nat) (value : UInt8) : Prop where
  /-- The bytes no longer begin like a cache. -/
  magic : position < 4 → Refused hash (bytes.set position value) .badMagic
  /-- The version of the format is another one. -/
  format : 4 ≤ position → position < 6 →
    numberAt (bytes.set position value) 4 2 ≠ formatVersion ∧
      Refused hash (bytes.set position value)
        (.incompatibleVersion (numberAt (bytes.set position value) 4 2))
  /-- The rule set is the same, and only the version of the engine is told as another one. -/
  engine : 6 ≤ position → position < 8 →
    loadWith hash (bytes.set position value) = loadWith hash bytes ∧
      ∃ info, inspectWith hash bytes = .ok info ∧
        numberAt (bytes.set position value) 6 2 ≠ info.engine ∧
          inspectWith hash (bytes.set position value) =
            .ok { info with engine := numberAt (bytes.set position value) 6 2 }
  /-- Nothing is noticed. -/
  flags : 8 ≤ position → position < 12 →
    loadWith hash (bytes.set position value) = loadWith hash bytes ∧
      inspectWith hash (bytes.set position value) = inspectWith hash bytes
  /-- More bytes are announced than there are. -/
  longer : 12 ≤ position → position < 16 →
    (bytes.drop headerSize).length < numberAt (bytes.set position value) 12 4 →
      Refused hash (bytes.set position value) (.lengthMismatch
        (numberAt (bytes.set position value) 12 4) (bytes.drop headerSize).length)
  /-- Not all of the bytes are announced, and the announced ones have another digest. -/
  shorter : 12 ≤ position → position < 16 →
    numberAt (bytes.set position value) 12 4 ≤ (bytes.drop headerSize).length →
      checksum hash ((bytes.drop headerSize).take (numberAt (bytes.set position value) 12 4)) ≠
          checksum hash (bytes.drop headerSize) →
        Refused hash (bytes.set position value) .checksumMismatch
  /-- The digest is another one. -/
  digest : 16 ≤ position → position < 32 → Refused hash (bytes.set position value) .checksumMismatch
  /-- The payload is another one, which has another digest. -/
  payload : 32 ≤ position →
    checksum hash ((bytes.set position value).drop headerSize) ≠ checksum hash (bytes.drop headerSize) →
      Refused hash (bytes.set position value) .checksumMismatch

section Changes

variable {hash : Hash} {bytes : List UInt8} {position : Nat} {value : UInt8}

/-- A cache in which the version of the engine or a byte without a meaning is another one has the same
payload. -/
theorem readPayload_set (after : 6 ≤ position) (before : position < 12) {header : Header}
    {payload : Payload} (read : readPayload hash bytes = .ok (header, payload)) :
    readPayload hash (bytes.set position value) =
      .ok ({ header with engine := numberAt (bytes.set position value) 6 2 }, payload) := by
  obtain ⟨found, stored, rest, verified, decoded⟩ := readPayload_eq_ok_iff.mp read
  obtain ⟨enough, begins, told⟩ := readHeader_eq_ok_iff.mp found
  obtain ⟨supported, complete, sliced, same⟩ := verifiedPayload_eq_ok_iff.mp verified
  have size : (bytes.set position value).length = bytes.length := List.length_set
  have format : numberAt (bytes.set position value) 4 2 = numberAt bytes 4 2 :=
    numberAt_set_outside (by omega)
  have length : numberAt (bytes.set position value) 12 4 = numberAt bytes 12 4 :=
    numberAt_set_outside (by omega)
  have digest : ((bytes.set position value).drop 16).take checksumSize =
      (bytes.drop 16).take checksumSize := slice_set_outside (by omega)
  have content : ((bytes.set position value).drop headerSize).take header.payloadLength =
      (bytes.drop headerSize).take header.payloadLength :=
    slice_set_outside (by rw [headerSize]; omega)
  refine readPayload_eq_ok_iff.mpr ⟨readHeader_eq_ok_iff.mpr ⟨?_, ?_, ?_⟩, stored, rest,
    verifiedPayload_eq_ok_iff.mpr ⟨supported, ?_, ?_, same⟩, decoded⟩
  · rw [size]
    exact enough
  · rw [List.take_set_of_le (by omega), begins]
  · rw [told, format, length, digest]
  · rw [size]
    exact complete
  · rw [content, sliced]

/-- The same rule set is loaded from the same payload. -/
theorem loadWith_eq_of_readPayload {other : List UInt8} {header changed : Header} {payload : Payload}
    (read : readPayload hash bytes = .ok (header, payload))
    (readOther : readPayload hash other = .ok (changed, payload)) :
    loadWith hash other = loadWith hash bytes := by
  simp only [loadWith, read, readOther, bind, Except.bind]

/-- The version of the engine is told as it stands in the header. -/
theorem engine_of_readPayload {header : Header} {payload : Payload}
    (read : readPayload hash bytes = .ok (header, payload)) : header.engine = numberAt bytes 6 2 := by
  obtain ⟨found, -⟩ := readPayload_eq_ok_iff.mp read
  obtain ⟨-, -, told⟩ := readHeader_eq_ok_iff.mp found
  rw [told]

variable (intact : Intact hash bytes)
include intact

/-- A changed cache that still begins like one has room for a header, and after the version of the
format it still has that version. -/
theorem begins_set (value : UInt8) (after : 6 ≤ position) :
    headerSize ≤ (bytes.set position value).length ∧ (bytes.set position value).take 4 = magic ∧
      numberAt (bytes.set position value) 4 2 = formatVersion := by
  have format : numberAt (bytes.set position value) 4 2 = numberAt bytes 4 2 :=
    numberAt_set_outside (by omega)
  refine ⟨?_, ?_, format.trans intact.supported⟩
  · rw [List.length_set]
    exact intact.enough
  · rw [List.take_set_of_le (by omega), intact.begins]

/-- A cache that announces no more bytes than there are, and whose header has not the front of their
digest, is refused for that. -/
theorem refused_set_of_checksum (after : 6 ≤ position)
    (long : numberAt (bytes.set position value) 12 4 ≤ (bytes.drop headerSize).length)
    (altered : checksum hash (((bytes.set position value).drop headerSize).take
        (numberAt (bytes.set position value) 12 4)) ≠
      ((bytes.set position value).drop 16).take checksumSize) :
    Refused hash (bytes.set position value) .checksumMismatch := by
  obtain ⟨enough, begins, supported⟩ := begins_set intact value after
  have present := intact.enough
  have complete : headerSize + numberAt (bytes.set position value) 12 4 ≤
      (bytes.set position value).length := by
    rw [List.length_drop] at long
    rw [List.length_set]
    omega
  exact refused_of_checksum enough begins supported complete altered

/-- A greater length than that of the payload is refused. -/
theorem refused_set_longer (after : 12 ≤ position)
    (more : (bytes.drop headerSize).length < numberAt (bytes.set position value) 12 4) :
    Refused hash (bytes.set position value)
      (.lengthMismatch (numberAt (bytes.set position value) 12 4) (bytes.drop headerSize).length) := by
  obtain ⟨enough, begins, supported⟩ := begins_set intact value (by omega : 6 ≤ position)
  have actual : (bytes.set position value).length - headerSize = (bytes.drop headerSize).length := by
    rw [List.length_set, List.length_drop]
  have truncated : (bytes.set position value).length <
      headerSize + numberAt (bytes.set position value) 12 4 := by omega
  rw [← actual]
  exact refused_of_truncated enough begins supported truncated

/-- A smaller length than that of the payload announces bytes with another digest. -/
theorem refused_set_shorter (after : 12 ≤ position) (before : position < 16)
    (fewer : numberAt (bytes.set position value) 12 4 ≤ (bytes.drop headerSize).length)
    (altered : checksum hash ((bytes.drop headerSize).take (numberAt (bytes.set position value) 12 4)) ≠
      checksum hash (bytes.drop headerSize)) :
    Refused hash (bytes.set position value) .checksumMismatch := by
  have content : (bytes.set position value).drop headerSize = bytes.drop headerSize := by
    rw [List.drop_set, if_pos (by rw [headerSize]; omega)]
  have digest : ((bytes.set position value).drop 16).take checksumSize =
      (bytes.drop 16).take checksumSize := slice_set_outside (by omega)
  refine refused_set_of_checksum intact (by omega) fewer ?_
  rw [content, digest, intact.digested]
  exact altered

/-- Another payload is refused if it has another digest. -/
theorem refused_set_payload (after : 32 ≤ position)
    (altered : checksum hash ((bytes.set position value).drop headerSize) ≠
      checksum hash (bytes.drop headerSize)) :
    Refused hash (bytes.set position value) .checksumMismatch := by
  have announced : numberAt (bytes.set position value) 12 4 = (bytes.drop headerSize).length :=
    (numberAt_set_outside (by omega)).trans intact.announced
  have digest : ((bytes.set position value).drop 16).take checksumSize =
      (bytes.drop 16).take checksumSize := slice_set_outside (by rw [checksumSize]; omega)
  have all : (bytes.drop headerSize).length = ((bytes.set position value).drop headerSize).length := by
    rw [List.length_drop, List.length_drop, List.length_set]
  refine refused_set_of_checksum intact (by omega) announced.le ?_
  rw [announced, all, List.take_length, digest, intact.digested]
  exact altered

variable (present : position < bytes.length) (changed : value ≠ bytes[position])
include present changed

/-- Another mark is refused. -/
theorem refused_set_magic (before : position < 4) :
    Refused hash (bytes.set position value) .badMagic := by
  have enough : headerSize ≤ (bytes.set position value).length := by
    rw [List.length_set]
    exact intact.enough
  have foreign := slice_set_ne (Nat.zero_le position) (by omega : position < 0 + 4) present changed
  refine refused_of_foreign enough fun same => foreign ?_
  rw [List.drop_zero, List.drop_zero, same, intact.begins]

/-- Another version of the format is refused. -/
theorem refused_set_format (after : 4 ≤ position) (before : position < 6) :
    numberAt (bytes.set position value) 4 2 ≠ formatVersion ∧
      Refused hash (bytes.set position value)
        (.incompatibleVersion (numberAt (bytes.set position value) 4 2)) := by
  have enough : headerSize ≤ (bytes.set position value).length := by
    rw [List.length_set]
    exact intact.enough
  have begins : (bytes.set position value).take 4 = magic := by
    rw [List.take_set_of_le after, intact.begins]
  have other := numberAt_set_ne after (by omega : position < 4 + 2) present changed
  rw [intact.supported] at other
  exact ⟨other, refused_of_format enough begins other⟩

/-- Another digest is refused. -/
theorem refused_set_digest (after : 16 ≤ position) (before : position < 32) :
    Refused hash (bytes.set position value) .checksumMismatch := by
  have announced : numberAt (bytes.set position value) 12 4 = (bytes.drop headerSize).length :=
    (numberAt_set_outside (by omega)).trans intact.announced
  have content : (bytes.set position value).drop headerSize = bytes.drop headerSize := by
    rw [List.drop_set, if_pos (show position < headerSize from before)]
  have digest := slice_set_ne after (by omega : position < 16 + 16) present changed
  refine refused_set_of_checksum intact (by omega) announced.le ?_
  rw [announced, content, List.take_length, ← intact.digested]
  exact digest.symm

end Changes

/-- Fewer bytes than were saved are refused for their number. -/
theorem refused_of_take {hash : Hash} {bytes : List UInt8} (intact : Intact hash bytes) {length : Nat}
    (fewer : length < bytes.length) :
    Refused hash (bytes.take length)
      (if length < headerSize then .lengthMismatch headerSize length
        else .lengthMismatch (bytes.length - headerSize) (length - headerSize)) := by
  have size : (bytes.take length).length = length := by
    rw [List.length_take]
    omega
  split
  · rename_i short
    have refused : Refused hash (bytes.take length) _ := refused_of_short (size.trans_lt short)
    rwa [size] at refused
  · rename_i long
    have enough : headerSize ≤ length := Nat.not_lt.mp long
    have header : 32 ≤ length := enough
    have begins : (bytes.take length).take 4 = magic := by
      rw [List.take_take, Nat.min_eq_left (by omega), intact.begins]
    have supported : numberAt (bytes.take length) 4 2 = formatVersion := by
      rw [numberAt_take (by omega), intact.supported]
    have announced : numberAt (bytes.take length) 12 4 = bytes.length - headerSize := by
      rw [numberAt_take (by omega), intact.announced, List.length_drop]
    have truncated : (bytes.take length).length < headerSize + numberAt (bytes.take length) 12 4 := by
      omega
    have refused : Refused hash (bytes.take length) _ :=
      refused_of_truncated (enough.trans_eq size.symm) begins supported truncated
    rwa [announced, size] at refused

/-- Of a cache that was saved, one other byte is noticed or not as its place says, and fewer bytes are
refused for their number. -/
theorem classified_of_saveWith (hash : Hash) (set : RuleSet) (source : Option String)
    (bytes : List UInt8) (saved : saveWith hash set source = .ok bytes) :
    (∀ position value, ∀ present : position < bytes.length, value ≠ bytes[position] →
      Classified hash bytes position value) ∧
      ∀ length < bytes.length, Refused hash (bytes.take length)
        (if length < headerSize then .lengthMismatch headerSize length
          else .lengthMismatch (bytes.length - headerSize) (length - headerSize)) := by
  have intact := intact_of_saveWith saved
  obtain ⟨header, read, -⟩ := readPayload_of_saveWith saved
  refine ⟨fun position value present changed => ?_, fun length fewer => refused_of_take intact fewer⟩
  refine
    { magic := refused_set_magic intact present changed
      format := refused_set_format intact present changed
      engine := fun after before => ?engine
      flags := fun after before => ?flags
      longer := fun after _ => refused_set_longer intact after
      shorter := refused_set_shorter intact
      digest := refused_set_digest intact present changed
      payload := refused_set_payload intact }
  case engine =>
    have other := numberAt_set_ne after (by omega : position < 6 + 2) present changed
    have readAgain : readPayload hash (bytes.set position value) = _ :=
      readPayload_set after (by omega) read
    rw [← engine_of_readPayload read] at other
    exact ⟨loadWith_eq_of_readPayload read readAgain, _, inspectWith_of_readPayload read, other,
      inspectWith_of_readPayload readAgain⟩
  case flags =>
    have readAgain : readPayload hash (bytes.set position value) = _ :=
      readPayload_set (by omega) before read
    have same : numberAt (bytes.set position value) 6 2 = numberAt bytes 6 2 :=
      numberAt_set_outside (by omega)
    refine ⟨loadWith_eq_of_readPayload read readAgain, ?_⟩
    rw [inspectWith_of_readPayload read, inspectWith_of_readPayload readAgain,
      engine_of_readPayload read, same]

/-- A rule set without rules. -/
def blank : RuleSet := ⟨none, none, [], [], []⟩

/-- The payload of the rule set without rules: its counts, and the text of its document. -/
def blankPayload : List UInt8 := payloadFormat.encode (payloadOf Blake3.hash blank none)

/-- The cache of the rule set without rules. -/
def blankCache : List UInt8 := encodeHeader Blake3.hash blankPayload ++ blankPayload

/-- The changes of the cache of the rule set without rules are told apart. -/
theorem classified_blank :
    save blank none = .ok blankCache ∧
      Refused Blake3.hash (blankCache.set 0 0) .badMagic ∧
        Refused Blake3.hash (blankCache.set 4 2) (.incompatibleVersion 2) ∧
          load (blankCache.set 6 2) = load blankCache ∧
            inspect (blankCache.set 8 1) = inspect blankCache ∧
              Refused Blake3.hash (blankCache.set 12 18) (.lengthMismatch 18 17) ∧
                Refused Blake3.hash (blankCache.set 12 16) .checksumMismatch ∧
                  Refused Blake3.hash (blankCache.set 40 0) .checksumMismatch ∧
                    Refused Blake3.hash (blankCache.take 48) (.lengthMismatch 17 16) := by
  have saved : saveWith Blake3.hash blank none = .ok blankCache :=
    saveWith_eq_ok_iff.mpr ⟨by decide +kernel, rfl⟩
  obtain ⟨changed, truncated⟩ := classified_of_saveWith Blake3.hash blank none blankCache saved
  have magic := changed 0 0 (by decide +kernel) (by decide +kernel)
  have format := changed 4 2 (by decide +kernel) (by decide +kernel)
  have engine := changed 6 2 (by decide +kernel) (by decide +kernel)
  have flags := changed 8 1 (by decide +kernel) (by decide +kernel)
  have longer := changed 12 18 (by decide +kernel) (by decide +kernel)
  have shorter := changed 12 16 (by decide +kernel) (by decide +kernel)
  have payload := changed 40 0 (by decide +kernel) (by decide +kernel)
  have found : numberAt (blankCache.set 4 2) 4 2 = 2 := by decide +kernel
  have announced : numberAt (blankCache.set 12 18) 12 4 = 18 := by decide +kernel
  have actual : (blankCache.drop headerSize).length = 17 := by decide +kernel
  have length : blankCache.length = 49 := by decide +kernel
  have format := (format.format (by omega) (by omega)).2
  have longer := longer.longer (by omega) (by omega) (by omega)
  have truncated := truncated 48 (by omega)
  rw [found] at format
  rw [announced, actual] at longer
  rw [length] at truncated
  exact ⟨saved, magic.magic (by omega), format, (engine.engine (by omega) (by omega)).1,
    (flags.flags (by omega) (by omega)).2, longer,
    shorter.shorter (by omega) (by omega) (by decide +kernel) (by decide +kernel),
    payload.payload (by omega) (by decide +kernel), truncated⟩

end Cache

end GameRules
