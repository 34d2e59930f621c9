import Pythos.Tig.FormatFacts

/-!
# The boot bundle

The loader hands over one byte string, `INIT.PAK`: a 64-byte header, then a bundle. The bundle has a 32-byte
header, a table of at most sixteen entries, and the records the entries point at. A record of the type
`PYTH_GRAPH_PACKAGE` is a manifest, which gives a name and a principal to the graph package behind it.

Each layer has its own parser, and each parser is safe: no slice leaves the bytes and no sum overflows
(`InitPak.safe_validate`, `InitBundle.safe_validate`, `safe_validateNamedPythGraph`). The specifications of
the bundle and of the manifest also say where the records and the fields of what was accepted lie.

The arrays of sixteen records and ranges, with their count, are lists of at most sixteen.
-/

namespace Pythos.Shared

open Foundation Tig

/-! ### Words and sums of bytes -/

/-- The little-endian word of `width` bytes at an offset. -/
def wordAt (bytes : Bytes) (width offset : ℕ) : Option ℕ :=
  (slice? bytes offset (offset + width)).map leNat

/-- `bytes.iter().fold(0u32, |sum, &byte| sum.wrapping_add(u32::from(byte)))`. -/
def wrappingByteSum (bytes : Bytes) : ℕ :=
  bytes.foldl (fun sum byte ↦ (sum + byte.toNat) % 2 ^ 32) 0

/-- `bytes.iter().any(|&byte| byte != 0)`. -/
def anyNonZero (bytes : Bytes) : Bool :=
  bytes.any fun byte ↦ byte ≠ 0

theorem wordAt_eq_some {bytes : Bytes} {width offset : ℕ} (hbound : offset + width ≤ bytes.length) :
    wordAt bytes width offset = some (leNat ((bytes.drop offset).take width)) := by
  rw [wordAt, slice?_eq_some (Nat.le_add_right offset width) hbound, Nat.add_sub_cancel_left, Option.map_some]

/-! ### The outer package -/

namespace InitPak

/-- `b"PYTHOS_INIT_PAK_V0"`. -/
def magic : Bytes :=
  [0x50, 0x59, 0x54, 0x48, 0x4F, 0x53, 0x5F, 0x49, 0x4E, 0x49, 0x54, 0x5F, 0x50, 0x41, 0x4B, 0x5F, 0x56,
    0x30]

def initPakMajor : ℕ := 0
def initPakHeaderLen : ℕ := 64
def reservedOffset : ℕ := 46
def reservedLen : ℕ := 18

inductive InitPakError
  | tooShort
  | badMagic
  | unsupportedMajor
  | badHeaderLength
  | lengthOverflow
  | badTotalLength
  | nonZeroReserved
  | badChecksum
  deriving DecidableEq, Repr

structure InitPakHeader where
  major : ℕ
  minor : ℕ
  headerLen : ℕ
  totalLen : ℕ
  payloadLen : ℕ
  payloadChecksum : ℕ
  deriving DecidableEq, Repr

def checksum (bytes : Bytes) : ℕ :=
  wrappingByteSum bytes

def readU16 (bytes : Bytes) (offset : ℕ) : Checked InitPakError ℕ :=
  okOr .tooShort (wordAt bytes 2 offset)

def readU32 (bytes : Bytes) (offset : ℕ) : Checked InitPakError ℕ :=
  okOr .tooShort (wordAt bytes 4 offset)

def readU64 (bytes : Bytes) (offset : ℕ) : Checked InitPakError ℕ :=
  okOr .tooShort (wordAt bytes 8 offset)

def validate (bytes : Bytes) : Checked InitPakError InitPakHeader := do
  reject (bytes.length < initPakHeaderLen) .tooShort
  let found ← expect (slice? bytes 0 magic.length)
  reject (found ≠ magic) .badMagic
  let major ← readU16 bytes 18
  let minor ← readU16 bytes 20
  let headerLen ← readU32 bytes 22
  let totalLen ← readU64 bytes 26
  let payloadLen ← readU64 bytes 34
  let payloadChecksum ← readU32 bytes 42
  reject (major ≠ initPakMajor) .unsupportedMajor
  reject (headerLen ≠ initPakHeaderLen ∨ headerLen > bytes.length) .badHeaderLength
  let expectedTotal ← checkedAdd .lengthOverflow headerLen payloadLen
  reject (totalLen ≠ expectedTotal ∨ totalLen ≠ bytes.length) .badTotalLength
  let reserved ← expect (slice? bytes reservedOffset (reservedOffset + reservedLen))
  reject (anyNonZero reserved) .nonZeroReserved
  let payloadEnd ← checkedAdd .lengthOverflow headerLen payloadLen
  let payload ← okOr .badTotalLength (slice? bytes headerLen payloadEnd)
  reject (checksum payload ≠ payloadChecksum) .badChecksum
  pure { major, minor, headerLen, totalLen, payloadLen, payloadChecksum }

/-- An accepted package is its header and its payload, and no slice or sum of the parser fails. -/
theorem safe_validate (bytes : Bytes) : Safe (validate bytes) fun header ↦
    header.headerLen = initPakHeaderLen ∧ header.headerLen + header.payloadLen = bytes.length := by
  simp only [validate, readU16, readU32, readU64, safe_bind_iff, safe_reject, safe_expect, safe_okOr,
    safe_checkedAdd, safe_pure]
  intro hshort
  have hlong : 64 ≤ bytes.length := Nat.le_of_not_lt hshort
  refine ⟨_, slice?_eq_some (Nat.zero_le _) (Nat.le_trans (by decide) hlong), ?_⟩
  intro _ _ _ _ _ headerLen _ totalLen _ payloadLen _ _ _ _ hheader _ htotal
  refine ⟨_, slice?_eq_some (Nat.le_add_right _ _) hlong, ?_⟩
  intro _ _ _ _ _
  exact ⟨by tauto, by omega⟩

end InitPak

/-! ### The bundle -/

namespace InitBundle

/-- `b"PYTHOS_BUNDLE_V0"`. -/
def magic : Bytes :=
  [0x50, 0x59, 0x54, 0x48, 0x4F, 0x53, 0x5F, 0x42, 0x55, 0x4E, 0x44, 0x4C, 0x45, 0x5F, 0x56, 0x30]

def initBundleMajor : ℕ := 0
def initBundleHeaderLen : ℕ := 32
def recordEntryLen : ℕ := 32
def headerReservedOffset : ℕ := 26
def headerReservedLen : ℕ := 6
def recordFlagsOffset : ℕ := 4
def recordReservedOffset : ℕ := 28
def recordReservedLen : ℕ := 4
def maxRecords : ℕ := 16

inductive RecordType
  | runtimePayload
  | userElf
  | namedUserElf
  | pythGraphPackage
  | pythNativeBinding
  | packageSource
  deriving DecidableEq, Repr

def RecordType.fromRaw : ℕ → Option RecordType
  | 1 => some .runtimePayload
  | 2 => some .userElf
  | 3 => some .namedUserElf
  | 4 => some .pythGraphPackage
  | 5 => some .pythNativeBinding
  | 6 => some .packageSource
  | _ => none

inductive InitBundleError
  | tooShort
  | badMagic
  | unsupportedMajor
  | badHeaderLength
  | emptyRecordTable
  | nonZeroReserved
  | lengthOverflow
  | badRecordTable
  | unsupportedRecordType
  | badRecordRange
  | overlappingRecords
  | badChecksum
  deriving DecidableEq, Repr

structure Record where
  recordType : RecordType
  bytes : Bytes
  deriving DecidableEq, Repr

def checksum (bytes : Bytes) : ℕ :=
  wrappingByteSum bytes

def readWord (bytes : Bytes) (width offset : ℕ) : Checked InitBundleError ℕ := do
  let stop ← checkedAdd .lengthOverflow offset width
  let raw ← okOr .tooShort (slice? bytes offset stop)
  pure (leNat raw)

def readU16 (bytes : Bytes) (offset : ℕ) : Checked InitBundleError ℕ :=
  readWord bytes 2 offset

def readU32 (bytes : Bytes) (offset : ℕ) : Checked InitBundleError ℕ :=
  readWord bytes 4 offset

def readU64 (bytes : Bytes) (offset : ℕ) : Checked InitBundleError ℕ :=
  readWord bytes 8 offset

/-- The records read so far, with the byte range of each. -/
structure RecordTable where
  ranges : List SectionRange
  records : List Record

/-- The body of the loop over the entries of the table. -/
def readEntry (bytes : Bytes) (tableEnd : ℕ) (table : RecordTable) (index : ℕ) :
    Checked InitBundleError RecordTable := do
  let delta ← checkedMul .lengthOverflow index recordEntryLen
  let entry ← checkedAdd .lengthOverflow initBundleHeaderLen delta
  let raw ← readU32 bytes entry
  let recordType ← okOr .unsupportedRecordType (RecordType.fromRaw raw)
  let flags ← expect (slice? bytes (entry + recordFlagsOffset) (entry + recordFlagsOffset + 4))
  reject (anyNonZero flags) .nonZeroReserved
  let reserved ← expect (slice? bytes (entry + recordReservedOffset)
    (entry + recordReservedOffset + recordReservedLen))
  reject (anyNonZero reserved) .nonZeroReserved
  let start ← readU64 bytes (entry + 8)
  let len ← readU64 bytes (entry + 16)
  let stop ← checkedAdd .lengthOverflow start len
  reject (stop > bytes.length) .badRecordRange
  reject (start < tableEnd ∨ start > stop) .badRecordRange
  forEach table.ranges () fun _ _ previous ↦
    reject (start < previous.stop ∧ previous.start < stop) .overlappingRecords
  let payload ← okOr .badRecordRange (slice? bytes start stop)
  let expected ← readU32 bytes (entry + 24)
  reject (checksum payload ≠ expected) .badChecksum
  pure
    { ranges := table.ranges ++ [{ start, stop }]
      records := table.records ++ [{ recordType, bytes := payload }] }

end InitBundle

/-- The records of a bundle in the order of its table. -/
structure InitBundle where
  records : List InitBundle.Record
  deriving DecidableEq, Repr

namespace InitBundle

/-- The scan of `record_at`: `seen` records of the type have gone by. -/
def recordAtFrom (recordType : RecordType) (ordinal : ℕ) : ℕ → List Record → Option Record
  | _, [] => none
  | seen, record :: rest =>
    if record.recordType = recordType then
      if seen = ordinal then some record else recordAtFrom recordType ordinal (seen + 1) rest
    else recordAtFrom recordType ordinal seen rest

def recordAt (bundle : InitBundle) (recordType : RecordType) (ordinal : ℕ) : Option Record :=
  recordAtFrom recordType ordinal 0 bundle.records

def validate (bytes : Bytes) : Checked InitBundleError InitBundle := do
  reject (bytes.length < initBundleHeaderLen) .tooShort
  let found ← expect (slice? bytes 0 magic.length)
  reject (found ≠ magic) .badMagic
  let major ← readU16 bytes 16
  let headerLen ← readU32 bytes 20
  let recordCount ← readU16 bytes 24
  reject (major ≠ initBundleMajor) .unsupportedMajor
  reject (headerLen ≠ initBundleHeaderLen ∨ headerLen > bytes.length) .badHeaderLength
  reject (recordCount = 0) .emptyRecordTable
  reject (recordCount > maxRecords) .badRecordTable
  let reserved ← expect (slice? bytes headerReservedOffset (headerReservedOffset + headerReservedLen))
  reject (anyNonZero reserved) .nonZeroReserved
  let tableLen ← checkedMul .lengthOverflow recordCount recordEntryLen
  let tableEnd ← checkedAdd .lengthOverflow headerLen tableLen
  reject (tableEnd > bytes.length) .badRecordTable
  let table ← forRange 0 recordCount { ranges := [], records := [] } (readEntry bytes tableEnd)
  pure { records := table.records }

/-- The records of a type, in order. -/
def recordsOf (bundle : InitBundle) (recordType : RecordType) : List Record :=
  bundle.records.filter (·.recordType = recordType)

theorem recordAtFrom_eq (recordType : RecordType) (ordinal : ℕ) (records : List Record) :
    ∀ seen ≤ ordinal, recordAtFrom recordType ordinal seen records =
      (records.filter (·.recordType = recordType))[ordinal - seen]? := by
  induction records with
  | nil => simp [recordAtFrom]
  | cons record rest ih =>
    intro seen hseen
    by_cases htype : record.recordType = recordType
    · by_cases hordinal : seen = ordinal
      · simp [recordAtFrom, htype, hordinal]
      · have hsucc : ordinal - seen = ordinal - (seen + 1) + 1 := by omega
        simp [recordAtFrom, htype, hordinal, ih (seen + 1) (by omega), hsucc]
    · simp [recordAtFrom, htype, ih seen hseen]

/-- The lookup by ordinal reads the list of the records of the type. -/
theorem recordAt_eq (bundle : InitBundle) (recordType : RecordType) (ordinal : ℕ) :
    bundle.recordAt recordType ordinal = (bundle.recordsOf recordType)[ordinal]? :=
  recordAtFrom_eq recordType ordinal bundle.records 0 (Nat.zero_le _)

/-- A record lies in its range, behind the table and inside the bundle. -/
structure Located (bytes : Bytes) (tableEnd : ℕ) (range : SectionRange) (record : Record) : Prop where
  behind : tableEnd ≤ range.start
  ordered : range.start ≤ range.stop
  inside : range.stop ≤ bytes.length
  payload : slice? bytes range.start range.stop = some record.bytes

/-- No byte lies in both ranges. -/
def Apart (earlier later : SectionRange) : Prop :=
  ¬ (later.start < earlier.stop ∧ earlier.start < later.stop)

/-- What the loop over the entries keeps of the records read so far. -/
structure RecordTable.Disjoint (bytes : Bytes) (tableEnd count : ℕ) (table : RecordTable) : Prop where
  length : table.records.length = count
  located : List.Forall₂ (Located bytes tableEnd) table.ranges table.records
  apart : table.ranges.Pairwise Apart

theorem safe_readEntry {bytes : Bytes} {tableEnd count index : ℕ} {table : RecordTable}
    (htable : table.Disjoint bytes tableEnd index) (hindex : index < count)
    (hend : tableEnd = initBundleHeaderLen + count * recordEntryLen) (hbound : tableEnd ≤ bytes.length) :
    Safe (readEntry bytes tableEnd table index) (RecordTable.Disjoint bytes tableEnd (index + 1)) := by
  simp only [readEntry, readU32, readU64, readWord, safe_bind_iff, safe_reject, safe_expect, safe_okOr,
    safe_checkedAdd, safe_checkedMul, safe_pure]
  intro _ _
  -- The entry of the table lies inside the table, and so inside the bundle.
  have hinside : initBundleHeaderLen + index * recordEntryLen + 32 ≤ bytes.length := by
    simp only [initBundleHeaderLen, recordEntryLen] at *
    omega
  intro _ _ _ _ _
  refine ⟨_, slice?_eq_some (Nat.le_add_right _ _) (by simp only [recordFlagsOffset]; omega), fun _ ↦ ?_⟩
  refine ⟨_, slice?_eq_some (Nat.le_add_right _ _)
    (by simp only [recordReservedOffset, recordReservedLen]; omega), fun _ ↦ ?_⟩
  intro _ _ _ _ _ _ _ hstop hstart
  refine (safe_forEach_check fun _ _ _ ↦ safe_reject_not).mono fun _ hapart ↦ ?_
  intro _ hpayload _ _ _ _
  rw [not_or, Nat.not_lt, Nat.not_lt] at hstart
  refine ⟨by rw [List.length_append, htable.length, List.length_singleton], List.rel_append htable.located
    (.cons ⟨hstart.1, hstart.2, Nat.le_of_not_lt hstop, hpayload⟩ .nil), ?_⟩
  refine List.pairwise_append.mpr ⟨htable.apart, List.pairwise_singleton _ _, fun earlier hearlier
    later hlater ↦ ?_⟩
  obtain rfl := List.mem_singleton.mp hlater
  obtain ⟨position, hposition⟩ := List.mem_iff_getElem?.mp hearlier
  exact hapart position earlier hposition

/-- The parser of bundles is safe. The records of a bundle it accepts lie behind the record table, inside
the bundle and apart from each other. -/
theorem safe_validate (bytes : Bytes) : Safe (validate bytes) fun bundle ↦
    bundle.records.length ≤ maxRecords ∧ ∃ ranges,
      List.Forall₂ (Located bytes (initBundleHeaderLen + bundle.records.length * recordEntryLen)) ranges
        bundle.records ∧ ranges.Pairwise Apart := by
  simp only [validate, readU16, readU32, readWord, safe_bind_iff, safe_reject, safe_expect, safe_okOr,
    safe_checkedAdd, safe_checkedMul, safe_pure]
  intro hshort
  have hlong : 32 ≤ bytes.length := Nat.le_of_not_lt hshort
  refine ⟨_, slice?_eq_some (Nat.zero_le _) (Nat.le_trans (by decide) hlong), ?_⟩
  intro _ _ _ _ _ headerLen _ _ recordCount _ _ hheader _ hcount
  refine ⟨_, slice?_eq_some (Nat.le_add_right _ _) hlong, ?_⟩
  intro _ _ _ hinside
  have hend : leNat headerLen + leNat recordCount * recordEntryLen =
      initBundleHeaderLen + leNat recordCount * recordEntryLen := by
    rw [not_or, not_not] at hheader
    rw [hheader.1]
  rw [hend] at hinside ⊢
  refine (safe_forRange (RecordTable.Disjoint bytes _) (Nat.zero_le _)
    ⟨rfl, List.Forall₂.nil, List.Pairwise.nil⟩ fun _ _ _ hlt hdisjoint ↦
      safe_readEntry hdisjoint hlt rfl (Nat.le_of_not_lt hinside)).mono fun table htable ↦ ?_
  refine ⟨by rw [htable.length]; exact Nat.le_of_not_lt hcount, table.ranges, ?_, htable.apart⟩
  rw [htable.length]
  exact htable.located

end InitBundle

/-! ### The manifest of a graph -/

/-- `b"PYTIGM01"`. -/
def namedPythGraphMagic : Bytes := [0x50, 0x59, 0x54, 0x49, 0x47, 0x4D, 0x30, 0x31]
def namedPythGraphMajor : ℕ := 1
def namedPythGraphMinor : ℕ := 0
def namedPythGraphHeaderLen : ℕ := 40
def maxNamedPythGraphNameLen : ℕ := 32

inductive PythGraphManifestError
  | tooShort
  | badMagic
  | unsupportedVersion
  | nameTooLong
  | lengthOverflow
  | badDigest
  | outputTooSmall
  deriving DecidableEq, Repr

structure NamedPythGraphManifest where
  name : Bytes
  principalId : ℕ
  packageDigest : ℕ
  package : Bytes
  deriving DecidableEq, Repr

/-- The 64-bit FNV-1a hash of the bytes. -/
def digest64 (bytes : Bytes) : ℕ :=
  bytes.foldl (fun hash byte ↦ fnvStep hash byte.toNat) 0xcbf29ce484222325

/-- `encode_named_pyth_graph`, with the length of the output buffer and the bytes it fills. -/
def encodeNamedPythGraph (capacity : ℕ) (name : Bytes) (principalId : ℕ) (package : Bytes) :
    Checked PythGraphManifestError Bytes := do
  reject (name.length > maxNamedPythGraphNameLen) .nameTooLong
  reject (¬ package.length < 2 ^ 32) .lengthOverflow
  let nameEnd ← checkedAdd .lengthOverflow namedPythGraphHeaderLen name.length
  let total ← checkedAdd .lengthOverflow nameEnd package.length
  reject (capacity < total) .outputTooSmall
  pure
    (namedPythGraphMagic ++ leBytes 2 namedPythGraphMajor ++ leBytes 2 namedPythGraphMinor ++
      leBytes 2 name.length ++ leBytes 2 0 ++ leBytes 8 principalId ++ leBytes 8 (digest64 package) ++
      leBytes 4 package.length ++ leBytes 4 0 ++ name ++ package)

def validateNamedPythGraph (bytes : Bytes) :
    Checked PythGraphManifestError NamedPythGraphManifest := do
  reject (bytes.length < namedPythGraphHeaderLen) .tooShort
  let found ← expect (slice? bytes 0 8)
  reject (found ≠ namedPythGraphMagic) .badMagic
  let major ← expect (wordAt bytes 2 8)
  let minor ← expect (wordAt bytes 2 10)
  reject (major ≠ namedPythGraphMajor ∨ minor ≠ namedPythGraphMinor) .unsupportedVersion
  let nameLen ← expect (wordAt bytes 2 12)
  let reserved0 ← expect (wordAt bytes 2 14)
  let principalId ← expect (wordAt bytes 8 16)
  let packageDigest ← expect (wordAt bytes 8 24)
  let packageLen ← expect (wordAt bytes 4 32)
  let reserved1 ← expect (wordAt bytes 4 36)
  reject (reserved0 ≠ 0 ∨ reserved1 ≠ 0) .unsupportedVersion
  reject (nameLen > maxNamedPythGraphNameLen) .nameTooLong
  let nameEnd ← checkedAdd .lengthOverflow namedPythGraphHeaderLen nameLen
  let packageEnd ← checkedAdd .lengthOverflow nameEnd packageLen
  reject (bytes.length ≠ packageEnd) .tooShort
  let name ← expect (slice? bytes namedPythGraphHeaderLen nameEnd)
  let package ← expect (slice? bytes nameEnd packageEnd)
  reject (digest64 package ≠ packageDigest) .badDigest
  pure { name, principalId, packageDigest, package }

/-- Where the fields of an accepted manifest lie in its record. -/
structure NamedPythGraphManifest.ReadFrom (manifest : NamedPythGraphManifest) (bytes : Bytes) : Prop where
  nameLen : wordAt bytes 2 12 = some manifest.name.length
  name : slice? bytes namedPythGraphHeaderLen (namedPythGraphHeaderLen + manifest.name.length) =
    some manifest.name
  principal : wordAt bytes 8 16 = some manifest.principalId
  package : slice? bytes (namedPythGraphHeaderLen + manifest.name.length) bytes.length =
    some manifest.package
  digest : digest64 manifest.package = manifest.packageDigest

/-- The parser of manifests is safe, and what it accepts was read from the record. -/
theorem safe_validateNamedPythGraph (bytes : Bytes) :
    Safe (validateNamedPythGraph bytes) fun manifest ↦ manifest.ReadFrom bytes := by
  simp only [validateNamedPythGraph, safe_bind_iff, safe_reject, safe_expect, safe_checkedAdd, safe_pure,
    not_not]
  intro hshort
  have hlong : 40 ≤ bytes.length := Nat.le_of_not_lt hshort
  refine ⟨_, slice?_eq_some (Nat.zero_le _) (by omega), fun _ ↦ ?_⟩
  refine ⟨_, wordAt_eq_some (by omega), _, wordAt_eq_some (by omega), fun _ ↦ ?_⟩
  obtain ⟨nameLen, hnameLen⟩ : ∃ word, wordAt bytes 2 12 = some word := ⟨_, wordAt_eq_some (by omega)⟩
  obtain ⟨packageLen, hpackageLen⟩ : ∃ word, wordAt bytes 4 32 = some word := ⟨_, wordAt_eq_some (by omega)⟩
  refine ⟨nameLen, hnameLen, _, wordAt_eq_some (by omega), _, wordAt_eq_some (by omega), _,
    wordAt_eq_some (by omega), packageLen, hpackageLen, _, wordAt_eq_some (by omega), ?_⟩
  intro _ _ _ _ hfull
  obtain ⟨name, hname⟩ : ∃ name, slice? bytes namedPythGraphHeaderLen (namedPythGraphHeaderLen + nameLen) =
      some name := ⟨_, slice?_eq_some (by omega) (by omega)⟩
  refine ⟨name, hname, _, slice?_eq_some (by omega) hfull.ge, fun hdigest ↦ ?_⟩
  have hlen : name.length = nameLen := by rw [length_of_slice? hname]; omega
  subst hlen
  rw [← hfull]
  exact ⟨hnameLen, hname, wordAt_eq_some (by omega), slice?_eq_some (by dsimp only; omega) le_rfl,
    hfull ▸ hdigest⟩

end Pythos.Shared
