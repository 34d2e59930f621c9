import Pythos.Foundation.Bytes
import Pythos.Foundation.Checked

/-!
# The evidence log

The evidence log is a buffer of 64 KiB: a header of 32 bytes, and a payload to which lines are appended. The
header counts the used bytes, the lines and the lines that no longer fitted, and holds a CRC-32 of the used
bytes. A reader takes a snapshot, which checks the header and the CRC.

A line is appended behind the used bytes, and the CRC is computed again over all of them. The old CRC is not
compared first. A buffer whose payload or CRC was damaged is therefore rejected only up to the next line that
the damaged header has room for (`rejected_iff_and_exact`).

The slices of the payload that `appendLine` writes lie inside it, since a valid header has the length of the
payload as its capacity.
-/

namespace Pythos.Shared.EvidenceLog

open Foundation

def evidenceLogTotalBytes : ℕ := 64 * 1024

/-- `b"PYLOG001"`. -/
def evidenceLogMagic : Bytes := [0x50, 0x59, 0x4C, 0x4F, 0x47, 0x30, 0x30, 0x31]

def evidenceLogVersion : UInt32 := 1
def maxEvidenceLineBytes : ℕ := 128

structure EvidenceLogHeader where
  magic : Bytes
  version : UInt32
  capacity : UInt32
  used : UInt32
  lines : UInt32
  dropped : UInt32
  crc32 : UInt32
  deriving DecidableEq, Repr

/-- `core::mem::size_of::<EvidenceLogHeader>()`. -/
def headerSize : ℕ := 32

inductive EvidenceLogError
  | invalidBufferLength
  | invalidHeader
  | lengthOverflow
  | lineTooLong
  | embeddedLineBreak
  | nonAscii
  | full
  deriving DecidableEq, Repr

structure EvidenceLogSnapshot where
  header : EvidenceLogHeader
  payload : Bytes
  deriving DecidableEq, Repr

def crc32Bit (crc : UInt32) : UInt32 := (crc >>> 1) ^^^ (0xEDB88320 &&& (0 - (crc &&& 1)))

def crc32IsoHdlc (bytes : Bytes) : UInt32 :=
  ~~~ bytes.foldl (fun crc byte ↦ crc32Bit^[8] (crc ^^^ byte.toUInt32)) 0xFFFFFFFF

def ensureExactBufferLength (length : ℕ) : Except EvidenceLogError Unit :=
  if length = evidenceLogTotalBytes then .ok () else .error .invalidBufferLength

def payloadCapacity : ℕ := evidenceLogTotalBytes - headerSize

def validateHeader (header : EvidenceLogHeader) : Except EvidenceLogError Unit :=
  if header.magic ≠ evidenceLogMagic ∨ header.version ≠ evidenceLogVersion ∨
      header.capacity.toNat ≠ payloadCapacity then .error .invalidHeader
  else if header.used > header.capacity then .error .invalidHeader
  else .ok ()

def readHeader (buffer : Bytes) : Except EvidenceLogError EvidenceLogHeader :=
  match slice? buffer 0 headerSize with
  | none => .error .invalidHeader
  | some bytes => .ok
    { magic := field bytes 0 8, version := u32At bytes 8, capacity := u32At bytes 12, used := u32At bytes 16
      lines := u32At bytes 20, dropped := u32At bytes 24, crc32 := u32At bytes 28 }

def EvidenceLogHeader.bytes (header : EvidenceLogHeader) : Bytes :=
  header.magic ++ u32Bytes header.version ++ u32Bytes header.capacity ++ u32Bytes header.used ++
    u32Bytes header.lines ++ u32Bytes header.dropped ++ u32Bytes header.crc32

def payload (buffer : Bytes) : Bytes := buffer.drop headerSize

def writeHeader (buffer : Bytes) (header : EvidenceLogHeader) : Bytes := header.bytes ++ payload buffer

def initialHeader : EvidenceLogHeader where
  magic := evidenceLogMagic
  version := evidenceLogVersion
  capacity := .ofNat payloadCapacity
  used := 0
  lines := 0
  dropped := 0
  crc32 := 0

/-- `initialize`. -/
def initializeLog (buffer : Bytes) : Except EvidenceLogError Unit × Bytes :=
  match ensureExactBufferLength buffer.length with
  | .error error => (.error error, buffer)
  | .ok () => (.ok (), writeHeader (zeros buffer.length) initialHeader)

/-- `count.saturating_add(1)`. -/
def saturatingSucc (count : UInt32) : UInt32 := .ofNat (min (count.toNat + 1) (2 ^ 32 - 1))

/-- The checks of `append_line` up to the header. -/
def headerForLine (buffer line : Bytes) : Except EvidenceLogError EvidenceLogHeader := do
  ensureExactBufferLength buffer.length
  if line.any (· ≥ 128) then .error .nonAscii
  else if line.any fun byte ↦ byte = 0x0A ∨ byte = 0x0D then .error .embeddedLineBreak
  else if line.length > maxEvidenceLineBytes then .error .lineTooLong
  else
    let header ← readHeader buffer
    validateHeader header
    .ok header

def appendLine (buffer line : Bytes) : Except EvidenceLogError Unit × Bytes :=
  match headerForLine buffer line with
  | .error error => (.error error, buffer)
  | .ok header =>
    let start := header.used.toNat
    let stop := start + (line.length + 1)
    if stop ≥ 2 ^ 32 then (.error .lengthOverflow, buffer)
    else if stop > header.capacity.toNat then
      (.error .full, writeHeader buffer { header with dropped := saturatingSucc header.dropped })
    else
      let payload := (payload buffer).take start ++ (line ++ [0x0A]) ++ (payload buffer).drop stop
      (.ok (), writeHeader (buffer.take headerSize ++ payload)
        { header with used := .ofNat stop, lines := saturatingSucc header.lines
                      crc32 := crc32IsoHdlc (payload.take stop) })

def snapshot (buffer : Bytes) : Except EvidenceLogError EvidenceLogSnapshot := do
  ensureExactBufferLength buffer.length
  let header ← readHeader buffer
  validateHeader header
  let payload := payload buffer
  let used := header.used.toNat
  if used > payload.length then .error .invalidHeader
  else if crc32IsoHdlc (payload.take used) ≠ header.crc32 then .error .invalidHeader
  else .ok { header, payload := payload.take used }

/-! ### Runs of calls -/

/-- A buffer with the lines that the calls on it accepted and the number that did not fit. -/
structure Appended where
  buffer : Bytes
  accepted : List Bytes
  full : ℕ

def Appended.next (log : Appended) (line : Bytes) : Appended :=
  let (result, buffer) := appendLine log.buffer line
  match result with
  | .ok () => { log with buffer, accepted := log.accepted ++ [line] }
  | .error .full => { log with buffer, full := log.full + 1 }
  | .error _ => { log with buffer }

/-- The calls of `append_line` on a buffer, in order. -/
def appended (buffer : Bytes) (lines : List Bytes) : Appended :=
  lines.foldl Appended.next { buffer, accepted := [], full := 0 }

/-- The checks of `append_line` on a line. -/
def IsLine (line : Bytes) : Prop :=
  (∀ byte ∈ line, byte < 128) ∧ (∀ byte ∈ line, byte ≠ 0x0A ∧ byte ≠ 0x0D) ∧
    line.length ≤ maxEvidenceLineBytes

instance (line : Bytes) : Decidable (IsLine line) := inferInstanceAs (Decidable (_ ∧ _ ∧ _))

/-- A line behind those that fit, beside the number of those that do not. -/
def tallyLine (tally : List Bytes × ℕ) (line : Bytes) : List Bytes × ℕ :=
  if ¬ IsLine line then tally
  else if (tally.1.flatMap (· ++ [0x0A])).length + (line.length + 1) ≤ payloadCapacity then
    (tally.1 ++ [line], tally.2)
  else (tally.1, tally.2 + 1)

/-- The lines that fit behind each other in an empty payload, and the number of those that do not. -/
def tally (lines : List Bytes) : List Bytes × ℕ := lines.foldl tallyLine ([], 0)

/-- A valid header has room for a line. -/
def EvidenceLogHeader.HasRoom (header : EvidenceLogHeader) (line : Bytes) : Prop :=
  IsLine line ∧ validateHeader header = .ok () ∧
    header.used.toNat + (line.length + 1) ≤ header.capacity.toNat

/-! ### The header and the payload of a buffer -/

/-- A buffer of the length of the log, as a header and a payload. -/
structure Holds (buffer : Bytes) (header : EvidenceLogHeader) (payload : Bytes) : Prop where
  eq : buffer = header.bytes ++ payload
  magic : header.magic.length = 8
  length : payload.length = payloadCapacity

variable {buffer line text : Bytes} {header : EvidenceLogHeader}

theorem u32Bytes_u32At {offset : ℕ} (h : offset + 4 ≤ buffer.length) :
    u32Bytes (u32At buffer offset) = field buffer offset 4 := by
  have hlength := length_field h
  have hlt : leNat (field buffer offset 4) < 2 ^ 32 := by
    have := leNat_lt (field buffer offset 4)
    rwa [hlength] at this
  have hbytes := leBytes_leNat (field buffer offset 4)
  rwa [hlength, ← UInt32.toNat_ofNat_of_lt' hlt] at hbytes

theorem exists_holds (h : buffer.length = evidenceLogTotalBytes) :
    ∃ header text, Holds buffer header text := by
  have hlong : 32 ≤ buffer.length := by rw [h]; decide
  refine ⟨⟨field buffer 0 8, u32At buffer 8, u32At buffer 12, u32At buffer 16, u32At buffer 20,
    u32At buffer 24, u32At buffer 28⟩, buffer.drop headerSize, ?_, length_field (by omega),
    by rw [List.length_drop, h]; rfl⟩
  have hsplit : buffer.take (8 + 4 + 4 + 4 + 4 + 4 + 4) = buffer.take headerSize := rfl
  rw [EvidenceLogHeader.bytes]
  repeat rw [u32Bytes_u32At (by omega)]
  simp only [List.take_add] at hsplit
  conv_lhs => rw [← List.take_append_drop headerSize buffer, ← hsplit]
  rfl

theorem validateHeader_eq_ok_iff : validateHeader header = .ok () ↔ header.magic = evidenceLogMagic ∧
    header.version = evidenceLogVersion ∧ header.capacity.toNat = payloadCapacity ∧
      header.used.toNat ≤ payloadCapacity := by
  unfold validateHeader
  split_ifs with hfields hused
  · simp only [false_iff]
    tauto
  · have hover : header.capacity.toNat < header.used.toNat := hused
    simp only [false_iff]
    omega
  · push Not at hfields
    simp only [true_iff]
    exact ⟨hfields.1, hfields.2.1, hfields.2.2, hfields.2.2 ▸ Nat.le_of_not_lt hused⟩

theorem validateHeader_cases (header : EvidenceLogHeader) :
    validateHeader header = .error .invalidHeader ∨ validateHeader header = .ok () := by
  unfold validateHeader
  split_ifs <;> simp

namespace Holds

variable (h : Holds buffer header text)
include h

theorem length_bytes : header.bytes.length = headerSize := by
  simp [EvidenceLogHeader.bytes, u32Bytes, h.magic, headerSize]

theorem length_eq : buffer.length = evidenceLogTotalBytes := by
  rw [h.eq, List.length_append, h.length_bytes, h.length]
  rfl

theorem payload_eq : payload buffer = text := by
  rw [payload, h.eq, List.drop_left' h.length_bytes]

theorem readHeader_eq : readHeader buffer = .ok header := by
  have hwhole : slice? buffer 0 headerSize = some header.bytes := by
    rw [slice?_eq_some (Nat.zero_le _) (by rw [h.length_eq]; decide), h.eq, List.drop_zero, Nat.sub_zero,
      List.take_left' h.length_bytes]
  have hmagic : ∀ {offset}, 8 ≤ offset → header.magic.drop offset = [] := fun hle ↦
    List.drop_eq_nil_of_le (h.magic.trans_le hle)
  have hword : ∀ {offset} {word : UInt32}, 4 ≤ offset → (leBytes 4 word.toNat).drop offset = [] :=
    fun hle ↦ List.drop_eq_nil_of_le ((length_leBytes _ _).trans_le hle)
  rw [readHeader, hwhole]
  simp [EvidenceLogHeader.bytes, field, u32At, u32Bytes, List.drop_append, List.take_of_length_le, h.magic,
    leNat_leBytes, hmagic, hword]

/-- A snapshot is taken iff the header is valid and the CRC is that of the used bytes. -/
theorem snapshot_eq_ok_iff {found : EvidenceLogSnapshot} : snapshot buffer = .ok found ↔
    validateHeader header = .ok () ∧ crc32IsoHdlc (text.take header.used.toNat) = header.crc32 ∧
      ⟨header, text.take header.used.toNat⟩ = found := by
  simp only [snapshot, ensureExactBufferLength, h.length_eq, if_true, h.readHeader_eq, h.payload_eq, ok_bind]
  rcases validateHeader_cases header with hinvalid | hvalid
  · simp [hinvalid, bind, Except.bind]
  · have hused := (validateHeader_eq_ok_iff.mp hvalid).2.2.2
    rw [hvalid, ok_bind, h.length, if_neg (Nat.not_lt.mpr hused)]
    split_ifs with hcrc <;> simp_all

theorem headerForLine_cases (line : Bytes) :
    (∃ error, headerForLine buffer line = .error error ∧ error ≠ .full ∧
        (IsLine line → validateHeader header ≠ .ok ())) ∨
      IsLine line ∧ validateHeader header = .ok () ∧ headerForLine buffer line = .ok header := by
  simp only [headerForLine, ensureExactBufferLength, h.length_eq, if_true, h.readHeader_eq, ok_bind]
  split_ifs with hascii hbreak hlong
  · refine .inl ⟨_, rfl, nofun, fun hline ↦ ?_⟩
    obtain ⟨byte, hbyte, hge⟩ := List.any_eq_true.mp hascii
    exact absurd (hline.1 byte hbyte) (UInt8.not_lt.mpr (of_decide_eq_true hge))
  · refine .inl ⟨_, rfl, nofun, fun hline ↦ ?_⟩
    obtain ⟨byte, hbyte, heq⟩ := List.any_eq_true.mp hbreak
    exact absurd (of_decide_eq_true heq) (not_or.mpr (hline.2.1 byte hbyte))
  · exact .inl ⟨_, rfl, nofun, fun hline ↦ absurd hline.2.2 (Nat.not_le.mpr hlong)⟩
  · rcases validateHeader_cases header with hinvalid | hvalid
    · refine .inl ⟨.invalidHeader, by rw [hinvalid]; rfl, nofun, fun _ hvalid ↦ ?_⟩
      cases hinvalid.symm.trans hvalid
    · refine .inr ⟨⟨?_, ?_, Nat.le_of_not_lt hlong⟩, hvalid, by rw [hvalid]; rfl⟩
      · simpa using hascii
      · simpa [not_or] using hbreak

end Holds

/-! ### Runs -/

/-- The snapshot of a buffer with this header and payload is taken. -/
def Readable (header : EvidenceLogHeader) (text : Bytes) : Prop :=
  validateHeader header = .ok () ∧ crc32IsoHdlc (text.take header.used.toNat) = header.crc32

theorem Holds.isOk_snapshot_iff (h : Holds buffer header text) :
    (∃ found, snapshot buffer = .ok found) ↔ Readable header text := by
  simp [h.snapshot_eq_ok_iff, Readable]

theorem toNat_saturatingSucc (count : UInt32) :
    (saturatingSucc count).toNat = min (count.toNat + 1) (2 ^ 32 - 1) := by
  rw [saturatingSucc, UInt32.toNat_ofNat_of_lt']
  simp only [UInt32.size]
  omega

/-- A call changes nothing, or counts a line that does not fit, or appends a line and leaves a readable log. -/
theorem Appended.next_cases {log : Appended} (h : Holds log.buffer header text) (line : Bytes) :
    log.next line = log ∧ (IsLine line → validateHeader header ≠ .ok ()) ∨
    (∃ buffer, log.next line = { log with buffer, full := log.full + 1 } ∧ IsLine line ∧
      header.capacity.toNat < header.used.toNat + (line.length + 1) ∧
        Holds buffer { header with dropped := saturatingSucc header.dropped } text) ∨
    ∃ buffer header' text', log.next line = { log with buffer, accepted := log.accepted ++ [line] } ∧
      header.HasRoom line ∧ Holds buffer header' text' ∧ Readable header' text' ∧
        text'.take header'.used.toNat = text.take header.used.toNat ++ (line ++ [0x0A]) ∧
          header'.lines = saturatingSucc header.lines ∧ header'.dropped = header.dropped := by
  rcases h.headerForLine_cases line with ⟨error, herror, hfull, hinvalid⟩ | ⟨hline, hvalid, hheader⟩
  · rw [Appended.next, appendLine, herror]
    exact .inl ⟨by cases error <;> first | rfl | contradiction, hinvalid⟩
  obtain ⟨hmagic, hversion, hcapacity, hused⟩ := validateHeader_eq_ok_iff.mp hvalid
  rw [Appended.next, appendLine, hheader]
  simp only [h.payload_eq, hcapacity]
  split_ifs with hoverflow hfull
  · have hshort : line.length ≤ 128 := hline.2.2
    have hbound : payloadCapacity < 2 ^ 31 := by decide
    omega
  · exact .inr (.inl ⟨_, rfl, hline, by omega, congrArg (_ ++ ·) h.payload_eq, h.magic, h.length⟩)
  have hfront : (text.take header.used.toNat ++ (line ++ [0x0A])).length =
      header.used.toNat + (line.length + 1) := by
    rw [List.length_append, List.length_take, h.length, Nat.min_eq_left hused, List.length_append]
    rfl
  have hfirst : (log.buffer.take headerSize).length = headerSize := by
    rw [List.length_take, h.length_eq]
    decide
  have hstop := UInt32.toNat_ofNat_of_lt' (Nat.lt_of_not_le hoverflow)
  refine .inr (.inr ⟨_, { header with used := .ofNat _, lines := _, crc32 := _ }, _, rfl,
    ⟨hline, hvalid, by omega⟩, ⟨congrArg (_ ++ ·) (List.drop_left' hfirst), h.magic, ?_⟩, ⟨?_, ?_⟩, ?_, rfl,
    rfl⟩)
  · rw [List.length_append, hfront, List.length_drop, h.length]
    omega
  · exact validateHeader_eq_ok_iff.mpr ⟨hmagic, hversion, hcapacity, hstop.trans_le (Nat.le_of_not_lt hfull)⟩
  · rw [hstop]
  · rw [hstop, List.take_left' hfront]

/-- The log is readable behind the calls if it was before them, or had room for one of the lines. -/
theorem Holds.foldl_next (log : Appended) (h : Holds log.buffer header text) (lines : List Bytes) :
    ∃ header' text', Holds (lines.foldl Appended.next log).buffer header' text' ∧
      (Readable header' text' ↔ Readable header text ∨ ∃ line ∈ lines, header.HasRoom line) := by
  induction lines generalizing log header text with
  | nil => exact ⟨header, text, h, by simp⟩
  | cons line lines ih =>
    rw [List.foldl_cons]
    rcases Appended.next_cases h line with ⟨hsame, hinvalid⟩ | ⟨buffer, hnext, -, hover, hfull⟩ |
      ⟨buffer, header', text', hnext, hroom, haccepted, hreadable, -⟩
    · rw [hsame]
      have hroom : ¬ header.HasRoom line := fun hroom ↦ hinvalid hroom.1 hroom.2.1
      obtain ⟨header', text', hholds, hiff⟩ := ih _ h
      exact ⟨header', text', hholds, by simpa [hroom] using hiff⟩
    · -- The counter of dropped lines is no part of either condition.
      rw [hnext]
      have hroom : ¬ header.HasRoom line := fun hroom ↦ absurd hroom.2.2 (Nat.not_le.mpr hover)
      obtain ⟨header', text', hholds, hiff⟩ := ih ⟨buffer, _, _⟩ hfull
      refine ⟨header', text', hholds, hiff.trans ?_⟩
      change Readable header text ∨ (∃ line ∈ lines, header.HasRoom line) ↔ _
      simp [hroom]
    · rw [hnext]
      obtain ⟨_, _, hholds, hiff⟩ := ih ⟨buffer, _, _⟩ haccepted
      exact ⟨_, _, hholds, by simp [hiff, hreadable, hroom]⟩

/-- Every accepted line takes a byte of the payload. -/
theorem length_le_flatMap (lines : List Bytes) : lines.length ≤ (lines.flatMap (· ++ [0x0A])).length := by
  induction lines with
  | nil => exact Nat.zero_le 0
  | cons line lines ih =>
    rw [List.flatMap_cons, List.length_append, List.length_append, List.length_cons, List.length_singleton]
    omega

/-- The header and the payload of the log after calls on a fresh buffer. -/
structure Logged (given : List Bytes) (log : Appended) (header : EvidenceLogHeader) (text : Bytes) : Prop where
  holds : Holds log.buffer header text
  readable : Readable header text
  text : text.take header.used.toNat = log.accepted.flatMap (· ++ [0x0A])
  lines : header.lines.toNat = log.accepted.length
  dropped : header.dropped.toNat = min log.full (2 ^ 32 - 1)
  tally : (log.accepted, log.full) = tally given

theorem exists_logged_next {given : List Bytes} {log : Appended} (h : Logged given log header text)
    (line : Bytes) : ∃ header' text', Logged (given ++ [line]) (log.next line) header' text' := by
  obtain ⟨-, -, hcapacity, hle⟩ := validateHeader_eq_ok_iff.mp h.readable.1
  have hused : (log.accepted.flatMap (· ++ [0x0A])).length = header.used.toNat := by
    rw [← h.text, List.length_take, h.holds.length, Nat.min_eq_left hle]
  have htally : tally (given ++ [line]) = tallyLine (log.accepted, log.full) line := by
    rw [tally, List.foldl_concat, ← tally, h.tally]
  rw [tallyLine, hused, ← hcapacity] at htally
  rcases Appended.next_cases h.holds line with ⟨hsame, hinvalid⟩ | ⟨_, hnext, hline, hover, hfull⟩ |
    ⟨_, header', text', hnext, hroom, haccepted, hreadable, htext, hlines, hdropped⟩
  · rw [if_pos fun hline ↦ hinvalid hline h.readable.1] at htally
    rw [hsame]
    exact ⟨header, text, { h with tally := htally.symm }⟩
  · rw [if_neg (not_not.mpr hline), if_neg (Nat.not_le.mpr hover)] at htally
    rw [hnext]
    refine ⟨_, text, hfull, h.readable, h.text, h.lines, ?_, htally.symm⟩
    rw [toNat_saturatingSucc, h.dropped]
    dsimp only
    omega
  · rw [if_neg (not_not.mpr hroom.1), if_pos hroom.2.2] at htally
    rw [hnext]
    rw [h.text] at htext
    refine ⟨header', text', haccepted, hreadable, by simpa using htext, ?_, hdropped ▸ h.dropped, htally.symm⟩
    -- The counter of lines does not saturate.
    have hfits := congrArg List.length htext
    have hcount := length_le_flatMap log.accepted
    rw [List.length_take, haccepted.length, List.length_append] at hfits
    rw [hlines, toNat_saturatingSucc, List.length_append, List.length_singleton, h.lines]
    simp only [payloadCapacity, evidenceLogTotalBytes, headerSize] at hfits
    omega

theorem exists_logged (h : buffer.length = evidenceLogTotalBytes) (lines : List Bytes) :
    ∃ header text, Logged lines (appended (initializeLog buffer).2 lines) header text := by
  induction lines using List.reverseRecOn with
  | nil =>
    rw [initializeLog, ensureExactBufferLength, if_pos h]
    exact ⟨initialHeader, zeros payloadCapacity,
      ⟨by simp [appended, writeHeader, payload, zeros, h, payloadCapacity], rfl, List.length_replicate⟩,
      ⟨rfl, rfl⟩, rfl, rfl, rfl, rfl⟩
  | append_singleton lines line ih =>
    obtain ⟨header, text, hlogged⟩ := ih
    rw [appended, List.foldl_concat, ← appended]
    exact exists_logged_next hlogged line

/-- A fresh buffer whose CRC was changed. -/
def damagedLog : Bytes := { initialHeader with crc32 := 1 }.bytes ++ zeros payloadCapacity

theorem holds_damagedLog : Holds damagedLog { initialHeader with crc32 := 1 } (zeros payloadCapacity) :=
  ⟨rfl, rfl, List.length_replicate⟩

theorem snapshot_damagedLog_ne : ∀ found, snapshot damagedLog ≠ .ok found := by
  rw [← not_exists, holds_damagedLog.isOk_snapshot_iff]
  rintro ⟨-, hcrc⟩
  exact absurd hcrc (by decide)

/-- On a damaged buffer the calls leave the snapshot rejected iff its header has room for none of the lines.
After the buffer is initialized the accepted lines are those that fit behind each other, the snapshot has them
and their number, and it has the number of the others iff that number is below the limit of its counter. -/
theorem rejected_iff_and_exact (lines : List Bytes) (hlength : buffer.length = evidenceLogTotalBytes) :
    ((∀ found, snapshot buffer ≠ .ok found) → ∃ header, readHeader buffer = .ok header ∧
      ((∀ found, snapshot (appended buffer lines).buffer ≠ .ok found) ↔
        ∀ line ∈ lines, ¬ header.HasRoom line)) ∧
    ∀ log, appended (initializeLog buffer).2 lines = log → (log.accepted, log.full) = tally lines ∧
      ∃ found, snapshot log.buffer = .ok found ∧ found.payload = log.accepted.flatMap (· ++ [0x0A]) ∧
        found.header.lines.toNat = log.accepted.length ∧
          (found.header.dropped.toNat = log.full ↔ (tally lines).2 < 2 ^ 32) := by
  constructor
  · intro hrejected
    obtain ⟨header, text, hholds⟩ := exists_holds hlength
    obtain ⟨header', text', hholds', hiff⟩ := hholds.foldl_next ⟨buffer, [], 0⟩ lines
    rw [← not_exists, hholds.isOk_snapshot_iff] at hrejected
    refine ⟨header, hholds.readHeader_eq, ?_⟩
    rw [← not_exists, appended, hholds'.isOk_snapshot_iff, hiff]
    simp [hrejected]
  · rintro log rfl
    obtain ⟨header, text, hlogged⟩ := exists_logged hlength lines
    refine ⟨hlogged.tally, _, hlogged.holds.snapshot_eq_ok_iff.mpr
      ⟨hlogged.readable.1, hlogged.readable.2, rfl⟩, hlogged.text, hlogged.lines, ?_⟩
    rw [hlogged.dropped, ← hlogged.tally]
    omega

/-- A line with a line break is rejected, and the damage stays visible. -/
theorem rejected_iff_and_exact_damagedLog : damagedLog.length = evidenceLogTotalBytes ∧
    (∀ found, snapshot damagedLog ≠ .ok found) ∧
      ∀ found, snapshot (appended damagedLog [[0x0A]]).buffer ≠ .ok found := by
  obtain ⟨header, -, hiff⟩ :=
    (rejected_iff_and_exact [[0x0A]] holds_damagedLog.length_eq).1 snapshot_damagedLog_ne
  refine ⟨holds_damagedLog.length_eq, snapshot_damagedLog_ne, hiff.mpr fun line hline hroom ↦ ?_⟩
  obtain rfl := List.mem_singleton.mp hline
  exact (hroom.1.2.1 0x0A (by simp)).1 rfl

/-- The snapshot of the damaged buffer is rejected, and after an empty line it is taken. -/
theorem damagedLog_accepted : damagedLog.length = evidenceLogTotalBytes ∧
    (∀ found, snapshot damagedLog ≠ .ok found) ∧
      ∃ found, snapshot (appended damagedLog [[]]).buffer = .ok found := by
  refine ⟨holds_damagedLog.length_eq, snapshot_damagedLog_ne, ?_⟩
  obtain ⟨header, text, hholds, hiff⟩ := holds_damagedLog.foldl_next ⟨damagedLog, [], 0⟩ [[]]
  refine hholds.isOk_snapshot_iff.mpr (hiff.mpr (.inr ⟨[], by simp, ⟨by simp, by simp, by simp⟩, ?_, ?_⟩))
  · decide
  · decide

end Pythos.Shared.EvidenceLog
