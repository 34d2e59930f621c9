import Pythos.Foundation.CommitLog
import Pythos.Foundation.Stateful

/-!
# The storage journal

Writes are announced in a journal of at most eight records before they are made. A commit seals the
latest record, and a recovery replays the sealed records up to the first one that is not. A commit
behind a record that was left open is therefore lost: `durable_iff` says when none is.
-/

namespace Pythos.Core

open Foundation Stateful

inductive StorageOperation
  | read
  | write
  deriving DecidableEq, Repr

structure StorageAccess where
  operation : StorageOperation
  startSector : UInt64
  sectorCount : UInt16
  deriving DecidableEq, Repr

/-- The errors of the journal itself; those of the storage service belong to the caller. -/
inductive JournalError
  | full
  | readIsNotJournaled
  | missingCommitMarker
  | checksumMismatch
  deriving DecidableEq, Repr

structure JournalRecord where
  sequence : UInt64
  operation : StorageOperation
  startSector : UInt64
  sectorCount : UInt16
  checksum : UInt32
  commitMarker : UInt32
  deriving DecidableEq, Repr

structure RecoveryReport where
  replayedRecords : ℕ
  rolledBackRecords : ℕ
  lastSequence : UInt64
  deriving DecidableEq, Repr

/-- The eight rounds of `checksum_mix`, which the allocator journal shares. -/
def checksumMix (checksum : UInt32) (value : UInt64) : UInt32 :=
  ((List.range 8).foldl (fun (state : UInt32 × UInt64) _ ↦
    ((state.1 ^^^ state.2.toUInt8.toUInt32) * 0x01000193, state.2 >>> 8)) (checksum, value)).1

/-- The checksum of the words of a record. -/
def checksumWords (words : List UInt64) : UInt32 := words.foldl checksumMix 0x811C9DC5

namespace JournalRecord

def marker : UInt32 := 0x5059434D

def operationCode : StorageOperation → UInt8
  | .read => 1
  | .write => 2

def checksumFor (record : JournalRecord) : UInt32 :=
  checksumWords [record.sequence, (operationCode record.operation).toUInt64, record.startSector,
    record.sectorCount.toUInt64]

def validateCommitted (record : JournalRecord) : Except JournalError Unit :=
  if record.commitMarker ≠ marker then .error .missingCommitMarker
  else if record.checksum ≠ record.checksumFor then .error .checksumMismatch
  else .ok ()

/-- The record that a commit leaves. -/
def committed (record : JournalRecord) : JournalRecord :=
  { record with checksum := record.checksumFor, commitMarker := marker }

theorem sequence_committed (record : JournalRecord) : record.committed.sequence = record.sequence := by
  cases record
  rfl

/-- The record passes the check of a recovery. -/
def isValid (record : JournalRecord) : Bool := record.validateCommitted = .ok ()

theorem checksumFor_committed (record : JournalRecord) :
    record.committed.checksumFor = record.checksumFor := by
  cases record
  unfold checksumFor
  rfl

@[simp] theorem validateCommitted_committed (record : JournalRecord) :
    record.committed.validateCommitted = .ok () := by
  have hmarker : record.committed.commitMarker = marker := rfl
  have hchecksum : record.committed.checksum = record.checksumFor := rfl
  rw [validateCommitted, checksumFor_committed, hchecksum, if_neg (not_not.mpr hmarker),
    if_neg (not_not.mpr rfl)]

theorem committed_of_isValid {record : JournalRecord} (h : record.isValid = true) :
    record.committed = record := by
  have hvalid := of_decide_eq_true h
  unfold validateCommitted at hvalid
  split_ifs at hvalid with hmarker hchecksum
  rw [not_not] at hmarker hchecksum
  rw [committed, ← hmarker, ← hchecksum]

end JournalRecord

def journalCapacity : ℕ := 8

structure AppendOnlyJournal where
  log : BoundedLog JournalRecord journalCapacity
  nextSequence : UInt64
  deriving DecidableEq

namespace AppendOnlyJournal

def new : AppendOnlyJournal where
  log := .empty
  nextSequence := 1

def appendWrite (access : StorageAccess) :
    Stateful JournalError AppendOnlyJournal JournalRecord :=
  if access.operation ≠ .write then fail .readIsNotJournaled
  else do
    let journal ← Stateful.read
    let record : JournalRecord :=
      { access with sequence := journal.nextSequence, checksum := 0, commitMarker := 0 }
    match journal.log.push record with
    | none => fail .full
    | some log =>
      Stateful.modify fun _ ↦ { log, nextSequence := journal.nextSequence + 1 }
      pure record

def commitLast : Stateful JournalError AppendOnlyJournal JournalRecord := do
  let journal ← Stateful.read
  match journal.log.records.getLast? with
  | none => fail .missingCommitMarker
  | some record =>
    Stateful.modify fun journal ↦ { journal with log := journal.log.setLast record.committed }
    ofExcept record.committed.validateCommitted
    pure record.committed

/-- The loop of `recover_committed_prefix` over the remaining records. -/
def recoverLoop : List JournalRecord → ℕ → UInt64 → RecoveryReport
  | [], replayedRecords, lastSequence => ⟨replayedRecords, 0, lastSequence⟩
  | record :: rest, replayedRecords, lastSequence =>
    match record.validateCommitted with
    | .error _ => ⟨replayedRecords, rest.length + 1, lastSequence⟩
    | .ok _ => recoverLoop rest (replayedRecords + 1) record.sequence

def recoverCommittedPrefix (journal : AppendOnlyJournal) : RecoveryReport :=
  recoverLoop journal.log.records 0 0

/-! ### What a call does -/

variable {journal : AppendOnlyJournal}

/-- An append adds an open record with the next number, or changes nothing. -/
theorem ensures_appendWrite (access : StorageAccess) :
    Ensures (appendWrite access)
      (fun record journal' ↦ journal'.log.records = journal.log.records ++ [record] ∧
        record.isValid = false ∧ record.sequence = journal.nextSequence ∧
        journal'.nextSequence = journal.nextSequence + 1)
      (fun _ journal' ↦ journal' = journal) journal := by
  rw [appendWrite, ensures_ite]
  refine ⟨fun _ ↦ rfl, fun _ ↦ ?_⟩
  simp only [ensures_bind, ensures_read]
  split
  · rfl
  · next log hpush => exact ⟨BoundedLog.push_eq_some hpush, rfl, rfl, rfl⟩

/-- A commit seals the last record; it fails in an empty journal only. -/
theorem ensures_commitLast :
    Ensures commitLast
      (fun record journal' ↦ ∃ before last, journal.log.records = before ++ [last] ∧
        record = last.committed ∧ journal'.log.records = before ++ [record] ∧
        journal'.nextSequence = journal.nextSequence)
      (fun _ journal' ↦ journal' = journal ∧ journal.log.records = []) journal := by
  rw [commitLast, ensures_bind, ensures_read]
  rcases List.eq_nil_or_concat journal.log.records with hempty | ⟨before, last, hlast⟩
  · simp only [hempty, List.getLast?_nil, ensures_fail]
    exact ⟨trivial, trivial⟩
  · rw [List.concat_eq_append] at hlast
    have hget : journal.log.records.getLast? = some last := by
      rw [hlast, List.getLast?_concat]
    rw [hget]
    refine ensures_bind.mpr (ensures_modify.mpr (ensures_bind.mpr ?_))
    rw [JournalRecord.validateCommitted_committed]
    exact ⟨before, last, hlast, rfl, BoundedLog.records_setLast hlast _, rfl⟩

/-- A recovery replays the valid records before the first invalid one. -/
theorem recoverLoop_eq (records : List JournalRecord) (replayed : ℕ) (last : UInt64) :
    recoverLoop records replayed last =
      ⟨replayed + (records.takeWhile JournalRecord.isValid).length,
        records.length - (records.takeWhile JournalRecord.isValid).length,
        ((records.takeWhile JournalRecord.isValid).getLast?.map (·.sequence)).getD last⟩ := by
  induction records generalizing replayed last with
  | nil => rfl
  | cons record rest ih =>
    unfold recoverLoop
    cases hvalid : record.validateCommitted with
    | error error => simp [JournalRecord.isValid, hvalid]
    | ok =>
      have hmark : record.isValid = true := decide_eq_true hvalid
      rw [ih, List.takeWhile_cons_of_pos hmark]
      simp only [List.length_cons, List.getLast?_cons, Option.map_some, Option.getD_some,
        RecoveryReport.mk.injEq]
      refine ⟨by omega, by omega, ?_⟩
      cases (rest.takeWhile JournalRecord.isValid).getLast? <;> rfl

/-! ### Runs -/

inductive Call
  | append (access : StorageAccess)
  | commit
  deriving DecidableEq

/-- The journal that a call leaves. -/
def step (journal : AppendOnlyJournal) : Call → AppendOnlyJournal
  | .append access => (appendWrite access journal).2
  | .commit => (commitLast journal).2

/-- The journal after the calls on a fresh one. -/
def after (calls : List Call) : AppendOnlyJournal := calls.foldl step new

theorem after_concat (calls : List Call) (call : Call) :
    after (calls ++ [call]) = (after calls).step call := by
  rw [after, List.foldl_append]
  rfl

theorem moves_step (journal : AppendOnlyJournal) (call : Call) :
    Moves JournalRecord.isValid (call = .commit) journal.log.records
      (journal.step call).log.records := by
  cases call with
  | append access =>
    rcases (ensures_appendWrite access).cases with ⟨_, -, hrecords, hopen, -⟩ | ⟨_, -, hsame⟩
    · rw [step, hrecords]
      exact .append nofun hopen
    · rw [step, hsame]
      exact .keep nofun
  | commit =>
    rcases ensures_commitLast.cases with ⟨_, -, _, last, hbefore, rfl, hafter, -⟩ |
      ⟨_, -, hsame, hempty⟩
    · rw [step, hbefore, hafter]
      exact .commit rfl (decide_eq_true last.validateCommitted_committed)
    · rw [step, hsame]
      exact .keep fun _ ↦ hempty

/-- The records are numbered from one, in the order of the appends. -/
structure Numbered (journal : AppendOnlyJournal) : Prop where
  next_eq : journal.nextSequence.toNat = journal.log.records.length + 1
  sequence_eq : ∀ (position : ℕ) (record : JournalRecord),
    journal.log.records[position]? = some record → record.sequence.toNat = position + 1

theorem Numbered.step (h : Numbered journal) (call : Call) : Numbered (journal.step call) := by
  cases call with
  | append access =>
    rcases (ensures_appendWrite access).cases with ⟨record, -, hrecords, -, hsequence, hnext⟩ |
      ⟨_, -, hsame⟩
    · have hbound := (journal.step (.append access)).log.length_le
      rw [AppendOnlyJournal.step, hrecords, List.length_append] at hbound
      refine ⟨?_, fun position record' hrecord' ↦ ?_⟩
      · rw [AppendOnlyJournal.step, hnext, hrecords, List.length_append, UInt64.toNat_add, h.next_eq]
        exact Nat.mod_eq_of_lt (lt_of_le_of_lt (Nat.succ_le_succ hbound) (by decide))
      · rw [AppendOnlyJournal.step, hrecords] at hrecord'
        rcases getElem?_concat_eq_some.mp hrecord' with hold | ⟨rfl, rfl⟩
        · exact h.sequence_eq position record' hold
        · rw [hsequence, h.next_eq]
    · rw [AppendOnlyJournal.step, hsame]
      exact h
  | commit =>
    rcases ensures_commitLast.cases with ⟨_, -, before, last, hbefore, rfl, hafter, hnext⟩ |
      ⟨_, -, hsame, -⟩
    · have hnumber := h.sequence_eq
      rw [hbefore] at hnumber
      refine ⟨?_, fun position record' hrecord' ↦ ?_⟩
      · rw [AppendOnlyJournal.step, hnext, hafter, h.next_eq, hbefore]
        simp
      · rw [AppendOnlyJournal.step, hafter] at hrecord'
        rcases getElem?_concat_eq_some.mp hrecord' with hold | ⟨rfl, rfl⟩
        · exact hnumber position record' (getElem?_concat_eq_some.mpr (Or.inl hold))
        · rw [JournalRecord.sequence_committed]
          exact hnumber before.length last (getElem?_concat_eq_some.mpr (Or.inr ⟨rfl, rfl⟩))
    · rw [AppendOnlyJournal.step, hsame]
      exact h

theorem numbered_after (calls : List Call) : Numbered (after calls) := by
  induction calls using List.reverseRecOn with
  | nil => exact ⟨rfl, nofun⟩
  | append_singleton calls call ih =>
    rw [after_concat]
    exact ih.step call

/-- A call of the run committed the record at the position. -/
def Commits (calls : List Call) (position : ℕ) (record : JournalRecord) : Prop :=
  ∃ before rest, calls = before ++ .commit :: rest ∧ (commitLast (after before)).1 = .ok record ∧
    (after before).log.records.length = position + 1

theorem commits_concat {calls : List Call} {call : Call} {position : ℕ} {record : JournalRecord} :
    Commits (calls ++ [call]) position record ↔ Commits calls position record ∨
      call = .commit ∧ (commitLast (after calls)).1 = .ok record ∧
        (after calls).log.records.length = position + 1 := by
  constructor
  · rintro ⟨before, rest, hsplit, hcommit⟩
    rcases concat_eq_append_cons hsplit with ⟨rfl, rfl⟩ | ⟨rest', hcalls⟩
    · exact Or.inr ⟨rfl, hcommit⟩
    · exact Or.inl ⟨before, rest', hcalls, hcommit⟩
  · rintro (⟨before, rest, rfl, hcommit⟩ | ⟨rfl, hcommit⟩)
    · exact ⟨before, rest ++ [call], by simp, hcommit⟩
    · exact ⟨calls, [], rfl, hcommit⟩

/-- The records that a run committed are the valid records of the journal. -/
theorem commits_iff {calls : List Call} {position : ℕ} {record : JournalRecord} :
    Commits calls position record ↔
      (after calls).log.records[position]? = some record ∧ record.isValid = true := by
  induction calls using List.reverseRecOn generalizing position record with
  | nil =>
    refine iff_of_false ?_ (by simp [after, new, BoundedLog.empty])
    rintro ⟨before, rest, hsplit, -⟩
    simp at hsplit
  | append_singleton calls call ih =>
    rw [commits_concat, ih, after_concat]
    cases call with
    | append access =>
      rw [or_iff_left (by simp)]
      rcases (ensures_appendWrite access).cases with ⟨_, -, hrecords, hopen, -⟩ | ⟨_, -, hsame⟩
      · rw [step, hrecords, getElem?_concat_eq_some]
        refine and_congr_left fun hvalid ↦ (or_iff_left ?_).symm
        rintro ⟨-, rfl⟩
        rw [hopen] at hvalid
        cases hvalid
      · rw [step, hsame]
    | commit =>
      rcases ensures_commitLast.cases with ⟨sealed, hok, before, last, hbefore, rfl, hafter, -⟩ |
        ⟨_, herror, hsame, hempty⟩
      · rw [step, hok, hafter, hbefore, getElem?_concat_eq_some, getElem?_concat_eq_some]
        constructor
        · rintro (⟨hold | ⟨rfl, rfl⟩, hvalid⟩ | ⟨-, hsealed, hlength⟩)
          · exact ⟨Or.inl hold, hvalid⟩
          · exact ⟨Or.inr ⟨rfl, JournalRecord.committed_of_isValid hvalid⟩, hvalid⟩
          · obtain rfl := Except.ok.inj hsealed
            refine ⟨Or.inr ⟨?_, rfl⟩, decide_eq_true last.validateCommitted_committed⟩
            simpa using hlength.symm
        · rintro ⟨hold | ⟨rfl, rfl⟩, hvalid⟩
          · exact Or.inl ⟨Or.inl hold, hvalid⟩
          · exact Or.inr ⟨rfl, rfl, by simp⟩
      · rw [step, hsame, hempty]
        simp

/-! ### Recovery -/

/-- Recovery keeps what was committed: every record that a commit returned is replayed, every replayed
record was committed, and the others are rolled back. -/
structure Durable (calls : List Call) : Prop where
  survives : ∀ (position : ℕ) (record : JournalRecord), Commits calls position record →
    (after calls).log.records[position]? = some record ∧
      position < (after calls).recoverCommittedPrefix.replayedRecords ∧
      record.sequence ≤ (after calls).recoverCommittedPrefix.lastSequence
  committed : ∀ (position : ℕ) (record : JournalRecord),
    position < (after calls).recoverCommittedPrefix.replayedRecords →
    (after calls).log.records[position]? = some record → Commits calls position record
  total : (after calls).recoverCommittedPrefix.replayedRecords +
    (after calls).recoverCommittedPrefix.rolledBackRecords = (after calls).log.records.length

theorem replayedRecords_eq (journal : AppendOnlyJournal) :
    journal.recoverCommittedPrefix.replayedRecords =
      (journal.log.records.takeWhile JournalRecord.isValid).length := by
  rw [recoverCommittedPrefix, recoverLoop_eq, Nat.zero_add]

/-- The last replayed record has the largest number among the replayed ones. -/
theorem Numbered.le_lastSequence (h : Numbered journal) {position : ℕ} {record : JournalRecord}
    (hrecord : journal.log.records[position]? = some record)
    (hlt : position < journal.recoverCommittedPrefix.replayedRecords) :
    record.sequence ≤ journal.recoverCommittedPrefix.lastSequence := by
  rw [replayedRecords_eq] at hlt
  rw [recoverCommittedPrefix, recoverLoop_eq]
  have hne : journal.log.records.takeWhile JournalRecord.isValid ≠ [] :=
    List.ne_nil_of_length_pos (by omega)
  rw [List.getLast?_eq_some_getLast hne, Option.map_some, Option.getD_some, UInt64.le_iff_toNat_le,
    h.sequence_eq position record hrecord]
  have hlast : journal.log.records[(journal.log.records.takeWhile JournalRecord.isValid).length - 1]? =
      some ((journal.log.records.takeWhile JournalRecord.isValid).getLast hne) := by
    rw [← getElem?_takeWhile (Nat.sub_one_lt_of_lt hlt), ← List.getLast?_eq_getElem?,
      List.getLast?_eq_some_getLast hne]
  rw [h.sequence_eq _ _ hlast]
  omega

/-- The journal is durable exactly when no commit comes behind an open record. -/
theorem durable_iff (calls : List Call) :
    Durable calls ↔ CommitsInOrder JournalRecord.isValid (·.log.records) step (· = .commit) new calls := by
  rw [← ordered_foldl_iff moves_step rfl, ordered_iff_replayed]
  show _ ↔ ∀ (position : ℕ) (record : JournalRecord), (after calls).log.records[position]? =
    some record → record.isValid = true → position <
      ((after calls).log.records.takeWhile JournalRecord.isValid).length
  rw [← replayedRecords_eq]
  constructor
  · intro h position record hrecord hvalid
    exact (h.survives position record (commits_iff.mpr ⟨hrecord, hvalid⟩)).2.1
  · intro h
    refine ⟨fun position record hcommits ↦ ?_, fun position record hlt hrecord ↦ ?_, ?_⟩
    · obtain ⟨hrecord, hvalid⟩ := commits_iff.mp hcommits
      have hlt := h position record hrecord hvalid
      exact ⟨hrecord, hlt, (numbered_after calls).le_lastSequence hrecord hlt⟩
    · rw [replayedRecords_eq] at hlt
      exact commits_iff.mpr ⟨hrecord, committed_of_replayed hlt hrecord⟩
    · rw [recoverCommittedPrefix, recoverLoop_eq, Nat.zero_add]
      exact Nat.add_sub_cancel' (List.takeWhile_prefix _).length_le

/-- Two writes of which the second is committed. -/
def committedBehindOpen : List Call :=
  [.append ⟨.write, 1, 1⟩, .append ⟨.write, 2, 1⟩, .commit]

/-- The committed write is rolled back with the open one before it. -/
theorem committedBehindOpen_lost :
    (commitLast (after (committedBehindOpen.take 2))).1.toBool = true ∧
      (after committedBehindOpen).recoverCommittedPrefix = ⟨0, 2, 0⟩ ∧
      ¬ Durable committedBehindOpen := by
  have hrecovery : (after committedBehindOpen).recoverCommittedPrefix = ⟨0, 2, 0⟩ := by
    decide +kernel
  refine ⟨by decide +kernel, hrecovery, fun h ↦ ?_⟩
  obtain ⟨record, hrecord, hvalid⟩ : ∃ record ∈ (after committedBehindOpen).log.records[1]?,
      record.isValid = true := by
    decide +kernel
  have hlt := (h.survives 1 record (commits_iff.mpr ⟨hrecord, hvalid⟩)).2.1
  rw [hrecovery] at hlt
  cases hlt

end AppendOnlyJournal

end Pythos.Core
