import Mathlib.Data.List.Induction
import Pythos.Foundation.Bytes

/-!
# Byte memories and tables of records

A memory gives a byte for every position; the fixed arrays of the source are memories of which only a
first part is used. Writes replace a run of bytes, and a read of a run sees the last write to it. A
record format writes a record into a run of a fixed size and reads it back, and a table of records puts
optional records one after the other, where a blank run stands for no record.
-/

namespace Pythos.Foundation

/-- A byte for every position. -/
abbrev Memory := ℕ → UInt8

/-- Two memories agree on a run. -/
def AgreeOn (memory memory' : Memory) (offset size : ℕ) : Prop :=
  ∀ position, offset ≤ position → position < offset + size → memory position = memory' position

namespace Memory

def zero : Memory := fun _ ↦ 0

/-- The bytes of an array, followed by zeros. -/
def ofBytes (bytes : Bytes) : Memory := fun position ↦ bytes[position]?.getD 0

def read (memory : Memory) (offset count : ℕ) : Bytes :=
  (List.range count).map fun index ↦ memory (offset + index)

def write (memory : Memory) (offset : ℕ) (bytes : Bytes) : Memory := fun position ↦
  if offset ≤ position then bytes[position - offset]?.getD (memory position) else memory position

def readU16 (memory : Memory) (offset : ℕ) : UInt16 :=
  UInt16.ofNat (leNat (memory.read offset 2))

def readU64 (memory : Memory) (offset : ℕ) : UInt64 :=
  UInt64.ofNat (leNat (memory.read offset 8))

def writeU16 (memory : Memory) (offset : ℕ) (value : UInt16) : Memory :=
  memory.write offset (leBytes 2 value.toNat)

def writeU64 (memory : Memory) (offset : ℕ) (value : UInt64) : Memory :=
  memory.write offset (leBytes 8 value.toNat)

/-! ### Reads over writes -/

variable {memory memory' : Memory}

@[simp] theorem length_read (offset count : ℕ) : (memory.read offset count).length = count := by
  simp [read]

variable {offset count position : ℕ} {bytes : Bytes}

theorem read_congr (h : AgreeOn memory memory' offset count) :
    memory.read offset count = memory'.read offset count := by
  refine List.map_congr_left fun index hindex ↦ ?_
  have hlt := List.mem_range.mp hindex
  exact h _ (by omega) (by omega)

theorem write_of_lt (bytes : Bytes) (h : position < offset) :
    memory.write offset bytes position = memory position :=
  if_neg (not_le.mpr h)

theorem write_of_le (h : offset + bytes.length ≤ position) :
    memory.write offset bytes position = memory position := by
  unfold write
  split_ifs with hle
  · rw [List.getElem?_eq_none (by omega)]
    rfl
  · rfl

theorem write_add {index : ℕ} (h : index < bytes.length) :
    memory.write offset bytes (offset + index) = bytes[index] := by
  rw [write, if_pos (by omega), Nat.add_sub_cancel_left, List.getElem?_eq_getElem h]
  rfl

theorem write_outside (h : position < offset ∨ offset + bytes.length ≤ position) :
    memory.write offset bytes position = memory position :=
  h.elim (write_of_lt bytes) write_of_le

theorem read_write_self (h : bytes.length = count) :
    (memory.write offset bytes).read offset count = bytes := by
  refine List.ext_getElem (by simp [h]) fun index hleft hright ↦ ?_
  simp [read, write_add hright]

theorem read_write_of_disjoint {offset' : ℕ}
    (h : offset + count ≤ offset' ∨ offset' + bytes.length ≤ offset) :
    (memory.write offset' bytes).read offset count = memory.read offset count :=
  read_congr fun position _ _ ↦ write_outside (by omega)

theorem write_congr (h : memory position = memory' position) :
    memory.write offset bytes position = memory'.write offset bytes position := by
  simp only [write, h]

/-! ### Words -/

theorem leNat_read_lt (offset count : ℕ) : leNat (memory.read offset count) < 256 ^ count := by
  have hlt := leNat_lt (memory.read offset count)
  rwa [length_read] at hlt

theorem readU16_eq {value : UInt16} (h : memory.read offset 2 = leBytes 2 value.toNat) :
    memory.readU16 offset = value := by
  rw [readU16, h, leNat_leBytes_of_lt value.toNat_lt]
  exact UInt16.ofNat_toNat

theorem readU64_ofNat {value : ℕ} (h : memory.read offset 8 = leBytes 8 value) :
    memory.readU64 offset = UInt64.ofNat value := by
  rw [readU64, h, leNat_leBytes]
  exact UInt64.ofNat_mod_size

theorem readU64_eq {value : UInt64} (h : memory.read offset 8 = leBytes 8 value.toNat) :
    memory.readU64 offset = value :=
  (readU64_ofNat h).trans UInt64.ofNat_toNat

section Words

variable {offset offset' : ℕ}

/-- A word determines the bytes it is read from. -/
theorem read_eq_leBytes (offset : ℕ) :
    memory.read offset 8 = leBytes 8 (memory.readU64 offset).toNat := by
  have hlt : leNat (memory.read offset 8) < 2 ^ 64 := leNat_read_lt offset 8
  have hbytes := leBytes_leNat (memory.read offset 8)
  rw [length_read] at hbytes
  rw [readU64, UInt64.toNat_ofNat_of_lt' hlt, hbytes]

variable {count : ℕ}

/-- Memories with equal reads agree where they are read. -/
theorem eq_of_read_eq {offset position : ℕ}
    (h : memory.read offset count = memory'.read offset count) (hlow : offset ≤ position)
    (hhigh : position < offset + count) : memory position = memory' position := by
  have hindex := congrArg (fun bytes ↦ bytes[position - offset]?) h
  simpa [read, show position - offset < count by omega, Nat.add_sub_cancel' hlow] using hindex

theorem readU16_congr (h : memory.read offset 2 = memory'.read offset 2) :
    memory.readU16 offset = memory'.readU16 offset := by
  rw [readU16, h, readU16]

theorem readU64_congr (h : memory.read offset 8 = memory'.read offset 8) :
    memory.readU64 offset = memory'.readU64 offset := by
  rw [readU64, h, readU64]

theorem read_writeU64 (value : UInt64) (h : offset + count ≤ offset' ∨ offset' + 8 ≤ offset) :
    (memory.writeU64 offset' value).read offset count = memory.read offset count :=
  read_write_of_disjoint (by rwa [length_leBytes])

end Words

/-- A write that drops the bytes at and after a limit. -/
def writeBelow (limit : ℕ) (memory : Memory) (offset : ℕ) (bytes : Bytes) : Memory :=
  memory.write offset (bytes.take (limit - offset))

/-! ### Lists of writes -/

/-- Writes of byte strings at offsets, one after the other. -/
def writeAll (memory : Memory) (writes : List (ℕ × Bytes)) : Memory :=
  writes.foldl (fun memory write ↦ memory.write write.1 write.2) memory

theorem writeAll_append (first second : List (ℕ × Bytes)) :
    memory.writeAll (first ++ second) = (memory.writeAll first).writeAll second :=
  List.foldl_append

theorem writeAll_congr (writes : List (ℕ × Bytes)) (h : memory position = memory' position) :
    memory.writeAll writes position = memory'.writeAll writes position := by
  induction writes generalizing memory memory' with
  | nil => exact h
  | cons write rest ih => exact ih (write_congr h)

theorem writeAll_outside {writes : List (ℕ × Bytes)}
    (h : ∀ write ∈ writes, position < write.1 ∨ write.1 + write.2.length ≤ position) :
    memory.writeAll writes position = memory position := by
  induction writes generalizing memory with
  | nil => rfl
  | cons write rest ih =>
    obtain ⟨hfirst, hrest⟩ := List.forall_mem_cons.mp h
    exact (ih hrest).trans (write_outside hfirst)

/-- A byte that a write covers does not depend on the memory. -/
theorem write_covered (hlow : offset ≤ position) (hhigh : position < offset + bytes.length) :
    memory.write offset bytes position = memory'.write offset bytes position := by
  obtain ⟨index, rfl⟩ := Nat.exists_eq_add_of_le hlow
  rw [write_add (by omega), write_add (by omega)]

/-- Writing the same bytes again changes nothing. -/
theorem writeAll_writeAll (writes : List (ℕ × Bytes)) :
    (memory.writeAll writes).writeAll writes position = memory.writeAll writes position := by
  induction writes using List.reverseRecOn with
  | nil => rfl
  | append_singleton rest write ih =>
    -- the last write decides whether it covers the position or the writes before it do
    rw [writeAll_append, writeAll_append]
    change ((((memory.writeAll rest).write write.1 write.2).writeAll rest).write write.1 write.2)
      position = ((memory.writeAll rest).write write.1 write.2) position
    by_cases houtside : position < write.1 ∨ write.1 + write.2.length ≤ position
    · have hskip (other : Memory) : other.write write.1 write.2 position = other position :=
        write_outside houtside
      rw [hskip, hskip, writeAll_congr rest (hskip _)]
      exact ih
    · exact write_covered (by omega) (by omega)

/-- A write outside of a position may be left out. -/
theorem writeAll_skip {first second : List (ℕ × Bytes)}
    (h : position < offset ∨ offset + bytes.length ≤ position) :
    memory.writeAll (first ++ (offset, bytes) :: second) position =
      memory.writeAll (first ++ second) position := by
  rw [writeAll_append, writeAll_append]
  exact writeAll_congr second (write_outside h)

variable {writes : List (ℕ × Bytes)}
  (hdisjoint : writes.Pairwise fun first second ↦ first.1 + first.2.length ≤ second.1)

include hdisjoint

/-- Each of a list of disjoint writes is read back. -/
theorem read_writeAll (hmem : (offset, bytes) ∈ writes) {count : ℕ} (hcount : bytes.length = count) :
    (memory.writeAll writes).read offset count = bytes := by
  subst hcount
  induction writes generalizing memory with
  | nil => exact absurd hmem List.not_mem_nil
  | cons write rest ih =>
    obtain ⟨hfirst, hrest⟩ := List.pairwise_cons.mp hdisjoint
    rcases List.mem_cons.mp hmem with rfl | hmem
    · have hkept : (memory.writeAll ((offset, bytes) :: rest)).read offset bytes.length =
          (memory.write offset bytes).read offset bytes.length := by
        refine read_congr fun position hlow hhigh ↦ ?_
        change (memory.write offset bytes).writeAll rest position = _
        refine writeAll_outside fun other hother ↦ ?_
        exact Or.inl (lt_of_lt_of_le hhigh (hfirst other hother))
      rw [hkept]
      exact read_write_self rfl
    · exact ih hrest hmem

end Memory

section AgreeOn

variable {memory memory' : Memory} {offset size : ℕ} (h : AgreeOn memory memory' offset size) (start : ℕ)

include h

theorem AgreeOn.read (count : ℕ) (hlow : offset ≤ start) (hhigh : start + count ≤ offset + size) :
    memory.read start count = memory'.read start count :=
  Memory.read_congr fun position _ _ ↦ h position (by omega) (by omega)

theorem AgreeOn.readU16 (hlow : offset ≤ start) (hhigh : start + 2 ≤ offset + size) :
    memory.readU16 start = memory'.readU16 start :=
  Memory.readU16_congr (h.read start 2 hlow hhigh)

theorem AgreeOn.readU64 (hlow : offset ≤ start) (hhigh : start + 8 ≤ offset + size) :
    memory.readU64 start = memory'.readU64 start :=
  Memory.readU64_congr (h.read start 8 hlow hhigh)

end AgreeOn

/-! ### Tables of records -/

/-- How a record is written into a run of `size` bytes and read back. -/
structure RecordFormat (ε α : Type) where
  size : ℕ
  write : Memory → ℕ → α → Memory
  read : Memory → ℕ → Except ε (Option α)

/-- The record of a run depends on the run alone, and what is written below the limit is read back. -/
structure RecordFormat.Lawful {ε α : Type} (format : RecordFormat ε α) (limit : ℕ) : Prop where
  write_outside : ∀ (memory : Memory) (offset : ℕ) (record : α) (position : ℕ),
    position < offset ∨ offset + format.size ≤ position →
      format.write memory offset record position = memory position
  read_congr : ∀ (memory memory' : Memory) (offset : ℕ), AgreeOn memory memory' offset format.size →
    format.read memory offset = format.read memory' offset
  read_write : ∀ (memory : Memory) (offset : ℕ) (record : α), offset + format.size ≤ limit →
    format.read (format.write memory offset record) offset = .ok (some record)
  read_blank : ∀ (memory : Memory) (offset : ℕ), AgreeOn memory Memory.zero offset format.size →
    format.read memory offset = .ok none

namespace RecordFormat

variable {ε α : Type} (format : RecordFormat ε α)

/-- The records of a list one after the other, from an offset on. -/
def writeTable (memory : Memory) (offset : ℕ) : List (Option α) → Memory
  | [] => memory
  | none :: rest => writeTable memory (offset + format.size) rest
  | some record :: rest =>
    writeTable (format.write memory offset record) (offset + format.size) rest

/-- The next `count` records from an offset on. -/
def readTable (memory : Memory) (offset : ℕ) : ℕ → Except ε (List (Option α))
  | 0 => .ok []
  | count + 1 =>
    match format.read memory offset with
    | .error error => .error error
    | .ok record =>
      match readTable memory (offset + format.size) count with
      | .error error => .error error
      | .ok rest => .ok (record :: rest)

variable {format} {limit : ℕ}

theorem writeTable_outside (h : format.Lawful limit) (records : List (Option α)) :
    ∀ (memory : Memory) (offset position : ℕ),
      position < offset ∨ offset + records.length * format.size ≤ position →
        format.writeTable memory offset records position = memory position := by
  induction records with
  | nil => exact fun _ _ _ _ ↦ rfl
  | cons slot rest ih =>
    intro memory offset position houtside
    rw [List.length_cons, Nat.succ_mul] at houtside
    cases slot with
    | none => exact ih memory _ position (by omega)
    | some record =>
      rw [writeTable, ih _ _ position (by omega)]
      exact h.write_outside memory offset record position (by omega)

theorem readTable_congr (h : format.Lawful limit) (count : ℕ) :
    ∀ (memory memory' : Memory) (offset : ℕ), AgreeOn memory memory' offset (count * format.size) →
      format.readTable memory offset count = format.readTable memory' offset count := by
  induction count with
  | zero => exact fun _ _ _ _ ↦ rfl
  | succ count ih =>
    intro memory memory' offset hagree
    rw [Nat.succ_mul] at hagree
    rw [readTable, readTable, h.read_congr memory memory' offset fun position hlow hhigh ↦
      hagree position hlow (by omega), ih memory memory' (offset + format.size)
        fun position hlow hhigh ↦ hagree position (by omega) (by omega)]

/-- A table that is written over blank bytes below the limit is read back. -/
theorem readTable_writeTable (h : format.Lawful limit) (records : List (Option α)) :
    ∀ (memory : Memory) (offset : ℕ), offset + records.length * format.size ≤ limit →
      AgreeOn memory Memory.zero offset (records.length * format.size) →
      format.readTable (format.writeTable memory offset records) offset records.length =
        .ok records := by
  induction records with
  | nil => exact fun _ _ _ _ ↦ rfl
  | cons slot rest ih =>
    intro memory offset hlimit hblank
    rw [List.length_cons, Nat.succ_mul] at hlimit hblank
    rw [List.length_cons, readTable]
    cases slot with
    | none =>
      have hrest := ih memory (offset + format.size) (by omega) fun position hlow hhigh ↦
        hblank position (by omega) (by omega)
      have hfirst : format.read (format.writeTable memory (offset + format.size) rest) offset =
          .ok none := by
        refine h.read_blank _ offset fun position hlow hhigh ↦ ?_
        rw [writeTable_outside h rest memory _ position (by omega)]
        exact hblank position hlow (by omega)
      rw [writeTable, hfirst, hrest]
    | some record =>
      have hrest := ih (format.write memory offset record) (offset + format.size) (by omega)
        fun position hlow hhigh ↦ by
          rw [h.write_outside memory offset record position (by omega)]
          exact hblank position (by omega) (by omega)
      have hfirst : format.read (format.writeTable (format.write memory offset record)
          (offset + format.size) rest) offset = .ok (some record) := by
        rw [← h.read_write memory offset record (by omega)]
        refine h.read_congr _ _ offset fun position hlow hhigh ↦ ?_
        exact writeTable_outside h rest _ _ position (by omega)
      rw [writeTable, hfirst, hrest]

/-- A table is read back from any memory that agrees with the written one on its run. -/
theorem readTable_of_agree (h : format.Lawful limit) (memory : Memory) {records : List (Option α)}
    {count : ℕ} (hcount : records.length = count) {memory' : Memory} {offset : ℕ}
    (hlimit : offset + count * format.size ≤ limit)
    (hblank : AgreeOn memory Memory.zero offset (count * format.size))
    (hagree : AgreeOn memory' (format.writeTable memory offset records) offset (count * format.size)) :
    format.readTable memory' offset count = .ok records := by
  subst hcount
  rw [readTable_congr h _ _ _ _ hagree]
  exact readTable_writeTable h records memory offset hlimit hblank

end RecordFormat

end Pythos.Foundation
