import Mathlib.Data.List.Basic
import Mathlib.Data.Nat.Basic
import Mathlib.Tactic.Ring
import Mathlib.Tactic.NormNum

/-!
# Byte strings, little-endian words and UTF-8

A byte string is a list of bytes. `slice?` is the checked sub-slice of the source, `leNat` and
`leBytes` are the two directions of the little-endian integer codec, `field` is the part of a run at which
a record format reads a word, and `utf8Valid` decides the well-formed UTF-8 sequences of the Unicode
standard: no overlong form, no surrogate, nothing above `U+10FFFF`.
-/

namespace Pythos.Foundation

/-- A byte string. -/
abbrev Bytes := List UInt8

/-! ### Slices -/

/-- `bytes.get(start..stop)`. -/
def slice? (bytes : Bytes) (start stop : ℕ) : Option Bytes :=
  if start ≤ stop ∧ stop ≤ bytes.length then some ((bytes.drop start).take (stop - start)) else none

variable {bytes : Bytes} {start stop : ℕ}

theorem slice?_eq_some (horder : start ≤ stop) (hbound : stop ≤ bytes.length) :
    slice? bytes start stop = some ((bytes.drop start).take (stop - start)) :=
  if_pos ⟨horder, hbound⟩

theorem slice?_isSome_iff :
    (slice? bytes start stop).isSome ↔ start ≤ stop ∧ stop ≤ bytes.length := by
  unfold slice?
  split_ifs with h
  · simp [h]
  · simp [h]

theorem length_of_slice? {part : Bytes} (h : slice? bytes start stop = some part) :
    part.length = stop - start := by
  unfold slice? at h
  split_ifs at h with hbound
  obtain rfl := Option.some.inj h
  rw [List.length_take, List.length_drop]
  omega

/-! ### Little-endian words -/

/-- The number a little-endian byte string denotes. -/
def leNat : Bytes → ℕ
  | [] => 0
  | byte :: rest => byte.toNat + 256 * leNat rest

/-- The `width` little-endian bytes of a number, modulo `256 ^ width`. -/
def leBytes : ℕ → ℕ → Bytes
  | 0, _ => []
  | width + 1, number => UInt8.ofNat number :: leBytes width (number / 256)

@[simp] theorem length_leBytes (width number : ℕ) : (leBytes width number).length = width := by
  induction width generalizing number with
  | zero => rfl
  | succ width ih => simp [leBytes, ih]

theorem leNat_lt (bytes : Bytes) : leNat bytes < 256 ^ bytes.length := by
  induction bytes with
  | nil => simp [leNat]
  | cons byte rest ih =>
    have hbyte : byte.toNat < 256 := byte.toNat_lt
    rw [leNat, List.length_cons, pow_succ]
    omega

theorem leNat_leBytes (width number : ℕ) : leNat (leBytes width number) = number % 256 ^ width := by
  induction width generalizing number with
  | zero => simp [leNat, leBytes, Nat.mod_one]
  | succ width ih =>
    have hsplit : number % 256 ^ (width + 1) =
        number % 256 + 256 * (number / 256 % 256 ^ width) := by
      rw [pow_succ, Nat.mul_comm (256 ^ width) 256, Nat.mod_mul]
    rw [leBytes, leNat, ih, UInt8.toNat_ofNat', hsplit]

theorem leNat_leBytes_of_lt {width number : ℕ} (h : number < 256 ^ width) :
    leNat (leBytes width number) = number := by
  rw [leNat_leBytes, Nat.mod_eq_of_lt h]

theorem leBytes_leNat (bytes : Bytes) : leBytes bytes.length (leNat bytes) = bytes := by
  induction bytes with
  | nil => rfl
  | cons byte rest ih =>
    have hbyte : byte.toNat < 256 := byte.toNat_lt
    have hdiv : (byte.toNat + 256 * leNat rest) / 256 = leNat rest := by omega
    have hhead : UInt8.ofNat (byte.toNat + 256 * leNat rest) = byte := by
      apply UInt8.toNat_inj.mp
      rw [UInt8.toNat_ofNat']
      omega
    rw [leNat, List.length_cons, leBytes, hdiv, ih, hhead]

/-! ### Fields -/

/-- The bytes of a run at an offset. -/
def field (bytes : Bytes) (offset width : ℕ) : Bytes := (bytes.drop offset).take width

def u16At (bytes : Bytes) (offset : ℕ) : UInt16 := UInt16.ofNat (leNat (field bytes offset 2))

def u32At (bytes : Bytes) (offset : ℕ) : UInt32 := UInt32.ofNat (leNat (field bytes offset 4))

def u64At (bytes : Bytes) (offset : ℕ) : UInt64 := UInt64.ofNat (leNat (field bytes offset 8))

def u16Bytes (value : UInt16) : Bytes := leBytes 2 value.toNat

def u32Bytes (value : UInt32) : Bytes := leBytes 4 value.toNat

def u64Bytes (value : UInt64) : Bytes := leBytes 8 value.toNat

/-- A run of zero bytes. -/
def zeros (count : ℕ) : Bytes := List.replicate count 0

@[simp] theorem length_u16Bytes (value : UInt16) : (u16Bytes value).length = 2 := length_leBytes _ _

variable {offset width : ℕ}

theorem length_field (h : offset + width ≤ bytes.length) : (field bytes offset width).length = width := by
  simp [field]
  omega

theorem u16At_eq {value : UInt16} (h : field bytes offset 2 = u16Bytes value) :
    u16At bytes offset = value := by
  rw [u16At, h, u16Bytes, leNat_leBytes_of_lt value.toNat_lt]
  exact UInt16.ofNat_toNat

theorem length_flatMap_of_length {α : Type} {size : ℕ} {encode : α → Bytes} {records : List α}
    (hsize : ∀ record ∈ records, (encode record).length = size) :
    (records.flatMap encode).length = records.length * size := by
  induction records with
  | nil => simp
  | cons record records ih =>
    rw [List.flatMap_cons, List.length_append, hsize record List.mem_cons_self,
      ih fun other hother ↦ hsize other (List.mem_cons_of_mem _ hother), List.length_cons]
    ring

/-! ### UTF-8 -/

/-- A continuation byte, `80..=BF`. -/
def isContinuation (byte : UInt8) : Bool :=
  0x80 ≤ byte.toNat && byte.toNat ≤ 0xBF

/-- The second byte of a three-byte sequence with this first byte: `E0` excludes overlong forms and
`ED` excludes surrogates. -/
def secondOfThree (first second : UInt8) : Bool :=
  if first.toNat = 0xE0 then 0xA0 ≤ second.toNat && second.toNat ≤ 0xBF
  else if first.toNat = 0xED then 0x80 ≤ second.toNat && second.toNat ≤ 0x9F
  else isContinuation second

/-- The second byte of a four-byte sequence with this first byte: `F0` excludes overlong forms and
`F4` excludes code points above `U+10FFFF`. -/
def secondOfFour (first second : UInt8) : Bool :=
  if first.toNat = 0xF0 then 0x90 ≤ second.toNat && second.toNat ≤ 0xBF
  else if first.toNat = 0xF4 then 0x80 ≤ second.toNat && second.toNat ≤ 0x8F
  else isContinuation second

/-- `core::str::from_utf8(bytes).is_ok()`, with the length of the input as fuel. -/
def utf8ValidFrom : ℕ → Bytes → Bool
  | 0, bytes => bytes.isEmpty
  | _ + 1, [] => true
  | fuel + 1, first :: rest =>
    if first.toNat < 0x80 then utf8ValidFrom fuel rest
    else if 0xC2 ≤ first.toNat ∧ first.toNat ≤ 0xDF then
      match rest with
      | second :: tail => isContinuation second && utf8ValidFrom fuel tail
      | _ => false
    else if 0xE0 ≤ first.toNat ∧ first.toNat ≤ 0xEF then
      match rest with
      | second :: third :: tail =>
        secondOfThree first second && isContinuation third && utf8ValidFrom fuel tail
      | _ => false
    else if 0xF0 ≤ first.toNat ∧ first.toNat ≤ 0xF4 then
      match rest with
      | second :: third :: fourth :: tail =>
        secondOfFour first second && isContinuation third && isContinuation fourth &&
          utf8ValidFrom fuel tail
      | _ => false
    else false

/-- `core::str::from_utf8(bytes).is_ok()`. -/
def utf8Valid (bytes : Bytes) : Bool :=
  utf8ValidFrom bytes.length bytes

example : utf8Valid [0xC3, 0xA9, 0x41] = true ∧ utf8Valid [0xED, 0xA0, 0x80] = false := by decide

end Pythos.Foundation
