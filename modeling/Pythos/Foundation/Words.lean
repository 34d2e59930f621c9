import Pythos.Foundation.Bytes

/-!
# Runs of words

A record of fixed layout is a run of little-endian words. `words` reads a run by the widths of its words, and
`unwords` writes them one after the other; each undoes the other on runs of the right length and on words of
their widths (`unwords_words`, `words_unwords`).

A `WordFormat` is the layout of a type of records: the widths, and the words of a record, from which the record
is known. Encoding is injective on the records whose words fit (`WordFormat.encode_inj`), and so is the
concatenation of the encodings of as many records (`WordFormat.encodeAll_inj`).
-/

namespace Pythos.Foundation

/-- The words of a run, by their widths. -/
def words : List ℕ → Bytes → List ℕ
  | [], _ => []
  | width :: widths, bytes => leNat (bytes.take width) :: words widths (bytes.drop width)

/-- The run of the words, by their widths. -/
def unwords : List ℕ → List ℕ → Bytes
  | width :: widths, value :: values => leBytes width value ++ unwords widths values
  | _, _ => []

/-- Every value is a word of its width. -/
abbrev WordsFit (widths values : List ℕ) : Prop :=
  List.Forall₂ (fun width value ↦ value < 256 ^ width) widths values

theorem length_unwords {widths values : List ℕ} (h : values.length = widths.length) :
    (unwords widths values).length = widths.sum := by
  induction widths generalizing values with
  | nil => simp [unwords]
  | cons width widths ih =>
    cases values with
    | nil => simp at h
    | cons value values => simp [unwords, ih (Nat.succ.inj h)]

/-- The words that are read fit. -/
theorem wordsFit_words (widths : List ℕ) (bytes : Bytes) : WordsFit widths (words widths bytes) := by
  induction widths generalizing bytes with
  | nil => exact .nil
  | cons width widths ih =>
    refine .cons (lt_of_lt_of_le (leNat_lt _) ?_) (ih _)
    exact Nat.pow_le_pow_right (by decide) (List.length_take_le _ _)

/-- Writing the words that were read gives the run back. -/
theorem unwords_words {widths : List ℕ} {bytes : Bytes} (h : bytes.length = widths.sum) :
    unwords widths (words widths bytes) = bytes := by
  induction widths generalizing bytes with
  | nil => exact (List.length_eq_zero_iff.mp h).symm
  | cons width widths ih =>
    rw [List.sum_cons] at h
    have htake : (bytes.take width).length = width := by rw [List.length_take]; omega
    have hword := leBytes_leNat (bytes.take width)
    rw [htake] at hword
    rw [words, unwords, hword, ih (by rw [List.length_drop]; omega), List.take_append_drop]

/-- Reading a run gives the words that were written, when they fit. -/
theorem words_unwords {widths values : List ℕ} (h : WordsFit widths values) :
    words widths (unwords widths values) = values := by
  induction h with
  | nil => rfl
  | @cons width value widths values hfit _ ih =>
    have hlength := length_leBytes width value
    rw [unwords, words, List.take_left' hlength, List.drop_left' hlength, leNat_leBytes_of_lt hfit, ih]

/-! ### Record formats -/

/-- The layout of a type of records: the widths of the words and the words of a record. -/
structure WordFormat (α : Type) where
  widths : List ℕ
  toWords : α → List ℕ
  length_toWords : ∀ record, (toWords record).length = widths.length
  toWords_injective : Function.Injective toWords

namespace WordFormat

variable {α : Type} (format : WordFormat α)

def size : ℕ := format.widths.sum

def encode (record : α) : Bytes := unwords format.widths (format.toWords record)

/-- The words of the record are words of their widths. -/
def Fits (record : α) : Prop := WordsFit format.widths (format.toWords record)

@[simp] theorem length_encode (record : α) : (format.encode record).length = format.size :=
  length_unwords (format.length_toWords record)

variable {format}

theorem encode_inj {first second : α} (hfirst : format.Fits first) (hsecond : format.Fits second)
    (h : format.encode first = format.encode second) : first = second := by
  have hwords := congrArg (words format.widths) h
  rw [encode, encode, words_unwords hfirst, words_unwords hsecond] at hwords
  exact format.toWords_injective hwords

/-- The concatenation of the encodings determines the records. -/
theorem encodeAll_inj {first second : List α} (hlength : first.length = second.length)
    (hfirst : ∀ record ∈ first, format.Fits record) (hsecond : ∀ record ∈ second, format.Fits record)
    (h : first.flatMap format.encode = second.flatMap format.encode) : first = second := by
  induction first generalizing second with
  | nil => exact (List.length_eq_zero_iff.mp hlength.symm).symm
  | cons head rest ih =>
    cases second with
    | nil => simp at hlength
    | cons head' rest' =>
      rw [List.flatMap_cons, List.flatMap_cons] at h
      obtain ⟨hhead, hrest⟩ := List.append_inj h (by rw [length_encode, length_encode])
      rw [encode_inj (hfirst head List.mem_cons_self) (hsecond head' List.mem_cons_self) hhead,
        ih (Nat.succ.inj hlength) (fun record hrecord ↦ hfirst record (List.mem_cons_of_mem _ hrecord))
          (fun record hrecord ↦ hsecond record (List.mem_cons_of_mem _ hrecord)) hrest]

/-- The run was read as the record. -/
def Reads (format : WordFormat α) (part : Bytes) (record : α) : Prop :=
  format.toWords record = words format.widths part

theorem Reads.fits {part : Bytes} {record : α} (h : format.Reads part record) : format.Fits record := by
  rw [Fits, h]
  exact wordsFit_words _ _

/-- A run is the encoding of the record it was read as. -/
theorem Reads.encode_eq {part : Bytes} {record : α} (h : format.Reads part record)
    (hlength : part.length = format.size) : format.encode record = part := by
  rw [encode, h]
  exact unwords_words hlength

end WordFormat

/-! ### Cutting a byte string into runs -/

/-- A byte string is the concatenation of its runs of one size. -/
theorem flatMap_field_range (bytes : Bytes) (size : ℕ) :
    ∀ count, bytes.length = count * size →
      (List.range count).flatMap (fun index ↦ field bytes (index * size) size) = bytes := by
  intro count
  induction count generalizing bytes with
  | zero =>
    intro h
    rw [Nat.zero_mul] at h
    simp [List.length_eq_zero_iff.mp h]
  | succ count ih =>
    intro h
    rw [Nat.succ_mul] at h
    have hrest := ih (bytes.drop size) (by rw [List.length_drop]; omega)
    rw [List.range_succ_eq_map, List.flatMap_cons, List.flatMap_map]
    have hshift : ∀ index, field bytes (Nat.succ index * size) size =
        field (bytes.drop size) (index * size) size := by
      intro index
      rw [field, field, List.drop_drop, Nat.succ_mul, Nat.add_comm]
    simp only [hshift, hrest]
    simp [field]

end Pythos.Foundation
