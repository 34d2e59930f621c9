import Pythos.Foundation.Bytes

/-!
# The line editor of the shell

The editor keeps the bytes of one line and hands the line over when it ends. A line that has more than 96
bytes is rejected as a whole, and the LF of a CRLF ends no second line. The results are those of the lines
that were typed, each edited on its own (`results_eq`).
-/

namespace Pythos.Shell

open Foundation

def maxLineLen : ℕ := 96

inductive LineAction
  | none
  | echo (byte : UInt8)
  | erase
  | execute (line : Bytes) (len : ℕ)
  | rejectOverflow
  deriving DecidableEq, Repr

/-- The line is an array of `maxLineLen` bytes. -/
structure LineEditor where
  line : Bytes
  len : ℕ
  overflowed : Bool
  suppressNextLf : Bool
  deriving DecidableEq, Repr

def lf : UInt8 := 0x0A
def cr : UInt8 := 0x0D

/-- CR and LF end a line. -/
def endsLine (byte : UInt8) : Bool := byte = cr ∨ byte = lf

/-- Backspace and delete. -/
def erases (byte : UInt8) : Bool := byte = 0x08 ∨ byte = 0x7F

namespace LineEditor

def new : LineEditor := ⟨zeros maxLineLen, 0, false, false⟩

def reset (editor : LineEditor) : LineEditor :=
  { editor with line := zeros maxLineLen, len := 0, overflowed := false }

def input (editor : LineEditor) (byte : UInt8) : LineAction × LineEditor :=
  if editor.suppressNextLf ∧ byte = lf then (.none, { editor with suppressNextLf := false })
  else
    let editor := { editor with suppressNextLf := false }
    if endsLine byte then
      (if editor.overflowed then .rejectOverflow else .execute editor.line editor.len,
        { editor.reset with suppressNextLf := byte = cr })
    else if erases byte then
      if editor.overflowed ∨ editor.len = 0 then (.none, editor)
      else (.erase, { editor with line := editor.line.set (editor.len - 1) 0, len := editor.len - 1 })
    else if editor.overflowed then (.none, editor)
    else if editor.len = maxLineLen then (.none, { editor with overflowed := true })
    else (.echo byte, { editor with line := editor.line.set editor.len byte, len := editor.len + 1 })

/-- The actions for a sequence of bytes. -/
def actions : LineEditor → Bytes → List LineAction
  | _, [] => []
  | editor, byte :: rest => (editor.input byte).1 :: actions (editor.input byte).2 rest

end LineEditor

def LineAction.isResult : LineAction → Bool
  | .execute .. | .rejectOverflow => true
  | _ => false

/-- The results of a fresh editor. -/
def results (bytes : Bytes) : List LineAction := (LineEditor.new.actions bytes).filter (·.isResult)

/-! ### What was typed -/

/-- The bytes without the LF of each CRLF, behind a previous byte. -/
def withoutPairs (previous : UInt8) : Bytes → Bytes
  | [] => []
  | byte :: rest =>
    if previous = cr ∧ byte = lf then withoutPairs byte rest else byte :: withoutPairs byte rest

/-- The lines that CR, LF or CRLF ended. -/
def typedLines (bytes : Bytes) : List Bytes := ((withoutPairs 0 bytes).splitOnP endsLine).dropLast

/-- A byte of a line is kept or erases the last kept one; one more than `maxLineLen` bytes spoil the line. -/
def edit (kept : Option Bytes) (byte : UInt8) : Option Bytes :=
  kept.bind fun kept ↦
    if erases byte then some kept.dropLast else if kept.length = maxLineLen then none else some (kept ++ [byte])

/-- The bytes kept of a line, unless it is spoilt. -/
def edited (line : Bytes) : Option Bytes := line.foldl edit (some [])

/-- The kept bytes in the array of the editor. -/
def padded (kept : Bytes) : Bytes := kept ++ zeros (maxLineLen - kept.length)

def resultOf (line : Bytes) : LineAction :=
  match edited line with
  | some kept => .execute (padded kept) kept.length
  | none => .rejectOverflow

/-! ### The editor keeps the line -/

/-- The editor behind the bytes of an unfinished line, of which `previous` is the last or the end of the line
before. -/
structure Tracks (editor : LineEditor) (line : Bytes) (previous : UInt8) : Prop where
  suppress : editor.suppressNextLf = decide (previous = cr)
  overflowed : editor.overflowed = (edited line).isNone
  kept : ∀ kept, edited line = some kept →
    kept.length ≤ maxLineLen ∧ editor.line = padded kept ∧ editor.len = kept.length

section Padded

variable {kept : Bytes} (h : kept.length < maxLineLen)

include h

theorem padded_eq : padded kept = kept ++ 0 :: zeros (maxLineLen - (kept.length + 1)) := by
  have hroom : maxLineLen - kept.length = maxLineLen - (kept.length + 1) + 1 := by omega
  rw [padded, hroom]
  rfl

theorem padded_set (byte : UInt8) : (padded kept).set kept.length byte = padded (kept ++ [byte]) := by
  rw [padded_eq h]
  simp [padded]

theorem padded_erase (byte : UInt8) : (padded (kept ++ [byte])).set kept.length 0 = padded kept := by
  rw [padded_eq h]
  simp [padded]

end Padded

theorem edited_concat (line : Bytes) (byte : UInt8) : edited (line ++ [byte]) = edit (edited line) byte :=
  List.foldl_concat ..

section Input

variable {editor : LineEditor} {line : Bytes} {previous byte : UInt8} (h : Tracks editor line previous)

include h

/-- The end of a line gives its result. -/
theorem Tracks.ends (hpair : ¬ (previous = cr ∧ byte = lf)) (hend : endsLine byte = true) :
    (editor.input byte).1 = resultOf line ∧ Tracks (editor.input byte).2 [] byte := by
  rw [LineEditor.input, if_neg (by simpa [h.suppress] using hpair), if_pos hend]
  refine ⟨?_, rfl, rfl, ?_⟩
  · rw [resultOf]
    cases hkept : edited line with
    | none => simp [h.overflowed, hkept]
    | some kept =>
      obtain ⟨-, hline, hlen⟩ := h.kept kept hkept
      simp [h.overflowed, hkept, hline, hlen]
  · rintro _ ⟨⟩
    exact ⟨Nat.zero_le _, rfl, rfl⟩

/-- Another byte edits the line. -/
theorem Tracks.edits (hend : endsLine byte = false) :
    (editor.input byte).1.isResult = false ∧ Tracks (editor.input byte).2 (line ++ [byte]) byte := by
  obtain ⟨hcr, hlf⟩ : byte ≠ cr ∧ byte ≠ lf := by simpa [endsLine] using hend
  have hedited := edited_concat line byte
  rw [LineEditor.input, if_neg (fun hpair ↦ hlf hpair.2), if_neg (by simp [hend])]
  cases hkept : edited line with
  | none =>
    have hspoilt : edited (line ++ [byte]) = none := by rw [hedited, hkept]; rfl
    have hover : editor.overflowed = true := by rw [h.overflowed, hkept]; rfl
    simp only [hover, true_or, if_true, ite_self]
    exact ⟨rfl, by simp [hcr], by simp [hspoilt], by simp [hspoilt]⟩
  | some kept =>
    obtain ⟨hle, hline, hlen⟩ := h.kept kept hkept
    have hover : editor.overflowed = false := by rw [h.overflowed, hkept]; rfl
    simp only [hkept, edit, Option.bind_some] at hedited
    simp only [hover, Bool.false_eq_true, false_or, if_false, hline, hlen, List.length_eq_zero_iff]
    split_ifs at hedited ⊢ with herases hempty hfull
    · exact ⟨rfl, by simp [hcr], by simp [hedited], by simp [hedited, hempty, padded]⟩
    · obtain ⟨front, last, rfl⟩ := (List.eq_nil_or_concat kept).resolve_left hempty
      simp only [List.concat_eq_append, List.length_append, List.length_singleton] at hle hedited ⊢
      rw [List.dropLast_concat] at hedited
      exact ⟨rfl, by simp [hcr], by simp [hedited], by simp [hedited, padded_erase hle]; omega⟩
    · exact ⟨rfl, by simp [hcr], by simp [hedited], by simp [hedited]⟩
    · have hlt : kept.length < maxLineLen := lt_of_le_of_ne hle hfull
      exact ⟨rfl, by simp [hcr], by simp [hedited], by simp [hedited, padded_set hlt]; omega⟩

end Input

theorem filter_actions {editor : LineEditor} {line : Bytes} {previous : UInt8}
    (h : Tracks editor line previous) (bytes : Bytes) :
    (editor.actions bytes).filter (·.isResult) =
      (((withoutPairs previous bytes).splitOnPPrepend endsLine line.reverse).dropLast).map resultOf := by
  induction bytes generalizing editor line previous with
  | nil => rfl
  | cons byte rest ih =>
    rw [LineEditor.actions, withoutPairs, List.filter_cons]
    by_cases hpair : previous = cr ∧ byte = lf
    · have hinput : editor.input byte = (.none, { editor with suppressNextLf := false }) := by
        rw [LineEditor.input, h.suppress, if_pos (by simpa using hpair)]
      rw [if_pos hpair, hinput]
      exact ih ⟨by rw [hpair.2]; rfl, h.overflowed, h.kept⟩
    · rw [if_neg hpair, List.splitOnPPrepend_cons_eq_if]
      cases hend : endsLine byte with
      | true =>
        obtain ⟨hresult, htracks⟩ := h.ends hpair hend
        have hisResult : (resultOf line).isResult = true := by
          rw [resultOf]
          split <;> rfl
        rw [hresult, if_pos hisResult, if_pos rfl, ih htracks, List.reverse_reverse,
          List.dropLast_cons_of_ne_nil (List.splitOnP_ne_nil _ _)]
        rfl
      | false =>
        obtain ⟨hresult, htracks⟩ := h.edits hend
        rw [hresult, if_neg Bool.false_ne_true, if_neg Bool.false_ne_true, ih htracks, List.reverse_concat]

/-- The results of an editor are those of the typed lines: each is the line's own kept bytes, with zeros behind
them in the array, or the rejection of a line with too many bytes. -/
theorem results_eq (bytes : Bytes) : results bytes = (typedLines bytes).map resultOf := by
  have hnew : Tracks .new [] 0 := by
    refine ⟨rfl, rfl, ?_⟩
    rintro _ ⟨⟩
    exact ⟨Nat.zero_le _, rfl, rfl⟩
  exact filter_actions hnew bytes

end Pythos.Shell
