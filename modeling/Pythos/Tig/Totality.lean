import Pythos.Tig.Acceptance
import Pythos.Tig.Codec

/-!
# The verifier on hostile bytes

`verifyBytes_total` is the totality of the verifier: on every byte string it returns a graph or an
error, so no `expect`, index, shift or plain arithmetic operator of any pass fails and no loop runs out
of its fuel. The accessors of a package that the decoder accepted read the six sections, which lie one
after the other between the header and the end of the bytes.
-/

namespace Pythos.Tig

open Foundation

/-- Ranges that follow each other from one offset to another without a gap. -/
def Consecutive : ℕ → ℕ → List SectionRange → Prop
  | start, stop, [] => start = stop
  | start, stop, range :: rest =>
    range.start = start ∧ range.start ≤ range.stop ∧ Consecutive range.stop stop rest

/-- An accessor returns the content of a range of the bytes. -/
def ReadsRange {ε α : Type} (bytes : Bytes) (range : SectionRange) (content : α → Bytes)
    (access : Checked ε α) : Prop :=
  ∃ value, access = .ok value ∧ slice? bytes range.start range.stop = some (content value)

namespace PythGraphPackage

/-- A section of records. -/
def recordsAt (offset count recordSize : ℕ) : SectionRange := ⟨offset, offset + count * recordSize⟩

def typeRange (package : PythGraphPackage) : SectionRange :=
  recordsAt package.header.typesOffset package.header.typeCount typeRecordSize

def blockRange (package : PythGraphPackage) : SectionRange :=
  recordsAt package.header.blocksOffset package.header.blockCount blockRecordSize

def nodeRange (package : PythGraphPackage) : SectionRange :=
  recordsAt package.header.nodesOffset package.header.nodeCount nodeRecordSize

def importRange (package : PythGraphPackage) : SectionRange :=
  recordsAt package.header.importsOffset package.header.importCount importRecordSize

def constantRange (package : PythGraphPackage) : SectionRange :=
  ⟨package.header.constantPoolOffset,
    package.header.constantPoolOffset + package.header.constantPoolLen⟩

def stringRange (package : PythGraphPackage) : SectionRange :=
  ⟨package.header.stringTableOffset,
    package.header.stringTableOffset + package.header.stringTableLen⟩

/-- The sections in the order of the format. -/
def sections (package : PythGraphPackage) : List SectionRange :=
  [package.typeRange, package.blockRange, package.nodeRange, package.importRange,
    package.constantRange, package.stringRange]

theorem WellFormed.consecutive {package : PythGraphPackage} (h : package.WellFormed) :
    Consecutive headerSize package.bytes.length package.sections := by
  exact ⟨h.typesOffset_eq, Nat.le_add_right _ _, h.blocksOffset_eq, Nat.le_add_right _ _,
    h.nodesOffset_eq, Nat.le_add_right _ _, h.importsOffset_eq, Nat.le_add_right _ _,
    h.constantPoolOffset_eq, Nat.le_add_right _ _, h.stringTableOffset_eq, Nat.le_add_right _ _,
    h.length_eq.symm⟩

theorem slice?_part {package : PythGraphPackage} {start len : ℕ}
    (h : start + len ≤ package.bytes.length) :
    slice? package.bytes start (start + len) = some (package.part start len) := by
  rw [slice?_eq_some (Nat.le_add_right start len) h, Nat.add_sub_cancel_left]
  rfl

end PythGraphPackage

/-- The verifier is total on arbitrary bytes, and the accessors of a decoded package stay inside
them: each reads its section, and the six sections partition the bytes from 96 on in the order of the
format. -/
theorem verifyBytes_total (ε : Type) (bytes : Bytes) :
    ((∃ verified, verifyBytes bytes = .ok verified) ∨
        ∃ error, verifyBytes bytes = .error (.returned error)) ∧
      ∀ package, PythGraphPackage.decode bytes = .ok package →
        package.bytes = bytes ∧ Consecutive 96 bytes.length package.sections ∧
          ReadsRange bytes package.typeRange Records.bytes (package.types : Checked ε _) ∧
          ReadsRange bytes package.blockRange Records.bytes (package.blocks : Checked ε _) ∧
          ReadsRange bytes package.nodeRange Records.bytes (package.nodes : Checked ε _) ∧
          ReadsRange bytes package.importRange Records.bytes (package.imports : Checked ε _) ∧
          ReadsRange bytes package.constantRange id (package.constantPool : Checked ε _) ∧
          ReadsRange bytes package.stringRange id (package.stringTable : Checked ε _) := by
  refine ⟨(safe_verifyBytes bytes).total, fun package hdecode ↦ ?_⟩
  obtain ⟨rfl, h⟩ := (PythGraphPackage.safe_decode bytes).of_ok hdecode
  have hstrings : package.header.stringTableOffset + package.header.stringTableLen ≤
      package.bytes.length := h.length_eq.ge
  have hconstants : package.header.constantPoolOffset + package.header.constantPoolLen ≤
      package.bytes.length := by
    rw [← h.stringTableOffset_eq]
    omega
  exact ⟨rfl, h.consecutive, ⟨_, h.types_eq, PythGraphPackage.slice?_part h.types_bound⟩,
    ⟨_, h.blocks_eq, PythGraphPackage.slice?_part h.blocks_bound⟩,
    ⟨_, h.nodes_eq, PythGraphPackage.slice?_part h.nodes_bound⟩,
    ⟨_, h.imports_eq, PythGraphPackage.slice?_part h.imports_bound⟩,
    ⟨_, h.constantPool_eq, PythGraphPackage.slice?_part hconstants⟩,
    ⟨_, h.stringTable_eq, PythGraphPackage.slice?_part hstrings⟩⟩

/-- A graph that logs one line with an imported capability, with a record or a byte in each of the six
sections. -/
def logContent : PackageContent :=
  { PackageContent.of [.of 0 0 5 1]
      [.of .blockParam .capability 0 [] 0 0, .of .effectStart .effect 0 [] 0 0,
        .of .constUtf8 .utf8 0 [] 0 3, .of .systemLog .effect 0 [1, 0, 2] 0 0, .of .ret .unit 0 [] 0 0]
      [.of 0 1 0] [108, 111, 103] with
    types := [⟨PythType.utf8.code, 0, 0⟩]
    constantPool := [7] }

def logPackage : Bytes :=
  logContent.encode

theorem verifyBytes_total_logPackage :
    ∃ package, PythGraphPackage.decode logPackage = .ok package ∧
      (∀ range ∈ package.sections, range.start < range.stop) ∧
        Consecutive 96 logPackage.length package.sections := by
  have hfilled : (PythGraphPackage.decode logPackage).toOption.map (fun package ↦
      package.sections.all fun range ↦ range.start < range.stop) = some true := by decide +kernel
  cases hdecode : PythGraphPackage.decode logPackage with
  | error fault => simp [hdecode, Except.toOption] at hfilled
  | ok package =>
    refine ⟨package, rfl, ?_, ((verifyBytes_total Unit logPackage).2 package hdecode).2.1⟩
    simpa [hdecode, Except.toOption] using hfilled

end Pythos.Tig
