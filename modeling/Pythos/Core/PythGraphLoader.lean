import Pythos.Core.TaskService
import Pythos.Shared.InitBundle
import Pythos.Tig.Acceptance
import Pythos.Tig.Codec

/-!
# Loading a named graph

The loader reads every graph manifest of the boot bundle, refuses two manifests with one name or one
principal, and verifies the package of the manifest with the name it was asked for. The launcher takes the
principal of the graph from the manifest: it decides which process runs the graph, and whether that process is
the task steward's.

The package has a principal of its own, in its header. No parser compares the two. A graph runs under the
principal its package declares exactly when the record it was loaded from carries one principal in both places
(`principalId_eq_iff`).
-/

namespace Pythos.Core

open Foundation Shared Tig

inductive PythGraphLoadError
  | badInitPak
  | badInitBundle
  | badGraphPayload
  | missingGraphPayload
  | duplicateGraphName
  | duplicateGraphPrincipal
  | unsupportedPhase2Opcode (node opcode : ℕ)
  | unsupportedPhase2ControlFlow (block target : ℕ)
  | verify (error : VerifyError)
  deriving DecidableEq, Repr

/-- The computations of the loader. -/
abbrev Load : Type → Type := Checked PythGraphLoadError

structure LoadedPythGraph where
  manifest : NamedPythGraphManifest
  verified : VerifiedGraph

/-- `u32::MAX`. -/
def noTarget : ℕ := 0xFFFFFFFF

/-! ### The runtime profile -/

/-- A jump of the profile passes no values to a block without parameters. -/
def validateTerminator (blocks : Records BlockRecord) (nodes : Records NodeRecord) (block : BlockRecord) :
    Load Unit := do
  let terminator ← okOr (.unsupportedPhase2ControlFlow block.blockId noTarget)
    (nodes.get block.terminatorNode)
  if Opcode.ofCode terminator.opcode = some .jump then
    let target := terminator.auxiliary0
    let targetBlock ← okOr (.unsupportedPhase2ControlFlow block.blockId target) (blocks.get target)
    reject (targetBlock.parameterCount ≠ 0 ∨ terminator.inputs.any (· ≠ noValue))
      (.unsupportedPhase2ControlFlow block.blockId target)

/-- The opcodes and result types of the profile. -/
def phase2Supported (node : NodeRecord) : Bool :=
  match Opcode.ofCode node.opcode with
  | some .blockParam => PythType.ofCode node.resultType = some .capability
  | some .constU64 =>
    match PythType.ofCode node.resultType with
    | some .objectId | some .revisionId | some .taskId | some .proposalId | some .errorCode
    | some .u64 => true
    | _ => false
  | some .effectStart | some .constBytes | some .constUtf8 | some .hostResult | some .eq
  | some .lessThanU64 | some .systemLog | some .objectCreate | some .objectQuery | some .objectInspect
  | some .objectRevise | some .objectHistory | some .taskContextRead | some .taskProposalEmit
  | some .commandRead | some .commandResultEmit | some .branch | some .jump | some .ret => true
  | _ => false

def validatePhase2RuntimeProfile (verified : VerifiedGraph) : Load Unit := do
  let blocks ← verified.package.blocks
  let nodes ← verified.package.nodes
  forEach blocks.iter () fun _ _ block ↦ validateTerminator blocks nodes block
  forEach nodes.iter () fun _ nodeIndex node ↦
    reject (¬ phase2Supported node) (.unsupportedPhase2Opcode nodeIndex node.opcode)

/-! ### The manifests of a bundle -/

def maxNamedGraphRecords : ℕ := 8

/-- The names and principals of the manifests seen so far. -/
structure NamedGraphPolicy where
  observed : List (Bytes × ℕ)

namespace NamedGraphPolicy

def empty : NamedGraphPolicy where
  observed := []

def observe (policy : NamedGraphPolicy) (manifest : NamedPythGraphManifest) : Load NamedGraphPolicy := do
  forEach policy.observed () fun _ _ entry ↦ do
    reject (entry.1 = manifest.name) .duplicateGraphName
    reject (entry.2 = manifest.principalId) .duplicateGraphPrincipal
  reject (policy.observed.length ≥ maxNamedGraphRecords) .badInitBundle
  pure { observed := policy.observed ++ [(manifest.name, manifest.principalId)] }

end NamedGraphPolicy

/-- `.map_err(change)`. -/
def mapErr {ε ε' α : Type} (change : ε → ε') : Checked ε α → Checked ε' α
  | .ok value => .ok value
  | .error (.returned error) => .error (.returned (change error))
  | .error .panicked => .error .panicked
  | .error .diverged => .error .diverged

def initPakPayload (bytes : Bytes) : Load Bytes := do
  let header ← mapErr (fun _ ↦ .badInitPak) (InitPak.validate bytes)
  let payloadEnd ← checkedAdd .badInitPak header.headerLen header.payloadLen
  okOr .badInitPak (slice? bytes header.headerLen payloadEnd)

/-- The loop over the graph records of the bundle from an index on. It ends at the first index without a
record, so that a bound above the number of records is never used up. -/
def selectFrom (bundle : InitBundle) (name : Bytes) :
    ℕ → ℕ → NamedGraphPolicy → Option NamedPythGraphManifest → Load (Option NamedPythGraphManifest)
  | 0, _, _, _ => .error .diverged
  | bound + 1, index, policy, selected =>
    match bundle.recordAt .pythGraphPackage index with
    | none => pure selected
    | some record => do
      let manifest ← mapErr (fun _ ↦ .badGraphPayload) (validateNamedPythGraph record.bytes)
      let policy ← policy.observe manifest
      selectFrom bundle name bound (index + 1) policy
        (if manifest.name = name then some manifest else selected)

def validateNamedPythGraphPayloadBytesWithProfile (bytes name : Bytes) (enforceRuntimeProfile : Bool) :
    Load LoadedPythGraph := do
  let payload ← initPakPayload bytes
  let bundle ← mapErr (fun _ ↦ .badInitBundle) (InitBundle.validate payload)
  let selected ← selectFrom bundle name (bundle.records.length + 1) 0 .empty none
  let manifest ← okOr .missingGraphPayload selected
  let verified ← mapErr .verify (verifyBytes manifest.package)
  if enforceRuntimeProfile then validatePhase2RuntimeProfile verified
  pure { manifest, verified }

def validateNamedPythGraphPayloadBytes (bytes name : Bytes) : Load LoadedPythGraph :=
  validateNamedPythGraphPayloadBytesWithProfile bytes name true

def validateNamedPythGraphPayloadBytesForAdmission (bytes name : Bytes) : Load LoadedPythGraph :=
  validateNamedPythGraphPayloadBytesWithProfile bytes name false

/-! ### The identity a graph is launched under -/

/-- `b"task-steward.tig"`. -/
def taskStewardGraphName : Bytes :=
  [0x74, 0x61, 0x73, 0x6B, 0x2D, 0x73, 0x74, 0x65, 0x77, 0x61, 0x72, 0x64, 0x2E, 0x74, 0x69, 0x67]

def taskStewardGraphPrincipalId : UInt64 := 0x5059544853540001
def pythRuntimePrincipalId : UInt64 := 0x5059544852540001
def pythGraphRuntimeServiceId : ServiceId := ⟨0x5059544752540001⟩

def pythGraphRuntimeProcess (runtimePrincipalId runtimeProgramDigest graphPrincipalId : UInt64) :
    TaskCaller :=
  if graphPrincipalId = taskStewardGraphPrincipalId then stewardProcess
  else
    { process := { serviceId := pythGraphRuntimeServiceId, principalId := runtimePrincipalId
                   programDigest := runtimeProgramDigest }
      copyMap := [] }

/-! ### What the loader has read -/

variable {α : Type} {name : Bytes} {manifest : NamedPythGraphManifest} {bytes : Bytes}

theorem mapErr_eq_ok_iff {ε ε' : Type} {change : ε → ε'} {x : Checked ε α} {value : α} :
    mapErr change x = .ok value ↔ x = .ok value := by
  cases x with
  | ok other => simp [mapErr]
  | error fault => cases fault <;> simp [mapErr]

theorem safe_mapErr {ε ε' : Type} {change : ε → ε'} {x : Checked ε α} {post : α → Prop}
    (h : Safe x post) : Safe (mapErr change x) post := by
  cases x with
  | ok value => exact h
  | error fault =>
    cases fault with
    | returned error => trivial
    | panicked => exact h
    | diverged => exact h

/-- A manifest passes the policy when its name and its principal are new. -/
theorem NamedGraphPolicy.safe_observe (policy : NamedGraphPolicy) (manifest : NamedPythGraphManifest) :
    Safe (policy.observe manifest) fun next ↦
      next.observed = policy.observed ++ [(manifest.name, manifest.principalId)] ∧
        ∀ entry ∈ policy.observed, entry.1 ≠ manifest.name ∧ entry.2 ≠ manifest.principalId := by
  refine safe_bind (safe_forEach_check fun _ entry _ ↦ safe_reject_bind fun hname ↦
    safe_reject.mpr fun hprincipal ↦ (⟨hname, hprincipal⟩ :
      entry.1 ≠ manifest.name ∧ entry.2 ≠ manifest.principalId)) fun _ hfresh ↦ ?_
  refine safe_reject_bind fun _ ↦ ⟨rfl, fun entry hentry ↦ ?_⟩
  obtain ⟨position, hposition⟩ := List.mem_iff_getElem?.mp hentry
  exact hfresh position entry hposition

/-- The manifests of the first records, with the policy and the selection after them. -/
structure Observed (records : List InitBundle.Record) (name : Bytes)
    (manifests : List NamedPythGraphManifest) (policy : NamedGraphPolicy)
    (selected : Option NamedPythGraphManifest) : Prop where
  read : List.Forall₂ (fun record manifest ↦ manifest.ReadFrom record.bytes) records manifests
  policy : policy.observed = manifests.map fun manifest ↦ (manifest.name, manifest.principalId)
  names : (manifests.map (·.name)).Nodup
  principals : (manifests.map (·.principalId)).Nodup
  selected : ∀ manifest, selected = some manifest ↔ manifest ∈ manifests ∧ manifest.name = name

theorem Observed.empty (name : Bytes) : Observed [] name [] .empty none :=
  ⟨.nil, rfl, List.nodup_nil, List.nodup_nil, by simp⟩

/-- One more manifest with a new name and a new principal. -/
theorem Observed.snoc {records : List InitBundle.Record} {manifests : List NamedPythGraphManifest}
    {policy next : NamedGraphPolicy} {selected : Option NamedPythGraphManifest}
    (h : Observed records name manifests policy selected) {record : InitBundle.Record}
    (hread : manifest.ReadFrom record.bytes)
    (hnext : next.observed = policy.observed ++ [(manifest.name, manifest.principalId)])
    (hfresh : ∀ entry ∈ policy.observed, entry.1 ≠ manifest.name ∧ entry.2 ≠ manifest.principalId) :
    Observed (records ++ [record]) name (manifests ++ [manifest]) next
      (if manifest.name = name then some manifest else selected) := by
  have hnew : ∀ earlier ∈ manifests, earlier.name ≠ manifest.name ∧
      earlier.principalId ≠ manifest.principalId := by
    intro earlier hearlier
    refine hfresh (earlier.name, earlier.principalId) ?_
    rw [h.policy]
    exact List.mem_map.mpr ⟨earlier, hearlier, rfl⟩
  refine ⟨List.rel_append h.read (.cons hread .nil), ?_, ?_, ?_, fun other ↦ ?_⟩
  · rw [hnext, h.policy, List.map_append]
    rfl
  · rw [List.map_append, List.map_singleton, List.nodup_append]
    refine ⟨h.names, List.nodup_singleton _, ?_⟩
    rintro _ hmem _ hlast rfl
    obtain ⟨earlier, hearlier, hname⟩ := List.mem_map.mp hmem
    exact (hnew earlier hearlier).1 (hname.trans (List.mem_singleton.mp hlast))
  · rw [List.map_append, List.map_singleton, List.nodup_append]
    refine ⟨h.principals, List.nodup_singleton _, ?_⟩
    rintro _ hmem _ hlast rfl
    obtain ⟨earlier, hearlier, hprincipal⟩ := List.mem_map.mp hmem
    exact (hnew earlier hearlier).2 (hprincipal.trans (List.mem_singleton.mp hlast))
  · rw [List.mem_append, List.mem_singleton]
    split_ifs with hname
    · -- The earlier manifests have other names, so only the new one is selected.
      constructor
      · intro hsome
        obtain rfl := Option.some.inj hsome
        exact ⟨Or.inr rfl, hname⟩
      · rintro ⟨hmem | rfl, hother⟩
        · exact absurd (hother.trans hname.symm) (hnew other hmem).1
        · rfl
    · rw [h.selected]
      constructor
      · rintro ⟨hmem, hother⟩
        exact ⟨Or.inl hmem, hother⟩
      · rintro ⟨hmem | rfl, hother⟩
        · exact ⟨hmem, hother⟩
        · exact absurd hother hname

/-- The loop reads every graph record of the bundle, and its bound is not used up. -/
theorem safe_selectFrom (bundle : InitBundle) (name : Bytes) :
    ∀ (bound index : ℕ) (manifests : List NamedPythGraphManifest) (policy : NamedGraphPolicy)
      (selected : Option NamedPythGraphManifest),
      index ≤ (bundle.recordsOf .pythGraphPackage).length →
      (bundle.recordsOf .pythGraphPackage).length < index + bound →
      Observed ((bundle.recordsOf .pythGraphPackage).take index) name manifests policy selected →
      Safe (selectFrom bundle name bound index policy selected) fun result ↦ ∃ manifests policy,
        Observed (bundle.recordsOf .pythGraphPackage) name manifests policy result := by
  intro bound
  induction bound with
  | zero =>
    intro index _ _ _ hle hlt _
    omega
  | succ bound ih =>
    intro index manifests policy selected hle hlt hobserved
    rw [selectFrom]
    split
    · rename_i hnone
      rw [InitBundle.recordAt_eq, List.getElem?_eq_none_iff] at hnone
      rw [List.take_of_length_le hnone] at hobserved
      exact ⟨manifests, policy, hobserved⟩
    · rename_i record hsome
      rw [InitBundle.recordAt_eq] at hsome
      have hindex := (List.getElem?_eq_some_iff.mp hsome).1
      refine safe_bind (safe_mapErr (safe_validateNamedPythGraph record.bytes)) fun manifest hread ↦ ?_
      refine safe_bind (policy.safe_observe manifest) fun next hnext ↦ ?_
      refine ih (index + 1) (manifests ++ [manifest]) next _ (by omega) (by omega) ?_
      rw [List.take_add_one, hsome]
      exact hobserved.snoc hread hnext.1 hnext.2

/-! ### The two principals of a graph -/

/-- The graph records of the bundle inside the package. -/
def graphRecords (bytes : Bytes) : List Bytes :=
  match (do
    let payload ← initPakPayload bytes
    mapErr (fun _ ↦ PythGraphLoadError.badInitBundle) (InitBundle.validate payload) : Load InitBundle) with
  | .ok bundle => (bundle.recordsOf .pythGraphPackage).map (·.bytes)
  | .error _ => []

/-- The record is a manifest for the name. -/
def RecordNamed (name record : Bytes) : Prop :=
  wordAt record 2 12 = some name.length ∧
    slice? record namedPythGraphHeaderLen (namedPythGraphHeaderLen + name.length) = some name

/-- The record of the name carries one principal: the word of the manifest at byte 16 is the word of the
package at byte 24. -/
def DeclaresOnePrincipal (bytes name : Bytes) : Prop :=
  ∀ record ∈ graphRecords bytes, RecordNamed name record →
    wordAt record 8 16 = wordAt record 8 (namedPythGraphHeaderLen + name.length + 24)

/-- A word of a slice to the end is a word of the whole. -/
theorem wordAt_of_slice {part : Bytes} {start width offset : ℕ}
    (h : slice? bytes start bytes.length = some part) (hbound : offset + width ≤ part.length) :
    wordAt bytes width (start + offset) = wordAt part width offset := by
  have hlength := length_of_slice? h
  have hstart : start ≤ bytes.length :=
    (slice?_isSome_iff.mp (Option.isSome_iff_exists.mpr ⟨part, h⟩)).1
  rw [slice?_eq_some hstart le_rfl, Option.some_inj] at h
  rw [wordAt, wordAt, slice?_eq_some (by omega) (by omega), slice?_eq_some (by omega) hbound, ← h]
  simp only [List.drop_take, List.take_take, List.drop_drop]
  congr 3
  omega

/-- The principal of a verified package is the word at byte 24. -/
theorem wordAt_principalId {package : Bytes} {verified : VerifiedGraph}
    (h : verifyBytes package = .ok verified) :
    wordAt package 8 24 = some verified.package.header.principalId ∧ 96 ≤ package.length := by
  have hdecode := decode_of_verifyBytes h
  have hwell := (PythGraphPackage.safe_decode package).of_ok hdecode
  have hread := ((PythGraphPackage.safe_decode_sealed package).of_ok hdecode).readFrom.front_eq
  have hlong : 96 ≤ package.length := hwell.1 ▸ hwell.2.headerSize_le
  refine ⟨?_, hlong⟩
  rw [hwell.1] at hread
  simp only [PythGraphHeader.frontWords, frontWidths, words, List.cons.injEq] at hread
  rw [hread.2.2.2.2.1, wordAt, slice?_eq_some (by omega) (by omega)]
  simp [field, List.drop_take, List.take_take]

theorem exists_right_of_mem {β : Type} {related : α → β → Prop} {left : List α} {right : List β}
    (h : List.Forall₂ related left right) {item : α} (hitem : item ∈ left) :
    ∃ other ∈ right, related item other := by
  induction h with
  | nil => exact absurd hitem List.not_mem_nil
  | cons hhead _ ih =>
    rcases List.mem_cons.mp hitem with rfl | hrest
    · exact ⟨_, List.mem_cons_self, hhead⟩
    · obtain ⟨other, hother, hrelated⟩ := ih hrest
      exact ⟨other, List.mem_cons_of_mem _ hother, hrelated⟩

theorem recordNamed_iff {record : Bytes} (h : manifest.ReadFrom record) :
    RecordNamed name record ↔ manifest.name = name := by
  constructor
  · rintro ⟨hlength, hname⟩
    have hsame : manifest.name.length = name.length := Option.some.inj (h.nameLen.symm.trans hlength)
    exact Option.some.inj (h.name.symm.trans (hsame ▸ hname))
  · rintro rfl
    exact ⟨h.nameLen, h.name⟩

/-- The two words of a manifest record are the principals of the manifest and of its package. -/
theorem words_eq_iff {record : Bytes} {verified : VerifiedGraph} (h : manifest.ReadFrom record)
    (hverified : verifyBytes manifest.package = .ok verified) :
    wordAt record 8 16 = wordAt record 8 (namedPythGraphHeaderLen + manifest.name.length + 24) ↔
      manifest.principalId = verified.package.header.principalId := by
  obtain ⟨hword, hlong⟩ := wordAt_principalId hverified
  rw [h.principal, wordAt_of_slice h.package (by omega), hword, Option.some_inj]

/-- The loader returns the manifest of the name, with the graph verified from the package behind it. -/
theorem exists_observed_of_loaded {enforceRuntimeProfile : Bool} {loaded : LoadedPythGraph}
    (h : validateNamedPythGraphPayloadBytesWithProfile bytes name enforceRuntimeProfile = .ok loaded) :
    ∃ records manifests policy, graphRecords bytes = records.map (·.bytes) ∧
      Observed records name manifests policy (some loaded.manifest) ∧
        verifyBytes loaded.manifest.package = .ok loaded.verified := by
  simp only [validateNamedPythGraphPayloadBytesWithProfile, bind_eq_ok_iff, mapErr_eq_ok_iff] at h
  obtain ⟨payload, hpayload, bundle, hbundle, selected, hselected, manifest, hmanifest, verified, hverified,
    hrest⟩ := h
  obtain rfl : ⟨manifest, verified⟩ = loaded := by
    cases enforceRuntimeProfile with
    | false => exact Except.ok.inj hrest
    | true =>
      obtain ⟨_, -, hpure⟩ := bind_eq_ok_iff.mp hrest
      exact Except.ok.inj hpure
  have hobserved := (safe_selectFrom bundle name (bundle.records.length + 1) 0 [] .empty none
    (Nat.zero_le _) (by
      have := List.length_filter_le (fun record : InitBundle.Record ↦
        decide (record.recordType = .pythGraphPackage)) bundle.records
      simp only [InitBundle.recordsOf]
      omega) (Observed.empty name)).of_ok hselected
  obtain ⟨manifests, policy, hobserved⟩ := hobserved
  cases selected with
  | none => simp [okOr, fail] at hmanifest
  | some found =>
    obtain rfl : found = manifest := Except.ok.inj hmanifest
    refine ⟨_, manifests, policy, ?_, hobserved, hverified⟩
    simp only [graphRecords, hpayload, ok_bind, mapErr_eq_ok_iff.mpr hbundle]

theorem safe_validatePhase2RuntimeProfile {verified : VerifiedGraph} (h : verified.package.WellFormed) :
    Safe (validatePhase2RuntimeProfile verified) fun _ ↦
      ∀ node ∈ verified.package.graph.nodes, phase2Supported node = true := by
  rw [validatePhase2RuntimeProfile, h.blocks_eq, h.nodes_eq, ok_bind, ok_bind]
  refine safe_bind (safe_forEach_check fun _ _ _ ↦ (?_ : Safe _ fun _ ↦ True)) fun _ _ ↦ ?_
  · simp [validateTerminator, safe_bind_iff, safe_okOr, safe_ite, safe_reject]
  · refine (safe_forEach_check fun _ _ _ ↦ safe_reject_not).mono fun _ hnodes node hnode ↦ ?_
    obtain ⟨position, hposition⟩ := List.mem_iff_getElem?.mp hnode
    exact not_not.mp (hnodes position node hposition)

/-- Loading from any boot package ends with a graph or an error, and nothing panics. The graph is the verified
one of the only manifest with the name, and its nodes keep to the runtime profile if it is enforced. -/
theorem safe_validateNamedPythGraphPayloadBytesWithProfile (bytes name : Bytes) (enforce : Bool) :
    Safe (validateNamedPythGraphPayloadBytesWithProfile bytes name enforce) fun loaded ↦
      (enforce = true → ∀ node ∈ loaded.verified.package.graph.nodes, phase2Supported node = true) ∧
      ∃ records manifests policy, graphRecords bytes = records.map (·.bytes) ∧
        Observed records name manifests policy (some loaded.manifest) ∧
          verifyBytes loaded.manifest.package = .ok loaded.verified := by
  refine Safe.and_of_ok ?_ fun _ ↦ exists_observed_of_loaded
  have hpayload : Safe (initPakPayload bytes) fun _ ↦ True :=
    safe_bind (safe_mapErr (InitPak.safe_validate bytes)) fun _ _ ↦
      safe_bind_iff.mpr (safe_checkedAdd.mpr fun _ ↦ safe_okOr.mpr fun _ _ ↦ trivial)
  refine safe_bind hpayload fun payload _ ↦ ?_
  refine safe_bind (safe_mapErr (InitBundle.safe_validate payload)) fun bundle _ ↦ ?_
  refine safe_bind (safe_selectFrom bundle name _ 0 [] .empty none (Nat.zero_le _) ?_ (.empty name))
    fun _ _ ↦ safe_okOr_bind fun manifest _ ↦ ?_
  · exact (List.length_filter_le _ _).trans_lt (by omega)
  refine safe_bind (safe_mapErr (safe_verifyBytes manifest.package)) fun verified hverified ↦ ?_
  cases enforce with
  | false => exact fun h ↦ by cases h
  | true =>
    exact safe_bind (safe_validatePhase2RuntimeProfile hverified.2.1) fun _ hprofile _ ↦ hprofile

/-- The manifest of a name and its package have one principal when its record has. -/
theorem Observed.samePrincipal_iff {records : List InitBundle.Record}
    {manifests : List NamedPythGraphManifest} {policy : NamedGraphPolicy} {verified : VerifiedGraph}
    (h : Observed records name manifests policy (some manifest))
    (hrecords : graphRecords bytes = records.map (·.bytes))
    (hverified : verifyBytes manifest.package = .ok verified) :
    manifest.principalId = verified.package.header.principalId ↔ DeclaresOnePrincipal bytes name := by
  obtain ⟨hmem, hname⟩ := (h.selected manifest).mp rfl
  constructor
  · intro hprincipal record hrecord hnamed
    rw [hrecords] at hrecord
    obtain ⟨entry, hentry, rfl⟩ := List.mem_map.mp hrecord
    obtain ⟨other, hother, hread⟩ := exists_right_of_mem h.read hentry
    have hsame := (recordNamed_iff hread).mp hnamed
    obtain rfl : manifest = other := Option.some.inj ((h.selected other).mpr ⟨hother, hsame⟩)
    rw [← hname]
    exact (words_eq_iff hread hverified).mpr hprincipal
  · intro hdeclares
    obtain ⟨entry, hentry, hread⟩ := exists_right_of_mem h.read.flip hmem
    have hrecord : entry.bytes ∈ graphRecords bytes := hrecords ▸ List.mem_map.mpr ⟨entry, hentry, rfl⟩
    have hwords := hdeclares entry.bytes hrecord ((recordNamed_iff hread).mpr hname)
    rw [← hname] at hwords
    exact (words_eq_iff hread hverified).mp hwords

/-- A graph that is loaded for admission, without the runtime profile, has the principal of its package if and
only if the record of the name carries one principal in both places. -/
theorem samePrincipal_iff_of_admitted {loaded : LoadedPythGraph}
    (h : validateNamedPythGraphPayloadBytesForAdmission bytes name = .ok loaded) :
    loaded.manifest.principalId = loaded.verified.package.header.principalId ↔
      DeclaresOnePrincipal bytes name := by
  obtain ⟨records, manifests, policy, hrecords, hobserved, hverified⟩ := exists_observed_of_loaded h
  exact hobserved.samePrincipal_iff hrecords hverified

/-- For every bundle and every name that the loader accepts, the principal of the manifest, from which the
process of the graph is derived, is the principal in the header of the package if and only if the record of
the name carries one principal in both places. -/
theorem principalId_eq_iff {bytes name : Bytes} {enforceRuntimeProfile : Bool} {loaded : LoadedPythGraph}
    (h : validateNamedPythGraphPayloadBytesWithProfile bytes name enforceRuntimeProfile = .ok loaded) :
    loaded.manifest.principalId = loaded.verified.package.header.principalId ↔
      DeclaresOnePrincipal bytes name := by
  obtain ⟨records, manifests, policy, hrecords, hobserved, hverified⟩ := exists_observed_of_loaded h
  exact hobserved.samePrincipal_iff hrecords hverified

/-- The boot package with one record, a graph manifest. -/
def bootPackage (manifest : Bytes) : Bytes :=
  let bundle := InitBundle.magic ++ leBytes 2 0 ++ leBytes 2 0 ++ leBytes 4 32 ++ leBytes 2 1 ++ zeros 6 ++
    leBytes 4 4 ++ zeros 4 ++ leBytes 8 64 ++ leBytes 8 manifest.length ++
    leBytes 4 (InitBundle.checksum manifest) ++ zeros 4 ++ manifest
  InitPak.magic ++ leBytes 2 0 ++ leBytes 2 0 ++ leBytes 4 64 ++ leBytes 8 (64 + bundle.length) ++
    leBytes 8 bundle.length ++ leBytes 4 (InitPak.checksum bundle) ++ zeros 18 ++ bundle

/-- A package that declares principal 1, under the name of the task steward's graph and a principal. -/
def stewardManifest (principalId : ℕ) : Bytes :=
  match encodeNamedPythGraph 4096 taskStewardGraphName principalId
    (PackageContent.of [.of 0 0 1 0] [.of .jump .unit 0 [] 0 0] [] []).encode with
  | .ok bytes => bytes
  | .error _ => []

/-- The principals that the loader reads for the steward's graph, from the manifest and from the package. -/
def loadedPrincipals (bytes : Bytes) : Option (ℕ × ℕ) :=
  match validateNamedPythGraphPayloadBytes bytes taskStewardGraphName with
  | .ok loaded => some (loaded.manifest.principalId, loaded.verified.package.header.principalId)
  | .error _ => none

theorem exists_of_loadedPrincipals {fromManifest fromPackage : ℕ}
    (h : loadedPrincipals bytes = some (fromManifest, fromPackage)) : ∃ loaded,
      validateNamedPythGraphPayloadBytes bytes taskStewardGraphName = .ok loaded ∧
        loaded.manifest.principalId = fromManifest ∧
          loaded.verified.package.header.principalId = fromPackage := by
  unfold loadedPrincipals at h
  split at h
  · rename_i loaded hloaded
    obtain ⟨hmanifest, hpackage⟩ := Prod.mk.inj (Option.some.inj h)
    exact ⟨loaded, hloaded, hmanifest, hpackage⟩
  · simp at h

theorem principalId_eq_iff_stewardManifest : ∃ bytes loaded,
    validateNamedPythGraphPayloadBytes bytes taskStewardGraphName = .ok loaded ∧
      DeclaresOnePrincipal bytes taskStewardGraphName := by
  have hprincipals : loadedPrincipals (bootPackage (stewardManifest 1)) = some (1, 1) := by decide +kernel
  obtain ⟨loaded, hloaded, hmanifest, hpackage⟩ := exists_of_loadedPrincipals hprincipals
  exact ⟨_, loaded, hloaded, (principalId_eq_iff hloaded).mp (hmanifest.trans hpackage.symm)⟩

/-- The package declares principal 1. Its manifest declares the steward's principal, and the graph is
launched as the steward. -/
theorem principalId_ne_stewardManifest : ∃ bytes loaded,
    validateNamedPythGraphPayloadBytes bytes taskStewardGraphName = .ok loaded ∧
      loaded.verified.package.header.principalId = 1 ∧
        loaded.manifest.principalId = taskStewardGraphPrincipalId.toNat ∧
          pythGraphRuntimeProcess pythRuntimePrincipalId 0 (.ofNat loaded.manifest.principalId) =
            stewardProcess := by
  have hprincipals : loadedPrincipals
      (bootPackage (stewardManifest taskStewardGraphPrincipalId.toNat)) =
        some (taskStewardGraphPrincipalId.toNat, 1) := by decide +kernel
  obtain ⟨loaded, hloaded, hmanifest, hpackage⟩ := exists_of_loadedPrincipals hprincipals
  refine ⟨_, loaded, hloaded, hpackage, hmanifest, ?_⟩
  rw [hmanifest, UInt64.ofNat_toNat, pythGraphRuntimeProcess, if_pos rfl]

end Pythos.Core
