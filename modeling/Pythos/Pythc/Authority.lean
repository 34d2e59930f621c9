import Pythos.Pythc.RoundTrip
import Pythos.Pythc.Scoping
import Pythos.Tig.PassErrors

/-!
# The verifier finds the authority that the checker required

The checker compares the resource and the rights of a capability with the requirement of an intrinsic; the
verifier compares those of an import, or of an object capability, with the requirement of an opcode. The
lowerer connects the two: a node that needs authority has a capability that meets its opcode (`Authorised`).
In the semantics pass the origin of a capability is the one that the lowerer gave it (`Tracks`), so the pass
never refuses authority.
-/

namespace Pythos.Pythc

open Foundation Tig Stateful Lowerer

/-- The package has the nodes and the imports of a lowerer in agreement. -/
structure Compiled (lowerer : Lowerer) (package : PythGraphPackage) : Prop where
  wellFormed : package.WellFormed
  nodes : package.nodeRecords.iter = lowerer.nodes.map GraphNode.toRecord
  imports : package.importRecords.iter = lowerer.imports.map GraphImport.toRecord
  entryBlock : package.header.entryBlock = 0
  length : lowerer.nodes.length ≤ 2 ^ 32
  authorised : ∀ record ∈ lowerer.nodes, lowerer.Authorised record
  slots : lowerer.Slots

/-- The origin that the semantics pass gives a capability. -/
def originOf (record : GraphNode) : CapabilityOrigin :=
  if record.opcode = .blockParam then .import record.auxiliary0.toNat
  else .hostResult resourceObject (rightsRead ||| rightsRevise)

/-- A node that the tables of the pass show as a capability is one, and its origin is known. -/
def Tracks (lowerer : Lowerer) (types : List PythType) (origins : List CapabilityOrigin) : Prop :=
  ∀ index : ℕ, types[index]? = some .capability → ∃ record, lowerer.nodes[index]? = some record ∧
    record.resultType = .capability ∧ origins[index]? = some (originOf record)

section Pass

variable {lowerer : Lowerer} {package : PythGraphPackage} {types : List PythType}
  {origins : List CapabilityOrigin} {record : GraphNode} {index : ℕ}

theorem tracks_set_plain (h : Tracks lowerer types origins) {type : PythType} (htype : type ≠ .capability) :
    Tracks lowerer (types.set index type) origins := by
  intro other hother
  rw [List.getElem?_set] at hother
  split_ifs at hother with heq
  · exact absurd (Option.some.inj hother) htype
  · exact h other hother

theorem tracks_set (h : Tracks lowerer types origins) (hrecord : lowerer.nodes[index]? = some record)
    (htype : record.resultType = .capability) (hindex : index < origins.length) :
    Tracks lowerer (types.set index .capability) (origins.set index (originOf record)) := by
  intro other hother
  by_cases heq : index = other
  · subst heq
    exact ⟨record, hrecord, htype, List.getElem?_set_self hindex⟩
  · rw [List.getElem?_set_ne heq] at hother
    obtain ⟨found, hfound, hcapability, horigin⟩ := h other hother
    exact ⟨found, hfound, hcapability, by rw [List.getElem?_set_ne heq, horigin]⟩

namespace Compiled

/-- The verifier finds the import of a slot. -/
theorem findImport (h : Compiled lowerer package) {slot : ℕ} {found : CapabilityImportRecord}
    (hfound : Tig.findImport package.importRecords slot = some found) :
    ∃ imported, lowerer.imports[slot]? = some imported ∧ found = imported.toRecord := by
  have hmem := List.mem_of_find?_eq_some hfound
  rw [h.imports] at hmem
  obtain ⟨imported, himported, rfl⟩ := List.mem_map.mp hmem
  obtain ⟨position, hposition⟩ := List.mem_iff_getElem?.mp himported
  have hslot : imported.toRecord.importSlot = slot := by simpa using List.find?_some hfound
  exact ⟨imported, (h.slots position imported hposition).1.symm.trans hslot ▸ hposition, rfl⟩

theorem answers_importBlockParam (h : Compiled lowerer package) (hrecord : record ∈ lowerer.nodes)
    (hopcode : record.opcode = .blockParam) (htype : record.resultType = .capability) :
    Answers VerifyError.NotAuthority (verifyImportBlockParam package index record.toRecord)
      fun slot ↦ slot = record.auxiliary0.toNat := by
  have hblock : record.blockIndex = 0 := by
    rcases (h.authorised record hrecord).origin htype with hresult | hparam
    · rw [hopcode] at hresult
      cases hresult
    · exact hparam.2
  have hentry : record.toRecord.blockIndex = package.header.entryBlock := by
    rw [h.entryBlock]
    exact congrArg UInt16.toNat hblock
  simp only [verifyImportBlockParam, h.wellFormed.imports_eq, ok_bind, answers_bind, answers_reject, answers_okOr,
    answers_pure, VerifyError.NotAuthority, implies_true, true_and, hentry, not_not, forall_const]
  refine ⟨fun hne ↦ absurd rfl hne, fun _ found hfound ↦ ⟨fun hne ↦ ?_, fun _ ↦ rfl⟩⟩
  obtain ⟨imported, himported, rfl⟩ := h.findImport hfound
  exact hne (congrArg PythType.code (h.slots _ imported himported).2)

/-- The match on the opcode of a node keeps the origins. -/
theorem answers_nodeShape (h : Compiled lowerer package) (htracks : Tracks lowerer types origins)
    (hrecord : lowerer.nodes[index]? = some record) :
    Answers VerifyError.NotAuthority (verifyNodeShape package package.nodeRecords
      (types.set index record.resultType) origins index record.toRecord record.resultType record.opcode)
      (Tracks lowerer (types.set index record.resultType)) := by
  have hmem := List.mem_of_getElem? hrecord
  have hplain : record.resultType ≠ .capability → Tracks lowerer (types.set index record.resultType) origins :=
    fun htype ↦ tracks_set_plain htracks htype
  have hset : ∀ origin, originOf record = origin → record.resultType = .capability →
      Answers VerifyError.NotAuthority (setIndex origins index origin)
        (Tracks lowerer (types.set index record.resultType)) := by
    rintro _ rfl htype
    exact answers_setIndex.mpr fun hindex ↦ htype ▸ tracks_set htracks hrecord htype hindex
  have horigin := (h.authorised record hmem).origin
  unfold verifyNodeShape
  split
  case h_1 hopcode =>
    refine (grants_verifyOpcodeSignature _ _ _).bind fun _ _ ↦ answers_ite.mpr ⟨fun htype ↦ ?_, hplain⟩
    refine (h.answers_importBlockParam hmem hopcode htype).bind fun slot hslot ↦ hset _ ?_ htype
    rw [originOf, if_pos hopcode, hslot]
  case h_2 hopcode =>
    refine (answers_verifyHostResult _ _ _).bind fun schema hschema ↦ answers_ite.mpr ⟨fun htype ↦ ?_, hplain⟩
    rw [hschema htype]
    refine hset _ (if_neg ?_) htype
    rw [hopcode]
    decide
  case h_3 hopcode =>
    refine hplain fun htype ↦ ?_
    rcases horigin htype with hresult | hparam
    · exact absurd (hopcode.symm.trans hresult) (by decide)
    · exact absurd (hopcode.symm.trans hparam.1) (by decide)
  case h_4 hparam hresult _ =>
    refine (grants_verifyOpcodeSignature _ _ _).bind fun _ _ ↦ hplain fun htype ↦ ?_
    exact (horigin htype).elim hresult fun h ↦ hparam h.1

/-- The capability of a host call has the authority that its opcode requires. -/
theorem grants_hostImport (h : Compiled lowerer package) (htracks : Tracks lowerer types origins)
    (hrecord : record ∈ lowerer.nodes) :
    Grants (verifyHostImport package index record.toRecord record.opcode types origins) := by
  unfold verifyHostImport
  split
  · trivial
  · next kind hkind =>
    simp only [answers_bind, answers_index, answers_reject, VerifyError.NotAuthority, implies_true, true_and,
      not_not]
    rintro _ hactual rfl origin horigin'
    obtain ⟨source, hsource, htype, horigin⟩ := htracks _ hactual
    obtain ⟨info, hgrants, hmeets⟩ := (h.authorised record hrecord).required (by rw [hkind]; simp)
    obtain ⟨found, hfound, -, hparam, hresult⟩ := hgrants h.length
    obtain rfl : source = found := Option.some.inj (hsource.symm.trans hfound)
    obtain rfl := Option.some.inj (horigin'.symm.trans horigin)
    obtain ⟨hcoversKind, hcoversRights⟩ := hmeets kind hkind
    rcases (h.authorised source (List.mem_of_getElem? hsource)).origin htype with hopcode | ⟨hopcode, -⟩
    · rw [originOf, if_neg (by rw [hopcode]; decide)]
      obtain rfl := hresult hopcode
      exact answers_reject.mpr
        ⟨fun hne ↦ hne.elim (absurd hcoversKind) (absurd hcoversRights), fun _ ↦ trivial⟩
    · rw [originOf, if_pos hopcode]
      obtain ⟨imported, himported, hkind', hrights'⟩ := hparam hopcode
      simp only [h.wellFormed.imports_eq, ok_bind, answers_bind, answers_okOr, VerifyError.NotAuthority,
        implies_true, true_and]
      intro found hfound
      obtain ⟨imported', himported', rfl⟩ := h.findImport hfound
      obtain rfl : imported = imported' := Option.some.inj (himported.symm.trans himported')
      have htype := congrArg PythType.code (h.slots _ imported himported).2
      rw [← hkind'] at hcoversKind
      rw [← hrights'] at hcoversRights
      exact answers_reject.mpr ⟨absurd htype, fun _ ↦ answers_reject.mpr
        ⟨fun hne ↦ hne.elim (absurd hcoversKind) (absurd hcoversRights), fun _ ↦ trivial⟩⟩

theorem grants_capabilityInputs (htracks : Tracks lowerer types origins) (node : NodeRecord) :
    Grants (verifyCapabilityInputs node types origins) := by
  refine only_forEach fun _ _ input ↦ ?_
  simp only [answers_ite, answers_bind, answers_index, answers_reject, answers_pure, implies_true, true_and,
    and_true]
  rintro _ _ htype rfl origin horigin'
  obtain ⟨source, -, -, horigin⟩ := htracks input htype
  obtain rfl := Option.some.inj (horigin'.symm.trans horigin)
  rw [originOf]
  split_ifs <;> simp

/-- The effect part of a node. -/
theorem answers_nodeEffect (h : Compiled lowerer package) {state : SemanticsState}
    (htracks : Tracks lowerer state.resultTypes state.capabilityOrigins) (hrecord : record ∈ lowerer.nodes) :
    Answers VerifyError.NotAuthority
      (verifyNodeEffect package state index record.toRecord record.resultType record.opcode)
      fun after ↦ Tracks lowerer after.resultTypes after.capabilityOrigins := by
  have himport : Grants (verifyHostImport package (asU32 index) _ _ _ _) :=
    h.grants_hostImport htracks hrecord
  simp [verifyNodeEffect, verifyEffectLink, htracks, himport]

/-- One node of the semantics pass. -/
theorem answers_nodeSemantics (h : Compiled lowerer package) {state : SemanticsState}
    (htracks : Tracks lowerer state.resultTypes state.capabilityOrigins)
    (hrecord : lowerer.nodes[index]? = some record) :
    Answers VerifyError.NotAuthority
      (verifyNodeSemantics package package.nodeRecords state index record.toRecord)
      fun after ↦ Tracks lowerer after.resultTypes after.capabilityOrigins := by
  have hmem := List.mem_of_getElem? hrecord
  have hopcode : Opcode.ofCode record.toRecord.opcode = some record.opcode := Opcode.ofCode_code _
  have htype : PythType.ofCode record.toRecord.resultType = some record.resultType := PythType.ofCode_code _
  simp only [verifyNodeSemantics, hopcode, htype, expect, ok_bind]
  rw [answers_bind, answers_setIndex]
  refine fun _ ↦ answers_bind.mpr (answers_reject.mpr ⟨fun hbad ↦ ?_, fun _ ↦ ?_⟩)
  · rcases (h.authorised record hmem).origin hbad.1 with hresult | hparam
    · exact absurd (Or.inr hresult) hbad.2
    · exact absurd (Or.inl hparam.1) hbad.2
  refine (h.answers_nodeShape htracks hrecord).bind fun origins horigins ↦ ?_
  refine (h.answers_nodeEffect horigins hmem).bind fun after hafter ↦ ?_
  exact (grants_capabilityInputs hafter _).bind fun _ _ ↦ hafter

theorem grants_semantics (h : Compiled lowerer package) : Grants (verifySemantics package) := by
  unfold verifySemantics
  rw [h.wellFormed.nodes_eq, ok_bind, h.nodes]
  have hinit : Tracks lowerer SemanticsState.init.resultTypes SemanticsState.init.capabilityOrigins := by
    intro index htype
    have := List.eq_of_mem_replicate (List.mem_of_getElem? htype)
    cases this
  have hpass : Answers VerifyError.NotAuthority (forEach (lowerer.nodes.map GraphNode.toRecord)
      SemanticsState.init (verifyNodeSemantics package package.nodeRecords))
      fun state ↦ Tracks lowerer state.resultTypes state.capabilityOrigins := by
    refine answers_forEach hinit fun state position node hnode htracks ↦ ?_
    rw [List.getElem?_map] at hnode
    obtain ⟨record, hrecord, rfl⟩ := Option.map_eq_some_iff.mp hnode
    exact h.answers_nodeSemantics htracks hrecord
  exact hpass.bind fun _ _ ↦ trivial

end Compiled

end Pass

/-! ### Programs -/

theorem compiled_of_encodeGraph {resolved : List (Path × Binder)} {lowerer : Lowerer} {graph : OwnedGraph}
    {bytes : Bytes} {package : PythGraphPackage} (hagrees : Agrees [] resolved lowerer)
    (hnodes : graph.nodes = lowerer.nodes) (himports : graph.imports = lowerer.imports)
    (hencode : encodeGraph graph = .ok bytes) (hdecode : PythGraphPackage.decode bytes = .ok package) :
    Compiled lowerer package := by
  have hwell := ((PythGraphPackage.safe_decode bytes).of_ok hdecode).2
  obtain ⟨hfits, rfl⟩ := fits_content hencode
  rw [packageBytes_eq] at hdecode
  have hcontent := PythGraphPackage.content_of_decode_encode hfits hdecode
  simp only [encodeGraph, bind_eq_ok_iff] at hencode
  obtain ⟨_, -, _, hlength, -⟩ := hencode
  exact {
    wellFormed := hwell
    nodes := hnodes ▸ congrArg PackageContent.nodes hcontent
    imports := himports ▸ congrArg PackageContent.imports hcontent
    entryBlock := congrArg PackageContent.entryBlock hcontent
    length := hnodes ▸ (checkedU32_eq_ok hlength).le
    authorised := hagrees.authorised
    slots := hagrees.slots }

/-- The package of a program that the checker accepts is not refused for want of authority: the verifier
finds no capability without an origin, no import of another type and no import with other or fewer rights
than a host call needs. -/
theorem verifier_finds_authority (program : Program) (checker : Checker)
    (hchecked : checkProgram program .new = (.ok (), checker)) (graph : OwnedGraph)
    (hlowered : (lowerProgram program program.lowerer).1 = .ok graph) (bytes : Bytes)
    (hencoded : encodeGraph graph = .ok bytes) (node slot : ℕ) :
    verifyBytes bytes ≠ .error (.returned (.importRightsInsufficient node slot)) ∧
      verifyBytes bytes ≠ .error (.returned (.capabilityOriginInvalid node)) ∧
        verifyBytes bytes ≠ .error (.returned (.importTypeMismatch slot)) := by
  have haccepts := accepts_checkProgram program
  rw [Accepts, Ensures, hchecked] at haccepts
  obtain ⟨⟨hagrees, -⟩, hnodes, himports⟩ := haccepts.2.of_ok hlowered
  have hgrants : Grants (verifyBytes bytes) := by
    unfold verifyBytes
    cases hdecode : PythGraphPackage.decode bytes with
    | error fault => cases fault <;> trivial
    | ok package =>
      exact grants_verifyPackage
        (compiled_of_encodeGraph hagrees hnodes himports hencoded hdecode).grants_semantics
  exact ⟨fun h ↦ hgrants.of_error h, fun h ↦ hgrants.of_error h, fun h ↦ hgrants.of_error h⟩

/-- An object is created in an imported workspace, and revised through its own capability. -/
def creation : Program where
  name := ⟨"creation", ⟨0, 0⟩⟩
  principalId := 1
  imports := [⟨⟨"ws", ⟨0, 0⟩⟩, "object.workspace", "create|query", ⟨0, 0⟩⟩]
  main :=
    { statements :=
        [.letLocal ⟨"id", ⟨0, 0⟩⟩ .objectId (.call ⟨"object.create", ⟨0, 0⟩⟩
            [.name ⟨"ws", ⟨0, 0⟩⟩, .literal (.integer "1" ⟨0, 0⟩)] ⟨0, 0⟩) ⟨0, 0⟩,
          .letLocal ⟨"cap", ⟨0, 0⟩⟩ .capability
            (.call ⟨"object.created_capability", ⟨0, 0⟩⟩ [] ⟨0, 0⟩) ⟨0, 0⟩,
          .expr (.call ⟨"object.revise", ⟨0, 0⟩⟩ [.name ⟨"cap", ⟨0, 0⟩⟩, .name ⟨"id", ⟨0, 0⟩⟩,
            .literal (.integer "1" ⟨0, 0⟩), .literal (.string "text" ⟨0, 0⟩)] ⟨0, 0⟩)]
      span := ⟨0, 0⟩ }
  span := ⟨0, 0⟩

theorem verifier_finds_authority_creation : ∃ graph bytes,
    (lowerProgram creation creation.lowerer).1 = .ok graph ∧ encodeGraph graph = .ok bytes ∧
      (verifyBytes bytes).isOk = true ∧
        ∀ node slot, verifyBytes bytes ≠ .error (.returned (.importRightsInsufficient node slot)) := by
  have hruns : ((lowerProgram creation creation.lowerer).1.toOption.bind fun graph ↦
      (encodeGraph graph).toOption).any (fun bytes ↦ (verifyBytes bytes).isOk) = true := by decide +kernel
  cases hlowered : (lowerProgram creation creation.lowerer).1 with
  | error error =>
    rw [hlowered] at hruns
    cases hruns
  | ok graph =>
    rw [hlowered] at hruns
    change (encodeGraph graph).toOption.any _ = true at hruns
    cases hencoded : encodeGraph graph with
    | error error =>
      rw [hencoded] at hruns
      cases hruns
    | ok bytes =>
      rw [hencoded] at hruns
      exact ⟨graph, bytes, rfl, hencoded, hruns, fun node slot ↦ (verifier_finds_authority creation _
        (Prod.ext (by decide +kernel) rfl) graph hlowered bytes hencoded node slot).1⟩

end Pythos.Pythc
