import Pythos.Runtime.Soundness
import Pythos.Tig.Totality

/-!
# Capability confinement

The verifier tracks where a capability comes from in node-index order; a run follows the edges of the
graph and executes producers again. The two meet in the tables of the machine: a stored capability is an
import, or the capability field of a result that the host returned earlier in the run (`Provenance`). With
the authority that the verifier checked for the operand node, every capability that reaches the host has
the kind and the rights that the opcode requires (`Authority`).
-/

namespace Pythos.Runtime

open Foundation Shared Tig

variable {σ : Type} {g : Graph} {imports : Vector PackedCapability maxPythGraphImports}
  {host : Host σ}

/-! ### Authority -/

/-- The authority behind the capability of a request, read from an operand node after some events: the
declared import of a parameter with the kind and rights that the opcode requires, or the capability that
an `ObjectCreate` or `ObjectQuery` returned, for an opcode on objects that requires at most the rights to
read and revise. -/
inductive Authority (g : Graph) (imports : Vector PackedCapability maxPythGraphImports)
    (earlier : List Event) (operand : ℕ) (request : HostRequest) : Prop
  | imported {source : NodeRecord} {record : CapabilityImportRecord}
      (hsource : g.NodeAt operand source .blockParam)
      (hdeclared : g.imports[source.auxiliary0]? = some record)
      (hslot : record.importSlot = source.auxiliary0)
      (hcapability : imports[source.auxiliary0]? = some request.capability)
      (hkind : request.opcode.signature.requiredResourceKind = some record.resourceKind)
      (hrights : record.rights &&& request.opcode.signature.requiredRights =
        request.opcode.signature.requiredRights)
  | returned {source producer : NodeRecord} {opcode : Opcode} {call : HostRequest}
      {result : HostCallResult}
      (hsource : g.NodeAt operand source .hostResult)
      (hfield : source.auxiliary0 = hostResultCapability)
      (hproducer : g.NodeAt source.input0 producer opcode)
      (hopcode : opcode = .objectCreate ∨ opcode = .objectQuery)
      (hcalled : Event.called source.input0 call (.ok result) ∈ earlier)
      (hcapability : result.capability = request.capability)
      (hkind : request.opcode.signature.requiredResourceKind = some resourceObject)
      (hrights : (rightsRead ||| rightsRevise) &&& request.opcode.signature.requiredRights =
        request.opcode.signature.requiredRights)

/-- A call was made by a node of its opcode, with authority from the events before it. -/
def CallConfined (g : Graph) (imports : Vector PackedCapability maxPythGraphImports)
    (earlier : List Event) (index : ℕ) (request : HostRequest) : Prop :=
  ∃ node, g.NodeAt index node request.opcode ∧ Authority g imports earlier node.input1 request

/-! ### Where capabilities come from -/

/-- A capability stored for a node is an import, or was returned by the host to the producer that the
node projects. -/
def CapabilityFrom (g : Graph) (imports : Vector PackedCapability maxPythGraphImports)
    (trace : List Event) (index : ℕ) (capability : PackedCapability) : Prop :=
  ∃ source, (g.NodeAt index source .blockParam ∧ imports[source.auxiliary0]? = some capability) ∨
    (g.NodeAt index source .hostResult ∧ ∃ request result,
      Event.called source.input0 request (.ok result) ∈ trace ∧ result.capability = capability)

/-- The results and capabilities of a machine come from its run, and its calls had authority. -/
structure Provenance (g : Graph) (imports : Vector PackedCapability maxPythGraphImports)
    (machine : Machine σ) : Prop where
  kept : ∀ (index : ℕ) result, machine.hostResults[index]?.join = some result →
    ∃ request, Event.called index request (.ok result) ∈ machine.trace
  held : ∀ (index : ℕ) capability,
    machine.values[index]?.join = some (.capability capability) →
      CapabilityFrom g imports machine.trace index capability
  calls : EachCall (CallConfined g imports) machine.trace

variable {index : ℕ} {opcode : Opcode} {machine : Machine σ} {node : NodeRecord}

theorem CapabilityFrom.mono {trace trace' : List Event} (hsub : trace ⊆ trace')
    {capability : PackedCapability} (h : CapabilityFrom g imports trace index capability) :
    CapabilityFrom g imports trace' index capability := by
  obtain ⟨source, himport | ⟨hsource, request, result, hcalled, heq⟩⟩ := h
  · exact ⟨source, Or.inl himport⟩
  · exact ⟨source, Or.inr ⟨hsource, request, result, hsub hcalled, heq⟩⟩

/-- The operations whose results have a capability field. -/
theorem field_of_capability {field : ℕ} (h : hostResultFieldType opcode field = some .capability) :
    field = hostResultCapability ∧ (opcode = .objectCreate ∨ opcode = .objectQuery) := by
  cases opcode <;> simp [hostResultFieldType, isObjectOperation] at h ⊢ <;> grind

/-- The import that a slot declares stands at its index. -/
theorem import_of_find (haccepted : Accepted g) {slot : ℕ} {record : CapabilityImportRecord}
    (h : g.imports.find? (fun record ↦ record.importSlot = slot) = some record) :
    g.imports[slot]? = some record ∧ record.importSlot = slot := by
  have hslot : record.importSlot = slot := by simpa using List.find?_some h
  obtain ⟨index, hindex⟩ := List.mem_iff_getElem?.mp (List.mem_of_find?_eq_some h)
  have heq := haccepted.canonical.imported index record hindex
  exact ⟨by rw [← hslot, heq]; exact hindex, hslot⟩

/-- The capability of a call has the authority that the verifier checked for its operand. -/
theorem authority_of_call (haccepted : Accepted g) (h : Provenance g imports machine)
    (hnode : g.NodeAt index node opcode) {request : HostRequest}
    (hcall : CallFits machine.values node opcode request) :
    Authority g imports machine.trace node.input1 request := by
  obtain ⟨rfl, hvalue⟩ := hcall
  obtain ⟨type, htype, hfits⟩ := haccepted.fits hnode
  obtain ⟨kind, hkind⟩ := Option.isSome_iff_exists.mp
    (Opcode.signature_of_effectful request.effectful).2.2.2.2
  obtain ⟨source, htypeAt, hauthority⟩ := hfits.authority request.effectful kind hkind
  obtain ⟨holder, hheld⟩ := h.held node.input1 request.capability hvalue
  rcases hauthority with ⟨hsource, -, record, hfind, -, hrecordKind, hrights⟩ |
    ⟨hsource, hobject, hrights⟩
  · rcases hheld with ⟨hholder, himport⟩ | ⟨hholder, -⟩
    · obtain ⟨rfl, -⟩ := hsource.unique hholder
      obtain ⟨hdeclared, hslot⟩ := import_of_find haccepted hfind
      exact .imported hsource hdeclared hslot himport (hrecordKind ▸ hkind) hrights
    · cases (hsource.unique hholder).2
  · rcases hheld with ⟨hholder, -⟩ | ⟨hholder, call, result, hcalled, heq⟩
    · cases (hsource.unique hholder).2
    · obtain ⟨rfl, -⟩ := hsource.unique hholder
      obtain ⟨typed, htyped, hcapability⟩ := htypeAt
      obtain rfl : source = typed := Option.some_inj.mp (hsource.1.symm.trans htyped)
      obtain ⟨producer, opcode, hproducer, -, hfield⟩ :=
        ((haccepted.typed node.input1 source .hostResult .capability hsource hcapability).projection
          rfl).producer
      obtain ⟨hauxiliary, hopcode⟩ := field_of_capability hfield
      exact .returned hsource hauxiliary hproducer hopcode hcalled heq (hobject ▸ hkind) hrights

/-! ### Runs -/

section

variable (h : Provenance g imports machine)

include h

/-- More events take no provenance away. -/
theorem Provenance.grow {machine' : Machine σ} (hvalues : machine'.values = machine.values)
    (hresults : machine'.hostResults = machine.hostResults) (hsub : machine.trace ⊆ machine'.trace)
    (hcalls : EachCall (CallConfined g imports) machine'.trace) : Provenance g imports machine' := by
  refine ⟨fun other result hresult ↦ ?_, fun other capability hvalue ↦ ?_, hcalls⟩
  · obtain ⟨request, hcalled⟩ := h.kept other result (hresults ▸ hresult)
    exact ⟨request, hsub hcalled⟩
  · exact (h.held other capability (hvalues ▸ hvalue)).mono hsub

theorem Provenance.charge (index : ℕ) : Provenance g imports (machine.charge index) :=
  h.grow rfl rfl (List.subset_cons_self ..) h.calls

theorem Provenance.enter (block : ℕ) : Provenance g imports (machine.enter block) :=
  h.grow rfl rfl (List.subset_cons_self ..) h.calls

/-- A call with authority may be answered in any way. -/
theorem Provenance.answered {request : HostRequest} (hnode : g.NodeAt index node request.opcode)
    (hauthority : Authority g imports machine.trace node.input1 request) (answer : HostReply × σ) :
    Provenance g imports (machine.answered index request answer) :=
  h.grow rfl rfl (List.subset_cons_self ..) ⟨⟨node, hnode, hauthority⟩, h.calls⟩

theorem Provenance.put {value : Value} (hlt : index < machine.values.length)
    (hvalue : ∀ capability, value = .capability capability →
      CapabilityFrom g imports machine.trace index capability) :
    Provenance g imports (machine.put index value) := by
  refine ⟨h.kept, fun other capability hother ↦ ?_, h.calls⟩
  change (machine.values.set index (some value))[other]?.join = _ at hother
  rw [join_set hlt] at hother
  split_ifs at hother with heq
  · rw [heq]
    exact hvalue capability (Option.some_inj.mp hother)
  · exact h.held other capability hother

theorem Provenance.keep {result : HostCallResult} (hlt : index < machine.hostResults.length)
    (hcalled : ∃ request, Event.called index request (.ok result) ∈ machine.trace) :
    Provenance g imports (machine.keep index result) := by
  refine ⟨fun other kept hkept ↦ ?_, h.held, h.calls⟩
  change (machine.hostResults.set index (some result))[other]?.join = _ at hkept
  rw [join_set hlt] at hkept
  split_ifs at hkept with heq
  · rw [heq, ← Option.some_inj.mp hkept]
    exact hcalled
  · exact h.kept other kept hkept

/-- What a node stores for a capability comes from the imports or from a kept result. -/
theorem capabilityFrom_of_storeFits (hnode : g.NodeAt index node opcode) {value : Value}
    (hstore : StoreFits g imports machine.hostResults node opcode value)
    (capability : PackedCapability) (hvalue : value = .capability capability) :
    CapabilityFrom g imports machine.trace index capability := by
  rcases hstore.capability capability hvalue with ⟨rfl, himport⟩ | ⟨rfl, result, hresult, heq⟩
  · exact ⟨node, Or.inl ⟨hnode, himport⟩⟩
  · obtain ⟨request, hcalled⟩ := h.kept node.input0 result hresult
    exact ⟨node, Or.inr ⟨hnode, request, result, hcalled, heq⟩⟩

end

section Steps

variable (haccepted : Accepted g) {config : Config σ} (hsound : Sound g config)
  (h : Provenance g imports config.machine) {node : NodeRecord} {opcode : Opcode}
  (hnode : g.NodeAt config.next node opcode) {action : Action}
  (hprepared : prepare g imports config.machine.values config.machine.hostResults config.next node
    opcode = .ok action)

include haccepted h hnode hprepared

/-- A call that a node prepared has authority, whatever the host answers. -/
theorem Provenance.answered_call {request : HostRequest} (haction : action = .call request)
    (answer : HostReply × σ) :
    Provenance g imports
      ((config.machine.charge config.next).answered config.next request answer) := by
  obtain ⟨type, htype, hfits⟩ := haccepted.fits hnode
  have hcharged := h.charge config.next
  subst haction
  have hcall := callFits_of_call htype hfits hprepared
  have hauthority := authority_of_call haccepted hcharged hnode hcall
  obtain ⟨rfl, -⟩ := hcall
  exact hcharged.answered hnode hauthority answer

include hsound

/-- One node of a run keeps the provenance. -/
theorem Provenance.performs {machine' : Machine σ}
    (hperforms : Performs host config.next (config.machine.charge config.next) action machine') :
    Provenance g imports machine' := by
  obtain ⟨hvalues, hresults⟩ := hsound.next_lt haccepted hnode
  cases hperforms with
  | store value =>
    obtain ⟨type, htype, hfits⟩ := haccepted.fits hnode
    rcases prepare_cases htype hfits hprepared with ⟨stored, heq, hstore⟩ | ⟨_, hfalse, -⟩ | ⟨hfalse, -⟩
    · obtain rfl := Action.store.inj heq
      have hcharged := h.charge config.next
      exact hcharged.put hvalues (capabilityFrom_of_storeFits hcharged hnode hstore)
    · cases hfalse
    · cases hfalse
  | proceed => exact h.charge config.next
  | emit hreply hvalidator =>
    exact (h.answered_call haccepted hnode hprepared rfl _).put hvalues
      fun _ hfalse ↦ by cases hfalse
  | keep hreply hvalidator hvalid =>
    rename_i request result validate
    have hanswered := h.answered_call haccepted hnode hprepared rfl
      (host request (config.machine.charge config.next).host)
    refine (hanswered.keep hresults ⟨request, ?_⟩).put hvalues fun _ hfalse ↦ by cases hfalse
    rw [← hreply]
    exact List.mem_cons_self ..

end Steps

theorem provenance_init (g : Graph) (imports : Vector PackedCapability maxPythGraphImports)
    (budget : UInt64) (state : σ) : Provenance g imports (Machine.init budget state) := by
  refine ⟨fun index result hresult ↦ ?_, fun index capability hvalue ↦ ?_, trivial⟩
  · simp [Machine.init, join_replicate_none] at hresult
  · simp [Machine.init, join_replicate_none] at hvalue

/-- Every machine that a run reaches has its capabilities from the run. -/
theorem Reaches.provenance (haccepted : Accepted g) {budget : UInt64} {state : σ}
    {config : Config σ} (h : Reaches g imports host (Machine.init budget state) config) :
    Provenance g imports config.machine := by
  induction h with
  | enter hblock => exact (provenance_init g imports budget state).enter g.entryBlock
  | step hreaches hstep ih =>
    obtain ⟨-, node, opcode, action, machine', hstepped⟩ :=
      hstep.step haccepted (hreaches.positioned haccepted rfl)
    have hafter := ih.performs haccepted (hreaches.sound haccepted) hstepped.nodeAt hstepped.prepared
      hstepped.performs
    rcases hstepped.machine_eq with heq | ⟨-, heq⟩
    · exact heq ▸ hafter
    · exact heq ▸ hafter.enter _

/-- The machine that a node leaves, failing or not, has its capabilities from the run. -/
theorem Provenance.leaves (haccepted : Accepted g) {config : Config σ} (hsound : Sound g config)
    (h : Provenance g imports config.machine) {final : Machine σ}
    (hleaves : NodeLeaves g imports host config.next config.machine final) :
    Provenance g imports final := by
  cases hleaves with
  | idle hvalues hresults htrace =>
    exact ⟨hresults ▸ htrace ▸ h.kept, hvalues ▸ htrace ▸ h.held, htrace ▸ h.calls⟩
  | charged => exact h.charge config.next
  | answered hbudget hnode hprepared => exact h.answered_call haccepted hnode hprepared rfl _
  | performed hbudget hnode hprepared hperforms =>
    exact h.performs haccepted hsound hnode hprepared hperforms

/-- Capability confinement: every capability that a run of a verified graph passes to the host is a
declared import with the kind and the rights that the opcode requires, or was returned earlier in the run
by an `ObjectCreate` or `ObjectQuery`. -/
theorem execute_confined {bytes : Bytes} {verified : VerifiedGraph}
    (hverified : verifyBytes bytes = .ok verified)
    (imports : Vector PackedCapability maxPythGraphImports) (budget : UInt64) (host : Host σ)
    (state : σ) :
    ∃ result final,
      executeInner verified.package.graph imports host (Machine.init budget state) =
          some (result, final) ∧
        ∀ later earlier index request reply,
          final.trace = later ++ .called index request reply :: earlier →
            ∃ node, verified.package.graph.NodeAt index node request.opcode ∧
              Authority verified.package.graph imports earlier node.input1 request := by
  have haccepted := accepted_of_verifyBytes hverified
  obtain ⟨result, final, hrun, config, hreaches, hleaves⟩ :=
    executeInner_leaves haccepted imports host budget state
  refine ⟨result, final, hrun, ?_⟩
  intro later earlier index request reply htrace
  have hcalls := ((hreaches.provenance haccepted).leaves haccepted (hreaches.sound haccepted) hleaves).calls
  rw [htrace] at hcalls
  exact hcalls.of_append.1

/-- A host that answers every request with an empty result. -/
def acceptingHost : Host Unit := fun _ state ↦
  (.ok { status := 0, bytesLen := 0, reserved0 := 0, objectId := 0, revision := 0, capability := ⟨0⟩,
         bytes := Vector.replicate _ 0, reserved1 := Vector.replicate _ 0 }, state)

/-- The nodes that call the accepting host in a run of a package, the last first. -/
def acceptedCalls (bytes : Bytes) (imports : Vector PackedCapability maxPythGraphImports) :
    Option (List ℕ) := do
  let verified ← (verifyBytes bytes).toOption
  let run ← executeInner verified.package.graph imports acceptingHost (Machine.init 100 ())
  pure (callingNodes run.2.trace)

theorem execute_confined_logPackage : ∃ verified, verifyBytes logPackage = .ok verified ∧
    ∃ result final, executeInner verified.package.graph (Vector.replicate _ ⟨7⟩) acceptingHost
        (Machine.init 100 ()) = some (result, final) ∧
      callingNodes final.trace = [3] ∧
        ∀ later earlier index request reply,
          final.trace = later ++ .called index request reply :: earlier →
            ∃ node, verified.package.graph.NodeAt index node request.opcode ∧
              Authority verified.package.graph (Vector.replicate _ ⟨7⟩) earlier node.input1
                request := by
  have hcalls : acceptedCalls logPackage (Vector.replicate _ ⟨7⟩) = some [3] := by decide +kernel
  cases hverified : verifyBytes logPackage with
  | error fault => simp [acceptedCalls, hverified, Except.toOption] at hcalls
  | ok verified =>
    obtain ⟨result, final, hrun, hconfined⟩ :=
      execute_confined hverified (Vector.replicate _ ⟨7⟩) 100 acceptingHost ()
    refine ⟨verified, rfl, result, final, hrun, ?_, hconfined⟩
    simpa [acceptedCalls, hverified, Except.toOption, hrun] using hcalls

end Pythos.Runtime
