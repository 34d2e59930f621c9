import Pythos.Runtime.Confinement

/-!
# Texts of the host stay coherent

A `HostUtf8` value holds the producer and the length of a text but not its bytes, which are read from the
result table when the value is used. A producer in a loop overwrites its result, so the table may hold a
newer result than the one the value was projected from. The verifier admits a projection only in the run
of projections right behind its producer: between the overwrite and the new projection there is no node
but projections, and every other node reads the text that was projected.

The result a value was projected from is read off the trace (`resultAtProjection`).
-/

namespace Pythos.Runtime

open Foundation Shared Tig

/-! ### Results of a trace -/

/-- The last result that the host answered a node with. -/
def currentResult (producer : ℕ) : List Event → Option HostCallResult
  | [] => none
  | .called index _ (.ok result) :: earlier =>
    if index = producer then some result else currentResult producer earlier
  | _ :: earlier => currentResult producer earlier

/-- The result of the producer that was current when a node was last dispatched. -/
def resultAtProjection (index producer : ℕ) : List Event → Option HostCallResult
  | [] => none
  | .dispatched node :: earlier =>
    if node = index then currentResult producer earlier else resultAtProjection index producer earlier
  | _ :: earlier => resultAtProjection index producer earlier

section Invariant

variable {σ : Type} {g : Graph} {imports : Vector PackedCapability maxPythGraphImports}
  {host : Host σ}

/-- A text value stands for the result it was projected from: the table still holds it, or the run is
between its producer and its projection. -/
def TextCoherent (config : Config σ) (index producer : ℕ) (len : UInt16) : Prop :=
  ∃ result, resultAtProjection index producer config.machine.trace = some result ∧
    result.bytesLen = len ∧
      (config.machine.hostResults[producer]?.join = some result ∨
        (producer < config.next ∧ config.next ≤ index))

/-- The tables of a machine agree with its trace. -/
structure Coherent (config : Config σ) : Prop where
  current : ∀ (producer : ℕ) result, config.machine.hostResults[producer]?.join = some result →
    currentResult producer config.machine.trace = some result
  texts : ∀ (index : ℕ) producer len,
    config.machine.values[index]?.join = some (.hostUtf8 producer len) →
      TextCoherent config index producer len

variable {config : Config σ} {node : NodeRecord} {opcode : Opcode} {config' : Config σ}

/-- A node other than a projection finds the text of every value in the table. -/
theorem Coherent.kept (haccepted : Accepted g) (h : Coherent config) (hsound : Sound g config)
    (hnode : g.NodeAt config.next node opcode) (hother : opcode ≠ .hostResult) {index producer : ℕ}
    {len : UInt16} (htext : config.machine.values[index]?.join = some (.hostUtf8 producer len)) :
    ∃ result, resultAtProjection index producer config.machine.trace = some result ∧
      result.bytesLen = len ∧ config.machine.hostResults[producer]?.join = some result := by
  obtain ⟨result, hprojected, hlen, hkept | ⟨hlow, hhigh⟩⟩ := h.texts index producer len htext
  · exact ⟨result, hprojected, hlen, hkept⟩
  · exact absurd (hsound.stale_text haccepted hnode htext hlow hhigh) hother

/-! ### One step -/

section Step

variable {action : Action} {machine' : Machine σ}
  (hstep : Stepped g imports host config config' node opcode action machine')

include hstep

/-- Entering the next block answers no node. -/
theorem Stepped.currentResult_eq (producer : ℕ) :
    currentResult producer config'.machine.trace = currentResult producer machine'.trace :=
  hstep.read_eq (fun machine ↦ currentResult producer machine.trace) fun _ _ ↦ rfl

/-- The node was dispatched after what came before the step. -/
theorem Stepped.resultAtProjection_eq (index producer : ℕ) :
    resultAtProjection index producer config'.machine.trace =
      if config.next = index then currentResult producer config.machine.trace
      else resultAtProjection index producer config.machine.trace := by
  refine (hstep.read_eq (fun machine ↦ resultAtProjection index producer machine.trace) fun _ _ ↦ rfl).trans ?_
  cases hstep.performs <;> rfl

variable (haccepted : Accepted g) (h : Coherent config) (hsound : Sound g config)

include haccepted h hsound

/-- The results in the table are the last ones that the host returned. -/
theorem Coherent.current_step {producer : ℕ} {result : HostCallResult}
    (hresult : config'.machine.hostResults[producer]?.join = some result) :
    currentResult producer config'.machine.trace = some result := by
  have hcalled (request : HostRequest) (answer : HostCallResult) : currentResult producer
      (.called config.next request (.ok answer) :: (config.machine.charge config.next).trace) =
        if config.next = producer then some answer else currentResult producer config.machine.trace := rfl
  rw [hstep.currentResult_eq]
  rw [hstep.hostResults_eq] at hresult
  have hprepared := hstep.prepared
  cases hstep.performs with
  | store value | proceed => exact h.current producer result hresult
  | emit hreply hvalidator =>
    -- An operation without a result has no slot that holds one.
    have hne : config.next ≠ producer := by
      rintro rfl
      obtain ⟨type, htype, hfits⟩ := haccepted.fits hstep.nodeAt
      obtain ⟨node', opcode', hnode', validate, hkeeper, -⟩ := hsound.kept _ result hresult
      rw [← (hstep.nodeAt.unique hnode').2, ← (callFits_of_call htype hfits hprepared).opcode_eq,
        keeper_opcode, hvalidator] at hkeeper
      cases hkeeper
    show currentResult producer (.called config.next _ (host _ config.machine.host).1 :: _) = _
    change (host _ config.machine.host).1 = _ at hreply
    rw [hreply, hcalled, if_neg hne]
    exact h.current producer result hresult
  | keep hreply hvalidator hvalid =>
    change (config.machine.hostResults.set config.next (some _))[producer]?.join = _ at hresult
    rw [join_set (hsound.next_lt haccepted hstep.nodeAt).2] at hresult
    show currentResult producer (.called config.next _ (host _ config.machine.host).1 :: _) = _
    change (host _ config.machine.host).1 = _ at hreply
    rw [hreply, hcalled]
    split_ifs at hresult with heq
    · rw [if_pos heq.symm, hresult]
    · rw [if_neg (Ne.symm heq)]
      exact h.current producer result hresult

/-- One step of a run keeps the tables in agreement with the trace. -/
theorem Coherent.step : Coherent config' := by
  obtain ⟨value, result, hchanges⟩ := hstep.changes haccepted hsound
  refine ⟨fun _ _ hresult ↦ h.current_step hstep haccepted hsound hresult, fun index producer len hvalue ↦ ?_⟩
  unfold TextCoherent
  rw [hstep.resultAtProjection_eq, hchanges.results]
  rw [hchanges.values] at hvalue
  split_ifs at hvalue with heq
  · obtain ⟨result, hresult, hlen, -⟩ := hchanges.text producer len hvalue
    have hafter := (hchanges.fits _ hvalue).producer_lt haccepted hstep.nodeAt
    rw [if_pos heq.symm, if_neg hafter.ne]
    exact ⟨result, h.current producer result hresult, hlen, Or.inl hresult⟩
  · obtain ⟨old, hprojected, hlen, hkept | hstale⟩ := h.texts index producer len hvalue
    · rw [if_neg (Ne.symm heq)]
      refine ⟨old, hprojected, hlen, ?_⟩
      by_cases hproducer : producer = config.next
      · exact Or.inr (hstep.waits haccepted hsound heq hvalue (Or.inl ⟨hproducer, old, hkept⟩))
      · rw [if_neg hproducer]
        exact Or.inl hkept
    · rw [if_neg (Ne.symm heq)]
      exact ⟨old, hprojected, hlen, Or.inr (hstep.waits haccepted hsound heq hvalue (Or.inr hstale))⟩

end Step

/-- Every configuration that a run reaches agrees with its trace. -/
theorem Reaches.coherent (haccepted : Accepted g) {budget : UInt64} {state : σ}
    (h : Reaches g imports host (Machine.init budget state) config) : Coherent config := by
  induction h with
  | enter hblock =>
    refine ⟨fun producer result hresult ↦ ?_, fun index producer len hvalue ↦ ?_⟩
    · simp [Machine.enter, Machine.init, join_replicate_none] at hresult
    · simp [Machine.enter, Machine.init, join_replicate_none] at hvalue
  | step hreaches hstep ih =>
    have hposition := hreaches.positioned haccepted rfl
    obtain ⟨-, node, opcode, action, machine', hstepped⟩ := hstep.step haccepted hposition
    exact ih.step hstepped haccepted (hreaches.sound haccepted)

/-! ### Reading a text -/

/-- The bytes of a text value whose result is in the table. -/
theorem expectUtf8Bytes_of_kept {values : List (Option Value)}
    {hostResults : List (Option HostCallResult)} {index producer : ℕ} {len : UInt16}
    {result : HostCallResult} (htext : values[index]?.join = some (.hostUtf8 producer len))
    (hkept : hostResults[producer]?.join = some result) (hlen : result.bytesLen = len)
    (hbound : result.bytesLen.toNat ≤ maxHostResultBytes) (hvalid : utf8Valid result.text = true) :
    expectUtf8Bytes g values hostResults index = .ok result.text := by
  subst hlen
  have htake : result.bytes.toList.take result.bytesLen.toNat = result.text := rfl
  simp only [expectUtf8Bytes, loadValue, htext, okOrElse, ok_bind, hkept, if_neg (not_lt.mpr hbound),
    htake, hvalid, if_true]

/-- Coherence of host texts: whenever a node other than a projection is about to be executed, the bytes
it reads from a `HostUtf8` value are the text of the result that was current when the value was
projected. -/
theorem execute_textCoherent {bytes : Bytes} {verified : VerifiedGraph}
    (hverified : verifyBytes bytes = .ok verified)
    (imports : Vector PackedCapability maxPythGraphImports) (budget : UInt64) (host : Host σ)
    (state : σ) {config : Config σ}
    (hreaches : Reaches verified.package.graph imports host (Machine.init budget state) config)
    {node : NodeRecord} {opcode : Opcode}
    (hnode : verified.package.graph.NodeAt config.next node opcode) (hother : opcode ≠ .hostResult)
    {index producer : ℕ} {len : UInt16}
    (htext : config.machine.values[index]?.join = some (.hostUtf8 producer len)) :
    ∃ result, resultAtProjection index producer config.machine.trace = some result ∧
      expectUtf8Bytes verified.package.graph config.machine.values config.machine.hostResults index =
        .ok result.text := by
  have haccepted := accepted_of_verifyBytes hverified
  have hsound := hreaches.sound haccepted
  obtain ⟨result, hprojected, hlen, hkept⟩ :=
    (hreaches.coherent haccepted).kept haccepted hsound hnode hother htext
  refine ⟨result, hprojected, ?_⟩
  rcases hsound.texts index producer len htext with ⟨kept, hsame, -, hbound, hvalid⟩ | ⟨hlow, hhigh⟩
  · obtain rfl : result = kept := Option.some_inj.mp (hkept.symm.trans hsame)
    exact expectUtf8Bytes_of_kept htext hkept hlen hbound hvalid
  · exact absurd (hsound.stale_text haccepted hnode htext hlow hhigh) hother

end Invariant

/-! ### A loop that overwrites its result -/

section Advance

variable {σ : Type} (g : Graph) (imports : Vector PackedCapability maxPythGraphImports)
  (host : Host σ)

/-- The next configuration of a run, if the node does not end it. -/
def advance (config : Config σ) : Option (Config σ) :=
  match executeNode g imports host config.next config.machine with
  | (.ok none, machine) =>
    match g.blocks[config.block]? with
    | some block =>
      if config.next + 1 < block.stop then some ⟨config.block, config.next + 1, machine⟩ else none
    | none => none
  | (.ok (some (.jump target)), machine) =>
    match g.blocks[target]? with
    | some block => some ⟨target, block.firstNode, machine.enter target⟩
    | none => none
  | _ => none

theorem successor_of_advance {config config' : Config σ}
    (h : advance g imports host config = some config') : Successor g imports host config config' := by
  unfold advance at h
  split at h
  · rename_i hstep
    split at h
    · rename_i hblock
      split_ifs at h with hindex
      exact Option.some.inj h ▸ .next hblock hindex hstep
    · cases h
  · rename_i hstep
    split at h
    · rename_i hblock
      exact Option.some.inj h ▸ .jump hstep hblock
    · cases h
  · cases h

/-- The configuration of a run after a number of nodes. -/
def configAfter (start : Machine σ) : ℕ → Option (Config σ)
  | 0 => g.blocks[g.entryBlock]?.map fun block ↦
      ⟨g.entryBlock, block.firstNode, start.enter g.entryBlock⟩
  | steps + 1 => (configAfter start steps).bind (advance g imports host)

theorem reaches_configAfter (start : Machine σ) (steps : ℕ) : ∀ config,
    configAfter g imports host start steps = some config → Reaches g imports host start config := by
  induction steps with
  | zero =>
    intro config h
    obtain ⟨block, hblock, rfl⟩ := Option.map_eq_some_iff.mp h
    exact .enter hblock
  | succ steps ih =>
    intro config h
    obtain ⟨before, hbefore, hadvance⟩ := Option.bind_eq_some_iff.mp h
    exact .step (ih before hbefore) (successor_of_advance g imports host hadvance)

end Advance

/-- A package whose loop reads a command and logs its text. -/
def echoPackage : Bytes :=
  (PackageContent.of [.of 0 0 4 2, .of 1 4 4 0]
    [.of .blockParam .capability 0 [] 0 0, .of .blockParam .capability 0 [] 1 0,
      .of .effectStart .effect 0 [] 0 0, .of .jump .unit 0 [] 1 0,
      .of .commandRead .effect 1 [2, 0] 0 0, .of .hostResult .utf8 1 [4] 4 0,
      .of .systemLog .effect 1 [4, 1, 5] 0 0, .of .jump .unit 1 [] 1 0]
    [.of 0 6 0, .of 3 1 1] [99, 109, 100, 108, 111, 103]).encode

/-- A host that answers each request with a longer text. -/
def growingHost : Host ℕ := fun _ state ↦
  (.ok { status := 0, bytesLen := state.toUInt16, reserved0 := 1, objectId := 0, revision := 0,
         capability := ⟨0⟩, bytes := Vector.replicate _ 97, reserved1 := Vector.replicate _ 0 },
    state + 1)

/-- The log node of the second turn of the loop reads the text of the second command. -/
theorem execute_textCoherent_echoPackage : ∃ verified, verifyBytes echoPackage = .ok verified ∧
    ∃ config : Config ℕ, Reaches verified.package.graph (Vector.replicate _ ⟨7⟩) growingHost
        (Machine.init 100 0) config ∧ config.next = 6 ∧
      ∃ result, resultAtProjection 5 4 config.machine.trace = some result ∧
        expectUtf8Bytes verified.package.graph config.machine.values config.machine.hostResults 5 =
          .ok result.text := by
  have hvalue : ((verifyBytes echoPackage).toOption.bind fun verified ↦
      (configAfter verified.package.graph (Vector.replicate _ ⟨7⟩) growingHost (Machine.init 100 0)
        10).map fun config ↦ (config.next, config.machine.values[5]?.join,
          (verified.package.graph.nodes[6]?).map fun node ↦ Opcode.ofCode node.opcode)) =
      some (6, some (.hostUtf8 4 2), some (some .systemLog)) := by decide +kernel
  cases hverified : verifyBytes echoPackage with
  | error fault => simp [hverified, Except.toOption] at hvalue
  | ok verified =>
    simp only [hverified, Except.toOption, Option.bind_some, Option.map_eq_some_iff,
      Prod.mk.injEq] at hvalue
    obtain ⟨config, hconfig, hnext, htext, node, hnode, hopcode⟩ := hvalue
    have hreaches := reaches_configAfter _ _ growingHost (Machine.init 100 0) 10 config hconfig
    have hat : verified.package.graph.NodeAt config.next node .systemLog := by
      rw [hnext]
      exact ⟨hnode, hopcode⟩
    exact ⟨verified, rfl, config, hreaches, hnext,
      execute_textCoherent hverified _ 100 growingHost 0 hreaches hat (by decide) htext⟩

end Pythos.Runtime
