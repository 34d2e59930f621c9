import Pythos.Runtime.Confinement

/-!
# The budget of a run

Two runs that differ in their budget alone do the same until the smaller budget is spent. A machine with
a larger budget (`Machine.grant`) is dispatched like the machine it was granted to, as long as that one
has budget left, and a run only adds to its trace: so the shorter run is a beginning of the longer one
(`Follows`), and the whole of it unless it ran out of budget. What a run spends (`Spends`) bounds the
nodes it executes and the calls it makes.
-/

namespace Pythos.Runtime

open Foundation Shared Tig

variable {σ : Type}

/-! ### The calls of a run -/

/-- The request of an event, if it is a call. -/
def Event.request : Event → Option HostRequest
  | .called _ request _ => some request
  | _ => none

/-- The requests that a run made to its host, in order. -/
def hostCalls (trace : List Event) : List HostRequest :=
  trace.reverse.filterMap Event.request

theorem hostCalls_mono {trace trace' : List Event} (h : trace <:+ trace') :
    hostCalls trace <+: hostCalls trace' :=
  (List.reverse_prefix.mpr h).filterMap _

theorem length_hostCalls_cons_le (event : Event) (trace : List Event) :
    (hostCalls (event :: trace)).length ≤ (hostCalls trace).length + 1 := by
  have hevent : ([event].filterMap Event.request).length ≤ 1 := List.length_filterMap_le ..
  simp only [hostCalls, List.reverse_cons, List.filterMap_append, List.length_append]
  omega

@[simp] theorem hostCalls_dispatched (index : ℕ) (trace : List Event) :
    hostCalls (.dispatched index :: trace) = hostCalls trace := by
  simp [hostCalls, Event.request]

@[simp] theorem hostCalls_entered (block : ℕ) (trace : List Event) :
    hostCalls (.entered block :: trace) = hostCalls trace := by
  simp [hostCalls, Event.request]

/-! ### What a run spends -/

/-- The machine after a part of a run: the trace grew, no budget was gained, and every call was paid for
with a node. -/
structure Spends (before after : Machine σ) : Prop where
  trace_suffix : before.trace <:+ after.trace
  spent_le : after.executedNodes + after.budget ≤ before.executedNodes + before.budget
  calls_le : (hostCalls after.trace).length + before.executedNodes ≤
    (hostCalls before.trace).length + after.executedNodes

theorem Spends.refl (machine : Machine σ) : Spends machine machine :=
  ⟨List.suffix_refl _, le_rfl, le_rfl⟩

theorem Spends.trans {first second third : Machine σ} (h : Spends first second)
    (h' : Spends second third) : Spends first third where
  trace_suffix := h.trace_suffix.trans h'.trace_suffix
  spent_le := h'.spent_le.trans h.spent_le
  calls_le := by
    have hfirst := h.calls_le
    have hsecond := h'.calls_le
    omega

theorem spends_enter (machine : Machine σ) (block : ℕ) : Spends machine (machine.enter block) where
  trace_suffix := List.suffix_cons ..
  spent_le := le_rfl
  calls_le := by simp [Machine.enter]

/-- An action adds one call at most to the trace. -/
theorem perform_trace (host : Host σ) (index : ℕ) (machine : Machine σ) (action : Action) :
    (perform host index machine action).2.trace = machine.trace ∨
      ∃ request reply, (perform host index machine action).2.trace =
        .called index request reply :: machine.trace := by
  cases action with
  | store value =>
    unfold perform storeValue
    split_ifs <;> exact .inl rfl
  | proceed => exact .inl rfl
  | call request =>
    refine .inr ⟨request, (host request machine.host).1, ?_⟩
    simp only [perform, callHost, finishCall, storeHostResult, storeValue]
    repeat' split
    all_goals rfl

section Runs

variable (g : Graph) (imports : Vector PackedCapability maxPythGraphImports) (host : Host σ)

section

variable (index : ℕ) (machine : Machine σ)

theorem runNode_trace :
    (runNode g imports host index machine).2.trace = machine.trace ∨
      ∃ request reply, (runNode g imports host index machine).2.trace =
        .called index request reply :: machine.trace := by
  rcases runNode_cases g imports host index machine with ⟨error, herror⟩ | ⟨_, _, action, -, -, hrun⟩
  · exact .inl (by rw [herror])
  · exact hrun ▸ perform_trace host index machine action

theorem spends_runNode (hbudget : machine.budget ≠ 0) :
    Spends machine (runNode g imports host index (machine.charge index)).2 := by
  have hcharge := sameCharge_runNode g imports host index (machine.charge index)
  have hspent : (runNode g imports host index (machine.charge index)).2.executedNodes +
      (runNode g imports host index (machine.charge index)).2.budget ≤
        machine.executedNodes + machine.budget := by
    rw [hcharge.executedNodes_eq, hcharge.budget_eq]
    show machine.executedNodes + 1 + (machine.budget - 1) ≤ _
    omega
  rcases runNode_trace g imports host index (machine.charge index) with htrace | ⟨request, reply, htrace⟩
  · refine ⟨htrace ▸ List.suffix_cons .., hspent, ?_⟩
    rw [htrace, hcharge.executedNodes_eq]
    simp [Machine.charge]
  · refine ⟨htrace ▸ (List.suffix_cons ..).trans (List.suffix_cons ..), hspent, ?_⟩
    rw [htrace, hcharge.executedNodes_eq]
    have hcalls := length_hostCalls_cons_le (.called index request reply) (machine.charge index).trace
    simp only [Machine.charge, hostCalls_dispatched] at hcalls ⊢
    omega

theorem spends_dispatchNode : Spends machine (dispatchNode g imports host index machine).2 := by
  rcases dispatchNode_cases g imports host index machine with
    ⟨error, final, herror, -, -, htrace, hexecuted, hspent⟩ | ⟨hbudget, hrun⟩
  · rw [herror]
    refine ⟨htrace ▸ List.suffix_refl _, hspent, ?_⟩
    rw [htrace]
    exact Nat.add_le_add_left hexecuted _
  · exact hrun ▸ spends_runNode g imports host index machine hbudget

theorem executeNode_snd :
    (executeNode g imports host index machine).2 = (dispatchNode g imports host index machine).2 := by
  unfold executeNode
  split <;> rename_i h <;> rw [h]

theorem spends_executeNode : Spends machine (executeNode g imports host index machine).2 :=
  executeNode_snd g imports host index machine ▸ spends_dispatchNode g imports host index machine

end

theorem spends_executeNodes (remaining : ℕ) : ∀ (index : ℕ) (machine : Machine σ),
    Spends machine (executeNodes g imports host remaining index machine).2 := by
  induction remaining with
  | zero => exact fun _ machine ↦ .refl machine
  | succ remaining ih =>
    intro index machine
    have hnode := spends_executeNode g imports host index machine
    rw [executeNodes]
    split <;> rename_i h <;> rw [h] at hnode
    · exact hnode
    · exact hnode
    · exact hnode.trans (ih _ _)

theorem spends_executeBlock (blockIndex : ℕ) (machine : Machine σ) :
    Spends machine (executeBlock g imports host blockIndex machine).2 := by
  unfold executeBlock
  split
  · exact .refl machine
  · split_ifs
    · exact (spends_enter machine blockIndex).trans (spends_executeNodes g imports host _ _ _)
    · exact .refl machine

theorem spends_executeBlocks (fuel : ℕ) : ∀ (blockIndex : ℕ) (machine final : Machine σ)
    (result : Except RuntimeError Unit),
      executeBlocks g imports host fuel blockIndex machine = some (result, final) →
        Spends machine final := by
  induction fuel with
  | zero => exact fun _ _ _ _ h ↦ nomatch h
  | succ fuel ih =>
    intro blockIndex machine final result h
    have hblock := spends_executeBlock g imports host blockIndex machine
    rw [executeBlocks] at h
    split at h <;> rename_i hstep <;> rw [hstep] at hblock
    · obtain ⟨-, rfl⟩ := Prod.mk.inj (Option.some.inj h)
      exact hblock
    · obtain ⟨-, rfl⟩ := Prod.mk.inj (Option.some.inj h)
      exact hblock
    · exact hblock.trans (ih _ _ _ _ h)

/-! ### A larger budget -/

/-- The machine with more budget. -/
def Machine.grant (machine : Machine σ) (more : ℕ) : Machine σ :=
  { machine with budget := machine.budget + more }

section

variable (machine : Machine σ) (more : ℕ)

@[simp] theorem grant_values : (machine.grant more).values = machine.values := rfl

@[simp] theorem grant_hostResults : (machine.grant more).hostResults = machine.hostResults := rfl

@[simp] theorem grant_host : (machine.grant more).host = machine.host := rfl

@[simp] theorem grant_executedNodes :
    (machine.grant more).executedNodes = machine.executedNodes := rfl

end

/-- A run with more budget at its end. -/
abbrev granted {α : Type} (more : ℕ) (run : α × Machine σ) : α × Machine σ :=
  (run.1, run.2.grant more)

/-- The larger budget of two runs that start alike. -/
theorem init_grant {small large : UInt64} (h : small ≤ large) (state : σ) :
    Machine.init large state = (Machine.init small state).grant (large.toNat - small.toNat) := by
  have hle : small.toNat ≤ large.toNat := UInt64.le_iff_toNat_le.mp h
  simp [Machine.init, Machine.grant, Nat.add_sub_cancel' hle]

/-- The run with more budget does what the run with less does, until that one runs out of budget. -/
structure Follows {α : Type} (more : ℕ) (short long : Except RuntimeError α × Machine σ) : Prop where
  trace_suffix : short.2.trace <:+ long.2.trace
  eq_grant : short.1 ≠ .error .budgetExhausted → long = (short.1, short.2.grant more)

theorem Follows.of_eq {α : Type} {more : ℕ} {short long : Except RuntimeError α × Machine σ}
    (h : long = granted more short) : Follows more short long :=
  ⟨h ▸ List.suffix_refl _, fun _ ↦ h⟩

theorem storeValue_grant (index : ℕ) (value : Value) (machine : Machine σ) (more : ℕ) :
    storeValue index value (machine.grant more) =
      granted more (storeValue index value machine) := by
  unfold storeValue
  by_cases h : index < machine.values.length
  · rw [if_pos h, if_pos (by exact h)]
    rfl
  · rw [if_neg h, if_neg (by exact h)]

theorem finishCall_grant (index : ℕ) (request : HostRequest) (result : HostCallResult)
    (machine : Machine σ) (more : ℕ) : finishCall index request result (machine.grant more) =
      granted more (finishCall index request result machine) := by
  unfold finishCall
  split
  · exact storeValue_grant ..
  · split
    · rfl
    · unfold storeHostResult
      by_cases h : index < machine.hostResults.length
      · rw [if_pos h, if_pos (by exact h)]
        exact storeValue_grant index (.effect index) (machine.keep index result) more
      · rw [if_neg h, if_neg (by exact h)]

theorem perform_grant (index : ℕ) (machine : Machine σ) (more : ℕ) (action : Action) :
    perform host index (machine.grant more) action =
      granted more (perform host index machine action) := by
  cases action with
  | store value => exact storeValue_grant ..
  | proceed => rfl
  | call request =>
    show callHost host index request (machine.grant more) =
      granted more (callHost host index request machine)
    simp only [callHost, grant_host]
    cases (host request machine.host).1 with
    | error error => rfl
    | ok result =>
      exact finishCall_grant index request result
        (machine.answered index request (host request machine.host)) more

theorem runNode_grant (index : ℕ) (machine : Machine σ) (more : ℕ) :
    runNode g imports host index (machine.grant more) =
      granted more (runNode g imports host index machine) := by
  unfold runNode
  split
  · rfl
  · split
    · rfl
    · simp only [grant_values, grant_hostResults]
      cases prepare g imports machine.values machine.hostResults index _ _ with
      | error error => rfl
      | ok action => exact perform_grant ..

theorem grant_charge (index : ℕ) {machine : Machine σ} (hbudget : machine.budget ≠ 0) (more : ℕ) :
    (machine.grant more).charge index = (machine.charge index).grant more := by
  have hspent : machine.budget + more - 1 = machine.budget - 1 + more := by omega
  simp [Machine.charge, Machine.grant, hspent]

/-- A machine with budget left is dispatched like the machine with more. -/
theorem dispatchNode_grant (index : ℕ) {machine : Machine σ} (hbudget : machine.budget ≠ 0) (more : ℕ) :
    dispatchNode g imports host index (machine.grant more) =
      granted more (dispatchNode g imports host index machine) := by
  have hgranted : (machine.grant more).budget ≠ 0 := by
    simp only [Machine.grant]
    omega
  have hspent : machine.budget + more - 1 = machine.budget - 1 + more := by omega
  unfold dispatchNode
  rw [if_neg hbudget, if_neg hgranted, grant_charge index hbudget, runNode_grant,
    grant_executedNodes]
  split_ifs
  · rfl
  · simp [Machine.grant, hspent]
  · simp [Machine.grant, hspent]

theorem follows_executeNode (index : ℕ) (machine : Machine σ) (more : ℕ) :
    Follows more (executeNode g imports host index machine)
      (executeNode g imports host index (machine.grant more)) := by
  by_cases hbudget : machine.budget = 0
  · have hshort : executeNode g imports host index machine = (.error .budgetExhausted,
        { machine with lastNode := if index < 2 ^ 32 then index else noValue }) := by
      rw [executeNode, dispatchNode, if_pos hbudget]
    rw [hshort]
    exact ⟨(spends_executeNode g imports host index (machine.grant more)).trace_suffix,
      fun h ↦ absurd rfl h⟩
  · refine .of_eq ?_
    unfold executeNode
    rw [dispatchNode_grant g imports host index hbudget more]
    split <;> rename_i h <;> obtain ⟨hstatus, rfl⟩ := Prod.mk.inj h <;>
      split <;> rename_i h' <;> rw [h'] at hstatus ⊢
    · cases hstatus
      rfl
    · cases hstatus
    · cases hstatus
    · rfl

theorem follows_executeNodes (more remaining : ℕ) : ∀ (index : ℕ) (machine : Machine σ),
    Follows more (executeNodes g imports host remaining index machine)
      (executeNodes g imports host remaining index (machine.grant more)) := by
  induction remaining with
  | zero => exact fun _ _ ↦ .of_eq rfl
  | succ remaining ih =>
    intro index machine
    have hnode := follows_executeNode g imports host index machine more
    cases hstep : executeNode g imports host index machine with
    | mk status final =>
      rw [hstep] at hnode
      by_cases hexhausted : status = .error .budgetExhausted
      · -- The long run goes on, and only adds to the trace.
        rw [executeNodes, executeNodes, hstep, hexhausted]
        refine ⟨hnode.trace_suffix.trans ?_, fun h ↦ absurd rfl h⟩
        split <;> rename_i h <;> rw [h]
        exact (spends_executeNodes g imports host remaining _ _).trace_suffix
      · rw [executeNodes, executeNodes, hnode.eq_grant hexhausted, hstep]
        rcases status with error | (_ | outcome)
        · exact .of_eq rfl
        · exact ih (index + 1) final
        · exact .of_eq rfl

theorem follows_executeBlock (more blockIndex : ℕ) (machine : Machine σ) :
    Follows more (executeBlock g imports host blockIndex machine)
      (executeBlock g imports host blockIndex (machine.grant more)) := by
  unfold executeBlock
  split
  · exact .of_eq rfl
  · split_ifs
    · exact follows_executeNodes g imports host more _ _ (machine.enter blockIndex)
    · exact .of_eq rfl

/-- Induction on the blocks of the shorter run, which the longer run enters too until the shorter one
stops. -/
theorem follows_executeBlocks (more fuel : ℕ) : ∀ (fuel' blockIndex : ℕ) (machine : Machine σ)
    (short long : Except RuntimeError Unit × Machine σ),
      executeBlocks g imports host fuel blockIndex machine = some short →
        executeBlocks g imports host fuel' blockIndex (machine.grant more) = some long →
          Follows more short long := by
  induction fuel with
  | zero =>
    intro _ _ _ _ _ h
    cases h
  | succ fuel ih =>
    intro fuel' blockIndex machine short long hshort hlong
    cases fuel' with
    | zero => cases hlong
    | succ fuel' =>
      have hblock := follows_executeBlock g imports host more blockIndex machine
      cases hstep : executeBlock g imports host blockIndex machine with
      | mk status final =>
        rw [hstep] at hblock
        rw [executeBlocks, hstep] at hshort
        by_cases hexhausted : status = .error .budgetExhausted
        · subst hexhausted
          obtain rfl := Option.some.inj hshort
          refine ⟨hblock.trace_suffix.trans ?_, fun h ↦ absurd rfl h⟩
          rw [executeBlocks] at hlong
          split at hlong <;> rename_i h <;> rw [h]
          · exact Option.some.inj hlong ▸ List.suffix_refl _
          · exact Option.some.inj hlong ▸ List.suffix_refl _
          · exact (spends_executeBlocks g imports host fuel' _ _ _ _ hlong).trace_suffix
        · rw [executeBlocks, hblock.eq_grant hexhausted] at hlong
          rcases status with error | (_ | target)
          · obtain rfl := Option.some.inj hshort
            exact .of_eq (Option.some.inj hlong).symm
          · obtain rfl := Option.some.inj hshort
            exact .of_eq (Option.some.inj hlong).symm
          · exact ih fuel' target final short long hshort hlong

end Runs

/-! ### The budget law -/

/-- What an observer sees of an execution: the exit record and the calls of the host, in order. -/
def observe (verified : VerifiedGraph) (imports : Vector PackedCapability maxPythGraphImports)
    (budget : UInt64) (host : Host σ) (state : σ) : Option (GraphExitRecord × List HostRequest) :=
  (executeInner verified.package.graph imports host (Machine.init budget state)).map
    fun run ↦ (exitOf run.1 run.2, hostCalls run.2.trace)

theorem exitOf_executedNodes (result : Except RuntimeError Unit) (machine : Machine σ) :
    (exitOf result machine).executedNodes = machine.executedNodes := by
  unfold exitOf
  split <;> rfl

theorem exitOf_status {result : Except RuntimeError Unit} {machine : Machine σ}
    (h : (exitOf result machine).status ≠ graphExitBudgetExhausted) :
    result ≠ .error .budgetExhausted := by
  rintro rfl
  exact h rfl

theorem exitOf_grant (result : Except RuntimeError Unit) (machine : Machine σ) (more : ℕ) :
    exitOf result (machine.grant more) = exitOf result machine := by
  unfold exitOf
  split <;> rfl

/-- What is observed of the runs with two budgets. -/
theorem Follows.observed {more : ℕ} {short long : Except RuntimeError Unit × Machine σ}
    (h : Follows more short long) :
    hostCalls short.2.trace <+: hostCalls long.2.trace ∧
      ((exitOf short.1 short.2).status ≠ graphExitBudgetExhausted →
        exitOf long.1 long.2 = exitOf short.1 short.2 ∧
          hostCalls long.2.trace = hostCalls short.2.trace) := by
  refine ⟨hostCalls_mono h.trace_suffix, fun hstatus ↦ ?_⟩
  rw [h.eq_grant (exitOf_status hstatus)]
  exact ⟨exitOf_grant short.1 short.2 more, rfl⟩

/-- The budget law: an execution ends for every budget and stays within it, and an execution with a
smaller budget is a beginning of one with a larger budget, and the same if it did not exhaust its
budget. -/
theorem execute_budgetLaw {bytes : Bytes} {verified : VerifiedGraph}
    (hverified : verifyBytes bytes = .ok verified)
    (imports : Vector PackedCapability maxPythGraphImports) (host : Host σ) (state : σ) :
    (∀ budget : UInt64, ∃ exit calls,
      execute verified imports budget host state = some exit ∧
        observe verified imports budget host state = some (exit, calls) ∧
          exit.executedNodes ≤ budget.toNat ∧ calls.length ≤ budget.toNat) ∧
      ∀ (small large : UInt64), small ≤ large → ∀ shortExit shortCalls longExit longCalls,
        observe verified imports small host state = some (shortExit, shortCalls) →
          observe verified imports large host state = some (longExit, longCalls) →
            shortCalls <+: longCalls ∧
              (shortExit.status ≠ graphExitBudgetExhausted →
                longExit = shortExit ∧ longCalls = shortCalls) := by
  have haccepted := accepted_of_verifyBytes hverified
  constructor
  · intro budget
    obtain ⟨result, final, hrun, -⟩ := executeInner_ends haccepted imports host
      (Machine.init budget state)
    have hspends := spends_executeBlocks _ imports host _ _ _ _ _ hrun
    have hspent : final.executedNodes + final.budget ≤ 0 + budget.toNat := hspends.spent_le
    have hcalls : (hostCalls final.trace).length + 0 ≤ 0 + final.executedNodes := hspends.calls_le
    refine ⟨exitOf result final, hostCalls final.trace, by rw [execute, hrun]; rfl,
      by rw [observe, hrun]; rfl, ?_, by omega⟩
    rw [exitOf_executedNodes]
    omega
  · intro small large hle shortExit shortCalls longExit longCalls hshort hlong
    obtain ⟨short, hshortRun, hshortEq⟩ := Option.map_eq_some_iff.mp hshort
    obtain ⟨long, hlongRun, hlongEq⟩ := Option.map_eq_some_iff.mp hlong
    obtain ⟨rfl, rfl⟩ := Prod.mk.inj hshortEq
    obtain ⟨rfl, rfl⟩ := Prod.mk.inj hlongEq
    rw [init_grant hle] at hlongRun
    exact (follows_executeBlocks _ imports host _ _ _ _ _ _ _ hshortRun hlongRun).observed

/-- The observation of a package run against the accepting host. -/
def observeAccepted (bytes : Bytes) (imports : Vector PackedCapability maxPythGraphImports)
    (budget : UInt64) : Option (GraphExitRecord × List HostRequest) := do
  let verified ← (verifyBytes bytes).toOption
  observe verified imports budget acceptingHost ()

theorem execute_budgetLaw_logPackage : ∃ verified, verifyBytes logPackage = .ok verified ∧
    ∃ shortExit longExit longCalls,
      observe verified (Vector.replicate _ ⟨7⟩) 3 acceptingHost () = some (shortExit, []) ∧
        observe verified (Vector.replicate _ ⟨7⟩) 100 acceptingHost () = some (longExit, longCalls) ∧
          shortExit.status = graphExitBudgetExhausted ∧ longCalls.length = 1 ∧
            ([] : List HostRequest) <+: longCalls := by
  have hshort : (observeAccepted logPackage (Vector.replicate _ ⟨7⟩) 3).map
      (fun run ↦ (run.1.status, run.2)) = some (graphExitBudgetExhausted, []) := by decide +kernel
  have hlong : (observeAccepted logPackage (Vector.replicate _ ⟨7⟩) 100).map
      (fun run ↦ run.2.length) = some 1 := by decide +kernel
  cases hverified : verifyBytes logPackage with
  | error fault => simp [observeAccepted, hverified, Except.toOption] at hshort
  | ok verified =>
    simp only [observeAccepted, hverified, Except.toOption, Option.bind_eq_bind, Option.bind_some,
      Option.map_eq_some_iff, Prod.mk.injEq] at hshort hlong
    obtain ⟨⟨shortExit, shortCalls⟩, hshort, hstatus, rfl⟩ := hshort
    obtain ⟨⟨longExit, longCalls⟩, hlong, hlength⟩ := hlong
    refine ⟨verified, rfl, shortExit, longExit, longCalls, hshort, hlong, hstatus, hlength, ?_⟩
    exact ((execute_budgetLaw hverified (Vector.replicate _ ⟨7⟩) acceptingHost ()).2 3 100 (by decide)
      shortExit [] longExit longCalls hshort hlong).1

end Pythos.Runtime
