import Pythos.Core.TaskScripts

/-!
# The steward can only propose

A call with the rights of the steward, or with a token that was not issued to its caller, passes the check
of two operations only: a proposal adds a proposal and an event, and the reading of the context adds at most
a relevance assertion. Over any sequence of such calls the tasks, the stored proposals and the active task
stay as they were.
-/

namespace Pythos.Core

open Foundation Shared Stateful

/-! ### Authority -/

/-- The capabilities that are currently issued. -/
def TaskAuthorityState.issued (authority : TaskAuthorityState) : List IssuedTaskCapability :=
  [authority.userTaskControl, authority.stewardProposal, authority.extraIssued]

/-- The token is a capability of the steward, or was not issued to the caller. -/
def TaskAuthorityState.StewardOrUnissued (authority : TaskAuthorityState) (caller : TaskCaller)
    (token : PackedCapability) : Prop :=
  ∀ issued ∈ authority.issued, issued.IssuedTo caller token → issued.rights = stewardTaskRights

instance (authority : TaskAuthorityState) (caller : TaskCaller) (token : PackedCapability) :
    Decidable (authority.StewardOrUnissued caller token) :=
  inferInstanceAs (Decidable (∀ issued ∈ authority.issued, _))

theorem not_validates {issued : IssuedTaskCapability} {caller : TaskCaller} {token : PackedCapability}
    {requiredRights : UInt64} (h : issued.IssuedTo caller token → issued.rights = stewardTaskRights)
    (hrights : stewardTaskRights &&& requiredRights ≠ requiredRights) :
    issued.validates caller token requiredRights = false := by
  rw [IssuedTaskCapability.validates, decide_eq_false_iff_not]
  rintro ⟨hissued, hcovers⟩
  rw [h hissued] at hcovers
  exact hrights hcovers

/-- Rights beyond those of the steward are denied. -/
theorem TaskAuthorityState.StewardOrUnissued.validate_eq {authority : TaskAuthorityState}
    {caller : TaskCaller} {token : PackedCapability} (h : authority.StewardOrUnissued caller token)
    {requiredRights : UInt64} (hrights : stewardTaskRights &&& requiredRights ≠ requiredRights) :
    authority.validate caller token requiredRights = .error .denied := by
  have hall : ∀ issued ∈ authority.issued, issued.validates caller token requiredRights = false :=
    fun issued hissued ↦ not_validates (h issued hissued) hrights
  simp only [issued, List.forall_mem_cons, List.not_mem_nil, false_implies, implies_true, and_true] at hall
  rw [validate, hall.1, hall.2.1, hall.2.2]
  rfl

/-! ### Additions of the steward -/

/-- The kinds of the records that the steward adds. -/
def stewardKinds : List ObjectKind := [.taskProposal, .taskEvent, .relevanceAssertion]

/-- The task records, in the order of their slots. -/
def tasksOf (objects : ObjectService) : List TypedObjectRecord :=
  objects.taskServiceObjects.filter fun record ↦ record.objectKind = .task

/-- Nothing but proposals, events and relevance assertions was added, and nothing was changed. -/
structure OnlyProposes (before after : ObjectService) : Prop where
  tasks_eq : tasksOf after = tasksOf before
  kept : ∀ objectId record, before.taskServiceObject objectId = some record →
    after.taskServiceObject objectId = some record
  added : ∀ record ∈ after.taskServiceObjects,
    record ∈ before.taskServiceObjects ∨ record.objectKind ∈ stewardKinds

/-- The edits that the steward makes. -/
def TaskEdit.Proposes : TaskEdit → Prop
  | .record kind => kind ∈ stewardKinds
  | .event .. => True
  | _ => False

namespace OnlyProposes

variable {before middle after : ObjectService}

theorem refl (objects : ObjectService) : OnlyProposes objects objects :=
  ⟨rfl, fun _ _ h ↦ h, fun _ h ↦ Or.inl h⟩

theorem trans (h : OnlyProposes before middle) (h' : OnlyProposes middle after) :
    OnlyProposes before after where
  tasks_eq := h'.tasks_eq.trans h.tasks_eq
  kept := fun objectId record hrecord ↦ h'.kept objectId record (h.kept objectId record hrecord)
  added := fun record hrecord ↦ by
    rcases h'.added record hrecord with hmiddle | hkind
    · exact h.added record hmiddle
    · exact Or.inr hkind

theorem of_created {record : TypedObjectRecord} (hkind : record.objectKind ∈ stewardKinds)
    (h : Created record before.taskServiceObjects after.taskServiceObjects) :
    OnlyProposes before after := by
  obtain ⟨left, right, hbefore, hafter⟩ := h.inserted
  have hnotTask : record.objectKind ≠ .task := by
    rintro heq
    rw [heq] at hkind
    exact absurd hkind (by decide)
  refine ⟨?_, fun objectId old hold ↦ ?_, fun other hother ↦ ?_⟩
  · rw [tasksOf, tasksOf, hbefore, hafter, List.filter_append, List.filter_append,
      List.filter_cons_of_neg (by simpa using hnotTask)]
  · rw [taskServiceObject_eq] at hold ⊢
    exact h.recordAt_eq hold
  · rw [hafter, List.mem_append, List.mem_cons] at hother
    rw [hbefore, List.mem_append]
    rcases hother with hleft | rfl | hright
    · exact Or.inl (Or.inl hleft)
    · exact Or.inr hkind
    · exact Or.inl (Or.inr hright)

/-- A script of new proposals, events and relevance assertions only proposes. -/
theorem of_edits {script : List TaskEdit} (h : Edits script before after)
    (hscript : ∀ edit ∈ script, edit.Proposes) : OnlyProposes before after := by
  induction h with
  | nil => exact refl _
  | cons stores _ _ _ ih =>
    rw [List.forall_mem_cons] at hscript
    refine trans ?_ (ih hscript.2)
    cases stores with
    | event h =>
      refine of_created ?_ h.created
      rw [(recordWith_eq_ok h.built).2.1]
      decide
    | record h =>
      refine of_created ?_ h.created
      rw [(recordWith_eq_ok h.built).2.1]
      exact hscript.1
    | _ => exact hscript.1.elim

/-- The active task is the first active one among the tasks. -/
theorem active_eq (h : OnlyProposes before after) : activeTaskIdIn after = activeTaskIdIn before := by
  have hfind : ∀ objects : ObjectService,
      activeTaskIdIn objects = firstActiveTaskId (tasksOf objects) := by
    intro objects
    rw [activeTaskIdIn, firstActiveTaskId, firstActiveTaskId, tasksOf, List.find?_filter]
    congr 2
    funext record
    by_cases hkind : record.objectKind = .task
    · simp [hkind]
    · simp [hkind, isActiveTask]
  rw [hfind, hfind, h.tasks_eq]

/-- A stored proposal reads as before. -/
theorem storedProposal_eq (h : OnlyProposes before after) {proposalId : UInt64} {proposal : StoredProposal}
    (hstored : storedProposal before proposalId = .ok proposal) :
    storedProposal after proposalId = .ok proposal := by
  unfold storedProposal at hstored ⊢
  cases hrecord : before.taskServiceObject proposalId with
  | none => rw [hrecord] at hstored; cases hstored
  | some record =>
    rw [hrecord] at hstored
    rw [h.kept proposalId record hrecord]
    exact hstored

end OnlyProposes

/-! ### Calls -/

namespace TaskService

variable {service : TaskService}

/-- A denied call leaves the objects as they were. -/
theorem objects_denied {α : Type} {caller : TaskCaller} {token : PackedCapability} {requiredRights : UInt64}
    (h : service.authority.StewardOrUnissued caller token)
    (hrights : stewardTaskRights &&& requiredRights ≠ requiredRights) (program : Program α) :
    ((validate caller token requiredRights >>= fun _ ↦ program) service).2.objects = service.objects := by
  have hdenied : Ensures (validate caller token requiredRights >>= fun _ ↦ program)
      (fun _ _ ↦ False) (fun _ service' ↦ service' = service) service := by
    simp only [validate, ensures_bind, ensures_read, h.validate_eq hrights]
    exact ensures_ofExcept.mpr ⟨fun _ hok ↦ absurd hok (by simp), fun _ _ ↦ rfl⟩
  rcases hdenied.cases with ⟨_, -, hfalse⟩ | ⟨_, -, heq⟩
  · exact hfalse.elim
  · rw [heq]

end TaskService

/-- The caller and the token of a call; the grant needs none. -/
def TaskCall.presents : TaskCall → Option (TaskCaller × PackedCapability)
  | .createTask caller authority _ | .createProposal caller authority _
  | .approveProposal caller authority _ _ | .suspendTask caller authority _
  | .reviveTask caller authority _ | .completeTask caller authority _
  | .abandonTask caller authority _ | .appendTaskEvent caller authority _
  | .appendTaskContextEvent caller authority _ _ | .rejectProposal caller authority _
  | .listPendingProposals caller authority _ | .readActiveTask caller authority
  | .readContextSummary caller authority => some (caller, authority)
  | .grantStewardProposalCapability _ => none

/-- A call presents a capability of the steward or a token not issued to its caller. -/
def TaskService.CallsAsSteward (service : TaskService) (call : TaskCall) : Prop :=
  ∀ presented ∈ call.presents, service.authority.StewardOrUnissued presented.1 presented.2

namespace TaskService

/-- One call with the rights of the steward only proposes. -/
theorem onlyProposes_after {service : TaskService} {call : TaskCall}
    (h : service.CallsAsSteward call) : OnlyProposes service.objects (service.after call).objects := by
  have hsame : ∀ {objects : ObjectService}, objects = service.objects →
      OnlyProposes service.objects objects := by
    rintro _ rfl
    exact OnlyProposes.refl _
  rcases service.edits_after call with heq | ⟨script, hruns, hedits⟩
  · exact hsame heq
  cases call with
  | createProposal caller token input | readContextSummary caller token =>
    refine .of_edits hedits ?_
    rw [hruns]
    simp [TaskEdit.Proposes, stewardKinds]
  | listPendingProposals | readActiveTask | grantStewardProposalCapability => exact hruns.elim
  | _ => exact hsame (objects_denied (h _ rfl) (by decide) _)

/-- Over every sequence of calls that carry a capability of the steward or a token not issued to their
caller, the tasks, the stored proposals and the active task stay as they were, and only proposals, events
and relevance assertions are added. -/
theorem run_onlyProposes (service : TaskService) (calls : List TaskCall)
    (h : EachStep after CallsAsSteward service calls) :
    OnlyProposes service.objects (service.run calls).objects ∧
      activeTaskIdIn (service.run calls).objects = activeTaskIdIn service.objects ∧
      ∀ proposalId proposal, storedProposal service.objects proposalId = .ok proposal →
        storedProposal (service.run calls).objects proposalId = .ok proposal := by
  suffices hproposes : OnlyProposes service.objects (service.run calls).objects from
    ⟨hproposes, hproposes.active_eq, fun _ _ hstored ↦ hproposes.storedProposal_eq hstored⟩
  exact EachStep.foldl_induction (fun first last : TaskService ↦ OnlyProposes first.objects last.objects)
    (fun state ↦ OnlyProposes.refl state.objects) (fun _ _ _ hfirst hsecond ↦ hfirst.trans hsecond)
    (fun _ _ hcall ↦ onlyProposes_after hcall) calls h

/-- The process of the shell in a seeded service, as the task service is started with it. -/
def shellProcess : TaskCaller := { process := ObjectService.seededService.shellCaller, copyMap := [] }

/-- The service over the seeded objects. -/
def seededTaskService : TaskService :=
  { objects := ObjectService.seededService, authority := .new shellProcess }

/-- The steward proposes a task, and the shell tries to approve it with the token of the steward. -/
def stewardCalls : List TaskCall :=
  [.createProposal stewardProcess seededTaskService.authority.stewardProposal.token
      { kind := .newTask, targetTaskId := 3000, candidateTaskId := 0, score := 85, title := [0x54]
        reason := [0x52] },
    .approveProposal shellProcess seededTaskService.authority.stewardProposal.token 4000 true]

theorem run_onlyProposes_stewardCalls :
    EachStep after CallsAsSteward seededTaskService stewardCalls ∧
      ((seededTaskService.run stewardCalls).objects.taskServiceObject 4000).isSome = true ∧
      OnlyProposes seededTaskService.objects (seededTaskService.run stewardCalls).objects := by
  have hcalls : EachStep after CallsAsSteward seededTaskService stewardCalls := by
    refine ⟨?_, ?_, trivial⟩
    · rintro presented ⟨⟩
      decide +kernel
    · rintro presented ⟨⟩
      decide +kernel
  exact ⟨hcalls, by decide +kernel, (run_onlyProposes seededTaskService stewardCalls hcalls).1⟩

end TaskService

end Pythos.Core
