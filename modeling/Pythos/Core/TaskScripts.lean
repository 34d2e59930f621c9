import Pythos.Core.RecordedRevisions
import Pythos.Core.TaskEdits

/-!
# The scripts of the task service

Every operation of the task service stores records one by one: a task under a status, an event, or a record
of another kind. `TaskEdit.Stores` says what such a step does to the stored records, and `Edits` chains the
steps of a script. Each operation has one theorem that gives its script, and `edits_after` gives the script
of a whole call; what holds of every edit then holds of every operation.
-/

namespace Pythos.Core

open Foundation Shared Stateful

/-! ### Edits -/

/-- What a step of the task service stores: a new task, a task under another status, an event about a
task, a new record of another kind, or a proposal that was decided. -/
inductive TaskEdit
  | newTask (taskId : UInt64)
  | status (taskId : UInt64) (status : TaskStatus)
  | event (eventKind : UInt16) (taskId : UInt64)
  | record (kind : ObjectKind)
  | decided (proposalId : UInt64)

/-- The record that a creation adds, under an identity that was allocated from a base. -/
structure Allocated (base : UInt64) (result : UInt64 → Except TaskServiceError TypedObjectRecord)
    (record : TypedObjectRecord) (before after : ObjectService) : Prop where
  built : result (allocateObjectId before base) = .ok record
  created : Created record before.taskServiceObjects after.taskServiceObjects

/-- An edit leads from one state of the objects to another. -/
inductive TaskEdit.Stores (before after : ObjectService) : TaskEdit → Prop
  | newTask {titleHash : UInt64} {fingerprint : TaskFingerprint} {record : TypedObjectRecord}
      (h : Allocated taskIdBase (taskRecord · .active titleHash fingerprint) record before after) :
      Stores before after (.newTask (allocateObjectId before taskIdBase))
  | status {taskId titleHash : UInt64} {status : TaskStatus} {fingerprint : TaskFingerprint}
      {record old : TypedObjectRecord} (built : taskRecord taskId status titleHash fingerprint = .ok record)
      (kind_eq : old.objectKind = .task)
      (revised : Revised old record before.taskServiceObjects after.taskServiceObjects) :
      Stores before after (.status taskId status)
  | event {eventKind : UInt16} {taskId proposalId : UInt64}
      {context : UInt64 → Option TaskContextEvent} {record : TypedObjectRecord}
      (h : Allocated eventIdBase (fun eventId ↦ eventRecord eventId eventKind taskId proposalId
        (context eventId)) record before after) :
      Stores before after (.event eventKind taskId)
  | record {base : UInt64} {kind : ObjectKind} {fields : List (UInt16 × Bytes)}
      {record : TypedObjectRecord} (h : Allocated base (recordWith · kind fields) record before after)
      (hkind : kind ≠ .task ∧ kind ≠ .taskEvent)
      (hbase : base ∈ [proposalIdBase, relationIdBase, relevanceAssertionIdBase]) :
      Stores before after (.record kind)
  | decided {proposalId : UInt64} {proposal : StoredProposal} {record old : TypedObjectRecord}
      (built : proposalRecord proposalId proposal = .ok record) (kind_eq : old.objectKind = .taskProposal)
      (revised : Revised old record before.taskServiceObjects after.taskServiceObjects) :
      Stores before after (.decided proposalId)

/-- The edits of a script lead from one state of the objects to another. Each is an operation of the object
service that records a revision. -/
inductive Edits : List TaskEdit → ObjectService → ObjectService → Prop
  | nil (objects : ObjectService) : Edits [] objects objects
  | cons {edit : TaskEdit} {script : List TaskEdit} {before middle after : ObjectService}
      (stores : edit.Stores before middle) (raised : before.recordedRevisions < middle.recordedRevisions)
      (performed : ∃ operation : ObjectService.Operation, operation.perform before = middle)
      (rest : Edits script middle after) : Edits (edit :: script) before after

namespace Edits

variable {script next : List TaskEdit} {before middle after : ObjectService}

theorem append (h : Edits script before middle) (hnext : Edits next middle after) :
    Edits (script ++ next) before after := by
  induction h with
  | nil => exact hnext
  | cons stores raised performed _ ih => exact .cons stores raised performed (ih hnext)

theorem recordedRevisions_le (h : Edits script before after) :
    before.recordedRevisions ≤ after.recordedRevisions := by
  induction h with
  | nil => exact le_rfl
  | cons _ raised _ _ ih => exact raised.le.trans ih

/-- A script that is not empty records a revision. -/
theorem recordedRevisions_lt (h : Edits script before after) (hne : script ≠ []) :
    before.recordedRevisions < after.recordedRevisions := by
  cases h with
  | nil => exact absurd rfl hne
  | cons _ raised _ rest => exact raised.trans_le rest.recordedRevisions_le

theorem reachable (h : Edits script before after) (hbefore : before.Reachable) : after.Reachable := by
  induction h with
  | nil => exact hbefore
  | cons _ _ performed _ ih =>
    obtain ⟨operation, rfl⟩ := performed
    exact ih (hbefore.performed operation)

end Edits

/-- A record of a kind is stored under an identity. -/
def HoldsKind (objects : ObjectService) (objectId : UInt64) (kind : ObjectKind) : Prop :=
  ∃ record, recordAt objects.taskServiceObjects objectId = some record ∧ record.objectKind = kind

theorem holds_of_storedProposal {objects : ObjectService} {proposalId : UInt64} {proposal : StoredProposal}
    (h : storedProposal objects proposalId = .ok proposal) : HoldsKind objects proposalId .taskProposal := by
  unfold storedProposal at h
  cases hfound : objects.taskServiceObject proposalId with
  | none => rw [hfound] at h; cases h
  | some found =>
    rw [hfound] at h
    dsimp only at h
    split_ifs at h with hkind
    exact ⟨found, taskServiceObject_eq _ _ ▸ hfound, not_not.mp hkind⟩

/-- No edit removes a record or changes its kind. -/
theorem TaskEdit.Stores.holds {before after : ObjectService} {edit : TaskEdit}
    (h : edit.Stores before after) {objectId : UInt64} {kind : ObjectKind}
    (hholds : HoldsKind before objectId kind) : HoldsKind after objectId kind := by
  obtain ⟨found, hfound, hkind⟩ := hholds
  cases h with
  | newTask h | event h | record h => exact ⟨found, h.created.recordAt_eq hfound, hkind⟩
  | status built kind_eq revised =>
    obtain ⟨found', hfound', hkind'⟩ := revised.exists_recordAt
      ((taskRecord_eq_ok built).2.1.trans kind_eq.symm) hfound
    exact ⟨found', hfound', hkind'.trans hkind⟩
  | decided built kind_eq revised =>
    obtain ⟨found', hfound', hkind'⟩ := revised.exists_recordAt
      ((recordWith_eq_ok built).2.1.trans kind_eq.symm) hfound
    exact ⟨found', hfound', hkind'.trans hkind⟩

theorem Edits.holds {script : List TaskEdit} {before after : ObjectService} (h : Edits script before after)
    {objectId : UInt64} {kind : ObjectKind} (hholds : HoldsKind before objectId kind) :
    HoldsKind after objectId kind := by
  induction h with
  | nil => exact hholds
  | cons stores _ _ _ ih => exact ih (stores.holds hholds)

/-! ### Steps -/

theorem ite_bind {ε σ α : Type} {condition : Prop} [Decidable condition] {program : Stateful ε σ Unit}
    {next : Unit → Stateful ε σ α} : (if condition then program >>= next else next ()) =
      (if condition then program else pure ()) >>= next := by
  split_ifs <;> rfl

section Steps

variable {objects : ObjectService} (caller : TaskCaller)

theorem edits_createRecord {edit : TaskEdit} (objects : ObjectService) (base : UInt64)
    (result : UInt64 → Except TaskServiceError TypedObjectRecord)
    (hstores : ∀ {record objects'}, Allocated base result record objects objects' →
      edit.Stores objects objects') :
    Ensures (createRecord caller (result (allocateObjectId objects base)))
      (fun _ objects' ↦ Edits [edit] objects objects') (fun _ _ ↦ True) objects := by
  refine ((ensures_createRecord caller _).and (records_createRecord caller _ objects)).imp ?_
  rintro _ objects' ⟨⟨record, hrecord, hcreated, hperformed⟩, hraised⟩
  exact .cons (hstores ⟨hrecord, hcreated⟩) hraised ⟨.createTaskServiceObject _ _, hperformed⟩ (.nil _)

theorem edits_reviseRecord {edit : TaskEdit} {result : Except TaskServiceError TypedObjectRecord}
    (hstores : ∀ {old record objects'}, result = .ok record →
      Revised old record objects.taskServiceObjects objects'.taskServiceObjects →
        edit.Stores objects objects') :
    Ensures (reviseRecord caller result) (fun _ objects' ↦ Edits [edit] objects objects')
      (fun _ _ ↦ True) objects := by
  refine ((ensures_reviseRecord caller _).and (records_reviseRecord caller _ objects)).imp ?_
  rintro _ objects' ⟨⟨old, record, hrecord, hrevised, hperformed⟩, hraised⟩
  exact .cons (hstores hrecord hrevised) hraised ⟨.reviseTaskServiceObject _ _, hperformed⟩ (.nil _)

/-- The record that a revision finds is the one that is read by its identity. -/
theorem Revised.eq_of_found {old record found : TypedObjectRecord} {records after : List TypedObjectRecord}
    {objectId : UInt64} (h : Revised old record records after) (hid : record.objectId = ⟨objectId⟩)
    (hfound : recordAt records objectId = some found) : old = found := by
  have hat := h.found
  rw [hid, hfound] at hat
  exact (Option.some_inj.mp hat).symm

theorem edits_setTaskStatusOn (taskId : UInt64) (status : TaskStatus) :
    Ensures (setTaskStatusOn caller taskId status)
      (fun _ objects' ↦ Edits [.status taskId status] objects objects') (fun _ _ ↦ True) objects := by
  rw [setTaskStatusOn, ensures_bind, ensures_read]
  cases hfound : objects.taskServiceObject taskId with
  | none => trivial
  | some found =>
    rw [ensures_ite]
    refine ⟨fun _ ↦ trivial, fun hkind ↦ ?_⟩
    cases taskTitleHash found with
    | none => trivial
    | some titleHash =>
      refine edits_reviseRecord caller fun hrecord hrevised ↦ .status hrecord ?_ hrevised
      rw [hrevised.eq_of_found (taskRecord_eq_ok hrecord).1 (taskServiceObject_eq _ _ ▸ hfound)]
      exact not_not.mp hkind

theorem edits_appendEventOn (eventKind : UInt16) (taskId proposalId : UInt64)
    (context : Option TaskContextEvent) :
    Ensures (appendEventOn caller eventKind taskId proposalId context)
      (fun _ objects' ↦ Edits [.event eventKind taskId] objects objects') (fun _ _ ↦ True) objects := by
  simp only [appendEventOn, ensures_bind, ensures_read, ensures_pure]
  have hcreate := edits_createRecord caller objects eventIdBase (fun eventId ↦ eventRecord eventId eventKind
    taskId proposalId (context.map fun event ↦ { event with eventId })) fun h ↦ TaskEdit.Stores.event h
  exact hcreate

/-- The status of a task changes, and an event says so. -/
theorem edits_setTaskStatusOn_appendEventOn (taskId : UInt64) (status : TaskStatus) (eventKind : UInt16)
    (proposalId : UInt64) :
    Ensures (do
        setTaskStatusOn caller taskId status
        let _ ← appendEventOn caller eventKind taskId proposalId none)
      (fun _ objects' ↦ Edits [.status taskId status, .event eventKind taskId] objects objects')
      (fun _ _ ↦ True) objects := by
  simp only [ensures_bind]
  refine (edits_setTaskStatusOn caller taskId status).imp fun _ objects₁ h₁ ↦ ?_
  exact (edits_appendEventOn caller _ _ _ _).imp fun _ _ h₂ ↦ h₁.append h₂

theorem edits_reviseProposal {proposalId : UInt64} (hstored : HoldsKind objects proposalId .taskProposal)
    (decided : StoredProposal) :
    Ensures (reviseRecord caller (proposalRecord proposalId decided))
      (fun _ objects' ↦ Edits [.decided proposalId] objects objects') (fun _ _ ↦ True) objects := by
  obtain ⟨found, hfound, hkind⟩ := hstored
  refine edits_reviseRecord caller fun hrecord hrevised ↦ .decided hrecord ?_ hrevised
  rwa [hrevised.eq_of_found (recordWith_eq_ok hrecord).1 hfound]

end Steps

/-! ### Operations -/

namespace TaskService

section Operations

variable {objects : ObjectService} (caller : TaskCaller)

/-- The suspension of a task. -/
def suspension (taskId : UInt64) : List TaskEdit :=
  [.status taskId .suspended, .event eventTaskSuspended taskId]

/-- The script of `create_task`: the active task is suspended. -/
def creation (active : Option UInt64) (taskId : UInt64) : List TaskEdit :=
  active.toList.flatMap suspension ++ [.newTask taskId, .event eventTaskCreated taskId]

theorem edits_createTaskOn (title : Bytes) :
    Ensures (createTaskOn caller title)
      (fun taskId objects' ↦ Edits (creation (activeTaskIdIn objects) taskId) objects objects')
      (fun _ _ ↦ True) objects := by
  have hrest (objects₁ : ObjectService) : Ensures (do
      let objects ← Stateful.read
      let taskId := allocateObjectId objects taskIdBase
      createRecord caller (taskRecord taskId .active (stableHash title)
        (defaultTaskFingerprint (stableHash title)))
      let _ ← appendEventOn caller eventTaskCreated taskId 0 none
      pure taskId : TaskProgram UInt64)
      (fun taskId objects' ↦ Edits [.newTask taskId, .event eventTaskCreated taskId] objects₁ objects')
      (fun _ _ ↦ True) objects₁ := by
    simp only [ensures_bind, ensures_read, ensures_pure]
    refine (edits_createRecord caller _ taskIdBase (taskRecord · .active _ _) .newTask).imp fun _ _ h₁ ↦ ?_
    exact (edits_appendEventOn caller _ _ _ _).imp fun _ _ h₂ ↦ h₁.append h₂
  simp only [createTaskOn, ensures_bind, ensures_read]
  cases activeTaskIdIn objects with
  | none => exact hrest objects
  | some activeTaskId =>
    refine ensures_bind.mpr ((edits_setTaskStatusOn caller activeTaskId .suspended).imp fun _ _ h₁ ↦ ?_)
    refine ensures_bind.mpr ((edits_appendEventOn caller _ _ _ _).imp fun _ objects₂ h₂ ↦ ?_)
    exact (hrest objects₂).imp fun _ _ h₃ ↦ (h₁.append h₂).append h₃

theorem edits_createProposalOn (input : ProposalInput) :
    Ensures (createProposalOn caller input)
      (fun _ objects' ↦ Edits [.record .taskProposal, .event eventProposalCreated input.targetTaskId]
        objects objects')
      (fun _ _ ↦ True) objects := by
  simp only [createProposalOn, ensures_bind, ensures_read, ensures_pure]
  refine (edits_createRecord caller _ proposalIdBase (proposalRecord · _) fun h ↦
    .record h (by decide) (by decide)).imp fun _ _ h₁ ↦ ?_
  exact (edits_appendEventOn caller _ _ _ _).imp fun _ _ h₂ ↦ h₁.append h₂

/-- An approval makes a task active: one that exists, or a new one. -/
inductive Approves (taskId : UInt64) : TaskEdit → Prop
  | resumed : Approves taskId (.status taskId .active)
  | created : Approves taskId (.newTask taskId)

theorem edits_approvedTaskOn (proposal : StoredProposal) :
    Ensures (approvedTaskOn caller proposal)
      (fun taskId objects' ↦ ∃ edit, Approves taskId edit ∧ Edits [edit] objects objects')
      (fun _ _ ↦ True) objects := by
  unfold approvedTaskOn
  cases proposal.kind with
  | continuation =>
    simp only [ensures_bind, ensures_pure]
    exact (edits_setTaskStatusOn caller _ .active).imp fun _ _ h ↦ ⟨_, .resumed, h⟩
  | _ =>
    simp only [ensures_bind, ensures_read, ensures_pure]
    exact (edits_createRecord caller _ taskIdBase (taskRecord · .active _ _) .newTask).imp fun _ _ h ↦
      ⟨_, .created, h⟩

theorem edits_suspendCurrentOn (activeBefore : Option UInt64) (taskId proposalId : UInt64) :
    Ensures (suspendCurrentOn caller activeBefore taskId proposalId)
      (fun _ objects' ↦ Edits ((activeBefore.filter (· ≠ taskId)).toList.flatMap suspension)
        objects objects')
      (fun _ _ ↦ True) objects := by
  cases activeBefore with
  | none => exact .nil objects
  | some activeTaskId =>
    rw [suspendCurrentOn, ensures_ite]
    refine ⟨fun hne ↦ ?_, fun heq ↦ ?_⟩
    · rw [Option.filter_some_pos (by simpa using hne)]
      exact edits_setTaskStatusOn_appendEventOn caller activeTaskId .suspended _ _
    · rw [Option.filter_some_neg (by simpa using heq)]
      exact .nil objects

/-- The script of `approve_proposal` after the approved task is active. -/
def approval (active : Option UInt64) (suspendCurrent : Bool) (taskId proposalId : UInt64) :
    List TaskEdit :=
  (if suspendCurrent then (active.filter (· ≠ taskId)).toList.flatMap suspension else [])
    ++ [.record .taskRelation, .decided proposalId, .event eventProposalApproved taskId]

theorem edits_approveProposalOn (proposalId : UInt64) (suspendCurrent : Bool) :
    Ensures (approveProposalOn caller proposalId suspendCurrent)
      (fun taskId objects' ↦ ∃ edit, Approves taskId edit ∧ Edits
        (edit :: approval (activeTaskIdIn objects) suspendCurrent taskId proposalId) objects objects')
      (fun _ _ ↦ True) objects := by
  rw [approveProposalOn, ensures_bind, ensures_read, ensures_bind]
  refine ensures_ofExcept.mpr ⟨fun proposal hproposal ↦ ?_, fun _ _ ↦ trivial⟩
  refine ensures_ite.mpr ⟨fun _ ↦ trivial, fun _ ↦ ensures_bind.mpr ?_⟩
  refine (edits_approvedTaskOn caller proposal).imp fun taskId objects₁ ↦ ?_
  rintro ⟨edit, happroves, h₁⟩
  have hsuspend : Ensures (if suspendCurrent then
      suspendCurrentOn caller (activeTaskIdIn objects) taskId proposalId else pure ())
      (fun _ objects' ↦ Edits (if suspendCurrent then
        ((activeTaskIdIn objects).filter (· ≠ taskId)).toList.flatMap suspension else []) objects₁ objects')
      (fun _ _ ↦ True) objects₁ := by
    cases suspendCurrent with
    | false => exact .nil objects₁
    | true => exact edits_suspendCurrentOn caller _ _ _
  dsimp only
  rw [ite_bind, ensures_bind]
  refine hsuspend.imp fun _ objects₂ h₂ ↦ ?_
  simp only [ensures_bind, ensures_read, ensures_pure]
  refine (edits_createRecord caller _ relationIdBase (relationRecord · _ _ _) fun h ↦
    .record h (by decide) (by decide)).imp fun _ objects₃ h₃ ↦ ?_
  have h := h₁.append (h₂.append h₃)
  refine (edits_reviseProposal caller (h.holds (holds_of_storedProposal hproposal)) _).imp
    fun _ objects₄ h₄ ↦ ?_
  refine (edits_appendEventOn caller _ _ _ _).imp fun _ objects₅ h₅ ↦ ⟨edit, happroves, ?_⟩
  have happroval := h₁.append (h₂.append (h₃.append (h₄.append h₅)))
  simpa only [approval, List.cons_append, List.nil_append, List.append_assoc] using happroval

theorem edits_rejectProposalOn (proposalId : UInt64) :
    Ensures (rejectProposalOn caller proposalId)
      (fun _ objects' ↦ ∃ taskId, Edits [.decided proposalId, .event eventProposalRejected taskId]
        objects objects')
      (fun _ _ ↦ True) objects := by
  rw [rejectProposalOn, ensures_bind, ensures_read, ensures_bind]
  refine ensures_ofExcept.mpr ⟨fun proposal hproposal ↦ ?_, fun _ _ ↦ trivial⟩
  refine ensures_ite.mpr ⟨fun _ ↦ trivial, fun _ ↦ ensures_bind.mpr ?_⟩
  refine (edits_reviseProposal caller (holds_of_storedProposal hproposal) _).imp fun _ _ h₁ ↦ ?_
  rw [ensures_bind]
  exact (edits_appendEventOn caller _ _ _ _).imp fun _ _ h₂ ↦ ⟨_, h₁.append h₂⟩

theorem edits_appendTaskEventOn (taskId : UInt64) (context : Option TaskContextEvent) :
    Ensures (appendTaskEventOn caller taskId context)
      (fun _ objects' ↦ Edits [.event eventTaskAppended taskId] objects objects')
      (fun _ _ ↦ True) objects := by
  simp only [appendTaskEventOn, ensures_bind, ensures_read, ensures_ite]
  exact ⟨fun _ ↦ trivial, fun _ ↦ edits_appendEventOn caller _ _ _ _⟩

theorem edits_recordRelevanceOn (summary : TaskContextSummary) :
    Ensures (recordRelevanceOn caller summary)
      (fun _ objects' ↦ Edits [.record .relevanceAssertion] objects objects') (fun _ _ ↦ True) objects := by
  simp only [recordRelevanceOn, ensures_bind, ensures_read]
  exact edits_createRecord caller _ relevanceAssertionIdBase (relevanceAssertionRecord · summary) fun h ↦
    .record h (by decide) (by decide)

end Operations

end TaskService

/-! ### Calls -/

/-- The scripts that a call may run on the objects. -/
def TaskCall.Runs (objects : ObjectService) (script : List TaskEdit) : TaskCall → Prop
  | .createTask .. => ∃ taskId, script = TaskService.creation (activeTaskIdIn objects) taskId
  | .createProposal _ _ input =>
    script = [.record .taskProposal, .event eventProposalCreated input.targetTaskId]
  | .approveProposal _ _ proposalId suspendCurrent => ∃ taskId edit, TaskService.Approves taskId edit ∧
    script = edit :: TaskService.approval (activeTaskIdIn objects) suspendCurrent taskId proposalId
  | .suspendTask _ _ taskId => script = TaskService.suspension taskId
  | .reviveTask _ _ taskId => script = [.status taskId .active, .event eventTaskRevived taskId]
  | .completeTask _ _ taskId => script = [.status taskId .completed, .event eventTaskCompleted taskId]
  | .abandonTask _ _ taskId => script = [.status taskId .abandoned, .event eventTaskAbandoned taskId]
  | .appendTaskEvent _ _ taskId | .appendTaskContextEvent _ _ taskId _ =>
    script = [.event eventTaskAppended taskId]
  | .rejectProposal _ _ proposalId =>
    ∃ taskId, script = [.decided proposalId, .event eventProposalRejected taskId]
  | .readContextSummary .. => script = [.record .relevanceAssertion]
  | .listPendingProposals .. | .readActiveTask .. | .grantStewardProposalCapability .. => False

namespace TaskService

/-- A call leaves the objects as they were, or runs one of its scripts on them. -/
theorem edits_after (service : TaskService) (call : TaskCall) :
    (service.after call).objects = service.objects ∨
      ∃ script, call.Runs service.objects script ∧
        Edits script service.objects (service.after call).objects := by
  let runs : ObjectService → Prop := fun objects' ↦ objects' = service.objects ∨
    ∃ script, call.Runs service.objects script ∧ Edits script service.objects objects'
  have hcall {α : Type} {program : TaskProgram α} (caller : TaskCaller) (token : PackedCapability)
      (rights : UInt64) (h : Ensures program (fun _ objects' ↦ ∃ script,
        call.Runs service.objects script ∧ Edits script service.objects objects') (fun _ _ ↦ True)
        service.objects) :
      runs ((validate caller token rights >>= fun _ ↦ onStaged program) service).2.objects :=
    holds_after_call runs caller token rights (h.imp fun _ _ h ↦ .inr h) (.inl rfl)
  cases call with
  | createTask caller token title =>
    exact hcall _ _ _ ((edits_createTaskOn caller title).imp fun taskId _ h ↦ ⟨_, ⟨taskId, rfl⟩, h⟩)
  | createProposal caller token input =>
    exact hcall _ _ _ ((edits_createProposalOn caller input).imp fun _ _ h ↦ ⟨_, rfl, h⟩)
  | approveProposal caller token proposalId suspendCurrent =>
    refine hcall _ _ _ ((edits_approveProposalOn caller proposalId suspendCurrent).imp ?_)
    rintro taskId _ ⟨edit, happroves, h⟩
    exact ⟨_, ⟨taskId, edit, happroves, rfl⟩, h⟩
  | suspendTask caller token taskId | reviveTask caller token taskId | completeTask caller token taskId
  | abandonTask caller token taskId =>
    exact hcall _ _ _ ((edits_setTaskStatusOn_appendEventOn caller taskId _ _ _).imp fun _ _ h ↦
      ⟨_, rfl, h⟩)
  | appendTaskEvent caller token taskId | appendTaskContextEvent caller token taskId event =>
    exact hcall _ _ _ ((edits_appendTaskEventOn caller taskId _).imp fun _ _ h ↦ ⟨_, rfl, h⟩)
  | rejectProposal caller token proposalId =>
    refine hcall _ _ _ ((edits_rejectProposalOn caller proposalId).imp ?_)
    rintro _ _ ⟨taskId, h⟩
    exact ⟨_, ⟨taskId, rfl⟩, h⟩
  | listPendingProposals caller token space =>
    exact .inl (objects_read caller token _ (fun objects ↦ listLoop objects _ space) service)
  | readActiveTask caller token =>
    exact .inl (objects_read caller token _ (fun objects ↦ .ok (activeTaskIdIn objects)) service)
  | readContextSummary caller token =>
    exact holds_after_readContextSummary runs caller token (fun summary ↦
      (edits_recordRelevanceOn caller summary).imp fun _ _ h ↦ .inr ⟨_, rfl, h⟩) (.inl rfl)
  | grantStewardProposalCapability caller =>
    exact .inl (objects_grantStewardProposalCapability caller service)

/-- Over every sequence of calls the stored records stay, each under its identity and of its kind, and the
objects are as they were unless a revision was recorded. -/
theorem run_keepsRecords (service : TaskService) (calls : List TaskCall) :
    (∀ objectId kind, HoldsKind service.objects objectId kind →
      HoldsKind (service.run calls).objects objectId kind) ∧
      ((service.run calls).objects = service.objects ∨
        service.objects.recordedRevisions < (service.run calls).objects.recordedRevisions) := by
  obtain ⟨script, h⟩ : ∃ script, Edits script service.objects (service.run calls).objects := by
    induction calls generalizing service with
    | nil => exact ⟨[], .nil _⟩
    | cons call calls ih =>
      obtain ⟨rest, hrest⟩ := ih (service.after call)
      rcases edits_after service call with hsame | ⟨script, -, hscript⟩
      · exact ⟨rest, hsame ▸ hrest⟩
      · exact ⟨script ++ rest, hscript.append hrest⟩
  refine ⟨fun _ _ ↦ h.holds, ?_⟩
  generalize (service.run calls).objects = after at h ⊢
  cases h with
  | nil => exact .inl rfl
  | cons _ raised _ rest => exact .inr (raised.trans_le rest.recordedRevisions_le)

end TaskService

end Pythos.Core
