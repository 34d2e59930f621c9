import Pythos.Core.ServiceSyscalls
import Pythos.Core.TaskSteward

/-!
# Requests whose checkpoint fails

The dispatchers change the retained services first and write the checkpoint afterwards. A checkpoint that
fails undoes nothing: the process gets an error, and the services keep the change, which is then ahead of
what the device holds. Every operation that is followed by a checkpoint has recorded a revision when it was
accepted (`ensures_dispatch`), but for one: the reading of the context summary stores a relevance assertion
for the steward only.
-/

namespace Pythos.Core

open Foundation Shared Stateful

/-! ### Requests that were accepted -/

/-- The error does not come from a retained service. -/
def SyscallError.OfBuffer (error : SyscallError) : Prop :=
  ∀ cause, error ≠ .retainedService cause

section Buffers

variable {memory : Memory} {copyMap : UserCopyMap} {error : SyscallError}

theorem ofBuffer_of_validateRange {ptr length : UInt64} {access : UserCopyAccess}
    (h : validateRange copyMap ptr length access = .error error) : error.OfBuffer := by
  intro cause
  unfold validateRange at h
  split at h
  · cases h
  · obtain rfl := Except.error.inj h
    exact SyscallError.noConfusion

theorem ofBuffer_of_validateUserBuffer {ptr : UInt64} {length alignment : ℕ} {access : UserCopyAccess}
    (h : validateUserBuffer copyMap ptr length alignment access = .error error) : error.OfBuffer := by
  unfold validateUserBuffer at h
  split_ifs at h
  · exact ofBuffer_of_validateRange h
  · obtain rfl := Except.error.inj h
    exact fun _ ↦ SyscallError.noConfusion

theorem ofBuffer_of_checkedInput {limit : ℕ} {ptr length : UInt64}
    (h : checkedInput memory copyMap limit ptr length = .error error) : error.OfBuffer := by
  unfold checkedInput at h
  split_ifs at h
  · obtain rfl := Except.error.inj h
    exact fun _ ↦ SyscallError.noConfusion
  · obtain hrange | ⟨_, -, hread⟩ := bind_eq_error_iff.mp h
    · exact ofBuffer_of_validateRange hrange
    · cases hread

theorem ofBuffer_of_checkedInitialState {create : PackageDefinedObjectCreateV0}
    (h : checkedInitialState memory copyMap create = .error error) : error.OfBuffer := by
  unfold checkedInitialState at h
  split_ifs at h
  obtain hrange | ⟨_, -, hread⟩ := bind_eq_error_iff.mp h
  · exact ofBuffer_of_validateRange hrange
  · cases hread

theorem ofBuffer_of_checkedPackageDefinedCreateInput {request : ObjectShellRequest}
    (h : checkedPackageDefinedCreateInput memory copyMap request = .error error) : error.OfBuffer := by
  unfold checkedPackageDefinedCreateInput at h
  split_ifs at h
  obtain hbuffer | ⟨_, -, hcreate⟩ := bind_eq_error_iff.mp h
  · exact ofBuffer_of_validateUserBuffer hbuffer
  · dsimp only at hcreate
    split_ifs at hcreate
    obtain hstate | ⟨_, -, hinput⟩ := bind_eq_error_iff.mp hcreate
    · exact ofBuffer_of_checkedInitialState hstate
    · cases hinput

end Buffers

theorem errorResponse_status_ne (error : ObjectServiceError) : (errorResponse error).status ≠ statusOk := by
  cases error <;> simp [errorResponse, statusOk, statusDenied, statusNotFound, statusBadRequest]

theorem packageRetentionErrorResponse_status_ne (status : PackageStatus) :
    (packageRetentionErrorResponse status).status ≠ statusOk := by
  cases status <;> decide

theorem taskErrorResponse_status_ne (error : TaskServiceError) :
    (taskErrorResponse error).status ≠ statusOk := by
  cases error <;> simp [taskErrorResponse, statusOk, statusDenied, statusNotFound, statusBadRequest]

/-- An object operation that was accepted and is followed by a checkpoint has recorded a revision. -/
def RecordsObject (request : ObjectShellRequest) (before after : ObjectService) (reply : ObjectReply) :
    Prop :=
  reply.response.status = statusOk → objectOperationMutates request.operation = true →
    before.recordedRevisions < after.recordedRevisions

theorem recordsObject_of_ne {request : ObjectShellRequest} {before after : ObjectService}
    {response : ObjectShellResponse} {entries : List ObjectListEntry} (h : response.status ≠ statusOk) :
    RecordsObject request before after ⟨response, entries⟩ :=
  fun hok ↦ absurd hok h

theorem ensures_dispatchObjectRequestToService (caller : ActiveUserProcess) (request : ObjectShellRequest)
    (input : Bytes) (space : ℕ) (service : ObjectService) :
    Ensures (dispatchObjectRequestToService caller request input space)
      (fun reply service' ↦ RecordsObject request service service' reply) (fun _ _ ↦ False) service := by
  have hrefused (error : ObjectServiceError) (service' : ObjectService) :
      RecordsObject request service service' ⟨errorResponse error, []⟩ :=
    recordsObject_of_ne (errorResponse_status_ne error)
  rw [dispatchObjectRequestToService, ensures_ite]
  refine ⟨fun _ ↦ recordsObject_of_ne (by decide), fun _ ↦ ?_⟩
  -- The operations that are not followed by a checkpoint are free to record nothing.
  have hread (h : objectOperationMutates request.operation = false) (reply : ObjectReply)
      (service' : ObjectService) : RecordsObject request service service' reply :=
    fun _ hmutates ↦ absurd hmutates (by simp [h])
  cases hoperation : ObjectOperation.ofCode request.operation with
  | none => exact recordsObject_of_ne (by decide)
  | some operation =>
    cases operation with
    | createObject =>
      refine ensures_answer.mpr (ensures_bind.mpr (ensures_ofExcept.mpr ⟨fun kind _ ↦ ?_,
        fun error _ ↦ hrefused error service⟩))
      exact (ObjectService.records_createObject caller request.authority kind service).mono
        (fun _ _ hlt _ _ ↦ hlt) fun error service' _ ↦ hrefused error service'
    | reviseField =>
      have hrecords := ObjectService.records_reviseField caller request.authority ⟨request.objectId⟩
        request.fieldId input
      exact ensures_answer.mpr
        ((hrecords service).mono (fun _ _ hlt _ _ ↦ hlt) fun error service' _ ↦ hrefused error service')
    | queryObjects =>
      refine ensures_ite.mpr ⟨fun _ ↦ recordsObject_of_ne (by decide), fun _ ↦ ?_⟩
      have hany := hread (by rw [objectOperationMutates, hoperation])
      exact ensures_answer.mpr (ensures_of_forall (fun _ _ ↦ hany _ _) fun _ _ ↦ hany _ _)
    | inspectObject | getHistory =>
      have hany := hread (by rw [objectOperationMutates, hoperation])
      exact ensures_answer.mpr (ensures_of_forall (fun _ _ ↦ hany _ _) fun _ _ ↦ hany _ _)

theorem ensures_dispatchPackageDefinedCreateToService (caller : ActiveUserProcess)
    (request : ObjectShellRequest) (input : PackageDefinedCreateInput) (services : RetainedServices) :
    Ensures (dispatchPackageDefinedCreateToService caller request input)
      (fun reply services' ↦ RecordsObject request services.objects services'.objects reply)
      (fun _ _ ↦ False) services := by
  have hrecords := ObjectService.records_createPackageDefinedObject caller request.authority input
    services.objects
  unfold Ensures dispatchPackageDefinedCreateToService
  cases hcreate : ObjectService.createPackageDefinedObject caller request.authority input
    services.objects with
  | mk result staged =>
    rw [Ensures, hcreate] at hrecords
    cases result with
    | error error => exact recordsObject_of_ne (errorResponse_status_ne error)
    | ok created =>
      dsimp only
      cases reconcilePackageSchemaReferencesFromObjectService staged services.packages with
      | mk result packages =>
        cases result with
        | error status => exact recordsObject_of_ne (packageRetentionErrorResponse_status_ne status)
        | ok _ => exact fun _ _ ↦ hrecords

theorem ensures_serveObjectRequest (memory : Memory) (caller : TaskCaller) (request : ObjectShellRequest)
    (services : RetainedServices) :
    Ensures (serveObjectRequest memory caller request)
      (fun reply services' ↦ RecordsObject request services.objects services'.objects reply)
      (fun error _ ↦ error.OfBuffer) services := by
  have hservice (input : Bytes) (space : ℕ) :
      Ensures (RetainedServices.withObjectService
        (dispatchObjectRequestToService caller.process request input space))
        (fun reply services' ↦ RecordsObject request services.objects services'.objects reply)
        (fun error _ ↦ error.OfBuffer) services :=
    ensures_within.mpr ((ensures_dispatchObjectRequestToService caller.process request input space
      services.objects).always fun _ _ h ↦ h)
  rw [serveObjectRequest, ensures_ite]
  refine ⟨fun _ ↦ recordsObject_of_ne (by decide), fun _ ↦ ?_⟩
  cases ObjectOperation.ofCode request.operation with
  | none => exact hservice [] 0
  | some operation =>
    cases operation with
    | createObject =>
      refine ensures_ite.mpr ⟨fun _ ↦ ?_, fun _ ↦ hservice [] 0⟩
      rw [ensures_bind, ensures_ofExcept]
      refine ⟨fun input _ ↦ ?_, fun _ herror ↦ ofBuffer_of_checkedPackageDefinedCreateInput herror⟩
      cases input with
      | none => exact recordsObject_of_ne (by decide)
      | some input =>
        exact (ensures_dispatchPackageDefinedCreateToService caller.process request input services).always
          fun _ _ h ↦ h
    | queryObjects =>
      refine ensures_ite.mpr ⟨fun _ ↦ recordsObject_of_ne (by decide), fun _ ↦ ?_⟩
      rw [ensures_bind, ensures_ofExcept]
      exact ⟨fun _ _ ↦ hservice [] _, fun _ herror ↦ ofBuffer_of_validateUserBuffer herror⟩
    | reviseField =>
      rw [ensures_bind, ensures_ofExcept]
      exact ⟨fun input _ ↦ hservice input 0, fun _ herror ↦ ofBuffer_of_checkedInput herror⟩
    | inspectObject | getHistory => exact hservice [] 0

/-! ### Task requests that were accepted -/

/-- The request is for the context summary, by a process other than the steward. -/
def ReadsOnly (caller : TaskCaller) (request : TaskRequest) : Prop :=
  TaskOperation.ofCode request.operation = some .readContextSummary ∧ caller ≠ stewardProcess

instance (caller : TaskCaller) (request : TaskRequest) : Decidable (ReadsOnly caller request) :=
  inferInstanceAs (Decidable (_ ∧ _))

/-- A task operation that was accepted and is followed by a checkpoint has recorded a revision, but for a
read of the summary that changes nothing. -/
structure RecordsTask (caller : TaskCaller) (request : TaskRequest) (before after : TaskService)
    (reply : TaskReply) : Prop where
  records : reply.response.status = statusOk → taskOperationMutates request.operation = true →
    ¬ ReadsOnly caller request → before.recordedRevisions < after.recordedRevisions
  reads : ReadsOnly caller request → after = before

section TaskRequests

variable {caller : TaskCaller} {request : TaskRequest} {service : TaskService}

/-- A reply that refuses the request, by an operation that is not a mere read. -/
theorem recordsTask_of_ne {after : TaskService} {response : TaskResponse}
    (hreads : ¬ ReadsOnly caller request) (h : response.status ≠ statusOk) :
    RecordsTask caller request service after (.ofResponse response) where
  records hok := absurd hok h
  reads hread := absurd hread hreads

/-- A call whose staged program runs a script. -/
theorem ensures_answer_of_edits {α : Type} {program : TaskProgram α} {authority : PackedCapability}
    {requiredRights : UInt64} (hreads : ¬ ReadsOnly caller request)
    (h : ∀ objects, Ensures program (fun _ objects' ↦ ∃ script, script ≠ [] ∧ Edits script objects objects')
      (fun _ _ ↦ True) objects) (accept : α → TaskService → TaskReply) :
    Ensures (answer (do
          TaskService.validate caller authority requiredRights
          TaskService.onStaged program) accept
        fun error ↦ .ofResponse (taskErrorResponse error) : Stateful SyscallError TaskService TaskReply)
      (fun reply service' ↦ RecordsTask caller request service service' reply) (fun _ _ ↦ False)
      service := by
  refine ensures_answer.mpr
    ((TaskService.ensures_call caller authority requiredRights (h service.objects)).mono ?_ ?_)
  · rintro _ _ ⟨_, hne, hedits⟩
    exact { records := fun _ _ _ ↦ hedits.recordedRevisions_lt hne, reads := fun hread ↦ absurd hread hreads }
  · exact fun error _ _ ↦ recordsTask_of_ne hreads (taskErrorResponse_status_ne error)

/-- An operation that is not followed by a checkpoint. -/
theorem ensures_answer_of_read {α : Type} {program : TaskService.Program α}
    (hreads : ¬ ReadsOnly caller request) (hmutates : taskOperationMutates request.operation = false)
    (accept : α → TaskService → TaskReply) (refuse : TaskServiceError → TaskReply) :
    Ensures (answer program accept refuse : Stateful SyscallError TaskService TaskReply)
      (fun reply service' ↦ RecordsTask caller request service service' reply) (fun _ _ ↦ False)
      service := by
  have hany (reply : TaskReply) (service' : TaskService) :
      RecordsTask caller request service service' reply :=
    { records := fun _ h ↦ absurd h (by simp [hmutates]), reads := fun hread ↦ absurd hread hreads }
  exact ensures_answer.mpr (ensures_of_forall (fun _ _ ↦ hany _ _) fun _ _ ↦ hany _ _)

theorem ensures_readContextSummary (authority : PackedCapability) (accept : TaskContextSummary →
      TaskService → TaskReply)
    (hoperation : TaskOperation.ofCode request.operation = some .readContextSummary) :
    Ensures (answer (TaskService.readContextSummary caller authority) accept
        fun error ↦ .ofResponse (taskErrorResponse error) : Stateful SyscallError TaskService TaskReply)
      (fun reply service' ↦ RecordsTask caller request service service' reply) (fun _ _ ↦ False)
      service := by
  have hrecord : Ensures (TaskService.recordRelevanceOn caller (TaskService.contextSummary service.objects))
      (fun _ objects ↦ service.objects.recordedRevisions < objects.recordedRevisions) (fun _ _ ↦ True)
      service.objects := by
    rw [TaskService.recordRelevanceOn, ensures_bind, ensures_read]
    exact records_createRecord caller _ _
  refine ensures_answer.mpr ((TaskService.ensures_readContextSummary caller authority hrecord).mono ?_ ?_)
  · rintro summary service' ⟨-, heffect⟩
    split_ifs at heffect with hsteward
    · exact { records := fun _ _ _ ↦ heffect, reads := fun hread ↦ absurd hsteward hread.2 }
    · exact { records := fun _ _ hread ↦ absurd ⟨hoperation, hsteward⟩ hread, reads := fun _ ↦ heffect }
  · rintro error service' rfl
    exact { records := fun hok ↦ absurd hok (taskErrorResponse_status_ne error), reads := fun _ ↦ rfl }

theorem ensures_dispatchTaskRequestToService (caller : TaskCaller) (request : TaskRequest) (input : Bytes)
    (service : TaskService) :
    Ensures (dispatchTaskRequestToService caller request input)
      (fun reply service' ↦ RecordsTask caller request service service' reply) (fun _ _ ↦ False)
      service := by
  unfold dispatchTaskRequestToService
  cases hoperation : TaskOperation.ofCode request.operation with
  | none =>
    exact recordsTask_of_ne (fun hread ↦ by rw [ReadsOnly, hoperation] at hread; cases hread.1) (by decide)
  | some operation =>
    by_cases hsummary : operation = .readContextSummary
    · subst hsummary
      exact ensures_readContextSummary _ _ hoperation
    have hreads : ¬ ReadsOnly caller request := fun hread ↦
      hsummary (Option.some.inj (hoperation.symm.trans hread.1))
    cases operation with
    | createTask =>
      exact ensures_answer_of_edits hreads (fun _ ↦ (TaskService.edits_createTaskOn caller input).imp
        fun _ _ h ↦ ⟨_, by simp [TaskService.creation], h⟩) _
    | readActiveTask | listProposals =>
      exact ensures_answer_of_read hreads (by rw [taskOperationMutates, hoperation]) _ _
    | appendTaskEvent =>
      unfold appendTaskEventRequest
      rw [ensures_bind, ensures_read]
      refine ensures_ite.mpr ⟨fun _ ↦ ?_, fun _ ↦ ?_⟩
      · exact ensures_answer_of_edits hreads (fun _ ↦ (TaskService.edits_appendTaskEventOn caller _ none).imp
          fun _ _ h ↦ ⟨_, by simp, h⟩) _
      · cases taskEventInputFromBytes input with
        | none => exact recordsTask_of_ne hreads (by decide)
        | some event =>
          exact ensures_answer_of_edits hreads (fun _ ↦ (TaskService.edits_appendTaskEventOn caller _
            (some event)).imp fun _ _ h ↦ ⟨_, by simp, h⟩) _
    | createProposal =>
      cases proposalKindFromCode request.proposalKind with
      | none => exact recordsTask_of_ne hreads (by decide)
      | some kind =>
        exact ensures_answer_of_edits hreads (fun _ ↦ (TaskService.edits_createProposalOn caller _).imp
          fun _ _ h ↦ ⟨_, by simp, h⟩) _
    | approveProposal =>
      refine ensures_answer_of_edits hreads (fun _ ↦
        (TaskService.edits_approveProposalOn caller _ _).imp ?_) _
      rintro _ _ ⟨_, -, h⟩
      exact ⟨_, by simp, h⟩
    | rejectProposal =>
      refine ensures_answer_of_edits hreads (fun _ ↦
        (TaskService.edits_rejectProposalOn caller _).imp ?_) _
      rintro _ _ ⟨_, h⟩
      exact ⟨_, by simp, h⟩
    | suspendTask | reviveTask | completeTask | abandonTask =>
      exact ensures_answer_of_edits hreads (fun _ ↦ (edits_setTaskStatusOn_appendEventOn caller _ _ _ _).imp
        fun _ _ h ↦ ⟨_, by simp, h⟩) _
    | readContextSummary => exact absurd rfl hsummary

end TaskRequests

/-- What `RecordsTask` says, for the retained services around the task service. -/
theorem ensures_serveTaskRequest (memory : Memory) (caller : TaskCaller) (request : TaskRequest)
    (services : RetainedServices) :
    Ensures (serveTaskRequest memory caller request)
      (fun reply services' ↦ (reply.response.status = statusOk → taskOperationMutates request.operation = true →
          ¬ ReadsOnly caller request →
            services.objects.recordedRevisions < services'.objects.recordedRevisions) ∧
        (ReadsOnly caller request → services' = services))
      (fun error _ ↦ error.OfBuffer) services := by
  have hrefused {response : TaskResponse} (h : response.status ≠ statusOk) :
      (response.status = statusOk → taskOperationMutates request.operation = true →
          ¬ ReadsOnly caller request →
            services.objects.recordedRevisions < services.objects.recordedRevisions) ∧
        (ReadsOnly caller request → services = services) :=
    ⟨fun hok ↦ absurd hok h, fun _ ↦ rfl⟩
  have hservice (input : Bytes) := (ensures_dispatchTaskRequestToService caller request input
    ⟨services.objects, services.taskAuthority⟩).mono
      (fun reply tasks (h : RecordsTask caller request _ tasks reply) ↦
        show (_ ∧ (ReadsOnly caller request → RetainedServices.mk tasks.objects tasks.authority
          services.packages = services)) from
        ⟨h.records, fun hread ↦ by rw [h.reads hread]⟩)
      fun (error : SyscallError) _ (h : False) ↦ (h.elim : error.OfBuffer)
  rw [serveTaskRequest, ensures_ite]
  refine ⟨fun _ ↦ hrefused (by decide), fun _ ↦ ?_⟩
  rw [ensures_bind, ensures_ofExcept]
  refine ⟨fun input _ ↦ ?_, fun _ herror ↦ ofBuffer_of_checkedInput herror⟩
  cases TaskOperation.ofCode request.operation with
  | none => exact ensures_within.mpr (hservice input)
  | some operation =>
    cases operation with
    | readContextSummary | listProposals =>
      refine ensures_ite.mpr ⟨fun _ ↦ hrefused (by decide), fun _ ↦ ?_⟩
      rw [ensures_bind, ensures_ofExcept]
      exact ⟨fun _ _ ↦ ensures_within.mpr (hservice input),
        fun _ herror ↦ ofBuffer_of_validateUserBuffer herror⟩
    | _ => exact ensures_within.mpr (hservice input)

/-! ### Checkpoints that fail -/

/-- A request to one of the two services. -/
inductive ServiceRequest
  | object (request : ObjectShellRequest)
  | task (request : TaskRequest)
  deriving DecidableEq

inductive ServiceReply
  | object (reply : ObjectReply)
  | task (reply : TaskReply)
  deriving DecidableEq

/-- A request with the process that makes it and its memory. -/
structure ServiceCall where
  memory : Memory
  caller : TaskCaller
  request : ServiceRequest

namespace RetainedServices

/-- The answer of the services, without the checkpoint behind it. -/
def serve (call : ServiceCall) : Stateful SyscallError RetainedServices ServiceReply :=
  match call.request with
  | .object request => do
    let reply ← serveObjectRequest call.memory call.caller request
    pure (.object reply)
  | .task request => do
    let reply ← serveTaskRequest call.memory call.caller request
    pure (.task reply)

/-- The answers to a list of requests, one after the other. -/
def answers (services : RetainedServices) : List ServiceCall → List (Except SyscallError ServiceReply)
  | [] => []
  | call :: later => (serve call services).1 :: answers (serve call services).2 later

end RetainedServices

/-- Nothing is left of a request: a checkpoint would store what it would have stored before, and every
later request is answered as it would have been. -/
def NoEffect (before after : RetainedServices) : Prop :=
  after.objects.encodeSnapshot = before.objects.encodeSnapshot ∧
    ∀ later, after.answers later = before.answers later

/-- The request is for the context summary, by a process other than the steward. -/
def ServiceCall.ReadsOnly (call : ServiceCall) : Prop :=
  match call.request with
  | .object _ => False
  | .task request => Core.ReadsOnly call.caller request

namespace ServiceHost

def dispatch (onSyscallStack : Bool) (call : ServiceCall) :
    Stateful SyscallError ServiceHost ServiceReply :=
  match call.request with
  | .object request => do
    let reply ← dispatchObjectRequestWithRawBuffers onSyscallStack call.memory call.caller request
    pure (.object reply)
  | .task request => do
    let reply ← dispatchTaskRequestWithRawBuffers onSyscallStack call.memory call.caller request
    pure (.task reply)

variable {α : Type} {host : ServiceHost}

/-- A request fails with an error of the retained services only in its checkpoint, which leaves the
services as they were served. -/
theorem ensures_withCheckpoint (onSyscallStack : Bool)
    {serve : Stateful SyscallError RetainedServices α} {mutated : α → Bool}
    {post : α → RetainedServices → Prop}
    (h : Ensures serve post (fun error _ ↦ error.OfBuffer) host.services) :
    Ensures (withCheckpoint onSyscallStack serve mutated) (fun _ _ ↦ True)
      (fun error host' ↦ ¬ error.OfBuffer → ∃ reply, mutated reply = true ∧ post reply host'.services)
      host := by
  rw [withCheckpoint, ensures_bind, onServices, ensures_within]
  refine h.mono (fun reply services hpost ↦ ?_) fun error _ hbuffer hnot ↦ absurd hbuffer hnot
  refine ensures_ite.mpr ⟨fun hmutated ↦ ?_, fun _ ↦ trivial⟩
  rw [ensures_bind, persistObjectService]
  refine ensures_ite.mpr ⟨fun _ _ ↦ ⟨reply, hmutated, hpost⟩, fun _ ↦ ?_⟩
  rw [ensures_bind, ensures_read, ensures_within]
  exact ensures_of_forall (fun _ _ ↦ trivial) fun _ _ _ ↦ ⟨reply, hmutated, hpost⟩

/-- A request whose checkpoint fails has recorded a revision, but for a read of the summary. -/
theorem ensures_dispatch (onSyscallStack : Bool) (call : ServiceCall) (host : ServiceHost) :
    Ensures (dispatch onSyscallStack call) (fun _ _ ↦ True)
      (fun error host' ↦ ¬ error.OfBuffer →
        (¬ call.ReadsOnly → host.services.objects.recordedRevisions <
          host'.services.objects.recordedRevisions) ∧
        (call.ReadsOnly → host'.services = host.services)) host := by
  obtain ⟨memory, caller, request⟩ := call
  cases request with
  | object request =>
    refine ensures_bind.mpr ((ensures_withCheckpoint onSyscallStack
      (ensures_serveObjectRequest memory caller request host.services)).mono (fun _ _ h ↦ h) ?_)
    intro error host' h hretained
    obtain ⟨reply, hmutated, hrecords⟩ := h hretained
    obtain ⟨hok, hmutates⟩ := of_decide_eq_true hmutated
    exact ⟨fun _ ↦ hrecords hok hmutates, fun hread ↦ hread.elim⟩
  | task request =>
    refine ensures_bind.mpr ((ensures_withCheckpoint onSyscallStack
      (ensures_serveTaskRequest memory caller request host.services)).mono (fun _ _ h ↦ h) ?_)
    intro error host' h hretained
    obtain ⟨reply, hmutated, hrecords, hreads⟩ := h hretained
    obtain ⟨hok, hmutates⟩ := of_decide_eq_true hmutated
    exact ⟨hrecords hok hmutates, hreads⟩

/-- A request that fails because of its checkpoint has had no effect exactly when it was a read of the
context summary by a process other than the steward. -/
theorem noEffect_iff_of_failed_checkpoint (onSyscallStack : Bool) (call : ServiceCall) (host : ServiceHost)
    (cause : RetainedServiceError)
    (h : (dispatch onSyscallStack call host).1 = .error (.retainedService cause)) :
    NoEffect host.services (dispatch onSyscallStack call host).2.services ↔ call.ReadsOnly := by
  obtain ⟨hrecords, hreads⟩ : (¬ call.ReadsOnly → host.services.objects.recordedRevisions <
      (dispatch onSyscallStack call host).2.services.objects.recordedRevisions) ∧
      (call.ReadsOnly → (dispatch onSyscallStack call host).2.services = host.services) := by
    rcases (ensures_dispatch onSyscallStack call host).cases with ⟨_, hok, -⟩ | ⟨error, herror, hfailed⟩
    · rw [h] at hok
      cases hok
    · obtain rfl : SyscallError.retainedService cause = error := Except.error.inj (h.symm.trans herror)
      exact hfailed fun hbuffer ↦ hbuffer cause rfl
  constructor
  · intro hsame
    by_contra hnot
    exact (hrecords hnot).ne' (ObjectService.recordedRevisions_eq_of_encodeSnapshot_eq hsame.1)
  · intro hread
    rw [hreads hread]
    exact ⟨rfl, fun _ ↦ rfl⟩

/-! ### The shell and a device that refuses a write -/

/-- The services after a first boot, with the authority of the shell. -/
def seededServices : RetainedServices where
  objects := ObjectService.seededService
  taskAuthority := .new TaskService.shellProcess
  packages := none

/-- A blank device that refuses one of its requests. The checkpoint of a blank device reads four sectors
and then blanks the commit sector. -/
def refusing (request : ℕ) : CheckpointDevice where
  sectors := fun _ ↦ Sector.blank
  served := 0
  refusal := fun number ↦ if number = request then some Sector.blank else none

/-- The shell with a page that it can read and write. -/
def mappedShell : TaskCaller :=
  { TaskService.shellProcess with copyMap := [⟨0x1000, 0x2000, true, true⟩] }

/-- A request of the shell for its notes, to create one or to list them. -/
def noteRequest (operation : UInt16) : ObjectShellRequest where
  abiMajor := objectShellAbiMajor
  abiMinor := objectShellAbiMinor
  operation := operation
  objectKind := objectKindNote
  fieldId := 0
  reserved0 := 0
  authority := ObjectService.seededService.shellWorkspaceCapability
  objectId := 0
  inputPtr := 0
  inputLen := 0
  outputPtr := 0x1000
  outputLen := 128
  reserved1 := 0
  reserved2 := 0

/-- The notes that a query of the shell lists. -/
def listedNotes (services : RetainedServices) : Option (List UInt64) :=
  ((serveObjectRequest Memory.zero mappedShell (noteRequest 2) services).1.toOption).map fun reply ↦
    reply.entries.map ObjectListEntry.objectId

def createNoteCall : ServiceCall := ⟨Memory.zero, mappedShell, .object (noteRequest 1)⟩

/-- The shell asks for its context summary. -/
def summaryCall : ServiceCall where
  memory := Memory.zero
  caller := mappedShell
  request := .task
    { abiMajor := taskAbiMajor, abiMinor := taskAbiMinor, operation := 12, proposalKind := 0
      authority := seededServices.taskAuthority.userTaskControl.token.raw, taskId := 0, proposalId := 0
      targetTaskId := 0, inputPtr := 0, inputLen := 0, outputPtr := 0x1000, outputLen := 80, flags := 0
      score := 0, reserved0 := 0 }

theorem noEffect_summaryCall :
    (dispatch true summaryCall ⟨seededServices, refusing 4⟩).1 =
        .error (.retainedService (.persistence .block)) ∧
      NoEffect seededServices (dispatch true summaryCall ⟨seededServices, refusing 4⟩).2.services := by
  have hfailed : (dispatch true summaryCall ⟨seededServices, refusing 4⟩).1 =
      .error (.retainedService (.persistence .block)) := by decide +kernel
  refine ⟨hfailed, (noEffect_iff_of_failed_checkpoint true summaryCall _ _ hfailed).mpr ?_⟩
  show ReadsOnly mappedShell _
  decide +kernel

/-- The shell creates a note, the device refuses the first write of the checkpoint, and the request fails.
The note is listed all the same. -/
theorem listedNotes_after_failed_checkpoint :
    (dispatch true createNoteCall ⟨seededServices, refusing 4⟩).1 =
        .error (.retainedService (.persistence .block)) ∧
      listedNotes (dispatch true createNoteCall ⟨seededServices, refusing 4⟩).2.services = some [1042] ∧
      listedNotes seededServices = some [] := by
  decide +kernel

end ServiceHost

end Pythos.Core
