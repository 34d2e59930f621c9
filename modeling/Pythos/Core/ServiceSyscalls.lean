import Pythos.Core.CheckpointDevice
import Pythos.Core.PackageService
import Pythos.Core.TaskService
import Pythos.Shared.ServiceAbi

/-!
# The system calls of the object and task services

The dispatchers of `core/src/syscall.rs`: a request of a process is checked, its input is copied from the
memory of the process, and one of the retained services is called. An operation that changed the retained
object service is followed by a checkpoint of it, whose failure is the failure of the system call.

The services are those of a kernel that has initialised them. What a service writes to the output buffer of
the caller is part of the reply.
-/

namespace Pythos.Core

open Foundation Shared Stateful

inductive RetainedServiceError
  | unmeasuredStackContext
  | persistence (error : CheckpointError)
  deriving DecidableEq, Repr

inductive SyscallError
  | badResult
  | userCopy (error : UserCopyError)
  | retainedService (error : RetainedServiceError)
  deriving DecidableEq, Repr

/-- The services that live for the whole boot. The package service may not have been initialised. -/
structure RetainedServices where
  objects : ObjectService
  taskAuthority : TaskAuthorityState
  packages : Option PackageService

/-! ### The memory of the caller -/

section Buffers

variable (memory : Memory) (copyMap : UserCopyMap)

def validateRange (ptr length : UInt64) (access : UserCopyAccess) : Except SyscallError Unit :=
  match copyMap.validateRange ptr length access with
  | .ok _ => .ok ()
  | .error error => .error (.userCopy error)

def isAligned (ptr : UInt64) (alignment : ℕ) : Bool :=
  ptr ≠ 0 ∧ ptr.toNat % alignment = 0

def validateUserBuffer (ptr : UInt64) (length alignment : ℕ) (access : UserCopyAccess) :
    Except SyscallError Unit :=
  if ¬ isAligned ptr alignment then .error .badResult
  else validateRange copyMap ptr (UInt64.ofNat length) access

/-- Input of at most `limit` bytes. -/
def checkedInput (limit : ℕ) (ptr length : UInt64) : Except SyscallError Bytes :=
  if length = 0 then .ok []
  else if length.toNat > limit then .error .badResult
  else do
    validateRange copyMap ptr length .read
    .ok (memory.read ptr.toNat length.toNat)

def checkedRequestInput (request : ObjectShellRequest) : Except SyscallError Bytes :=
  checkedInput memory copyMap 16 request.inputPtr request.inputLen

def checkedTaskInput (request : TaskRequest) : Except SyscallError Bytes :=
  checkedInput memory copyMap 64 request.inputPtr request.inputLen

def checkedQueryOutput (request : ObjectShellRequest) : Except SyscallError Unit :=
  validateUserBuffer copyMap request.outputPtr (objectListEntryBytes * maxQueryResults) 8 .write

def checkedTaskContextOutput (request : TaskRequest) : Except SyscallError Unit :=
  validateUserBuffer copyMap request.outputPtr taskContextSummaryBytes 8 .write

def checkedTaskProposalOutput (request : TaskRequest) : Except SyscallError Unit :=
  validateUserBuffer copyMap request.outputPtr (taskProposalListEntryBytes * maxTaskProposalResults) 8
    .write

/-- The create record at an address. -/
def readCreateRecord (ptr : UInt64) : PackageDefinedObjectCreateV0 where
  abiMajor := memory.readU16 ptr.toNat
  abiMinor := memory.readU16 (ptr.toNat + 2)
  stateFormat := memory.readU16 (ptr.toNat + 4)
  flags := memory.readU16 (ptr.toNat + 6)
  schemaObjectId := memory.readU64 (ptr.toNat + 8)
  schemaRevision := memory.readU64 (ptr.toNat + 16)
  initialStatePtr := memory.readU64 (ptr.toNat + 24)
  initialStateLen := memory.readU64 (ptr.toNat + 32)
  reserved0 := memory.readU64 (ptr.toNat + 40)
  reserved1 := memory.readU64 (ptr.toNat + 48)
  reserved2 := memory.readU64 (ptr.toNat + 56)

def validCreateRecord (create : PackageDefinedObjectCreateV0) : Bool :=
  create.abiMajor = packageDefinedObjectCreateAbiMajor ∧
    create.abiMinor = packageDefinedObjectCreateAbiMinor ∧ create.flags = 0 ∧ create.reserved0 = 0 ∧
    create.reserved1 = 0 ∧ create.reserved2 = 0

/-- The initial state that a create record names, or `none` for a record that is not valid. -/
def checkedInitialState (create : PackageDefinedObjectCreateV0) : Except SyscallError (Option Bytes) :=
  if create.stateFormat = packageDefinedStateFormatEmpty then
    if create.initialStatePtr ≠ 0 ∨ create.initialStateLen ≠ 0 then .ok none else .ok (some [])
  else if create.stateFormat = packageDefinedStateFormatInlineBytesV0 then
    if create.initialStatePtr = 0 ∨ create.initialStateLen = 0 ∨
        create.initialStateLen.toNat > packageDefinedMaxInitialStateBytes then .ok none
    else do
      validateRange copyMap create.initialStatePtr create.initialStateLen .read
      .ok (some (memory.read create.initialStatePtr.toNat create.initialStateLen.toNat))
  else .ok none

def checkedPackageDefinedCreateInput (request : ObjectShellRequest) :
    Except SyscallError (Option PackageDefinedCreateInput) := do
  if request.inputLen.toNat ≠ packageDefinedObjectCreateBytes then .ok none
  else
    validateUserBuffer copyMap request.inputPtr packageDefinedObjectCreateBytes 8 .read
    let create := readCreateRecord memory request.inputPtr
    if ¬ validCreateRecord create then .ok none
    else
      let initialState ← checkedInitialState memory copyMap create
      .ok (initialState.map fun initialState ↦
        { schemaObjectId := ⟨create.schemaObjectId⟩, schemaRevision := create.schemaRevision
          stateFormat := create.stateFormat, initialState })

end Buffers

/-! ### Object requests -/

/-- A response, with the entries that a query wrote to the output buffer. -/
structure ObjectReply where
  response : ObjectShellResponse
  entries : List ObjectListEntry
  deriving DecidableEq

def emptyResponse : ObjectShellResponse where
  status := statusBadRequest
  objectKind := 0
  fieldId := 0
  objectId := 0
  revision := 0
  revisionCount := 0
  bytesWritten := 0
  capability := ⟨0⟩
  fieldBytes := zeros 16

def badRequestResponse : ObjectShellResponse := emptyResponse

def bufferTooSmallResponse : ObjectShellResponse := { emptyResponse with status := statusBufferTooSmall }

def errorResponse (error : ObjectServiceError) : ObjectShellResponse :=
  { emptyResponse with
    status := match error with
      | .denied => statusDenied
      | .notFound => statusNotFound
      | _ => statusBadRequest }

def packageRetentionErrorResponse : PackageStatus → ObjectShellResponse
  | .denied => errorResponse .denied
  | .notFound => errorResponse .notFound
  | .quotaDenied => errorResponse .denied
  | _ => badRequestResponse

def validObjectRequestHeader (request : ObjectShellRequest) : Bool :=
  request.abiMajor = objectShellAbiMajor ∧ request.abiMinor = objectShellAbiMinor ∧
    request.reserved0 = 0 ∧ request.reserved1 = 0 ∧ request.reserved2 = 0

def requestObjectKind (kind : UInt16) : Except ObjectServiceError ObjectKind :=
  if kind = objectKindNote then .ok .note else .error .unsupportedKind

/-- `ObjectInspection::field`. -/
def ObjectInspection.field (inspection : ObjectInspection) (fieldId : UInt16) : Option TypedObjectField :=
  inspection.object.fields.find? fun field ↦ field.fieldId = fieldId

/-- The response to an operation that created an object. -/
def createdResponse (request : ObjectShellRequest) (created : ObjectCreateResult) : ObjectShellResponse :=
  { emptyResponse with
    status := statusOk
    objectKind := request.objectKind
    objectId := created.objectId.raw
    revision := created.revision
    capability := created.objectCapability }

/-- The entries that a query copies to the output buffer: those in front of the first empty one. -/
def listedEntries (entries : Vector ObjectListEntry maxQueryResults) : List ObjectListEntry :=
  entries.toList.takeWhile fun entry ↦ entry.objectId ≠ 0

/-- `dispatch_object_request_to_service`, with room for `space` entries in the output buffer. -/
def dispatchObjectRequestToService (caller : ActiveUserProcess) (request : ObjectShellRequest)
    (input : Bytes) (space : ℕ) : Stateful SyscallError ObjectService ObjectReply :=
  let refuse (error : ObjectServiceError) : ObjectReply := ⟨errorResponse error, []⟩
  if ¬ validObjectRequestHeader request then pure ⟨badRequestResponse, []⟩
  else match ObjectOperation.ofCode request.operation with
    | some .createObject =>
      answer (do
        let kind ← ofExcept (requestObjectKind request.objectKind)
        ObjectService.createObject caller request.authority kind)
        (fun created _ ↦ ⟨createdResponse request created, []⟩) refuse
    | some .queryObjects =>
      if space < maxQueryResults then pure ⟨bufferTooSmallResponse, []⟩
      else answer (do
        let kind ← ofExcept (requestObjectKind request.objectKind)
        ObjectService.queryObjects caller request.authority kind)
        (fun entries _ ↦
          ⟨{ emptyResponse with
              status := statusOk
              objectKind := request.objectKind
              bytesWritten := UInt64.ofNat ((listedEntries entries).length * objectListEntryBytes) },
            listedEntries entries⟩) refuse
    | some .inspectObject =>
      answer (do
        let service ← Stateful.read
        ofExcept (service.inspectObject caller request.authority ⟨request.objectId⟩))
        (fun inspection _ ↦
          ⟨{ emptyResponse with
              status := statusOk
              objectKind := objectKindNote
              fieldId := fieldText
              objectId := request.objectId
              revision := inspection.revision
              bytesWritten :=
                ((inspection.field fieldText).map fun field ↦ field.valueLen.toUInt64).getD 0
              fieldBytes :=
                ((inspection.field fieldText).map fun field ↦ field.value.toList).getD (zeros 16) },
            []⟩) refuse
    | some .reviseField =>
      answer
        (ObjectService.reviseField caller request.authority ⟨request.objectId⟩ request.fieldId input)
        (fun revision _ ↦
          ⟨{ emptyResponse with
              status := statusOk
              fieldId := request.fieldId
              objectId := request.objectId
              revision }, []⟩) refuse
    | some .getHistory =>
      answer (do
        let service ← Stateful.read
        ofExcept (service.history caller request.authority ⟨request.objectId⟩))
        (fun revisionCount _ ↦
          ⟨{ emptyResponse with status := statusOk, objectId := request.objectId, revisionCount }, []⟩)
        refuse
    | none => pure ⟨badRequestResponse, []⟩

/-- The references of an object service are counted in the package service, if there is one. -/
def reconcilePackageSchemaReferencesFromObjectService (objects : ObjectService) :
    Stateful PackageStatus (Option PackageService) Unit
  | none => (.error .denied, none)
  | some packages =>
    match PackageService.reconcileSchemaReferencesFromObjectService objects packages with
    | (result, packages) => (result, some packages)

/-- `dispatch_package_defined_create_to_service`: the object is created in a copy of the object service,
which replaces the service once the package service has counted its references. -/
def dispatchPackageDefinedCreateToService (caller : ActiveUserProcess) (request : ObjectShellRequest)
    (input : PackageDefinedCreateInput) : Stateful SyscallError RetainedServices ObjectReply := fun services ↦
  match ObjectService.createPackageDefinedObject caller request.authority input services.objects with
  | (.error error, _) => (.ok ⟨errorResponse error, []⟩, services)
  | (.ok created, staged) =>
    match reconcilePackageSchemaReferencesFromObjectService staged services.packages with
    | (.error status, packages) =>
      (.ok ⟨packageRetentionErrorResponse status, []⟩, { services with packages })
    | (.ok _, packages) =>
      (.ok ⟨createdResponse request created, []⟩, { services with objects := staged, packages })

namespace RetainedServices

/-- `with_object_service`. -/
def withObjectService {α : Type} (program : Stateful SyscallError ObjectService α) :
    Stateful SyscallError RetainedServices α :=
  within objects (fun objects services ↦ { services with objects }) id program

/-- `with_task_service`. -/
def withTaskService {α : Type} (program : Stateful SyscallError TaskService α) :
    Stateful SyscallError RetainedServices α :=
  within (fun services ↦ ⟨services.objects, services.taskAuthority⟩)
    (fun tasks services ↦ { services with objects := tasks.objects, taskAuthority := tasks.authority }) id
    program

end RetainedServices

open RetainedServices

/-- The part of `dispatch_object_request_with_raw_buffers` in front of the checkpoint. -/
def serveObjectRequest (memory : Memory) (caller : TaskCaller) (request : ObjectShellRequest) :
    Stateful SyscallError RetainedServices ObjectReply :=
  if ¬ validObjectRequestHeader request then pure ⟨badRequestResponse, []⟩
  else match ObjectOperation.ofCode request.operation with
    | some .createObject =>
      if request.objectKind = objectKindPackageDefinedObject then do
        match ← ofExcept (checkedPackageDefinedCreateInput memory caller.copyMap request) with
        | none => pure ⟨badRequestResponse, []⟩
        | some input => dispatchPackageDefinedCreateToService caller.process request input
      else withObjectService (dispatchObjectRequestToService caller.process request [] 0)
    | some .queryObjects =>
      if request.outputLen.toNat < objectListEntryBytes * maxQueryResults then
        pure ⟨bufferTooSmallResponse, []⟩
      else do
        ofExcept (checkedQueryOutput caller.copyMap request)
        withObjectService (dispatchObjectRequestToService caller.process request [] maxQueryResults)
    | some .reviseField => do
      let input ← ofExcept (checkedRequestInput memory caller.copyMap request)
      withObjectService (dispatchObjectRequestToService caller.process request input 0)
    | _ => withObjectService (dispatchObjectRequestToService caller.process request [] 0)

def objectOperationMutates (operation : UInt16) : Bool :=
  match ObjectOperation.ofCode operation with
  | some .createObject => true
  | some .reviseField => true
  | _ => false

/-! ### Task requests -/

/-- A response, with what the service wrote to the output buffer. -/
structure TaskReply where
  response : TaskResponse
  summary : Option TaskContextSummary
  proposals : List TaskProposalListEntry
  deriving DecidableEq

def emptyTaskResponse : TaskResponse where
  status := statusBadRequest
  operation := 0
  proposalKind := 0
  taskId := 0
  proposalId := 0
  activeTaskId := 0
  bytesWritten := 0
  score := 0

def badTaskResponse : TaskResponse := emptyTaskResponse

def taskBufferTooSmallResponse : TaskResponse := { emptyTaskResponse with status := statusBufferTooSmall }

def taskErrorResponse (error : TaskServiceError) : TaskResponse :=
  { emptyTaskResponse with
    status := match error with
      | .denied => statusDenied
      | .notFound => statusNotFound
      | _ => statusBadRequest }

/-- A reply that writes nothing to the output buffer. -/
def TaskReply.ofResponse (response : TaskResponse) : TaskReply := ⟨response, none, []⟩

def validTaskRequestHeader (request : TaskRequest) : Bool :=
  request.abiMajor = taskAbiMajor ∧ request.abiMinor = taskAbiMinor ∧ request.reserved0 = 0 ∧
    request.flags &&& ~~~ taskRequestSuspendCurrent = 0

def taskEventInputFromBytes (input : Bytes) : Option TaskContextEvent :=
  if input.length ≠ taskEventInputBytes then none
  else if u16At input 14 ≠ 0 then none
  else some
    { eventId := 0, objectKind := u16At input 8, toolDomain := u16At input 10, tagHash := u64At input 0
      flags := u16At input 12 }

/-- `service.active_task_id().unwrap_or(0)`. -/
def TaskService.activeTaskIdOrZero (service : TaskService) : UInt64 :=
  (activeTaskIdIn service.objects).getD 0

/-- The response to an operation that succeeded, with the active task. -/
def acceptedTaskResponse (request : TaskRequest) (service : TaskService) : TaskResponse :=
  { emptyTaskResponse with
    status := statusOk
    operation := request.operation
    activeTaskId := service.activeTaskIdOrZero }

/-- The answer to an operation that writes nothing to the output buffer. -/
def answerTask {α : Type} (program : TaskService.Program α) (accept : α → TaskService → TaskResponse) :
    Stateful SyscallError TaskService TaskReply :=
  answer program (fun value service ↦ .ofResponse (accept value service))
    (fun error ↦ .ofResponse (taskErrorResponse error))

/-- `task_transition_response` of one of the transitions. -/
def taskTransitionResponse (request : TaskRequest)
    (transition : TaskService.Program Unit) : Stateful SyscallError TaskService TaskReply :=
  answerTask transition fun _ service ↦
    { acceptedTaskResponse request service with taskId := request.taskId }

/-- The operation `OP_APPEND_TASK_EVENT`: without a task the event goes to the active one. -/
def appendTaskEventRequest (caller : TaskCaller) (request : TaskRequest) (input : Bytes) :
    Stateful SyscallError TaskService TaskReply := do
  let service ← Stateful.read
  let taskId := if request.taskId = 0 then service.activeTaskIdOrZero else request.taskId
  let accept (_ : UInt64) (service : TaskService) : TaskResponse :=
    { acceptedTaskResponse request service with taskId }
  if input = [] then
    answerTask (TaskService.appendTaskEventWithContext caller ⟨request.authority⟩ taskId none) accept
  else match taskEventInputFromBytes input with
    | some event =>
      answerTask (TaskService.appendTaskEventWithContext caller ⟨request.authority⟩ taskId (some event))
        accept
    | none => pure (.ofResponse badTaskResponse)

/-- `dispatch_task_request_to_service`. The output buffer of the operations that need one has been
checked. -/
def dispatchTaskRequestToService (caller : TaskCaller) (request : TaskRequest) (input : Bytes) :
    Stateful SyscallError TaskService TaskReply :=
  let authority : PackedCapability := ⟨request.authority⟩
  match TaskOperation.ofCode request.operation with
  | some .createTask =>
    answerTask (TaskService.createTask caller authority input) fun taskId service ↦
      { acceptedTaskResponse request service with taskId }
  | some .readActiveTask =>
    answerTask (TaskService.readActiveTask caller authority) fun active service ↦
      { acceptedTaskResponse request service with activeTaskId := active.getD 0 }
  | some .appendTaskEvent => appendTaskEventRequest caller request input
  | some .createProposal =>
    match proposalKindFromCode request.proposalKind with
    | none => pure (.ofResponse badTaskResponse)
    | some kind =>
      answerTask (TaskService.createProposal caller authority
        { kind, targetTaskId := request.taskId, candidateTaskId := request.targetTaskId
          score := request.score, title := input, reason := [] }) fun proposalId service ↦
        { acceptedTaskResponse request service with
          proposalKind := request.proposalKind, proposalId, score := request.score }
  | some .listProposals =>
    answer (TaskService.listPendingProposals caller authority maxTaskProposalResults)
      (fun proposals service ↦
        ⟨{ acceptedTaskResponse request service with
            bytesWritten := UInt64.ofNat (proposals.length * taskProposalListEntryBytes) },
          none, proposals⟩)
      (fun error ↦ .ofResponse (taskErrorResponse error))
  | some .approveProposal =>
    answerTask (TaskService.approveProposal caller authority request.proposalId
      (request.flags &&& taskRequestSuspendCurrent ≠ 0)) fun taskId service ↦
      { acceptedTaskResponse request service with proposalId := request.proposalId, taskId }
  | some .rejectProposal =>
    answerTask (TaskService.rejectProposal caller authority request.proposalId) fun _ service ↦
      { acceptedTaskResponse request service with proposalId := request.proposalId }
  | some .suspendTask =>
    taskTransitionResponse request (TaskService.suspendTask caller authority request.taskId)
  | some .reviveTask =>
    taskTransitionResponse request (TaskService.reviveTask caller authority request.taskId)
  | some .completeTask =>
    taskTransitionResponse request (TaskService.completeTask caller authority request.taskId)
  | some .abandonTask =>
    taskTransitionResponse request (TaskService.abandonTask caller authority request.taskId)
  | some .readContextSummary =>
    answer (TaskService.readContextSummary caller authority)
      (fun summary service ↦
        ⟨{ acceptedTaskResponse request service with
            activeTaskId := summary.activeTaskId
            bytesWritten := UInt64.ofNat taskContextSummaryBytes
            score := summary.confidenceScore },
          some summary, []⟩)
      (fun error ↦ .ofResponse (taskErrorResponse error))
  | none => pure (.ofResponse badTaskResponse)

/-- The part of `dispatch_task_request_with_raw_buffers` in front of the checkpoint. -/
def serveTaskRequest (memory : Memory) (caller : TaskCaller) (request : TaskRequest) :
    Stateful SyscallError RetainedServices TaskReply :=
  if ¬ validTaskRequestHeader request then pure (.ofResponse badTaskResponse)
  else do
    let input ← ofExcept (checkedTaskInput memory caller.copyMap request)
    match TaskOperation.ofCode request.operation with
    | some .readContextSummary =>
      if request.outputLen.toNat < taskContextSummaryBytes then
        pure (.ofResponse taskBufferTooSmallResponse)
      else
        ofExcept (checkedTaskContextOutput caller.copyMap request)
        withTaskService (dispatchTaskRequestToService caller request input)
    | some .listProposals =>
      if request.outputLen.toNat < taskProposalListEntryBytes * maxTaskProposalResults then
        pure (.ofResponse taskBufferTooSmallResponse)
      else
        ofExcept (checkedTaskProposalOutput caller.copyMap request)
        withTaskService (dispatchTaskRequestToService caller request input)
    | _ => withTaskService (dispatchTaskRequestToService caller request input)

def taskOperationMutates (operation : UInt16) : Bool :=
  match TaskOperation.ofCode operation with
  | some .readActiveTask => false
  | some .listProposals => false
  | some _ => true
  | none => false

/-! ### Checkpoints after a request -/

/-- The retained services with the device of their checkpoints. -/
structure ServiceHost where
  services : RetainedServices
  device : CheckpointDevice

namespace ServiceHost

variable {α : Type}

def onServices (program : Stateful SyscallError RetainedServices α) :
    Stateful SyscallError ServiceHost α :=
  within services (fun services host ↦ { host with services }) id program

/-- `persist_object_service`, called on the kernel stack of the system calls or not. -/
def persistObjectService (onSyscallStack : Bool) : Stateful SyscallError ServiceHost Unit := do
  if ¬ onSyscallStack then fail (.retainedService .unmeasuredStackContext)
  else
    let host ← Stateful.read
    within device (fun device host ↦ { host with device })
      (fun error ↦ .retainedService (.persistence error))
      (CheckpointDevice.writeCheckpoint host.services.objects.encodeSnapshot)

/-- A request that was served, and the checkpoint if the operation changed the service. -/
def withCheckpoint (onSyscallStack : Bool) (serve : Stateful SyscallError RetainedServices α)
    (mutated : α → Bool) : Stateful SyscallError ServiceHost α := do
  let reply ← onServices serve
  if mutated reply then
    persistObjectService onSyscallStack
    pure reply
  else pure reply

def dispatchObjectRequestWithRawBuffers (onSyscallStack : Bool) (memory : Memory) (caller : TaskCaller)
    (request : ObjectShellRequest) : Stateful SyscallError ServiceHost ObjectReply :=
  withCheckpoint onSyscallStack (serveObjectRequest memory caller request) fun reply ↦
    reply.response.status = statusOk ∧ objectOperationMutates request.operation

def dispatchTaskRequestWithRawBuffers (onSyscallStack : Bool) (memory : Memory) (caller : TaskCaller)
    (request : TaskRequest) : Stateful SyscallError ServiceHost TaskReply :=
  withCheckpoint onSyscallStack (serveTaskRequest memory caller request) fun reply ↦
    reply.response.status = statusOk ∧ taskOperationMutates request.operation

end ServiceHost

end Pythos.Core
