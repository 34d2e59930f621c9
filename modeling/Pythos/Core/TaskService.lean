import Pythos.Core.ObjectService
import Pythos.Core.TaskContext
import Pythos.Core.UserCopy
import Pythos.Foundation.Bytes

/-!
# The task service

`core/src/task_service.rs`: tasks, proposals, events and relevance assertions are typed objects of the
object service, in ranges of identities of their own. A call presents a capability token, which has to be
one of the three that were issued, for the process that presents it and with the rights of the operation.
The mutating operations work on a copy of the object service and keep it only when all their steps succeed.
-/

namespace Pythos.Core

open Foundation Shared Stateful

/-! ### Constants -/

def taskRightReadContext : UInt64 := 0x0001
def taskRightCreateProposal : UInt64 := 0x0008
def taskRightAppendEvent : UInt64 := 0x0010
def taskRightApproveProposal : UInt64 := 0x0020
def taskRightControlState : UInt64 := 0x0040

def taskServiceResourceRaw : UInt64 := 0x54534B5356430001
def userTaskRights : UInt64 :=
  taskRightReadContext ||| taskRightAppendEvent ||| taskRightApproveProposal ||| taskRightControlState
def stewardTaskRights : UInt64 := taskRightReadContext ||| taskRightCreateProposal
def stewardServiceId : ServiceId := ⟨0x5059545354455701⟩
def taskStewardPrincipalId : UInt64 := 0x5059544853540001
def taskStewardProgramDigest : UInt64 := 0x5453544557415244
def taskCapabilityTokenTag : UInt64 := 0x8000000000000000
def taskCapabilityUserDomain : UInt64 := 0x54534B5553455201
def taskCapabilityStewardDomain : UInt64 := 0x54534B5354574401

def taskIdBase : UInt64 := 3000
def proposalIdBase : UInt64 := 4000
def eventIdBase : UInt64 := 5000
def relationIdBase : UInt64 := 6000
def relevanceAssertionIdBase : UInt64 := 7000
def idSpace : UInt64 := 1000

def fieldTaskStatus : UInt16 := 1
def fieldTaskTitleHash : UInt16 := 2
def fieldTaskFingerprint : UInt16 := 3
def fieldProposalMeta : UInt16 := 1
def fieldProposalTargetTask : UInt16 := 2
def fieldProposalCandidateTask : UInt16 := 3
def fieldProposalTitleReasonHash : UInt16 := 4
def fieldEventMeta : UInt16 := 1
def fieldEventTask : UInt16 := 2
def fieldEventProposal : UInt16 := 3
def fieldEventContext : UInt16 := 4
def fieldRelationSource : UInt16 := 1
def fieldRelationTarget : UInt16 := 2
def fieldRelationKind : UInt16 := 3
def fieldRelevanceDominance : UInt16 := 1
def fieldRelevanceScore : UInt16 := 2
def fieldRelevanceTasks : UInt16 := 3
def fieldRelevanceSourcesHead : UInt16 := 4

def proposalStatusPending : UInt16 := 1
def proposalStatusApproved : UInt16 := 2
def proposalStatusRejected : UInt16 := 3

def eventTaskCreated : UInt16 := 1
def eventProposalCreated : UInt16 := 2
def eventProposalApproved : UInt16 := 3
def eventTaskSuspended : UInt16 := 4
def eventTaskRevived : UInt16 := 5
def eventTaskCompleted : UInt16 := 6
def eventTaskAbandoned : UInt16 := 7
def eventProposalRejected : UInt16 := 8
def eventTaskAppended : UInt16 := 9

inductive TaskServiceError
  | denied
  | notFound
  | proposalNotPending
  | badRequest
  | object (error : ObjectServiceError)
  deriving DecidableEq, Repr

/-- `From<ObjectServiceError>`. -/
def TaskServiceError.ofObject : ObjectServiceError → TaskServiceError
  | .denied => .denied
  | .notFound => .notFound
  | error => .object error

/-! ### Callers and capabilities -/

/-- The process that calls, with the counted mappings of its copy map, which the comparison with the
steward's process includes. -/
structure TaskCaller where
  process : ActiveUserProcess
  copyMap : List UserMapping
  deriving DecidableEq, Repr

def stewardProcess : TaskCaller where
  process := { serviceId := stewardServiceId, principalId := taskStewardPrincipalId
               programDigest := taskStewardProgramDigest }
  copyMap := []

structure IssuedTaskCapability where
  token : PackedCapability
  holder : ServiceId
  principalId : UInt64
  programDigest : UInt64
  rights : UInt64
  deriving DecidableEq, Repr

namespace IssuedTaskCapability

def empty : IssuedTaskCapability where
  token := ⟨0⟩
  holder := .invalid
  principalId := 0
  programDigest := 0
  rights := 0

def new (caller : TaskCaller) (rights : UInt64) (token : PackedCapability) : IssuedTaskCapability where
  token := token
  holder := caller.process.serviceId
  principalId := caller.process.principalId
  programDigest := caller.process.programDigest
  rights := rights

/-- The capability was issued to the caller under this token. -/
def IssuedTo (issued : IssuedTaskCapability) (caller : TaskCaller) (authority : PackedCapability) : Prop :=
  issued.token = authority ∧ issued.holder = caller.process.serviceId ∧
    issued.principalId = caller.process.principalId ∧ issued.programDigest = caller.process.programDigest

instance (issued : IssuedTaskCapability) (caller : TaskCaller) (authority : PackedCapability) :
    Decidable (issued.IssuedTo caller authority) :=
  inferInstanceAs (Decidable (_ ∧ _))

def validates (issued : IssuedTaskCapability) (caller : TaskCaller) (authority : PackedCapability)
    (requiredRights : UInt64) : Bool :=
  issued.IssuedTo caller authority ∧ issued.rights &&& requiredRights = requiredRights

end IssuedTaskCapability

structure TaskAuthorityState where
  userTaskControl : IssuedTaskCapability
  stewardProposal : IssuedTaskCapability
  extraIssued : IssuedTaskCapability
  nextIssue : UInt64
  deriving DecidableEq, Repr

/-- One step of the 64-bit FNV-1a hash. -/
def hashByte (hash : UInt64) (byte : UInt8) : UInt64 :=
  (hash ^^^ byte.toUInt64) * 0x00000100000001b3

def stableHash (bytes : Bytes) : UInt64 :=
  bytes.foldl hashByte 0xcbf29ce484222325 ^^^ UInt64.ofNat bytes.length

def taskCapabilityToken (caller : TaskCaller) (rights issue domain : UInt64) : PackedCapability :=
  let words := [domain, caller.process.serviceId.raw, caller.process.principalId,
    caller.process.programDigest, rights, issue, taskServiceResourceRaw]
  let hash := (words.flatMap u64Bytes).foldl hashByte 0xcbf29ce484222325
  ⟨(hash ^^^ 0x54534B4341500001) ||| taskCapabilityTokenTag⟩

namespace TaskAuthorityState

def issue (state : TaskAuthorityState) (caller : TaskCaller) (rights domain : UInt64) :
    PackedCapability × TaskAuthorityState :=
  (taskCapabilityToken caller rights state.nextIssue domain, { state with nextIssue := state.nextIssue + 1 })

def new (userCaller : TaskCaller) : TaskAuthorityState :=
  let state : TaskAuthorityState :=
    { userTaskControl := .empty, stewardProposal := .empty, extraIssued := .empty, nextIssue := 1 }
  let (userTaskControl, state) := state.issue userCaller userTaskRights taskCapabilityUserDomain
  let (stewardProposal, state) := state.issue stewardProcess stewardTaskRights taskCapabilityStewardDomain
  { state with
    userTaskControl := .new userCaller userTaskRights userTaskControl
    stewardProposal := .new stewardProcess stewardTaskRights stewardProposal }

def validate (state : TaskAuthorityState) (caller : TaskCaller) (authority : PackedCapability)
    (requiredRights : UInt64) : Except TaskServiceError Unit :=
  if state.userTaskControl.validates caller authority requiredRights ∨
      state.stewardProposal.validates caller authority requiredRights ∨
      state.extraIssued.validates caller authority requiredRights then .ok ()
  else .error .denied

def issueExtra (state : TaskAuthorityState) (caller : TaskCaller) (rights domain : UInt64) :
    PackedCapability × TaskAuthorityState :=
  let (token, state) := state.issue caller rights domain
  (token, { state with extraIssued := .new caller rights token })

end TaskAuthorityState

/-! ### Records -/

structure StoredProposal where
  status : UInt16
  kind : TaskProposalKind
  targetTaskId : UInt64
  candidateTaskId : UInt64
  score : UInt64
  titleHash : UInt64
  reasonHash : UInt64
  deriving DecidableEq, Repr

def proposalKindFromCode (code : UInt16) : Option TaskProposalKind :=
  if code = 1 then some .newTask
  else if code = 2 then some .continuation
  else if code = 3 then some .child
  else if code = 4 then some .branch
  else if code = 5 then some .related
  else none

/-- The record with fields of the given identities and bytes, each of version one. -/
def recordWith (objectId : UInt64) (kind : ObjectKind) (fields : List (UInt16 × Bytes)) :
    Except TaskServiceError TypedObjectRecord :=
  let result := fields.foldlM (fun record entry ↦ do
    let field ← TypedObjectField.new entry.1 1 entry.2
    record.pushField field) (TypedObjectRecord.new ⟨objectId⟩ kind 1)
  result.mapError fun error ↦ .object (.objectFormat error)

def fingerprintBytes (fingerprint : TaskFingerprint) : Bytes :=
  u16Bytes fingerprint.objectKind ++ u16Bytes fingerprint.toolDomain ++ zeros 4 ++ u64Bytes fingerprint.tagHash

def contextEventBytes (event : TaskContextEvent) : Bytes :=
  u16Bytes event.objectKind ++ u16Bytes event.toolDomain ++ u16Bytes event.flags ++ zeros 2
    ++ u64Bytes event.tagHash

def taskRecord (taskId : UInt64) (status : TaskStatus) (titleHash : UInt64) (fingerprint : TaskFingerprint) :
    Except TaskServiceError TypedObjectRecord :=
  recordWith taskId .task
    [(fieldTaskStatus, u16Bytes status.code), (fieldTaskTitleHash, u64Bytes titleHash),
      (fieldTaskFingerprint, fingerprintBytes fingerprint)]

def proposalRecord (proposalId : UInt64) (proposal : StoredProposal) :
    Except TaskServiceError TypedObjectRecord :=
  recordWith proposalId .taskProposal
    [(fieldProposalMeta,
        u16Bytes proposal.status ++ u16Bytes proposal.kind.code ++ zeros 4 ++ u64Bytes proposal.score),
      (fieldProposalTargetTask, u64Bytes proposal.targetTaskId),
      (fieldProposalCandidateTask, u64Bytes proposal.candidateTaskId),
      (fieldProposalTitleReasonHash, u64Bytes proposal.titleHash ++ u64Bytes proposal.reasonHash)]

def eventRecord (eventId : UInt64) (eventKind : UInt16) (taskId proposalId : UInt64)
    (context : Option TaskContextEvent) : Except TaskServiceError TypedObjectRecord :=
  recordWith eventId .taskEvent
    ([(fieldEventMeta, u16Bytes eventKind), (fieldEventTask, u64Bytes taskId),
      (fieldEventProposal, u64Bytes proposalId)]
      ++ context.toList.map fun event ↦ (fieldEventContext, contextEventBytes event))

def relationRecord (relationId sourceTaskId targetTaskId : UInt64) (kind : TaskProposalKind) :
    Except TaskServiceError TypedObjectRecord :=
  recordWith relationId .taskRelation
    [(fieldRelationSource, u64Bytes sourceTaskId), (fieldRelationTarget, u64Bytes targetTaskId),
      (fieldRelationKind, u16Bytes kind.code)]

def relevanceAssertionRecord (assertionId : UInt64) (summary : TaskContextSummary) :
    Except TaskServiceError TypedObjectRecord :=
  recordWith assertionId .relevanceAssertion
    [(fieldRelevanceDominance,
        u16Bytes summary.dominantObjectKind ++ u16Bytes summary.dominantToolDomain
          ++ u16Bytes summary.proposalKind ++ u16Bytes summary.eventCount
          ++ u16Bytes summary.activeMatchCount ++ u16Bytes summary.candidateMatchCount
          ++ u16Bytes summary.toolDomainChanged ++ zeros 2),
      (fieldRelevanceScore, u64Bytes summary.confidenceScore ++ u64Bytes summary.candidateTagHash),
      (fieldRelevanceTasks, u64Bytes summary.activeTaskId ++ u64Bytes summary.matchingSuspendedTaskId),
      (fieldRelevanceSourcesHead,
        u64Bytes summary.sourceEventIds[0] ++ u64Bytes summary.sourceEventIds[1])]

/-- The sixteen bytes of the first field with an identity. -/
def fieldValue (record : TypedObjectRecord) (fieldId : UInt16) : Option Bytes :=
  (record.fields.find? fun field ↦ field.fieldId = fieldId).map fun field ↦ field.value.toList

def taskStatus (record : TypedObjectRecord) : Option TaskStatus := do
  let value ← fieldValue record fieldTaskStatus
  let code := u16At value 0
  if code = 1 then some .active
  else if code = 2 then some .suspended
  else if code = 3 then some .completed
  else if code = 4 then some .abandoned
  else none

def taskTitleHash (record : TypedObjectRecord) : Option UInt64 :=
  (fieldValue record fieldTaskTitleHash).map fun value ↦ u64At value 0

def taskFingerprint (record : TypedObjectRecord) : Option TaskFingerprint :=
  (fieldValue record fieldTaskFingerprint).map fun value ↦
    { objectKind := u16At value 0, toolDomain := u16At value 2, tagHash := u64At value 8 }

def contextEvent (record : TypedObjectRecord) : Option TaskContextEvent :=
  (fieldValue record fieldEventContext).map fun value ↦
    { eventId := record.objectId.raw, objectKind := u16At value 0, toolDomain := u16At value 2
      tagHash := u64At value 8, flags := u16At value 4 }

def defaultTaskFingerprint (titleHash : UInt64) : TaskFingerprint where
  objectKind := TaskContext.objectKindCode .note
  toolDomain := TaskContext.toolDomainStorage
  tagHash := titleHash

def proposedTaskFingerprint (titleHash : UInt64) : TaskFingerprint where
  objectKind := TaskContext.objectKindCode .task
  toolDomain := TaskContext.toolDomainGraph
  tagHash := titleHash

/-! ### Reading the object service -/

namespace ObjectService

/-- The stored objects in the order of their slots. -/
def taskServiceObjects (service : ObjectService) : List TypedObjectRecord :=
  service.objects.objects.live.map DynamicObjectRecord.object

def taskServiceObject (service : ObjectService) (objectId : UInt64) : Option TypedObjectRecord :=
  service.objects.object ⟨objectId⟩

end ObjectService

def isActiveTask (record : TypedObjectRecord) : Bool :=
  record.objectKind = .task ∧ taskStatus record = some .active

/-- The loop of `active_task_id_in` over records. -/
def firstActiveTaskId (records : List TypedObjectRecord) : Option UInt64 :=
  (records.find? isActiveTask).map fun record ↦ record.objectId.raw

def activeTaskIdIn (objects : ObjectService) : Option UInt64 :=
  firstActiveTaskId objects.taskServiceObjects

def taskStatusIn (objects : ObjectService) (taskId : UInt64) : Option TaskStatus :=
  (objects.taskServiceObject taskId).bind taskStatus

def taskFingerprintIn (objects : ObjectService) (taskId : UInt64) : Option TaskFingerprint :=
  (objects.taskServiceObject taskId).bind taskFingerprint

def matchingSuspendedTaskIn (objects : ObjectService) : Option (UInt64 × TaskFingerprint) :=
  objects.taskServiceObjects.findSome? fun record ↦
    if record.objectKind = .task ∧ taskStatus record = some .suspended then
      (taskFingerprint record).map fun fingerprint ↦ (record.objectId.raw, fingerprint)
    else none

/-- The context events of the stored task events. There are never more than the array of the source has
room for, which is as large as the store. -/
def contextEventsIn (objects : ObjectService) : List TaskContextEvent :=
  objects.taskServiceObjects.filterMap fun record ↦
    if record.objectKind = .taskEvent then contextEvent record else none

def storedProposal (objects : ObjectService) (proposalId : UInt64) :
    Except TaskServiceError StoredProposal :=
  match objects.taskServiceObject proposalId with
  | none => .error .notFound
  | some record =>
    if record.objectKind ≠ .taskProposal then .error .notFound
    else match fieldValue record fieldProposalMeta, fieldValue record fieldProposalTitleReasonHash with
      | some metadata, some hashes =>
        match proposalKindFromCode (u16At metadata 2), fieldValue record fieldProposalTargetTask,
            fieldValue record fieldProposalCandidateTask with
        | some kind, some target, some candidate => .ok
            { status := u16At metadata 0, kind, targetTaskId := u64At target 0
              candidateTaskId := u64At candidate 0, score := u64At metadata 8
              titleHash := u64At hashes 0, reasonHash := u64At hashes 8 }
        | _, _, _ => .error .badRequest
      | _, _ => .error .badRequest

/-- The identity after the largest used one of a range. -/
def allocateObjectId (objects : ObjectService) (base : UInt64) : UInt64 :=
  objects.taskServiceObjects.foldl (fun next record ↦
    let raw := record.objectId.raw
    if raw ≥ base ∧ raw < base + idSpace ∧ raw ≥ next then raw + 1 else next) base

/-! ### Steps on the object service -/

/-- A program on the object service, with the errors of the task service. -/
abbrev TaskProgram (α : Type) := Stateful TaskServiceError ObjectService α

def onObjectService {α : Type} (program : ObjectService.Program α) : TaskProgram α :=
  within id (fun service _ ↦ service) TaskServiceError.ofObject program

def createRecord (caller : TaskCaller) (record : Except TaskServiceError TypedObjectRecord) :
    TaskProgram Unit := do
  let record ← ofExcept record
  onObjectService (ObjectService.createTaskServiceObject caller.process record)

def reviseRecord (caller : TaskCaller) (record : Except TaskServiceError TypedObjectRecord) :
    TaskProgram Unit := do
  let record ← ofExcept record
  let _ ← onObjectService (ObjectService.reviseTaskServiceObject caller.process record)

def setTaskStatusOn (caller : TaskCaller) (taskId : UInt64) (status : TaskStatus) : TaskProgram Unit := do
  let objects ← Stateful.read
  match objects.taskServiceObject taskId with
  | none => fail .notFound
  | some record =>
    if record.objectKind ≠ .task then fail .notFound
    else match taskTitleHash record with
      | none => fail .badRequest
      | some titleHash =>
        let fingerprint := (taskFingerprint record).getD (defaultTaskFingerprint titleHash)
        reviseRecord caller (taskRecord taskId status titleHash fingerprint)

def appendEventOn (caller : TaskCaller) (eventKind : UInt16) (taskId proposalId : UInt64)
    (context : Option TaskContextEvent) : TaskProgram UInt64 := do
  let objects ← Stateful.read
  let eventId := allocateObjectId objects eventIdBase
  createRecord caller (eventRecord eventId eventKind taskId proposalId
    (context.map fun event ↦ { event with eventId }))
  pure eventId

/-! ### The service -/

structure TaskService where
  objects : ObjectService
  authority : TaskAuthorityState
  deriving DecidableEq

structure TaskProposalListEntry where
  status : UInt16
  proposalKind : UInt16
  proposalId : UInt64
  targetTaskId : UInt64
  candidateTaskId : UInt64
  score : UInt64
  deriving DecidableEq, Repr

namespace TaskService

abbrev Program (α : Type) := Stateful TaskServiceError TaskService α

def validate (caller : TaskCaller) (authority : PackedCapability) (requiredRights : UInt64) :
    Program Unit := do
  let service ← Stateful.read
  ofExcept (service.authority.validate caller authority requiredRights)

/-- The staged copy of the object service: it replaces the service when the program succeeds. -/
def onStaged {α : Type} (program : TaskProgram α) : Program α :=
  within objects (fun objects service ↦ { service with objects }) id (staged program)

/-- The steps of `create_task` on the staged copy. -/
def createTaskOn (caller : TaskCaller) (title : Bytes) : TaskProgram UInt64 := do
  let titleHash := stableHash title
  let objects ← Stateful.read
  match activeTaskIdIn objects with
  | some activeTaskId => do
    setTaskStatusOn caller activeTaskId .suspended
    let _ ← appendEventOn caller eventTaskSuspended activeTaskId 0 none
  | none => pure ()
  let objects ← Stateful.read
  let taskId := allocateObjectId objects taskIdBase
  createRecord caller (taskRecord taskId .active titleHash (defaultTaskFingerprint titleHash))
  let _ ← appendEventOn caller eventTaskCreated taskId 0 none
  pure taskId

def createTask (caller : TaskCaller) (authority : PackedCapability) (title : Bytes) : Program UInt64 := do
  validate caller authority taskRightControlState
  onStaged (createTaskOn caller title)

structure ProposalInput where
  kind : TaskProposalKind
  targetTaskId : UInt64
  candidateTaskId : UInt64
  score : UInt64
  title : Bytes
  reason : Bytes
  deriving DecidableEq, Repr

def createProposalOn (caller : TaskCaller) (input : ProposalInput) : TaskProgram UInt64 := do
  let objects ← Stateful.read
  let proposalId := allocateObjectId objects proposalIdBase
  createRecord caller (proposalRecord proposalId
    { status := proposalStatusPending, kind := input.kind, targetTaskId := input.targetTaskId
      candidateTaskId := input.candidateTaskId, score := input.score
      titleHash := stableHash input.title, reasonHash := stableHash input.reason })
  let _ ← appendEventOn caller eventProposalCreated input.targetTaskId proposalId none
  pure proposalId

def createProposal (caller : TaskCaller) (authority : PackedCapability) (input : ProposalInput) :
    Program UInt64 := do
  validate caller authority taskRightCreateProposal
  onStaged (createProposalOn caller input)

/-- The task that an approval makes active: a resumed one for a continuation, else a new one. -/
def approvedTaskOn (caller : TaskCaller) (proposal : StoredProposal) : TaskProgram UInt64 :=
  match proposal.kind with
  | .continuation => do
    let resumed := if proposal.candidateTaskId = 0 then proposal.targetTaskId else proposal.candidateTaskId
    setTaskStatusOn caller resumed .active
    pure resumed
  | _ => do
    let objects ← Stateful.read
    let created := allocateObjectId objects taskIdBase
    createRecord caller
      (taskRecord created .active proposal.titleHash (proposedTaskFingerprint proposal.titleHash))
    pure created

/-- The suspension of the task that was active before the approval, unless it is the approved one. -/
def suspendCurrentOn (caller : TaskCaller) (activeBefore : Option UInt64) (taskId proposalId : UInt64) :
    TaskProgram Unit :=
  match activeBefore with
  | some activeTaskId =>
    if activeTaskId ≠ taskId then do
      setTaskStatusOn caller activeTaskId .suspended
      let _ ← appendEventOn caller eventTaskSuspended activeTaskId proposalId none
    else pure ()
  | none => pure ()

def approveProposalOn (caller : TaskCaller) (proposalId : UInt64) (suspendCurrent : Bool) :
    TaskProgram UInt64 := do
  let objects ← Stateful.read
  let proposal ← ofExcept (storedProposal objects proposalId)
  if proposal.status ≠ proposalStatusPending then fail .proposalNotPending
  else
    let taskId ← approvedTaskOn caller proposal
    if suspendCurrent then suspendCurrentOn caller (activeTaskIdIn objects) taskId proposalId else pure ()
    let staged ← Stateful.read
    createRecord caller (relationRecord (allocateObjectId staged relationIdBase) taskId
      proposal.targetTaskId proposal.kind)
    reviseRecord caller (proposalRecord proposalId { proposal with status := proposalStatusApproved })
    let _ ← appendEventOn caller eventProposalApproved taskId proposalId none
    pure taskId

def approveProposal (caller : TaskCaller) (authority : PackedCapability) (proposalId : UInt64)
    (suspendCurrent : Bool) : Program UInt64 := do
  validate caller authority (taskRightApproveProposal ||| taskRightControlState)
  onStaged (approveProposalOn caller proposalId suspendCurrent)

/-- The event that `transition_task` appends. -/
def transitionEvent : TaskStatus → UInt16
  | .active => eventTaskRevived
  | .suspended => eventTaskSuspended
  | .completed => eventTaskCompleted
  | .abandoned => eventTaskAbandoned

def transitionTaskOn (caller : TaskCaller) (taskId : UInt64) (status : TaskStatus) : TaskProgram Unit := do
  setTaskStatusOn caller taskId status
  let _ ← appendEventOn caller (transitionEvent status) taskId 0 none

def transitionTask (caller : TaskCaller) (authority : PackedCapability) (taskId : UInt64)
    (status : TaskStatus) : Program Unit := do
  validate caller authority taskRightControlState
  onStaged (transitionTaskOn caller taskId status)

def suspendTask (caller : TaskCaller) (authority : PackedCapability) (taskId : UInt64) : Program Unit :=
  transitionTask caller authority taskId .suspended

def reviveTask (caller : TaskCaller) (authority : PackedCapability) (taskId : UInt64) : Program Unit :=
  transitionTask caller authority taskId .active

def completeTask (caller : TaskCaller) (authority : PackedCapability) (taskId : UInt64) : Program Unit :=
  transitionTask caller authority taskId .completed

def abandonTask (caller : TaskCaller) (authority : PackedCapability) (taskId : UInt64) : Program Unit :=
  transitionTask caller authority taskId .abandoned

def appendTaskEventOn (caller : TaskCaller) (taskId : UInt64) (context : Option TaskContextEvent) :
    TaskProgram UInt64 := do
  let objects ← Stateful.read
  if (taskStatusIn objects taskId).isNone then fail .notFound
  else appendEventOn caller eventTaskAppended taskId 0 context

/-- `append_task_event_with_context`: `append_task_event` passes no context, and
`append_task_context_event` one. -/
def appendTaskEventWithContext (caller : TaskCaller) (authority : PackedCapability) (taskId : UInt64)
    (context : Option TaskContextEvent) : Program UInt64 := do
  validate caller authority taskRightAppendEvent
  onStaged (appendTaskEventOn caller taskId context)

def rejectProposalOn (caller : TaskCaller) (proposalId : UInt64) : TaskProgram Unit := do
  let objects ← Stateful.read
  let proposal ← ofExcept (storedProposal objects proposalId)
  if proposal.status ≠ proposalStatusPending then fail .proposalNotPending
  else
    reviseRecord caller (proposalRecord proposalId { proposal with status := proposalStatusRejected })
    let _ ← appendEventOn caller eventProposalRejected proposal.targetTaskId proposalId none

def rejectProposal (caller : TaskCaller) (authority : PackedCapability) (proposalId : UInt64) :
    Program Unit := do
  validate caller authority taskRightApproveProposal
  onStaged (rejectProposalOn caller proposalId)

/-- The loop of `list_pending_proposals` over the records that are left, with `space` entries free. -/
def listLoop (objects : ObjectService) :
    List TypedObjectRecord → ℕ → Except TaskServiceError (List TaskProposalListEntry)
  | [], _ => .ok []
  | record :: rest, space =>
    if record.objectKind ≠ .taskProposal ∨ space = 0 then listLoop objects rest space
    else do
      let proposal ← storedProposal objects record.objectId.raw
      if proposal.status ≠ proposalStatusPending then listLoop objects rest space
      else do
        let entries ← listLoop objects rest (space - 1)
        .ok ({ status := proposal.status, proposalKind := proposal.kind.code
               proposalId := record.objectId.raw, targetTaskId := proposal.targetTaskId
               candidateTaskId := proposal.candidateTaskId, score := proposal.score } :: entries)

def listPendingProposals (caller : TaskCaller) (authority : PackedCapability) (space : ℕ) :
    Program (List TaskProposalListEntry) := do
  validate caller authority taskRightApproveProposal
  let service ← Stateful.read
  ofExcept (listLoop service.objects service.objects.taskServiceObjects space)

def readActiveTask (caller : TaskCaller) (authority : PackedCapability) : Program (Option UInt64) := do
  validate caller authority taskRightReadContext
  let service ← Stateful.read
  pure (activeTaskIdIn service.objects)

/-- The summary that `read_context_summary` returns. -/
def contextSummary (objects : ObjectService) : TaskContextSummary :=
  let activeTaskId := (activeTaskIdIn objects).getD 0
  let active :=
    if activeTaskId = 0 then defaultTaskFingerprint 0
    else (taskFingerprintIn objects activeTaskId).getD (defaultTaskFingerprint 0)
  { TaskContext.summarizeContext active (contextEventsIn objects) (matchingSuspendedTaskIn objects) with
    activeTaskId }

def recordRelevanceOn (caller : TaskCaller) (summary : TaskContextSummary) : TaskProgram Unit := do
  let objects ← Stateful.read
  createRecord caller (relevanceAssertionRecord (allocateObjectId objects relevanceAssertionIdBase) summary)

def readContextSummary (caller : TaskCaller) (authority : PackedCapability) :
    Program TaskContextSummary := do
  validate caller authority taskRightReadContext
  let service ← Stateful.read
  let summary := contextSummary service.objects
  if caller = stewardProcess then onStaged (recordRelevanceOn caller summary) else pure ()
  pure summary

def grantStewardProposalCapability (caller : TaskCaller) : Program PackedCapability := fun service ↦
  let (token, authority) := service.authority.issueExtra caller stewardTaskRights taskCapabilityStewardDomain
  (.ok token, { service with authority })

end TaskService

/-! ### Calls -/

/-- A call of the task service by a process; all but the grant present a token. -/
inductive TaskCall
  | createTask (caller : TaskCaller) (authority : PackedCapability) (title : Bytes)
  | createProposal (caller : TaskCaller) (authority : PackedCapability) (input : TaskService.ProposalInput)
  | approveProposal (caller : TaskCaller) (authority : PackedCapability) (proposalId : UInt64)
      (suspendCurrent : Bool)
  | suspendTask (caller : TaskCaller) (authority : PackedCapability) (taskId : UInt64)
  | reviveTask (caller : TaskCaller) (authority : PackedCapability) (taskId : UInt64)
  | completeTask (caller : TaskCaller) (authority : PackedCapability) (taskId : UInt64)
  | abandonTask (caller : TaskCaller) (authority : PackedCapability) (taskId : UInt64)
  | appendTaskEvent (caller : TaskCaller) (authority : PackedCapability) (taskId : UInt64)
  | appendTaskContextEvent (caller : TaskCaller) (authority : PackedCapability) (taskId : UInt64)
      (event : TaskContextEvent)
  | rejectProposal (caller : TaskCaller) (authority : PackedCapability) (proposalId : UInt64)
  | listPendingProposals (caller : TaskCaller) (authority : PackedCapability) (space : ℕ)
  | readActiveTask (caller : TaskCaller) (authority : PackedCapability)
  | readContextSummary (caller : TaskCaller) (authority : PackedCapability)
  | grantStewardProposalCapability (caller : TaskCaller)
  deriving DecidableEq

/-- The service after a call. -/
def TaskService.after (service : TaskService) : TaskCall → TaskService
  | .createTask caller authority title => (TaskService.createTask caller authority title service).2
  | .createProposal caller authority input => (TaskService.createProposal caller authority input service).2
  | .approveProposal caller authority proposalId suspendCurrent =>
    (TaskService.approveProposal caller authority proposalId suspendCurrent service).2
  | .suspendTask caller authority taskId => (TaskService.suspendTask caller authority taskId service).2
  | .reviveTask caller authority taskId => (TaskService.reviveTask caller authority taskId service).2
  | .completeTask caller authority taskId => (TaskService.completeTask caller authority taskId service).2
  | .abandonTask caller authority taskId => (TaskService.abandonTask caller authority taskId service).2
  | .appendTaskEvent caller authority taskId =>
    (TaskService.appendTaskEventWithContext caller authority taskId none service).2
  | .appendTaskContextEvent caller authority taskId event =>
    (TaskService.appendTaskEventWithContext caller authority taskId (some event) service).2
  | .rejectProposal caller authority proposalId =>
    (TaskService.rejectProposal caller authority proposalId service).2
  | .listPendingProposals caller authority space =>
    (TaskService.listPendingProposals caller authority space service).2
  | .readActiveTask caller authority => (TaskService.readActiveTask caller authority service).2
  | .readContextSummary caller authority => (TaskService.readContextSummary caller authority service).2
  | .grantStewardProposalCapability caller =>
    (TaskService.grantStewardProposalCapability caller service).2

def TaskService.run (service : TaskService) (calls : List TaskCall) : TaskService :=
  calls.foldl TaskService.after service

end Pythos.Core
