import Pythos.Foundation.Bytes
import Pythos.Shared.Abi

/-!
# Requests to the object and task services

`shared/src/object_shell_abi.rs`, `shared/src/task_abi.rs` and the create record of
`shared/src/package_abi.rs`: the records that a process passes to the system calls of the two services and
gets back from them. The reserved words of the responses, which are zero, are left out.
-/

namespace Pythos.Shared

open Foundation

def statusOk : UInt16 := 0
def statusDenied : UInt16 := 1
def statusNotFound : UInt16 := 2
def statusBadRequest : UInt16 := 3
def statusBufferTooSmall : UInt16 := 4

/-! ### The object shell -/

def objectShellAbiMajor : UInt16 := 1
def objectShellAbiMinor : UInt16 := 1
def objectKindNote : UInt16 := 10
def objectKindPackageDefinedObject : UInt16 := 32
def objectListEntryBytes : ℕ := 16

structure ObjectShellRequest where
  abiMajor : UInt16
  abiMinor : UInt16
  operation : UInt16
  objectKind : UInt16
  fieldId : UInt16
  reserved0 : UInt16
  authority : PackedCapability
  objectId : UInt64
  inputPtr : UInt64
  inputLen : UInt64
  outputPtr : UInt64
  outputLen : UInt64
  reserved1 : UInt64
  reserved2 : UInt64
  deriving DecidableEq, Repr

structure ObjectShellResponse where
  status : UInt16
  objectKind : UInt16
  fieldId : UInt16
  objectId : UInt64
  revision : UInt64
  revisionCount : UInt64
  bytesWritten : UInt64
  capability : PackedCapability
  fieldBytes : Bytes
  deriving DecidableEq, Repr

inductive ObjectOperation
  | createObject
  | queryObjects
  | inspectObject
  | reviseField
  | getHistory
  deriving DecidableEq, Repr

def ObjectOperation.ofCode (code : UInt16) : Option ObjectOperation :=
  if code = 1 then some .createObject
  else if code = 2 then some .queryObjects
  else if code = 3 then some .inspectObject
  else if code = 4 then some .reviseField
  else if code = 5 then some .getHistory
  else none

def packageDefinedObjectCreateAbiMajor : UInt16 := 0
def packageDefinedObjectCreateAbiMinor : UInt16 := 1
def packageDefinedObjectCreateBytes : ℕ := 64

structure PackageDefinedObjectCreateV0 where
  abiMajor : UInt16
  abiMinor : UInt16
  stateFormat : UInt16
  flags : UInt16
  schemaObjectId : UInt64
  schemaRevision : UInt64
  initialStatePtr : UInt64
  initialStateLen : UInt64
  reserved0 : UInt64
  reserved1 : UInt64
  reserved2 : UInt64
  deriving DecidableEq, Repr

/-! ### Tasks -/

def taskAbiMajor : UInt16 := 1
def taskAbiMinor : UInt16 := 0
def maxTaskProposalResults : ℕ := 4
def taskRequestSuspendCurrent : UInt64 := 1
def taskEventInputBytes : ℕ := 16
def taskContextSummaryBytes : ℕ := 80
def taskProposalListEntryBytes : ℕ := 40

structure TaskRequest where
  abiMajor : UInt16
  abiMinor : UInt16
  operation : UInt16
  proposalKind : UInt16
  authority : UInt64
  taskId : UInt64
  proposalId : UInt64
  targetTaskId : UInt64
  inputPtr : UInt64
  inputLen : UInt64
  outputPtr : UInt64
  outputLen : UInt64
  flags : UInt64
  score : UInt64
  reserved0 : UInt64
  deriving DecidableEq, Repr

structure TaskResponse where
  status : UInt16
  operation : UInt16
  proposalKind : UInt16
  taskId : UInt64
  proposalId : UInt64
  activeTaskId : UInt64
  bytesWritten : UInt64
  score : UInt64
  deriving DecidableEq, Repr

inductive TaskOperation
  | createTask
  | readActiveTask
  | appendTaskEvent
  | createProposal
  | listProposals
  | approveProposal
  | rejectProposal
  | suspendTask
  | reviveTask
  | completeTask
  | abandonTask
  | readContextSummary
  deriving DecidableEq, Repr

def TaskOperation.ofCode (code : UInt16) : Option TaskOperation :=
  if code = 1 then some .createTask
  else if code = 2 then some .readActiveTask
  else if code = 3 then some .appendTaskEvent
  else if code = 4 then some .createProposal
  else if code = 5 then some .listProposals
  else if code = 6 then some .approveProposal
  else if code = 7 then some .rejectProposal
  else if code = 8 then some .suspendTask
  else if code = 9 then some .reviveTask
  else if code = 10 then some .completeTask
  else if code = 11 then some .abandonTask
  else if code = 12 then some .readContextSummary
  else none

end Pythos.Shared
