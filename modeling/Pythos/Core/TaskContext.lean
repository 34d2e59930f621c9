import Pythos.Core.TypedObjectFormat

/-!
# Context scoring

`core/src/task_context.rs` and the values of `shared/src/task_abi.rs` it works on: the last eight context
events are compared with the fingerprint of the active task, and a sustained change of tag, object kind or
tool domain makes the summary suggest a proposal.
-/

namespace Pythos.Core

inductive TaskStatus
  | active
  | suspended
  | completed
  | abandoned
  deriving DecidableEq, Repr

def TaskStatus.code : TaskStatus → UInt16
  | .active => 1
  | .suspended => 2
  | .completed => 3
  | .abandoned => 4

inductive TaskProposalKind
  | newTask
  | continuation
  | child
  | branch
  | related
  deriving DecidableEq, Repr

def TaskProposalKind.code : TaskProposalKind → UInt16
  | .newTask => 1
  | .continuation => 2
  | .child => 3
  | .branch => 4
  | .related => 5

structure TaskContextSummary where
  activeTaskId : UInt64
  matchingSuspendedTaskId : UInt64
  dominantObjectKind : UInt16
  dominantToolDomain : UInt16
  proposalKind : UInt16
  eventCount : UInt16
  activeMatchCount : UInt16
  candidateMatchCount : UInt16
  toolDomainChanged : UInt16
  reserved0 : UInt16
  confidenceScore : UInt64
  candidateTagHash : UInt64
  sourceEventIds : Vector UInt64 4
  deriving DecidableEq

structure TaskFingerprint where
  objectKind : UInt16
  toolDomain : UInt16
  tagHash : UInt64
  deriving DecidableEq, Repr

structure TaskContextEvent where
  eventId : UInt64
  objectKind : UInt16
  toolDomain : UInt16
  tagHash : UInt64
  flags : UInt16
  deriving DecidableEq, Repr

namespace TaskContext

def toolDomainStorage : UInt16 := 1
def toolDomainGraph : UInt16 := 2
def eventFlagParentObjective : UInt16 := 0x0001
def eventFlagAlternativeMethod : UInt16 := 0x0002
def eventFlagSharedObject : UInt16 := 0x0004
def contextWindow : ℕ := 8
def changeThreshold : UInt16 := 5

/-- `object_kind_code`, the codes of `kind_code`. -/
def objectKindCode (kind : ObjectKind) : UInt16 := UInt16.ofNat kind.code

/-- `count_tag`, `count_object_kind` and `count_tool_domain`: the events with a given value of a feature. -/
def countWith {α : Type} [DecidableEq α] (feature : TaskContextEvent → α)
    (events : List TaskContextEvent) (value : α) : UInt16 :=
  UInt16.ofNat (events.filter fun event ↦ feature event = value).length

def countTag : List TaskContextEvent → UInt64 → UInt16 := countWith TaskContextEvent.tagHash

/-- The loop of the three `dominant_*` functions: the first value with the largest count, starting from a
value with count zero and passing over the values that `skips`. -/
def dominant {α : Type} [DecidableEq α] (feature : TaskContextEvent → α)
    (skips : α → Bool) (start : α) (events : List TaskContextEvent) : α × UInt16 :=
  events.foldl (fun best event ↦
    if skips (feature event) then best
    else
      let count := countWith feature events (feature event)
      if count > best.2 then (feature event, count) else best) (start, 0)

def dominantShiftTag (events : List TaskContextEvent) (activeTagHash : UInt64) : UInt64 × UInt16 :=
  dominant TaskContextEvent.tagHash (fun tag ↦ tag = activeTagHash) 0 events

def dominantObjectKind (events : List TaskContextEvent) (activeObjectKind : UInt16) : UInt16 × UInt16 :=
  dominant TaskContextEvent.objectKind (fun _ ↦ false) activeObjectKind events

def dominantToolDomain (events : List TaskContextEvent) (activeToolDomain : UInt16) : UInt16 × UInt16 :=
  dominant TaskContextEvent.toolDomain (fun _ ↦ false) activeToolDomain events

def candidateFlags (events : List TaskContextEvent) (candidateTagHash : UInt64) : UInt16 :=
  events.foldl (fun flags event ↦ if event.tagHash = candidateTagHash then flags ||| event.flags else flags) 0

def proposalKindForCandidate (events : List TaskContextEvent) (candidateTagHash : UInt64)
    (matchingSuspendedTaskId : UInt64) : TaskProposalKind :=
  if matchingSuspendedTaskId ≠ 0 then .continuation
  else
    let flags := candidateFlags events candidateTagHash
    if flags &&& eventFlagParentObjective ≠ 0 then .child
    else if flags &&& eventFlagAlternativeMethod ≠ 0 then .branch
    else if flags &&& eventFlagSharedObject ≠ 0 then .related
    else .newTask

/-- The identities of the first four events with a tag, padded with zeros. -/
def sourceEventIds (events : List TaskContextEvent) (candidateTagHash : UInt64) : Vector UInt64 4 :=
  Vector.ofFn fun index ↦
    (((events.filter fun event ↦ event.tagHash = candidateTagHash).map TaskContextEvent.eventId)[index.val]?).getD 0

def summarizeContext (active : TaskFingerprint) (events : List TaskContextEvent)
    (matchingSuspended : Option (UInt64 × TaskFingerprint)) : TaskContextSummary :=
  let window := events.drop (events.length - contextWindow)
  let (candidateTagHash, candidateMatchCount) := dominantShiftTag window active.tagHash
  let (dominantObjectKind, dominantObjectCount) := dominantObjectKind window active.objectKind
  let (dominantToolDomain, dominantToolCount) := dominantToolDomain window active.toolDomain
  let toolChanged : Bool :=
    dominantToolDomain ≠ active.toolDomain ∧ dominantToolCount ≥ changeThreshold
  let matchingSuspendedTaskId := match matchingSuspended with
    | some (taskId, fingerprint) =>
      if candidateMatchCount ≥ changeThreshold ∧ fingerprint.tagHash = candidateTagHash then taskId else 0
    | none => 0
  let score : UInt64 :=
    (if candidateMatchCount ≥ changeThreshold then 40 else 0)
      + (if toolChanged then 25 else 0)
      + (if dominantObjectKind ≠ active.objectKind ∧ dominantObjectCount ≥ changeThreshold then 20 else 0)
      + (if matchingSuspendedTaskId ≠ 0 then 15 else 0)
  let confidenceScore := if score > 100 then 100 else score
  { activeTaskId := 0
    matchingSuspendedTaskId
    dominantObjectKind
    dominantToolDomain
    proposalKind :=
      if confidenceScore ≥ 70 then
        (proposalKindForCandidate window candidateTagHash matchingSuspendedTaskId).code
      else 0
    eventCount := UInt16.ofNat window.length
    activeMatchCount := countTag window active.tagHash
    candidateMatchCount
    toolDomainChanged := if toolChanged then 1 else 0
    reserved0 := 0
    confidenceScore
    candidateTagHash
    sourceEventIds := sourceEventIds window candidateTagHash }

end TaskContext

end Pythos.Core
