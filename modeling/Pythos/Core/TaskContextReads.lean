import Pythos.Core.TaskOutcomes
import Pythos.Core.TaskSteward

/-!
# What a read of the context finds and records

`read_context_summary` looks for the candidate tag in the last eight context events, and for a suspended
task among the stored objects. The task is chosen first, so it is the first suspended one, and the summary
names it exactly when its tag is the candidate (`finds_suspended_task_iff`). The summary is recorded for the
process of the steward, compared with its mappings, which the check of the capability leaves out
(`recordsSummary_iff`).
-/

namespace Pythos.Core

open Foundation Shared Stateful TaskService

/-! ### The candidate tag -/

namespace TaskContext

variable {α : Type} [DecidableEq α] {feature : TaskContextEvent → α} {skips : α → Bool}
  {events : List TaskContextEvent}

/-- The fold of `dominant` from any value: it keeps that value or takes one with its count, and no value
that it passes has a larger count. -/
theorem dominant_fold (rest : List TaskContextEvent) (best : α × UInt16) :
    let result := rest.foldl (fun best event ↦
      if skips (feature event) then best
      else if countWith feature events (feature event) > best.2 then
        (feature event, countWith feature events (feature event)) else best) best
    (result = best ∨ result.2 = countWith feature events result.1) ∧ best.2 ≤ result.2 ∧
      ∀ event ∈ rest, skips (feature event) = false →
        countWith feature events (feature event) ≤ result.2 := by
  induction rest generalizing best with
  | nil => exact ⟨Or.inl rfl, UInt16.le_refl _, nofun⟩
  | cons event rest ih =>
    rw [List.foldl_cons]
    by_cases hskip : skips (feature event) = true
    · simp only [if_pos hskip]
      obtain ⟨hvalue, hle, hrest⟩ := ih best
      refine ⟨hvalue, hle, List.forall_mem_cons.mpr ⟨fun hnot ↦ ?_, hrest⟩⟩
      rw [hskip] at hnot
      cases hnot
    · simp only [if_neg hskip]
      split_ifs with hmore
      · obtain ⟨hvalue, hle, hrest⟩ := ih (feature event, countWith feature events (feature event))
        refine ⟨Or.inr ?_, UInt16.le_trans (UInt16.le_of_lt hmore) hle,
          List.forall_mem_cons.mpr ⟨fun _ ↦ hle, hrest⟩⟩
        rcases hvalue with heq | hcount
        · rw [heq]
        · exact hcount
      · obtain ⟨hvalue, hle, hrest⟩ := ih best
        exact ⟨hvalue, hle,
          List.forall_mem_cons.mpr ⟨fun _ ↦ UInt16.le_trans (UInt16.not_lt.mp hmore) hle, hrest⟩⟩

theorem toNat_countTag (h : events.length ≤ contextWindow) (tag : UInt64) :
    (countTag events tag).toNat = (events.filter fun event ↦ event.tagHash = tag).length := by
  have hle : (events.filter fun event ↦ event.tagHash = tag).length ≤ 8 :=
    (List.length_filter_le _ _).trans h
  exact UInt16.toNat_ofNat_of_lt' (hle.trans_lt (by decide))

/-- A tag of more than half of the window is the candidate. -/
theorem dominantShiftTag_eq (hlength : events.length ≤ contextWindow) {active tag : UInt64}
    (htag : tag ≠ active) (hcount : changeThreshold ≤ countTag events tag) :
    dominantShiftTag events active = (tag, countTag events tag) := by
  obtain ⟨found, hresult, hvalue, hmax⟩ : ∃ found, dominantShiftTag events active = found ∧
      (found = (0, 0) ∨ found.2 = countTag events found.1) ∧
      ∀ event ∈ events, event.tagHash ≠ active → countTag events event.tagHash ≤ found.2 := by
    obtain ⟨hvalue, -, hmax⟩ :=
      @dominant_fold _ _ TaskContextEvent.tagHash (fun tag ↦ tag = active) events events (0, 0)
    exact ⟨_, rfl, hvalue, fun event hevent hne ↦ hmax event hevent (decide_eq_false hne)⟩
  have hfive : 5 ≤ (events.filter fun event ↦ event.tagHash = tag).length := by
    rw [← toNat_countTag hlength]
    exact UInt16.le_iff_toNat_le.mp hcount
  obtain ⟨event, hevent⟩ := List.exists_mem_of_length_pos (Nat.zero_lt_of_lt hfive)
  obtain ⟨hmem, heq⟩ := List.mem_filter.mp hevent
  have hbest : countTag events tag ≤ found.2 := by
    rw [← of_decide_eq_true heq]
    exact hmax event hmem (of_decide_eq_true heq ▸ htag)
  have hfound : found.2 = countTag events found.1 := by
    refine hvalue.resolve_left fun hnone ↦ ?_
    rw [hnone] at hbest
    exact absurd (UInt16.le_trans hcount hbest) (by decide)
  -- two tags cannot both have five of eight events
  have htagEq : found.1 = tag := by
    by_contra hne
    rw [hfound, UInt16.le_iff_toNat_le, toNat_countTag hlength, toNat_countTag hlength] at hbest
    have hsplit := List.length_eq_length_filter_add (l := events) fun event ↦ event.tagHash = tag
    have hother : (events.filter fun event ↦ event.tagHash = found.1).length ≤
        (events.filter fun event ↦ !decide (event.tagHash = tag)).length := by
      refine (List.monotone_filter_right events fun event h ↦ ?_).length_le
      simpa [of_decide_eq_true h] using hne
    have hwindow : contextWindow = 8 := rfl
    omega
  rw [hresult, ← htagEq, ← hfound]

end TaskContext

/-! ### The suspended task -/

/-- The events that a summary looks at. -/
def recentEvents (objects : ObjectService) : List TaskContextEvent :=
  (contextEventsIn objects).drop ((contextEventsIn objects).length - TaskContext.contextWindow)

/-- The fingerprint that the events are compared with. -/
def activeFingerprint (objects : ObjectService) : TaskFingerprint :=
  if (activeTaskIdIn objects).getD 0 = 0 then defaultTaskFingerprint 0
  else (taskFingerprintIn objects ((activeTaskIdIn objects).getD 0)).getD (defaultTaskFingerprint 0)

/-- A suspended task with a tag. -/
def SuspendedWith (tag : UInt64) (record : TypedObjectRecord) : Prop :=
  record.objectKind = .task ∧ taskStatus record = some .suspended ∧
    (taskFingerprint record).map TaskFingerprint.tagHash = some tag

/-- The tag is a candidate: at least five of the recent events have it, and the active task has not. -/
def IsCandidate (objects : ObjectService) (tag : UInt64) : Prop :=
  tag ≠ (activeFingerprint objects).tagHash ∧
    TaskContext.changeThreshold ≤ TaskContext.countTag (recentEvents objects) tag

/-- The first suspended task of the object table that has a fingerprint has the tag, and an identity other
than zero, which stands for no task. -/
def FirstSuspendedWith (objects : ObjectService) (tag : UInt64) : Prop :=
  ∃ before record after, objects.taskServiceObjects = before ++ record :: after ∧
    (∀ earlier ∈ before, ∀ other, ¬ SuspendedWith other earlier) ∧
      SuspendedWith tag record ∧ record.objectId.raw ≠ 0

/-- The summary names a suspended task with the tag, and proposes to continue it. -/
def FindsSuspended (objects : ObjectService) (tag : UInt64) (summary : TaskContextSummary) : Prop :=
  summary.matchingSuspendedTaskId ≠ 0 ∧
  (∃ record ∈ objects.taskServiceObjects, SuspendedWith tag record ∧
    summary.matchingSuspendedTaskId = record.objectId.raw) ∧
  (70 ≤ summary.confidenceScore → summary.proposalKind = TaskProposalKind.continuation.code)

/-- The task that the source chooses is the first suspended one with a fingerprint. -/
theorem firstSuspendedWith_iff {objects : ObjectService} {tag : UInt64} :
    FirstSuspendedWith objects tag ↔ ∃ taskId fingerprint,
      matchingSuspendedTaskIn objects = some (taskId, fingerprint) ∧ fingerprint.tagHash = tag ∧
        taskId ≠ 0 ∧ ∃ record ∈ objects.taskServiceObjects,
          SuspendedWith tag record ∧ record.objectId.raw = taskId := by
  have hchosen (record : TypedObjectRecord) (taskId : UInt64) (fingerprint : TaskFingerprint) :
      (if record.objectKind = .task ∧ taskStatus record = some .suspended then
        (taskFingerprint record).map fun fingerprint ↦ (record.objectId.raw, fingerprint)
        else none) = some (taskId, fingerprint) ↔
          SuspendedWith fingerprint.tagHash record ∧ taskFingerprint record = some fingerprint ∧
            record.objectId.raw = taskId := by
    unfold SuspendedWith
    split_ifs with htask
    · cases taskFingerprint record <;> simp +contextual [htask, and_comm]
    · simpa using fun hkind hstatus ↦ absurd ⟨hkind, hstatus⟩ htask
  have hpassed (record : TypedObjectRecord) :
      (if record.objectKind = .task ∧ taskStatus record = some .suspended then
        (taskFingerprint record).map fun fingerprint ↦ (record.objectId.raw, fingerprint)
        else none) = none ↔ ∀ other, ¬ SuspendedWith other record := by
    unfold SuspendedWith
    split_ifs with htask
    · cases taskFingerprint record <;> simp [htask]
    · simpa using fun _ hkind hstatus ↦ absurd ⟨hkind, hstatus⟩ htask
  simp only [FirstSuspendedWith, matchingSuspendedTaskIn, List.findSome?_eq_some_iff, hchosen, hpassed]
  constructor
  · rintro ⟨before, record, after, hsplit, hearlier, hsuspended, hid⟩
    obtain ⟨fingerprint, hfingerprint, rfl⟩ := Option.map_eq_some_iff.mp hsuspended.2.2
    refine ⟨_, fingerprint, ⟨before, record, after, hsplit, ⟨hsuspended, hfingerprint, rfl⟩, hearlier⟩,
      rfl, hid, record, ?_, hsuspended, rfl⟩
    rw [hsplit]
    exact List.mem_append_right _ List.mem_cons_self
  · rintro ⟨_, fingerprint, ⟨before, record, after, hsplit, ⟨hsuspended, -, rfl⟩, hearlier⟩, rfl, hid, -⟩
    exact ⟨before, record, after, hsplit, hearlier, hsuspended, hid⟩

/-- The summary names the chosen task when that has the candidate tag. -/
theorem matchingSuspendedTaskId_contextSummary {objects : ObjectService} {tag : UInt64}
    (hcandidate : IsCandidate objects tag) :
    (contextSummary objects).matchingSuspendedTaskId = (matchingSuspendedTaskIn objects).elim 0
      fun found ↦ if found.2.tagHash = tag then found.1 else 0 := by
  have hwindow : (recentEvents objects).length ≤ TaskContext.contextWindow := by
    rw [recentEvents, List.length_drop]
    omega
  show (TaskContext.summarizeContext (activeFingerprint objects) _ _).matchingSuspendedTaskId = _
  simp only [TaskContext.summarizeContext]
  rw [← recentEvents, TaskContext.dominantShiftTag_eq hwindow hcandidate.1 hcandidate.2]
  simp only [hcandidate.2, true_and]
  cases matchingSuspendedTaskIn objects <;> rfl

/-- The summary names a suspended task with the candidate tag if and only if the first one has it. -/
theorem findsSuspended_contextSummary_iff {objects : ObjectService} {tag : UInt64}
    (hcandidate : IsCandidate objects tag) :
    FindsSuspended objects tag (contextSummary objects) ↔ FirstSuspendedWith objects tag := by
  have hnamed := matchingSuspendedTaskId_contextSummary hcandidate
  rw [firstSuspendedWith_iff]
  constructor
  · rintro ⟨hid, ⟨record, hrecord, hsuspended, hraw⟩, -⟩
    cases hmatching : matchingSuspendedTaskIn objects with
    | none =>
      rw [hmatching] at hnamed
      exact absurd hnamed hid
    | some found =>
      rw [hmatching, Option.elim_some] at hnamed
      split_ifs at hnamed with htag
      · exact ⟨found.1, found.2, rfl, htag, hnamed ▸ hid, record, hrecord, hsuspended, hraw ▸ hnamed⟩
      · exact absurd hnamed hid
  · rintro ⟨taskId, fingerprint, hmatching, htag, hid, record, hrecord, hsuspended, hraw⟩
    rw [hmatching, Option.elim_some, if_pos htag] at hnamed
    refine ⟨hnamed ▸ hid, ⟨record, hrecord, hsuspended, hnamed.trans hraw.symm⟩, fun hscore ↦ ?_⟩
    have hkind : (contextSummary objects).proposalKind =
        (TaskContext.proposalKindForCandidate (recentEvents objects)
          (contextSummary objects).candidateTagHash
          (contextSummary objects).matchingSuspendedTaskId).code := if_pos hscore
    rw [hkind, hnamed, TaskContext.proposalKindForCandidate, if_pos hid]

/-! ### The read -/

namespace TaskService

variable {service : TaskService} {caller : TaskCaller} {token : PackedCapability}

/-- The identity of the relevance assertion that a read of the steward stores. -/
def nextAssertionId (objects : ObjectService) : ObjectId :=
  ⟨allocateObjectId objects relevanceAssertionIdBase⟩

/-- An authorised read returns the summary, and fails only for the steward, when there is no room for what it
records. -/
theorem ensures_readContextSummary_fits
    (hvalid : service.authority.validate caller token taskRightReadContext = .ok ())
    (hreachable : caller = stewardProcess → service.objects.Reachable) :
    Ensures (readContextSummary caller token)
      (fun summary _ ↦ summary = contextSummary service.objects ∧ (caller = stewardProcess →
        service.objects.FitsTaskObject (nextAssertionId service.objects)))
      (fun _ _ ↦ caller = stewardProcess ∧
        ¬ service.objects.FitsTaskObject (nextAssertionId service.objects)) service := by
  simp only [readContextSummary, validate, ensures_bind, ensures_read]
  refine ensures_ofExcept.mpr ⟨fun _ _ ↦ ?_, fun _ herror ↦ ?_⟩
  · rw [ensures_ite]
    refine ⟨fun hsteward ↦ ?_, fun hother ↦ ⟨rfl, fun h ↦ absurd h hother⟩⟩
    rw [ensures_bind, onStaged, ensures_within, ensures_staged]
    rw [recordRelevanceOn, ensures_bind, ensures_read]
    exact (ensures_createRecord_fits (hreachable hsteward) caller ⟨_, rfl⟩ rfl).mono
      (fun _ _ hfits ↦ ⟨rfl, fun _ ↦ hfits⟩) fun _ _ hfull ↦ ⟨hsteward, hfull⟩
  · rw [hvalid] at herror
    cases herror

theorem readContextSummary_eq_ok
    (hvalid : service.authority.validate caller token taskRightReadContext = .ok ())
    (hother : caller ≠ stewardProcess) :
    (readContextSummary caller token service).1 = .ok (contextSummary service.objects) := by
  rcases (ensures_readContextSummary_fits hvalid fun h ↦ absurd h hother).cases with
    ⟨_, hok, rfl, -⟩ | ⟨_, -, hsteward, -⟩
  · exact hok
  · exact absurd hsteward hother

/-- A matching suspended task is found if and only if the first suspended task is one and, for the steward,
the read can be recorded. -/
theorem finds_suspended_task_iff {tag : UInt64}
    (hvalid : service.authority.validate caller token taskRightReadContext = .ok ())
    (hreachable : caller = stewardProcess → service.objects.Reachable)
    (hcandidate : IsCandidate service.objects tag) :
    (∃ summary, (readContextSummary caller token service).1 = .ok summary ∧
        FindsSuspended service.objects tag summary) ↔
      FirstSuspendedWith service.objects tag ∧ (caller = stewardProcess →
        service.objects.FitsTaskObject (nextAssertionId service.objects)) := by
  have hread := ensures_readContextSummary_fits hvalid hreachable
  rw [← findsSuspended_contextSummary_iff hcandidate]
  constructor
  · rintro ⟨summary, hok, hfinds⟩
    obtain ⟨rfl, hfits⟩ := hread.of_ok hok
    exact ⟨hfinds, hfits⟩
  · rintro ⟨hfinds, hfits⟩
    rcases hread.cases with ⟨summary, hok, rfl, -⟩ | ⟨_, -, hsteward, hfull⟩
    · exact ⟨_, hok, hfinds⟩
    · exact absurd (hfits hsteward) hfull

/-- The capability of the shell for its tasks. -/
def shellToken : PackedCapability := seededTaskService.authority.userTaskControl.token

/-- Two tasks are suspended, a third is active, and five events have the tag of a title. -/
def twoSuspended (title : Bytes) : TaskService :=
  seededTaskService.run ([.createTask shellProcess shellToken [0x41],
    .suspendTask shellProcess shellToken 3000, .createTask shellProcess shellToken [0x42],
    .suspendTask shellProcess shellToken 3001, .createTask shellProcess shellToken [0x43]] ++
    List.replicate 5 (.appendTaskContextEvent shellProcess shellToken 3002
      ⟨0, 10, 1, stableHash title, 0⟩))

theorem finds_first_suspended_task :
    ∃ summary, (readContextSummary shellProcess shellToken (twoSuspended [0x41])).1 = .ok summary ∧
      FindsSuspended (twoSuspended [0x41]).objects (stableHash [0x41]) summary :=
  have hfirst : FirstSuspendedWith (twoSuspended [0x41]).objects (stableHash [0x41]) :=
    firstSuspendedWith_iff.mpr ⟨3000, ⟨10, 1, stableHash [0x41]⟩, by decide +kernel, rfl, by decide, by
      unfold SuspendedWith
      decide +kernel⟩
  have hother : shellProcess ≠ stewardProcess := by decide +kernel
  (finds_suspended_task_iff (by decide +kernel) (fun h ↦ absurd h hother)
    (by unfold IsCandidate; decide +kernel)).mpr ⟨hfirst, fun h ↦ absurd h hother⟩

/-- The second suspended task has the tag of the events, and the summary names none. -/
theorem second_suspended_task_not_found :
    ∃ summary, (readContextSummary shellProcess shellToken (twoSuspended [0x42])).1 = .ok summary ∧
      IsCandidate (twoSuspended [0x42]).objects (stableHash [0x42]) ∧
      (∃ record ∈ (twoSuspended [0x42]).objects.taskServiceObjects,
        SuspendedWith (stableHash [0x42]) record) ∧
      ¬ FindsSuspended (twoSuspended [0x42]).objects (stableHash [0x42]) summary := by
  refine ⟨_, readContextSummary_eq_ok (by decide +kernel) (by decide +kernel), ?_⟩
  unfold IsCandidate FindsSuspended SuspendedWith
  decide +kernel

/-- A relevance assertion that holds the summary is the only new object. -/
def RecordsSummary (before after : ObjectService) (summary : TaskContextSummary) : Prop :=
  ∃ assertionId record, relevanceAssertionRecord assertionId summary = .ok record ∧
    Created record before.taskServiceObjects after.taskServiceObjects

/-- A read is recorded for the process of the steward only. -/
theorem recordsSummary_iff_eq {summary : TaskContextSummary}
    (hread : (readContextSummary caller token service).1 = .ok summary) :
    RecordsSummary service.objects (readContextSummary caller token service).2.objects summary ↔
      caller = stewardProcess := by
  have hrecord : Ensures (recordRelevanceOn caller (contextSummary service.objects))
      (fun _ objects ↦ RecordsSummary service.objects objects (contextSummary service.objects))
      (fun _ _ ↦ True) service.objects := by
    rw [recordRelevanceOn, ensures_bind, ensures_read]
    refine (ensures_createRecord caller _).imp ?_
    rintro _ _ ⟨record, hrecord, hcreated, -⟩
    exact ⟨_, record, hrecord, hcreated⟩
  obtain ⟨rfl, heffect⟩ := (ensures_readContextSummary caller token hrecord).of_ok hread
  split_ifs at heffect with h
  · exact iff_of_true heffect h
  · rw [heffect]
    refine iff_of_false ?_ h
    rintro ⟨_, record, -, hcreated⟩
    exact absurd hcreated.perm.length_eq (by simp)

/-- A read by a process with the identity of the steward is recorded exactly when the process has no
mappings. -/
theorem recordsSummary_iff {summary : TaskContextSummary}
    (hidentity : caller.process = stewardProcess.process)
    (hread : (readContextSummary caller token service).1 = .ok summary) :
    RecordsSummary service.objects (readContextSummary caller token service).2.objects summary ↔
      caller.copyMap = [] := by
  rw [recordsSummary_iff_eq hread]
  obtain ⟨process, copyMap⟩ := caller
  rw [show process = stewardProcess.process from hidentity, stewardProcess, TaskCaller.mk.injEq]
  exact and_iff_right rfl

/-- The capability of the steward. -/
def stewardToken : PackedCapability := seededTaskService.authority.stewardProposal.token

theorem recordsSummary_stewardProcess :
    RecordsSummary seededTaskService.objects
      (readContextSummary stewardProcess stewardToken seededTaskService).2.objects
      (contextSummary seededTaskService.objects) :=
  (recordsSummary_iff rfl (show (readContextSummary stewardProcess stewardToken seededTaskService).1 =
    .ok (contextSummary seededTaskService.objects) by decide +kernel)).mpr rfl

/-- The steward as it is launched, with a mapping. -/
def mappedSteward : TaskCaller := { stewardProcess with copyMap := [⟨0x400000, 0x401000, true, false⟩] }

theorem mappedSteward_not_recorded :
    mappedSteward.process = stewardProcess.process ∧
      (readContextSummary mappedSteward stewardToken seededTaskService).1 =
        .ok (contextSummary seededTaskService.objects) ∧
      ¬ RecordsSummary seededTaskService.objects
        (readContextSummary mappedSteward stewardToken seededTaskService).2.objects
        (contextSummary seededTaskService.objects) := by
  have hread : (readContextSummary mappedSteward stewardToken seededTaskService).1 =
      .ok (contextSummary seededTaskService.objects) :=
    readContextSummary_eq_ok (by decide +kernel) (by decide +kernel)
  exact ⟨rfl, hread, fun h ↦ absurd ((recordsSummary_iff_eq hread).mp h) (by decide +kernel)⟩

end TaskService

end Pythos.Core
