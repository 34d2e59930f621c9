import Pythos.Core.TaskOutcomes
import Pythos.Core.TaskSteward

/-!
# The active task

The operations that make a task active suspend the one that was, with one exception: the revival of a task
only sets its status. `ActiveWithin` bounds the identities of the active tasks along the edits of an
operation. It follows that a run keeps at most one task active exactly when every revival that can be made
finds no other task active.
-/

namespace Pythos.Core

open Foundation Shared Stateful

/-! ### Bounds on the active tasks -/

/-- The records have distinct identities, and the active tasks among them are among the given ones. -/
structure ActiveWithin (allowed : List UInt64) (records : List TypedObjectRecord) : Prop where
  distinct : (records.map TypedObjectRecord.objectId).Nodup
  active : ∀ record ∈ records, isActiveTask record = true → record.objectId.raw ∈ allowed

namespace ActiveWithin

variable {allowed : List UInt64} {before after : List TypedObjectRecord} {record old : TypedObjectRecord}

section

variable (h : ActiveWithin allowed before)

include h

theorem mono {larger : List UInt64} (hsubset : allowed ⊆ larger) : ActiveWithin larger before :=
  ⟨h.distinct, fun other hother hactive ↦ hsubset (h.active other hother hactive)⟩

/-- A created record is active only if its identity is allowed. -/
theorem created {larger : List UInt64} (hcreated : Created record before after)
    (hsubset : allowed ⊆ larger) (hrecord : isActiveTask record = true → record.objectId.raw ∈ larger) :
    ActiveWithin larger after := by
  refine ⟨hcreated.nodup h.distinct, fun other hother hactive ↦ ?_⟩
  rcases hcreated.mem_iff.mp hother with rfl | hbefore
  · exact hrecord hactive
  · exact hsubset (h.active other hbefore hactive)

/-- The identity of a revised record is allowed only as far as the new record is active. -/
theorem revised {larger : List UInt64} (hrevised : Revised old record before after)
    (hsubset : allowed.filter (· ≠ record.objectId.raw) ⊆ larger)
    (hrecord : isActiveTask record = true → record.objectId.raw ∈ larger) : ActiveWithin larger after := by
  refine ⟨hrevised.map_objectId ▸ h.distinct, fun other hother hactive ↦ ?_⟩
  rcases (hrevised.mem_iff h.distinct).mp hother with rfl | ⟨hbefore, hne⟩
  · exact hrecord hactive
  · refine hsubset (List.mem_filter.mpr ⟨h.active other hbefore hactive, ?_⟩)
    rw [decide_eq_true_eq]
    exact fun heq ↦ hne (congrArg ObjectId.mk heq)

end

end ActiveWithin

/-! ### At most one active task -/

/-- At most one task object is active. -/
def AtMostOneActive (records : List TypedObjectRecord) : Prop :=
  (records.filter isActiveTask).length ≤ 1

variable {records : List TypedObjectRecord}

/-- The active tasks are then the one that a scan finds. -/
theorem AtMostOneActive.filter_eq (h : AtMostOneActive records) :
    records.filter isActiveTask = (records.find? isActiveTask).toList := by
  unfold AtMostOneActive at h
  rw [← List.head?_filter]
  match records.filter isActiveTask, h with
  | [], _ | [_], _ => rfl

theorem AtMostOneActive.find?_eq (h : AtMostOneActive records) {record : TypedObjectRecord}
    (hrecord : record ∈ records) (hactive : isActiveTask record = true) :
    records.find? isActiveTask = some record := by
  have hmem : record ∈ records.filter isActiveTask := List.mem_filter.mpr ⟨hrecord, hactive⟩
  rwa [h.filter_eq, Option.mem_toList] at hmem

/-- With at most one active task, the active tasks are within the one that a scan finds. -/
theorem AtMostOneActive.activeWithin (h : AtMostOneActive records)
    (hdistinct : (records.map TypedObjectRecord.objectId).Nodup) :
    ActiveWithin (firstActiveTaskId records).toList records := by
  refine ⟨hdistinct, fun record hrecord hactive ↦ ?_⟩
  rw [firstActiveTaskId, h.find?_eq hrecord hactive]
  exact List.mem_singleton_self _

/-- Active tasks within one identity are at most one, as the identities are distinct. -/
theorem ActiveWithin.atMostOneActive {taskId : UInt64} (h : ActiveWithin [taskId] records) :
    AtMostOneActive records := by
  have hnodup : ((records.filter isActiveTask).map TypedObjectRecord.objectId).Nodup :=
    h.distinct.sublist (List.filter_sublist.map _)
  have hsubset : (records.filter isActiveTask).map TypedObjectRecord.objectId ⊆ [⟨taskId⟩] := by
    intro objectId hobjectId
    obtain ⟨record, hrecord, rfl⟩ := List.mem_map.mp hobjectId
    obtain ⟨hmem, hactive⟩ := List.mem_filter.mp hrecord
    have hid := List.mem_singleton.mp (h.active record hmem hactive)
    rw [List.mem_singleton, ← hid]
  unfold AtMostOneActive
  simpa using (hnodup.subperm hsubset).length_le

/-- With at most one active task, every order of the records gives the same active task. -/
theorem AtMostOneActive.firstActiveTaskId_eq {scanned : List TypedObjectRecord}
    (h : AtMostOneActive records) (hperm : scanned.Perm records) :
    firstActiveTaskId scanned = firstActiveTaskId records := by
  have hperm' := hperm.filter isActiveTask
  have hscanned : AtMostOneActive scanned := hperm'.length_eq.trans_le h
  rw [h.filter_eq, hscanned.filter_eq] at hperm'
  unfold firstActiveTaskId
  cases hfind : records.find? isActiveTask with
  | none =>
    rw [hfind] at hperm'
    rw [Option.toList_eq_nil_iff.mp hperm'.eq_nil]
  | some first =>
    rw [hfind] at hperm'
    rw [Option.toList_eq_singleton_iff.mp (List.perm_singleton.mp hperm')]

/-! ### Edits -/

/-- The tasks that may be active after an edit, from those that may be before it. -/
def TaskEdit.activates (allowed : List UInt64) : TaskEdit → List UInt64
  | .newTask taskId => taskId :: allowed
  | .status taskId new => if new = .active then taskId :: allowed else allowed.filter (· ≠ taskId)
  | _ => allowed

theorem ActiveWithin.stores {before after : ObjectService} {edit : TaskEdit} {allowed : List UInt64}
    (h : ActiveWithin allowed before.taskServiceObjects) (hstores : edit.Stores before after) :
    ActiveWithin (edit.activates allowed) after.taskServiceObjects := by
  cases hstores with
  | newTask hnew =>
    refine h.created hnew.created (List.subset_cons_self _ _) fun _ ↦ ?_
    rw [(taskRecord_eq_ok hnew.built).1]
    exact List.mem_cons_self
  | @status taskId _ status _ record _ built _ revised =>
    have hid : record.objectId.raw = taskId := by rw [(taskRecord_eq_ok built).1]
    dsimp only [TaskEdit.activates]
    split_ifs with hstatus
    · exact h.revised revised (List.Subset.trans (List.filter_subset_self _) (List.subset_cons_self _ _))
        fun _ ↦ hid ▸ List.mem_cons_self
    · exact h.revised revised (hid ▸ List.Subset.refl _)
        fun hactive ↦ absurd ((isActiveTask_taskRecord built).mp hactive) hstatus
  | event hevent =>
    refine h.created hevent.created (List.Subset.refl _) fun hactive ↦
      absurd (kind_of_isActiveTask hactive) ?_
    rw [(recordWith_eq_ok hevent.built).2.1]
    decide
  | record hrecord hkind =>
    refine h.created hrecord.created (List.Subset.refl _) fun hactive ↦
      absurd (kind_of_isActiveTask hactive) ?_
    rw [(recordWith_eq_ok hrecord.built).2.1]
    exact hkind.1
  | decided built _ revised =>
    refine h.revised revised (List.filter_subset_self _) fun hactive ↦
      absurd (kind_of_isActiveTask hactive) ?_
    rw [(recordWith_eq_ok built).2.1]
    decide

theorem ActiveWithin.edits {script : List TaskEdit} {before after : ObjectService}
    (h : Edits script before after) : ∀ {allowed : List UInt64},
      ActiveWithin allowed before.taskServiceObjects →
        ActiveWithin (script.foldl TaskEdit.activates allowed) after.taskServiceObjects := by
  induction h with
  | nil => exact fun hwithin ↦ hwithin
  | cons stores _ _ _ ih => exact fun hwithin ↦ ih (hwithin.stores stores)

namespace TaskService

/-- A revival makes its task active and leaves the others as they were. -/
theorem of_revive {before after : ObjectService} {taskId : UInt64} {eventKind : UInt16}
    (hdistinct : (before.taskServiceObjects.map TypedObjectRecord.objectId).Nodup)
    (h : Edits [.status taskId .active, .event eventKind taskId] before after) :
    (∃ record ∈ after.taskServiceObjects, isActiveTask record = true ∧ record.objectId = ⟨taskId⟩) ∧
      ∀ other ∈ before.taskServiceObjects, other.objectId ≠ ⟨taskId⟩ →
        other ∈ after.taskServiceObjects := by
  obtain _ | ⟨⟨⟩ | ⟨built, -, revised⟩, -, -, _ | ⟨⟨⟩ | ⟨⟩ | hevent, -, -, ⟨⟩⟩⟩ := h
  have hid := (taskRecord_eq_ok built).1
  have hmem {other : TypedObjectRecord} : _ ↔ other = _ ∨ _ := revised.mem_iff hdistinct
  refine ⟨⟨_, hevent.created.mem_iff.mpr (Or.inr (hmem.mpr (Or.inl rfl))),
    (isActiveTask_taskRecord built).mpr rfl, hid⟩, fun other hother hne ↦ ?_⟩
  exact hevent.created.mem_iff.mpr (Or.inr (hmem.mpr (Or.inr ⟨hother, hid ▸ hne⟩)))

/-! ### Runs -/

/-- A revival finds no other task active, if its token gives the right to it and the task takes another
status. -/
def RevivesAlone (service : TaskService) : TaskCall → Prop
  | .reviveTask caller token taskId =>
    service.authority.validate caller token taskRightControlState = .ok () →
      TakesStatus service.objects taskId →
        activeTaskIdIn service.objects = none ∨ activeTaskIdIn service.objects = some taskId
  | _ => True

/-- At most one task is active, and every order of a scan finds the same one. -/
def OneActive (service : TaskService) : Prop :=
  AtMostOneActive service.objects.taskServiceObjects ∧
    ∀ scanned, scanned.Perm service.objects.taskServiceObjects →
      firstActiveTaskId scanned = activeTaskIdIn service.objects

theorem oneActive_iff {service : TaskService} :
    service.OneActive ↔ AtMostOneActive service.objects.taskServiceObjects :=
  ⟨fun h ↦ h.1, fun h ↦ ⟨h, fun _ hperm ↦ h.firstActiveTaskId_eq hperm⟩⟩

/-- The active task is active. -/
theorem exists_of_activeTaskIdIn {objects : ObjectService} {taskId : UInt64}
    (h : activeTaskIdIn objects = some taskId) :
    ∃ record ∈ objects.taskServiceObjects, isActiveTask record = true ∧ record.objectId = ⟨taskId⟩ := by
  obtain ⟨record, hrecord, rfl⟩ := Option.map_eq_some_iff.mp h
  exact ⟨record, List.mem_of_find?_eq_some hrecord, List.find?_some hrecord, rfl⟩

/-- A revival keeps at most one task active exactly when no other task was. -/
theorem revive_step {service : TaskService} (hreachable : service.objects.Reachable)
    (h : ActiveWithin (activeTaskIdIn service.objects).toList service.objects.taskServiceObjects)
    (hone : AtMostOneActive service.objects.taskServiceObjects) (caller : TaskCaller)
    (token : PackedCapability) (taskId : UInt64) :
    AtMostOneActive (service.after (.reviveTask caller token taskId)).objects.taskServiceObjects ↔
      service.RevivesAlone (.reviveTask caller token taskId) := by
  have hcall : Ensures (reviveTask caller token taskId) _ _ service := ensures_call caller token
    taskRightControlState (edits_setTaskStatusOn_appendEventOn caller taskId .active _ _)
  have htakes := ensures_transitionTask_takes hreachable caller token taskId .active
  rcases (hcall.and htakes).cases with ⟨value, -, hedits, hmay⟩ | ⟨error, -, hsame, hnot⟩
  · obtain ⟨⟨record, hrecord, hactive, hid⟩, hkept⟩ := of_revive h.distinct hedits
    have hbound : ActiveWithin (taskId :: (activeTaskIdIn service.objects).toList) _ :=
      ActiveWithin.edits hedits h
    refine ⟨fun hone' _ _ ↦ ?_, fun halone ↦ ?_⟩
    · cases hbefore : activeTaskIdIn service.objects with
      | none => exact Or.inl rfl
      | some activeTaskId =>
        by_contra hne
        obtain ⟨other, hother, hotherActive, hotherId⟩ := exists_of_activeTaskIdIn hbefore
        have hdiffers : other.objectId ≠ ⟨taskId⟩ := by
          rw [hotherId]
          rintro heq
          exact hne (Or.inr (congrArg some (ObjectId.mk.inj heq)))
        have hfound := hone'.find?_eq (hkept other hother hdiffers) hotherActive
        rw [hone'.find?_eq hrecord hactive] at hfound
        exact hdiffers (Option.some.inj hfound ▸ hid)
    · have hsubset : taskId :: (activeTaskIdIn service.objects).toList ⊆ [taskId] := by
        rcases halone hmay.1 hmay.2 with hnone | hsome
        · rw [hnone]
          simp
        · rw [hsome]
          simp
      exact (hbound.mono hsubset).atMostOneActive
  · have hunchanged : service.after (.reviveTask caller token taskId) = service := hsame
    rw [hunchanged]
    exact iff_of_true hone fun hvalid htakes ↦ absurd ⟨hvalid, htakes⟩ hnot

end TaskService

/-- An approval suspends the task that was active. -/
def TaskCall.SuspendsCurrent : TaskCall → Prop
  | .approveProposal _ _ _ suspendCurrent => suspendCurrent = true
  | _ => True

namespace TaskService

/-- From at most one active task, a call leads to at most one again exactly when it does not revive a task
beside another. -/
theorem activity_after {service : TaskService} {call : TaskCall} (hreachable : service.objects.Reachable)
    (hone : service.OneActive) (hcall : call.SuspendsCurrent) :
    (service.after call).OneActive ↔ service.RevivesAlone call := by
  rw [oneActive_iff] at hone ⊢
  obtain ⟨records, hholds, -⟩ := hreachable.agrees
  have h : ActiveWithin (activeTaskIdIn service.objects).toList service.objects.taskServiceObjects :=
    hone.activeWithin ((hholds.stored_perm.map _).nodup_iff.mpr hholds.nodup_idsOf)
  -- All calls but the revival leave the active tasks within one identity.
  have hrest (halone : service.RevivesAlone call) (hscript : ∀ script, call.Runs service.objects script →
      ∃ taskId, script.foldl TaskEdit.activates (activeTaskIdIn service.objects).toList ⊆ [taskId]) :
      AtMostOneActive (service.after call).objects.taskServiceObjects ↔ service.RevivesAlone call := by
    refine iff_of_true ?_ halone
    rcases service.edits_after call with hsame | ⟨script, hruns, hedits⟩
    · rwa [hsame]
    · obtain ⟨taskId, hsubset⟩ := hscript script hruns
      exact ((ActiveWithin.edits hedits h).mono hsubset).atMostOneActive
  have hkept {allowed : List UInt64} (hallowed : allowed ⊆ (activeTaskIdIn service.objects).toList) :
      ∃ taskId, allowed ⊆ [taskId] := by
    refine ⟨(activeTaskIdIn service.objects).getD 0, List.Subset.trans hallowed ?_⟩
    cases activeTaskIdIn service.objects <;> simp
  cases call with
  | createTask caller token title =>
    refine hrest trivial ?_
    rintro _ ⟨taskId, rfl⟩
    refine ⟨taskId, ?_⟩
    cases activeTaskIdIn service.objects <;> simp [creation, suspension, TaskEdit.activates]
  | approveProposal caller token proposalId suspendCurrent =>
    obtain rfl : suspendCurrent = true := hcall
    refine hrest trivial ?_
    rintro _ ⟨taskId, edit, happroves, rfl⟩
    refine ⟨taskId, ?_⟩
    have hactivates (allowed : List UInt64) : edit.activates allowed = taskId :: allowed := by
      cases happroves <;> rfl
    rw [List.foldl_cons, hactivates]
    cases activeTaskIdIn service.objects with
    | none => simp [approval, TaskEdit.activates]
    | some activeTaskId =>
      by_cases hsame : activeTaskId = taskId
      · simp [approval, TaskEdit.activates, Option.filter, hsame]
      · simp [approval, suspension, TaskEdit.activates, Option.filter, hsame, Ne.symm hsame]
  | reviveTask caller token taskId => exact revive_step hreachable h hone caller token taskId
  | rejectProposal caller token proposalId =>
    refine hrest trivial ?_
    rintro _ ⟨taskId, rfl⟩
    exact hkept (by simp [TaskEdit.activates])
  | listPendingProposals | readActiveTask | grantStewardProposalCapability =>
    exact hrest trivial fun _ hruns ↦ hruns.elim
  | _ =>
    refine hrest trivial ?_
    rintro _ rfl
    exact hkept (by simp [suspension, TaskEdit.activates])

/-- In every run from an empty object service whose approvals suspend the current task, at most one task is
active in every state, whatever the order of the scan, exactly when every revival that can be made finds no
other task active. -/
theorem run_oneActive_iff (service : TaskService) (hempty : ObjectService.newSeeded = .ok service.objects)
    (calls : List TaskCall) (hcalls : ∀ call ∈ calls, call.SuspendsCurrent) :
    EachState after OneActive service calls ↔ EachStep after RevivesAlone service calls := by
  have hstep : ∀ (state : TaskService) (call : TaskCall), state.objects.Reachable → state.OneActive →
      call.SuspendsCurrent → (state.after call).objects.Reachable ∧
        ((state.after call).OneActive ↔ state.RevivesAlone call) := by
    intro state call hreachable hone hcall
    refine ⟨?_, activity_after hreachable hone hcall⟩
    rcases state.edits_after call with hsame | ⟨_, -, hedits⟩
    · rwa [hsame]
    · exact hedits.reachable hreachable
  refine eachState_iff_eachStep _ hstep calls (.seeded hempty) ?_ hcalls
  rw [oneActive_iff, Except.ok.inj (hempty.symm.trans ObjectService.newSeeded_eq)]
  unfold AtMostOneActive
  decide +kernel

/-- The shell creates a task, suspends it and revives it. -/
def suspendedAndRevived : List TaskCall :=
  [.createTask shellProcess seededTaskService.authority.userTaskControl.token [0x41],
    .suspendTask shellProcess seededTaskService.authority.userTaskControl.token 3000,
    .reviveTask shellProcess seededTaskService.authority.userTaskControl.token 3000]

theorem run_oneActive_suspendedAndRevived :
    activeTaskIdIn (seededTaskService.run suspendedAndRevived).objects = some 3000 ∧
      EachState after OneActive seededTaskService suspendedAndRevived := by
  refine ⟨by decide +kernel, (run_oneActive_iff seededTaskService ObjectService.newSeeded_eq
    suspendedAndRevived ?_).mpr ⟨trivial, trivial, fun _ _ ↦ Or.inl ?_, trivial⟩⟩
  · simp [suspendedAndRevived, TaskCall.SuspendsCurrent]
  · decide +kernel

/-- The shell creates two tasks, of which the second suspends the first, and revives the first: both are
active. -/
theorem run_twoActive :
    ((seededTaskService.run
      [.createTask shellProcess seededTaskService.authority.userTaskControl.token [0x41],
        .createTask shellProcess seededTaskService.authority.userTaskControl.token [0x42],
        .reviveTask shellProcess seededTaskService.authority.userTaskControl.token 3000]
      ).objects.taskServiceObjects.filter isActiveTask).map (·.objectId.raw) = [3000, 3001] := by
  decide +kernel

end TaskService

end Pythos.Core
