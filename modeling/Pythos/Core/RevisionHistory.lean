import Pythos.Core.Authority
import Pythos.Core.TypedObjectFormat

/-!
# Revision history

The current revision of every object, and a bounded table of the revisions that it replaced. An update
moves the current revision to the table and counts the revision number up; it needs a timestamp after
the one of the current revision. The history of an object is therefore gapless: its prior revisions are
those from one up to the current number, and their timestamps increase.
-/

namespace Pythos.Core

open Foundation Stateful

inductive RevisionHistoryError
  | objectTableFull
  | revisionTableFull
  | duplicateObject
  | unknownObject
  | nonMonotonicTimestamp
  | objectFormat (error : ObjectFormatError)
  | identity (error : ServiceIdentityError)
  deriving DecidableEq, Repr

structure RevisionRecord where
  objectId : ObjectId
  revision : UInt64
  timestampTicks : UInt64
  writer : ServiceId
  object : TypedObjectRecord
  deriving DecidableEq

structure CurrentObject where
  revision : UInt64
  timestampTicks : UInt64
  writer : ServiceId
  object : TypedObjectRecord
  deriving DecidableEq

namespace CurrentObject

def objectId (current : CurrentObject) : ObjectId :=
  current.object.objectId

def asRevision (current : CurrentObject) : RevisionRecord where
  objectId := current.objectId
  revision := current.revision
  timestampTicks := current.timestampTicks
  writer := current.writer
  object := current.object

/-- The current object that `restore_from_records` makes of a record. -/
def ofRevision (record : RevisionRecord) : CurrentObject where
  revision := record.revision
  timestampTicks := record.timestampTicks
  writer := record.writer
  object := record.object

@[simp] theorem ofRevision_asRevision (current : CurrentObject) :
    ofRevision current.asRevision = current := rfl

end CurrentObject

structure BoundedRevisionHistory (currentCapacity revisionCapacity : ℕ) where
  current : Table CurrentObject currentCapacity
  revisions : Table RevisionRecord revisionCapacity
  deriving DecidableEq

namespace BoundedRevisionHistory

variable {currentCapacity revisionCapacity : ℕ}

def new : BoundedRevisionHistory currentCapacity revisionCapacity where
  current := Table.empty
  revisions := Table.empty

/-- The slot of the current revision of an object and what it holds. -/
def lookup (history : BoundedRevisionHistory currentCapacity revisionCapacity)
    (objectId : ObjectId) : Option (Fin currentCapacity × CurrentObject) :=
  history.current.lookup fun current ↦ current.objectId = objectId

def createObject (object : TypedObjectRecord) (timestampTicks : UInt64) (writer : ServiceId) :
    Stateful RevisionHistoryError
      (BoundedRevisionHistory currentCapacity revisionCapacity) Unit := do
  let history ← Stateful.read
  if (history.lookup object.objectId).isSome then fail .duplicateObject
  else
    match history.current.insert { revision := 1, timestampTicks, writer, object } with
    | none => fail .objectTableFull
    | some current => Stateful.modify fun history ↦ { history with current }

def updateObject (object : TypedObjectRecord) (timestampTicks : UInt64) (writer : ServiceId) :
    Stateful RevisionHistoryError
      (BoundedRevisionHistory currentCapacity revisionCapacity) UInt64 := do
  let history ← Stateful.read
  match history.lookup object.objectId with
  | none => fail .unknownObject
  | some (slot, current) =>
    if timestampTicks ≤ current.timestampTicks then fail .nonMonotonicTimestamp
    else
      match history.revisions.insert current.asRevision with
      | none => fail .revisionTableFull
      | some revisions =>
        let nextRevision := current.revision + 1
        Stateful.modify fun history ↦
          { current := history.current.put slot
              (some { revision := nextRevision, timestampTicks, writer, object })
            revisions }
        pure nextRevision

def currentRevision (history : BoundedRevisionHistory currentCapacity revisionCapacity)
    (objectId : ObjectId) : Option RevisionRecord :=
  (history.lookup objectId).map fun found ↦ found.2.asRevision

def priorRevision (history : BoundedRevisionHistory currentCapacity revisionCapacity)
    (objectId : ObjectId) (revision : UInt64) : Option RevisionRecord :=
  (history.revisions.lookup fun record ↦
    record.objectId = objectId ∧ record.revision = revision).map Prod.snd

/-- `current_records`. -/
def currentRecords (history : BoundedRevisionHistory currentCapacity revisionCapacity) :
    Table RevisionRecord currentCapacity :=
  history.current.map (Option.map CurrentObject.asRevision)

/-- The first loop of `restore_from_records`, with the identities of the records restored so far. -/
def restoreCurrentLoop :
    List (Option RevisionRecord) → List ObjectId → Except RevisionHistoryError Unit
  | [], _ => .ok ()
  | none :: rest, seenIds => restoreCurrentLoop rest seenIds
  | some record :: rest, seenIds =>
    if record.objectId ≠ record.object.objectId then .error .unknownObject
    else if record.objectId ∈ seenIds then .error .duplicateObject
    else restoreCurrentLoop rest (record.objectId :: seenIds)

def restoreFromRecords (current : Table RevisionRecord currentCapacity)
    (revisions : Table RevisionRecord revisionCapacity) :
    Except RevisionHistoryError (BoundedRevisionHistory currentCapacity revisionCapacity) := do
  restoreCurrentLoop current.toList []
  let restored : BoundedRevisionHistory currentCapacity revisionCapacity :=
    { current := current.map (Option.map CurrentObject.ofRevision), revisions }
  if revisions.live.all fun record ↦ (restored.lookup record.objectId).isSome then .ok restored
  else .error .unknownObject

/-! ### Identities -/

/-- The identities of the objects with a current revision. -/
def ids (history : BoundedRevisionHistory currentCapacity revisionCapacity) : List ObjectId :=
  history.current.live.map CurrentObject.objectId

theorem lookup_eq_some {history : BoundedRevisionHistory currentCapacity revisionCapacity}
    {objectId : ObjectId} {slot : Fin currentCapacity} {current : CurrentObject}
    (h : history.lookup objectId = some (slot, current)) :
    getElem history.current slot slot.isLt = some current ∧ current.objectId = objectId := by
  obtain ⟨hslot, htest⟩ := Table.lookup_eq_some h
  exact ⟨hslot, of_decide_eq_true htest⟩

theorem lookup_eq_none_iff {history : BoundedRevisionHistory currentCapacity revisionCapacity}
    {objectId : ObjectId} : history.lookup objectId = none ↔ objectId ∉ history.ids := by
  rw [lookup, Table.lookup_eq_none_iff, ids, List.mem_map]
  simp

end BoundedRevisionHistory

/-! ### Gapless histories -/

/-- The prior revisions of every object with a current revision are numbered from one up to the current
number, and the timestamps of an object increase with its revisions. -/
structure Gapless (current : List CurrentObject) (priors : List RevisionRecord) : Prop where
  distinct : (current.map CurrentObject.objectId).Nodup
  known : ∀ prior ∈ priors, prior.objectId ∈ current.map CurrentObject.objectId
  positive : ∀ entry ∈ current, 0 < entry.revision.toNat
  numbered : ∀ entry ∈ current,
    ((priors.filter fun prior ↦ prior.objectId = entry.objectId).map fun prior ↦
      prior.revision.toNat).Perm (List.range' 1 (entry.revision.toNat - 1))
  ordered : ∀ first ∈ priors, ∀ second ∈ priors, first.objectId = second.objectId →
    first.revision < second.revision → first.timestampTicks < second.timestampTicks
  before : ∀ entry ∈ current, ∀ prior ∈ priors, prior.objectId = entry.objectId →
    prior.timestampTicks < entry.timestampTicks

namespace Gapless

variable {current rest : List CurrentObject} {priors : List RevisionRecord} {entry : CurrentObject}

theorem nil : Gapless [] [] where
  distinct := List.nodup_nil
  known := nofun
  positive := nofun
  numbered := nofun
  ordered := nofun
  before := nofun

theorem perm (h : Gapless current priors) {current' : List CurrentObject}
    {priors' : List RevisionRecord} (hcurrent : current'.Perm current)
    (hpriors : priors'.Perm priors) : Gapless current' priors' where
  distinct := (hcurrent.map _).nodup_iff.mpr h.distinct
  known := fun prior hprior ↦
    (hcurrent.map _).mem_iff.mpr (h.known prior (hpriors.mem_iff.mp hprior))
  positive := fun entry hentry ↦ h.positive entry (hcurrent.mem_iff.mp hentry)
  numbered := fun entry hentry ↦
    ((hpriors.filter _).map _).trans (h.numbered entry (hcurrent.mem_iff.mp hentry))
  ordered := fun first hfirst second hsecond ↦
    h.ordered first (hpriors.mem_iff.mp hfirst) second (hpriors.mem_iff.mp hsecond)
  before := fun entry hentry prior hprior ↦
    h.before entry (hcurrent.mem_iff.mp hentry) prior (hpriors.mem_iff.mp hprior)

/-- A prior revision of an object has a smaller number than the current one. -/
theorem revision_lt (h : Gapless current priors) (hentry : entry ∈ current) {prior : RevisionRecord}
    (hprior : prior ∈ priors) (hid : prior.objectId = entry.objectId) :
    prior.revision.toNat < entry.revision.toNat := by
  have hmem : prior.revision.toNat ∈
      (priors.filter fun prior ↦ prior.objectId = entry.objectId).map fun prior ↦
        prior.revision.toNat :=
    List.mem_map.mpr ⟨prior, List.mem_filter.mpr ⟨hprior, decide_eq_true hid⟩, rfl⟩
  have hrange := (h.numbered entry hentry).mem_iff.mp hmem
  rw [List.mem_range'_1] at hrange
  have hpos := h.positive entry hentry
  omega

theorem revision_le (h : Gapless current priors) (hentry : entry ∈ current) :
    entry.revision.toNat ≤ priors.length + 1 := by
  have hlength := (h.numbered entry hentry).length_eq
  rw [List.length_map, List.length_range'] at hlength
  have hfilter := List.length_filter_le (fun prior ↦ decide (prior.objectId = entry.objectId)) priors
  omega

/-- A new object starts at revision one, without prior revisions. -/
theorem create (h : Gapless current priors) (hone : entry.revision = 1)
    (hnew : entry.objectId ∉ current.map CurrentObject.objectId) :
    Gapless (entry :: current) priors := by
  have hforeign : ∀ prior ∈ priors, prior.objectId ≠ entry.objectId := fun prior hprior heq ↦
    hnew (heq ▸ h.known prior hprior)
  refine ⟨?_, ?_, ?_, ?_, h.ordered, ?_⟩
  · rw [List.map_cons, List.nodup_cons]
    exact ⟨hnew, h.distinct⟩
  · intro prior hprior
    exact List.mem_cons_of_mem _ (h.known prior hprior)
  · intro other hother
    rcases List.mem_cons.mp hother with rfl | hold
    · rw [hone]
      decide
    · exact h.positive other hold
  · intro other hother
    rcases List.mem_cons.mp hother with rfl | hold
    · have hnone : (priors.filter fun prior ↦ prior.objectId = other.objectId) = [] := by
        refine List.filter_eq_nil_iff.mpr fun prior hprior ↦ ?_
        simpa using hforeign prior hprior
      rw [hnone, hone]
      exact List.Perm.refl _
    · exact h.numbered other hold
  · intro other hother prior hprior hid
    rcases List.mem_cons.mp hother with rfl | hold
    · exact absurd hid (hforeign prior hprior)
    · exact h.before other hold prior hprior hid

/-- An update appends the revision that was current to the prior ones. -/
theorem update (h : Gapless (entry :: rest) priors) {next : CurrentObject}
    (hid : next.objectId = entry.objectId) (hnext : next.revision.toNat = entry.revision.toNat + 1)
    (htime : entry.timestampTicks < next.timestampTicks) :
    Gapless (next :: rest) (entry.asRevision :: priors) := by
  have hentry : entry ∈ entry :: rest := List.mem_cons_self
  have hids : (next :: rest).map CurrentObject.objectId =
      (entry :: rest).map CurrentObject.objectId := by
    rw [List.map_cons, List.map_cons, hid]
  have hother : ∀ other ∈ rest, other.objectId ≠ entry.objectId := by
    intro other hother heq
    have hdistinct := h.distinct
    rw [List.map_cons, List.nodup_cons] at hdistinct
    exact hdistinct.1 (heq ▸ List.mem_map_of_mem hother)
  refine ⟨hids ▸ h.distinct, ?_, ?_, ?_, ?_, ?_⟩
  · intro prior hprior
    rw [hids]
    rcases List.mem_cons.mp hprior with rfl | hold
    · exact List.mem_map_of_mem hentry
    · exact h.known prior hold
  · intro other hmem
    rcases List.mem_cons.mp hmem with rfl | hold
    · omega
    · exact h.positive other (List.mem_cons_of_mem _ hold)
  · intro other hmem
    rcases List.mem_cons.mp hmem with rfl | hold
    · -- the numbers of the updated object grow by the one that was current
      have hpos := h.positive entry hentry
      have hrange : List.range' 1 (other.revision.toNat - 1) =
          List.range' 1 (entry.revision.toNat - 1) ++ [entry.revision.toNat] := by
        rw [hnext, show entry.revision.toNat + 1 - 1 = entry.revision.toNat - 1 + 1 by omega,
          List.range'_1_concat]
        congr 2
        omega
      rw [hrange, hid, List.filter_cons_of_pos (by exact decide_eq_true rfl), List.map_cons]
      exact ((h.numbered entry hentry).cons _).trans (List.perm_append_singleton _ _).symm
    · have hne : ¬ entry.asRevision.objectId = other.objectId := fun heq ↦ hother other hold heq.symm
      rw [List.filter_cons_of_neg (by simpa using hne)]
      exact h.numbered other (List.mem_cons_of_mem _ hold)
  · intro first hfirst second hsecond heq hlt
    rcases List.mem_cons.mp hfirst with rfl | hfirst <;>
      rcases List.mem_cons.mp hsecond with rfl | hsecond
    · exact absurd hlt (UInt64.lt_irrefl _)
    · have hrevision := h.revision_lt hentry hsecond heq.symm
      exact absurd (UInt64.lt_iff_toNat_lt.mp hlt) (not_lt.mpr hrevision.le)
    · exact h.before entry hentry first hfirst heq
    · exact h.ordered first hfirst second hsecond heq hlt
  · intro other hmem prior hprior heq
    rcases List.mem_cons.mp hmem with rfl | hold <;> rcases List.mem_cons.mp hprior with rfl | hprior
    · exact htime
    · exact UInt64.lt_trans (h.before entry hentry prior hprior (heq.trans hid)) htime
    · exact absurd heq.symm (hother other hold)
    · exact h.before other (List.mem_cons_of_mem _ hold) prior hprior heq

end Gapless

/-! ### Operations -/

namespace BoundedRevisionHistory

variable {currentCapacity revisionCapacity : ℕ}
  {history : BoundedRevisionHistory currentCapacity revisionCapacity}

/-- The tables hold a gapless history. -/
def WellFormed (history : BoundedRevisionHistory currentCapacity revisionCapacity) : Prop :=
  Gapless history.current.live history.revisions.live

theorem ensures_createObject (object : TypedObjectRecord) (timestampTicks : UInt64)
    (writer : ServiceId) :
    Ensures (createObject object timestampTicks writer)
      (fun _ history' ↦ (history.WellFormed → history'.WellFormed) ∧
        history'.revisions = history.revisions ∧ history'.current.live.Perm
          ({ revision := 1, timestampTicks, writer, object } :: history.current.live))
      (fun _ history' ↦ history' = history ∧
        (object.objectId ∈ history.ids ∨ currentCapacity ≤ history.current.live.length)) history := by
  unfold createObject
  rw [ensures_bind, ensures_read, ensures_ite, Option.isSome_iff_ne_none, ne_eq, lookup_eq_none_iff, not_not]
  refine ⟨fun hknown ↦ ensures_fail.mpr ⟨rfl, Or.inl hknown⟩, fun hnew ↦ ?_⟩
  cases hinsert : history.current.insert { revision := 1, timestampTicks, writer, object } with
  | none =>
    exact ensures_fail.mpr ⟨rfl, Or.inr (Table.le_length_live_of_insert_eq_none hinsert)⟩
  | some current =>
    have hlive := Table.live_insert hinsert
    refine ensures_modify.mpr ⟨fun hwell ↦ ?_, rfl, hlive⟩
    have hcreate : Gapless ({ revision := 1, timestampTicks, writer, object } ::
        history.current.live) history.revisions.live := Gapless.create hwell rfl hnew
    exact hcreate.perm hlive (List.Perm.refl _)

/-- The history takes an update of an object: its current revision is older, and there is room for it among
the prior ones. -/
def Takes (history : BoundedRevisionHistory currentCapacity revisionCapacity) (timestampTicks : UInt64)
    (entry : CurrentObject) : Prop :=
  entry.timestampTicks < timestampTicks ∧ history.revisions.freeIndex ≠ none

theorem ensures_updateObject (hcapacity : revisionCapacity + 2 < 2 ^ 64)
    (object : TypedObjectRecord) (timestampTicks : UInt64) (writer : ServiceId) :
    Ensures (updateObject object timestampTicks writer)
      (fun revision history' ↦ (history.WellFormed → history'.WellFormed) ∧
        ∃ slot entry rest, history.lookup object.objectId = some (slot, entry) ∧
          history.Takes timestampTicks entry ∧ history.current.live.Perm (entry :: rest) ∧
            revision = entry.revision + 1 ∧
            history'.current.live.Perm ({ revision, timestampTicks, writer, object } :: rest) ∧
              history'.revisions.live.Perm (entry.asRevision :: history.revisions.live))
      (fun _ history' ↦ history' = history ∧ ∀ slot entry,
        history.lookup object.objectId = some (slot, entry) → ¬ history.Takes timestampTicks entry)
      history := by
  unfold updateObject Takes
  rw [ensures_bind, ensures_read]
  cases hlookup : history.lookup object.objectId with
  | none => exact ensures_fail.mpr ⟨rfl, nofun⟩
  | some found =>
    obtain ⟨slot, entry⟩ := found
    obtain ⟨hslot, hid⟩ := lookup_eq_some hlookup
    refine ensures_ite.mpr ⟨fun hlate ↦ ⟨rfl, ?_⟩, fun htime ↦ ?_⟩
    · rintro _ _ ⟨⟩ htakes
      exact UInt64.not_lt.mpr hlate htakes.1
    cases hinsert : history.revisions.insert entry.asRevision with
    | none =>
      refine ensures_fail.mpr ⟨rfl, ?_⟩
      rintro _ _ ⟨⟩ htakes
      exact htakes.2 (Option.map_eq_none_iff.mp hinsert)
    | some revisions =>
      obtain ⟨rest, hold, hnew, -⟩ := Table.live_put_of_some hslot
      have hpriors := Table.live_insert hinsert
      obtain ⟨free, hfree, -⟩ := Option.map_eq_some_iff.mp hinsert
      simp only [ensures_bind, ensures_modify, ensures_pure]
      refine ⟨fun hwell ↦ ?_, slot, entry, rest, rfl, ⟨UInt64.not_le.mp htime,
        hfree ▸ Option.some_ne_none free⟩, hold, rfl, hnew _, hpriors⟩
      have hgapless := Gapless.perm hwell hold.symm (List.Perm.refl _)
      -- the revision number cannot wrap: it counts the prior revisions
      have hbound := hgapless.revision_le List.mem_cons_self
      have hlength := history.revisions.length_live_le
      have hnext : (entry.revision + 1).toNat = entry.revision.toNat + 1 := by
        rw [UInt64.toNat_add]
        exact Nat.mod_eq_of_lt (by simp; omega)
      have hstep : Gapless ({ revision := entry.revision + 1, timestampTicks, writer, object } ::
          rest) (entry.asRevision :: history.revisions.live) :=
        hgapless.update hid.symm hnext (UInt64.not_le.mp htime)
      exact hstep.perm (hnew _) hpriors

/-! ### Restoring -/

theorem restoreCurrentLoop_of_nodup :
    ∀ (items : List (Option CurrentObject)) (seenIds : List ObjectId),
      ((items.reduceOption.map CurrentObject.objectId) ++ seenIds).Nodup →
        restoreCurrentLoop (items.map (Option.map CurrentObject.asRevision)) seenIds = .ok ()
  | [], _, _ => rfl
  | none :: rest, seenIds, h => restoreCurrentLoop_of_nodup rest seenIds h
  | some entry :: rest, seenIds, h => by
    rw [List.reduceOption_cons_of_some, List.map_cons, List.cons_append] at h
    have hnew : entry.asRevision.objectId ∉ seenIds := fun hmem ↦
      (List.nodup_cons.mp h).1 (List.mem_append_right _ hmem)
    have hrest := restoreCurrentLoop_of_nodup rest (entry.objectId :: seenIds) (by
      rwa [List.nodup_middle])
    have hself : entry.asRevision.objectId = entry.asRevision.object.objectId := rfl
    rw [List.map_cons, Option.map_some, restoreCurrentLoop, if_neg (not_not.mpr hself), if_neg hnew]
    exact hrest

/-- A well-formed history is restored from its records. -/
theorem restoreFromRecords_of_wellFormed (h : history.WellFormed) :
    restoreFromRecords history.currentRecords history.revisions = .ok history := by
  have hloop : restoreCurrentLoop history.currentRecords.toList [] = .ok () := by
    rw [currentRecords, Vector.toList_map]
    exact restoreCurrentLoop_of_nodup _ [] (by simpa [Table.live] using h.distinct)
  have hcurrent : history.currentRecords.map (Option.map CurrentObject.ofRevision) =
      history.current := by
    ext slot hslot : 1
    simp [currentRecords, Function.comp_def]
  have hknown : history.revisions.live.all
      (fun record ↦ (history.lookup record.objectId).isSome) = true := by
    refine List.all_eq_true.mpr fun record hrecord ↦ ?_
    rw [Option.isSome_iff_ne_none, ne_eq, lookup_eq_none_iff, not_not]
    exact h.known record hrecord
  rw [restoreFromRecords, hloop, ok_bind]
  simp only [hcurrent]
  rw [if_pos hknown]

end BoundedRevisionHistory

end Pythos.Core
