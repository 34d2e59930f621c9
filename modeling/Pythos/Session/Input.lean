import Mathlib.Data.List.Forall2
import Pythos.Foundation.RingBuffer

/-!
# The session input queue

`shared/src/input_types.rs`, `shared/src/session_input_abi.rs` and `core/src/session_input.rs`: the raw
events of the input drivers, the ring they wait in, and the events of the wire ABI that the bound session
reads. Every publication takes a sequence number, whether or not its event finds a slot, so that a reader
can tell that events were lost.

`Traces` follows a queue through its calls: the events in the ring are events that were published, under
the number of their publication modulo the range of the counter. What the session reads is then a
subsequence of what was published (`exists_carries`), with a gap flag wherever a number is skipped
(`sequenced_delivered`).
-/

namespace Pythos.Session

open Foundation

/-! ### Input values -/

inductive KeyCode where
  | a | b | c | d | e | f | g | h | i | j | k | l | m | n | o | p | q | r | s | t | u | v | w | x | y | z
  | digit0 | digit1 | digit2 | digit3 | digit4 | digit5 | digit6 | digit7 | digit8 | digit9
  | enter | escape | space | backspace
  deriving DecidableEq, Repr

inductive InputSource where
  | keyboard
  | mouse
  deriving DecidableEq, Repr

structure RelativeMotion where
  dx : Int8
  dy : Int8
  deriving DecidableEq

inductive InputEventKind where
  | keyDown (key : KeyCode)
  | relativeMotion (motion : RelativeMotion)
  | pointerButton (left : Bool)
  deriving DecidableEq

structure InputEvent where
  source : InputSource
  kind : InputEventKind
  deriving DecidableEq

/-- What a driver reports. -/
inductive RawInputEvent where
  | keyPressed (scancode : UInt8) (key : KeyCode)
  | mouseMoved (dx dy : Int8)
  | mouseButton (left : Bool)
  deriving DecidableEq

/-- `normalize`, of which every arm is `Ok`. -/
def normalize : RawInputEvent → InputEvent
  | .keyPressed _ key => { source := .keyboard, kind := .keyDown key }
  | .mouseMoved dx dy => { source := .mouse, kind := .relativeMotion { dx, dy } }
  | .mouseButton left => { source := .mouse, kind := .pointerButton left }

/-! ### The wire ABI -/

def sessionInputSourceKeyboard : ℕ := 1
def sessionInputSourceMouse : ℕ := 2

def sessionInputKindKeyDown : ℕ := 1
def sessionInputKindRelativeMotion : ℕ := 2
def sessionInputKindMouseButtonState : ℕ := 3

def sessionInputFlagGapBefore : BitVec 32 := 1

structure SessionInputEventV1 where
  sequence : ℕ
  kind : ℕ
  source : ℕ
  flags : BitVec 32
  value0 : ℤ
  value1 : ℤ
  reserved0 : ℕ
  reserved1 : ℕ
  deriving DecidableEq

/-- The ABI tag of a logical key. -/
def keyTag : KeyCode → ℕ
  | .a => 0x0001
  | .b => 0x0002
  | .c => 0x0003
  | .d => 0x0004
  | .e => 0x0005
  | .f => 0x0006
  | .g => 0x0007
  | .h => 0x0008
  | .i => 0x0009
  | .j => 0x000A
  | .k => 0x000B
  | .l => 0x000C
  | .m => 0x000D
  | .n => 0x000E
  | .o => 0x000F
  | .p => 0x0010
  | .q => 0x0011
  | .r => 0x0012
  | .s => 0x0013
  | .t => 0x0014
  | .u => 0x0015
  | .v => 0x0016
  | .w => 0x0017
  | .x => 0x0018
  | .y => 0x0019
  | .z => 0x001A
  | .digit0 => 0x0020
  | .digit1 => 0x0021
  | .digit2 => 0x0022
  | .digit3 => 0x0023
  | .digit4 => 0x0024
  | .digit5 => 0x0025
  | .digit6 => 0x0026
  | .digit7 => 0x0027
  | .digit8 => 0x0028
  | .digit9 => 0x0029
  | .enter => 0x0030
  | .escape => 0x0031
  | .space => 0x0032
  | .backspace => 0x0033

def toSessionEvent (sequence : ℕ) (raw : RawInputEvent) (flags : BitVec 32) : SessionInputEventV1 :=
  let (kind, source, value0, value1) := match (normalize raw).kind with
    | .keyDown key => (sessionInputKindKeyDown, sessionInputSourceKeyboard, (keyTag key : ℤ), (0 : ℤ))
    | .relativeMotion motion =>
      (sessionInputKindRelativeMotion, sessionInputSourceMouse, motion.dx.toInt, motion.dy.toInt)
    | .pointerButton left =>
      (sessionInputKindMouseButtonState, sessionInputSourceMouse, if left then 1 else 0, 0)
  { sequence, kind, source, flags, value0, value1, reserved0 := 0, reserved1 := 0 }

@[simp] theorem toSessionEvent_sequence (sequence : ℕ) (raw : RawInputEvent) (flags : BitVec 32) :
    (toSessionEvent sequence raw flags).sequence = sequence := rfl

@[simp] theorem toSessionEvent_flags (sequence : ℕ) (raw : RawInputEvent) (flags : BitVec 32) :
    (toSessionEvent sequence raw flags).flags = flags := rfl

/-! ### The queue -/

def queueCapacity : ℕ := 16

/-- `wrapping_add(1)` on a sequence number. -/
def nextSequenceAfter (sequence : ℕ) : ℕ := (sequence + 1) % 2 ^ 64

structure SequencedRawInputEvent where
  sequence : ℕ
  raw : RawInputEvent
  deriving DecidableEq

abbrev ServiceId := ℕ

inductive QueueMode where
  | compatibility
  | session
  | binding
  deriving DecidableEq

inductive ConsumerMode where
  | compatibility
  | session (holder : ServiceId) (expected : ℕ)
  deriving DecidableEq

inductive PublishOutcome where
  | enqueued
  | droppedNewest
  deriving DecidableEq

inductive SessionInputError where
  | alreadyBound
  | sessionBound
  | sessionUnbound
  | wrongHolder
  deriving DecidableEq

/-- The queue, with `slots`, `head` and `tail` of the source as one ring. -/
structure SessionInputQueue where
  ring : RingBuffer SequencedRawInputEvent
  nextSequence : ℕ
  mode : QueueMode
  holder : ServiceId
  expected : ℕ

namespace SessionInputQueue

def new : SessionInputQueue :=
  { ring := .empty, nextSequence := 0, mode := .compatibility, holder := 0, expected := 0 }

def publish (queue : SessionInputQueue) (raw : RawInputEvent) : PublishOutcome × SessionInputQueue :=
  let sequence := queue.nextSequence
  let queue := { queue with nextSequence := nextSequenceAfter sequence }
  match queue.ring.push queueCapacity { sequence, raw } with
  | none => (.droppedNewest, queue)
  | some ring => (.enqueued, { queue with ring })

def bindSessionConsumerQuiescent (queue : SessionInputQueue) (holder : ServiceId) :
    Except SessionInputError Unit × SessionInputQueue :=
  if queue.mode ≠ .compatibility then (.error .alreadyBound, queue)
  else (.ok (), { queue with
    ring := queue.ring.flush
    expected := queue.nextSequence
    holder
    mode := .session })

def pop (queue : SessionInputQueue) : Option SequencedRawInputEvent × SessionInputQueue :=
  let (event, ring) := queue.ring.pop queueCapacity
  (event, { queue with ring })

def consumerMode (queue : SessionInputQueue) : ConsumerMode :=
  match queue.mode with
  | .compatibility | .binding => .compatibility
  | .session => .session queue.holder queue.expected

def tryReadCompatibility (queue : SessionInputQueue) :
    Except SessionInputError (Option RawInputEvent) × SessionInputQueue :=
  if queue.mode ≠ .compatibility then (.error .sessionBound, queue)
  else match queue.consumerMode with
    | .compatibility =>
      let (event, queue) := queue.pop
      (.ok (event.map (·.raw)), queue)
    | .session _ _ => (.error .sessionBound, queue)

def tryReadSession (queue : SessionInputQueue) (holder : ServiceId) :
    Except SessionInputError (Option SessionInputEventV1) × SessionInputQueue :=
  match queue.consumerMode with
  | .compatibility => (.error .sessionUnbound, queue)
  | .session boundHolder expected =>
    if holder ≠ boundHolder then (.error .wrongHolder, queue)
    else match queue.pop with
      | (none, queue) => (.ok none, queue)
      | (some event, queue) =>
        let flags := if event.sequence = expected then 0 else sessionInputFlagGapBefore
        (.ok (some (toSessionEvent event.sequence event.raw flags)),
          { queue with expected := nextSequenceAfter event.sequence })

end SessionInputQueue

/-! ### Histories of calls -/

inductive InputCall where
  | publish (raw : RawInputEvent)
  | tryReadCompatibility
  | bindSessionConsumerQuiescent (holder : ServiceId)
  | tryReadSession (holder : ServiceId)
  deriving DecidableEq

/-- The event that a call publishes. -/
def InputCall.published : InputCall → Option RawInputEvent
  | .publish raw => some raw
  | _ => none

/-- The queue after a call. -/
def SessionInputQueue.after (queue : SessionInputQueue) : InputCall → SessionInputQueue
  | .publish raw => (queue.publish raw).2
  | .tryReadCompatibility => queue.tryReadCompatibility.2
  | .bindSessionConsumerQuiescent holder => (queue.bindSessionConsumerQuiescent holder).2
  | .tryReadSession holder => (queue.tryReadSession holder).2

/-- The event that a session read returns. -/
def SessionInputQueue.returned (queue : SessionInputQueue) : InputCall → Option SessionInputEventV1
  | .tryReadSession holder => match (queue.tryReadSession holder).1 with
    | .ok event => event
    | .error _ => none
  | _ => none

/-- The events that the session reads of a history return, in order. -/
def SessionInputQueue.delivered (queue : SessionInputQueue) : List InputCall → List SessionInputEventV1
  | [] => []
  | call :: rest => (queue.returned call).toList ++ (queue.after call).delivered rest

def SessionInputQueue.run (queue : SessionInputQueue) (calls : List InputCall) : SessionInputQueue :=
  calls.foldl SessionInputQueue.after queue

theorem SessionInputQueue.delivered_append (calls rest : List InputCall) (queue : SessionInputQueue) :
    queue.delivered (calls ++ rest) = queue.delivered calls ++ (queue.run calls).delivered rest := by
  induction calls generalizing queue with
  | nil => rfl
  | cons call calls ih =>
    rw [List.cons_append, delivered, ih, delivered, List.append_assoc]
    rfl

/-- The events that the calls of a history publish, in order. -/
def publishedBy (calls : List InputCall) : List RawInputEvent :=
  calls.filterMap InputCall.published

/-! ### What the ring holds -/

/-- A ring entry is the publication of this number. -/
def Stamped (published : List RawInputEvent) (number : ℕ) (entry : SequencedRawInputEvent) : Prop :=
  published[number]? = some entry.raw ∧ entry.sequence = number % 2 ^ 64

theorem Stamped.append {published : List RawInputEvent} {number : ℕ} {entry : SequencedRawInputEvent}
    (h : Stamped published number entry) (later : List RawInputEvent) :
    Stamped (published ++ later) number entry :=
  ⟨by rw [List.getElem?_append_left (List.getElem?_eq_some_iff.mp h.1).1, h.1], h.2⟩

/-- The queue after the publication of these events, of which those with the given numbers wait. -/
structure Traces (queue : SessionInputQueue) (published : List RawInputEvent) (waiting : List ℕ)
    (entries : List SequencedRawInputEvent) : Prop where
  nextSequence_eq : queue.nextSequence = published.length % 2 ^ 64
  holds : queue.ring.Holds queueCapacity entries
  stamped : List.Forall₂ (Stamped published) waiting entries

theorem traces_new : Traces .new [] [] [] :=
  ⟨rfl, RingBuffer.holds_empty (by decide), .nil⟩

section Traces

variable {queue : SessionInputQueue} {published : List RawInputEvent} {waiting : List ℕ}
  {entries : List SequencedRawInputEvent}

theorem nextSequenceAfter_mod (count : ℕ) : nextSequenceAfter (count % 2 ^ 64) = (count + 1) % 2 ^ 64 := by
  rw [nextSequenceAfter, Nat.mod_add_mod]

theorem SessionInputQueue.publish_frame (queue : SessionInputQueue) (raw : RawInputEvent) :
    (queue.publish raw).2.mode = queue.mode ∧ (queue.publish raw).2.expected = queue.expected ∧
      (queue.publish raw).2.holder = queue.holder := by
  unfold publish
  dsimp only
  split <;> exact ⟨rfl, rfl, rfl⟩

/-- A publication takes the next number; its event waits behind the others, or is dropped by a full
ring. -/
theorem Traces.publish (h : Traces queue published waiting entries) (raw : RawInputEvent) :
    Traces (queue.publish raw).2 (published ++ [raw]) waiting entries ∧ entries.length + 1 = queueCapacity ∨
      Traces (queue.publish raw).2 (published ++ [raw]) (waiting ++ [published.length])
        (entries ++ [{ sequence := published.length % 2 ^ 64, raw }]) := by
  have hnext : nextSequenceAfter queue.nextSequence = (published ++ [raw]).length % 2 ^ 64 := by
    rw [h.nextSequence_eq, nextSequenceAfter_mod, List.length_append, List.length_singleton]
  have hstamped := h.stamped.imp fun _ _ hstamp ↦ hstamp.append [raw]
  unfold SessionInputQueue.publish
  dsimp only
  cases hpush : queue.ring.push queueCapacity ⟨queue.nextSequence, raw⟩ with
  | none => exact Or.inl ⟨⟨hnext, h.holds, hstamped⟩, (h.holds.push_eq_none_iff _).mp hpush⟩
  | some ring =>
    refine Or.inr ⟨hnext, ?_, List.rel_append hstamped (.cons ⟨by simp, rfl⟩ .nil)⟩
    rw [← h.nextSequence_eq]
    exact h.holds.push hpush

/-- A read takes the event that waits longest. -/
theorem Traces.pop_cons {number : ℕ} {entry : SequencedRawInputEvent}
    (h : Traces queue published (number :: waiting) (entry :: entries)) :
    queue.pop.1 = some entry ∧ Traces queue.pop.2 published waiting entries := by
  obtain ⟨hitem, hrest⟩ := h.holds.pop_cons
  obtain ⟨-, hstamped⟩ := List.forall₂_cons.mp h.stamped
  exact ⟨hitem, h.nextSequence_eq, hrest, hstamped⟩

theorem Traces.pop_nil (h : Traces queue published waiting []) : queue.pop = (none, queue) := by
  unfold SessionInputQueue.pop
  rw [h.holds.pop_nil]

theorem Traces.flush (h : Traces queue published waiting entries) {holder : ServiceId} {expected : ℕ}
    {mode : QueueMode} :
    Traces { queue with ring := queue.ring.flush, expected, holder, mode } published [] [] :=
  ⟨h.nextSequence_eq, h.holds.flush, .nil⟩

/-! ### What the session reads -/

/-- The event of the ABI for the publication of this number. -/
def Carries (published : List RawInputEvent) (number : ℕ) (event : SessionInputEventV1) : Prop :=
  ∃ raw, published[number]? = some raw ∧ (event.flags = 0 ∨ event.flags = sessionInputFlagGapBefore) ∧
    event = toSessionEvent (number % 2 ^ 64) raw event.flags

/-- A session read changes nothing, or takes the event that waits longest and returns it. -/
theorem Traces.tryReadSession (h : Traces queue published waiting entries) (holder : ServiceId) :
    (queue.after (.tryReadSession holder) = queue ∧ queue.returned (.tryReadSession holder) = none ∧
        (queue.mode = .session → holder = queue.holder → entries = [])) ∨
      ∃ number rest entry left, waiting = number :: rest ∧ entries = entry :: left ∧
        queue.mode = .session ∧ holder = queue.holder ∧
        Traces (queue.after (.tryReadSession holder)) published rest left ∧
        queue.returned (.tryReadSession holder) = some (toSessionEvent entry.sequence entry.raw
          (if entry.sequence = queue.expected then 0 else sessionInputFlagGapBefore)) ∧
        (queue.after (.tryReadSession holder)).mode = .session ∧
        (queue.after (.tryReadSession holder)).expected = nextSequenceAfter entry.sequence := by
  unfold SessionInputQueue.after SessionInputQueue.returned SessionInputQueue.tryReadSession
    SessionInputQueue.consumerMode
  cases hmode : queue.mode with
  | compatibility | binding => exact Or.inl ⟨rfl, rfl, by simp⟩
  | session =>
    dsimp only
    by_cases hholder : holder = queue.holder
    · rw [if_neg (not_not.mpr hholder)]
      cases entries with
      | nil =>
        rw [h.pop_nil]
        exact Or.inl ⟨rfl, rfl, fun _ _ ↦ rfl⟩
      | cons entry left =>
        obtain ⟨number, rest, -, -, rfl⟩ := List.forall₂_cons_right_iff.mp h.stamped
        obtain ⟨hentry, hrest⟩ := h.pop_cons
        refine Or.inr ⟨number, rest, entry, left, rfl, rfl, rfl, hholder, ?_⟩
        rw [show queue.pop = (some entry, queue.pop.2) from Prod.ext hentry rfl]
        exact ⟨⟨hrest.nextSequence_eq, hrest.holds, hrest.stamped⟩, rfl, hmode, rfl⟩
    · rw [if_pos hholder]
      exact Or.inl ⟨rfl, rfl, fun _ hsame ↦ absurd hsame hholder⟩

/-- A compatibility read changes nothing, or takes the event that waits longest. -/
theorem Traces.tryReadCompatibility (h : Traces queue published waiting entries) :
    queue.after .tryReadCompatibility = queue ∨ ∃ number rest entry left, waiting = number :: rest ∧
      entries = entry :: left ∧ queue.mode = .compatibility ∧
        Traces (queue.after .tryReadCompatibility) published rest left := by
  unfold SessionInputQueue.after SessionInputQueue.tryReadCompatibility SessionInputQueue.consumerMode
  by_cases hmode : queue.mode = .compatibility
  · rw [if_neg (not_not.mpr hmode), hmode]
    cases entries with
    | nil =>
      rw [h.pop_nil]
      exact Or.inl rfl
    | cons entry left =>
      obtain ⟨number, rest, -, -, rfl⟩ := List.forall₂_cons_right_iff.mp h.stamped
      exact Or.inr ⟨number, rest, entry, left, rfl, rfl, rfl, h.pop_cons.2⟩
  · rw [if_pos hmode]
    exact Or.inl rfl

/-- A bind changes nothing, or drops all events that wait. -/
theorem Traces.bind (h : Traces queue published waiting entries) (holder : ServiceId) :
    queue.after (.bindSessionConsumerQuiescent holder) = queue ∨ queue.mode = .compatibility ∧
      Traces (queue.after (.bindSessionConsumerQuiescent holder)) published [] [] := by
  unfold SessionInputQueue.after SessionInputQueue.bindSessionConsumerQuiescent
  split_ifs with hmode
  · exact Or.inl rfl
  · exact Or.inr ⟨not_not.mp hmode, h.flush⟩

/-- What a call makes of a queue. It returns no event, and what waits then waited before or is published by
the call; or it returns the event that waits longest. -/
inductive Advances (queue : SessionInputQueue) (published : List RawInputEvent) (waiting : List ℕ)
    (entries : List SequencedRawInputEvent) (call : InputCall) : Prop
  | keeps {waiting' : List ℕ} {entries' : List SequencedRawInputEvent}
      (traces : Traces (queue.after call) (published ++ publishedBy [call]) waiting' entries')
      (returned_eq : queue.returned call = none)
      (sublist : waiting'.Sublist (waiting ++ List.range' published.length (publishedBy [call]).length))
      (session : queue.mode = .session → (queue.after call).mode = .session ∧
        (queue.after call).expected = queue.expected ∧
        (entries'.map (·.sequence) ++ [(queue.after call).nextSequence]).head?
          = (entries.map (·.sequence) ++ [queue.nextSequence]).head?)
  | reads {number : ℕ} {entry : SequencedRawInputEvent} {waiting' : List ℕ}
      {entries' : List SequencedRawInputEvent} (mode_eq : queue.mode = .session)
      (waiting_eq : waiting = number :: waiting') (entries_eq : entries = entry :: entries')
      (traces : Traces (queue.after call) (published ++ publishedBy [call]) waiting' entries')
      (returned_eq : queue.returned call = some (toSessionEvent entry.sequence entry.raw
        (if entry.sequence = queue.expected then 0 else sessionInputFlagGapBefore)))
      (session : (queue.after call).mode = .session)
      (expected_eq : (queue.after call).expected = nextSequenceAfter entry.sequence)

theorem Traces.advances (h : Traces queue published waiting entries) (call : InputCall) :
    Advances queue published waiting entries call := by
  have hkeep (hsame : queue.after call = queue) (hreturned : queue.returned call = none)
      (hpublished : published ++ publishedBy [call] = published) :
      Advances queue published waiting entries call :=
    .keeps (by rw [hsame, hpublished]; exact h) hreturned (List.sublist_append_left _ _)
      (by rw [hsame]; exact fun hmode ↦ ⟨hmode, rfl, rfl⟩)
  have hnothing := List.append_nil published
  cases call with
  | publish raw =>
    obtain ⟨hmode, hexpected, -⟩ := queue.publish_frame raw
    rcases h.publish raw with ⟨hnext, hfull⟩ | hnext
    · refine .keeps hnext rfl (List.sublist_append_left _ _) fun hsession ↦
        ⟨hmode.trans hsession, hexpected, ?_⟩
      cases entries with
      | nil => exact absurd hfull (by decide)
      | cons entry left => rfl
    · refine .keeps hnext rfl (List.Sublist.refl _) fun hsession ↦ ⟨hmode.trans hsession, hexpected, ?_⟩
      rw [h.nextSequence_eq]
      cases entries with
      | nil => rfl
      | cons entry left => rfl
  | tryReadCompatibility =>
    rcases h.tryReadCompatibility with hsame | ⟨number, rest, entry, left, rfl, rfl, hmode, hnext⟩
    · exact hkeep hsame rfl hnothing
    · refine .keeps (hnothing.symm ▸ hnext) rfl ?_ (by simp [hmode])
      exact (List.sublist_cons_self _ _).trans (List.sublist_append_left _ _)
  | bindSessionConsumerQuiescent holder =>
    rcases h.bind holder with hsame | ⟨hmode, hnext⟩
    · exact hkeep hsame rfl hnothing
    · exact .keeps (hnothing.symm ▸ hnext) rfl (List.nil_sublist _) (by simp [hmode])
  | tryReadSession holder =>
    rcases h.tryReadSession holder with
      ⟨hsame, hnone, -⟩ | ⟨_, _, _, _, hwaiting, hentries, hmode, -, hnext, hsome, hsession, hexpected⟩
    · exact hkeep hsame hnone hnothing
    · exact .reads hmode hwaiting hentries (hnothing.symm ▸ hnext) hsome hsession hexpected

theorem carries_of_stamped {number : ℕ} {entry : SequencedRawInputEvent}
    (h : Stamped published number entry) (expected : ℕ) (later : List RawInputEvent) :
    Carries (published ++ later) number (toSessionEvent entry.sequence entry.raw
      (if entry.sequence = expected then 0 else sessionInputFlagGapBefore)) := by
  refine ⟨entry.raw, (h.append later).1, ?_, by rw [toSessionEvent_flags, h.2]⟩
  rw [toSessionEvent_flags]
  split_ifs
  · exact Or.inl rfl
  · exact Or.inr rfl

theorem publishedBy_cons (call : InputCall) (calls : List InputCall) :
    publishedBy (call :: calls) = publishedBy [call] ++ publishedBy calls :=
  List.filterMap_append (l := [call])

/-- The session reads a subsequence of what waits and of what is published later. -/
theorem Traces.exists_carries (h : Traces queue published waiting entries) (calls : List InputCall) :
    ∃ numbers, numbers.Sublist (waiting ++ List.range' published.length (publishedBy calls).length) ∧
      List.Forall₂ (Carries (published ++ publishedBy calls)) numbers (queue.delivered calls) := by
  induction calls generalizing queue published waiting entries with
  | nil => exact ⟨[], List.nil_sublist _, .nil⟩
  | cons call calls ih =>
    rw [publishedBy_cons, SessionInputQueue.delivered, ← List.append_assoc]
    rw [List.length_append, ← List.range'_append_1, ← List.append_assoc, ← List.length_append]
    obtain ⟨hnext, hnone, hwaiting, -⟩ | ⟨-, rfl, rfl, hnext, hsome, -⟩ := h.advances call
    · obtain ⟨numbers, hsublist, hcarries⟩ := ih hnext
      rw [hnone]
      exact ⟨numbers, hsublist.trans (hwaiting.append_right _), hcarries⟩
    · obtain ⟨numbers, hsublist, hcarries⟩ := ih hnext
      obtain ⟨hstamp, -⟩ := List.forall₂_cons.mp h.stamped
      have hcarry := carries_of_stamped hstamp queue.expected (publishedBy [call] ++ publishedBy calls)
      rw [← List.append_assoc] at hcarry
      rw [hsome]
      refine ⟨_ :: numbers, ?_, .cons hcarry hcarries⟩
      exact (hsublist.trans ((List.sublist_append_left _ _).append_right _)).cons_cons _

/-- The events follow each other from an expected number on, with a gap flag wherever a number is
skipped. -/
def Sequenced : ℕ → List SessionInputEventV1 → Prop
  | _, [] => True
  | expected, event :: rest =>
    event.flags = (if event.sequence = expected then 0 else sessionInputFlagGapBefore) ∧
      Sequenced (nextSequenceAfter event.sequence) rest

/-- What a bound session reads is sequenced from the number the queue expects. -/
theorem Traces.sequenced_delivered (h : Traces queue published waiting entries) (calls : List InputCall)
    (hmode : queue.mode = .session) : Sequenced queue.expected (queue.delivered calls) := by
  induction calls generalizing queue published waiting entries with
  | nil => trivial
  | cons call calls ih =>
    rw [SessionInputQueue.delivered]
    obtain ⟨hnext, hnone, -, hkept⟩ | ⟨-, rfl, rfl, hnext, hsome, hsession, hexpected⟩ := h.advances call
    · obtain ⟨hsession, hexpected, -⟩ := hkept hmode
      rw [hnone, ← hexpected]
      exact ih hnext hsession
    · rw [hsome]
      exact ⟨rfl, hexpected ▸ ih hnext hsession⟩

/-- No event was read since the queue was bound: the next one has the expected number. -/
structure Unread (queue : SessionInputQueue) (published : List RawInputEvent) (waiting : List ℕ)
    (entries : List SequencedRawInputEvent) : Prop extends Traces queue published waiting entries where
  mode_eq : queue.mode = .session
  next_eq : (entries.map (·.sequence) ++ [queue.nextSequence]).head? = some queue.expected

/-- The first event that a newly bound session reads has the expected number: a dropped event never comes
first, since the bind emptied the ring. -/
theorem Unread.sequence_eq (h : Unread queue published waiting entries) (calls : List InputCall) :
    ∀ event ∈ (queue.delivered calls).head?, event.sequence = queue.expected := by
  induction calls generalizing queue published waiting entries with
  | nil => simp [SessionInputQueue.delivered]
  | cons call calls ih =>
    rw [SessionInputQueue.delivered]
    obtain ⟨hnext, hnone, -, hkept⟩ | ⟨-, rfl, rfl, -, hsome, -⟩ := h.advances call
    · obtain ⟨hsession, hexpected, hsame⟩ := hkept h.mode_eq
      rw [hnone, ← hexpected]
      exact ih ⟨hnext, hsession, by rw [hsame, h.next_eq, hexpected]⟩
    · rw [hsome]
      rintro event ⟨⟩
      exact Option.some_inj.mp h.next_eq

/-- A successful bind leaves an empty ring that expects the next publication. -/
theorem Traces.unread_bind (h : Traces queue published waiting entries)
    (hmode : queue.mode = .compatibility) (holder : ServiceId) :
    Unread (queue.after (.bindSessionConsumerQuiescent holder)) published [] [] ∧
      (queue.after (.bindSessionConsumerQuiescent holder)).expected = published.length % 2 ^ 64 ∧
        (queue.after (.bindSessionConsumerQuiescent holder)).holder = holder := by
  have hbound : queue.after (.bindSessionConsumerQuiescent holder) = { queue with
      ring := queue.ring.flush, expected := queue.nextSequence, holder, mode := .session } := by
    simp [SessionInputQueue.after, SessionInputQueue.bindSessionConsumerQuiescent, hmode]
  rw [hbound]
  exact ⟨⟨h.flush, rfl, rfl⟩, h.nextSequence_eq, rfl⟩

/-- The reads of a holder find nothing: none is made while events wait, and none follows a publication. -/
def FindsNone (waits : Prop) (holder : ServiceId) (calls : List InputCall) : Prop :=
  (waits → .tryReadSession holder ∉ calls) ∧
    ∀ raw, ¬ [.publish raw, .tryReadSession holder].Sublist calls

section FindsNone

variable {waits : Prop} {holder : ServiceId} {calls : List InputCall}

theorem findsNone_cons {call : InputCall} (hcall : ∀ raw, call ≠ .publish raw)
    (hread : waits → call ≠ .tryReadSession holder) :
    FindsNone waits holder (call :: calls) ↔ FindsNone waits holder calls := by
  simp only [FindsNone, List.mem_cons, not_or, List.cons_sublist_cons', fun raw ↦ (hcall raw).symm,
    false_and, or_false]
  exact and_congr_left' (forall_congr' fun hwaits ↦ and_iff_right (hread hwaits).symm)

/-- An event waits behind a publication. -/
theorem findsNone_publish (raw : RawInputEvent) :
    FindsNone waits holder (.publish raw :: calls) ↔ FindsNone True holder calls := by
  constructor
  · rintro ⟨-, hrest⟩
    exact ⟨fun _ hmem ↦ hrest raw ((List.singleton_sublist.mpr hmem).cons_cons _),
      fun other hsub ↦ hrest other (hsub.cons _)⟩
  · rintro ⟨hread, hrest⟩
    refine ⟨fun _ ↦ by simpa using hread trivial, fun other hsub ↦ ?_⟩
    rcases List.cons_sublist_cons'.mp hsub with hsub | ⟨-, hsub⟩
    · exact hrest other hsub
    · exact hread trivial (List.singleton_sublist.mp hsub)

end FindsNone

/-- An event waits after a publication, since a ring that drops the event is full. -/
theorem Traces.publish_ne_nil (h : Traces queue published waiting entries) (raw : RawInputEvent) :
    ∃ waiting' entries',
      Traces (queue.publish raw).2 (published ++ [raw]) waiting' entries' ∧ entries' ≠ [] := by
  rcases h.publish raw with ⟨hnext, hfull⟩ | hnext
  · refine ⟨waiting, entries, hnext, ?_⟩
    rintro rfl
    exact absurd hfull (by decide)
  · exact ⟨_, _, hnext, by simp⟩

/-- A bound session reads nothing as long as no read of its holder follows a publication. -/
theorem Traces.delivered_eq_nil_iff (h : Traces queue published waiting entries) (calls : List InputCall)
    (hmode : queue.mode = .session) :
    queue.delivered calls = [] ↔ FindsNone (entries ≠ []) queue.holder calls := by
  induction calls generalizing queue published waiting entries with
  | nil => simp [SessionInputQueue.delivered, FindsNone]
  | cons call calls ih =>
    -- a call that changes nothing and is neither a publication nor a read of the holder
    have hskip (hsame : queue.after call = queue) (hnone : queue.returned call = none)
        (hcall : ∀ raw, call ≠ .publish raw) (hread : entries ≠ [] → call ≠ .tryReadSession queue.holder) :
        queue.delivered (call :: calls) = [] ↔
          FindsNone (entries ≠ []) queue.holder (call :: calls) := by
      rw [SessionInputQueue.delivered, hnone, hsame, Option.toList_none, List.nil_append, ih h hmode,
        findsNone_cons hcall hread]
    cases call with
    | publish raw =>
      obtain ⟨hsession, -, hholder⟩ := queue.publish_frame raw
      obtain ⟨waiting', entries', hnext, hne⟩ := h.publish_ne_nil raw
      have hdelivered := ih hnext (hsession.trans hmode)
      rw [hholder, eq_true hne] at hdelivered
      rw [findsNone_publish]
      exact hdelivered
    | tryReadCompatibility =>
      rcases h.tryReadCompatibility with hsame | ⟨_, _, _, _, _, _, hcompatibility, _⟩
      · exact hskip hsame rfl (by simp) (by simp)
      · rw [hmode] at hcompatibility
        cases hcompatibility
    | bindSessionConsumerQuiescent holder =>
      rcases h.bind holder with hsame | ⟨hcompatibility, -⟩
      · exact hskip hsame rfl (by simp) (by simp)
      · rw [hmode] at hcompatibility
        cases hcompatibility
    | tryReadSession holder =>
      rcases h.tryReadSession holder with
        ⟨hsame, hnone, hempty⟩ | ⟨_, _, _, _, _, rfl, _, rfl, _, hsome, _⟩
      · refine hskip hsame hnone (by simp) fun hne heq ↦ hne (hempty hmode ?_)
        exact InputCall.tryReadSession.inj heq
      · refine iff_of_false (by rw [SessionInputQueue.delivered, hsome]; simp) fun hnever ↦ ?_
        exact hnever.1 (List.cons_ne_nil _ _) List.mem_cons_self

/-! ### Before the bind -/

theorem SessionInputQueue.after_mode (queue : SessionInputQueue) {call : InputCall}
    (hcall : ∀ holder, call ≠ .bindSessionConsumerQuiescent holder) : (queue.after call).mode = queue.mode := by
  unfold after
  cases call with
  | bindSessionConsumerQuiescent holder => exact absurd rfl (hcall holder)
  | publish raw | tryReadCompatibility | tryReadSession holder =>
    simp only [SessionInputQueue.publish, SessionInputQueue.tryReadCompatibility,
      SessionInputQueue.tryReadSession, pop]
    grind

/-- Without a bind the queue stays in compatibility mode and the session reads nothing. -/
theorem Traces.before_bind (h : Traces queue published waiting entries) (calls : List InputCall)
    (hcalls : ∀ holder, .bindSessionConsumerQuiescent holder ∉ calls) (hmode : queue.mode = .compatibility) :
    queue.delivered calls = [] ∧ (queue.run calls).mode = .compatibility ∧
      ∃ waiting' entries', Traces (queue.run calls) (published ++ publishedBy calls) waiting' entries' := by
  induction calls generalizing queue published waiting entries with
  | nil => exact ⟨rfl, hmode, waiting, entries, (List.append_nil published).symm ▸ h⟩
  | cons call calls ih =>
    simp only [List.mem_cons, not_or] at hcalls
    rw [publishedBy_cons, SessionInputQueue.delivered, ← List.append_assoc]
    obtain ⟨hnext, hnone, -⟩ | ⟨hsession, -⟩ := h.advances call
    · rw [hnone]
      refine ih hnext (fun holder ↦ (hcalls holder).2) ?_
      rw [queue.after_mode fun holder ↦ Ne.symm (hcalls holder).1, hmode]
    · simp [hmode] at hsession

end Traces

end Pythos.Session
