import Mathlib.Data.Fin.VecNotation
import Pythos.Session.Input

/-!
# The viewing session

`shared/src/session_controls.rs`, `shared/src/viewing` and `user/session-runtime/src/session_viewing.rs`:
the session decodes the events of the input ABI, checks that they follow each other, and lets them drive
the viewing state. A malformed event or a skipped number without a gap flag poisons the session.

The session starts with no expected number, and then takes the first event only under number zero or with a
gap flag. The queue of the kernel starts from the number of the first publication after the bind instead.
`observeAll_isOk_iff` says what follows: the two agree exactly when the bind came before every publication
(modulo the range of the counter).
-/

namespace Pythos.Session

/-! ### Session controls -/

inductive SessionControlCommand where
  | activateCursorFeature
  deriving DecidableEq

/-- The index into the activation keys, which `observe` keeps in range. -/
structure SessionControlInterpreter where
  activationIndex : Fin 4
  deriving DecidableEq

namespace SessionControlInterpreter

def new : SessionControlInterpreter := { activationIndex := 0 }

def reset (_controls : SessionControlInterpreter) : SessionControlInterpreter := { activationIndex := 0 }

def cursorActivationKeys : Fin 4 → KeyCode := ![.space, .space, .backspace, .backspace]

def observe (controls : SessionControlInterpreter) (event : InputEvent) :
    Option SessionControlCommand × SessionControlInterpreter :=
  match event.kind with
  | .keyDown key =>
    if key = cursorActivationKeys controls.activationIndex then
      if h : controls.activationIndex.val + 1 < 4 then
        (none, { activationIndex := ⟨controls.activationIndex.val + 1, h⟩ })
      else (some .activateCursorFeature, controls.reset)
    else (none, { activationIndex := if key = .space then 1 else 0 })
  | .relativeMotion _ | .pointerButton _ => (none, controls)

end SessionControlInterpreter

/-! ### The viewing state -/

/-- An extent as `ViewingExtent::new` accepts it: no empty side. -/
structure ViewingExtent where
  width : ℕ
  height : ℕ
  width_pos : 0 < width
  height_pos : 0 < height
  width_lt : width < 2 ^ 32
  height_lt : height < 2 ^ 32
  deriving DecidableEq

structure FocusMarkPosition where
  x : ℕ
  y : ℕ
  deriving DecidableEq

structure CursorFeatureState where
  active : Bool
  position : FocusMarkPosition
  deriving DecidableEq

structure TraversalIntent where
  motion : RelativeMotion
  deriving DecidableEq

structure TraversalState where
  motionCount : ℕ
  lastMotion : Option RelativeMotion
  deriving DecidableEq

inductive MotionRoute where
  | traversal (intent : TraversalIntent)
  | cursorFocus (position : FocusMarkPosition)
  deriving DecidableEq

structure ViewingSnapshot where
  extent : ViewingExtent
  focusMark : Option FocusMarkPosition
  deriving DecidableEq

structure ViewingState where
  extent : ViewingExtent
  traversal : TraversalState
  cursorFeature : CursorFeatureState
  deriving DecidableEq

/-- `(i64::from(coordinate) + i64::from(delta)).clamp(0, i64::from(side - 1)) as u32`. -/
def clampedMove (coordinate : ℕ) (delta : Int8) (side : ℕ) : ℕ :=
  (max 0 (min ((coordinate : ℤ) + delta.toInt) ((side - 1 : ℕ) : ℤ))).toNat

def CursorFeatureState.consumeRelativeMotion (cursor : CursorFeatureState) (motion : RelativeMotion)
    (extent : ViewingExtent) : FocusMarkPosition × CursorFeatureState :=
  let position : FocusMarkPosition :=
    { x := clampedMove cursor.position.x motion.dx extent.width
      y := clampedMove cursor.position.y motion.dy extent.height }
  (position, { cursor with position })

def TraversalState.acceptRelativeMotion (traversal : TraversalState) (motion : RelativeMotion) :
    TraversalIntent × TraversalState :=
  ({ motion }, { motionCount := min (traversal.motionCount + 1) (2 ^ 32 - 1), lastMotion := some motion })

namespace ViewingState

def new (extent : ViewingExtent) : ViewingState :=
  { extent
    traversal := { motionCount := 0, lastMotion := none }
    cursorFeature := { active := false, position := { x := extent.width / 2, y := extent.height / 2 } } }

def applySessionCommand (viewing : ViewingState) : SessionControlCommand → ViewingState
  | .activateCursorFeature => { viewing with cursorFeature := { viewing.cursorFeature with active := true } }

def routeRelativeMotion (viewing : ViewingState) (motion : RelativeMotion) : MotionRoute × ViewingState :=
  if viewing.cursorFeature.active then
    let (position, cursorFeature) := viewing.cursorFeature.consumeRelativeMotion motion viewing.extent
    (.cursorFocus position, { viewing with cursorFeature })
  else
    let (intent, traversal) := viewing.traversal.acceptRelativeMotion motion
    (.traversal intent, { viewing with traversal })

def snapshot (viewing : ViewingState) : ViewingSnapshot :=
  { extent := viewing.extent
    focusMark := if viewing.cursorFeature.active then some viewing.cursorFeature.position else none }

end ViewingState

/-! ### The session -/

inductive SessionViewingContinuity where
  | initial
  | continuous
  | gapBefore
  deriving DecidableEq

inductive SessionViewingMalformedEvent where
  | reserved
  | flags
  | sourceKind
  | shape
  | motionRange
  deriving DecidableEq

inductive SessionViewingError where
  | malformed (event : SessionViewingMalformedEvent)
  | unflaggedDiscontinuity (expected actual : ℕ)
  | recoveryRequired
  deriving DecidableEq

structure SessionViewingReceipt where
  sequence : ℕ
  continuity : SessionViewingContinuity
  command : Option SessionControlCommand
  motionRoute : Option MotionRoute
  snapshot : ViewingSnapshot
  deriving DecidableEq

structure DecodedSessionInput where
  input : InputEvent
  gapBefore : Bool
  deriving DecidableEq

def keyCode (value : ℤ) : Option KeyCode :=
  match value with
  | .ofNat 0x0001 => some .a
  | .ofNat 0x0002 => some .b
  | .ofNat 0x0003 => some .c
  | .ofNat 0x0004 => some .d
  | .ofNat 0x0005 => some .e
  | .ofNat 0x0006 => some .f
  | .ofNat 0x0007 => some .g
  | .ofNat 0x0008 => some .h
  | .ofNat 0x0009 => some .i
  | .ofNat 0x000A => some .j
  | .ofNat 0x000B => some .k
  | .ofNat 0x000C => some .l
  | .ofNat 0x000D => some .m
  | .ofNat 0x000E => some .n
  | .ofNat 0x000F => some .o
  | .ofNat 0x0010 => some .p
  | .ofNat 0x0011 => some .q
  | .ofNat 0x0012 => some .r
  | .ofNat 0x0013 => some .s
  | .ofNat 0x0014 => some .t
  | .ofNat 0x0015 => some .u
  | .ofNat 0x0016 => some .v
  | .ofNat 0x0017 => some .w
  | .ofNat 0x0018 => some .x
  | .ofNat 0x0019 => some .y
  | .ofNat 0x001A => some .z
  | .ofNat 0x0020 => some .digit0
  | .ofNat 0x0021 => some .digit1
  | .ofNat 0x0022 => some .digit2
  | .ofNat 0x0023 => some .digit3
  | .ofNat 0x0024 => some .digit4
  | .ofNat 0x0025 => some .digit5
  | .ofNat 0x0026 => some .digit6
  | .ofNat 0x0027 => some .digit7
  | .ofNat 0x0028 => some .digit8
  | .ofNat 0x0029 => some .digit9
  | .ofNat 0x0030 => some .enter
  | .ofNat 0x0031 => some .escape
  | .ofNat 0x0032 => some .space
  | .ofNat 0x0033 => some .backspace
  | _ => none

theorem keyCode_keyTag (key : KeyCode) : keyCode (keyTag key) = some key := by
  cases key <;> rfl

/-- `i8::try_from(value)`. -/
def motionOf (value : ℤ) : Except SessionViewingError Int8 :=
  if -128 ≤ value ∧ value ≤ 127 then .ok (Int8.ofInt value)
  else .error (.malformed .motionRange)

def decodeInput (event : SessionInputEventV1) : Except SessionViewingError InputEvent :=
  if event.source = sessionInputSourceKeyboard ∧ event.kind = sessionInputKindKeyDown then
    if event.value1 ≠ 0 then .error (.malformed .shape)
    else match keyCode event.value0 with
      | none => .error (.malformed .shape)
      | some key => .ok { source := .keyboard, kind := .keyDown key }
  else if event.source = sessionInputSourceMouse ∧ event.kind = sessionInputKindRelativeMotion then do
    let dx ← motionOf event.value0
    let dy ← motionOf event.value1
    .ok { source := .mouse, kind := .relativeMotion { dx, dy } }
  else if event.source = sessionInputSourceMouse ∧ event.kind = sessionInputKindMouseButtonState then
    if event.value0 = 0 ∧ event.value1 = 0 then .ok { source := .mouse, kind := .pointerButton false }
    else if event.value0 = 1 ∧ event.value1 = 0 then
      .ok { source := .mouse, kind := .pointerButton true }
    else .error (.malformed .shape)
  else .error (.malformed .sourceKind)

def decode (event : SessionInputEventV1) : Except SessionViewingError DecodedSessionInput :=
  if event.reserved0 ≠ 0 ∨ event.reserved1 ≠ 0 then .error (.malformed .reserved)
  else if event.flags &&& ~~~sessionInputFlagGapBefore ≠ 0 then .error (.malformed .flags)
  else do
    let input ← decodeInput event
    .ok { input, gapBefore := event.flags = sessionInputFlagGapBefore }

structure SessionViewing where
  controls : SessionControlInterpreter
  viewing : ViewingState
  expectedSequence : Option ℕ
  poisoned : Bool
  deriving DecidableEq

namespace SessionViewing

def new (extent : ViewingExtent) : SessionViewing :=
  { controls := .new, viewing := .new extent, expectedSequence := none, poisoned := false }

def poison (session : SessionViewing) : SessionViewing :=
  { session with controls := session.controls.reset, poisoned := true }

/-- `continuity`, without the poisoning of a discontinuity. -/
def continuity (session : SessionViewing) (sequence : ℕ) (gapBefore : Bool) :
    Except SessionViewingError SessionViewingContinuity :=
  match session.expectedSequence with
  | none =>
    if sequence = 0 ∧ !gapBefore then .ok .initial
    else if gapBefore then .ok .gapBefore
    else .error (.unflaggedDiscontinuity 0 sequence)
  | some expected =>
    if sequence = expected ∧ !gapBefore then .ok .continuous
    else if gapBefore then .ok .gapBefore
    else .error (.unflaggedDiscontinuity expected sequence)

/-- The part of `observe` after its checks: the event drives the controls and the viewing state. -/
def accept (session : SessionViewing) (sequence : ℕ) (decoded : DecodedSessionInput)
    (continuity : SessionViewingContinuity) : SessionViewingReceipt × SessionViewing :=
  let controls := if decoded.gapBefore then session.controls.reset else session.controls
  let (command, controls) := controls.observe decoded.input
  let viewing := match command with
    | some command => session.viewing.applySessionCommand command
    | none => session.viewing
  let (motionRoute, viewing) := match decoded.input.kind with
    | .relativeMotion motion =>
      let (route, viewing) := viewing.routeRelativeMotion motion
      (some route, viewing)
    | .keyDown _ | .pointerButton _ => (none, viewing)
  ({ sequence, continuity, command, motionRoute, snapshot := viewing.snapshot },
    { session with controls, viewing, expectedSequence := some (nextSequenceAfter sequence) })

def observe (session : SessionViewing) (event : SessionInputEventV1) :
    Except SessionViewingError SessionViewingReceipt × SessionViewing :=
  if session.poisoned then (.error .recoveryRequired, session)
  else match decode event with
    | .error error => (.error error, session.poison)
    | .ok decoded => match session.continuity event.sequence decoded.gapBefore with
      | .error error => (.error error, session.poison)
      | .ok continuity =>
        let (receipt, session) := session.accept event.sequence decoded continuity
        (.ok receipt, session)

/-- The results of observing events one after the other. -/
def observeAll (session : SessionViewing) :
    List SessionInputEventV1 → List (Except SessionViewingError SessionViewingReceipt)
  | [] => []
  | event :: rest => (session.observe event).1 :: (session.observe event).2.observeAll rest

end SessionViewing

/-! ### The two codecs agree -/

theorem motionOf_toInt (delta : Int8) : motionOf delta.toInt = .ok delta := by
  have hlow := Int8.le_toInt delta
  have hhigh := Int8.toInt_lt delta
  rw [motionOf, if_pos ⟨by omega, by omega⟩, Int8.ofInt_toInt]

theorem decodeInput_toSessionEvent (sequence : ℕ) (raw : RawInputEvent) (flags : BitVec 32) :
    decodeInput (toSessionEvent sequence raw flags) = .ok (normalize raw) := by
  cases raw with
  | keyPressed scancode key => simp [decodeInput, toSessionEvent, normalize, keyCode_keyTag]
  | mouseMoved dx dy =>
    have hdx := motionOf_toInt dx
    have hdy := motionOf_toInt dy
    simp [decodeInput, toSessionEvent, normalize, hdx, hdy, sessionInputSourceKeyboard,
      sessionInputSourceMouse, bind, Except.bind]
  | mouseButton left => cases left <;> rfl

/-- What the session decodes from an event of the queue is the event that was published. -/
theorem decode_toSessionEvent (sequence : ℕ) (raw : RawInputEvent) {flags : BitVec 32}
    (hflags : flags = 0 ∨ flags = sessionInputFlagGapBefore) :
    decode (toSessionEvent sequence raw flags)
      = .ok { input := normalize raw, gapBefore := flags = sessionInputFlagGapBefore } := by
  have hclear : flags &&& ~~~sessionInputFlagGapBefore = 0 := by
    rcases hflags with rfl | rfl <;> decide
  rw [decode, if_neg (by simp [toSessionEvent]), toSessionEvent_flags, if_neg (not_not.mpr hclear),
    decodeInput_toSessionEvent]
  rfl

theorem Carries.decode_eq {published : List RawInputEvent} {number : ℕ} {event : SessionInputEventV1}
    (h : Carries published number event) :
    ∃ raw, published[number]? = some raw ∧ event.sequence = number % 2 ^ 64 ∧
      decode event
        = .ok { input := normalize raw, gapBefore := event.flags = sessionInputFlagGapBefore } := by
  obtain ⟨raw, hraw, hflags, hevent⟩ := h
  refine ⟨raw, hraw, ?_, ?_⟩
  · rw [hevent, toSessionEvent_sequence]
  · rw [hevent, decode_toSessionEvent _ _ hflags, toSessionEvent_flags]

/-! ### Continuity -/

namespace SessionViewing

variable {session : SessionViewing} {event : SessionInputEventV1} {decoded : DecodedSessionInput}

/-- An event that decodes and continues the stream is accepted, and the next number is expected. -/
theorem observe_of_continuity (hpoisoned : session.poisoned = false) (hdecode : decode event = .ok decoded)
    {continuity : SessionViewingContinuity}
    (hcontinuity : session.continuity event.sequence decoded.gapBefore = .ok continuity) :
    (session.observe event).1.isOk = true ∧ (session.observe event).2.poisoned = false ∧
      (session.observe event).2.expectedSequence = some (nextSequenceAfter event.sequence) := by
  rw [observe, hpoisoned, if_neg (by decide), hdecode]
  dsimp only
  rw [hcontinuity]
  exact ⟨rfl, hpoisoned, rfl⟩

theorem observe_of_discontinuity (hpoisoned : session.poisoned = false)
    (hdecode : decode event = .ok decoded) {error : SessionViewingError}
    (hcontinuity : session.continuity event.sequence decoded.gapBefore = .error error) :
    (session.observe event).1 = .error error := by
  rw [observe, hpoisoned, if_neg (by decide), hdecode]
  dsimp only
  rw [hcontinuity]

/-- A session that expects the number the queue expects accepts all that the queue delivers. -/
theorem isOk_of_sequenced {published : List RawInputEvent} {numbers : List ℕ}
    {events : List SessionInputEventV1} (hcarries : List.Forall₂ (Carries published) numbers events) :
    ∀ {session : SessionViewing} {expected : ℕ}, session.poisoned = false →
      session.expectedSequence = some expected → Sequenced expected events →
        ∀ result ∈ session.observeAll events, result.isOk = true := by
  induction hcarries with
  | nil => intro session expected _ _ _ result hresult; simp [observeAll] at hresult
  | @cons number event numbers rest hcarry _ ih =>
    intro session expected hpoisoned hexpected hsequenced
    obtain ⟨hflags, hrest⟩ := hsequenced
    obtain ⟨raw, -, -, hdecode⟩ := hcarry.decode_eq
    obtain ⟨continuity, hcontinuity⟩ : ∃ continuity, session.continuity event.sequence
        (decide (event.flags = sessionInputFlagGapBefore)) = .ok continuity := by
      rw [SessionViewing.continuity, hexpected, hflags]
      by_cases heq : event.sequence = expected
      · exact ⟨.continuous, by simp [heq, sessionInputFlagGapBefore]⟩
      · exact ⟨.gapBefore, by simp [heq]⟩
    obtain ⟨hok, hpoisoned', hexpected'⟩ := observe_of_continuity hpoisoned hdecode hcontinuity
    intro result hresult
    rcases List.mem_cons.mp hresult with rfl | hmem
    · exact hok
    · exact ih hpoisoned' hexpected' hrest result hmem

/-- A fresh session accepts what a newly bound queue delivers exactly when nothing comes or the numbers
start from zero. -/
theorem isOk_new_iff (extent : ViewingExtent) {published : List RawInputEvent} {numbers : List ℕ}
    {events : List SessionInputEventV1} (hcarries : List.Forall₂ (Carries published) numbers events)
    {first : ℕ} (hsequenced : Sequenced first events)
    (hfirst : ∀ event ∈ events.head?, event.sequence = first) :
    (∀ result ∈ (new extent).observeAll events, result.isOk = true) ↔ events = [] ∨ first = 0 := by
  cases hcarries with
  | nil => simp [observeAll]
  | @cons number event numbers rest hcarry hcarries =>
    obtain ⟨hflags, hrest⟩ := hsequenced
    obtain rfl := hfirst event rfl
    rw [if_pos rfl] at hflags
    obtain ⟨raw, -, -, hdecode⟩ := hcarry.decode_eq
    rw [hflags] at hdecode
    simp only [reduceCtorEq, false_or]
    constructor
    · intro hall
      by_contra hne
      have hcontinuity : (new extent).continuity event.sequence
          (decide ((0 : BitVec 32) = sessionInputFlagGapBefore))
            = .error (.unflaggedDiscontinuity 0 event.sequence) := by
        simp [SessionViewing.continuity, new, hne, sessionInputFlagGapBefore]
      have hok := hall _ List.mem_cons_self
      rw [observe_of_discontinuity rfl hdecode hcontinuity] at hok
      exact absurd hok (by simp [Except.isOk, Except.toBool])
    · intro hzero
      have hcontinuity : (new extent).continuity event.sequence
          (decide ((0 : BitVec 32) = sessionInputFlagGapBefore)) = .ok .initial := by
        simp [SessionViewing.continuity, new, hzero, sessionInputFlagGapBefore]
      obtain ⟨hok, hpoisoned, hexpected⟩ := observe_of_continuity rfl hdecode hcontinuity
      intro result hresult
      rcases List.mem_cons.mp hresult with rfl | hmem
      · exact hok
      · exact isOk_of_sequenced hcarries hpoisoned hexpected hrest result hmem

end SessionViewing

/-! ### Kernel and session -/

/-- The events that the session reads in a history: publications and compatibility reads, the bind of a
session, and the calls after it. -/
def sessionEvents (before : List InputCall) (holder : ServiceId) (after : List InputCall) :
    List SessionInputEventV1 :=
  SessionInputQueue.new.delivered (before ++ .bindSessionConsumerQuiescent holder :: after)

/-- In every history with one bind, each event the session reads decodes to the publication of its number,
in the order of publication. A fresh session accepts them all exactly when no read of its holder follows a
publication after the bind, or when the number of publications before the bind is a multiple of the range of
the counter. -/
theorem observeAll_isOk_iff (extent : ViewingExtent) (before after : List InputCall) (holder : ServiceId)
    (hbefore : ∀ other, .bindSessionConsumerQuiescent other ∉ before) :
    ((∀ result ∈ (SessionViewing.new extent).observeAll (sessionEvents before holder after),
        result.isOk = true) ↔
      (∀ raw, ¬ [.publish raw, .tryReadSession holder].Sublist after) ∨
        (publishedBy before).length % 2 ^ 64 = 0) ∧
    ∃ numbers : List ℕ, numbers.Pairwise (· < ·) ∧
      List.Forall₂ (fun number event ↦ ∃ raw,
        (publishedBy before ++ publishedBy after)[number]? = some raw ∧
          event.sequence = number % 2 ^ 64 ∧
          ∃ gapBefore, decode event = .ok { input := normalize raw, gapBefore })
        numbers (sessionEvents before holder after) := by
  obtain ⟨hnone, hmode, waiting, entries, htraces⟩ := traces_new.before_bind before hbefore rfl
  rw [List.nil_append] at htraces
  obtain ⟨hunread, hexpected, hholder⟩ := htraces.unread_bind hmode holder
  have hevents : sessionEvents before holder after = ((SessionInputQueue.new.run before).after
      (.bindSessionConsumerQuiescent holder)).delivered after := by
    rw [sessionEvents, SessionInputQueue.delivered_append, hnone]
    rfl
  obtain ⟨numbers, hsublist, hcarries⟩ := hunread.toTraces.exists_carries after
  rw [hevents]
  constructor
  · have hnothing := hunread.toTraces.delivered_eq_nil_iff after hunread.mode_eq
    rw [hholder, FindsNone, and_iff_right fun hne ↦ absurd rfl hne] at hnothing
    rw [← hnothing, ← hexpected]
    exact SessionViewing.isOk_new_iff extent hcarries
      (hunread.toTraces.sequenced_delivered after hunread.mode_eq) (hunread.sequence_eq after)
  · refine ⟨numbers, List.Pairwise.sublist hsublist List.pairwise_lt_range', ?_⟩
    refine hcarries.imp fun number event hcarry ↦ ?_
    obtain ⟨raw, hraw, hsequence, hdecode⟩ := hcarry.decode_eq
    exact ⟨raw, hraw, hsequence, _, hdecode⟩

/-- A session of 640 by 480 pixels. -/
def smallExtent : ViewingExtent :=
  { width := 640, height := 480, width_pos := by decide, height_pos := by decide, width_lt := by decide
    height_lt := by decide }

/-- Before the bind nothing is published. After it three events are, and another service tries to bind and to
read. -/
def boundFirst : List InputCall :=
  [.tryReadSession 7, .publish (.keyPressed 0x1E .a), .tryReadSession 7, .publish (.mouseMoved 3 (-2)),
    .bindSessionConsumerQuiescent 8, .tryReadSession 8, .publish (.mouseButton true), .tryReadCompatibility,
    .tryReadSession 7, .tryReadSession 7]

theorem observeAll_isOk_iff_boundFirst :
    (sessionEvents [.tryReadCompatibility, .tryReadSession 7] 7 boundFirst).map (·.sequence) = [0, 1, 2] ∧
      ∀ result ∈ (SessionViewing.new smallExtent).observeAll
        (sessionEvents [.tryReadCompatibility, .tryReadSession 7] 7 boundFirst), result.isOk = true :=
  ⟨by decide, (observeAll_isOk_iff smallExtent [.tryReadCompatibility, .tryReadSession 7] boundFirst 7
    (by simp)).1.mpr (Or.inr rfl)⟩

/-- One event is published before the bind: the session judges the first event it reads, number one
without a gap flag, as a discontinuity. -/
theorem observeAll_publishedBeforeBind :
    (SessionViewing.new smallExtent).observeAll (sessionEvents [.publish (.keyPressed 0x1E .a)] 7
      [.publish (.keyPressed 0x30 .b), .tryReadSession 7]) = [.error (.unflaggedDiscontinuity 0 1)] := by
  rfl

end Pythos.Session
