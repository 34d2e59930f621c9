import Mathlib.Tactic.FinCases
import Pythos.Core.Authority

/-!
# Channels between two services

Both directions of a channel share a ring of two messages. The messages for an endpoint are received in
the order in which they were sent, but only the oldest message of the ring can be taken: an endpoint whose
message stands behind one for the other endpoint finds nothing (`delivers_iff`).
-/

namespace Pythos.Core

open Foundation Stateful

abbrev maxMessageSize : ℕ := 16
abbrev channelQueueDepth : ℕ := 2

inductive IpcError
  | invalidEndpoint
  | messageTooLarge
  | queueFull
  | queueEmpty
  | replyTimeout
  | payloadCorrupt
  deriving DecidableEq, Repr

structure IpcMessage where
  typeId : UInt16
  length : ℕ
  payload : Vector UInt8 maxMessageSize
  checksum : UInt32
  deriving DecidableEq

/-- `checksum` of the bytes of a message. -/
def ipcChecksum (bytes : List UInt8) : UInt32 := bytes.foldl (fun sum byte ↦ sum + byte.toUInt32) 0

def IpcMessage.verify (message : IpcMessage) : Except IpcError Unit :=
  if maxMessageSize < message.length then .error .payloadCorrupt
  else if ipcChecksum (message.payload.toList.take message.length) ≠ message.checksum then
    .error .payloadCorrupt
  else .ok ()

structure QueuedMessage where
  sender : ServiceId
  receiver : ServiceId
  message : IpcMessage
  deriving DecidableEq

structure IpcChannel where
  owner : ServiceId
  peer : ServiceId
  queue : Table QueuedMessage channelQueueDepth
  head : Fin channelQueueDepth
  length : ℕ
  deriving DecidableEq

namespace IpcChannel

def new (owner peer : ServiceId) : IpcChannel := ⟨owner, peer, Table.empty, 0, 0⟩

def hasEndpointPair (channel : IpcChannel) (sender receiver : ServiceId) : Prop :=
  (sender = channel.owner ∧ receiver = channel.peer) ∨ (sender = channel.peer ∧ receiver = channel.owner)

instance (channel : IpcChannel) (sender receiver : ServiceId) :
    Decidable (channel.hasEndpointPair sender receiver) := inferInstanceAs (Decidable (_ ∨ _))

/-- `(self.head + offset) % CHANNEL_QUEUE_DEPTH`. -/
def slot (channel : IpcChannel) (offset : ℕ) : Fin channelQueueDepth :=
  Fin.ofNat channelQueueDepth (channel.head + offset)

def send (sender receiver : ServiceId) (message : IpcMessage) : Stateful IpcError IpcChannel Unit := do
  let channel ← Stateful.read
  if ¬ channel.hasEndpointPair sender receiver then fail .invalidEndpoint
  else do
    ofExcept message.verify
    if channel.length = channelQueueDepth then fail .queueFull
    else Stateful.modify fun channel ↦ { channel with
      queue := channel.queue.put (channel.slot channel.length) (some ⟨sender, receiver, message⟩)
      length := channel.length + 1 }

-- the slot is emptied before the message is verified
def receive (receiver : ServiceId) : Stateful IpcError IpcChannel IpcMessage := do
  let channel ← Stateful.read
  if receiver ≠ channel.owner ∧ receiver ≠ channel.peer then fail .invalidEndpoint
  else match channel.queue[channel.head] with
    | none => fail .queueEmpty
    | some queued =>
      if queued.receiver ≠ receiver then fail .queueEmpty
      else do
        Stateful.modify fun channel ↦ { channel with
          queue := channel.queue.put channel.head none
          head := channel.slot 1
          length := channel.length - 1 }
        ofExcept queued.message.verify
        pure queued.message

/-! ### The ring is a queue -/

/-- The ring with some messages from a slot on. -/
def ring (head : Fin channelQueueDepth) : List QueuedMessage → Table QueuedMessage channelQueueDepth
  | [] => Table.empty
  | queued :: rest => (ring (head + 1) rest).put head (some queued)

theorem ring_append (head : Fin channelQueueDepth) {pending : List QueuedMessage}
    (h : pending.length < channelQueueDepth) (queued : QueuedMessage) :
    ring head (pending ++ [queued]) =
      (ring head pending).put (Fin.ofNat channelQueueDepth (head + pending.length)) (some queued) := by
  rcases pending with _ | ⟨first, _ | ⟨second, rest⟩⟩
  · fin_cases head <;> rfl
  · rw [List.length_singleton]
    fin_cases head <;> rfl
  · exact absurd h (Nat.not_lt.mpr (Nat.le_add_left 2 rest.length))

theorem ring_tail (head : Fin channelQueueDepth) (queued : QueuedMessage) {rest : List QueuedMessage}
    (h : rest.length < channelQueueDepth) :
    (ring head (queued :: rest)).put head none = ring (head + 1) rest := by
  rcases rest with _ | ⟨second, _ | ⟨third, rest⟩⟩
  · fin_cases head <;> rfl
  · fin_cases head <;> rfl
  · exact absurd h (Nat.not_lt.mpr (Nat.le_add_left 2 rest.length))

/-- The channel stores these messages for its endpoints, oldest first. -/
structure Holds (owner peer : ServiceId) (channel : IpcChannel) (pending : List QueuedMessage) : Prop where
  ring_eq : ∃ head, channel = ⟨owner, peer, ring head pending, head, pending.length⟩
  length_le : pending.length ≤ channelQueueDepth
  verified : ∀ queued ∈ pending, queued.message.verify = .ok ()
  addressed : ∀ queued ∈ pending, queued.receiver = owner ∨ queued.receiver = peer

section Holds

variable {owner peer : ServiceId} {channel : IpcChannel} {pending : List QueuedMessage}

/-- A message is appended, or refused. -/
theorem Holds.ensures_send (h : Holds owner peer channel pending) (sender receiver : ServiceId)
    (message : IpcMessage) :
    Ensures (send sender receiver message)
      (fun _ channel' ↦ Holds owner peer channel' (pending ++ [⟨sender, receiver, message⟩]))
      (fun error channel' ↦ channel' = channel ∧
        (error = .queueFull → pending.length = channelQueueDepth)) channel := by
  obtain ⟨head, rfl⟩ := h.ring_eq
  rw [send, ensures_bind, ensures_read, ensures_ite]
  refine ⟨fun _ ↦ ⟨rfl, nofun⟩, fun hpair ↦ ?_⟩
  rw [ensures_bind]
  refine ensures_ofExcept.mpr ⟨fun _ hverify ↦ ?_, fun error herror ↦ ⟨rfl, ?_⟩⟩
  · rw [ensures_ite]
    refine ⟨fun hfull ↦ ⟨rfl, fun _ ↦ hfull⟩, fun hroom ↦ ?_⟩
    have hlt : pending.length < channelQueueDepth := lt_of_le_of_ne h.length_le hroom
    refine ⟨⟨head, ?_⟩, ?_, ?_, ?_⟩
    · rw [ring_append head hlt, List.length_append]
      rfl
    · rwa [List.length_append]
    · exact List.forall_mem_append.mpr ⟨h.verified, List.forall_mem_singleton.mpr hverify⟩
    · refine List.forall_mem_append.mpr ⟨h.addressed, List.forall_mem_singleton.mpr ?_⟩
      exact (not_not.mp hpair).symm.imp And.right And.right
  · rintro rfl
    unfold IpcMessage.verify at herror
    split_ifs at herror <;> cases herror

/-- The oldest message is taken by its receiver. -/
theorem Holds.ensures_receive (h : Holds owner peer channel pending) (receiver : ServiceId) :
    Ensures (receive receiver)
      (fun message channel' ↦ ∃ queued rest, pending = queued :: rest ∧ queued.receiver = receiver ∧
        queued.message = message ∧ Holds owner peer channel' rest)
      (fun error channel' ↦ channel' = channel ∧
        ((error = .invalidEndpoint ∧ receiver ≠ owner ∧ receiver ≠ peer) ∨
          (error = .queueEmpty ∧ ∀ queued ∈ pending.head?, queued.receiver ≠ receiver))) channel := by
  obtain ⟨head, rfl⟩ := h.ring_eq
  rw [receive, ensures_bind, ensures_read, ensures_ite]
  refine ⟨fun hother ↦ ⟨rfl, Or.inl ⟨rfl, hother⟩⟩, fun _ ↦ ?_⟩
  cases pending with
  | nil =>
    rw [show (ring head [])[head] = none from Table.getElem_empty head]
    exact ⟨rfl, Or.inr ⟨rfl, nofun⟩⟩
  | cons queued rest =>
    rw [show (ring head (queued :: rest))[head] = some queued from Table.getElem_put_self ..]
    rw [ensures_ite]
    refine ⟨fun hne ↦ ⟨rfl, Or.inr ⟨rfl, ?_⟩⟩, fun heq ↦ ?_⟩
    · rintro _ ⟨⟩
      exact hne
    obtain ⟨hverified, hverified'⟩ := List.forall_mem_cons.mp h.verified
    rw [ensures_bind, ensures_modify, hverified]
    refine ⟨queued, rest, rfl, not_not.mp heq, rfl, ⟨head + 1, ?_⟩, (Nat.le_succ _).trans h.length_le,
      hverified', (List.forall_mem_cons.mp h.addressed).2⟩
    rw [← ring_tail head queued h.length_le]
    fin_cases head <;> rfl

end Holds

/-! ### Histories -/

inductive Call
  | send (sender receiver : ServiceId) (message : IpcMessage)
  | receive (receiver : ServiceId)

def perform (channel : IpcChannel) : Call → IpcChannel
  | .send sender receiver message => (send sender receiver message channel).2
  | .receive receiver => (receive receiver channel).2

/-- The message that a call sends to an endpoint. -/
def sends (endpoint : ServiceId) (channel : IpcChannel) : Call → List IpcMessage
  | .send sender receiver message =>
    if receiver = endpoint ∧ (send sender receiver message channel).1 = .ok () then [message] else []
  | .receive _ => []

/-- The message that an endpoint receives by a call. -/
def receives (endpoint : ServiceId) (channel : IpcChannel) : Call → List IpcMessage
  | .send .. => []
  | .receive receiver =>
    if receiver = endpoint then (receive receiver channel).1.toOption.toList else []

/-- What the calls of a history give, in order. -/
def collect (give : IpcChannel → Call → List IpcMessage) : IpcChannel → List Call → List IpcMessage
  | _, [] => []
  | channel, call :: rest => give channel call ++ collect give (channel.perform call) rest

variable (owner peer : ServiceId) (calls : List Call)

def after : IpcChannel := calls.foldl perform (new owner peer)

def sentTo (endpoint : ServiceId) : List IpcMessage :=
  collect (sends endpoint) (new owner peer) calls

def receivedBy (endpoint : ServiceId) : List IpcMessage :=
  collect (receives endpoint) (new owner peer) calls

/-- The messages that were sent to an endpoint and not received. -/
def pendingFor (endpoint : ServiceId) : List IpcMessage :=
  (sentTo owner peer calls endpoint).drop (receivedBy owner peer calls endpoint).length

/-- What a channel promises after some calls. -/
structure Delivers : Prop where
  in_order : ∀ endpoint, receivedBy owner peer calls endpoint <+: sentTo owner peer calls endpoint
  closed : ∀ third, third ≠ owner → third ≠ peer →
    (receive third (after owner peer calls)).1 = .error .invalidEndpoint ∧ ∀ receiver message,
      (send third receiver message (after owner peer calls)).1 = .error .invalidEndpoint
  full : ∀ sender receiver message,
    (send sender receiver message (after owner peer calls)).1 = .error .queueFull →
      (pendingFor owner peer calls owner).length + (pendingFor owner peer calls peer).length = 2
  empty : ∀ receiver, (receive receiver (after owner peer calls)).1 = .error .queueEmpty →
    pendingFor owner peer calls receiver = []

/-- The messages of a queue for an endpoint. -/
def addressedTo (endpoint : ServiceId) (pending : List QueuedMessage) : List IpcMessage :=
  (pending.filter fun queued ↦ queued.receiver = endpoint).map QueuedMessage.message

variable {owner peer calls} {channel : IpcChannel} {pending : List QueuedMessage}

/-- A call appends what it sends and removes what it gives. -/
theorem Holds.perform (h : Holds owner peer channel pending) (call : Call) :
    ∃ pending', Holds owner peer (channel.perform call) pending' ∧ ∀ endpoint,
      addressedTo endpoint pending ++ sends endpoint channel call =
        receives endpoint channel call ++ addressedTo endpoint pending' := by
  cases call with
  | send sender receiver message =>
    rcases (h.ensures_send sender receiver message).cases with ⟨_, hok, hsent⟩ | ⟨_, herror, hsame, -⟩
    · refine ⟨_, hsent, fun endpoint ↦ ?_⟩
      simp only [sends, receives, addressedTo, hok, and_true, List.nil_append, List.filter_append,
        List.map_append, List.filter_cons, List.filter_nil, decide_eq_true_eq]
      split_ifs <;> rfl
    · refine ⟨pending, by rwa [IpcChannel.perform, hsame], fun endpoint ↦ ?_⟩
      simp [sends, receives, herror]
  | receive receiver =>
    rcases (h.ensures_receive receiver).cases with
      ⟨_, hok, queued, rest, rfl, rfl, rfl, hrest⟩ | ⟨_, herror, hsame, -⟩
    · refine ⟨rest, hrest, fun endpoint ↦ ?_⟩
      simp only [sends, receives, addressedTo, hok, List.append_nil, List.filter_cons, decide_eq_true_eq]
      split_ifs <;> rfl
    · refine ⟨pending, by rwa [IpcChannel.perform, hsame], fun endpoint ↦ ?_⟩
      simp [sends, receives, herror, Except.toOption]

theorem Holds.run (h : Holds owner peer channel pending) (calls : List Call) :
    ∃ pending', Holds owner peer (calls.foldl IpcChannel.perform channel) pending' ∧ ∀ endpoint,
      addressedTo endpoint pending ++ collect (sends endpoint) channel calls =
        collect (receives endpoint) channel calls ++ addressedTo endpoint pending' := by
  induction calls generalizing channel pending with
  | nil => exact ⟨pending, h, fun _ ↦ List.append_nil _⟩
  | cons call rest ih =>
    obtain ⟨middle, hmiddle, hcall⟩ := h.perform call
    obtain ⟨last, hlast, hrest⟩ := ih hmiddle
    refine ⟨last, hlast, fun endpoint ↦ ?_⟩
    rw [collect, collect, ← List.append_assoc, hcall, List.append_assoc, hrest, List.append_assoc]

theorem Holds.length_addressedTo (h : Holds owner peer channel pending) (hne : owner ≠ peer) :
    (addressedTo owner pending).length + (addressedTo peer pending).length = pending.length := by
  rw [addressedTo, addressedTo, List.length_map, List.length_map,
    pending.length_eq_length_filter_add fun queued ↦ queued.receiver = owner]
  refine congrArg _ (congrArg _ (List.filter_congr fun queued hqueued ↦ ?_))
  rcases h.addressed queued hqueued with heq | heq
  · simp [heq, hne]
  · simp [heq, hne.symm]

/-- An endpoint with pending messages finds nothing exactly when the oldest message is not for it. -/
theorem Holds.receive_eq_empty (h : Holds owner peer channel pending) {receiver : ServiceId}
    (hend : receiver = owner ∨ receiver = peer) :
    (receive receiver channel).1 = .error .queueEmpty ↔
      ∀ queued ∈ pending.head?, queued.receiver ≠ receiver := by
  rcases (h.ensures_receive receiver).cases with
    ⟨_, hok, queued, rest, rfl, rfl, -⟩ | ⟨error, herror, -, ⟨rfl, hother⟩ | ⟨rfl, hhead⟩⟩
  · rw [hok]
    exact iff_of_false nofun fun hhead ↦ hhead queued rfl rfl
  · exact absurd hend (not_or.mpr hother)
  · exact iff_of_true herror hhead

theorem addressedTo_eq_nil {endpoint : ServiceId} :
    addressedTo endpoint pending = [] ↔ ∀ queued ∈ pending, queued.receiver ≠ endpoint := by
  simp [addressedTo, List.filter_eq_nil_iff]

/-- A channel keeps its promise exactly when at most one endpoint has messages to receive. -/
theorem delivers_iff (hne : owner ≠ peer) (calls : List Call) :
    Delivers owner peer calls ↔
      pendingFor owner peer calls owner = [] ∨ pendingFor owner peer calls peer = [] := by
  have hnew : Holds owner peer (new owner peer) [] := ⟨⟨0, rfl⟩, Nat.zero_le _, nofun, nofun⟩
  obtain ⟨pending, h, hlog⟩ := hnew.run calls
  have hpending (endpoint : ServiceId) :
      pendingFor owner peer calls endpoint = addressedTo endpoint pending := by
    have hsent : sentTo owner peer calls endpoint = _ := hlog endpoint
    rw [pendingFor, hsent]
    exact List.drop_left
  rw [hpending, hpending, addressedTo_eq_nil, addressedTo_eq_nil]
  constructor
  · intro hdelivers
    by_contra hboth
    -- the oldest message would be for each endpoint that waits for one
    have holdest (endpoint : ServiceId) (hend : endpoint = owner ∨ endpoint = peer)
        (hwaits : ¬ ∀ queued ∈ pending, queued.receiver ≠ endpoint) :
        ∃ queued ∈ pending.head?, queued.receiver = endpoint := by
      by_contra hhead
      push Not at hhead
      rw [← addressedTo_eq_nil, ← hpending] at hwaits
      exact hwaits (hdelivers.empty endpoint ((h.receive_eq_empty hend).mpr hhead))
    obtain ⟨howner, hpeer⟩ := not_or.mp hboth
    obtain ⟨first, hfirst, hfor⟩ := holdest owner (Or.inl rfl) howner
    obtain ⟨second, hsecond, hfor'⟩ := holdest peer (Or.inr rfl) hpeer
    rw [← hfor, ← hfor', Option.mem_unique hfirst hsecond] at hne
    exact hne rfl
  · intro hone
    refine ⟨fun endpoint ↦ ⟨_, (hlog endpoint).symm⟩, fun third howner hpeer ↦ ?_, fun _ _ _ hfull ↦ ?_,
      fun receiver hempty ↦ ?_⟩
    · obtain ⟨head, hafter⟩ : ∃ head, after owner peer calls = _ := h.ring_eq
      rw [hafter]
      constructor
      · show (ite (third ≠ owner ∧ third ≠ peer) _ (_ : Stateful IpcError IpcChannel IpcMessage) _).1 = _
        rw [if_pos ⟨howner, hpeer⟩]
        rfl
      · intro receiver message
        show (ite (¬ hasEndpointPair _ third receiver) _ (_ : Stateful IpcError IpcChannel Unit) _).1 = _
        rw [if_pos fun hpair ↦ hpair.elim (howner ·.1) (hpeer ·.1)]
        rfl
    · rw [hpending, hpending, h.length_addressedTo hne]
      exact ((h.ensures_send _ _ _).of_error hfull).2 rfl
    · rw [hpending, addressedTo_eq_nil]
      rintro queued hqueued rfl
      have hhead := (h.receive_eq_empty (h.addressed queued hqueued)).mp hempty
      cases pending with
      | nil => cases hqueued
      | cons first rest =>
        refine hhead first rfl ?_
        have hfirst := h.addressed first List.mem_cons_self
        have hsecond := h.addressed queued hqueued
        rcases hone with howner | hpeer
        · rw [hfirst.resolve_left (howner first List.mem_cons_self),
            hsecond.resolve_left (howner queued hqueued)]
        · rw [hfirst.resolve_right (hpeer first List.mem_cons_self),
            hsecond.resolve_right (hpeer queued hqueued)]

/-- A message without a payload. -/
def emptyMessage (typeId : UInt16) : IpcMessage := ⟨typeId, 0, Vector.replicate 16 0, 0⟩

theorem delivers_oneDirection :
    Delivers ⟨1⟩ ⟨2⟩ [.send ⟨1⟩ ⟨2⟩ (emptyMessage 1), .send ⟨1⟩ ⟨2⟩ (emptyMessage 2), .receive ⟨2⟩] :=
  (delivers_iff (by decide) _).mpr (by decide +kernel)

/-- Each endpoint sends to the other: the owner finds nothing, although its message is pending. -/
theorem crossed_messages_hidden :
    (receive ⟨1⟩ (after ⟨1⟩ ⟨2⟩ [.send ⟨1⟩ ⟨2⟩ (emptyMessage 1), .send ⟨2⟩ ⟨1⟩ (emptyMessage 2)])).1 =
        .error .queueEmpty ∧
      pendingFor ⟨1⟩ ⟨2⟩ [.send ⟨1⟩ ⟨2⟩ (emptyMessage 1), .send ⟨2⟩ ⟨1⟩ (emptyMessage 2)] ⟨1⟩ =
        [emptyMessage 2] := by
  decide +kernel

end IpcChannel

end Pythos.Core
