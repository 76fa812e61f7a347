import Fitz.Model.Codec
import Mathlib.Data.List.AList
import Mathlib.Data.Finset.Insert
import Mathlib.Data.Finset.Erase

/-!
# The session loop

The locals and handlers of `run_io` (`src/async_connection.rs`): the maps of
outstanding requests, what a command, a cancellation, an inbound frame and the
end of the transport do to them, and the atomics they read. A handler returns a
`Turn`: the locals after one pass of the `select!`, what it sent to callers,
wrote and published, and, if the session ended, how.

A `oneshot` sender is a `Ticket`; `Effect.release` is a sender dropped without a
value, `Effect.write` a frame handed to the transport. What the transport answers
to a write (`written`) is an input of the handler.
-/

namespace Fitz

open BigEndian

/-- One call into the connection, and the channel its answer comes back on. -/
abbrev Ticket := ℕ

abbrev HashMap (α β : Type) := AList (fun _ : α => β)

/-! ## Atomics shared by the connection and its supervisor -/

structure Shared where
  nextRequestId : UInt64
  capabilities : UInt64
  maxMessageBytes : UInt64
  maxInFlight : UInt64
  generation : UInt64
  deriving DecidableEq

def u64Max : UInt64 := 0xffffffffffffffff

/-- `allocate_request_id`: the value returned and the sequence left behind. The
compare-exchange loop takes effect at its successful exchange. -/
def allocateRequestId (sequence : UInt64) : Result UInt64 × UInt64 :=
  if sequence = 0 then
    (.error (.protocol "correlation identifiers exhausted; reconnect before another request"), 0)
  else
    (.ok sequence, if sequence = u64Max then 0 else sequence + 1)

def sendCorrelationId (messageType : UInt16) (payload : Bytes) (requestId : UInt64) : UInt64 :=
  if ¬(300 ≤ messageType ∧ messageType ≤ 305) ∨ messageType = 303 ∨ messageType = 305 ∨
      (messageType = 304 ∧ payload.head? ≠ some 1) then 0
  else requestId

def supervisorCorrelationEnabled (sh : Shared) : Bool := sh.capabilities >>> 32 ≥ 2

/-! ## HELLO -/

/-- The core of a HELLO, and whether bytes follow it. -/
structure Hello where
  version : UInt16
  bits : UInt32
  maxMessageBytes : UInt32
  maxInFlight : UInt32
  sessionId : UInt64
  complete : Bool

def decodeHello (payload : Bytes) : Result Hello :=
  Decode.on (do
    let version ← getU16
    let bits ← getU32
    let maxMessageBytes ← getU32
    let maxInFlight ← getU32
    let sessionId ← getU64
    return ⟨version, bits, maxMessageBytes, maxInFlight, sessionId, ← isEmpty⟩) payload

/-- The limits and version `apply_server_hello` accepts. -/
def Hello.valid (h : Hello) : Bool :=
  h.version == 3 && h.bits == 0 && h.complete && h.maxMessageBytes ≥ 15 && h.maxInFlight != 0

def applyServerHello (sh : Shared) (payload : Bytes) (capabilityMask : UInt16) : Result Shared := do
  if sh.capabilities ≠ 0 then
    throw (.protocol "repeated HELLO cannot renegotiate an established session")
  let h ← decodeHello payload
  if !h.valid then throw (.protocol "broker advertised invalid Wire-3 limits")
  return { sh with
    capabilities := (capabilityMask.toUInt64 <<< 48) ||| (h.version.toUInt64 <<< 32)
    maxMessageBytes := UInt64.ofNat (min h.maxMessageBytes.toNat maxMessageSize)
    maxInFlight := min h.maxInFlight.toUInt64 sh.maxInFlight }

/-! ## Frames in and out -/

def encodeOutbound (sh : Shared) (messageType : UInt16) (flags : UInt8) (correlationId : UInt64)
    (payload : Bytes) : Result Bytes := do
  let frame ← tryEncodeFrame messageType flags correlationId payload
  if frame.length > sh.maxMessageBytes.toNat then throw (.frameTooLarge frame.length)
  return frame

structure IncomingRecord where
  messageType : UInt16
  payload : Bytes
  correlationId : UInt64
  responseFinal : Bool
  deriving DecidableEq

/-- The body of a GOAWAY: code, grace period and reason, nothing after them. -/
def decodeGoaway (payload : Bytes) : Result (UInt16 × UInt32 × String) :=
  Decode.on (do
    let code ← getU16
    let graceMs ← getU32
    let reason ← getString
    if !(← isEmpty) then throw (.protocol "GOAWAY has trailing bytes")
    return (code, graceMs, reason)) payload

/-- `decode_incoming`. Only a HELLO may change the atomics. -/
def decodeIncoming (sh : Shared) (frame : Bytes) : Result (Shared × List IncomingRecord) := do
  if frame.length > sh.maxMessageBytes.toNat then throw (.frameTooLarge frame.length)
  let header ← decodeFrameHeader frame
  let (payload, capabilityMask) ←
    Wire3.decode (frame.drop header.payloadStart) header.messageType header.flags
  if header.messageType = MessageType.hello then
    if header.flags ≠ extensionsPresent ∨ header.correlationId ≠ 0 then
      throw (.protocol "HELLO has flags or correlation")
    return (← applyServerHello sh payload capabilityMask, [])
  else if header.messageType = MessageType.goaway then
    if header.flags &&& ~~~extensionsPresent ≠ 0 ∨ header.correlationId ≠ 0 then
      throw (.protocol "GOAWAY has flags or correlation")
    let _ ← decodeGoaway payload
    return (sh, [])
  else if header.messageType = MessageType.connectRejected then
    throw (.authentication "broker rejected CONNECT after authentication")
  else
    return (sh, [⟨header.messageType, payload, header.correlationId,
      header.flags &&& responseFinal != 0⟩])

/-! ## Outstanding requests -/

structure PendingRequest where
  id : UInt64
  response : Option Ticket
  deriving DecidableEq

structure QueuedRequest where
  id : UInt64
  payload : Bytes
  response : Option Ticket
  deriving DecidableEq

inductive Command
  | connect (response : Ticket)
  | request (id generation : UInt64) (messageType : UInt16) (flags : UInt8) (payload : Bytes)
      (response : Ticket)
  | send (id generation : UInt64) (messageType : UInt16) (payload : Bytes) (response : Ticket)
  | close (response : Ticket)
  deriving DecidableEq

/-- The call a command belongs to. -/
def Command.ticket? : Command → Option Ticket
  | .request _ _ _ _ _ t | .send _ _ _ _ t => some t
  | _ => none

/-- The locals of the session loop. -/
structure Loop where
  sessionGeneration : UInt64
  pending : HashMap UInt16 (List PendingRequest)
  correlated : HashMap UInt64 PendingRequest
  queued : HashMap UInt16 (List QueuedRequest)
  canceled : Finset UInt64

def Loop.new (sessionGeneration : UInt64) : Loop := ⟨sessionGeneration, ∅, ∅, ∅, ∅⟩

inductive SessionResult
  | disconnected
  | closed
  deriving DecidableEq

inductive Effect
  | respond (t : Ticket) (r : Result Bytes)
  | release (t : Ticket)
  | acknowledge (t : Ticket) (r : Result Unit)
  | write (frame : Bytes)
  | publish (messageType : UInt16) (payload : Bytes)

/-- One pass of the `select!` loop. -/
structure Turn where
  loop : Loop
  effects : List Effect
  result : Option SessionResult

namespace Loop

/-- The senders of slots that still have one. -/
def waiters (l : Loop) : List Ticket :=
  (l.pending.entries.flatMap fun e => e.2.filterMap (·.response)) ++
    (l.correlated.entries.filterMap fun e => e.2.response) ++
    (l.queued.entries.flatMap fun e => e.2.filterMap (·.response))

/-- `fail_all`: every slot that still has a sender gets `ConnectionClosed`, and
the maps are emptied. -/
def failAll (l : Loop) : Loop × List Effect :=
  ({ l with pending := ∅, correlated := ∅, queued := ∅ },
    l.waiters.map fun t => .respond t (.error .connectionClosed))

/-- The loop returns: `fail_all` after the effects so far. -/
def finish (l : Loop) (effects : List Effect) (result : SessionResult) : Turn :=
  ⟨l.failAll.1, effects ++ l.failAll.2, some result⟩

/-- The loop goes round. -/
def next (l : Loop) (effects : List Effect) : Turn := ⟨l, effects, none⟩

/-- What happens to a sender that is dropped unsent. -/
def releaseOpt : Option Ticket → List Effect
  | some t => [.release t]
  | none => []

/-- A refusal goes to the caller if the request has one. -/
def refuse (response : Option Ticket) (error : FitzError) : List Effect :=
  match response with
  | some t => [.respond t (.error error)]
  | none => []

/-- The correlated half of `Command::Request`: in-flight check, encoding,
insertion, write. -/
def requestCorrelated (sh : Shared) (l : Loop) (id : UInt64) (messageType : UInt16) (flags : UInt8)
    (payload : Bytes) (response : Option Ticket) (written : Result Unit) : Turn :=
  if l.correlated.entries.length ≥ sh.maxInFlight.toNat then
    l.next (refuse response (.backpressure "broker max in-flight limit reached"))
  else
    match encodeOutbound sh messageType flags id payload with
    | .error error => l.next (refuse response error)
    | .ok frame =>
      -- the slot that was there under this id, if any, is dropped with its sender
      let displaced := releaseOpt ((l.correlated.lookup id).bind (·.response))
      let l' := { l with correlated := l.correlated.insert id ⟨id, response⟩ }
      match written with
      | .ok () => l'.next (displaced ++ [.write frame])
      | .error _ => l'.finish (displaced ++ [.write frame]) .disconnected

/-- The half of `Command::Request` for a session without correlation: one
request of a type at a time, the others queued. -/
def requestPending (l : Loop) (id : UInt64) (messageType : UInt16) (payload : Bytes)
    (response : Option Ticket) (written : Result Unit) : Turn :=
  if ((l.pending.lookup messageType).getD []).isEmpty then
    let l' := { l with
      pending := l.pending.insert messageType
        ((l.pending.lookup messageType).getD [] ++ [PendingRequest.mk id response]) }
    match tryEncodeMessageFrame messageType payload, written with
    | .ok frame, .ok () => l'.next [.write frame]
    | .ok frame, .error _ => l'.finish [.write frame] .disconnected
    | .error _, _ => l'.finish [] .disconnected
  else
    { l with
      queued := l.queued.insert messageType
        ((l.queued.lookup messageType).getD [] ++ [QueuedRequest.mk id payload response]) }.next []

def onRequest (sh : Shared) (l : Loop) (id generation : UInt64) (messageType : UInt16)
    (flags : UInt8) (payload : Bytes) (response : Ticket) (written : Result Unit) : Turn :=
  if generation ≠ l.sessionGeneration then
    l.next [.respond response (.error .connectionClosed)]
  else
    let response' := if id ∈ l.canceled then none else some response
    let dropped := if id ∈ l.canceled then [Effect.release response] else []
    let l' := { l with canceled := l.canceled.erase id }
    let turn :=
      if supervisorCorrelationEnabled sh then
        l'.requestCorrelated sh id messageType flags payload response' written
      else
        l'.requestPending id messageType payload response' written
    { turn with effects := dropped ++ turn.effects }

def onSend (sh : Shared) (l : Loop) (id generation : UInt64) (messageType : UInt16)
    (payload : Bytes) (response : Ticket) (written : Result Unit) : Turn :=
  if generation ≠ l.sessionGeneration then
    l.next [.acknowledge response (.error .connectionClosed)]
  else
    match encodeOutbound sh messageType 0 (sendCorrelationId messageType payload id) payload with
    | .error error => l.next [.acknowledge response (.error error)]
    | .ok frame =>
      match written with
      | .ok () => l.next [.write frame, .acknowledge response (.ok ())]
      | .error error => l.next [.write frame, .acknowledge response (.error error)]

/-- The command branch of `run_io`. -/
def onCommand (sh : Shared) (l : Loop) (command : Command) (written : Result Unit) : Turn :=
  match command with
  | .request id generation messageType flags payload response =>
    l.onRequest sh id generation messageType flags payload response written
  | .send id generation messageType payload response =>
    l.onSend sh id generation messageType payload response written
  | .connect response => l.next [.acknowledge response (.ok ())]
  | .close response => l.finish [.acknowledge response (.ok ())] .closed

/-- The command branch when every sender is gone. -/
def onHangup (l : Loop) : Turn := l.finish [] .closed

/-! ## Cancellations -/

/-- The first slot with this id loses its sender. -/
def clearSlot (id : UInt64) : List PendingRequest → List PendingRequest
  | [] => []
  | slot :: slots =>
    if slot.id = id then { slot with response := none } :: slots else slot :: clearSlot id slots

/-- `cancel_pending`: the queue holding a slot with this id, and its sender. -/
def cancelPending (l : Loop) (id : UInt64) : Option (Loop × List Effect) :=
  (l.pending.entries.find? fun e => e.2.any (·.id == id)).map fun e =>
    ({ l with pending := l.pending.insert e.1 (clearSlot id e.2) },
      releaseOpt ((e.2.find? (·.id == id)).bind (·.response)))

/-- The queued request with this id leaves its queue. -/
def cancelQueued (l : Loop) (id : UInt64) : Option (Loop × List Effect) :=
  (l.queued.entries.find? fun e => e.2.any (·.id == id)).map fun e =>
    ({ l with queued := l.queued.insert e.1 (e.2.eraseP (·.id == id)) },
      releaseOpt ((e.2.find? (·.id == id)).bind (·.response)))

/-- `cancel_all_pending`; `none` is its `false`. -/
def cancelAllPending (l : Loop) (id : UInt64) : Option (Loop × List Effect) :=
  match l.correlated.lookup id with
  | some slot =>
    some ({ l with correlated := l.correlated.insert id { slot with response := none } },
      releaseOpt slot.response)
  | none => (l.cancelPending id).orElse fun _ => l.cancelQueued id

/-- The cancellation branch of `run_io`. -/
def onCancel (l : Loop) (id : UInt64) : Turn :=
  match l.cancelAllPending id with
  | some (l', effects) => l'.next effects
  | none => { l with canceled := insert id l.canceled }.next []

/-! ## Inbound frames -/

/-- `dispatch_correlated`. -/
def dispatchCorrelated (l : Loop) (correlationId : UInt64) (payload : Bytes)
    (responseFinal : Bool) : Result (Loop × List Effect) :=
  match l.correlated.lookup correlationId with
  | none => .error (.protocol ("unexpected response correlation " ++ toString correlationId))
  | some slot =>
    if responseFinal then
      .ok ({ l with correlated := l.correlated.erase correlationId },
        match slot.response with
        | some t => [.respond t (.ok payload)]
        | none => [])
    else .ok (l, [])

/-- `dispatch`: the oldest pending request of the type is answered, or the
payload is a notification. -/
def dispatch (l : Loop) (messageType : UInt16) (payload : Bytes) : Loop × List Effect × Bool :=
  match (l.pending.lookup messageType).getD [] with
  | slot :: slots =>
    ({ l with pending := l.pending.insert messageType slots },
      match slot.response with
      | some t => [.respond t (.ok payload)]
      | none => [],
      true)
  | [] => (l, [.publish messageType payload], false)

/-- After a completed request, the next queued one of the type is written. -/
def promote (l : Loop) (messageType : UInt16) (effects : List Effect) (written : Result Unit) : Turn :=
  match (l.queued.lookup messageType).getD [] with
  | [] => l.next effects
  | q :: qs =>
    let l' := { l with
      queued := l.queued.insert messageType qs
      pending := l.pending.insert messageType
        ((l.pending.lookup messageType).getD [] ++ [PendingRequest.mk q.id q.response]) }
    match tryEncodeMessageFrame messageType q.payload, written with
    | .ok frame, .ok () => l'.next (effects ++ [Effect.write frame])
    | .ok frame, .error _ => l'.finish (effects ++ [Effect.write frame]) .disconnected
    | .error _, _ => l'.finish effects .disconnected

/-- One record of an inbound frame. -/
def onRecord (l : Loop) (record : IncomingRecord) (written : Result Unit) : Turn :=
  if record.correlationId ≠ 0 then
    match l.dispatchCorrelated record.correlationId record.payload record.responseFinal with
    | .ok (l', effects) => l'.next effects
    | .error _ => l.finish [] .disconnected
  else
    let (l', effects, completed) := l.dispatch record.messageType record.payload
    if completed then l'.promote record.messageType effects written else l'.next effects

/-- The records of one frame, until the session ends. -/
def onRecords (l : Loop) (written : Result Unit) : List IncomingRecord → Turn
  | [] => l.next []
  | record :: records =>
    let turn := l.onRecord record written
    match turn.result with
    | some _ => turn
    | none =>
      let rest := turn.loop.onRecords written records
      { rest with effects := turn.effects ++ rest.effects }

/-- The read branch of `run_io`, on a whole frame. -/
def onFrame (sh : Shared) (l : Loop) (frame : Bytes) (written : Result Unit) : Shared × Turn :=
  match decodeIncoming sh frame with
  | .error _ => (sh, l.finish [] .disconnected)
  | .ok (sh', records) => (sh', l.onRecords written records)

/-- The read branch of `run_io` when the transport failed. -/
def onReadError (l : Loop) : Turn := l.finish [] .disconnected

end Loop

end Fitz
