import Fitz.Model.Responding
import Fitz.Lib.Machine

/-!
# The caller's end of an RPC

An `RpcResponseStream` (`src/client_domains/rpc.rs`) with the tasks that share its
`cancellation_sent` flag: the one of its deadline, the one of the request it was called
from, and one that its own end spawns. A step of a party goes to its next access to
something shared, or to the end of what it awaits.

`supports_cancellation` is always set and `connection` always there, so the branches
without them are left out. The histories `polled`, `attempts` and `ended` are read by no
step.
-/

namespace Fitz

/-! ## Frames -/

structure RpcResponseFrame where
  body : Bytes
  sequence : UInt64
  deriving DecidableEq

def decodeRpcResponseFrame : Decode (UInt64 × Bool × Bytes) := do
  let sequence ← getU64
  let flags ← getU8
  if flags ≠ 0 ∧ flags ≠ 1 then
    throw (.protocol ("RPC response contains unsupported flags " ++ toString flags))
  let body ← getBytes
  if !(← isEmpty) then throw (.protocol "RPC response frame has trailing bytes")
  return (sequence, flags == 1, body)

def decodeTerminalError (body : Bytes) : Option FitzError :=
  if body.head? ≠ some 1 then none
  else
    match decodeDomainError.on (body.drop 1) with
    | .ok (.domainWire code cls effect message) =>
      if 6001 ≤ code ∧ code ≤ 6010 ∨ 6050 ≤ code ∧ code ≤ 6055 then
        some (.domainWire code cls effect message)
      else none
    | _ => none

/-- What a `poll_next` returns, unless it is pending. -/
inductive ResponsePolled
  | frame (frame : RpcResponseFrame)
  /-- the last frame of the call, or the error in it -/
  | terminal (result : Result RpcResponseFrame)
  /-- a frame that is malformed -/
  | failed (error : FitzError)
  | connectionClosed
  | timedOut
  /-- the receiver lagged -/
  | overflow
  /-- `None` -/
  | ended
  deriving DecidableEq

/-- A pass of the loop of `poll_next`, with a payload; nothing if it goes on. -/
def receiveResponse (correlationId payload : Bytes) : Option ResponsePolled :=
  match Decode.on (do
    let id ← getSlice 16
    if id ≠ correlationId then return none
    return some (← decodeRpcResponseFrame)) payload with
  | .error error => some (.failed error)
  | .ok none => none
  | .ok (some (sequence, isEnd, body)) =>
    if isEnd then
      match decodeTerminalError body with
      | some error => some (.terminal (.error error))
      | none => some (.terminal (.ok ⟨body, sequence⟩))
    else some (.frame ⟨body, sequence⟩)

inductive RpcCancellationOutcome
  | notRequested
  | requestNotSent
  | unsupported
  | queuedRemoved
  | forwarded
  | workerUnsupported
  | alreadyTerminal
  | unknownOrUnauthorized
  | forwardingFailed
  | unconfirmed
  | connectionClosed
  deriving DecidableEq

def decodeCancellationResult (payload correlationId : Bytes) : Option RpcCancellationOutcome :=
  if payload.length ≠ 18 ∨ payload.head? ≠ some 4 ∨ (payload.take 17).drop 1 ≠ correlationId then none
  else
    match payload.getD 17 0 with
    | 1 => some .queuedRemoved
    | 2 => some .forwarded
    | 3 => some .workerUnsupported
    | 4 => some .alreadyTerminal
    | 5 => some .unknownOrUnauthorized
    | 6 => some .forwardingFailed
    | _ => none

/-! ## The parties -/

/-- A task that `call_with_timeout` or `call_from_request` spawns. -/
inductive HelperStage
  | absent
  /-- in its `select!` -/
  | waiting
  /-- about to swap the flag -/
  | swapping
  /-- about to call `send` -/
  | sending
  | done
  deriving DecidableEq

/-- How a stream ends without its terminal response. -/
inductive EndKind
  | timedOut
  | parentCanceled
  | lagged
  | canceled
  | dropped
  deriving DecidableEq

structure CallEnd where
  kind : EndKind
  /-- a Tokio runtime was there to spawn on, if that was asked for -/
  runtime : Bool
  deriving DecidableEq

/-- Where the owner of the stream stands. -/
inductive OwnerStage
  | idle
  /-- `poll_next` is about to poll `parent_cancellation` -/
  | pollParent
  | pollTimeout
  /-- and its receiver -/
  | receiving
  /-- about to cancel the helper tasks and return -/
  | leaving (polled : ResponsePolled)
  /-- in `abandon` or `drop`, about to cancel the helper tasks -/
  | abandoning (kind : EndKind) (reason : UInt8)
  /-- in `spawn_cancellation_once` -/
  | spawning (kind : EndKind) (reason : UInt8)
  /-- `cancel` is about to swap the flag -/
  | swapping
  /-- and to call `send` -/
  | sending
  | awaitingSend
  /-- and awaits the result -/
  | awaitingResult
  /-- about to cancel the helper tasks and return the outcome -/
  | settling (outcome : RpcCancellationOutcome)
  /-- `drop` of a stream that is over is about to cancel the helper tasks -/
  | disposing
  | gone
  deriving DecidableEq

/-- A message that was given to `AsyncConnection::send`, and whether the connection took
its command. -/
structure CancelAttempt where
  messageType : UInt16
  payload : Bytes
  taken : Result Unit
  deriving DecidableEq

structure RpcResponseStream where
  correlationId : Bytes
  finished : Bool
  /-- `timeout` and `parent_cancellation` are there -/
  timeout : Bool
  parentCancellation : Bool
  cancellationSent : Bool
  cancellationOutcome : Option RpcCancellationOutcome
  /-- `cancellation_shutdown` is cancelled -/
  shutdown : Bool
  /-- the deadline is past, the parent cancelled, the generation another -/
  expired : Bool
  parentCanceled : Bool
  generationChanged : Bool
  owner : OwnerStage
  deadlineTask : HelperStage
  parentTask : HelperStage
  /-- what a spawned task is about to send -/
  spawned : Option UInt8
  polled : List ResponsePolled
  attempts : List CancelAttempt
  ended : Option CallEnd

/-- What `lifecycle_receiver.recv()` or the end of the wait gives `cancel`. -/
inductive CancelWait
  | received (payload : Bytes)
  | lagged
  /-- the channel is closed, or five seconds are over -/
  | elapsed
  | connectionClosed
  deriving DecidableEq

/-- What the receiver of RPC_RESPONSE gives `poll_next`. -/
inductive ResponseInput
  | pending
  | payload (payload : Bytes)
  | lagged
  | closed
  deriving DecidableEq

inductive CallEvent
  | expire
  | cancelParent
  | changeGeneration
  /-- the deadline task goes on; in its `select!`, to the deadline or to the shutdown -/
  | deadlineTask (toCancel : Bool) (taken : Result Unit)
  | parentTask (toCancel : Bool) (taken : Result Unit)
  /-- the task that an end spawned runs to its `send` -/
  | spawnedTask (taken : Result Unit)
  | poll
  | receive (input : ResponseInput)
  | cancel
  /-- `send` returns to `cancel` -/
  | sent (result : Result Unit)
  | await (result : CancelWait)
  /-- the future of `cancel` is dropped -/
  | abort
  | drop
  /-- the owner goes on, with or without a runtime -/
  | advance (runtime : Bool) (taken : Result Unit)
  deriving DecidableEq

namespace RpcResponseStream

/-- What `call_with_timeout` or `call_from_request` returns. -/
def start (correlationId : Bytes) (timed parented : Bool) : RpcResponseStream where
  correlationId := correlationId
  finished := false
  timeout := timed
  parentCancellation := parented
  cancellationSent := false
  cancellationOutcome := none
  shutdown := false
  expired := false
  parentCanceled := false
  generationChanged := false
  owner := .idle
  deadlineTask := if timed then .waiting else .absent
  parentTask := if parented then .waiting else .absent
  spawned := none
  polled := []
  attempts := []
  ended := none

def goto (s : RpcResponseStream) (owner : OwnerStage) : RpcResponseStream := { s with owner := owner }

/-- `poll_next` returns. -/
def yield (s : RpcResponseStream) (polled : ResponsePolled) : RpcResponseStream :=
  { s with owner := .idle, polled := s.polled ++ [polled] }

/-- What the first poll of `send_cancellation_message` gives to `send`. -/
def cancelMessage (s : RpcResponseStream) (reason : UInt8) (taken : Result Unit) : CancelAttempt :=
  ⟨MessageType.rpcCancel, putU8 1 ++ s.correlationId ++ putU8 reason, taken⟩

/-- The next stage of a helper task, and the flag then. -/
def helper (s : RpcResponseStream) (stage : HelperStage) (due toCancel : Bool) :
    HelperStage × Bool :=
  match stage with
  | .waiting =>
    if toCancel ∧ due then (.swapping, s.cancellationSent)
    else if !toCancel ∧ s.shutdown then (.done, s.cancellationSent)
    else (.waiting, s.cancellationSent)
  | .swapping => (if s.cancellationSent then .done else .sending, true)
  | .sending => (.done, s.cancellationSent)
  | .absent | .done => (stage, s.cancellationSent)

def deadlineStep (s : RpcResponseStream) (toCancel : Bool) (taken : Result Unit) :
    RpcResponseStream :=
  { s with
    deadlineTask := (s.helper s.deadlineTask s.expired toCancel).1
    cancellationSent := (s.helper s.deadlineTask s.expired toCancel).2
    attempts :=
      if s.deadlineTask = .sending then s.attempts ++ [s.cancelMessage 2 taken] else s.attempts }

def parentStep (s : RpcResponseStream) (toCancel : Bool) (taken : Result Unit) :
    RpcResponseStream :=
  { s with
    parentTask := (s.helper s.parentTask s.parentCanceled toCancel).1
    cancellationSent := (s.helper s.parentTask s.parentCanceled toCancel).2
    attempts :=
      if s.parentTask = .sending then s.attempts ++ [s.cancelMessage 1 taken] else s.attempts }

def spawnedStep (s : RpcResponseStream) (taken : Result Unit) : RpcResponseStream :=
  match s.spawned with
  | some reason => { s with spawned := none, attempts := s.attempts ++ [s.cancelMessage reason taken] }
  | none => s

/-- `abandon`, up to its first shared access. -/
def abandon (s : RpcResponseStream) (kind : EndKind) (reason : UInt8) : RpcResponseStream :=
  { s with
    finished := true
    timeout := false
    parentCancellation := false
    owner := .abandoning kind reason }

/-- `poll_next`, up to `parent_cancellation`. -/
def poll (s : RpcResponseStream) : RpcResponseStream :=
  if s.finished then s.yield .ended
  else if s.generationChanged then { s with finished := true, owner := .leaving .connectionClosed }
  else s.goto .pollParent

/-- The loop of `poll_next`. -/
def receive (s : RpcResponseStream) : ResponseInput → RpcResponseStream
  | .pending => s.goto .idle
  | .lagged => s.abandon .lagged 1
  | .closed => s.yield .ended
  | .payload payload =>
    match receiveResponse s.correlationId payload with
    | none => s
    | some (.terminal result) =>
      { s with
        finished := true
        timeout := false
        parentCancellation := false
        owner := .leaving (.terminal result) }
    | some polled => s.yield polled

/-- `cancel`, up to its swap. -/
def cancel (s : RpcResponseStream) : RpcResponseStream :=
  if s.cancellationOutcome.isSome then s
  else if s.finished ∧ !s.parentCancellation ∧ !s.cancellationSent then s
  else s.goto .swapping

/-- `cancel` is over. -/
def settle (s : RpcResponseStream) (outcome : RpcCancellationOutcome) : RpcResponseStream :=
  { s with finished := true, timeout := false, owner := .settling outcome }

/-- The outcome of a `cancel` whose `send` failed. -/
def sendFailed : FitzError → RpcCancellationOutcome
  | .closed | .connectionClosed => .connectionClosed
  | _ => .requestNotSent

def awaited (s : RpcResponseStream) : CancelWait → RpcResponseStream
  | .received payload =>
    match decodeCancellationResult payload s.correlationId with
    | some outcome => s.settle outcome
    | none => s
  | .lagged => s
  | .elapsed => s.settle .unconfirmed
  | .connectionClosed => if s.generationChanged then s.settle .connectionClosed else s

/-- The stream has yielded its terminal response or `ConnectionClosed`. -/
def excused (s : RpcResponseStream) : Bool :=
  s.polled.any fun polled =>
    match polled with
    | .terminal _ | .connectionClosed => true
    | _ => false

/-- The history of how the stream ended, if this is where it does. -/
def finish (s : RpcResponseStream) (kind : EndKind) (runtime : Bool) : RpcResponseStream :=
  if s.ended = none ∧ !s.excused then { s with ended := some ⟨kind, runtime⟩ } else s

/-- `spawn_cancellation_once`. -/
def spawnOnce (s : RpcResponseStream) (reason : UInt8) (runtime : Bool) : RpcResponseStream :=
  if !runtime ∨ s.cancellationSent then s
  else { s with cancellationSent := true, spawned := some reason }

/-- The end of `abandon` or `drop`. -/
def abandoned (s : RpcResponseStream) : EndKind → RpcResponseStream
  | .timedOut => s.yield .timedOut
  | .parentCanceled => s.yield .ended
  | .lagged => s.yield .overflow
  | .canceled => s.goto .idle
  | .dropped => s.goto .gone

def advance (s : RpcResponseStream) (runtime : Bool) (taken : Result Unit) : RpcResponseStream :=
  match s.owner with
  | .pollParent =>
    if s.parentCancellation ∧ s.parentCanceled then s.abandon .parentCanceled 1
    else s.goto .pollTimeout
  | .pollTimeout =>
    if s.timeout ∧ s.expired then s.abandon .timedOut 2 else s.goto .receiving
  | .leaving polled =>
    { s with
      shutdown := true
      cancellationOutcome :=
        match polled with
        | .connectionClosed => some .connectionClosed
        | _ => s.cancellationOutcome }.yield polled
  | .abandoning kind reason => { s with shutdown := true, owner := .spawning kind reason }
  | .spawning kind reason => ((s.spawnOnce reason runtime).finish kind runtime).abandoned kind
  | .swapping =>
    if s.cancellationSent then s.goto .awaitingResult
    else { s with cancellationSent := true, owner := .sending }
  | .sending =>
    let s' := { s with attempts := s.attempts ++ [s.cancelMessage 1 taken] }
    match taken with
    | .ok () => s'.goto .awaitingSend
    | .error error => s'.settle (sendFailed error)
  | .settling outcome =>
    ({ s with shutdown := true, cancellationOutcome := some outcome }.finish .canceled true).goto .idle
  | .disposing => { s with shutdown := true, owner := .gone }
  | .idle | .receiving | .awaitingSend | .awaitingResult | .gone => s

def step (s : RpcResponseStream) : CallEvent → RpcResponseStream
  | .expire => { s with expired := true }
  | .cancelParent => { s with parentCanceled := true }
  | .changeGeneration => { s with generationChanged := true }
  | .deadlineTask toCancel taken => s.deadlineStep toCancel taken
  | .parentTask toCancel taken => s.parentStep toCancel taken
  | .spawnedTask taken => s.spawnedStep taken
  | .poll => if s.owner = .idle then s.poll else s
  | .receive input => if s.owner = .receiving then s.receive input else s
  | .cancel => if s.owner = .idle then s.cancel else s
  | .sent result =>
    if s.owner = .awaitingSend then
      match result with
      | .ok () => s.goto .awaitingResult
      | .error error => s.settle (sendFailed error)
    else s
  | .await result => if s.owner = .awaitingResult then s.awaited result else s
  | .abort => if s.owner = .awaitingSend ∨ s.owner = .awaitingResult then s.goto .idle else s
  | .drop =>
    if s.owner = .idle then
      if s.finished then s.goto .disposing else s.goto (.abandoning .dropped 1)
    else s
  | .advance runtime taken => s.advance runtime taken

end RpcResponseStream

end Fitz
