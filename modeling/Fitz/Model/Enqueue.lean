import Fitz.Model.Handle

/-!
# Enqueue

`enqueue_with_options` (`src/client_domains/queue.rs`) and its attempts in
`request_confirmed_negative_with_flags` (`src/async_connection.rs`). What an attempt
comes to is up to the connection and the broker; the delays between two attempts have
no part in it.
-/

namespace Fitz

namespace MessageType

def queueEnqueue : UInt16 := 200

end MessageType

structure QueueEnqueueOptions where
  delaySeconds : Option UInt64
  ttlHours : Option {hours : UInt32 // hours ≠ 0}

/-- What a request puts into its frame, its id apart. -/
structure RequestFrame where
  messageType : UInt16
  payload : Bytes
  flags : UInt8
  deriving DecidableEq

/-- What `request_with_flags` comes to: whether the frame is sent, and what is returned. -/
structure Attempt where
  sent : Bool
  result : Result Bytes

/-- A frame, and the attempt that sends it. -/
structure Transmission where
  attempt : ℕ
  frame : RequestFrame
  deriving DecidableEq

/-- `request_confirmed_negative_with_flags` from this attempt on, with so many left: what
it sends and what it returns. -/
def requestConfirmedNegative (frame : RequestFrame) (retryableRejection : Bytes → Bool)
    (outcome : ℕ → Attempt) : ℕ → ℕ → List Transmission × Result Bytes
  | 0, _ => ([], .error .connectionClosed)
  | left + 1, attempt =>
    let sent := if (outcome attempt).sent then [⟨attempt, frame⟩] else []
    match (outcome attempt).result with
    | .error error => (sent, .error error)
    | .ok response =>
      if left = 0 ∨ !retryableRejection response then (sent, .ok response)
      else
        let (more, result) :=
          requestConfirmedNegative frame retryableRejection outcome left (attempt + 1)
        (sent ++ more, result)

/-! ## The queue client -/

def encodeEnqueue (route : String) (body : Bytes) (delaySeconds : Option UInt64) : Bytes :=
  putString route ++ putBytes body ++
    match delaySeconds.filter (0 < ·) with
    | some delay => putU8 1 ++ putU64 delay
    | none => putU8 0

def isRetryableEnqueueRejection (response : Bytes) : Bool :=
  match (queueSuccess "ENQUEUE").on response with
  | .ok () => false
  | .error error => error.isRetryable

/-- The part of `enqueue_with_options` before the request. -/
def enqueueFrame (sh : Shared) (route : String) (body : Bytes) (options : QueueEnqueueOptions) :
    Result RequestFrame := do
  validateFixedRoute route "queue" 3
  let payload := encodeEnqueue route body options.delaySeconds
  match options.ttlHours with
  | none => return ⟨MessageType.queueEnqueue, payload, 0⟩
  | some hours =>
    requireCapability sh 1
    let payload ← Wire3.encode payload [(1, putU32 hours.1)]
    return ⟨MessageType.queueEnqueue, payload, extensionsPresent⟩

def enqueueId (response : Bytes) : Result UInt64 :=
  Decode.on (do
    queueSuccess "ENQUEUE"
    if ← isEmpty then return 0 else getU64) response

def enqueueWithOptions (sh : Shared) (policy : RetryPolicy) (route : String) (body : Bytes)
    (options : QueueEnqueueOptions) (outcome : ℕ → Attempt) : List Transmission × Result UInt64 :=
  match enqueueFrame sh route body options with
  | .error error => ([], .error error)
  | .ok frame =>
    let (sent, result) :=
      requestConfirmedNegative frame isRetryableEnqueueRejection outcome policy.attempts 1
    (sent, result.bind enqueueId)

end Fitz
