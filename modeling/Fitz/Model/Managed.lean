import Fitz.Model.Handle

/-!
# Managed leases

`LeaseClient::with_lease_authority_with_options` (`src/client_domains/lease.rs`):
acquire, run the callback beside renewals, release. `Managed.step` runs the future
from one of its awaits to the next; an event is what the await returns: a reply of
the connection, a completion of a queued ACQUIRE, the renewal timer, the callback.
The history holds what the future did and was told.

Where the handle checks the generation, or is dropped, the event says what it reads.
Times are not modelled: the timer may fire whenever it is awaited.
-/

namespace Fitz

/-- `LeaseExecutionError`. -/
inductive LeaseExecutionError (E : Type)
  | acquisition (error : FitzError)
  | callback (error : E)
  | ownershipLost (error : FitzError)
  | release (error : FitzError)
  | combined (lifecycle : FitzError) (callback : E)

/-- The arguments of the call. -/
structure LeaseOrder where
  route : String
  ownerId : String
  ttlSecs : UInt64
  waitSeconds : UInt32
  deriving DecidableEq

/-- What the future did and was told. `T` and `E` are what its callback returns. -/
inductive LeaseAct (T E : Type)
  | sent (messageType : UInt16) (payload : Bytes)
  /-- the broker granted the lease -/
  | acquired (token : UInt64)
  | notAcquired (error : FitzError)
  /-- the callback is called with this authority -/
  | started (fencingToken : UInt64)
  | renewed (token : UInt64)
  | renewalFailed (error : FitzError)
  /-- `cancellation.cancel()` -/
  | canceled
  /-- the callback returned -/
  | finished (outcome : Except E T)
  /-- `handle.release()` returned -/
  | released (result : Result Unit)
  | returned (result : Except (LeaseExecutionError E) T)

/-- Where the future stands. -/
inductive LeasePc (T E : Type)
  | start
  /-- awaits the reply to ACQUIRE -/
  | acquiring
  /-- awaits the completion of a queued ACQUIRE -/
  | queued
  /-- at the `select!` -/
  | running
  /-- awaits the reply to RENEW -/
  | renewing
  /-- awaits the callback after a failed renewal -/
  | stopping (error : FitzError)
  /-- awaits the reply to RELEASE -/
  | releasing (outcome : Except E T)
  | done

structure Managed (T E : Type) where
  pc : LeasePc T E
  handle : LeaseHandle
  acts : List (LeaseAct T E)

inductive LeaseEvent (T E : Type)
  /-- the call is made -/
  | call
  | acquireReply (reply : Result Bytes) (generation : UInt64)
  | completion (received : Result Bytes) (generation : UInt64)
  /-- the timer fires, and `extend` reads the generation -/
  | timer (generation : UInt64)
  | renewReply (reply : Result Bytes)
  /-- the callback returns; `release` reads the one generation, and a handle that is
  dropped unreleased the other -/
  | callback (outcome : Except E T) (generation atDrop : UInt64)
  | releaseReply (reply : Result Bytes) (atDrop : UInt64)

/-- `extend` on a reply. -/
def renewToken (reply : Result Bytes) : Result UInt64 := do
  Decode.on (do leaseSuccess "RENEW"; getU64) (← reply)

/-- `release` on a reply. -/
def releaseOutcome (reply : Result Bytes) : Result Unit := do
  (leaseSuccess "RELEASE").on (← reply)

def ttlError : FitzError := .protocol "lease TTL must be positive and schedulable"

namespace Managed

variable {T E : Type}

/-- The handle of a call that holds no lease yet is of no account. -/
def new : Managed T E := ⟨.start, ⟨0, "", "", 0, true⟩, []⟩

/-- The future goes on to its next await. -/
def goto (s : Managed T E) (pc : LeasePc T E) (acts : List (LeaseAct T E)) : Managed T E :=
  { s with pc := pc, acts := s.acts ++ acts }

/-- The call returns before it held the lease. -/
def refuse (s : Managed T E) (error : FitzError) : Managed T E :=
  s.goto .done [.notAcquired error, .returned (.error (.acquisition error))]

/-- The handle is built and the callback called. -/
def hold (s : Managed T E) (order : LeaseOrder) (generation token : UInt64) : Managed T E :=
  let handle : LeaseHandle := ⟨generation, order.route, order.ownerId, token, false⟩
  { s.goto .running [.acquired token, .started handle.fencingToken] with handle := handle }

/-- The request of `extend`. -/
def renewPayload (handle : LeaseHandle) (order : LeaseOrder) : Bytes :=
  handle.releasePayload ++ putU64 order.ttlSecs

/-- `Drop for LeaseHandle`. -/
def dropped (handle : LeaseHandle) (generation : UInt64) : List (LeaseAct T E) :=
  match handle.current generation with
  | .ok () => [.sent MessageType.leaseRelease handle.releasePayload]
  | .error _ => []

/-- The renewal failed: the callback is told to stop, and awaited. -/
def lose (s : Managed T E) (error : FitzError) : Managed T E :=
  s.goto (.stopping error) [.renewalFailed error, .canceled]

/-- The result after a release. -/
def settle (outcome : Except E T) (released : Result Unit) : Except (LeaseExecutionError E) T :=
  match outcome, released with
  | .ok value, .ok () => .ok value
  | .error error, .ok () => .error (.callback error)
  | .ok _, .error error => .error (.release error)
  | .error callback, .error lifecycle => .error (.combined lifecycle callback)

/-- The result after a failed renewal. -/
def settleLost (outcome : Except E T) (error : FitzError) : Except (LeaseExecutionError E) T :=
  match outcome with
  | .ok _ => .error (.ownershipLost error)
  | .error callback => .error (.combined error callback)

/-- `release` failed: it drops the handle it was called on. -/
def releaseFailed (s : Managed T E) (outcome : Except E T) (error : FitzError)
    (atDrop : UInt64) : List (LeaseAct T E) :=
  dropped s.handle atDrop ++ [.released (.error error), .returned (settle outcome (.error error))]

def call (s : Managed T E) (order : LeaseOrder) : Managed T E :=
  match validateFixedRoute order.route "lease" 3 with
  | .error error => s.refuse error
  | .ok () =>
    if order.ttlSecs = 0 ∨ order.ttlSecs > 4294967295 / 1000 then s.refuse ttlError
    else
      match (Opening.leaseAcquire order.route order.ownerId order.ttlSecs
          order.waitSeconds).request with
      | .error error => s.refuse error
      | .ok (messageType, payload) => s.goto .acquiring [.sent messageType payload]

def step (order : LeaseOrder) (s : Managed T E) (e : LeaseEvent T E) : Managed T E :=
  match s.pc, e with
  | .start, .call => s.call order
  | .acquiring, .acquireReply reply generation =>
    match reply.bind (acquireKind order.waitSeconds) with
    | .error error => s.refuse error
    | .ok (some token) => s.hold order generation token
    | .ok none => s.goto .queued []
  | .queued, .completion received generation =>
    match received with
    | .error _ => s.refuse .connectionClosed
    | .ok payload =>
      match completionToken payload with
      | .error error => s.refuse error
      | .ok token => s.hold order generation token
  | .running, .callback outcome generation atDrop =>
    match s.handle.current generation with
    | .error error => s.goto .done (.finished outcome :: s.releaseFailed outcome error atDrop)
    | .ok () =>
      s.goto (.releasing outcome)
        [.finished outcome, .sent MessageType.leaseRelease s.handle.releasePayload]
  | .running, .timer generation =>
    match s.handle.current generation with
    | .error error => s.lose error
    | .ok () => s.goto .renewing [.sent MessageType.leaseRenew (renewPayload s.handle order)]
  | .renewing, .renewReply reply =>
    match renewToken reply with
    | .error error => s.lose error
    | .ok token =>
      { s.goto .running [.renewed token] with handle := { s.handle with fencingToken := token } }
  | .stopping error, .callback outcome _ atDrop =>
    s.goto .done (.finished outcome :: dropped s.handle atDrop ++
      [.returned (settleLost outcome error)])
  | .releasing outcome, .releaseReply reply atDrop =>
    match releaseOutcome reply with
    | .error error => s.goto .done (s.releaseFailed outcome error atDrop)
    | .ok () =>
      { s.goto .done [.released (.ok ()), .returned (settle outcome (.ok ()))] with
        handle := { s.handle with released := true } }
  | _, _ => s

end Managed

end Fitz
