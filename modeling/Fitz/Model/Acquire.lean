import Fitz.Model.Managed

/-!
# Acquisitions of one client

`LeaseClient::acquire` (`src/client_domains/lease.rs`) over any number of
`LeaseClient` values of one `Client`. A value comes with a gate of its own, which
its clones share; an acquire holds it from its receiver to its return. The reply to
ACQUIRE comes to the call itself; a later completion is an uncorrelated frame, which
`publish_notification` broadcasts to every receiver of the type.

`completions` is the broadcast channel, with the call each completion was sent for:
the frame itself names neither route, owner nor request. A receiver is the position
it subscribed at; it reads what was broadcast since.
-/

namespace Fitz

/-- How far a call to `acquire` has got. -/
inductive AcquireStage
  /-- waits for the gate -/
  | gating
  /-- holds the gate and a receiver from `mark` on, and awaits the reply -/
  | requested (mark : ℕ)
  /-- was queued, and awaits its receiver -/
  | queued (mark : ℕ)
  /-- returned, by the completion `via` or by its reply -/
  | returned (result : Result UInt64) (via : Option ℕ)
  /-- its future was dropped -/
  | dropped
  deriving DecidableEq

/-- The position of the receiver of a call that has one. -/
def AcquireStage.mark? : AcquireStage → Option ℕ
  | .requested mark | .queued mark => some mark
  | _ => none

structure Acquisition where
  /-- the `LeaseClient` it was called on -/
  client : ℕ
  order : LeaseOrder
  stage : AcquireStage
  deriving DecidableEq

structure Acquiring where
  calls : List Acquisition
  completions : List (ℕ × Bytes)
  deriving DecidableEq

inductive AcquireEvent
  | acquire (client : ℕ) (order : LeaseOrder)
  /-- the gate is taken, the receiver made and the request sent -/
  | enter (i : ℕ)
  /-- the request returns -/
  | reply (i : ℕ) (result : Result Bytes)
  /-- a completion for the call `i` arrives -/
  | complete (i : ℕ) (payload : Bytes)
  /-- the receiver of a queued call is polled -/
  | receive (i : ℕ)
  | drop (i : ℕ)
  deriving DecidableEq

/-- The capacity of the channel. -/
def deferredCapacity : ℕ := 16

namespace Acquiring

def new : Acquiring := ⟨[], []⟩

def setStage (s : Acquiring) (i : ℕ) (stage : AcquireStage) : Acquiring :=
  { s with calls := s.calls.modify i fun call => { call with stage := stage } }

/-- Nobody holds the gate of the client. -/
def gateFree (s : Acquiring) (client : ℕ) : Prop :=
  ∀ call ∈ s.calls, call.client = client → call.stage.mark? = none

instance (s : Acquiring) (client : ℕ) : Decidable (s.gateFree client) :=
  inferInstanceAs (Decidable (∀ call ∈ s.calls, call.client = client → call.stage.mark? = none))

def acquire (s : Acquiring) (client : ℕ) (order : LeaseOrder) : Acquiring :=
  let stage := match validateFixedRoute order.route "lease" 3 with
    | .ok () => AcquireStage.gating
    | .error error => .returned (.error error) none
  { s with calls := s.calls ++ [⟨client, order, stage⟩] }

def enter (s : Acquiring) (i : ℕ) : Acquiring :=
  match s.calls[i]? with
  | some ⟨client, _, .gating⟩ =>
    if s.gateFree client then s.setStage i (.requested s.completions.length) else s
  | _ => s

def reply (s : Acquiring) (i : ℕ) (result : Result Bytes) : Acquiring :=
  match s.calls[i]? with
  | some ⟨_, order, .requested mark⟩ =>
    match result.bind (acquireKind order.waitSeconds) with
    | .error error => s.setStage i (.returned (.error error) none)
    | .ok (some token) => s.setStage i (.returned (.ok token) none)
    | .ok none => s.setStage i (.queued mark)
  | _ => s

/-- `deferred.recv()`, which fails for a receiver that has fallen behind. -/
def receive (s : Acquiring) (i : ℕ) : Acquiring :=
  match s.calls[i]? with
  | some ⟨_, _, .queued mark⟩ =>
    match s.completions[mark]? with
    | none => s
    | some (_, payload) =>
      if s.completions.length > mark + deferredCapacity then
        s.setStage i (.returned (.error .connectionClosed) none)
      else s.setStage i (.returned (completionToken payload) (some mark))
  | _ => s

/-- A dropped future frees its gate; what it asked of the broker stands. -/
def drop (s : Acquiring) (i : ℕ) : Acquiring :=
  match s.calls[i]? with
  | some ⟨_, _, .returned _ _⟩ => s
  | some _ => s.setStage i .dropped
  | none => s

def step (s : Acquiring) : AcquireEvent → Acquiring
  | .acquire client order => s.acquire client order
  | .enter i => s.enter i
  | .reply i result => s.reply i result
  | .complete i payload => { s with completions := s.completions ++ [(i, payload)] }
  | .receive i => s.receive i
  | .drop i => s.drop i

end Acquiring

end Fitz
