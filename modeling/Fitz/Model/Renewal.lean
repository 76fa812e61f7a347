import Fitz.Model.Handle

/-!
# One lease handle over a connection

`extend`, `release` and `Drop` of a `LeaseHandle` (`src/client_domains/lease.rs`),
which its owner calls one at a time: `extend` borrows the handle and `release`
consumes it. Dropping the future of `release` drops the handle too. `Drop` leaves its
request to a task.
-/

namespace Fitz

namespace Conn

/-- What the `oneshot` of the call holds. -/
def settled (s : Conn) (t : Ticket) : Option (Result Bytes) :=
  (s.answers.find? (·.1 = t)).map fun answer => answer.2.getD (.error .connectionClosed)

/-- The caller of `t` returns, with what the `oneshot` holds if it is settled. -/
def returnCall (cfg : Config) (s : Conn) (t : Ticket) : Conn :=
  s.step cfg (if (s.settled t).isSome then .resume t else .abandon t)

/-- The command of the call is in the channel, or was. -/
def enqueued (s : Conn) (t : Ticket) : Bool :=
  match s.calls.lookup t with
  | some call => call.stage = .waiting
  | none => false

end Conn

inductive LeaseCall
  | extend (ttlSecs : UInt64)
  | release
  /-- the task of `Drop` -/
  | drop
  deriving DecidableEq

/-- What is seen of a handle. -/
inductive LeasedAct
  /-- a request is made with this token -/
  | requested (t : Ticket) (call : LeaseCall) (fencingToken : UInt64)
  /-- `extend` or `release` returned -/
  | returned (call : LeaseCall) (result : Result Unit)
  /-- an `extend` has ended without a verdict of the broker -/
  | uncertain
  deriving DecidableEq

inductive LeaseStage
  | idle
  | awaiting (call : LeaseCall) (t : Ticket)
  /-- `release` is over, and `self` goes out of scope -/
  | dropping
  | dropped
  deriving DecidableEq

structure Leased where
  conn : Conn
  handle : LeaseHandle
  stage : LeaseStage
  /-- the task of `Drop` has yet to run -/
  spawned : Bool
  trace : List LeasedAct

inductive LeasedEvent
  /-- any other step over the connection -/
  | conn (e : Event)
  | extend (ttlSecs : UInt64)
  | release
  /-- the request returns: what its `oneshot` holds, or else this error -/
  | returned (error : FitzError)
  /-- the future of the call is dropped -/
  | cancelled
  /-- `Drop`, inside a runtime or not -/
  | drop (runtime : Bool)
  /-- the task of `Drop` runs -/
  | task

/-- The token of a RENEW response. -/
def renewed (response : Bytes) : Result UInt64 :=
  Decode.on (do leaseSuccess "RENEW"; getU64) response

/-- The broker has decided on the renewal. -/
def renewalVerdict (answer : Result Bytes) : Bool :=
  match answer with
  | .ok response =>
    match renewed response with
    | .ok _ | .error (.domainWire ..) => true
    | .error _ => false
  | .error _ => false

namespace Leased

variable (cfg : Config)

/-- The handle is built, with the generation read now. -/
def start (conn : Conn) (route ownerId : String) (fencingToken : UInt64) : Leased :=
  ⟨conn, ⟨conn.shared.generation, route, ownerId, fencingToken, false⟩, .idle, false, []⟩

def note (s : Leased) (acts : List LeasedAct) : Leased := { s with trace := s.trace ++ acts }

def current (s : Leased) : Result Unit := s.handle.current s.conn.shared.generation

def payload (s : Leased) : LeaseCall → UInt16 × Bytes
  | .extend ttlSecs => (MessageType.leaseRenew, s.handle.releasePayload ++ putU64 ttlSecs)
  | .release | .drop => (MessageType.leaseRelease, s.handle.releasePayload)

def request (s : Leased) (call : LeaseCall) : Leased :=
  { s.note [.requested s.conn.nextTicket call s.handle.fencingToken] with
    conn := s.conn.step cfg (.allocate (.request 0) (s.payload call).1 (s.payload call).2) }

/-- `extend` or `release` is called; `stage` is that after an early return. -/
def call (s : Leased) (call : LeaseCall) (stage : LeaseStage) : Leased :=
  match s.current with
  | .ok () => { s.request cfg call with stage := .awaiting call s.conn.nextTicket }
  | .error error => { s.note [.returned call (.error error)] with stage := stage }

/-- The request of `call` returned. -/
def conclude (s : Leased) (call : LeaseCall) (answer : Result Bytes) : Leased :=
  match call with
  | .extend _ =>
    match answer.bind renewed with
    | .ok token =>
      { s.note [.returned call (.ok ())] with
        stage := .idle, handle := { s.handle with fencingToken := token } }
    | .error error =>
      { s.note (.returned call (.error error) ::
          if renewalVerdict answer then [] else [.uncertain]) with stage := .idle }
  | .release | .drop =>
    match answer.bind (leaseSuccess "RELEASE").on with
    | .ok () =>
      { s.note [.returned call (.ok ())] with
        stage := .dropping, handle := { s.handle with released := true } }
    | .error error => { s.note [.returned call (.error error)] with stage := .dropping }

/-- The future of the call is dropped. -/
def cancel (s : Leased) (call : LeaseCall) (t : Ticket) : Leased :=
  match call with
  | .extend _ =>
    { s.note (if s.conn.enqueued t then [.uncertain] else []) with
      stage := .idle, conn := s.conn.step cfg (.abandon t) }
  | .release | .drop => { s with stage := .dropping, conn := s.conn.step cfg (.abandon t) }

/-- `Drop for LeaseHandle`. -/
def drop (s : Leased) (runtime : Bool) : Leased :=
  match s.current with
  | .ok () =>
    { s with stage := .dropped, handle := { s.handle with released := true }, spawned := runtime }
  | .error _ => { s with stage := .dropped }

/-- The owner ends its call itself. -/
def permits (s : Leased) : Event → Bool
  | .resume t | .abandon t =>
    match s.stage with
    | .awaiting _ t' => t ≠ t'
    | _ => true
  | _ => true

def step (s : Leased) : LeasedEvent → Leased
  | .conn e => if s.permits e then { s with conn := s.conn.step cfg e } else s
  | .extend ttlSecs =>
    match s.stage with
    | .idle => s.call cfg (.extend ttlSecs) .idle
    | _ => s
  | .release =>
    match s.stage with
    | .idle => s.call cfg .release .dropping
    | _ => s
  | .returned error =>
    match s.stage with
    | .awaiting call t =>
      conclude { s with conn := s.conn.returnCall cfg t } call
        ((s.conn.settled t).getD (.error error))
    | _ => s
  | .cancelled =>
    match s.stage with
    | .awaiting call t => s.cancel cfg call t
    | _ => s
  | .drop runtime =>
    match s.stage with
    | .idle | .dropping => s.drop runtime
    | _ => s
  | .task => if s.spawned then { s.request cfg .drop with spawned := false } else s

end Leased

end Fitz
