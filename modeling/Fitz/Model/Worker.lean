import Fitz.Model.Loop
import Fitz.Model.Routes
import Fitz.Lib.Machine

/-!
# RPC workers

`register_worker` and what it starts (`src/client_domains/rpc/worker.rs`): the task of
a worker with its inbox and its table of active calls, and the two ends that the
application holds, the `RpcWorker` and its `RpcRequest`s. Every worker of a connection
reads the broadcasts of RPC_REQUEST and RPC_LIFECYCLE on its own. One event is one step
of one party; a step goes to the next shared access.

A request is the place at which its worker accepted it. The histories `start`,
`delivered`, `released` and `handled` are read by no step.
-/

namespace Fitz

/-! ## What the broker sends -/

/-- `decode_rpc_request_budget`, in milliseconds. -/
def decodeRpcRequestBudget : Decode (Option UInt32) := do
  let flag ← getU8
  if flag = 0 then
    if !(← isEmpty) then throw (.protocol "RPC budget flag has trailing bytes")
    return none
  let budget ← getU32
  if flag ≠ 1 ∨ !(← isEmpty) ∨ budget > 86400000 then
    throw (.protocol "invalid RPC request budget extension")
  return some budget

/-- What an RPC_REQUEST asks for. -/
structure Invocation where
  correlationId : Bytes
  route : String
  body : Bytes
  budget : Option UInt32
  deriving DecidableEq

/-- The decoding in `decode_request`: nothing if the route is not the worker's. The
client always supports cancellation. -/
def decodeRequest (pattern : String) (payload : Bytes) : Result (Option Invocation) :=
  Decode.on (do
    let correlationId ← getSlice 16
    let route ← getString
    if !routeMatchesPattern route pattern then return none
    let body ← getBytes
    let budget ← decodeRpcRequestBudget
    return some ⟨correlationId, route, body, budget⟩) payload

/-- The call that an RPC_LIFECYCLE cancels. -/
def canceledCall (payload : Bytes) : Option Bytes :=
  if payload.length = 18 ∧ payload.head? = some 2 ∧ 1 ≤ payload.getD 17 0 ∧ payload.getD 17 0 ≤ 4 then
    some ((payload.drop 1).take 16)
  else none

/-- `ReceivedNotification`. -/
structure Received where
  payload : Bytes
  generation : ℕ
  deriving DecidableEq

/-- An RPC_LIFECYCLE payload, and how many RPC_REQUESTs were published before it. -/
structure Signal where
  payload : Bytes
  before : ℕ
  deriving DecidableEq

/-- What the workers read of the connection. The generation would wrap around after
`2 ^ 64` sessions. -/
structure Channels where
  generation : ℕ
  /-- how often `generation_watch` was set -/
  version : ℕ
  /-- the generation was bumped and the watch not yet set -/
  unannounced : ℕ
  requests : List Received
  signals : List Signal
  requestCapacity : ℕ
  signalCapacity : ℕ

/-! ## A worker -/

/-- Where the task of a worker stands. -/
inductive TaskPc
  /-- `register_worker` has the receiver of RPC_REQUEST -/
  | listening
  /-- `register_worker` awaits the answer to RPC_SUBSCRIBE -/
  | registering
  /-- the `select!` polls `shutdown.cancelled()` -/
  | pollShutdown
  | pollGeneration
  | pollRequest
  | pollSignal
  /-- the generation has changed and the table is empty -/
  | clearing
  /-- about to call `inbox.push` -/
  | pushing (item : Result ℕ)
  /-- in `inbox.push`, past the checks; the lock is held -/
  | locked (item : Result ℕ)
  /-- awaits the overload response -/
  | rejecting (key : ℕ)
  /-- about to call `inbox.remove` -/
  | removing (id : Bytes)
  /-- about to call `cancel_worker_call` -/
  | canceling (id : Bytes)
  /-- drops what it took out of the inbox -/
  | dropping (items : List (Result ℕ))
  /-- about to call `inbox.close` -/
  | leaving
  | done
  deriving DecidableEq

/-- How far the `RpcWorker` has got. -/
inductive HandleStage
  /-- `register_worker` has not returned -/
  | pending
  | opened
  /-- in `drop`: the shutdown token is cancelled -/
  | canceling
  /-- in `drop`: about to call `inbox.close` -/
  | closing
  /-- in `drop`: about to call `inbox.clear` -/
  | clearing
  | dropping (items : List (Result ℕ))
  | gone
  deriving DecidableEq

/-- An accepted `RpcRequest`. -/
structure RpcRequest where
  /-- its frame -/
  frame : ℕ
  invocation : Invocation
  generation : ℕ
  /-- its cancellation token -/
  canceled : Bool
  deriving DecidableEq

/-- A request was dropped, in this generation, with or without a runtime. -/
structure Release where
  key : ℕ
  generation : ℕ
  runtime : Bool
  deriving DecidableEq

structure Worker where
  pattern : String
  /-- `max_concurrency` -/
  capacity : ℕ
  /-- the first RPC_REQUEST its receiver can read -/
  start : ℕ
  nextRequest : ℕ
  nextSignal : ℕ
  /-- the version of the watch it has seen -/
  seen : ℕ
  pc : TaskPc
  shutdown : Bool
  handle : HandleStage
  closed : Bool
  inbox : List (Result ℕ)
  active : HashMap Bytes ℕ
  /-- the requests it accepted -/
  requests : List RpcRequest
  /-- the requests the application holds -/
  held : List ℕ
  /-- the cleanup acknowledgments -/
  acknowledged : List ℕ
  delivered : List ℕ
  released : List Release
  /-- the signals it is through with -/
  handled : List ℕ

inductive WorkerEvent
  /-- the task runs to its next shared access or suspension; a budget may be over -/
  | advance (expired : Bool)
  /-- RPC_SUBSCRIBE is answered, or the registration is given up -/
  | subscribed (result : Result Unit)
  /-- the overload response is sent, or not -/
  | responded
  /-- the application polls the worker -/
  | poll
  /-- the application drops a request -/
  | release (key : ℕ) (runtime : Bool)
  /-- the deadline of a request passes, or the application cancels its token -/
  | expire (key : ℕ)
  /-- `RpcWorker::drop` runs to its next shared access -/
  | dropWorker (runtime : Bool)
  deriving DecidableEq

namespace Worker

variable (ch : Channels)

def new (pattern : String) (capacity : ℕ) : Worker where
  pattern := pattern
  capacity := capacity
  start := ch.requests.length
  nextRequest := ch.requests.length
  nextSignal := 0
  seen := 0
  pc := .listening
  shutdown := false
  handle := .pending
  closed := false
  inbox := []
  active := ∅
  requests := []
  held := []
  acknowledged := []
  delivered := []
  released := []
  handled := []

/-! ### Requests -/

def correlationId (w : Worker) (key : ℕ) : Bytes :=
  ((w.requests[key]?).map fun r => r.invocation.correlationId).getD []

/-- The tokens of these requests are cancelled. -/
def cancelAll (w : Worker) (keys : List ℕ) : Worker :=
  { w with requests :=
      w.requests.mapIdx fun key r => if key ∈ keys then { r with canceled := true } else r }

/-- The tokens in the table. -/
def activeKeys (w : Worker) : List ℕ := w.active.entries.map fun e => e.2

/-- `finish_cleanup`. Between the table and the generation it reads nothing shared. -/
def finishCleanup (w : Worker) (key : ℕ) (runtime : Bool) : Worker :=
  { w with
    active := w.active.erase (w.correlationId key)
    released := w.released ++ [⟨key, ch.generation, runtime⟩]
    acknowledged :=
      if (w.requests[key]?).any (·.generation = ch.generation) ∧ runtime then
        w.acknowledged ++ [key]
      else w.acknowledged }

/-- An item of the inbox is dropped. -/
def dropItem (w : Worker) (item : Result ℕ) (runtime : Bool) : Worker :=
  match item with
  | .ok key => w.finishCleanup ch key runtime
  | .error _ => w

/-- Somebody holds the lock of the inbox. -/
def inboxLocked (w : Worker) : Bool :=
  match w.pc with
  | .locked _ => true
  | _ => false

/-! ### The task -/

def goto (w : Worker) (pc : TaskPc) : Worker := { w with pc := pc }

/-- `decode_request` on a frame of this generation. -/
def receive (w : Worker) (frame : ℕ) (received : Received) (expired : Bool) : Worker :=
  match decodeRequest w.pattern received.payload with
  | .error error => w.goto (.pushing (.error error))
  | .ok none => w.goto .pollShutdown
  | .ok (some invocation) =>
    { w with
      active := w.active.insert invocation.correlationId w.requests.length
      requests := w.requests ++ [{
        frame := frame
        invocation := invocation
        generation := received.generation
        canceled := invocation.budget.any fun budget => budget = 0 || expired }]
      pc := .pushing (.ok w.requests.length) }

/-- `requests.recv()`. -/
def pollRequests (w : Worker) (expired : Bool) : Worker :=
  if ch.requests.length - w.nextRequest > ch.requestCapacity then
    { w with
      nextRequest := ch.requests.length - ch.requestCapacity
      pc := .pushing (.error (.backpressure "RPC worker stream is full")) }
  else
    match ch.requests[w.nextRequest]? with
    | none => w.goto .pollSignal
    | some received =>
      let w' := { w with nextRequest := w.nextRequest + 1 }
      if received.generation = ch.generation then w'.receive w.nextRequest received expired
      else w'.goto .pollShutdown

/-- `lifecycle.recv()`. -/
def pollSignals (w : Worker) : Worker :=
  if ch.signals.length - w.nextSignal > ch.signalCapacity then
    { w with nextSignal := ch.signals.length - ch.signalCapacity, pc := .pollShutdown }
  else
    match ch.signals[w.nextSignal]? with
    | none => w.goto .pollShutdown
    | some signal =>
      let w' := { w with nextSignal := w.nextSignal + 1 }
      match canceledCall signal.payload with
      | some id => w'.goto (.removing id)
      | none => { w' with handled := w.handled ++ [w.nextSignal], pc := .pollShutdown }

/-- The item is the request that `id` names. -/
def names (w : Worker) (id : Bytes) : Result ℕ → Bool
  | .ok key => w.correlationId key == id
  | .error _ => false

/-- `inbox.remove`. -/
def remove (w : Worker) (id : Bytes) : Worker :=
  match w.inbox.find? (w.names id) with
  | some item =>
    { w with
      inbox := w.inbox.eraseP (w.names id)
      handled := w.handled ++ [w.nextSignal - 1]
      pc := .dropping [item] }
  | none => w.goto (.canceling id)

/-- `cancel_worker_call`. -/
def cancelWorkerCall (w : Worker) (id : Bytes) : Worker :=
  { w.cancelAll (w.active.lookup id).toList with
    handled := w.handled ++ [w.nextSignal - 1]
    pc := .pollShutdown }

def advance (w : Worker) (expired : Bool) : Worker :=
  match w.pc with
  | .listening => { w with nextSignal := ch.signals.length, pc := .registering }
  | .pollShutdown => if w.shutdown then w.goto .leaving else w.goto .pollGeneration
  | .pollGeneration =>
    if w.seen = ch.version then w.goto .pollRequest
    else
      -- only this task puts calls into the table
      { w.cancelAll w.activeKeys with seen := ch.version, active := ∅, pc := .clearing }
  | .clearing => { w with inbox := [], pc := .dropping w.inbox }
  | .pollRequest => w.pollRequests ch expired
  | .pollSignal => w.pollSignals ch
  | .pushing item =>
    if w.closed ∨ w.inbox.length ≥ w.capacity then
      match item with
      | .ok key => w.goto (.rejecting key)
      | .error _ => w.goto .pollShutdown
    else w.goto (.locked item)
  | .locked item => { w with inbox := w.inbox ++ [item], pc := .pollShutdown }
  | .removing id => w.remove id
  | .canceling id => w.cancelWorkerCall id
  | .dropping (item :: items) => (w.dropItem ch item true).goto (.dropping items)
  | .dropping [] => w.goto .pollShutdown
  | .leaving => { w with closed := true, pc := .done }
  | .registering | .rejecting _ | .done => w

/-- `worker::start`. -/
def subscribed (w : Worker) (result : Result Unit) : Worker :=
  match w.pc, result with
  | .registering, .ok () => { w with seen := ch.version, handle := .opened, pc := .pollShutdown }
  | .registering, .error _ => { w with handle := .gone, pc := .done }
  | _, _ => w

/-- `respond` returns, and the request is dropped. -/
def responded (w : Worker) : Worker :=
  match w.pc with
  | .rejecting key => (w.finishCleanup ch key true).goto .pollShutdown
  | _ => w

/-! ### The application -/

/-- `poll_next`. -/
def poll (w : Worker) : Worker :=
  match w.handle, w.inboxLocked, w.inbox with
  | .opened, false, item :: items =>
    match item with
    | .ok key => { w with inbox := items, held := w.held ++ [key], delivered := w.delivered ++ [key] }
    | .error _ => { w with inbox := items }
  | _, _, _ => w

def release (w : Worker) (key : ℕ) (runtime : Bool) : Worker :=
  if key ∈ w.held then { w.finishCleanup ch key runtime with held := w.held.erase key } else w

def expire (w : Worker) (key : ℕ) : Worker :=
  if key ∈ w.held ∨ (w.requests[key]?).any (·.invocation.budget.isSome) then w.cancelAll [key] else w

/-- `RpcWorker::drop`. -/
def dropWorker (w : Worker) (runtime : Bool) : Worker :=
  match w.handle with
  | .opened => { w with shutdown := true, handle := .canceling }
  | .canceling => { w.cancelAll w.activeKeys with handle := .closing }
  | .closing => { w with closed := true, handle := .clearing }
  | .clearing =>
    if w.inboxLocked then w else { w with inbox := [], handle := .dropping w.inbox }
  | .dropping (item :: items) => { w.dropItem ch item runtime with handle := .dropping items }
  | .dropping [] => { w with handle := .gone }
  | .pending | .gone => w

def step (w : Worker) : WorkerEvent → Worker
  | .advance expired => w.advance ch expired
  | .subscribed result => w.subscribed ch result
  | .responded => w.responded ch
  | .poll => w.poll
  | .release key runtime => w.release ch key runtime
  | .expire key => w.expire key
  | .dropWorker runtime => w.dropWorker ch runtime

end Worker

/-! ## The workers of a connection -/

structure Workers where
  channels : Channels
  workers : List Worker

inductive WorkersEvent
  /-- `generation.fetch_add(1)` -/
  | bump
  /-- `generation_watch.send_replace(..)` -/
  | announce
  | publishRequest (payload : Bytes)
  | publishSignal (payload : Bytes)
  /-- `register_worker`, up to its first receiver -/
  | register (pattern : String) (maxConcurrency : UInt32)
  | worker (index : ℕ) (e : WorkerEvent)
  deriving DecidableEq

def validateWorkerConcurrency (maxConcurrency : UInt32) : Result Unit :=
  if 1 ≤ maxConcurrency ∧ maxConcurrency ≤ 1024 then .ok ()
  else .error (.protocol "max_concurrency must be between 1 and 1024")

namespace Workers

/-- The channel of RPC_LIFECYCLE may have been made by a call, with a smaller
capacity. -/
def new (signalCapacity : ℕ) : Workers := ⟨⟨1, 0, 0, [], [], 1024, signalCapacity⟩, []⟩

def register (s : Workers) (pattern : String) (maxConcurrency : UInt32) : Workers :=
  match validateRegistrationPattern pattern "rpc" 0, validateWorkerConcurrency maxConcurrency with
  | .ok (), .ok () =>
    { s with workers := s.workers ++ [.new s.channels pattern maxConcurrency.toNat] }
  | _, _ => s

def step (s : Workers) : WorkersEvent → Workers
  | .bump => { s with channels := { s.channels with
      generation := s.channels.generation + 1
      unannounced := s.channels.unannounced + 1 } }
  | .announce =>
    if s.channels.unannounced = 0 then s
    else { s with channels := { s.channels with
      version := s.channels.version + 1
      unannounced := s.channels.unannounced - 1 } }
  | .publishRequest payload => { s with channels := { s.channels with
      requests := s.channels.requests ++ [⟨payload, s.channels.generation⟩] } }
  | .publishSignal payload => { s with channels := { s.channels with
      signals := s.channels.signals ++ [⟨payload, s.channels.requests.length⟩] } }
  | .register pattern maxConcurrency => s.register pattern maxConcurrency
  | .worker index e => { s with workers := s.workers.modify index fun w => w.step s.channels e }

end Workers

end Fitz
