import Fitz.Model.Observer
import Fitz.Model.Handle
import Fitz.Model.Domains

/-!
# The lease observer over a connection

`observe_loop` with `bootstrap`, `steady_state` and `reconcile_after_invalidation`
(`src/client_domains/lease.rs`) across the sessions of its connection. Each page of
LIST goes through `request_replayable`, which asks again on the next session if the
one it asked on is lost. The notifications are those in the log of the connection:
`publish_notification` moves the epoch when it writes there, and `broadcast` is the
rest of it. The backoffs and the reconciliation interval are not modelled: whoever
sleeps may wake, and the timer may fire whenever it is polled.

`asked` and `installed` are history no step reads.
-/

namespace Fitz

def MessageType.leaseList : UInt16 := 410

/-- The events of the supervisor's task. -/
def Event.supervised : Event → Bool
  | .allocate .. | .stamp _ | .enqueue _ | .resume _ | .abandon _ | .connect | .requestClose | .close
  | .register .. | .deactivate _ => false
  | _ => true

/-! ## State -/

/-- A page, the cursor and the call it was asked with, and the transport it was
answered on. -/
structure ListedPage where
  cursor : Option LeaseListCursor
  ticket : Ticket
  serial : ℕ
  page : LeaseListPage
  deriving DecidableEq

inductive ListStage
  /-- about to read the epoch -/
  | starting
  /-- before this attempt of the request for the page -/
  | asking (attempt : ℕ)
  | awaiting (attempt : ℕ) (t : Ticket)
  | draining (invalidated : Bool)
  /-- the buffer was empty -/
  | drained
  deriving DecidableEq

/-- A run of the loop of `bootstrap` or `reconcile_after_invalidation`, with the page
its `full_list` is at. -/
structure ListPass where
  origin : PassOrigin
  stage : ListStage
  epoch : UInt64
  cursor : Option LeaseListCursor
  fresh : List LeaseListItem
  pages : List ListedPage
  deriving DecidableEq

/-- Who subscribes. -/
inductive Subscriber
  /-- `observe`, before there is a task -/
  | observe
  /-- `replace_observer_subscription` in the loop around `bootstrap` -/
  | bootstrap
  /-- the same after the steady state -/
  | steadyState
  deriving DecidableEq

inductive ObserveLoopPc
  /-- `observe` was not called, or failed -/
  | idle
  /-- `subscribe`, with a receiver from `mark` on -/
  | subscribing (subscriber : Subscriber) (mark : ℕ) (t : Ticket)
  /-- `unsubscribe_in_place` of `replace_observer_subscription` -/
  | unsubscribing (subscriber : Subscriber) (t : Ticket)
  /-- about to subscribe again -/
  | resubscribing (subscriber : Subscriber)
  /-- the top of `observe_loop` -/
  | looping
  /-- the sleep before `bootstrap` is called again -/
  | pausing
  | passing (pass : ListPass)
  /-- `bootstrap` returned: the generation is compared with the baseline -/
  | comparing
  /-- `steady_state` is called -/
  | watching
  /-- the arms of its `select!`, in order -/
  | pollShutdown
  | pollGeneration
  | pollNotification
  | pollTimer
  /-- the `select!` is pending -/
  | waiting
  /-- the last `unsubscribe` -/
  | leaving (t : Ticket)
  | done
  deriving DecidableEq

structure LeaseObserver where
  conn : Conn
  /-- how many of the notifications are broadcast -/
  sent : ℕ
  /-- the key and the cell of its subscription, unless that is closed -/
  registration : Option (UInt64 × Cell)
  /-- what its receiver reads next -/
  next : ℕ
  view : List LeaseListItem
  ready : Bool
  cancelled : Bool
  baseline : UInt64
  /-- the bumps that `generation_changes` has seen -/
  seen : ℕ
  pc : ObserveLoopPc
  /-- the payloads of the LIST calls -/
  asked : Ticket → Option Bytes
  /-- the pages of the installed view -/
  installed : List ListedPage

inductive LeaseObserverEvent
  /-- any other step over the connection -/
  | conn (e : Event)
  /-- the supervisor finishes a `publish_notification` -/
  | broadcast
  /-- `observe` is called -/
  | start
  /-- the task goes on -/
  | observe
  /-- its request returns: what its `oneshot` holds, or else this error -/
  | returned (error : FitzError)
  /-- the reconciliation timer has fired when it is polled -/
  | tick
  /-- `shutdown.cancel()` -/
  | shutdown
  /-- a `select!` takes its shutdown branch and drops the other -/
  | stop

namespace LeaseObserver

variable (cfg : Config) (policy : RetryPolicy) (pattern : String) (pageSize : UInt32)

def new : LeaseObserver :=
  ⟨.new cfg, 0, none, 0, [], false, false, 0, 0, .idle, fun _ => none, []⟩

def goto (s : LeaseObserver) (pc : ObserveLoopPc) : LeaseObserver := { s with pc := pc }

/-! ## Notifications -/

def published (s : LeaseObserver) : List (ℕ × Bytes) :=
  notified s.conn.log 0 MessageType.leaseNotify

def epoch (s : LeaseObserver) : UInt64 := UInt64.ofNat s.published.length

/-- The supervisor has finished its last `publish_notification`. -/
def idle (s : LeaseObserver) : Bool := s.sent = s.published.length

/-- The next item of the subscription. A lease notification holds no JSON. -/
def peek (s : LeaseObserver) : LeasePoll :=
  match s.registration with
  | none => .ready (.error .connectionClosed)
  | some (_, cell) =>
    if s.sent > s.next + notificationCapacity then .lagged
    else if s.next < s.sent then
      match pollItem (fun _ => .error "") .lease (s.conn.wireIds cell)
          ((s.published[s.next]?).elim [] Prod.snd) with
      | .skipped => .skipped
      | .ready item => .ready item
    else .pending

/-- The receiver moves past it. -/
def take (s : LeaseObserver) : LeaseObserver :=
  match s.peek with
  | .pending => s
  | .lagged => { s with next := s.sent - notificationCapacity }
  | .skipped | .ready _ => { s with next := s.next + 1 }

/-! ## Requests -/

def request (s : LeaseObserver) (messageType : UInt16) (payload : Bytes) : LeaseObserver :=
  { s with conn := s.conn.step cfg (.allocate (.request 0) messageType payload) }

/-- What the `oneshot` of the call holds. -/
def settled (s : LeaseObserver) (t : Ticket) : Option (Result Bytes) :=
  (s.conn.answers.find? (·.1 = t)).map fun answer => answer.2.getD (.error .connectionClosed)

def endCall (s : LeaseObserver) (t : Ticket) : LeaseObserver :=
  { s with conn := s.conn.step cfg (if (s.settled t).isSome then .resume t else .abandon t) }

/-- The future of the call is dropped. -/
def dropCall (s : LeaseObserver) (t : Ticket) : LeaseObserver :=
  { s with conn := s.conn.step cfg (.abandon t) }

/-- The call that the observer awaits. -/
def awaited (s : LeaseObserver) : Option Ticket :=
  match s.pc with
  | .subscribing _ _ t | .unsubscribing _ t | .leaving t => some t
  | .passing pass =>
    match pass.stage with
    | .awaiting _ t => some t
    | _ => none
  | _ => none

/-! ## The subscription -/

/-- `unsubscribe_in_place`: its request, unless the subscription is closed. -/
def unsubscribe (s : LeaseObserver) (requested : Ticket → ObserveLoopPc) (closed : ObserveLoopPc) :
    LeaseObserver :=
  match s.registration with
  | some (key, _) =>
    let s' := { s with registration := none, conn := s.conn.step cfg (.deactivate key) }
    (s'.request cfg MessageType.leaseUnsubscribe (putString pattern)).goto
      (requested s'.conn.nextTicket)
  | none => s.goto closed

/-- `observe_loop` is left. -/
def leave (s : LeaseObserver) : LeaseObserver := s.unsubscribe cfg pattern .leaving .done

/-- `replace_observer_subscription`; the view is not ready until another one is made. -/
def replace (s : LeaseObserver) (subscriber : Subscriber) : LeaseObserver :=
  unsubscribe cfg pattern { s with ready := false } (.unsubscribing subscriber)
    (.resubscribing subscriber)

def subscribe (s : LeaseObserver) (subscriber : Subscriber) : LeaseObserver :=
  (s.request cfg MessageType.leaseSubscribe (putString pattern)).goto
    (.subscribing subscriber s.sent s.conn.nextTicket)

/-- The request of `subscribe` returned. -/
def subscribed (s : LeaseObserver) (subscriber : Subscriber) (mark : ℕ) (result : Result Bytes) :
    LeaseObserver :=
  match result >>= Topic.lease.decodeSubscriptionId with
  | .ok id =>
    { s.goto (if subscriber = .bootstrap then .pausing else .looping) with
      registration := some (s.conn.nextRegistrationId, s.conn.nextCell)
      next := mark
      conn := s.conn.step cfg (.register MessageType.leaseSubscribe (putString pattern) id
        Topic.lease.decodeSubscriptionId) }
  | .error error =>
    if subscriber = .observe then s.goto .idle
    else if error = .closed then s.leave cfg pattern
    else s.goto (.resubscribing subscriber)

/-! ## Passes -/

/-- A loop of passes begins. -/
def reconcile (s : LeaseObserver) (origin : PassOrigin) : LeaseObserver :=
  s.goto (.passing ⟨origin, .starting, 0, none, [], []⟩)

/-- The steady state ends for a new session. -/
def reconnected (s : LeaseObserver) : LeaseObserver := { s.goto .looping with ready := false }

/-- `bootstrap` or `reconcile_after_invalidation` returned an error. -/
def failed (s : LeaseObserver) (origin : PassOrigin) (error : FitzError) : LeaseObserver :=
  if error = .closed then s.leave cfg pattern
  else if subscriptionMustBeReplaced error then
    s.replace cfg pattern (if origin = .bootstrap then .bootstrap else .steadyState)
  else
    match origin with
    | .bootstrap => s.goto .pausing
    | .invalidation => s.reconnected
    | .periodic => s.goto .pollShutdown

/-- An attempt of the request for a page. -/
def ask (s : LeaseObserver) (pass : ListPass) (attempt : ℕ) : LeaseObserver :=
  { (s.request cfg MessageType.leaseList (listPayload pattern pass.cursor pageSize)).goto
      (.passing { pass with stage := .awaiting attempt s.conn.nextTicket }) with
    asked := Function.update s.asked s.conn.nextTicket
      (some (listPayload pattern pass.cursor pageSize)) }

/-- `full_list` has the next page. -/
def collect (s : LeaseObserver) (pass : ListPass) (t : Ticket) (response : Bytes)
    (page : LeaseListPage) : LeaseObserver :=
  let listed : ListedPage := ⟨pass.cursor, t, (responseOn s.conn.log t response).getD 0, page⟩
  let pass : ListPass := { pass with
    fresh := page.items.foldl insertItem pass.fresh
    pages := pass.pages ++ [listed] }
  match page.nextCursor with
  | some cursor => s.goto (.passing { pass with cursor := some cursor, stage := .asking 1 })
  | none => s.goto (.passing { pass with stage := .draining false })

/-- An attempt returned, to `request_replayable` and then to `list`. -/
def listed (s : LeaseObserver) (pass : ListPass) (attempt : ℕ) (t : Ticket) (result : Result Bytes) :
    LeaseObserver :=
  match result with
  | .ok response =>
    match listAnswer (.ok response) with
    | .ok page => s.collect pass t response page
    | .error error => s.failed cfg pattern pass.origin error
  | .error error =>
    if attempt < policy.attempts ∧ error.isRetryable = true then
      s.goto (.passing { pass with stage := .asking (attempt + 1) })
    else s.failed cfg pattern pass.origin error

/-- `install_if_notification_epoch`: in a bootstrap `ready` is set with the view, and
the generation is compared afterwards. -/
def install (s : LeaseObserver) (pass : ListPass) : LeaseObserver :=
  if s.epoch = pass.epoch then
    { s.goto (if pass.origin = .bootstrap then .comparing else .pollShutdown) with
      view := pass.fresh
      installed := pass.pages
      ready := s.ready || pass.origin = .bootstrap }
  else s.goto (.passing { pass with stage := .starting })

/-- One item of `drain_invalidation_buffer`. -/
def drain (s : LeaseObserver) (pass : ListPass) (invalidated : Bool) : LeaseObserver :=
  match s.peek with
  | .pending => s.goto (.passing { pass with stage := if invalidated then .starting else .drained })
  | .lagged => s.take.failed cfg pattern pass.origin lagError
  | .skipped => s.take
  | .ready (.ok _) => s.take.goto (.passing { pass with stage := .draining true })
  | .ready (.error error) => s.take.failed cfg pattern pass.origin error

def passStep (s : LeaseObserver) (pass : ListPass) : LeaseObserver :=
  match pass.stage with
  | .starting =>
    s.goto (.passing { pass with
      stage := .asking 1, epoch := s.epoch, cursor := none, fresh := [], pages := [] })
  | .asking attempt => s.ask cfg pattern pageSize pass attempt
  | .awaiting .. => s
  | .draining invalidated => s.drain cfg pattern pass invalidated
  | .drained => s.install pass

/-! ## The steady state -/

/-- The notification arm of the `select!`. -/
def receive (s : LeaseObserver) : LeaseObserver :=
  match s.peek with
  | .pending => s.goto .pollTimer
  | .lagged => s.take.replace cfg pattern .steadyState
  | .skipped => s.take
  | .ready (.ok _) => s.take.reconcile .invalidation
  | .ready (.error error) =>
    if error = .closed then s.take.leave cfg pattern else s.take.replace cfg pattern .steadyState

/-! ## Steps -/

def observe (s : LeaseObserver) : LeaseObserver :=
  let generation := s.conn.shared.generation
  match s.pc with
  | .resubscribing subscriber => s.subscribe cfg pattern subscriber
  | .looping =>
    if s.cancelled ∨ s.conn.task.sup.closeRequested then s.leave cfg pattern
    else { s.reconcile .bootstrap with baseline := generation }
  | .pausing => s.reconcile .bootstrap
  | .passing pass => s.passStep cfg pattern pageSize pass
  | .comparing => if generation = s.baseline then s.goto .watching else s.reconnected
  | .watching =>
    if generation = s.baseline then { s.goto .pollShutdown with seen := s.conn.bumps }
    else s.reconnected
  | .pollShutdown => if s.cancelled then s.leave cfg pattern else s.goto .pollGeneration
  | .pollGeneration =>
    if s.conn.bumps = s.seen then s.goto .pollNotification
    else if generation = s.baseline then { s.goto .pollShutdown with seen := s.conn.bumps }
    else s.reconnected
  | .pollNotification => s.receive cfg pattern
  | .pollTimer => s.goto .waiting
  | .waiting => s.goto .pollShutdown
  | _ => s

def returned (s : LeaseObserver) (error : FitzError) : LeaseObserver :=
  match s.pc with
  | .subscribing subscriber mark t =>
    (s.endCall cfg t).subscribed cfg pattern subscriber mark ((s.settled t).getD (.error error))
  | .unsubscribing subscriber t => (s.endCall cfg t).goto (.resubscribing subscriber)
  | .passing pass =>
    match pass.stage with
    | .awaiting attempt t =>
      (s.endCall cfg t).listed cfg policy pattern pass attempt t ((s.settled t).getD (.error error))
    | _ => s
  | .leaving t => (s.endCall cfg t).goto .done
  | _ => s

/-- `reconcile_after_invalidation` is not in a `select!` with the token. -/
def stop (s : LeaseObserver) : LeaseObserver :=
  match s.pc with
  | .passing pass =>
    if pass.origin = .bootstrap then
      match pass.stage with
      | .awaiting _ t => (s.dropCall cfg t).leave cfg pattern
      | .starting | .asking _ => s.leave cfg pattern
      -- there is no suspension here
      | .draining _ | .drained => s
    else s
  | .subscribing subscriber _ t =>
    if subscriber = .observe then s else (s.dropCall cfg t).leave cfg pattern
  | .unsubscribing _ t => (s.dropCall cfg t).leave cfg pattern
  | .resubscribing _ | .pausing => s.leave cfg pattern
  | _ => s

/-- The supervisor does nothing else within `publish_notification`, and the observer
ends its calls itself. -/
def permits (s : LeaseObserver) : Event → Bool
  | .resume t | .abandon t => s.awaited ≠ some t
  | e => s.idle || !e.supervised

def step (s : LeaseObserver) : LeaseObserverEvent → LeaseObserver
  | .conn e => if s.permits e then { s with conn := s.conn.step cfg e } else s
  | .broadcast => if s.idle then s else { s with sent := s.sent + 1 }
  | .start =>
    match s.pc, Topic.lease.validate pattern with
    | .idle, .ok () => s.subscribe cfg pattern .observe
    | _, _ => s
  | .observe => s.observe cfg pattern pageSize
  | .returned error => s.returned cfg policy pattern error
  | .tick =>
    match s.pc with
    | .pollTimer => s.reconcile .periodic
    | _ => s
  | .shutdown => { s with cancelled := true }
  | .stop => if s.cancelled then s.stop cfg pattern else s

end LeaseObserver

end Fitz
