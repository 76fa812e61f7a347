import Fitz.Model.Subscription

/-!
# The lease observer

`observe_loop` and what it calls (`src/client_domains/lease.rs`) within one session,
beside the supervisor's dispatch of LEASE_NOTIFY frames and LIST replies
(`src/async_connection.rs`). `publish_notification` is two steps, the epoch and the
broadcast, and the supervisor dispatches nothing between them. The observer reads
the epoch, pages LIST to the end, drains its receiver and installs the pages if the
epoch has not moved; each is a step, and a drain is a step for each item.

`published` has the LEASE_NOTIFY payloads in order, and a receiver is a position in
it. The backoffs and the reconciliation interval are not modelled: the timer may fire
whenever it is polled. The generation does not change within a session.
-/

namespace Fitz

/-! ## LIST -/

structure LeaseListItem where
  route : String
  ownerId : String
  holderIncarnation : UInt64
  acquiredAt : String
  expiresInSecs : UInt64
  renewals : UInt32
  deriving DecidableEq

structure LeaseListCursor where
  snapshotId : UInt64
  offset : UInt32
  deriving DecidableEq

structure LeaseListPage where
  items : List LeaseListItem
  nextCursor : Option LeaseListCursor
  deriving DecidableEq

/-- The request of `list`. -/
def listPayload (pattern : String) (cursor : Option LeaseListCursor) (limit : UInt32) : Bytes :=
  putString pattern ++
    (match cursor with
      | some cursor => putU8 1 ++ putU64 cursor.snapshotId ++ putU32 cursor.offset
      | none => putU8 0) ++
    putU32 limit

def listItem : Decode LeaseListItem := do
  return ⟨← getString, ← getString, ← getU64, ← getString, ← getU64, ← getU32⟩

def listItems : ℕ → Decode (List LeaseListItem)
  | 0 => return []
  | n + 1 => do return (← listItem) :: (← listItems n)

def decodeListPage : Decode LeaseListPage := do
  let items ← listItems (← getU32).toNat
  let hasNext ← getU8
  let nextCursor ←
    if hasNext = 0 then pure none
    else if hasNext = 1 then pure (some ⟨← getU64, ← getU32⟩)
    else throw (.protocol ("Lease LIST response has invalid has_next byte " ++ toString hasNext))
  if !(← isEmpty) then throw (.protocol "Lease LIST response has trailing bytes")
  return ⟨items, nextCursor⟩

/-- What `list` makes of the answer to its request. -/
def listAnswer (answer : Result Bytes) : Result LeaseListPage := do
  Decode.on (do leaseSuccess "LIST"; decodeListPage) (← answer)

/-- `items.insert(item.route.clone(), item)`. -/
def insertItem (items : List LeaseListItem) (item : LeaseListItem) : List LeaseListItem :=
  items.filter (fun other => other.route ≠ item.route) ++ [item]

/-! ## The observer -/

/-- Who called for a LIST pass. -/
inductive PassOrigin
  | bootstrap
  /-- a notification, in the steady state -/
  | invalidation
  /-- the timer, in the steady state -/
  | periodic
  deriving DecidableEq

inductive PassStage
  /-- about to read the epoch -/
  | starting
  /-- awaits the page at this cursor -/
  | listing (cursor : Option LeaseListCursor)
  | draining (invalidated : Bool)
  /-- the buffer was empty -/
  | drained
  deriving DecidableEq

/-- A run of the loop of `bootstrap` or `reconcile_after_invalidation`. -/
structure Pass where
  origin : PassOrigin
  stage : PassStage
  epoch : UInt64
  fresh : List LeaseListItem
  /-- how many notifications were broadcast when the epoch was read -/
  since : ℕ
  /-- it has drained a notification of the registration, in this turn of the loop or
  an earlier one -/
  consumed : Bool
  deriving DecidableEq

inductive ObserverPc
  | passing (pass : Pass)
  /-- at the `select!` of the steady state -/
  | steady
  /-- the `select!` is pending; `mark` notifications were broadcast by then -/
  | waiting (mark : ℕ)
  /-- `replace_observer_subscription` -/
  | replacing
  /-- it subscribes with a receiver from `mark` on -/
  | subscribing (mark : ℕ)
  | done
  deriving DecidableEq

structure Observing where
  published : List Bytes
  /-- how many of them are broadcast -/
  sent : ℕ
  epoch : UInt64
  /-- the wire id of the subscription -/
  wireId : UInt64
  /-- what its receiver reads next -/
  next : ℕ
  /-- the LIST requests, and what the last of them was answered -/
  asked : List Bytes
  answer : Option (Result Bytes)
  view : List LeaseListItem
  ready : Bool
  /-- of the installed view, the `since` of its pass -/
  since : Option ℕ
  pc : ObserverPc
  deriving DecidableEq

inductive ObserverEvent
  /-- `publish_notification` moves the epoch -/
  | publish (payload : Bytes)
  /-- and broadcasts -/
  | broadcast
  /-- the supervisor dispatches the reply to the LIST request -/
  | reply (response : Bytes)
  /-- the LIST request fails otherwise -/
  | fail (error : FitzError)
  /-- the observer goes on -/
  | observe
  /-- the reconciliation timer fires -/
  | tick
  | resubscribe
  | subscribed (wireId : UInt64)
  | notSubscribed (error : FitzError)
  | shutdown
  deriving DecidableEq

/-- What `poll_next` makes of the next item of the receiver. -/
inductive LeasePoll
  | pending
  | lagged
  | skipped
  | ready (item : Result Notification)
  deriving DecidableEq

def subscriptionMustBeReplaced : FitzError → Bool
  | .backpressure _ | .connectionClosed => true
  | _ => false

def lagError : FitzError := .backpressure "Lease subscription buffer is full"

namespace Observing

/-- The observer's task starts with what its receiver got while `subscribe` awaited
its reply. -/
def new (epoch wireId : UInt64) (buffered : List Bytes) : Observing :=
  ⟨buffered, buffered.length, epoch, wireId, 0, [], none, [], false, none,
    .passing ⟨.bootstrap, .starting, 0, [], 0, false⟩⟩

def goto (s : Observing) (pc : ObserverPc) : Observing := { s with pc := pc }

/-- A loop of passes begins. -/
def reconcile (s : Observing) (origin : PassOrigin) : Observing :=
  s.goto (.passing ⟨origin, .starting, 0, [], 0, false⟩)

/-- The supervisor has finished its last `publish_notification`. -/
def idle (s : Observing) : Bool := s.sent = s.published.length

/-- The next item of the receiver. A lease notification holds no JSON. -/
def peek (s : Observing) : LeasePoll :=
  if s.sent > s.next + notificationCapacity then .lagged
  else if s.next < s.sent then
    match pollItem (fun _ => .error "") .lease s.wireId (s.published.getD s.next []) with
    | .skipped => .skipped
    | .ready item => .ready item
  else .pending

/-- The receiver moves past it. -/
def take (s : Observing) : Observing :=
  match s.peek with
  | .pending => s
  | .lagged => { s with next := s.sent - notificationCapacity }
  | .skipped | .ready _ => { s with next := s.next + 1 }

/-- The subscription failed: the view is not ready until another is made. -/
def replace (s : Observing) : Observing := { s.goto .replacing with ready := false }

/-- `bootstrap` or `reconcile_after_invalidation` returned an error. -/
def failed (s : Observing) (origin : PassOrigin) (error : FitzError) : Observing :=
  if error = .closed then s.goto .done
  else if subscriptionMustBeReplaced error then s.replace
  else
    match origin with
    | .bootstrap => s.reconcile .bootstrap
    | .invalidation => { s.reconcile .bootstrap with ready := false }
    | .periodic => s.goto .steady

/-- The next page is asked for. -/
def ask (s : Observing) (pattern : String) (pageSize : UInt32) (pass : Pass)
    (cursor : Option LeaseListCursor) : Observing :=
  { s.goto (.passing { pass with stage := .listing cursor }) with
    asked := s.asked ++ [listPayload pattern cursor pageSize], answer := none }

/-- `install_if_notification_epoch`. -/
def install (s : Observing) (pass : Pass) : Observing :=
  if s.epoch = pass.epoch then
    { s.goto .steady with
      view := pass.fresh, since := some pass.since, ready := s.ready || pass.origin = .bootstrap }
  else s.goto (.passing { pass with stage := .starting })

/-- One item of `drain_invalidation_buffer`. -/
def drain (s : Observing) (pass : Pass) (invalidated : Bool) : Observing :=
  match s.peek with
  | .pending =>
    s.goto (.passing { pass with stage := if invalidated then .starting else .drained })
  | .lagged => s.take.failed pass.origin lagError
  | .skipped => s.take
  | .ready (.ok _) => s.take.goto (.passing { pass with stage := .draining true, consumed := true })
  | .ready (.error error) => s.take.failed pass.origin error

def passStep (pattern : String) (pageSize : UInt32) (s : Observing) (pass : Pass) : Observing :=
  match pass.stage with
  | .starting =>
    s.ask pattern pageSize { pass with epoch := s.epoch, since := s.sent, fresh := [] } none
  | .listing _ =>
    match s.answer with
    | none => s
    | some answer =>
      match listAnswer answer with
      | .error error => s.failed pass.origin error
      | .ok page =>
        let pass := { pass with fresh := page.items.foldl insertItem pass.fresh }
        match page.nextCursor with
        | some cursor => s.ask pattern pageSize pass (some cursor)
        | none => s.goto (.passing { pass with stage := .draining false })
  | .draining invalidated => s.drain pass invalidated
  | .drained => s.install pass

/-- The notification arm of the `select!`. -/
def receive (s : Observing) : Observing :=
  match s.peek with
  | .pending => s.goto (.waiting s.sent)
  | .lagged => s.take.replace
  | .skipped => s.take.goto .steady
  | .ready (.ok _) => s.take.reconcile .invalidation
  | .ready (.error error) => if error = .closed then s.take.goto .done else s.take.replace

def observe (pattern : String) (pageSize : UInt32) (s : Observing) : Observing :=
  match s.pc with
  | .passing pass => s.passStep pattern pageSize pass
  | .steady | .waiting _ => s.receive
  | _ => s

/-- The observer awaits the answer to a LIST request. -/
def listening (s : Observing) : Bool :=
  match s.pc, s.answer with
  | .passing ⟨_, .listing _, _, _, _, _⟩, none => true
  | _, _ => false

/-- Where `shutdown` is watched: not within `reconcile_after_invalidation`. -/
def shutdown (s : Observing) : Observing :=
  match s.pc with
  | .passing pass => if pass.origin = .bootstrap then s.goto .done else s
  | _ => s.goto .done

def step (pattern : String) (pageSize : UInt32) (s : Observing) : ObserverEvent → Observing
  | .publish payload =>
    if s.idle then { s with published := s.published ++ [payload], epoch := s.epoch + 1 } else s
  | .broadcast => if s.idle then s else { s with sent := s.sent + 1 }
  | .reply response => if s.idle ∧ s.listening then { s with answer := some (.ok response) } else s
  | .fail error => if s.listening then { s with answer := some (.error error) } else s
  | .observe => s.observe pattern pageSize
  | .tick =>
    match s.pc with
    | .waiting _ => s.reconcile .periodic
    | _ => s
  | .resubscribe =>
    match s.pc with
    | .replacing => s.goto (.subscribing s.sent)
    | _ => s
  | .subscribed wireId =>
    match s.pc with
    | .subscribing mark => { s.reconcile .bootstrap with wireId := wireId, next := mark }
    | _ => s
  | .notSubscribed error =>
    match s.pc with
    | .subscribing _ => s.goto (if error = .closed then .done else .replacing)
    | _ => s
  | .shutdown => s.shutdown

end Observing

end Fitz
