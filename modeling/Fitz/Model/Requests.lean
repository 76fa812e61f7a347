import Fitz.Model.Domains
import Fitz.Model.Enqueue
import Fitz.Model.LeaseObserver
import Fitz.Model.Pages
import Fitz.Model.Responding
import Fitz.Model.Worker

/-!
# The requests of the domain clients

What each public operation of the domain clients (`src/client_domains`) puts into its
frame: its checks, its message type, its flags and its payload. The requests that other
parts of the model make are taken from there; the rest is here.
-/

namespace Fitz

open BigEndian

namespace MessageType

def rpcSubscribe : UInt16 := 300
def rpcUnsubscribe : UInt16 := 301
def rpcRequest : UInt16 := 302
def leaseQuery : UInt16 := 403
def noticePublish : UInt16 := 500
def noticeUnsubscribeAll : UInt16 := 503
def streamRead : UInt16 := 604
def streamLast : UInt16 := 605
def streamGetMetadata : UInt16 := 606
def scheduleCreate : UInt16 := 700
def scheduleCancel : UInt16 := 701
def scheduleListPage : UInt16 := 702
def scheduleCreateBatch : UInt16 := 706

end MessageType

/-- The sixteen bytes of a UUID. -/
structure CorrelationId where
  bytes : Bytes
  length_eq : bytes.length = 16
  deriving DecidableEq

/-! ## Schedule -/

def ScheduleDeliveryMode.byte : ScheduleDeliveryMode → UInt8
  | .broadcast => 0
  | .single => 1

/-- What CREATE and CREATE_BATCH write for an entry. -/
def ScheduleEntry.fields (entry : ScheduleEntry) : Bytes :=
  putString entry.route ++ putString entry.cron ++ putU8 entry.deliveryMode.byte ++
    putBytes entry.payload

/-- The loop of `create_batch`. -/
def createBatchEntries : List ScheduleEntry → Result Bytes
  | [] => .ok []
  | entry :: entries => do
    validateFixedRoute entry.route "schedule" 4
    let rest ← createBatchEntries entries
    return entry.fields ++ rest

def createBatchPayload (entries : List ScheduleEntry) : Result Bytes := do
  if entries.length ≥ 2 ^ 32 then throw (.frameTooLarge entries.length)
  let fields ← createBatchEntries entries
  return toBe 4 entries.length ++ fields

/-! ## Notice -/

/-- What `publish` and `publish_with_ack` write. -/
def publishPayload (route : String) (body : Bytes) : Result Bytes := do
  validateFixedRoute route "notice" 3
  if body.length ≥ 2 ^ 32 then throw (.frameTooLarge body.length)
  return putString route ++ toBe 4 body.length ++ body

/-! ## Stream -/

structure StreamReadOptions where
  maxBytes : Option UInt64
  filter : Option StreamFilterSet
  cursorFingerprint : Option UInt64
  capturedWatermark : Option UInt64
  deriving DecidableEq

def StreamFilterSet.isEmpty (filter : StreamFilterSet) : Bool := filter.clauses.isEmpty

def optionalU64 : Option UInt64 → Bytes
  | some value => putU8 1 ++ putU64 value
  | none => putU8 0

/-- The filter of a READ, if it has clauses. -/
def filterField (filter : Option StreamFilterSet) : Result Bytes :=
  match filter.filter fun v => !v.isEmpty with
  | some filter => do
    let bytes ← encodeStreamFilterSet filter
    return putU8 1 ++ putBytes bytes
  | none => .ok (putU8 0)

def readPagePayload (route : String) (startOffset limit : UInt64) (options : StreamReadOptions) :
    Result Bytes := do
  validateStreamSelector route
  let filter ← filterField options.filter
  return putString route ++ putU64 startOffset ++ putU64 limit ++ optionalU64 options.maxBytes ++
    filter ++ optionalU64 options.cursorFingerprint ++ optionalU64 options.capturedWatermark

/-! ## RPC -/

/-- A day, and a millisecond, in nanoseconds. -/
def day : ℕ := 86400 * 10 ^ 9
def millisecond : ℕ := 10 ^ 6

/-- The budget of a call in milliseconds: what is left of the timeout when the payload is
written, so many nanoseconds after the deadline was set. -/
def budgetMs (timeout elapsed : ℕ) : UInt32 :=
  UInt32.ofNat (min ((timeout - elapsed) / millisecond) 86400000)

def callPayload (correlationId : CorrelationId) (route : String) (body : Bytes)
    (timeout : Option ℕ) (elapsed : ℕ) : Result Bytes := do
  validateConcreteRoute route "rpc"
  if timeout.any (day < ·) then throw (.protocol "RPC timeout must not exceed one day")
  return correlationId.bytes ++ putString route ++ putBytes body ++
    match timeout with
    | some timeout => putU8 1 ++ putU32 (budgetMs timeout elapsed)
    | none => putU8 0

def registerPayload (pattern : String) (maxConcurrency : UInt32) : Result Bytes := do
  validateRegistrationPattern pattern "rpc" 0
  validateWorkerConcurrency maxConcurrency
  return putString pattern ++ putU32 maxConcurrency ++ putU8 1

/-- What `respond` writes. -/
def respondPayload (correlationId : CorrelationId) (sequence : UInt64) (isEnd : Bool)
    (body : Bytes) : Bytes :=
  correlationId.bytes ++ putU64 sequence ++ putU8 (if isEnd then 1 else 0) ++ putBytes body

/-- What `send_cancellation_message` writes. -/
def cancellationPayload (correlationId : CorrelationId) (reason : UInt8) : Bytes :=
  putU8 1 ++ correlationId.bytes ++ putU8 reason

/-- What `finish_cleanup` writes. -/
def cleanupPayload (correlationId : CorrelationId) : Bytes := putU8 3 ++ correlationId.bytes

/-! ## All requests -/

/-- A call that sends a frame, with what it writes of its arguments and of its handle. -/
inductive DomainCall
  | opening (opening : Opening)
  | operation (handle : Handle) (operation : Operation)
  | subscribe (topic : Topic) (pattern : String)
  /-- of the last handle for the pattern, whose registration has this wire id -/
  | unsubscribe (topic : Topic) (pattern : String) (wireId : UInt64)
  | enqueue (route : String) (body : Bytes) (options : QueueEnqueueOptions)
  | leaseList (pattern : String) (cursor : Option LeaseListCursor) (limit : UInt32)
  | leaseQuery (route : String)
  | publish (route : String) (body : Bytes)
  | publishWithAck (route : String) (body : Bytes)
  | unsubscribeAll
  | readPage (route : String) (startOffset limit : UInt64) (options : StreamReadOptions)
  | peek (route : String)
  | metadata (route : String)
  | create (entry : ScheduleEntry)
  | createBatch (entries : List ScheduleEntry)
  | listV2 (continuation : Option String) (limit : Option UInt64)
  | cancelSchedule (route : String)
  | call (correlationId : CorrelationId) (route : String) (body : Bytes) (timeout : Option ℕ)
      (elapsed : ℕ)
  | registerWorker (pattern : String) (maxConcurrency : UInt32)
  | deregister (pattern : String)
  | respond (correlationId : CorrelationId) (sequence : UInt64) (isEnd : Bool) (body : Bytes)
  | cancelCall (correlationId : CorrelationId) (reason : UInt8)
  | cleanup (correlationId : CorrelationId)

/-- What the call asks the connection to send; nothing if it makes no request. -/
def DomainCall.frame (sh : Shared) : DomainCall → Result (Option RequestFrame)
  | .opening o => do
    let (messageType, payload) ← o.request
    return some ⟨messageType, payload, 0⟩
  | .operation h op =>
    .ok ((h.request op).map fun (messageType, payload) => ⟨messageType, payload, 0⟩)
  | .subscribe topic pattern => do
    topic.validate pattern
    return some ⟨topic.subscribeType, putString pattern, 0⟩
  | .unsubscribe topic pattern wireId =>
    .ok (some ⟨topic.unsubscribeType,
      match topic with
      | .notice => putU64 wireId
      | _ => putString pattern, 0⟩)
  | .enqueue route body options => do
    let frame ← enqueueFrame sh route body options
    return some frame
  | .leaseList pattern cursor limit => do
    validateRegistrationPattern pattern "lease" 3
    return some ⟨MessageType.leaseList, listPayload pattern cursor limit, 0⟩
  | .leaseQuery route => do
    validateFixedRoute route "lease" 3
    return some ⟨MessageType.leaseQuery, putString route, 0⟩
  | .publish route body => do
    let payload ← publishPayload route body
    return some ⟨MessageType.noticePublish, payload, 0⟩
  | .publishWithAck route body => do
    let payload ← publishPayload route body
    return some ⟨MessageType.noticePublish, payload, ackRequested⟩
  | .unsubscribeAll => .ok (some ⟨MessageType.noticeUnsubscribeAll, [], 0⟩)
  | .readPage route startOffset limit options => do
    let payload ← readPagePayload route startOffset limit options
    return some ⟨MessageType.streamRead, payload, 0⟩
  | .peek route => do
    validateFixedRoute route "stream" 3
    return some ⟨MessageType.streamLast, putString route, 0⟩
  | .metadata route => do
    validateFixedRoute route "stream" 3
    return some ⟨MessageType.streamGetMetadata, putString route, 0⟩
  | .create entry => do
    validateFixedRoute entry.route "schedule" 4
    return some ⟨MessageType.scheduleCreate, entry.fields, 0⟩
  | .createBatch entries => do
    let payload ← createBatchPayload entries
    return some ⟨MessageType.scheduleCreateBatch, payload, 0⟩
  | .listV2 continuation limit =>
    .ok (some ⟨MessageType.scheduleListPage, listV2Payload continuation limit, 0⟩)
  | .cancelSchedule route => do
    validateFixedRoute route "schedule" 4
    return some ⟨MessageType.scheduleCancel, putString route, 0⟩
  | .call correlationId route body timeout elapsed => do
    let payload ← callPayload correlationId route body timeout elapsed
    return some ⟨MessageType.rpcRequest, payload, 0⟩
  | .registerWorker pattern maxConcurrency => do
    let payload ← registerPayload pattern maxConcurrency
    return some ⟨MessageType.rpcSubscribe, payload, 0⟩
  | .deregister pattern => .ok (some ⟨MessageType.rpcUnsubscribe, putString pattern, 0⟩)
  | .respond correlationId sequence isEnd body =>
    .ok (some ⟨MessageType.rpcResponse, respondPayload correlationId sequence isEnd body, 0⟩)
  | .cancelCall correlationId reason =>
    .ok (some ⟨MessageType.rpcCancel, cancellationPayload correlationId reason, 0⟩)
  | .cleanup correlationId => .ok (some ⟨MessageType.rpcCancel, cleanupPayload correlationId, 0⟩)

/-- The bytes on the wire, under the correlation id the connection gives the frame. -/
def DomainCall.wire (sh : Shared) (correlationId : UInt64) (c : DomainCall) :
    Result (Option Bytes) := do
  match ← c.frame sh with
  | none => return none
  | some f =>
    let bytes ← encodeOutbound sh f.messageType f.flags correlationId f.payload
    return some bytes

end Fitz
