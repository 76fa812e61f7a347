import Fitz.Model.Connection
import Fitz.Model.Routes

/-!
# Stateful handles

`KvTransaction`, `StreamSession`, `LeaseHandle` and `QueueItem`
(`src/client_domains`): the requests that open them, what is built from the
response and the generation read then, the staleness checks, and the request each
operation makes. `Handles` runs them over a connection, one event a step of one
party: reading the generation when a handle is built, the check, and the call of
`request_with_flags` with its own reads are separate steps.
-/

namespace Fitz

namespace MessageType

def kvBegin : UInt16 := 100
def kvCommit : UInt16 := 101
def kvRollback : UInt16 := 102
def kvGet : UInt16 := 103
def kvPut : UInt16 := 104
def kvInsert : UInt16 := 105
def kvDelete : UInt16 := 106
def kvDeleteRange : UInt16 := 107
def kvScan : UInt16 := 108
def queueReserve : UInt16 := 202
def queueExtend : UInt16 := 203
def queueComplete : UInt16 := 204
def queueNack : UInt16 := 210
def leaseAcquire : UInt16 := 400
def leaseRenew : UInt16 := 401
def leaseRelease : UInt16 := 402
def streamBegin : UInt16 := 600
def streamAppend : UInt16 := 601
def streamCommit : UInt16 := 602
def streamRollback : UInt16 := 603

end MessageType

/-! ## Responses -/

def decodeDomainError : Decode FitzError := do
  let code ← getU16
  let cls ← getU8
  let effect ← getU8
  let message ← getString
  if cls > 10 ∨ effect > 2 ∨ !(← isEmpty) then
    throw (.protocol "invalid common domain error envelope")
  return .domainWire code cls effect message

/-- The status byte of a response: zero, a domain error, or a protocol error
under the name of the operation. -/
def success (operation : String) : Decode Unit := do
  let status ← getU8
  if status = 0 then return
  else if status = 1 then throw (← decodeDomainError)
  else throw (.protocol (operation ++ " returned status " ++ toString status))

def decodeOk (response : Bytes) : Result Unit :=
  Decode.on (do
    let status ← getU8
    if status = 0 then return
    else if status = 1 then throw (← decodeDomainError)
    else throw (.protocol ("unknown response status " ++ toString status))) response

def leaseSuccess (operation : String) : Decode Unit := success ("Lease " ++ operation)

/-- `success_decoder` of the queue domain. -/
def queueSuccess (operation : String) : Decode Unit := success ("Queue " ++ operation)

def decodeQueuePlainOk (response : Bytes) : Result Unit :=
  Decode.on (do
    queueSuccess "operation"
    if !(← isEmpty) then
      throw (.protocol "Queue response has trailing bytes")) response

structure StreamResponsePayload where
  sessionId : Option UInt64
  data : Bytes

/-- `decode_stream_response`. -/
def decodeStreamResponse (operation : String) (buf : Bytes) : Result StreamResponsePayload :=
  Decode.on (do
    let status ← getU8
    if status = 0 then
      if operation = "BEGIN" then return ⟨some (← getU64), ← getBytes⟩
      else if operation = "APPEND" ∨ operation = "COMMIT" then return ⟨none, ← getBytes⟩
      else if operation = "ROLLBACK" ∨ operation = "UNSUBSCRIBE" then return ⟨none, []⟩
      else if operation = "LAST" ∨ operation = "METADATA" then return ⟨none, buf.drop 1⟩
      else
        let hasSessionId ← getU8
        if hasSessionId = 0 then return ⟨none, ← getBytes⟩
        else if hasSessionId = 1 then return ⟨some (← getU64), ← getBytes⟩
        else
          throw (.protocol (operation ++ " response has invalid optional-id flag: " ++
            toString hasSessionId))
    else if status = 1 then
      let code ← getU16
      let cls ← getU8
      let effect ← getU8
      let message ← getString
      if cls > 10 ∨ effect > 2 then
        throw (.protocol (operation ++ " error response has invalid class or effect"))
      if (← remaining) ≠ 0 then
        throw (.protocol (operation ++ " error response has trailing data"))
      throw (.domainWire code cls effect (operation ++ " failed: " ++ message))
    else
      throw (.protocol (operation ++ " failed with unknown status byte: " ++ toString status))) buf

/-! ## Handles -/

inductive TransactionMode
  | readOnly
  | readWrite
  deriving DecidableEq

def TransactionMode.byte : TransactionMode → UInt8
  | .readOnly => 0
  | .readWrite => 1

/-- `KvDurability` and `StreamCommitMode`. -/
inductive Durability
  | buffered
  | sync
  deriving DecidableEq

def Durability.byte : Durability → UInt8
  | .buffered => 0
  | .sync => 1

def optionalBytes : Option Bytes → Bytes
  | some value => putU8 1 ++ putBytes value
  | none => putU8 0

structure KvTransaction where
  generation : UInt64
  transactionId : UInt64
  route : String
  closed : Bool
  deriving DecidableEq

structure StreamSession where
  generation : UInt64
  sessionId : UInt64
  active : Bool
  deriving DecidableEq

structure LeaseHandle where
  generation : UInt64
  route : String
  ownerId : String
  fencingToken : UInt64
  released : Bool
  deriving DecidableEq

/-- The state is 0 open, 1 claimed by a call, 2 done. -/
structure QueueItem where
  generation : UInt64
  route : String
  id : UInt64
  token : UInt64
  body : Bytes
  state : UInt8
  deriving DecidableEq

/-- A handle whose flag allows it is current while the generation is its own. -/
def fence (usable : Bool) (own generation : UInt64) : Result Unit :=
  if usable && generation == own then .ok () else .error .staleHandle

def KvTransaction.ensureOpen (h : KvTransaction) (generation : UInt64) : Result Unit :=
  fence (!h.closed) h.generation generation

def StreamSession.current (h : StreamSession) (generation : UInt64) : Result Unit :=
  fence h.active h.generation generation

def LeaseHandle.current (h : LeaseHandle) (generation : UInt64) : Result Unit :=
  fence (!h.released) h.generation generation

def QueueItem.ensureCurrent (h : QueueItem) (generation : UInt64) : Result Unit :=
  fence (h.state == 0) h.generation generation

inductive Handle
  | kv (h : KvTransaction)
  | stream (h : StreamSession)
  | lease (h : LeaseHandle)
  | queue (h : QueueItem)
  deriving DecidableEq

namespace Handle

def generation : Handle → UInt64
  | .kv h => h.generation
  | .stream h => h.generation
  | .lease h => h.generation
  | .queue h => h.generation

def check (h : Handle) (generation : UInt64) : Result Unit :=
  match h with
  | .kv h => h.ensureOpen generation
  | .stream h => h.current generation
  | .lease h => h.current generation
  | .queue h => h.ensureCurrent generation

end Handle

/-! ## Opening a handle -/

/-- `KvClient::begin`, `StreamClient::begin`, `LeaseClient::acquire` and
`QueueClient::reserve`, with their arguments. -/
inductive Opening
  | kvBegin (route : String) (mode : TransactionMode)
  | streamBegin (route : String) (ingestMetadata : Option Bytes)
  | leaseAcquire (route ownerId : String) (ttlSecs : UInt64) (waitSeconds : UInt32)
  | queueReserve (route : String) (leaseSeconds : UInt64) (batchSize : UInt32)
      (waitSeconds : Option UInt64)
  deriving DecidableEq

/-- The request, if the route is accepted. -/
def Opening.request : Opening → Result (UInt16 × Bytes)
  | .kvBegin route mode => do
    validateFixedRoute route "kv" 3
    return (MessageType.kvBegin, putString route ++ putU8 mode.byte)
  | .streamBegin route ingestMetadata => do
    validateFixedRoute route "stream" 3
    return (MessageType.streamBegin,
      putString route ++ optionalBytes (ingestMetadata.filter fun v => !v.isEmpty))
  | .leaseAcquire route ownerId ttlSecs waitSeconds => do
    validateFixedRoute route "lease" 3
    return (MessageType.leaseAcquire,
      putString route ++ putString ownerId ++ putU64 ttlSecs ++ putU32 waitSeconds)
  | .queueReserve route leaseSeconds batchSize waitSeconds => do
    validateRegistrationPattern route "queue" 3
    return (MessageType.queueReserve,
      putString route ++ putU64 leaseSeconds ++ putU8 1 ++ putU32 (max batchSize 1) ++
        match waitSeconds.filter (0 < ·) with
        | some wait => putU8 1 ++ putU64 wait
        | none => putU8 0)

/-- The route of one reserved item: a reservation under a pattern names it. -/
def reservedRoute (route : String) : Decode String :=
  if star ∈ route.toUTF8.toList then do
    let concrete ← getString
    MonadExcept.ofExcept (validateResponseFixedRoute concrete "queue" 3 "RESERVE")
    return concrete
  else return route

/-- The items of a RESERVE response. -/
def reservedItems (route : String) (generation : UInt64) : ℕ → Decode (List QueueItem)
  | 0 => return []
  | count + 1 => do
    let concreteRoute ← reservedRoute route
    let item : QueueItem := ⟨generation, concreteRoute, ← getU64, ← getU64, ← getBytes, 0⟩
    return item :: (← reservedItems route generation count)

/-- What an ACQUIRE response says: a token, or to wait for the completion. -/
def acquireKind (waitSeconds : UInt32) (response : Bytes) : Result (Option UInt64) :=
  Decode.on (do
    leaseSuccess "ACQUIRE"
    let kind ← getU8
    if kind = 3 then throw .leaseAlreadyQueued
    else if kind < 2 then return some (← getU64)
    else if kind = 2 ∧ waitSeconds > 0 then return none
    else throw (.domainWire 5050 0 0 "lease acquisition queued")) response

/-- The token of a deferred completion. -/
def completionToken (payload : Bytes) : Result UInt64 :=
  Decode.on (do
    leaseSuccess "ACQUIRE"
    if (← getU8) > 1 then throw (.protocol "deferred ACQUIRE remained queued")
    getU64) payload

/-- The handles built from a response, with the generation read at that moment.
`completion` is what the deferred receiver of an ACQUIRE returns; without it a
queued acquisition still waits. -/
def Opening.handles (o : Opening) (generation : UInt64) (response : Bytes)
    (completion : Option (Result Bytes)) : Option (Result (List Handle)) :=
  match o with
  | .kvBegin route _ =>
    some (Decode.on (do
      success "KV BEGIN"
      return [.kv ⟨generation, ← getU64, route, false⟩]) response)
  | .streamBegin _ _ =>
    some (do
      let decoded ← decodeStreamResponse "BEGIN" response
      match decoded.sessionId with
      | some sessionId => return [.stream ⟨generation, sessionId, true⟩]
      | none => throw (.protocol "BEGIN response missing session id"))
  | .leaseAcquire route ownerId _ waitSeconds =>
    match acquireKind waitSeconds response with
    | .error error => some (.error error)
    | .ok (some token) => some (.ok [.lease ⟨generation, route, ownerId, token, false⟩])
    | .ok none => completion.map fun r => do
      let token ← completionToken (← r)
      return [.lease ⟨generation, route, ownerId, token, false⟩]
  | .queueReserve route _ _ _ =>
    some (Decode.on (do
      queueSuccess "RESERVE"
      if ← isEmpty then return []
      let count ← getU32
      return (← reservedItems route generation count.toNat).map .queue) response)

/-! ## Operations -/

structure KvScanOptions where
  startKey : Option Bytes
  endKey : Option Bytes
  limit : Option UInt32
  reverse : Bool
  startExclusive : Bool
  deriving DecidableEq

inductive Operation
  | kvGet (key : Bytes)
  | kvPut (key value : Bytes)
  | kvInsert (key value : Bytes)
  | kvDelete (key : Bytes)
  | kvDeleteRange (startKey endKey : Bytes)
  | kvScan (options : KvScanOptions)
  | kvCommit (durability : Durability)
  | kvRollback
  | streamAppend (expectedOffset : UInt64) (body : Bytes) (metadata : Option Bytes)
      (discriminator : Option String)
  | streamCommit (mode : Durability)
  | streamRollback
  | leaseExtend (ttlSecs : UInt64)
  | leaseRelease
  /-- `Drop for LeaseHandle` -/
  | leaseDrop
  | queueExtend (leaseSeconds : UInt64)
  | queueComplete
  | queueNack (visibilitySeconds : UInt64)
  deriving DecidableEq

/-- The reads go through `request_replayable_in_generation`. -/
def Operation.replayable : Operation → Bool
  | .kvGet _ | .kvScan _ => true
  | _ => false

def scanRangeIsEmpty : Option Bytes → Option Bytes → Bool → Bool
  | some start, some stop, reverse =>
    if start = stop then true else if start < stop then reverse else !reverse
  | _, _, _ => false

namespace KvTransaction

def keyPayload (h : KvTransaction) (key : Bytes) : Bytes :=
  putU64 h.transactionId ++ putString h.route ++ putBytes key

def finishPayload (h : KvTransaction) : Bytes := putU64 h.transactionId ++ putString h.route

def scanPayload (h : KvTransaction) (options : KvScanOptions) : Bytes :=
  h.finishPayload ++ optionalBytes options.startKey ++ optionalBytes options.endKey ++
    (match options.limit with
      | some limit => putU8 1 ++ putU32 limit
      | none => putU8 0) ++
    putU8 ((if options.reverse then 1 else 0) ||| if options.startExclusive then 2 else 0)

end KvTransaction

def LeaseHandle.releasePayload (h : LeaseHandle) : Bytes :=
  putString h.route ++ putString h.ownerId ++ putU64 h.fencingToken

def QueueItem.tokenPayload (h : QueueItem) : Bytes :=
  putString h.route ++ putU64 h.id ++ putU64 h.token

namespace Handle

/-- The request of an operation; none if it makes none. -/
def request : Handle → Operation → Option (UInt16 × Bytes)
  | .kv h, .kvGet key => some (MessageType.kvGet, h.keyPayload key)
  | .kv h, .kvPut key value => some (MessageType.kvPut, h.keyPayload key ++ putBytes value)
  | .kv h, .kvInsert key value => some (MessageType.kvInsert, h.keyPayload key ++ putBytes value)
  | .kv h, .kvDelete key => some (MessageType.kvDelete, h.keyPayload key)
  | .kv h, .kvDeleteRange startKey endKey =>
    some (MessageType.kvDeleteRange, h.keyPayload startKey ++ putBytes endKey)
  | .kv h, .kvScan options =>
    if scanRangeIsEmpty options.startKey options.endKey options.reverse then none
    else some (MessageType.kvScan, h.scanPayload options)
  | .kv h, .kvCommit durability =>
    some (MessageType.kvCommit, h.finishPayload ++ [durability.byte])
  | .kv h, .kvRollback => some (MessageType.kvRollback, h.finishPayload)
  | .stream h, .streamAppend expectedOffset body metadata discriminator =>
    some (MessageType.streamAppend,
      putU64 h.sessionId ++ putU64 expectedOffset ++ putBytes body ++ optionalBytes metadata ++
        match discriminator.filter (· ≠ "") with
        | some value => putU8 1 ++ putString value
        | none => putU8 0)
  | .stream h, .streamCommit mode => some (MessageType.streamCommit, putU64 h.sessionId ++ putU8 mode.byte)
  | .stream h, .streamRollback => some (MessageType.streamRollback, putU64 h.sessionId)
  | .lease h, .leaseExtend ttlSecs =>
    some (MessageType.leaseRenew, h.releasePayload ++ putU64 ttlSecs)
  | .lease h, .leaseRelease | .lease h, .leaseDrop => some (MessageType.leaseRelease, h.releasePayload)
  | .queue h, .queueExtend leaseSeconds =>
    some (MessageType.queueExtend, h.tokenPayload ++ putU64 leaseSeconds)
  | .queue h, .queueComplete => some (MessageType.queueComplete, h.tokenPayload)
  | .queue h, .queueNack visibilitySeconds =>
    some (MessageType.queueNack, h.tokenPayload ++ putU64 visibilitySeconds)
  | _, _ => none

/-- What the check of an operation leaves on the handle. -/
def opened : Handle → Operation → Handle
  | .lease h, .leaseDrop => .lease { h with released := true }
  | h, _ => h

/-- Just before its request, `complete` or `nack` claims the item. -/
def claim : Handle → Operation → Result Handle
  | .queue h, .queueComplete | .queue h, .queueNack _ =>
    if h.state = 0 then .ok (.queue { h with state := 1 }) else .error .staleHandle
  | h, _ => .ok h

/-- The end of an operation, with its answer if it got one. -/
def conclude : Handle → Operation → Option (Result Bytes) → Handle
  | .kv h, .kvCommit _, some (.ok _) | .kv h, .kvRollback, some (.ok _) =>
    .kv { h with closed := true }
  | .stream h, .streamCommit _, some (.ok response) =>
    match decodeStreamResponse "COMMIT" response with
    | .ok _ => .stream { h with active := false }
    | .error _ => .stream h
  | .stream h, .streamRollback, some (.ok response) =>
    match decodeStreamResponse "ROLLBACK" response with
    | .ok _ => .stream { h with active := false }
    | .error _ => .stream h
  | .lease h, .leaseExtend _, some (.ok response) =>
    match Decode.on (do leaseSuccess "RENEW"; getU64) response with
    | .ok token => .lease { h with fencingToken := token }
    | .error _ => .lease h
  | .lease h, .leaseRelease, some (.ok response) =>
    match (leaseSuccess "RELEASE").on response with
    | .ok () => .lease { h with released := true }
    | .error _ => .lease h
  | .queue h, .queueComplete, answer | .queue h, .queueNack _, answer =>
    match answer with
    | some (.ok response) =>
      match decodeQueuePlainOk response with
      | .ok () => .queue { h with state := 2 }
      | .error _ => .queue { h with state := if h.state = 1 then 0 else h.state }
    | _ => .queue { h with state := if h.state = 1 then 0 else h.state }
  | h, _, _ => h

end Handle

def protocolVersion (sh : Shared) : UInt64 := sh.capabilities >>> 32 &&& 0xffff

def capabilityBits (sh : Shared) : UInt64 := sh.capabilities &&& 0xffffffff

/-- Bits 0 to 31 are zero, 32 to 47 the version, 48 to 63 the identifiers. -/
def capabilityIds (sh : Shared) : List UInt32 :=
  [1, 2].filter fun id => sh.capabilities >>> 48 &&& (1 <<< id.toUInt64) ≠ 0

def requireCapability (sh : Shared) (id : UInt32) : Result Unit :=
  if (id = 1 ∨ id = 2) ∧ protocolVersion sh = 3 ∧
      sh.capabilities >>> 48 &&& (1 <<< id.toUInt64) ≠ 0 then .ok ()
  else .error (.protocol ("capability " ++ toString id ++ " was not negotiated"))

/-! ## Handles over a connection -/

structure RetryPolicy where
  enabled : Bool
  maximumAttempts : ℕ

def RetryPolicy.attempts (policy : RetryPolicy) : ℕ :=
  if policy.enabled then max policy.maximumAttempts 1 else 1

/-- How far an operation has got. -/
inductive Progress
  /-- past its own check, before that of `request_replayable_in_generation` -/
  | opened
  /-- past every check -/
  | checked
  /-- in `request_with_flags` -/
  | issued (t : Ticket)
  | over
  deriving DecidableEq

structure Operating where
  handle : ℕ
  operation : Operation
  attempt : ℕ
  progress : Progress

/-- A call that opens handles: where its deferred receiver started, and the
response once the caller has it. -/
structure Awaiting where
  opening : Opening
  mark : ℕ
  response : Option Bytes

structure Handles where
  conn : Conn
  awaiting : HashMap Ticket Awaiting
  /-- each with the transport its response came on -/
  handles : List (Handle × ℕ)
  operations : List Operating
  /-- the handle a call was made for -/
  owner : Ticket → Option ℕ

inductive HandleEvent
  /-- any other step over the connection -/
  | conn (e : Event)
  /-- the call of `opening` allocates its id -/
  | call (opening : Opening) (mark : ℕ)
  /-- the caller of `t` gets its response -/
  | receive (t : Ticket)
  /-- the caller of `t` reads the generation and builds -/
  | build (t : Ticket)
  /-- an operation makes its own check -/
  | operate (handle : ℕ) (operation : Operation)
  /-- the check of `request_replayable_in_generation` before an attempt -/
  | attempt (i : ℕ)
  /-- the request of an operation allocates its id -/
  | issue (i : ℕ)
  /-- the check of `request_replayable_in_generation` after a retryable error -/
  | retry (i : ℕ)
  /-- an operation ends -/
  | finish (i : ℕ) (answer : Option (Result Bytes))

namespace Handles

def new (cfg : Config) : Handles := ⟨.new cfg, ∅, [], [], fun _ => none⟩

/-- What the deferred receiver of an ACQUIRE, of capacity 16, returns. -/
def deferred (log : List Obs) (mark : ℕ) : Option (ℕ × Result Bytes) :=
  match notified log mark MessageType.leaseAcquire with
  | [] => none
  | (serial, payload) :: rest =>
    if rest.length ≥ 16 then some (serial, .error .connectionClosed) else some (serial, .ok payload)

def call (cfg : Config) (s : Handles) (opening : Opening) (mark : ℕ) : Handles :=
  match opening.request with
  | .error _ => s
  | .ok (messageType, payload) =>
    { s with
      conn := s.conn.step cfg (.allocate (.request 0) messageType payload)
      awaiting := s.awaiting.insert s.conn.nextTicket ⟨opening, min mark s.conn.log.length, none⟩ }

def receive (cfg : Config) (s : Handles) (t : Ticket) : Handles :=
  match s.awaiting.lookup t, s.conn.calls.lookup t, s.conn.answers.find? (·.1 = t) with
  | some a, some _, some (_, some (.ok response)) =>
    { s with
      conn := s.conn.step cfg (.resume t)
      awaiting := s.awaiting.insert t { a with response := some response } }
  | _, _, _ => s

/-- The transport of the message a handle is built from. -/
def sourceOf (s : Handles) (t : Ticket) (a : Awaiting) (response : Bytes) : ℕ :=
  match a.opening with
  | .leaseAcquire _ _ _ waitSeconds =>
    match acquireKind waitSeconds response with
    | .ok none => ((deferred s.conn.log a.mark).map Prod.fst).getD 0
    | _ => (responseOn s.conn.log t response).getD 0
  | _ => (responseOn s.conn.log t response).getD 0

def build (s : Handles) (t : Ticket) : Handles :=
  match s.awaiting.lookup t with
  | some a =>
    match a.response with
    | some response =>
      match a.opening.handles s.conn.shared.generation response
          ((deferred s.conn.log a.mark).map Prod.snd) with
      | some (.ok hs) =>
        { s with
          awaiting := s.awaiting.erase t
          handles := s.handles ++ hs.map fun h => (h, s.sourceOf t a response) }
      | some (.error _) => { s with awaiting := s.awaiting.erase t }
      | none => s
    | none => s
  | none => s

/-- The operation at `i` goes on to `progress`. -/
def proceed (s : Handles) (i : ℕ) (progress : Progress) : Handles :=
  { s with operations := s.operations.modify i fun o => { o with progress := progress } }

def setHandle (s : Handles) (i : ℕ) (h : Handle) : Handles :=
  { s with handles := s.handles.modify i fun p => (h, p.2) }

def operate (s : Handles) (handle : ℕ) (operation : Operation) : Handles :=
  match s.handles[handle]? with
  | some (h, _) =>
    match h.check s.conn.shared.generation with
    | .ok () =>
      { s.setHandle handle (h.opened operation) with
        operations := s.operations ++
          [⟨handle, operation, 1, if operation.replayable then .opened else .checked⟩] }
    | .error _ => s
  | none => s

def attempt (s : Handles) (i : ℕ) : Handles :=
  match s.operations[i]? with
  | some o =>
    match o.progress, s.handles[o.handle]? with
    | .opened, some (h, _) =>
      s.proceed i (if s.conn.shared.generation = h.generation then .checked else .over)
    | _, _ => s
  | none => s

/-- The capability an operation requires. -/
def capable (sh : Shared) : Operation → Result Unit
  | .queueNack _ => requireCapability sh 2
  | _ => .ok ()

def issue (cfg : Config) (s : Handles) (i : ℕ) : Handles :=
  match s.operations[i]? with
  | some o =>
    match o.progress, s.handles[o.handle]? with
    | .checked, some (h, _) =>
      match capable s.conn.shared o.operation, h.claim o.operation, h.request o.operation with
      | .ok (), .ok h', some (messageType, payload) =>
        let s' := (s.setHandle o.handle h').proceed i (.issued s.conn.nextTicket)
        { s' with
          conn := s.conn.step cfg (.allocate (.request 0) messageType payload)
          owner := Function.update s.owner s.conn.nextTicket (some o.handle) }
      | _, _, _ => s.proceed i .over
    | _, _ => s
  | none => s

def retry (policy : RetryPolicy) (s : Handles) (i : ℕ) : Handles :=
  match s.operations[i]? with
  | some o =>
    match o.progress, s.handles[o.handle]? with
    | .issued t, some (h, _) =>
      if o.operation.replayable ∧ o.attempt < policy.attempts ∧ s.conn.calls.lookup t = none then
        if s.conn.shared.generation = h.generation then
          { s with
            operations := s.operations.modify i fun o =>
              { o with attempt := o.attempt + 1, progress := .opened } }
        else s.proceed i .over
      else s
    | _, _ => s
  | none => s

def finish (s : Handles) (i : ℕ) (answer : Option (Result Bytes)) : Handles :=
  match s.operations[i]? with
  | some o =>
    match o.progress, s.handles[o.handle]? with
    | .issued t, some (h, _) =>
      if s.conn.calls.lookup t = none ∧ ∀ r ∈ answer, (t, some r) ∈ s.conn.answers then
        (s.setHandle o.handle (h.conclude o.operation answer)).proceed i .over
      else s
    | _, _ => s
  | none => s

def step (cfg : Config) (policy : RetryPolicy) (s : Handles) : HandleEvent → Handles
  | .conn e => { s with conn := s.conn.step cfg e }
  | .call opening mark => s.call cfg opening mark
  | .receive t => s.receive cfg t
  | .build t => s.build t
  | .operate handle operation => s.operate handle operation
  | .attempt i => s.attempt i
  | .issue i => s.issue cfg i
  | .retry i => s.retry policy i
  | .finish i answer => s.finish i answer

end Handles

end Fitz
