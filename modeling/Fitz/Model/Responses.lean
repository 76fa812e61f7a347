import Fitz.Model.Requests

/-!
# What the domain clients make of a response

Each operation that waits for an answer decodes the response with its own function
(`src/client_domains`, `src/domains/stream.rs`); `DomainCall.decode` is what the operation
returns for it.
-/

namespace Fitz

/-! ## Decoders -/

structure StreamMetadata where
  firstOffset : UInt64
  lastOffset : UInt64
  recordCount : UInt64
  maxBatchEvents : UInt64
  maxBatchBytes : UInt64
  ttlSeconds : Option UInt64
  areaWatermark : UInt64
  realmWatermark : UInt64
  deriving DecidableEq

def decodeStreamMetadata : Decode StreamMetadata := do
  return ⟨(← decodeOptionalU64).getD 0, (← decodeOptionalU64).getD 0, ← getU64, ← getU64, ← getU64,
    ← decodeOptionalU64, ← getU64, ← getU64⟩

/-- `metadata`, of the data in the response. -/
def streamMetadata (data : Bytes) : Result StreamMetadata :=
  if data = [] then .ok ⟨0, 0, 0, 0, 0, none, 0, 0⟩ else decodeStreamMetadata.on data

def parseStreamLastResponse (buf : Bytes) (route : String) : Result (Option StreamRecord) := do
  if buf = [] then return none
  validateResponseFixedRoute route "stream" 3 "LAST"
  Decode.on (do
    let record ← decodeStreamRecord route false
    if !(← isEmpty) then throw (.protocol "LAST response has trailing bytes")
    return some record) buf

/-- The offset that `append` returns. -/
def appendedOffset (data : Bytes) : Result (Option UInt64) :=
  if data.length < 8 then .ok none else do
    let offset ← getU64.on data
    return some offset

structure LeaseInfo where
  held : Bool
  ownerId : Option String
  ttlRemainingSecs : Option UInt64
  pendingWaiters : UInt32
  deriving DecidableEq

/-- `query`. -/
def decodeLeaseInfo : Decode LeaseInfo := do
  leaseSuccess "QUERY"
  let held ← getU8
  if held = 1 then return ⟨true, some (← getString), some (← getU64), ← getU32⟩
  else return ⟨false, none, none, ← getU32⟩

/-- `get`: nothing is `KvGetResult::NotFound`. -/
def decodeGet : Decode (Option Bytes) := do
  success "KV GET"
  if (← getU8) = 1 then return some (← getBytes) else return none

/-- `create`, `create_batch` and `cancel`. -/
def scheduleDone (operation : String) : Decode Unit := do
  success ("Schedule " ++ operation)
  if !(← isEmpty) then
    throw (.protocol ("schedule " ++ operation ++ " response has trailing bytes"))

/-! ## The operations -/

/-- What an operation returns. -/
inductive CallResult
  | done
  | handles (handles : List Handle)
  /-- the acquisition waits for its completion -/
  | queued
  | subscribed (wireId : UInt64)
  | enqueued (id : UInt64)
  | renewed (token : UInt64)
  | appended (offset : Option UInt64)
  | value (value : Option Bytes)
  | scanned (page : KvScanPage)
  | leases (page : LeaseListPage)
  | info (info : LeaseInfo)
  | page (page : StreamReadPage)
  | record (record : Option StreamRecord)
  | metadata (metadata : StreamMetadata)
  | schedules (page : ScheduleCursorPage)
  deriving DecidableEq

/-- The operations of a handle; a release on drop ignores its response. -/
def Operation.decode : Operation → Option (Bytes → Result CallResult)
  | .kvGet _ => some fun response => do
    let value ← decodeGet.on response
    return .value value
  | .kvPut _ _ | .kvInsert _ _ | .kvDelete _ | .kvDeleteRange _ _ | .kvCommit _ | .kvRollback =>
    some fun response => do
      decodeOk response
      return .done
  | .kvScan _ => some fun response => do
    let page ← decodeScanResponse.on response
    return .scanned page
  | .streamAppend _ _ _ _ => some fun response => do
    let decoded ← decodeStreamResponse "APPEND" response
    let offset ← appendedOffset decoded.data
    return .appended offset
  | .streamCommit _ => some fun response => do
    let _ ← decodeStreamResponse "COMMIT" response
    return .done
  | .streamRollback => some fun response => do
    let _ ← decodeStreamResponse "ROLLBACK" response
    return .done
  | .leaseExtend _ => some fun response => do
    let token ← renewed response
    return .renewed token
  | .leaseRelease => some fun response => do
    (leaseSuccess "RELEASE").on response
    return .done
  | .leaseDrop => none
  | .queueExtend _ | .queueComplete | .queueNack _ => some fun response => do
    decodeQueuePlainOk response
    return .done

/-- What the operation returns for its response, in this generation; nothing for those that
send and wait for no answer. -/
def DomainCall.decode (generation : UInt64) : DomainCall → Option (Bytes → Result CallResult)
  | .opening o => some fun response =>
    match o.handles generation response none with
    | some result => do
      let handles ← result
      return .handles handles
    | none => .ok .queued
  | .operation _ op => op.decode
  | .subscribe topic _ => some fun response => do
    let wireId ← topic.decodeSubscriptionId response
    return .subscribed wireId
  | .unsubscribe topic _ _ => some fun response => do
    topic.decodeUnsubscribe response
    return .done
  | .enqueue _ _ _ => some fun response => do
    let id ← enqueueId response
    return .enqueued id
  | .leaseList _ _ _ => some fun response => do
    let page ← listAnswer (.ok response)
    return .leases page
  | .leaseQuery _ => some fun response => do
    let info ← decodeLeaseInfo.on response
    return .info info
  | .publishWithAck _ _ | .unsubscribeAll | .registerWorker _ _ | .deregister _ =>
    some fun response => do
      decodeOk response
      return .done
  | .readPage route _ _ _ => some fun response => do
    let decoded ← decodeStreamResponse "READ" response
    let page ← parseStreamReadPageWithScope decoded.data route
    return .page page
  | .peek route => some fun response => do
    let decoded ← decodeStreamResponse "LAST" response
    let record ← parseStreamLastResponse decoded.data route
    return .record record
  | .metadata _ => some fun response => do
    let decoded ← decodeStreamResponse "METADATA" response
    let metadata ← streamMetadata decoded.data
    return .metadata metadata
  | .create _ => some fun response => do
    (scheduleDone "CREATE").on response
    return .done
  | .createBatch _ => some fun response => do
    (scheduleDone "CREATE_BATCH").on response
    return .done
  | .cancelSchedule _ => some fun response => do
    (scheduleDone "CANCEL").on response
    return .done
  | .listV2 _ _ => some fun response => do
    let page ← listV2Answer (.ok response)
    return .schedules page
  | .publish _ _ | .call _ _ _ _ _ | .respond _ _ _ _ | .cancelCall _ _ | .cleanup _ => none

end Fitz
