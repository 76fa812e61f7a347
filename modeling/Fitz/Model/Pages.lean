import Fitz.Model.Observer
import Fitz.Model.StreamRead

/-!
# List pages

The answers that hold lists beside Lease LIST and Stream READ: KV SCAN
(`src/client_domains/kv.rs`) and Schedule LIST with the loop of `list_by_selector`
(`src/client_domains/schedule.rs`); and what each list decoder passes to
`Vec::with_capacity` before it reads items (also `lease.rs` and `queue.rs`).
-/

namespace Fitz

/-! ## KV SCAN -/

structure KvPair where
  key : Bytes
  value : Bytes
  deriving DecidableEq

structure KvScanPage where
  pairs : List KvPair
  hasMore : Bool
  deriving DecidableEq

/-- The count of a SCAN, which the rest of the response must have room for. It is also the
capacity; every `u32` fits a `usize`. -/
def scanCapacity : Decode ℕ := do
  success "KV SCAN"
  let count ← getU32
  let available ← remaining
  let maximumCount := (available - 1) / 8
  let capacity := count.toNat
  if capacity > maximumCount then
    throw (.protocol ("KV SCAN item count " ++ toString count ++
      " exceeds the remaining response payload"))
  return capacity

def scanPair : Decode KvPair := do
  return ⟨← getBytes, ← getBytes⟩

def scanPairs : ℕ → Decode (List KvPair)
  | 0 => return []
  | n + 1 => do return (← scanPair) :: (← scanPairs n)

def decodeScanResponse : Decode KvScanPage := do
  let pairs ← scanPairs (← scanCapacity)
  let hasMore ← flagField fun flag =>
    .protocol ("KV SCAN returned invalid has_more flag " ++ toString flag)
  if !(← isEmpty) then throw (.protocol "KV SCAN response contains trailing bytes")
  return ⟨pairs, hasMore⟩

/-! ## Schedule LIST -/

inductive ScheduleDeliveryMode
  | broadcast
  | single
  deriving DecidableEq

structure ScheduleEntry where
  route : String
  cron : String
  deliveryMode : ScheduleDeliveryMode
  payload : Bytes
  deriving DecidableEq

structure ScheduleCursorPage where
  entries : List ScheduleEntry
  hasMore : Bool
  continuation : Option String
  deriving DecidableEq

def decodeDeliveryMode : Decode ScheduleDeliveryMode := do
  let mode ← getU8
  if mode = 0 then return .broadcast
  else if mode = 1 then return .single
  else throw (.protocol "schedule LIST_V2 has invalid delivery mode")

def scheduleEntry : Decode ScheduleEntry := do
  return ⟨← getString, ← getString, ← decodeDeliveryMode, ← getBytes⟩

/-- The loop over the entries, each behind a flag byte and the last before a zero. A pass
reads a byte or more, so there are no more passes than bytes; without bytes the next read
fails. -/
def scheduleEntries : ℕ → Decode (List ScheduleEntry)
  | 0 => throw (.codec "Not enough bytes")
  | passes + 1 => do
    let flag ← getU8
    if flag = 0 then return []
    else if flag = 1 then return (← scheduleEntry) :: (← scheduleEntries passes)
    else throw (.protocol "schedule LIST_V2 has invalid entry flag")

def decodeCursorPage : Decode ScheduleCursorPage := do
  if (← getU8) ≠ 1 then throw (.protocol "schedule LIST_V2 has unknown response version")
  let hasMore ← flagField fun _ => .protocol "schedule LIST_V2 has invalid has_more flag"
  let continuation ←
    optionalField (fun _ => .protocol "schedule LIST_V2 has invalid cursor flag") getString
  let entries ← scheduleEntries (← remaining)
  if !(← isEmpty) then throw (.protocol "schedule LIST_V2 response has trailing bytes")
  return ⟨entries, hasMore, continuation⟩

/-- The request of `list_v2`. -/
def listV2Payload (continuation : Option String) (limit : Option UInt64) : Bytes :=
  (match continuation with
    | some cursor => putU8 1 ++ putString cursor
    | none => putU8 0) ++
  match limit with
  | some value => putU8 1 ++ putU64 value
  | none => putU8 0

/-- What `list_v2` makes of the answer to its request. -/
def listV2Answer (answer : Result Bytes) : Result ScheduleCursorPage := do
  Decode.on (do success "Schedule LIST_V2"; decodeCursorPage) (← answer)

/-- The requests `list_by_selector` makes, and what it returns once it does. -/
structure Listing where
  requests : List Bytes
  returned : Option (Result (List ScheduleEntry))
  deriving DecidableEq

/-- The loop, over the answers to its requests; after the last of them it waits. -/
def selectPages (selector : String) :
    List (Result Bytes) → List ScheduleEntry → Option String → Listing
  | [], _, continuation => ⟨[listV2Payload continuation (some 100)], none⟩
  | answer :: answers, found, continuation =>
    let request := listV2Payload continuation (some 100)
    match listV2Answer answer with
    | .error error => ⟨[request], some (.error error)⟩
    | .ok page =>
      let found := found ++ page.entries.filter fun entry => routeMatchesPattern entry.route selector
      if !page.hasMore then ⟨[request], some (.ok found)⟩
      else if page.entries.isEmpty then
        ⟨[request], some (.error (.protocol
          "schedule LIST returned an empty page while more results were indicated"))⟩
      else if page.continuation.isNone then
        ⟨[request], some (.error (.protocol
          "schedule LIST omitted continuation while more results were indicated"))⟩
      else
        let rest := selectPages selector answers found page.continuation
        ⟨request :: rest.requests, rest.returned⟩

def listBySelector (selector : String) (answers : List (Result Bytes)) : Listing :=
  match validateRegistrationPattern selector "schedule" 4 with
  | .error error => ⟨[], some (.error error)⟩
  | .ok () => selectPages selector answers [] none

/-! ## Capacities -/

/-- `declared_count.min(plausible_count)` of `decode_list_page`. -/
def listCapacity : Decode ℕ := do
  let itemCount ← getU32
  let plausibleCount := (← remaining) / (4 + 4 + 8 + 4 + 8 + 4)
  return min itemCount.toNat plausibleCount

/-- `count as usize`, unless the buffer ends before the count. -/
def declaredCapacity : Decode (Option ℕ) := do
  if ← isEmpty then return none
  return some (← readCapacity)

/-- The list decoders that reserve room for their items, each with what it reads of its
buffer until then. -/
inductive ListDecoder
  /-- `decode_scan_response` of a response -/
  | kvScan
  /-- `decode_list_page` behind the status of a response -/
  | leaseList
  /-- `parse_stream_read_page_with_scope` of the data of a response -/
  | streamRead (selector : String)
  /-- `QueueClient::reserve` of a response -/
  | queueReserve

/-- The capacity passed to `Vec::with_capacity`, none where the list is empty without one. -/
def ListDecoder.capacity : ListDecoder → Decode (Option ℕ)
  | .kvScan => do return some (← scanCapacity)
  | .leaseList => do
    leaseSuccess "LIST"
    return some (← listCapacity)
  | .streamRead selector => do
    let _ ← MonadExcept.ofExcept (classifyStreamSelector selector)
    declaredCapacity
  | .queueReserve => do
    queueSuccess "RESERVE"
    declaredCapacity

structure Room where
  capacity : ℕ
  /-- how many bytes are not read yet -/
  left : ℕ
  deriving DecidableEq

/-- The room a decoder reserves, if it gets there. -/
def ListDecoder.reserves (decoder : ListDecoder) (buf : Bytes) : Option Room :=
  match decoder.capacity.run (.new buf) with
  | .ok (some capacity, d) => some ⟨capacity, d.buf.length - d.pos⟩
  | _ => none

end Fitz
