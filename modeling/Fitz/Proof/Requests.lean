import Fitz.Lib.Format
import Fitz.Model.Requests
import Fitz.Proof.Filters
import Fitz.Proof.RoundTrip

/-!
# Requests are unambiguous

Some forty requests share one stream of frames. What a request asks for is its kind and
the arguments of this kind (`Demand`), and each kind has a format; the code writes exactly
the format of what it asks for (`demand_frame`), and type and flags tell the kind. So
two calls put the same bytes on the wire exactly when they ask for the same thing.
-/

namespace Fitz

open Framing BigEndian

/-! ## Fields -/

/-- The format of a part of a payload. -/
abbrev Wire (α : Type) := Format (2 ^ 32) UInt8 α

namespace Wire

def u8 : Wire UInt8 := .ofLength putU8 1 (fun _ => rfl) fun _ _ h => List.singleton_inj.1 h

def u32 : Wire UInt32 :=
  .ofLength putU32 4 length_putU32 fun a b h => by
    rw [← ofNat_fromBe_putU32 a, h, ofNat_fromBe_putU32 b]

def u64 : Wire UInt64 :=
  .ofLength putU64 8 length_putU64 fun a b h => by
    rw [← ofNat_fromBe_putU64 a, h, ofNat_fromBe_putU64 b]

theorem short_of_putBytes (a : Bytes) (h : (putBytes a).length < 2 ^ 32) : a.length < 2 ^ 32 := by
  rw [length_putBytes] at h
  omega

def bytes : Wire Bytes :=
  .ofPrefixFree (inverts_of_reads reads_getBytes).prefixFree short_of_putBytes

def string : Wire String :=
  .ofPrefixFree prefixFree_putString fun s h => short_of_putBytes s.toUTF8.toList h

theorem eq_of_bytes {a b : CorrelationId} (h : a.bytes = b.bytes) : a = b := by
  cases a
  cases b
  cases h
  rfl

def uuid : Wire CorrelationId :=
  .ofLength CorrelationId.bytes 16 CorrelationId.length_eq fun _ _ => eq_of_bytes

def optional {α : Type} (f : Wire α) : Wire (Option α) := .option 0 1 (by decide) f

def bool : Wire Bool :=
  u8.under (fun b => if b then 1 else 0) fun a b h => by
    cases a <;> cases b <;> first | rfl | cases h

def mode : Wire TransactionMode :=
  u8.under TransactionMode.byte fun a b h => by cases a <;> cases b <;> first | rfl | cases h

def durability : Wire Durability :=
  u8.under Durability.byte fun a b h => by cases a <;> cases b <;> first | rfl | cases h

def delivery : Wire ScheduleDeliveryMode :=
  u8.under ScheduleDeliveryMode.byte fun a b h => by cases a <;> cases b <;> first | rfl | cases h

/-- A whole value as a byte string. -/
def sized {α : Type} (f : Wire α) : Wire α :=
  bytes.inside (fun l => by
    have h : (bytes.enc l).length = 4 + l.length := length_putBytes l
    omega) f

theorem putString_ne_nil (s : String) : putString s ≠ [] := by
  intro h
  have hlen := length_putBytes s.toUTF8.toList
  rw [show putBytes s.toUTF8.toList = [] from h] at hlen
  rw [List.length_nil] at hlen
  omega

theorem fits_of_short (clause : StreamFilterClause)
    (h : (putU8 clause.tag ++ clause.body).length < 2 ^ 32) : clause.Fits := by
  have hbody : clause.body.length < 2 ^ 32 := by
    rw [List.length_append] at h
    omega
  cases clause with
  | equals value | notEquals value | startsWith value => exact short_of_putBytes _ hbody
  | anyOf values =>
    have hsplit : 4 + (stream putString values).length < 2 ^ 32 := by
      have hlen := hbody
      rwa [StreamFilterClause.body, List.length_append, length_toBe] at hlen
    have hcount := Format.count_le_stream putString_ne_nil values
    refine ⟨by omega, fun value hv => short_of_putBytes _ ?_⟩
    have hvalue : (putString value).length ≤ (stream putString values).length :=
      Format.length_le_stream hv
    have heq : (putBytes value.toUTF8.toList).length = (putString value).length := rfl
    omega

def clause : Wire StreamFilterClause := .ofPrefixFree StreamFilterClause.prefixFree fits_of_short

def filter : Wire StreamFilterSet :=
  ((Format.list (toBe 4) prefixFree_count clause (fun _ h => by cases h)).under
    StreamFilterSet.clauses fun f g h => by cases f; cases g; cases h; rfl).mark [0, 0xF1]

/-- The flags byte of a SCAN: reverse and exclusive start. -/
def scanFlags : Wire (Bool × Bool) :=
  u8.under (fun p => (if p.1 then 1 else 0) ||| if p.2 then 2 else 0) fun p q h => by
    obtain ⟨a, b⟩ := p
    obtain ⟨c, d⟩ := q
    cases a <;> cases b <;> cases c <;> cases d <;> first | rfl | cases h

def scanOptions : Wire KvScanOptions :=
  ((optional bytes).pair ((optional bytes).pair ((optional u32).pair
    scanFlags))).under
    (fun o => (o.startKey, o.endKey, o.limit, o.reverse, o.startExclusive)) fun a b h => by
      cases a
      cases b
      cases h
      rfl

def readOptions : Wire StreamReadOptions :=
  ((optional u64).pair ((optional (sized filter)).pair ((optional u64).pair (optional u64)))).under
    (fun o => (o.maxBytes, o.filter, o.cursorFingerprint, o.capturedWatermark)) fun a b h => by
      cases a
      cases b
      cases h
      rfl

def listCursor : Wire LeaseListCursor :=
  (u64.pair u32).under (fun c => (c.snapshotId, c.offset)) fun a b h => by
    cases a
    cases b
    cases h
    rfl

def entry : Wire ScheduleEntry :=
  (string.pair (string.pair (delivery.pair bytes))).under
    (fun e => (e.route, e.cron, e.deliveryMode, e.payload)) fun a b h => by
      cases a
      cases b
      cases h
      rfl

theorem entry_ne_nil (e : ScheduleEntry) : entry.enc e ≠ [] := by
  intro h
  exact putString_ne_nil e.route (List.append_eq_nil_iff.1 h).1

end Wire

/-! ## Kinds -/

/-- What a request can be: one kind for each message type and flags; RPC_CANCEL has two
messages under one kind. -/
inductive RequestKind
  | kvBegin | kvGet | kvPut | kvInsert | kvDelete | kvDeleteRange | kvScan | kvCommit | kvRollback
  | subscribe (topic : Topic)
  | unsubscribe (topic : Topic)
  | enqueue | enqueueTtl | reserve | extend | complete | nack
  | registerWorker | deregister | call | respond | cancelCall
  | acquire | renew | release | leaseQuery | leaseList
  | publish | publishWithAck | unsubscribeAll
  | streamBegin | streamAppend | streamCommit | streamRollback | streamRead | streamLast
  | streamMetadata
  | create | createBatch | cancelSchedule | listSchedules
  deriving DecidableEq

namespace RequestKind

/-- Message type and flags. -/
def head : RequestKind → UInt16 × UInt8
  | kvBegin => (MessageType.kvBegin, 0)
  | kvGet => (MessageType.kvGet, 0)
  | kvPut => (MessageType.kvPut, 0)
  | kvInsert => (MessageType.kvInsert, 0)
  | kvDelete => (MessageType.kvDelete, 0)
  | kvDeleteRange => (MessageType.kvDeleteRange, 0)
  | kvScan => (MessageType.kvScan, 0)
  | kvCommit => (MessageType.kvCommit, 0)
  | kvRollback => (MessageType.kvRollback, 0)
  | subscribe topic => (topic.subscribeType, 0)
  | unsubscribe topic => (topic.unsubscribeType, 0)
  | enqueue => (MessageType.queueEnqueue, 0)
  | enqueueTtl => (MessageType.queueEnqueue, extensionsPresent)
  | reserve => (MessageType.queueReserve, 0)
  | extend => (MessageType.queueExtend, 0)
  | complete => (MessageType.queueComplete, 0)
  | nack => (MessageType.queueNack, 0)
  | registerWorker => (MessageType.rpcSubscribe, 0)
  | deregister => (MessageType.rpcUnsubscribe, 0)
  | call => (MessageType.rpcRequest, 0)
  | respond => (MessageType.rpcResponse, 0)
  | cancelCall => (MessageType.rpcCancel, 0)
  | acquire => (MessageType.leaseAcquire, 0)
  | renew => (MessageType.leaseRenew, 0)
  | release => (MessageType.leaseRelease, 0)
  | leaseQuery => (MessageType.leaseQuery, 0)
  | leaseList => (MessageType.leaseList, 0)
  | publish => (MessageType.noticePublish, 0)
  | publishWithAck => (MessageType.noticePublish, ackRequested)
  | unsubscribeAll => (MessageType.noticeUnsubscribeAll, 0)
  | streamBegin => (MessageType.streamBegin, 0)
  | streamAppend => (MessageType.streamAppend, 0)
  | streamCommit => (MessageType.streamCommit, 0)
  | streamRollback => (MessageType.streamRollback, 0)
  | streamRead => (MessageType.streamRead, 0)
  | streamLast => (MessageType.streamLast, 0)
  | streamMetadata => (MessageType.streamGetMetadata, 0)
  | create => (MessageType.scheduleCreate, 0)
  | createBatch => (MessageType.scheduleCreateBatch, 0)
  | cancelSchedule => (MessageType.scheduleCancel, 0)
  | listSchedules => (MessageType.scheduleListPage, 0)

def topics : List Topic := [.kv, .queue, .lease, .notice, .stream, .schedule]

def all : List RequestKind :=
  [kvBegin, kvGet, kvPut, kvInsert, kvDelete, kvDeleteRange, kvScan, kvCommit, kvRollback,
    enqueue, enqueueTtl, reserve, extend, complete, nack, registerWorker, deregister, call, respond,
    cancelCall, acquire, renew, release, leaseQuery, leaseList, publish, publishWithAck,
    unsubscribeAll, streamBegin, streamAppend, streamCommit, streamRollback, streamRead, streamLast,
    streamMetadata, create, createBatch, cancelSchedule, listSchedules] ++
  (topics.map subscribe ++ topics.map unsubscribe)

theorem mem_all (k : RequestKind) : k ∈ all := by
  cases k with
  | subscribe topic => cases topic <;> decide
  | unsubscribe topic => cases topic <;> decide
  | _ => decide

/-- Type and flags tell the kind. -/
theorem head_injective : Function.Injective head := by
  have hnodup : (all.map head).Nodup := by decide
  intro k l h
  exact List.inj_on_of_nodup_map hnodup (mem_all k) (mem_all l) h

/-- The transaction id and the route of a KV transaction; the route, the id and the token of
a queue item; the route, the owner and the token of a lease. -/
abbrev KvArgs := UInt64 × String
abbrev ItemArgs := String × UInt64 × UInt64
abbrev LeaseArgs := String × String × UInt64

/-- The arguments of a kind, in the order of the payload. -/
@[reducible] def Args : RequestKind → Type
  | kvBegin => String × TransactionMode
  | kvGet | kvDelete => KvArgs × Bytes
  | kvPut | kvInsert | kvDeleteRange => KvArgs × Bytes × Bytes
  | kvScan => KvArgs × KvScanOptions
  | kvCommit => KvArgs × Durability
  | kvRollback => KvArgs
  | subscribe _ => String
  | unsubscribe .notice => UInt64
  | unsubscribe _ => String
  | enqueue => String × Bytes × Option UInt64
  | enqueueTtl => (String × Bytes × Option UInt64) × UInt32
  | reserve => String × UInt64 × UInt32 × Option UInt64
  | extend | nack => ItemArgs × UInt64
  | complete => ItemArgs
  | registerWorker => String × UInt32
  | deregister => String
  | call => CorrelationId × String × Bytes × Option UInt32
  | respond => CorrelationId × UInt64 × Bool × Bytes
  | cancelCall => (CorrelationId × UInt8) ⊕ CorrelationId
  | acquire => String × String × UInt64 × UInt32
  | renew => LeaseArgs × UInt64
  | release => LeaseArgs
  | leaseQuery => String
  | leaseList => String × Option LeaseListCursor × UInt32
  | publish | publishWithAck => String × Bytes
  | unsubscribeAll => Unit
  | streamBegin => String × Option Bytes
  | streamAppend => UInt64 × UInt64 × Bytes × Option Bytes × Option String
  | streamCommit => UInt64 × Durability
  | streamRollback => UInt64
  | streamRead => String × UInt64 × UInt64 × StreamReadOptions
  | streamLast | streamMetadata | cancelSchedule => String
  | create => ScheduleEntry
  | createBatch => List ScheduleEntry
  | listSchedules => Option String × Option UInt64

section Formats

open Wire

def kvArgs : Wire KvArgs := u64.pair string
def itemArgs : Wire ItemArgs := string.pair (u64.pair u64)
def leaseArgs : Wire LeaseArgs := string.pair (string.pair u64)

/-- Route, body and delay of an ENQUEUE. -/
def enqueueCore : Wire (String × Bytes × Option UInt64) := string.pair (bytes.pair (optional u64))

def format : (k : RequestKind) → Wire k.Args
  | kvBegin => string.pair mode
  | kvGet | kvDelete => kvArgs.pair bytes
  | kvPut | kvInsert | kvDeleteRange => kvArgs.pair (bytes.pair bytes)
  | kvScan => kvArgs.pair scanOptions
  | kvCommit => kvArgs.pair durability
  | kvRollback => kvArgs
  | subscribe _ => string
  | unsubscribe .notice => u64
  | unsubscribe .kv | unsubscribe .queue | unsubscribe .lease | unsubscribe .stream
  | unsubscribe .schedule => string
  | enqueue => enqueueCore
  | enqueueTtl => (sized enqueueCore).pair (u32.mark [0, 1, 0, 0, 0, 4])
  | reserve => string.pair (u64.pair ((u32.pair (optional u64)).mark [1]))
  | extend | nack => itemArgs.pair u64
  | complete => itemArgs
  | registerWorker => string.pair (u32.trail [1])
  | deregister => string
  | call => uuid.pair (string.pair (bytes.pair (optional u32)))
  | respond => uuid.pair (u64.pair (bool.pair bytes))
  | cancelCall => .sum 1 3 (by decide) (uuid.pair u8) uuid
  | acquire => string.pair (string.pair (u64.pair u32))
  | renew => leaseArgs.pair u64
  | release => leaseArgs
  | leaseQuery => string
  | leaseList => string.pair ((optional listCursor).pair u32)
  | publish | publishWithAck => string.pair bytes
  | unsubscribeAll => .empty
  | streamBegin => string.pair (optional bytes)
  | streamAppend => u64.pair (u64.pair (bytes.pair ((optional bytes).pair (optional string))))
  | streamCommit => u64.pair durability
  | streamRollback => u64
  | streamRead => string.pair (u64.pair (u64.pair readOptions))
  | streamLast | streamMetadata | cancelSchedule => string
  | create => entry
  | createBatch => .list (toBe 4) prefixFree_count entry entry_ne_nil
  | listSchedules => (optional string).pair (optional u64)

end Formats

end RequestKind

/-! ## Demands -/

/-- What a request asks for. -/
abbrev Demand := (k : RequestKind) × k.Args

def Demand.frame (d : Demand) : RequestFrame := ⟨d.1.head.1, d.1.format.enc d.2, d.1.head.2⟩

/-- Demands with the same frame of a size that can be sent are the same. -/
theorem Demand.eq_of_frame {d e : Demand} (hlen : d.frame.payload.length < 2 ^ 32)
    (h : d.frame = e.frame) : d = e := by
  obtain ⟨k, a⟩ := d
  obtain ⟨l, b⟩ := e
  have htype : k.head.1 = l.head.1 := congrArg RequestFrame.messageType h
  have hflags : k.head.2 = l.head.2 := congrArg RequestFrame.flags h
  have hkind : k = l := RequestKind.head_injective (Prod.ext htype hflags)
  subst hkind
  have hpayload : k.format.enc a = k.format.enc b := congrArg RequestFrame.payload h
  have hargs : a = b := k.format.eq_of_enc hlen hpayload
  rw [hargs]

/-! ## What the code writes -/

section Written

open Wire

@[simp] theorem enc_u8 : u8.enc = putU8 := rfl
@[simp] theorem enc_u32 : u32.enc = putU32 := rfl
@[simp] theorem enc_u64 : u64.enc = putU64 := rfl
@[simp] theorem enc_bytes : bytes.enc = putBytes := rfl
@[simp] theorem enc_string : string.enc = putString := rfl
@[simp] theorem enc_uuid : uuid.enc = CorrelationId.bytes := rfl

@[simp] theorem enc_mode (m : TransactionMode) : mode.enc m = putU8 m.byte := rfl
@[simp] theorem enc_durability (d : Durability) : durability.enc d = putU8 d.byte := rfl
@[simp] theorem enc_delivery (m : ScheduleDeliveryMode) : delivery.enc m = putU8 m.byte := rfl
@[simp] theorem enc_bool (b : Bool) : bool.enc b = putU8 (if b then 1 else 0) := rfl

@[simp] theorem enc_scanOptions (o : KvScanOptions) :
    scanOptions.enc o = (optional bytes).enc o.startKey ++ ((optional bytes).enc o.endKey ++
      ((optional u32).enc o.limit ++
        putU8 ((if o.reverse then 1 else 0) ||| if o.startExclusive then 2 else 0))) := rfl

@[simp] theorem enc_readOptions (o : StreamReadOptions) :
    readOptions.enc o = (optional u64).enc o.maxBytes ++ ((optional (sized filter)).enc o.filter ++
      ((optional u64).enc o.cursorFingerprint ++ (optional u64).enc o.capturedWatermark)) := rfl

@[simp] theorem enc_listCursor (c : LeaseListCursor) :
    listCursor.enc c = putU64 c.snapshotId ++ putU32 c.offset := rfl

@[simp] theorem enc_entry (e : ScheduleEntry) : entry.enc e = e.fields := by
  change putString e.route ++ (putString e.cron ++ (putU8 e.deliveryMode.byte ++
    putBytes e.payload)) = e.fields
  simp [ScheduleEntry.fields]

@[simp] theorem enc_optional {α : Type} (f : Wire α) (value : Option α) :
    (optional f).enc value = putOptional f.enc value := by
  cases value with
  | none => rfl
  | some a => rfl

theorem optionalBytes_eq (value : Option Bytes) : optionalBytes value = putOptional putBytes value := by
  cases value with
  | none => rfl
  | some a => rfl

theorem optionalU64_eq (value : Option UInt64) : optionalU64 value = putOptional putU64 value := by
  cases value with
  | none => rfl
  | some a => rfl

end Written

/-- What the operation of a handle asks for. -/
def Handle.demand : Handle → Operation → Option Demand
  | .kv h, .kvGet key => some ⟨.kvGet, (h.transactionId, h.route), key⟩
  | .kv h, .kvPut key value => some ⟨.kvPut, (h.transactionId, h.route), key, value⟩
  | .kv h, .kvInsert key value => some ⟨.kvInsert, (h.transactionId, h.route), key, value⟩
  | .kv h, .kvDelete key => some ⟨.kvDelete, (h.transactionId, h.route), key⟩
  | .kv h, .kvDeleteRange startKey endKey =>
    some ⟨.kvDeleteRange, (h.transactionId, h.route), startKey, endKey⟩
  | .kv h, .kvScan options =>
    if scanRangeIsEmpty options.startKey options.endKey options.reverse then none
    else some ⟨.kvScan, (h.transactionId, h.route), options⟩
  | .kv h, .kvCommit durability => some ⟨.kvCommit, (h.transactionId, h.route), durability⟩
  | .kv h, .kvRollback => some ⟨.kvRollback, h.transactionId, h.route⟩
  | .stream h, .streamAppend expectedOffset body metadata discriminator =>
    some ⟨.streamAppend, h.sessionId, expectedOffset, body, metadata, discriminator.filter (· ≠ "")⟩
  | .stream h, .streamCommit mode => some ⟨.streamCommit, h.sessionId, mode⟩
  | .stream h, .streamRollback => some ⟨.streamRollback, h.sessionId⟩
  | .lease h, .leaseExtend ttlSecs =>
    some ⟨.renew, (h.route, h.ownerId, h.fencingToken), ttlSecs⟩
  | .lease h, .leaseRelease | .lease h, .leaseDrop =>
    some ⟨.release, h.route, h.ownerId, h.fencingToken⟩
  | .queue h, .queueExtend leaseSeconds => some ⟨.extend, (h.route, h.id, h.token), leaseSeconds⟩
  | .queue h, .queueComplete => some ⟨.complete, h.route, h.id, h.token⟩
  | .queue h, .queueNack visibilitySeconds =>
    some ⟨.nack, (h.route, h.id, h.token), visibilitySeconds⟩
  | _, _ => none

theorem Demand.frame_mk {k : RequestKind} {args : k.Args} {messageType : UInt16} {flags : UInt8}
    {payload : Bytes} (hhead : k.head = (messageType, flags)) (henc : k.format.enc args = payload) :
    Demand.frame ⟨k, args⟩ = ⟨messageType, payload, flags⟩ := by
  rw [Demand.frame, hhead, henc]

open RequestKind in
theorem KvTransaction.request_eq {h : KvTransaction} {op : Operation} {messageType : UInt16}
    {payload : Bytes} (hreq : (Handle.kv h).request op = some (messageType, payload)) :
    ∃ d, (Handle.kv h).demand op = some d ∧ d.frame = ⟨messageType, payload, 0⟩ := by
  cases op with
  | kvGet key | kvDelete key =>
    cases hreq
    exact ⟨_, rfl, Demand.frame_mk rfl (by simp [format, kvArgs, keyPayload])⟩
  | kvPut key value | kvInsert key value | kvDeleteRange key value =>
    cases hreq
    exact ⟨_, rfl, Demand.frame_mk rfl (by simp [format, kvArgs, keyPayload])⟩
  | kvScan options =>
    rw [Handle.request] at hreq
    rw [Handle.demand]
    split at hreq
    · cases hreq
    · rename_i hrange
      cases hreq
      refine ⟨_, if_neg hrange, Demand.frame_mk rfl ?_⟩
      simp [format, kvArgs, scanPayload, finishPayload, optionalBytes_eq]
      cases options.limit with
      | none => rfl
      | some limit => rfl
  | kvCommit durability =>
    cases hreq
    exact ⟨_, rfl, Demand.frame_mk rfl (by simp [format, kvArgs, finishPayload, putU8])⟩
  | kvRollback =>
    cases hreq
    exact ⟨_, rfl, rfl⟩
  | _ => cases hreq

open RequestKind in
/-- The request of a handle is the format of what it asks for. -/
theorem Handle.request_eq {h : Handle} {op : Operation} {messageType : UInt16} {payload : Bytes}
    (hreq : h.request op = some (messageType, payload)) :
    ∃ d, h.demand op = some d ∧ d.frame = ⟨messageType, payload, 0⟩ := by
  cases h with
  | kv h => exact h.request_eq hreq
  | stream h =>
    cases op with
    | streamAppend expectedOffset body metadata discriminator =>
      cases hreq
      refine ⟨_, rfl, Demand.frame_mk rfl ?_⟩
      simp only [format, Format.enc_pair, enc_u64, enc_bytes, enc_string, enc_optional,
        optionalBytes_eq, List.append_assoc]
      cases discriminator.filter (· ≠ "") with
      | none => rfl
      | some value => rfl
    | streamCommit mode =>
      cases hreq
      exact ⟨_, rfl, rfl⟩
    | streamRollback =>
      cases hreq
      exact ⟨_, rfl, rfl⟩
    | _ => cases hreq
  | lease h =>
    cases op with
    | leaseExtend ttlSecs =>
      cases hreq
      exact ⟨_, rfl, Demand.frame_mk rfl (by simp [format, leaseArgs, LeaseHandle.releasePayload])⟩
    | leaseRelease | leaseDrop =>
      cases hreq
      exact ⟨_, rfl, Demand.frame_mk rfl (by simp [format, leaseArgs, LeaseHandle.releasePayload])⟩
    | _ => cases hreq
  | queue h =>
    cases op with
    | queueExtend seconds | queueNack seconds =>
      cases hreq
      exact ⟨_, rfl, Demand.frame_mk rfl (by simp [format, itemArgs, QueueItem.tokenPayload])⟩
    | queueComplete =>
      cases hreq
      exact ⟨_, rfl, Demand.frame_mk rfl (by simp [format, itemArgs, QueueItem.tokenPayload])⟩
    | _ => cases hreq

/-- What a call asks for: its arguments without those that make no difference to the broker.
An empty filter, an empty discriminator, empty ingest metadata, a delay or a wait of zero
ask for nothing, a batch is of one at least, and the client side of a handle (its
generation, its flags) is not told. -/
def DomainCall.demand : DomainCall → Option Demand
  | .opening (.kvBegin route mode) => some ⟨.kvBegin, route, mode⟩
  | .opening (.streamBegin route ingestMetadata) =>
    some ⟨.streamBegin, route, ingestMetadata.filter fun v => !v.isEmpty⟩
  | .opening (.leaseAcquire route ownerId ttlSecs waitSeconds) =>
    some ⟨.acquire, route, ownerId, ttlSecs, waitSeconds⟩
  | .opening (.queueReserve route leaseSeconds batchSize waitSeconds) =>
    some ⟨.reserve, route, leaseSeconds, max batchSize 1, waitSeconds.filter (0 < ·)⟩
  | .operation h op => h.demand op
  | .subscribe topic pattern => some ⟨.subscribe topic, pattern⟩
  | .unsubscribe .notice _ wireId => some ⟨.unsubscribe .notice, wireId⟩
  | .unsubscribe .kv pattern _ => some ⟨.unsubscribe .kv, pattern⟩
  | .unsubscribe .queue pattern _ => some ⟨.unsubscribe .queue, pattern⟩
  | .unsubscribe .lease pattern _ => some ⟨.unsubscribe .lease, pattern⟩
  | .unsubscribe .stream pattern _ => some ⟨.unsubscribe .stream, pattern⟩
  | .unsubscribe .schedule pattern _ => some ⟨.unsubscribe .schedule, pattern⟩
  | .enqueue route body options =>
    match options.ttlHours with
    | none => some ⟨.enqueue, route, body, options.delaySeconds.filter (0 < ·)⟩
    | some hours => some ⟨.enqueueTtl, (route, body, options.delaySeconds.filter (0 < ·)), hours.1⟩
  | .leaseList pattern cursor limit => some ⟨.leaseList, pattern, cursor, limit⟩
  | .leaseQuery route => some ⟨.leaseQuery, route⟩
  | .publish route body => some ⟨.publish, route, body⟩
  | .publishWithAck route body => some ⟨.publishWithAck, route, body⟩
  | .unsubscribeAll => some ⟨.unsubscribeAll, ()⟩
  | .readPage route startOffset limit options =>
    some ⟨.streamRead, route, startOffset, limit,
      { options with filter := options.filter.filter fun v => !v.isEmpty }⟩
  | .peek route => some ⟨.streamLast, route⟩
  | .metadata route => some ⟨.streamMetadata, route⟩
  | .create entry => some ⟨.create, entry⟩
  | .createBatch entries => some ⟨.createBatch, entries⟩
  | .listV2 continuation limit => some ⟨.listSchedules, continuation, limit⟩
  | .cancelSchedule route => some ⟨.cancelSchedule, route⟩
  | .call correlationId route body timeout elapsed =>
    some ⟨.call, correlationId, route, body, timeout.map (budgetMs · elapsed)⟩
  | .registerWorker pattern maxConcurrency => some ⟨.registerWorker, pattern, maxConcurrency⟩
  | .deregister pattern => some ⟨.deregister, pattern⟩
  | .respond correlationId sequence isEnd body =>
    some ⟨.respond, correlationId, sequence, isEnd, body⟩
  | .cancelCall correlationId reason => some ⟨.cancelCall, .inl (correlationId, reason)⟩
  | .cleanup correlationId => some ⟨.cancelCall, .inr correlationId⟩

theorem ok_of_bind {α β : Type} {x : Result α} {f : α → Result β} {b : β} (h : x >>= f = .ok b) :
    ∃ a, x = .ok a ∧ f a = .ok b := by
  cases x with
  | error e => cases h
  | ok a => exact ⟨a, rfl, h⟩

theorem createBatchEntries_ok {entries : List ScheduleEntry} {fields : Bytes}
    (h : createBatchEntries entries = .ok fields) : fields = stream Wire.entry.enc entries := by
  induction entries generalizing fields with
  | nil =>
    cases h
    rfl
  | cons e entries ih =>
    obtain ⟨_, -, h⟩ := ok_of_bind h
    obtain ⟨rest, hrest, h⟩ := ok_of_bind h
    cases h
    rw [stream_cons, enc_entry, ih hrest]

theorem filterClauses_ok {clauses : List StreamFilterClause} {bytes : Bytes}
    (h : encodeStreamFilterClauses clauses = .ok bytes) : bytes = clauseStream clauses := by
  induction clauses generalizing bytes with
  | nil =>
    cases h
    rfl
  | cons clause clauses ih =>
    obtain ⟨head, hhead, h⟩ := ok_of_bind h
    obtain ⟨rest, hrest, h⟩ := ok_of_bind h
    cases h
    rw [clauseStream, stream_cons, ← clauseStream, ih hrest]
    cases clause with
    | equals value | notEquals value | startsWith value =>
      cases hhead
      rfl
    | anyOf values =>
      rw [encodeStreamFilterClause] at hhead
      split at hhead
      · cases hhead
      · cases hhead
        rfl

theorem filterField_ok {filter : Option StreamFilterSet} {bytes : Bytes}
    (h : filterField filter = .ok bytes) :
    bytes = (Wire.optional (Wire.sized Wire.filter)).enc (filter.filter fun v => !v.isEmpty) := by
  rw [filterField] at h
  cases hfilter : filter.filter fun v => !v.isEmpty with
  | none =>
    rw [hfilter] at h
    cases h
    rfl
  | some f =>
    rw [hfilter] at h
    obtain ⟨encoded, hencoded, h⟩ := ok_of_bind h
    cases h
    rw [encodeStreamFilterSet] at hencoded
    split at hencoded
    · cases hencoded
    · obtain ⟨clauses, hclauses, hencoded⟩ := ok_of_bind hencoded
      cases hencoded
      rw [filterClauses_ok hclauses]
      rfl

/-- The envelope of an ENQUEUE with a TTL. -/
theorem encodeTtl_ok {core payload : Bytes} {hours : UInt32}
    (h : Wire3.encode core [(1, putU32 hours)] = .ok payload) :
    payload = putBytes core ++ ([0, 1, 0, 0, 0, 4] ++ putU32 hours) := by
  obtain ⟨tail, htail, h⟩ := ok_of_bind h
  have hfields : Wire3.encodeFields 0 [(1, putU32 hours)] =
      .ok (putU16 1 ++ putBytes (putU32 hours) ++ []) := rfl
  rw [hfields] at htail
  cases htail
  have hbytes : putU16 1 ++ putBytes (putU32 hours) ++ [] = [0, 1, 0, 0, 0, 4] ++ putU32 hours := by
    rw [List.append_nil, putBytes, length_putU32]
    rfl
  rw [hbytes] at h
  simp only [List.isEmpty_cons, Bool.false_eq_true, if_false] at h
  split at h
  · cases h
  · cases h
    rfl

open RequestKind in
theorem Opening.request_eq {o : Opening} {messageType : UInt16} {payload : Bytes}
    (h : o.request = .ok (messageType, payload)) :
    ∃ d, (DomainCall.opening o).demand = some d ∧ d.frame = ⟨messageType, payload, 0⟩ := by
  cases o with
  | kvBegin route mode =>
    obtain ⟨_, -, h⟩ := ok_of_bind h
    cases h
    exact ⟨_, rfl, rfl⟩
  | streamBegin route ingestMetadata =>
    obtain ⟨_, -, h⟩ := ok_of_bind h
    cases h
    exact ⟨_, rfl, Demand.frame_mk rfl (by simp [format, optionalBytes_eq])⟩
  | leaseAcquire route ownerId ttlSecs waitSeconds =>
    obtain ⟨_, -, h⟩ := ok_of_bind h
    cases h
    exact ⟨_, rfl, Demand.frame_mk rfl (by simp [format])⟩
  | queueReserve route leaseSeconds batchSize waitSeconds =>
    obtain ⟨_, -, h⟩ := ok_of_bind h
    cases h
    refine ⟨_, rfl, Demand.frame_mk rfl ?_⟩
    simp only [format, Format.enc_pair, Format.enc_mark, enc_string, enc_u64, enc_u32, enc_optional,
      List.append_assoc]
    cases waitSeconds.filter (0 < ·) with
    | none => rfl
    | some wait => rfl

open RequestKind in
/-- **What the code writes is the format of what it asks for.** -/
theorem DomainCall.frame_eq {sh : Shared} {c : DomainCall} {f : RequestFrame}
    (h : c.frame sh = .ok (some f)) : ∃ d, c.demand = some d ∧ d.frame = f := by
  cases c with
  | opening o =>
    obtain ⟨⟨messageType, payload⟩, hreq, h⟩ := ok_of_bind h
    cases h
    exact Opening.request_eq hreq
  | operation hd op =>
    have hmap := Except.ok.inj h
    obtain ⟨⟨messageType, payload⟩, hreq, rfl⟩ := Option.map_eq_some_iff.1 hmap
    exact Handle.request_eq hreq
  | subscribe topic pattern =>
    obtain ⟨_, -, h⟩ := ok_of_bind h
    cases h
    exact ⟨_, rfl, rfl⟩
  | unsubscribe topic pattern wireId =>
    cases h
    cases topic with
    | notice => exact ⟨_, rfl, rfl⟩
    | kv | queue | lease | stream | schedule => exact ⟨_, rfl, rfl⟩
  | enqueue route body options =>
    obtain ⟨frame, hframe, h⟩ := ok_of_bind h
    cases h
    obtain ⟨_, -, hframe⟩ := ok_of_bind hframe
    have hcore : encodeEnqueue route body options.delaySeconds =
        enqueueCore.enc (route, body, options.delaySeconds.filter (0 < ·)) := by
      simp only [encodeEnqueue, enqueueCore, Format.enc_pair, enc_string, enc_bytes, enc_optional,
        List.append_assoc]
      cases options.delaySeconds.filter (0 < ·) with
      | none => rfl
      | some delay => rfl
    cases httl : options.ttlHours with
    | none =>
      simp only [httl] at hframe
      cases hframe
      refine ⟨⟨.enqueue, route, body, options.delaySeconds.filter (0 < ·)⟩, ?_,
        Demand.frame_mk rfl hcore.symm⟩
      simp only [DomainCall.demand, httl]
    | some hours =>
      simp only [httl] at hframe
      obtain ⟨_, -, hframe⟩ := ok_of_bind hframe
      obtain ⟨payload, hpayload, hframe⟩ := ok_of_bind hframe
      cases hframe
      refine ⟨⟨.enqueueTtl, (route, body, options.delaySeconds.filter (0 < ·)), hours.1⟩, ?_,
        Demand.frame_mk rfl ?_⟩
      · simp only [DomainCall.demand, httl]
      · rw [encodeTtl_ok hpayload, hcore]
        rfl
  | leaseList pattern cursor limit =>
    obtain ⟨_, -, h⟩ := ok_of_bind h
    cases h
    refine ⟨_, rfl, Demand.frame_mk rfl ?_⟩
    simp only [format, listPayload, Format.enc_pair, enc_string, enc_u32, enc_optional,
      List.append_assoc]
    cases cursor with
    | none => rfl
    | some cursor => rfl
  | publish route body | publishWithAck route body =>
    obtain ⟨payload, hpayload, h⟩ := ok_of_bind h
    cases h
    obtain ⟨_, -, hpayload⟩ := ok_of_bind hpayload
    split at hpayload
    · cases hpayload
    · cases hpayload
      exact ⟨_, rfl, Demand.frame_mk rfl (by simp [format, putBytes])⟩
  | leaseQuery route | peek route | metadata route | cancelSchedule route =>
    obtain ⟨_, -, h⟩ := ok_of_bind h
    cases h
    exact ⟨_, rfl, rfl⟩
  | unsubscribeAll =>
    cases h
    exact ⟨_, rfl, rfl⟩
  | readPage route startOffset limit options =>
    obtain ⟨payload, hpayload, h⟩ := ok_of_bind h
    cases h
    obtain ⟨_, -, hpayload⟩ := ok_of_bind hpayload
    obtain ⟨filter, hfilter, hpayload⟩ := ok_of_bind hpayload
    cases hpayload
    rw [filterField_ok hfilter]
    exact ⟨_, rfl, Demand.frame_mk rfl (by simp [format, optionalU64_eq])⟩
  | create entry =>
    obtain ⟨_, -, h⟩ := ok_of_bind h
    cases h
    exact ⟨_, rfl, Demand.frame_mk rfl (enc_entry entry)⟩
  | createBatch entries =>
    obtain ⟨payload, hpayload, h⟩ := ok_of_bind h
    cases h
    rw [createBatchPayload] at hpayload
    split at hpayload
    · cases hpayload
    · obtain ⟨fields, hfields, hpayload⟩ := ok_of_bind hpayload
      cases hpayload
      rw [createBatchEntries_ok hfields]
      exact ⟨_, rfl, rfl⟩
  | listV2 continuation limit =>
    cases h
    refine ⟨_, rfl, Demand.frame_mk rfl ?_⟩
    cases continuation with
    | none => cases limit <;> rfl
    | some cursor => cases limit <;> rfl
  | call correlationId route body timeout elapsed =>
    obtain ⟨payload, hpayload, h⟩ := ok_of_bind h
    cases h
    obtain ⟨_, -, hpayload⟩ := ok_of_bind hpayload
    cases timeout with
    | none =>
      cases hpayload
      exact ⟨_, rfl, Demand.frame_mk rfl (by simp [format, putOptional])⟩
    | some timeout =>
      by_cases hday : day < timeout
      · simp [hday] at hpayload
        cases hpayload
      · simp [hday] at hpayload
        cases hpayload
        exact ⟨_, rfl, Demand.frame_mk rfl (by simp [format, putOptional])⟩
  | registerWorker pattern maxConcurrency =>
    obtain ⟨payload, hpayload, h⟩ := ok_of_bind h
    cases h
    obtain ⟨_, -, hpayload⟩ := ok_of_bind hpayload
    obtain ⟨_, -, hpayload⟩ := ok_of_bind hpayload
    cases hpayload
    exact ⟨_, rfl, Demand.frame_mk rfl (by simp [format, putU8])⟩
  | deregister pattern =>
    cases h
    exact ⟨_, rfl, rfl⟩
  | respond correlationId sequence isEnd body =>
    cases h
    exact ⟨_, rfl, Demand.frame_mk rfl (by simp [format, respondPayload])⟩
  | cancelCall correlationId reason | cleanup correlationId =>
    cases h
    exact ⟨_, rfl, rfl⟩

theorem DomainCall.wire_eq {sh : Shared} {c : DomainCall} {correlationId : UInt64} {bytes : Bytes}
    (h : c.wire sh correlationId = .ok (some bytes)) :
    ∃ d, c.demand = some d ∧ tryEncodeFrame d.frame.messageType d.frame.flags correlationId
      d.frame.payload = .ok bytes := by
  obtain ⟨f, hf, h⟩ := ok_of_bind h
  cases f with
  | none => cases h
  | some f =>
    obtain ⟨encoded, hencoded, h⟩ := ok_of_bind h
    cases h
    obtain ⟨d, hd, rfl⟩ := DomainCall.frame_eq hf
    exact ⟨d, hd, (encodeOutbound_ok hencoded).1⟩

/-- What a frame carries behind its header. -/
theorem payload_of_encode {messageType : UInt16} {flags : UInt8} {id : UInt64} {payload bytes : Bytes}
    (h : tryEncodeFrame messageType flags id payload = .ok bytes) :
    bytes.drop frameHeaderLen = payload ∧ payload.length < 2 ^ 32 := by
  obtain ⟨hbytes, hsize, -⟩ := tryEncodeFrame_ok h
  rw [frameHeaderLen, maxMessageSize] at hsize
  refine ⟨?_, by omega⟩
  rw [hbytes, List.drop_left']
  simp [putU8, frameHeaderLen]

/-- The bytes of a frame tell its correlation id and its demand. -/
theorem Demand.eq_of_encode {d e : Demand} {id id' : UInt64} {bytes : Bytes}
    (hd : tryEncodeFrame d.frame.messageType d.frame.flags id d.frame.payload = .ok bytes)
    (he : tryEncodeFrame e.frame.messageType e.frame.flags id' e.frame.payload = .ok bytes) :
    id = id' ∧ d = e := by
  have hheader := decodeFrameHeader_of_encode hd
  rw [decodeFrameHeader_of_encode he] at hheader
  have heq := Except.ok.inj hheader
  have htype : e.frame.messageType = d.frame.messageType := congrArg FrameHeader.messageType heq
  have hflags : e.frame.flags = d.frame.flags := congrArg FrameHeader.flags heq
  have hid : id' = id := congrArg FrameHeader.correlationId heq
  obtain ⟨hdrop, hlen⟩ := payload_of_encode hd
  obtain ⟨hdrop', -⟩ := payload_of_encode he
  have hpayload : d.frame.payload = e.frame.payload := by rw [← hdrop, hdrop']
  refine ⟨hid.symm, Demand.eq_of_frame hlen ?_⟩
  calc d.frame = ⟨d.frame.messageType, d.frame.payload, d.frame.flags⟩ := rfl
    _ = ⟨e.frame.messageType, e.frame.payload, e.frame.flags⟩ := by rw [htype, hflags, hpayload]

/-- **Requests are unambiguous.** Of any two calls that write a frame, with whatever
arguments, handles and limits in force, the frames are the same bytes exactly when they
carry the same correlation id and the calls ask for the same thing. -/
theorem requests_unambiguous (sh sh' : Shared) (c c' : DomainCall) (id id' : UInt64)
    (bytes bytes' : Bytes) (h : c.wire sh id = .ok (some bytes))
    (h' : c'.wire sh' id' = .ok (some bytes')) :
    bytes = bytes' ↔ id = id' ∧ c.demand = c'.demand := by
  obtain ⟨d, hd, henc⟩ := DomainCall.wire_eq h
  obtain ⟨e, he, henc'⟩ := DomainCall.wire_eq h'
  rw [hd, he, Option.some.injEq]
  constructor
  · intro hbytes
    rw [← hbytes] at henc'
    exact Demand.eq_of_encode henc henc'
  · rintro ⟨hid, hde⟩
    rw [hid, hde, henc'] at henc
    exact (Except.ok.inj henc).symm

/-- The two messages of RPC_CANCEL, about one call. -/
theorem requests_unambiguous_cancel :
    let call : CorrelationId := ⟨List.replicate 16 7, rfl⟩
    let sh : Shared := ⟨1, 0, 1048576, 16, 3⟩
    let canceled := [1, 48, 0, 0, 0, 0, 0, 0, 0, 0, 5, 0, 0, 0, 18, 1] ++ (call.bytes ++ [1])
    let cleaned := [1, 48, 0, 0, 0, 0, 0, 0, 0, 0, 5, 0, 0, 0, 17, 3] ++ call.bytes
    (DomainCall.cancelCall call 1).wire sh 5 = .ok (some canceled) ∧
      (DomainCall.cleanup call).wire sh 5 = .ok (some cleaned) ∧ canceled ≠ cleaned := by
  intro call sh canceled cleaned
  have hcancel : (DomainCall.cancelCall call 1).wire sh 5 = .ok (some canceled) := by decide
  have hcleanup : (DomainCall.cleanup call).wire sh 5 = .ok (some cleaned) := by decide
  refine ⟨hcancel, hcleanup, fun hbytes => ?_⟩
  have hsame := (requests_unambiguous sh sh (.cancelCall call 1) (.cleanup call) 5 5 canceled
    cleaned hcancel hcleanup).1 hbytes
  cases hsame.2

end Fitz
