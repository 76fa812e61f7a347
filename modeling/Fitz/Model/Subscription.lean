import Fitz.Model.Handle

/-!
# Subscriptions

The subscription streams of the domain clients (`src/client_domains`): what
`subscribe` sends, registers and decodes, the broadcast receiver of its
notification type (`src/notifications.rs`), and one pass of the loop of
`poll_next`. `Subs` runs them over a connection, one event a step of one party.
The receiver starts before the request is sent, and an item is compared with the
wire id when it is polled.
-/

namespace Fitz

namespace MessageType

def kvSubscribe : UInt16 := 109
def kvNotify : UInt16 := 111
def queueSubscribe : UInt16 := 207
def queueNotify : UInt16 := 209
def leaseSubscribe : UInt16 := 407
def leaseNotify : UInt16 := 409
def noticeSubscribe : UInt16 := 501
def noticeNotify : UInt16 := 504
def streamSubscribe : UInt16 := 607
def streamNotify : UInt16 := 609
def scheduleSubscribe : UInt16 := 703
def scheduleNotify : UInt16 := 705

end MessageType

/-! ## The domains -/

inductive Topic
  | kv
  | queue
  | lease
  | notice
  | stream
  | schedule
  deriving DecidableEq

namespace Topic

def subscribeType : Topic → UInt16
  | .kv => MessageType.kvSubscribe
  | .queue => MessageType.queueSubscribe
  | .lease => MessageType.leaseSubscribe
  | .notice => MessageType.noticeSubscribe
  | .stream => MessageType.streamSubscribe
  | .schedule => MessageType.scheduleSubscribe

def notifyType : Topic → UInt16
  | .kv => MessageType.kvNotify
  | .queue => MessageType.queueNotify
  | .lease => MessageType.leaseNotify
  | .notice => MessageType.noticeNotify
  | .stream => MessageType.streamNotify
  | .schedule => MessageType.scheduleNotify

/-- The validation of the pattern. -/
def validate (pattern : String) : Topic → Result Unit
  | .kv => validateRegistrationPattern pattern "kv" 3
  | .queue => validateRegistrationPattern pattern "queue" 3
  | .lease => validateRegistrationPattern pattern "lease" 3
  | .notice => validateRegistrationPattern pattern "notice" 0
  | .stream => validateStreamSelector pattern
  | .schedule => validateRegistrationPattern pattern "schedule" 4

/-- The clients that keep one registration for all handles of a pattern. -/
def shared : Topic → Bool
  | .notice | .stream | .schedule => true
  | _ => false

/-- `decode_subscription_id` of each domain. -/
def decodeSubscriptionId : Topic → Bytes → Result UInt64
  | .kv => Decode.on (do
      success "KV SUBSCRIBE"
      getU64)
  | .queue => Decode.on (do
      queueSuccess "SUBSCRIBE"
      if (← getU8) ≠ 1 then throw (.protocol "Queue SUBSCRIBE response missing subscription id")
      getU64)
  | .lease => Decode.on (do
      leaseSuccess "SUBSCRIBE"
      let subscriptionId ← getU64
      if !(← isEmpty) then throw (.protocol "lease SUBSCRIBE response has trailing bytes")
      return subscriptionId)
  | .notice => Decode.on (do
      success "NOTICE SUBSCRIBE"
      if (← remaining) = 9 then
        if (← getU8) ≠ 1 then
          throw (.protocol "NOTICE SUBSCRIBE response omitted subscription id")
      getU64)
  | .stream => fun response => do
      let decoded ← decodeStreamResponse "SUBSCRIBE" response
      match decoded.sessionId with
      | some sessionId => return sessionId
      | none => throw (.protocol "SUBSCRIBE response missing subscription id")
  | .schedule => Decode.on (do
      success "Schedule SUBSCRIBE"
      if (← getU8) ≠ 1 then
        throw (.protocol "schedule SUBSCRIBE response is missing subscription id")
      let subscriptionId ← getU64
      if !(← isEmpty) then throw (.protocol "schedule SUBSCRIBE response has trailing bytes")
      return subscriptionId)

end Topic

/-! ## Notifications -/

/-- The fields `serde_json` reads from the body of a stream notification. -/
structure DecodedStreamNotifyPayload where
  event : String
  firstResourceOffset : UInt64
  lastResourceOffset : UInt64
  firstAreaOffset : UInt64
  lastAreaOffset : UInt64
  firstRealmOffset : UInt64
  lastRealmOffset : UInt64
  batchSize : UInt64
  deriving DecidableEq

inductive Notification
  | kv (route : String) (mutationCount : UInt64)
  | queue (route : String) (payload : Bytes)
  | lease (route : String)
  | notice (route : String) (body : Bytes)
  | stream (route : String) (parsed : DecodedStreamNotifyPayload) (payload : Bytes)
  | schedule (route : String) (payload : Bytes)
  deriving DecidableEq

/-- The item of a notification after its subscription id. `json` is
`serde_json::from_slice`, with the text of its error. -/
def Topic.item (json : Bytes → Except String DecodedStreamNotifyPayload) : Topic → Decode Notification
  | .kv => do return .kv (← getString) (← getU64)
  | .queue => do
    let route ← getString
    let payload ← getBytes
    if !(← isEmpty) then throw (.protocol "Queue NOTIFY response has trailing bytes")
    return .queue route payload
  | .lease => do return .lease (← getString)
  | .notice => do return .notice (← getString) (← getBytes)
  | .stream => do
    let route ← getString
    let body ← getBytes
    match json body with
    | .ok parsed => return .stream route parsed body
    | .error error => throw (.protocol ("invalid stream notification JSON: " ++ error))
  | .schedule => do return .schedule (← getString) (← getBytes)

/-- What the loop of `poll_next` makes of an item. -/
inductive ItemPoll
  /-- the item is for another registration -/
  | skipped
  | ready (item : Result Notification)

def pollItem (json : Bytes → Except String DecodedStreamNotifyPayload) (topic : Topic)
    (wireId : UInt64) (payload : Bytes) : ItemPoll :=
  match getU64.on payload with
  | .error error => .ready (.error error)
  | .ok subscriptionId =>
    if subscriptionId ≠ wireId then .skipped
    else .ready (Decode.on (do let _ ← getU64; topic.item json) payload)

/-! ## Subscriptions over a connection -/

/-- How far `subscribe` has got. -/
inductive SubStage
  /-- the receiver exists -/
  | listening
  | requested (t : Ticket)
  | answered (t : Ticket) (response : Bytes)
  /-- the handle exists: its cell, and of its first wire id the call and the
  transport it was answered on -/
  | registered (cell : Cell) (t : Ticket) (on : ℕ)
  deriving DecidableEq

/-- A subscription, with its receiver: the notifications since `mark`, of which
`taken` are read or lost. -/
structure Subscription where
  topic : Topic
  pattern : String
  mark : ℕ
  taken : ℕ
  stage : SubStage
  closed : Bool
  deriving DecidableEq

/-- A notification a stream yielded. -/
structure Yield where
  sub : ℕ
  /-- the transport it arrived on -/
  serial : ℕ
  id : UInt64
  item : Notification
  deriving DecidableEq

structure Subs where
  conn : Conn
  subs : List Subscription
  yields : List Yield

inductive SubEvent
  /-- any other step over the connection -/
  | conn (e : Event)
  /-- `subscribe` makes its receiver -/
  | listen (topic : Topic) (pattern : String)
  /-- its request allocates its id -/
  | request (i : ℕ)
  /-- it gets its response -/
  | receive (i : ℕ)
  /-- it decodes the id and registers -/
  | register (i : ℕ)
  /-- it finds a handle of the same pattern and shares its registration -/
  | share (i j : ℕ)
  /-- one pass of the loop of `poll_next` -/
  | poll (i : ℕ)
  | close (i : ℕ)

/-- The buffer of the broadcast channels the streams read. -/
def notificationCapacity : ℕ := 64

namespace Subs

def new (cfg : Config) : Subs := ⟨.new cfg, [], []⟩

def setStage (s : Subs) (i : ℕ) (stage : SubStage) : Subs :=
  { s with subs := s.subs.modify i fun sub => { sub with stage := stage } }

def setTaken (s : Subs) (i taken : ℕ) : Subs :=
  { s with subs := s.subs.modify i fun sub => { sub with taken := taken } }

def listen (s : Subs) (topic : Topic) (pattern : String) : Subs :=
  match topic.validate pattern with
  | .ok () => { s with subs := s.subs ++ [⟨topic, pattern, s.conn.log.length, 0, .listening, false⟩] }
  | .error _ => s

def request (cfg : Config) (s : Subs) (i : ℕ) : Subs :=
  match s.subs[i]? with
  | some sub =>
    match sub.stage with
    | .listening =>
      { s.setStage i (.requested s.conn.nextTicket) with
        conn := s.conn.step cfg (.allocate (.request 0) sub.topic.subscribeType (putString sub.pattern)) }
    | _ => s
  | none => s

def receive (cfg : Config) (s : Subs) (i : ℕ) : Subs :=
  match s.subs[i]? with
  | some sub =>
    match sub.stage with
    | .requested t =>
      match s.conn.calls.lookup t, s.conn.answers.find? (·.1 = t) with
      | some _, some (_, some (.ok response)) =>
        { s.setStage i (.answered t response) with conn := s.conn.step cfg (.resume t) }
      | _, _ => s
    | _ => s
  | none => s

def register (cfg : Config) (s : Subs) (i : ℕ) : Subs :=
  match s.subs[i]? with
  | some sub =>
    match sub.stage with
    | .answered t response =>
      match sub.topic.decodeSubscriptionId response with
      | .ok id =>
        { s.setStage i (.registered s.conn.nextCell t ((responseOn s.conn.log t response).getD 0)) with
          conn := s.conn.step cfg (.register sub.topic.subscribeType (putString sub.pattern) id
            sub.topic.decodeSubscriptionId) }
      | .error _ => s
    | _ => s
  | none => s

/-- The handle at `j` and the waiting `subscribe` at `i` have one registration. -/
def share (s : Subs) (i j : ℕ) : Subs :=
  match s.subs[i]?, s.subs[j]? with
  | some sub, some other =>
    match sub.stage, other.stage with
    | .listening, .registered cell t on =>
      if sub.topic.shared ∧ sub.topic = other.topic ∧ sub.pattern = other.pattern then
        s.setStage i (.registered cell t on)
      else s
    | _, _ => s
  | _, _ => s

/-- What the receiver of a subscription has not read. -/
def unread (log : List Obs) (sub : Subscription) : List (ℕ × Bytes) :=
  (notified log sub.mark sub.topic.notifyType).drop sub.taken

/-- A receiver that is too far behind loses all but the last items; the stream
says so once. Otherwise it takes the next. -/
def poll (json : Bytes → Except String DecodedStreamNotifyPayload) (s : Subs) (i : ℕ) : Subs :=
  match s.subs[i]? with
  | some sub =>
    match sub.stage, sub.closed, unread s.conn.log sub with
    | .registered cell _ _, false, (serial, payload) :: rest =>
      if rest.length ≥ notificationCapacity then
        s.setTaken i (sub.taken + (rest.length + 1 - notificationCapacity))
      else
        let s' := s.setTaken i (sub.taken + 1)
        match pollItem json sub.topic (s.conn.wireIds cell) payload with
        | .ready (.ok item) =>
          { s' with yields := s.yields ++ [⟨i, serial, s.conn.wireIds cell, item⟩] }
        | _ => s'
    | _, _, _ => s
  | none => s

def close (s : Subs) (i : ℕ) : Subs :=
  { s with subs := s.subs.modify i fun sub => { sub with closed := true } }

def step (cfg : Config) (json : Bytes → Except String DecodedStreamNotifyPayload) (s : Subs) :
    SubEvent → Subs
  | .conn e => { s with conn := s.conn.step cfg e }
  | .listen topic pattern => s.listen topic pattern
  | .request i => s.request cfg i
  | .receive i => s.receive cfg i
  | .register i => s.register cfg i
  | .share i j => s.share i j
  | .poll i => s.poll json i
  | .close i => s.close i

end Subs

end Fitz
